import Selection.Proofs.DurationGrammar

/-! # Designators in turn

The documented grammar of durations has hours, minutes and seconds in this order and each at most
once. The reader takes them as they come, and of a repeated one the last number counts. So it
follows the documented grammar exactly on the texts whose designators come in turn. The texts that
are out of turn are read all the same, and no text makes a machine number overflow.
-/

namespace Selection.Duration

variable {cs : List Char} {c : Char} {n nanos : Nat} {p q : Parts}

/-! ## Two grammars -/

/-- Numbers before their designators, those of some units in turn and each at most once. -/
inductive InTurn : List ClockUnit → Parts → List Char → Parts → Prop
  | done (p : Parts) : InTurn [] p [] p
  | skip {unit : ClockUnit} {units : List ClockUnit} {cs : List Char} {p q : Parts}
      (rest : InTurn units p cs q) : InTurn (unit :: units) p cs q
  | next {unit : ClockUnit} {units : List ClockUnit} {ds cs : List Char} {c : Char}
      {p p' q : Parts} (number : unit.Puts ds p p') (letter : c.toUpper = unit.designator)
      (rest : InTurn units p' cs q) : InTurn (unit :: units) p (ds ++ c :: cs) q

/-- A letter that tells hours, minutes or seconds. -/
def isDesignator (c : Char) : Bool :=
  c.toUpper == 'H' || c.toUpper == 'M' || c.toUpper == 'S'

def designators (cs : List Char) : List Char :=
  (cs.filter isDesignator).map Char.toUpper

/-- Hours, minutes and seconds are told in this order and each at most once. -/
def DesignatorsInTurn (cs : List Char) : Prop :=
  (designators cs).Sublist ['H', 'M', 'S']

instance : DecidablePred DesignatorsInTurn :=
  fun _ => inferInstanceAs (Decidable (List.Sublist _ _))

@[simp] theorem designators_append (before after : List Char) :
    designators (before ++ after) = designators before ++ designators after := by
  simp [designators]

theorem designators_cons (c : Char) (cs : List Char) :
    designators (c :: cs) =
      if isDesignator c then c.toUpper :: designators cs else designators cs := by
  rw [designators, List.filter_cons]
  split <;> rfl

theorem isDesignator_of_isDigit (h : c.isDigit = true) : isDesignator c = false := by
  rw [isDesignator, toUpper_of_isDigit h, Text.beq_eq_false_of_isDigit h (by decide),
    Text.beq_eq_false_of_isDigit h (by decide), Text.beq_eq_false_of_isDigit h (by decide)]
  rfl

/-- A text of digits and characters that designate nothing has no designators. -/
theorem designators_of_among {extra : List Char} (h : Text.Among extra cs)
    (hextra : ∀ c ∈ extra, isDesignator c = false) : designators cs = [] := by
  have hnone : cs.filter isDesignator = [] := by
    rw [List.filter_eq_nil_iff]
    intro c hc
    rw [Bool.not_eq_true]
    exact (h c hc).elim isDesignator_of_isDigit (hextra c)
  rw [designators, hnone, List.map_nil]

theorem ClockUnit.isDesignator_of_letter {unit : ClockUnit} (h : c.toUpper = unit.designator) :
    isDesignator c = true := by
  rw [isDesignator, h]
  cases unit <;> rfl

/-- What is put into a unit has the designator of the unit and no other. -/
theorem ClockUnit.Puts.designators_append_cons {unit : ClockUnit} (h : unit.Puts cs p q)
    (hletter : c.toUpper = unit.designator) (rest : List Char) :
    designators (cs ++ c :: rest) = unit.designator :: designators rest := by
  rw [designators_append, designators_of_among h.among (by decide), List.nil_append,
    designators_cons, if_pos (unit.isDesignator_of_letter hletter), hletter]

/-- Units are told apart by their designators. -/
theorem ClockUnit.designator_injective : Function.Injective ClockUnit.designator := by
  intro unit unit' h
  cases unit <;> cases unit' <;> first | rfl | contradiction

theorem InTurn.nil (units : List ClockUnit) (p : Parts) : InTurn units p [] p := by
  induction units with
  | nil => exact .done p
  | cons unit units ih => exact .skip ih

/-- Numbers come in turn exactly when they come in any order and their designators come in turn. -/
theorem inTurn_iff {units : List ClockUnit} : InTurn units p cs q ↔
    AnyOrder p cs q ∧ (designators cs).Sublist (units.map ClockUnit.designator) := by
  constructor
  · intro h
    induction h with
    | done p => exact ⟨.done p, .slnil⟩
    | skip _ ih => exact ⟨ih.1, ih.2.cons _⟩
    | next hnumber hletter _ ih =>
        refine ⟨.next hnumber hletter ih.1, ?_⟩
        rw [hnumber.designators_append_cons hletter]
        exact ih.2.cons_cons _
  · rintro ⟨h, hsublist⟩
    induction h generalizing units with
    | done p => exact .nil units p
    | next hnumber hletter _ ih =>
        rw [hnumber.designators_append_cons hletter] at hsublist
        -- The units before the one whose number comes next are left out.
        induction units with
        | nil => simp at hsublist
        | cons unit units ihunits =>
            rcases List.cons_sublist_cons'.mp hsublist with hlater | ⟨hunit, hrest⟩
            · exact .skip (ihunits hlater)
            · rw [ClockUnit.designator_injective hunit] at hnumber hletter
              exact .next hnumber hletter (ih hrest)

/-- The units behind a `T` in the order of the grammar. -/
def ClockUnit.all : List ClockUnit :=
  [hours, minutes, seconds]

theorem isDesignator_of_letter {letter : Char} (hletter : isDesignator letter = false)
    (hupper : letter.toUpper = letter) (h : c.toUpper = letter) : isDesignator c = false := by
  rw [isDesignator, hupper] at hletter
  rwa [isDesignator, h]

theorem IsDays.designators_eq_nil (h : IsDays cs n) : designators cs = [] := by
  cases h with
  | absent => rfl
  | present hnumber hletter =>
      rw [designators_append, designators_of_among (hnumber.among []) (by simp), List.nil_append,
        designators_cons, isDesignator_of_letter (by decide) (by decide) hletter]
      rfl

/-- An ISO form has its clock in turn when its designators come in turn. -/
theorem isIso_inTurn_iff :
    IsIso (InTurn ClockUnit.all) cs p ↔ IsIso AnyOrder cs p ∧ DesignatorsInTurn cs := by
  have hclock {ds rest : List Char} {c : Char} {days : Nat} (hdays : IsDays ds days)
      (hletter : c.toUpper = 'T') : designators (ds ++ c :: rest) = designators rest := by
    rw [designators_append, hdays.designators_eq_nil, List.nil_append, designators_cons,
      isDesignator_of_letter (by decide) (by decide) hletter]
    rfl
  constructor
  · intro h
    cases h with
    | days hdays hne =>
        refine ⟨.days hdays hne, ?_⟩
        rw [DesignatorsInTurn, hdays.designators_eq_nil]
        exact List.nil_sublist _
    | clock hdays hletter hne hform =>
        obtain ⟨hany, hsublist⟩ := inTurn_iff.mp hform
        refine ⟨.clock hdays hletter hne hany, ?_⟩
        rwa [DesignatorsInTurn, hclock hdays hletter]
  · rintro ⟨h, hsublist⟩
    cases h with
    | days hdays hne => exact .days hdays hne
    | clock hdays hletter hne hany =>
        rw [DesignatorsInTurn, hclock hdays hletter] at hsublist
        exact .clock hdays hletter hne (inTurn_iff.mpr ⟨hany, hsublist⟩)

/-- A magnitude has its clock in turn when its designators come in turn. -/
theorem isMagnitude_inTurn_iff :
    IsMagnitude (InTurn ClockUnit.all) cs p ↔ IsMagnitude AnyOrder cs p ∧ DesignatorsInTurn cs := by
  have hcons {c : Char} {rest : List Char} (hletter : c.toUpper = 'P') :
      designators (c :: rest) = designators rest := by
    rw [designators_cons, isDesignator_of_letter (by decide) (by decide) hletter]
    rfl
  constructor
  · intro h
    cases h with
    | iso hletter hiso =>
        obtain ⟨hany, hsublist⟩ := isIso_inTurn_iff.mp hiso
        refine ⟨.iso hletter hany, ?_⟩
        rwa [DesignatorsInTurn, hcons hletter]
    | span hspan =>
        refine ⟨.span hspan, ?_⟩
        rw [DesignatorsInTurn, designators_of_among hspan.among (by decide)]
        exact List.nil_sublist _
  · rintro ⟨h, hsublist⟩
    cases h with
    | iso hletter hany =>
        rw [DesignatorsInTurn, hcons hletter] at hsublist
        exact .iso hletter (isIso_inTurn_iff.mpr ⟨hany, hsublist⟩)
    | span hspan => exact .span hspan

/-- The documented grammar is that of the reader with the designators in turn. -/
theorem spells_inTurn_iff {d : Duration} : Spells (InTurn ClockUnit.all) cs d ↔
    Spells AnyOrder cs d ∧ DesignatorsInTurn (Text.trim cs) := by
  have hminus (body : List Char) : designators ('-' :: body) = designators body :=
    designators_cons '-' body
  constructor
  · intro h
    cases h with
    | positive hmagnitude hnanos =>
        obtain ⟨hany, hsublist⟩ := isMagnitude_inTurn_iff.mp hmagnitude
        exact ⟨.positive hany hnanos, hsublist⟩
    | negative htrim hmagnitude hnanos =>
        obtain ⟨hany, hsublist⟩ := isMagnitude_inTurn_iff.mp hmagnitude
        refine ⟨.negative htrim hany hnanos, ?_⟩
        rwa [htrim, DesignatorsInTurn, hminus]
  · rintro ⟨h, hsublist⟩
    cases h with
    | positive hany hnanos =>
        exact .positive (isMagnitude_inTurn_iff.mpr ⟨hany, hsublist⟩) hnanos
    | negative htrim hany hnanos =>
        rw [htrim, DesignatorsInTurn, hminus] at hsublist
        exact .negative htrim (isMagnitude_inTurn_iff.mpr ⟨hany, hsublist⟩) hnanos

/-! ## Machine numbers -/

/-- Parts that fit into machine numbers, signed ones of 64 bits and an unsigned one of 32 bits for
the nanoseconds. -/
structure Parts.Fits (p : Parts) : Prop where
  days_lt : p.days < 9223372036854775808
  hours_lt : p.hours < 9223372036854775808
  minutes_lt : p.minutes < 9223372036854775808
  seconds_lt : p.seconds < 9223372036854775808
  nanos_lt : p.nanos < 1000000000

theorem IsSeconds.fits (h : IsSeconds cs n nanos) :
    n < 9223372036854775808 ∧ nanos < 1000000000 := by
  cases h with
  | whole hnumber => exact ⟨hnumber.lt_limit, by decide⟩
  | fraction hnumber hfraction => exact ⟨hnumber.lt_limit, hfraction.nanos_lt⟩

theorem ClockUnit.Puts.fits {unit : ClockUnit} (h : unit.Puts cs p q) (hp : p.Fits) : q.Fits := by
  cases h with
  | hours _ hnumber => exact { hp with hours_lt := hnumber.lt_limit }
  | minutes _ hnumber => exact { hp with minutes_lt := hnumber.lt_limit }
  | seconds _ hseconds =>
      exact { hp with seconds_lt := hseconds.fits.1, nanos_lt := hseconds.fits.2 }

theorem AnyOrder.fits (h : AnyOrder p cs q) (hp : p.Fits) : q.Fits := by
  induction h with
  | done p => exact hp
  | next hnumber _ _ ih => exact ih (hnumber.fits hp)

theorem IsClock.fits {days : Nat} (h : IsClock days cs p) (hdays : days < 9223372036854775808) :
    p.Fits := by
  cases h with
  | short hhours hminutes =>
      exact ⟨hdays, hhours.lt_limit, hminutes.lt_limit, Nat.two_pow_pos 63, Nat.succ_pos _⟩
  | long hhours hminutes hseconds =>
      exact ⟨hdays, hhours.lt_limit, hminutes.lt_limit, hseconds.fits.1, hseconds.fits.2⟩

theorem IsDays.lt_limit (h : IsDays cs n) : n < 9223372036854775808 := by
  cases h with
  | absent => decide
  | present hnumber => exact hnumber.lt_limit

theorem fits_days (h : n < 9223372036854775808) : Parts.Fits ⟨n, 0, 0, 0, 0⟩ := by
  constructor <;> simp [h]

theorem IsMagnitude.fits (h : IsMagnitude AnyOrder cs p) : p.Fits := by
  cases h with
  | iso _ hiso =>
      cases hiso with
      | days hdays => exact fits_days hdays.lt_limit
      | clock hdays _ _ hclock => exact hclock.fits (fits_days hdays.lt_limit)
  | span hspan =>
      cases hspan with
      | days hdays => exact fits_days hdays.lt_limit
      | clock hclock => exact hclock.fits (by decide)
      | daysClock hdays hclock => exact hclock.fits hdays.lt_limit

/-- A result that has 63 bits. -/
def checked (n : Nat) : Option Nat :=
  if n < 9223372036854775808 then some n else none

/-- The seconds of the parts, each product and each sum checked on its own. -/
def Parts.checkedSeconds? (p : Parts) : Option Nat := do
  let days ← checked (p.days * 86400)
  let hours ← checked (p.hours * 3600)
  let beforeMinutes ← checked (days + hours)
  let minutes ← checked (p.minutes * 60)
  let beforeSeconds ← checked (beforeMinutes + minutes)
  checked (beforeSeconds + p.seconds)

/-- A number passes when it is below the limit. -/
theorem checked_eq_some_iff {m : Nat} :
    checked n = some m ↔ n = m ∧ n < 9223372036854775808 := by
  rw [checked, Option.ite_none_right_eq_some, Option.some.injEq, and_comm]

/-- The steps only grow, so the last check decides for all of them. -/
theorem Parts.checkedSeconds?_eq (p : Parts) :
    p.checkedSeconds? = checked (((p.days * 24 + p.hours) * 60 + p.minutes) * 60 + p.seconds) := by
  ext seconds
  simp only [checkedSeconds?, Option.bind_eq_bind, Option.bind_eq_some_iff, checked_eq_some_iff]
  constructor
  · rintro ⟨_, ⟨rfl, -⟩, _, ⟨rfl, -⟩, _, ⟨rfl, -⟩, _, ⟨rfl, -⟩, _, ⟨rfl, -⟩, rfl, hlimit⟩
    omega
  · rintro ⟨rfl, hlimit⟩
    exact ⟨_, ⟨rfl, by omega⟩, _, ⟨rfl, by omega⟩, _, ⟨rfl, by omega⟩, _, ⟨rfl, by omega⟩, _,
      ⟨rfl, by omega⟩, by omega, by omega⟩

/-- The duration of the parts in either direction, from the checked seconds. -/
def Parts.checkedDuration? (p : Parts) (negative : Bool) : Option Duration :=
  p.checkedSeconds?.bind fun seconds =>
    let nanos : Int := seconds * 1000000000 + p.nanos
    ofNanos? (if negative then -nanos else nanos)

/-- The checks refuse nothing that lies within the limit of durations. -/
theorem Parts.checkedDuration?_eq (p : Parts) (negative : Bool) :
    p.checkedDuration? negative = ofNanos? (if negative then -(p.total : Int) else p.total) := by
  rw [checkedDuration?, checkedSeconds?_eq, checked]
  split
  next => simp [total]
  next hlimit =>
    have habs : (if negative then -(p.total : Int) else p.total).natAbs = p.total := by
      cases negative <;> simp
    have hbeyond : ¬p.total ≤ limit := by
      simp only [total, limit]
      omega
    rw [Option.bind_none, ofNanos?, dif_neg (by rwa [habs])]

/-! ## The reading of texts -/

/-- A text is read exactly as the grammar with designators in any order says. It is read as the
documented grammar says exactly when its designators come in turn. Whatever the text, the parts fit
into machine numbers, and a sum of theirs that does not is beyond the limit anyhow. -/
theorem read_follows_grammar (s : String) :
    (∀ d, ofText? s = some d ↔ Spells AnyOrder s.toList d) ∧
    (∀ d, Spells (InTurn ClockUnit.all) s.toList d ↔
      ofText? s = some d ∧ DesignatorsInTurn (Text.trim s.toList)) ∧
    ∀ cs p, readParts? cs = some p → p.Fits ∧ ∀ negative,
      p.checkedDuration? negative = ofNanos? (if negative then -(p.total : Int) else p.total) := by
  refine ⟨fun d => read?_eq_some_iff, fun d => ?_, fun cs p h => ⟨?_, p.checkedDuration?_eq⟩⟩
  · rw [spells_inTurn_iff, ofText?, read?_eq_some_iff]
  · exact (readParts?_eq_some_iff.mp h).fits

/-- A negative text with a fraction keeps to the documented grammar. -/
theorem days_with_fraction_in_turn :
    Spells (InTurn ClockUnit.all) " -1.02:03:04.25 ".toList ⟨-93784250000000, by decide⟩ ∧
      Parts.Fits ⟨1, 2, 3, 4, 250000000⟩ := by
  have hgrammar := read_follows_grammar " -1.02:03:04.25 "
  constructor
  · exact (hgrammar.2.1 _).mpr ⟨by decide, by decide⟩
  · exact (hgrammar.2.2 "1.02:03:04.25".toList _ (by decide)).1

/-- Minutes before hours are read, though no text of the documented grammar has them so. -/
theorem minutes_before_hours :
    ofText? "PT1M1H" = some ⟨3660000000000, by decide⟩ ∧
      ¬∃ d, Spells (InTurn ClockUnit.all) "PT1M1H".toList d := by
  have hone : IsNumber ['1'] 1 := ⟨by decide, by decide, by decide, by decide⟩
  have hminutes : ClockUnit.minutes.Puts ['1'] ⟨0, 0, 0, 0, 0⟩ ⟨0, 0, 1, 0, 0⟩ := .minutes _ hone
  have hhours : ClockUnit.hours.Puts ['1'] ⟨0, 0, 1, 0, 0⟩ ⟨0, 1, 1, 0, 0⟩ := .hours _ hone
  have hclock : AnyOrder ⟨0, 0, 0, 0, 0⟩ ['1', 'M', '1', 'H'] ⟨0, 1, 1, 0, 0⟩ :=
    .next hminutes (by decide) (.next hhours (by decide) (.done _))
  have hmagnitude : IsMagnitude AnyOrder ['P', 'T', '1', 'M', '1', 'H'] ⟨0, 1, 1, 0, 0⟩ :=
    .iso (by decide) (.clock .absent (by decide) (List.cons_ne_nil _ _) hclock)
  constructor
  · exact read?_eq_some_iff.mpr (.positive hmagnitude (by decide))
  · rintro ⟨d, hd⟩
    exact absurd (spells_inTurn_iff.mp hd).2 (by decide)

end Selection.Duration
