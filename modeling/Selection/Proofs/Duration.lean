import Selection.Calendar.Duration
import Selection.Proofs.Characters

/-! # Durations are read back from their ISO texts

The ISO text of a duration names only the parts that are not zero. Its reader goes from designator
to designator and puts each number into its part, so the parts come back, and with them the length
of time, to the nanosecond and with its sign.
-/

namespace Selection

namespace Duration

/-! ## Parts -/

/-- The parts of a number of nanoseconds have that total. -/
theorem Parts.total_ofNanos (n : Nat) : (Parts.ofNanos n).total = n := by
  simp only [ofNanos, total]
  omega

/-- Parts that the reader of numbers can tell: on a clock, and with a number of days that has 63
bits. -/
structure Parts.Readable (p : Parts) : Prop where
  days_lt : p.days < 9223372036854775808
  hours_lt : p.hours < 24
  minutes_lt : p.minutes < 60
  seconds_lt : p.seconds < 60
  nanos_lt : p.nanos < 1000000000

/-- The parts of a duration are small enough to be read. -/
theorem parts_readable (x : Duration) : x.parts.Readable := by
  have hwithin : x.nanos.natAbs ≤ 9223372036854775807 * 1000000 := x.within
  constructor <;> simp only [parts, Parts.ofNanos] <;> omega

/-! ## Numbers -/

variable {ds rest : List Char} {p : Parts} {n : Nat}

theorem readNumber?_eq_some (hne : ds ≠ []) (hdigits : ∀ c ∈ ds, c.isDigit = true)
    (h : Numeral.value ds < 9223372036854775808) : readNumber? ds = some (Numeral.value ds) := by
  rw [readNumber?, Numeral.read?_eq_some hne hdigits]
  simp [h]

theorem readNumber?_digits (h : n < 9223372036854775808) :
    readNumber? (Numeral.digits n) = some n := by
  have hvalue := Numeral.value_digits n
  rw [readNumber?_eq_some (Numeral.digits_ne_nil n) (fun c hc => Numeral.isDigit_of_mem_digits hc)
    (by rwa [hvalue]), hvalue]

theorem readSeconds?_digits (h : n < 9223372036854775808) :
    readSeconds? (Numeral.digits n) = some (n, 0) := by
  rw [readSeconds?, Text.cutAt_eq_none fun c hc =>
    Text.beq_eq_false_of_isDigit (Numeral.isDigit_of_mem_digits hc) (by decide)]
  simp [readNumber?_digits h]

/-- The zeros at the end of a fraction do not count, so it may be written without them. -/
theorem readSeconds?_fraction {nanos : Nat} (h : n < 9223372036854775808) (hpos : nanos ≠ 0)
    (hnanos : nanos < 1000000000) :
    readSeconds? (Numeral.digits n ++ '.' :: Numeral.dropTrailingZeros (Numeral.padded 9 nanos)) =
      some (n, nanos) := by
  have hlength : (Numeral.padded 9 nanos).length = 9 := Numeral.length_padded (by decide) hnanos
  have hvalue := Numeral.value_dropTrailingZeros (Numeral.padded 9 nanos)
  have hshort : (Numeral.dropTrailingZeros (Numeral.padded 9 nanos)).length ≤ 9 := by
    obtain ⟨k, hk⟩ := Numeral.dropTrailingZeros_append (Numeral.padded 9 nanos)
    have := congrArg List.length hk
    rw [List.length_append, hlength] at this
    omega
  generalize hfraction : Numeral.dropTrailingZeros (Numeral.padded 9 nanos) = fraction at *
  rw [hlength, Numeral.value_padded] at hvalue
  have hdigits : ∀ c ∈ fraction, c.isDigit = true := by
    intro c hc
    rw [← hfraction] at hc
    exact Numeral.isDigit_of_mem_padded (Numeral.mem_of_mem_dropTrailingZeros hc)
  -- Not all digits of the fraction are zeros, so some of them are left.
  have hne : fraction ≠ [] := by
    rintro rfl
    rw [Numeral.value_nil, Nat.zero_mul] at hvalue
    exact hpos hvalue.symm
  have hsmall : Numeral.value fraction < 9223372036854775808 := by
    have := Nat.le_mul_of_pos_right (Numeral.value fraction)
      (Nat.pow_pos (n := 9 - fraction.length) (by decide : 0 < 10))
    omega
  rw [readSeconds?, Text.cutAt_append (fun c hc =>
    Text.beq_eq_false_of_isDigit (Numeral.isDigit_of_mem_digits hc) (by decide)) (by rfl)]
  simp [Nat.not_lt.mpr hshort, readNumber?_eq_some hne hdigits hsmall, readNumber?_digits h, hvalue]

/-! ## Designators -/

theorem readIsoDays?_designated (h : n < 9223372036854775808) :
    readIsoDays? (designated n 'D') = some n := by
  unfold designated
  split
  next hzero => rw [hzero]; rfl
  next =>
    rw [readIsoDays?, List.reverse_append, List.reverse_singleton, List.singleton_append]
    simp [readNumber?_digits h]

theorem isIsoNumber_of_isDigit {c : Char} (h : c.isDigit = true) : isIsoNumber c = true := by
  rw [isIsoNumber, h, Bool.true_or]

/-- The step of the reader from one designator to the next. -/
theorem readIsoClock?_step {unit : Char} (hds : ∀ c ∈ ds, isIsoNumber c = true)
    (hunit : isIsoNumber unit = false) :
    readIsoClock? p (ds ++ unit :: rest) =
      match unit.toUpper with
      | 'H' => do readIsoClock? { p with hours := ← readNumber? ds } rest
      | 'M' => do readIsoClock? { p with minutes := ← readNumber? ds } rest
      | 'S' => do
        let (seconds, nanos) ← readSeconds? ds
        readIsoClock? { p with seconds, nanos } rest
      | _ => none := by
  have htake : (ds ++ unit :: rest).takeWhile isIsoNumber = ds := by
    rw [List.takeWhile_append_of_pos hds, List.takeWhile_cons, hunit, if_neg Bool.false_ne_true,
      List.append_nil]
  have hdrop : (ds ++ unit :: rest).dropWhile isIsoNumber = unit :: rest := by
    rw [List.dropWhile_append_of_pos hds, List.dropWhile_cons, hunit, if_neg Bool.false_ne_true]
  rw [readIsoClock?, dif_neg (List.append_ne_nil_of_right_ne_nil _ (List.cons_ne_nil _ _))]
  dsimp only
  rw [htake]
  split
  next hnil =>
    rw [hdrop] at hnil
    contradiction
  next unit' rest' hcons =>
    obtain ⟨rfl, rfl⟩ := List.cons.inj (hdrop.symm.trans hcons)
    rfl

theorem readIsoClock?_nil : readIsoClock? p [] = some p := by
  rw [readIsoClock?, dif_pos rfl]

/-- A designated number is put into its part; a part that is left out stays zero. -/
theorem readIsoClock?_designated {unit : Char} (put : Nat → Parts)
    (hstep : ∀ ds, (∀ c ∈ ds, isIsoNumber c = true) → readIsoClock? p (ds ++ unit :: rest) =
      (readNumber? ds).bind fun n => readIsoClock? (put n) rest)
    (hzero : put 0 = p) (hn : n < 9223372036854775808) :
    readIsoClock? p (designated n unit ++ rest) = readIsoClock? (put n) rest := by
  unfold designated
  split
  next hn => rw [List.nil_append, hn, hzero]
  next =>
    rw [List.append_assoc, List.singleton_append,
      hstep _ fun c hc => isIsoNumber_of_isDigit (Numeral.isDigit_of_mem_digits hc),
      readNumber?_digits hn, Option.bind_some]

/-- Seconds and their fraction are read back from what they are written as. -/
theorem readIsoClock?_seconds {nanos : Nat} (hn : n < 9223372036854775808)
    (hnanos : nanos < 1000000000) (hp : p.seconds = 0 ∧ p.nanos = 0) :
    readIsoClock? p (isoSeconds n nanos) = some { p with seconds := n, nanos } := by
  -- Nothing is written for no seconds, and a fraction only where there is one.
  unfold isoSeconds
  split
  next hzero =>
    rw [readIsoClock?_nil, hzero.1, hzero.2]
    obtain ⟨hseconds, hnanos⟩ := hp
    cases p
    cases hseconds
    cases hnanos
    rfl
  split
  next hwhole =>
    rw [readIsoClock?_step
      (fun c hc => isIsoNumber_of_isDigit (Numeral.isDigit_of_mem_digits hc)) (by rfl),
      readSeconds?_digits hn, hwhole]
    exact readIsoClock?_nil
  next hfraction =>
    have hmem : ∀ c ∈ Numeral.digits n ++
        '.' :: Numeral.dropTrailingZeros (Numeral.padded 9 nanos), isIsoNumber c = true := by
      intro c hc
      rcases List.mem_append.mp hc with hc | hc
      · exact isIsoNumber_of_isDigit (Numeral.isDigit_of_mem_digits hc)
      rcases List.mem_cons.mp hc with rfl | hc
      · rfl
      · exact isIsoNumber_of_isDigit
          (Numeral.isDigit_of_mem_padded (Numeral.mem_of_mem_dropTrailingZeros hc))
    rw [readIsoClock?_step hmem (by rfl),
      readSeconds?_fraction hn hfraction hnanos]
    exact readIsoClock?_nil

/-! ## The whole text -/

/-- The part of an ISO text behind its `T`. -/
def Parts.isoClock (p : Parts) : List Char :=
  designated p.hours 'H' ++ designated p.minutes 'M' ++ isoSeconds p.seconds p.nanos

/-- Nothing is written for a clock of zero. -/
theorem Parts.isoClock_eq_nil_iff :
    p.isoClock = [] ↔ p.hours = 0 ∧ p.minutes = 0 ∧ p.seconds = 0 ∧ p.nanos = 0 := by
  have hdesignated (n : Nat) (unit : Char) : designated n unit = [] ↔ n = 0 := by
    unfold designated
    split <;> simp_all
  have hseconds : isoSeconds p.seconds p.nanos = [] ↔ p.seconds = 0 ∧ p.nanos = 0 := by
    unfold isoSeconds
    split
    · simp_all
    · split <;> simp_all
  rw [isoClock, List.append_eq_nil_iff, List.append_eq_nil_iff, hdesignated, hdesignated, hseconds,
    and_assoc]

/-- The clock of readable parts is read back from what it is written as. -/
theorem readIsoClock?_isoClock (hp : p.Readable) :
    readIsoClock? ⟨p.days, 0, 0, 0, 0⟩ p.isoClock = some p := by
  have hhours := hp.hours_lt
  have hminutes := hp.minutes_lt
  have hseconds := hp.seconds_lt
  rw [Parts.isoClock, List.append_assoc,
    readIsoClock?_designated (fun hours => ⟨p.days, hours, 0, 0, 0⟩)
      (fun ds hds => readIsoClock?_step hds (by rfl)) rfl (by omega),
    readIsoClock?_designated (fun minutes => ⟨p.days, p.hours, minutes, 0, 0⟩)
      (fun ds hds => readIsoClock?_step hds (by rfl)) rfl (by omega),
    readIsoClock?_seconds (by omega) hp.nanos_lt ⟨rfl, rfl⟩]

theorem toUpper_of_isDigit {c : Char} (h : c.isDigit = true) : c.toUpper = c := by
  have hhigh : c.val.toNat ≤ 57 := by
    simp only [Char.isDigit, Bool.and_eq_true, decide_eq_true_eq] at h
    exact h.2
  refine dif_neg fun hlower => ?_
  have hlow : 97 ≤ c.val.toNat := hlower.1
  omega

theorem not_T_of_mem_designated {c : Char} (hc : c ∈ designated n 'D') :
    (c.toUpper == 'T') = false := by
  unfold designated at hc
  split at hc
  · contradiction
  rcases List.mem_append.mp hc with hc | hc
  · have hdigit := Numeral.isDigit_of_mem_digits hc
    rw [toUpper_of_isDigit hdigit, beq_eq_false_iff_ne]
    rintro rfl
    contradiction
  · rw [List.mem_singleton.mp hc]
    rfl

/-- Readable parts are read back from their ISO form. -/
theorem readIso?_iso (hp : p.Readable) : readIso? p.iso = some p := by
  by_cases hclock : p.isoClock = []
  · obtain ⟨hhours, hminutes, hseconds, hnanos⟩ := Parts.isoClock_eq_nil_iff.mp hclock
    have hparts : p = ⟨p.days, 0, 0, 0, 0⟩ := by
      cases p
      simp_all
    rw [Parts.iso, ← Parts.isoClock, if_pos hclock]
    split
    next hdays =>
      -- No time at all is written as no seconds, for a text has at least one part.
      have hzero : readIsoClock? ⟨0, 0, 0, 0, 0⟩ (['0'] ++ 'S' :: []) = some ⟨0, 0, 0, 0, 0⟩ := by
        rw [readIsoClock?_step (by decide) (by rfl)]
        exact readIsoClock?_nil
      rw [hparts, hdays]
      exact hzero
    next hdays =>
      have hne : designated p.days 'D' ≠ [] := by
        simp [designated, hdays]
      rw [readIso?, Text.cutAt_eq_none fun c hc => not_T_of_mem_designated hc]
      simp only [List.isEmpty_iff, hne, if_false, readIsoDays?_designated hp.days_lt]
      exact congrArg some hparts.symm
  · rw [Parts.iso, ← Parts.isoClock, if_neg hclock, readIso?,
      Text.cutAt_append (fun c hc => not_T_of_mem_designated hc) (by rfl)]
    simp only [List.isEmpty_iff, hclock, if_false, readIsoDays?_designated hp.days_lt]
    exact readIsoClock?_isoClock hp

/-! ## Characters -/

/-- The characters of an ISO text besides its digits. -/
def isoMarks : List Char :=
  ['-', '.', 'D', 'H', 'M', 'P', 'S', 'T']

theorem among_designated (n : Nat) {unit : Char} (hunit : unit ∈ isoMarks) :
    Text.Among isoMarks (designated n unit) := by
  unfold designated
  split
  · exact Text.among_nil _
  · exact (Numeral.among_digits _ n).append (.cons (.inr hunit) (Text.among_nil _))

theorem among_isoSeconds (seconds nanos : Nat) :
    Text.Among isoMarks (isoSeconds seconds nanos) := by
  have hunit : Text.Among isoMarks ['S'] := by decide
  have hfraction : Text.Among isoMarks
      (Numeral.dropTrailingZeros (Numeral.padded 9 nanos)) := by
    intro c hc
    exact .inl (Numeral.isDigit_of_mem_padded (Numeral.mem_of_mem_dropTrailingZeros hc))
  unfold isoSeconds
  split
  · exact Text.among_nil _
  split
  · exact (Numeral.among_digits _ _).append hunit
  · exact ((Numeral.among_digits _ _).append (.cons (.inr (by decide)) hfraction)).append hunit

theorem among_iso (x : Duration) : Text.Among isoMarks x.iso.toList := by
  have hclock : Text.Among isoMarks x.parts.isoClock :=
    ((among_designated _ (by decide)).append (among_designated _ (by decide))).append
      (among_isoSeconds _ _)
  have hiso : Text.Among isoMarks x.parts.iso := by
    rw [Parts.iso, ← Parts.isoClock]
    split
    · split
      · decide
      · exact among_designated _ (by decide)
    · exact (among_designated _ (by decide)).append (.cons (.inr (by decide)) hclock)
  have hsign : Text.Among isoMarks x.sign := by
    unfold sign
    split <;> decide
  rw [iso, String.toList_ofList]
  exact hsign.append (.cons (.inr (by decide)) hiso)

/-- The characters of a time span besides its digits. -/
def spanMarks : List Char :=
  ['-', '.', ':']

theorem among_span (x : Duration) : Text.Among spanMarks x.span.toList := by
  have hsign : Text.Among spanMarks x.sign := by
    unfold sign
    split <;> decide
  have hdays (days : Nat) :
      Text.Among spanMarks (if days = 0 then [] else Numeral.digits days ++ ['.']) := by
    split
    · exact Text.among_nil _
    · exact (Numeral.among_digits _ _).append (by decide)
  have hcolon (n : Nat) : Text.Among spanMarks (':' :: Numeral.padded 2 n) :=
    .cons (.inr (by decide)) (Numeral.among_padded _ _ _)
  have hfraction (nanos : Nat) : Text.Among spanMarks (spanFraction nanos) := by
    unfold spanFraction
    split
    · exact Text.among_nil _
    split <;> exact .cons (.inr (by decide)) (Numeral.among_padded _ _ _)
  rw [span, String.toList_ofList, Parts.span]
  exact hsign.append (((((hdays _).append (Numeral.among_padded _ _ _)).append (hcolon _)).append
    (hcolon _)).append (hfraction _))

/-- The magnitude is read after the sign, and gets it. -/
theorem read?_sign_append (x : Duration) {cs body : List Char}
    (htrim : Text.trim cs = x.sign ++ body) (hbody : body.head? ≠ some '-')
    (hp : readParts? body = some p) (htotal : p.total = x.nanos.natAbs) :
    read? cs = ofNanos? x.nanos := by
  have hsigned : (if decide (x.nanos < 0) = true then -(p.total : Int) else p.total) = x.nanos := by
    rw [htotal]
    split <;> grind
  rw [read?, htrim]
  split
  next negative body' hcut =>
    have hparts : decide (x.nanos < 0) = negative ∧ body = body' := by
      unfold sign at hcut
      by_cases hnegative : x.nanos < 0
      · rw [if_pos hnegative, List.singleton_append] at hcut
        simpa [hnegative] using hcut
      · rw [if_neg hnegative, List.nil_append] at hcut
        split at hcut
        next => simp at hbody
        next => simpa [hnegative] using hcut
    obtain ⟨rfl, rfl⟩ := hparts
    rw [hp, Option.bind_eq_bind, Option.bind_some]
    exact congrArg ofNanos? hsigned

/-- A duration is read back from its ISO text. -/
theorem ofText?_iso (x : Duration) : ofText? x.iso = some x := by
  have htrim : Text.trim x.iso.toList = x.sign ++ 'P' :: x.parts.iso := by
    rw [x.among_iso.trim_eq_self (by decide), iso, String.toList_ofList]
  have hparts : readParts? ('P' :: x.parts.iso) = some x.parts := by
    rw [readParts?, if_pos (by rfl), readIso?_iso x.parts_readable]
  rw [ofText?, x.read?_sign_append htrim (by simp) hparts (Parts.total_ofNanos _), ofNanos?,
    dif_pos x.within]

end Duration

end Selection
