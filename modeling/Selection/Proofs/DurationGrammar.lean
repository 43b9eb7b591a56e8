import Mathlib.Data.Option.Basic
import Selection.Proofs.Duration

/-! # The grammar of durations

A text spells a duration when, without the blanks around it, it is a minus sign or none and then a
time span or an ISO form: numbers before their designators, the days before a `T` and hours, minutes
and seconds behind it. What stands behind the `T` is left open here, for the reader takes the
designators there in any order and any number of times. It accepts exactly the texts of this
grammar. A written time span is one of them, so a duration is read back from both of its texts.
-/

namespace Selection.Duration

variable {cs : List Char} {c : Char} {n nanos : Nat} {p q : Parts}

/-! ## Numbers -/

/-- A text is a run of digits, at least one, of a number that has 63 bits. -/
structure IsNumber (cs : List Char) (n : Nat) : Prop where
  ne_nil : cs ≠ []
  isDigit : ∀ c ∈ cs, c.isDigit = true
  value_eq : Numeral.value cs = n
  lt_limit : n < 9223372036854775808

/-- Numbers are read by their grammar. -/
theorem readNumber?_eq_some_iff : readNumber? cs = some n ↔ IsNumber cs n := by
  constructor
  · intro h
    obtain ⟨hread, hlimit⟩ := Option.filter_eq_some_iff.mp h
    rw [Numeral.read?] at hread
    split at hread
    next => contradiction
    next hdigits =>
      simp only [Bool.or_eq_true, List.isEmpty_iff, Bool.not_eq_true', not_or,
        Bool.not_eq_false, List.all_eq_true] at hdigits
      exact ⟨hdigits.1, hdigits.2, Option.some.inj hread, of_decide_eq_true hlimit⟩
  · rintro ⟨hne, hdigits, rfl, hlimit⟩
    exact readNumber?_eq_some hne hdigits hlimit

theorem IsNumber.not_mem (h : IsNumber cs n) (hc : c.isDigit = false) : c ∉ cs := by
  intro hmem
  rw [h.isDigit c hmem] at hc
  contradiction

theorem IsNumber.among (h : IsNumber cs n) (extra : List Char) : Text.Among extra cs :=
  fun c hc => .inl (h.isDigit c hc)

theorem isNumber_digits (h : n < 9223372036854775808) : IsNumber (Numeral.digits n) n :=
  ⟨Numeral.digits_ne_nil n, fun _ hc => Numeral.isDigit_of_mem_digits hc, Numeral.value_digits n, h⟩

theorem isNumber_padded (width : Nat) (h : n < 9223372036854775808) :
    IsNumber (Numeral.padded width n) n :=
  ⟨Numeral.padded_ne_nil width n, fun _ hc => Numeral.isDigit_of_mem_padded hc,
    Numeral.value_padded width n, h⟩

/-- A text is a run of one to nine digits behind a point, and tells so many nanoseconds. -/
structure IsFraction (cs : List Char) (nanos : Nat) : Prop where
  ne_nil : cs ≠ []
  isDigit : ∀ c ∈ cs, c.isDigit = true
  length_le : cs.length ≤ 9
  nanos_eq : Numeral.value cs * 10 ^ (9 - cs.length) = nanos

/-- A fraction is less than a second. -/
theorem IsFraction.nanos_lt (h : IsFraction cs nanos) : nanos < 1000000000 := by
  have hvalue := Numeral.value_lt h.isDigit
  have hlength : cs.length + (9 - cs.length) = 9 := Nat.add_sub_cancel' h.length_le
  rw [← h.nanos_eq]
  calc Numeral.value cs * 10 ^ (9 - cs.length)
      < 10 ^ cs.length * 10 ^ (9 - cs.length) :=
        Nat.mul_lt_mul_of_pos_right hvalue (Nat.pow_pos (by decide))
    _ = 1000000000 := by rw [← Nat.pow_add, hlength]

theorem IsFraction.isNumber (h : IsFraction cs nanos) : IsNumber cs (Numeral.value cs) := by
  have hle : Numeral.value cs ≤ nanos := by
    rw [← h.nanos_eq]
    exact Nat.le_mul_of_pos_right _ (Nat.pow_pos (by decide))
  have hlt := h.nanos_lt
  exact ⟨h.ne_nil, h.isDigit, rfl, by omega⟩

/-- A text is a number of seconds, with a fraction or without. -/
inductive IsSeconds : List Char → Nat → Nat → Prop
  | whole {cs : List Char} {n : Nat} (number : IsNumber cs n) : IsSeconds cs n 0
  | fraction {cs fs : List Char} {n nanos : Nat} (number : IsNumber cs n)
      (fraction : IsFraction fs nanos) : IsSeconds (cs ++ '.' :: fs) n nanos

/-- Seconds with a fraction are read by their grammar. -/
theorem readSeconds?_eq_some_iff :
    readSeconds? cs = some (n, nanos) ↔ IsSeconds cs n nanos := by
  constructor
  · intro h
    rw [readSeconds?] at h
    split at h
    next =>
      obtain ⟨n, hn, heq⟩ := Option.bind_eq_some_iff.mp h
      obtain ⟨rfl, rfl⟩ := Prod.mk.inj (Option.some.inj heq)
      exact .whole (readNumber?_eq_some_iff.mp hn)
    next whole fraction hcut =>
      obtain ⟨c, rfl, hc, -⟩ := Text.cutAt_eq_some_iff.mp hcut
      obtain rfl := eq_of_beq hc
      split at h
      next => contradiction
      next hlength =>
        obtain ⟨m, hm, h⟩ := Option.bind_eq_some_iff.mp h
        obtain ⟨n, hn, heq⟩ := Option.bind_eq_some_iff.mp h
        obtain ⟨rfl, rfl⟩ := Prod.mk.inj (Option.some.inj heq)
        have hfraction := readNumber?_eq_some_iff.mp hm
        refine .fraction (readNumber?_eq_some_iff.mp hn)
          ⟨hfraction.ne_nil, hfraction.isDigit, ?_, ?_⟩
        · exact Nat.not_lt.mp hlength
        · rw [hfraction.value_eq, Numeral.powerOfTen_eq]
  -- A number has no point, so that the first point is the one before the fraction.
  · have hpoint {cs : List Char} {n : Nat} (h : IsNumber cs n) :
        ∀ c ∈ cs, (c == '.') = false :=
      fun c hc => Text.beq_eq_false_of_isDigit (h.isDigit c hc) (by decide)
    intro h
    cases h with
    | whole hnumber =>
        rw [readSeconds?, Text.cutAt_eq_none (hpoint hnumber),
          readNumber?_eq_some_iff.mpr hnumber]
        rfl
    | fraction hnumber hfraction =>
        rw [readSeconds?, Text.cutAt_append (hpoint hnumber) (by rfl)]
        simp [Nat.not_lt.mpr hfraction.length_le, readNumber?_eq_some_iff.mpr hnumber,
          readNumber?_eq_some_iff.mpr hfraction.isNumber, hfraction.nanos_eq]

theorem IsSeconds.among (h : IsSeconds cs n nanos) : Text.Among ['.'] cs := by
  cases h with
  | whole hnumber => exact hnumber.among _
  | fraction hnumber hfraction =>
      exact (hnumber.among _).append (.cons (.inr (by decide)) (hfraction.isNumber.among _))

/-! ## Time spans -/

/-- A text is a time of day after a number of days: hours and minutes, or hours, minutes and
seconds, with colons between them. -/
inductive IsClock (days : Nat) : List Char → Parts → Prop
  | short {hs ms : List Char} {hours minutes : Nat} (hours_number : IsNumber hs hours)
      (minutes_number : IsNumber ms minutes) (hours_le : hours ≤ 23) (minutes_le : minutes ≤ 59) :
      IsClock days (hs ++ ':' :: ms) ⟨days, hours, minutes, 0, 0⟩
  | long {hs ms ss : List Char} {hours minutes seconds nanos : Nat}
      (hours_number : IsNumber hs hours) (minutes_number : IsNumber ms minutes)
      (seconds_number : IsSeconds ss seconds nanos) (hours_le : hours ≤ 23)
      (minutes_le : minutes ≤ 59) (seconds_le : seconds ≤ 59) :
      IsClock days (hs ++ ':' :: (ms ++ ':' :: ss)) ⟨days, hours, minutes, seconds, nanos⟩

theorem IsClock.among {days : Nat} (h : IsClock days cs p) : Text.Among ['.', ':'] cs := by
  cases h with
  | short hhours hminutes =>
      exact (hhours.among _).append (.cons (.inr (by decide)) (hminutes.among _))
  | long hhours hminutes hseconds =>
      exact (hhours.among _).append (.cons (.inr (by decide)) ((hminutes.among _).append
        (.cons (.inr (by decide)) (hseconds.among.mono (by decide)))))

/-- Hours, minutes and seconds are read as a time of day when they are in their ranges. -/
theorem readClock?_long {days hours minutes seconds : Nat} {hs ms ss : List Char}
    (hhours : IsNumber hs hours) (hminutes : IsNumber ms minutes)
    (hseconds : IsSeconds ss seconds nanos) :
    readClock? days (hs ++ ':' :: (ms ++ ':' :: ss)) =
      if hours ≤ 23 ∧ minutes ≤ 59 ∧ seconds ≤ 59 then some ⟨days, hours, minutes, seconds, nanos⟩
      else none := by
  have hcolon : ':'.isDigit = false := by decide
  rw [readClock?, Text.pieces_append (hhours.not_mem hcolon),
    Text.pieces_append (hminutes.not_mem hcolon),
    Text.pieces_of_not_mem (hseconds.among.not_mem hcolon (by decide))]
  simp only [readNumber?_eq_some_iff.mpr hhours, readNumber?_eq_some_iff.mpr hminutes,
    readSeconds?_eq_some_iff.mpr hseconds]
  split
  next hrange => simp [guard, hrange]
  next hrange => simp [guard, hrange]

/-- Clocks are read by their grammar. -/
theorem readClock?_eq_some_iff {days : Nat} : readClock? days cs = some p ↔ IsClock days cs p := by
  constructor
  · intro h
    rw [readClock?] at h
    split at h
    next hs ms hpieces =>
      obtain ⟨rest, rfl, hrest⟩ := Text.exists_of_pieces_cons hpieces
      obtain rfl := Text.eq_of_pieces_singleton hrest
      obtain ⟨hours, hhours, h⟩ := Option.bind_eq_some_iff.mp h
      obtain ⟨minutes, hminutes, h⟩ := Option.bind_eq_some_iff.mp h
      obtain ⟨_, hfields, h⟩ := Option.bind_eq_some_iff.mp h
      obtain rfl := Option.some.inj hfields
      obtain ⟨⟨⟩, hguard, h⟩ := Option.bind_eq_some_iff.mp h
      obtain ⟨hhour, hminute, -⟩ := (Option.guard_eq_some' _).mp hguard
      obtain rfl := Option.some.inj h
      exact .short (readNumber?_eq_some_iff.mp hhours) (readNumber?_eq_some_iff.mp hminutes) hhour
        hminute
    next hs ms ss hpieces =>
      obtain ⟨rest, rfl, hrest⟩ := Text.exists_of_pieces_cons hpieces
      obtain ⟨last, rfl, hlast⟩ := Text.exists_of_pieces_cons hrest
      obtain rfl := Text.eq_of_pieces_singleton hlast
      obtain ⟨⟨seconds, nanos⟩, hseconds, h⟩ := Option.bind_eq_some_iff.mp h
      obtain ⟨hours, hhours, h⟩ := Option.bind_eq_some_iff.mp h
      obtain ⟨minutes, hminutes, h⟩ := Option.bind_eq_some_iff.mp h
      obtain ⟨_, hfields, h⟩ := Option.bind_eq_some_iff.mp h
      obtain rfl := Option.some.inj hfields
      obtain ⟨⟨⟩, hguard, h⟩ := Option.bind_eq_some_iff.mp h
      obtain ⟨hhour, hminute, hsecond⟩ := (Option.guard_eq_some' _).mp hguard
      obtain rfl := Option.some.inj h
      exact .long (readNumber?_eq_some_iff.mp hhours) (readNumber?_eq_some_iff.mp hminutes)
        (readSeconds?_eq_some_iff.mp hseconds) hhour hminute hsecond
    next => contradiction
  · intro h
    -- No field has a colon in it, so that the text is cut where the grammar puts them.
    have hcolon : ':'.isDigit = false := by decide
    cases h with
    | short hhours hminutes hhour hminute =>
        rw [readClock?, Text.pieces_append (hhours.not_mem hcolon),
          Text.pieces_of_not_mem (hminutes.not_mem hcolon)]
        simp [readNumber?_eq_some_iff.mpr hhours, readNumber?_eq_some_iff.mpr hminutes, hhour,
          hminute]
    | long hhours hminutes hseconds hhour hminute hsecond =>
        rw [readClock?_long hhours hminutes hseconds, if_pos ⟨hhour, hminute, hsecond⟩]

/-- A text is a time span: days alone, a time of day, or days, a point and a time of day. -/
inductive IsSpan : List Char → Parts → Prop
  | days {cs : List Char} {days : Nat} (days_number : IsNumber cs days) :
      IsSpan cs ⟨days, 0, 0, 0, 0⟩
  | clock {cs : List Char} {p : Parts} (clock : IsClock 0 cs p) : IsSpan cs p
  | daysClock {ds cs : List Char} {days : Nat} {p : Parts} (days_number : IsNumber ds days)
      (clock : IsClock days cs p) : IsSpan (ds ++ '.' :: cs) p

theorem IsSpan.among (h : IsSpan cs p) : Text.Among ['.', ':'] cs := by
  cases h with
  | days hdays => exact hdays.among _
  | clock hclock => exact hclock.among
  | daysClock hdays hclock => exact (hdays.among _).append (.cons (.inr (by decide)) hclock.among)

/-- A clock begins with its hours and a colon. -/
theorem IsClock.exists_hours {days : Nat} (h : IsClock days cs p) :
    ∃ hs hours rest, cs = hs ++ ':' :: rest ∧ IsNumber hs hours := by
  cases h with
  | short hhours => exact ⟨_, _, _, rfl, hhours⟩
  | long hhours => exact ⟨_, _, _, rfl, hhours⟩

/-- Hours and what follows their colon have a colon before their first point. -/
theorem IsNumber.colon_mem_of_cutAt {hs rest before after : List Char} (h : IsNumber hs n)
    (hcut : Text.cutAt (· == '.') (hs ++ ':' :: rest) = some (before, after)) : ':' ∈ before := by
  obtain ⟨c, heq, hc, -⟩ := Text.cutAt_eq_some_iff.mp hcut
  obtain rfl := eq_of_beq hc
  rcases List.append_eq_append_iff.mp heq with ⟨more, rfl, hmore⟩ | ⟨more, rfl, hmore⟩
  · cases more with
    | nil => simp at hmore
    | cons d more =>
        obtain ⟨rfl, -⟩ := List.cons.inj hmore
        simp
  · cases more with
    | nil => simp at hmore
    | cons d more =>
        obtain ⟨rfl, -⟩ := List.cons.inj hmore
        exact absurd (by simp) (h.not_mem (by decide : '.'.isDigit = false))

/-- A text that starts with hours is a time span of no days. -/
theorem readSpan?_hours {hs rest : List Char} (h : IsNumber hs n) :
    readSpan? (hs ++ ':' :: rest) = readClock? 0 (hs ++ ':' :: rest) := by
  have hcolon : (hs ++ ':' :: rest).contains ':' = true := by
    simp
  rw [readSpan?, hcolon]
  cases hcut : Text.cutAt (· == '.') (hs ++ ':' :: rest) with
  | none => rfl
  | some cut => simp [h.colon_mem_of_cutAt hcut]

/-- Time spans are read by their grammar. -/
theorem readSpan?_eq_some_iff : readSpan? cs = some p ↔ IsSpan cs p := by
  constructor
  · intro h
    rw [readSpan?] at h
    split at h
    next =>
      obtain ⟨days, hdays, h⟩ := Option.bind_eq_some_iff.mp h
      obtain rfl := Option.some.inj h
      exact .days (readNumber?_eq_some_iff.mp hdays)
    next =>
      split at h
      next days clock hcut =>
        -- A point before any colon ends the days. One behind a colon begins the fraction of the
        -- seconds.
        split at h
        next => exact .clock (readClock?_eq_some_iff.mp h)
        next =>
          obtain ⟨c, rfl, hc, -⟩ := Text.cutAt_eq_some_iff.mp hcut
          obtain rfl := eq_of_beq hc
          obtain ⟨number, hnumber, h⟩ := Option.bind_eq_some_iff.mp h
          exact .daysClock (readNumber?_eq_some_iff.mp hnumber) (readClock?_eq_some_iff.mp h)
      next => exact .clock (readClock?_eq_some_iff.mp h)
  · intro h
    cases h with
    | days hdays =>
        have hcolon : cs.contains ':' = false := by
          simpa using hdays.not_mem (by decide)
        rw [readSpan?, hcolon]
        simp [readNumber?_eq_some_iff.mpr hdays]
    | clock hclock =>
        have hread := readClock?_eq_some_iff.mpr hclock
        obtain ⟨hs, hours, rest, rfl, hhours⟩ := hclock.exists_hours
        rw [readSpan?_hours hhours, hread]
    | daysClock hdays hclock =>
        obtain ⟨hs, hours, rest, rfl, -⟩ := hclock.exists_hours
        have hpoint : ∀ c ∈ _, (c == '.') = false :=
          fun c hc => Text.beq_eq_false_of_isDigit (hdays.isDigit c hc) (by decide)
        have hdays' : ':' ∉ _ := hdays.not_mem (by decide : ':'.isDigit = false)
        rw [readSpan?, Text.cutAt_append hpoint (by rfl)]
        simp [hdays', readNumber?_eq_some_iff.mpr hdays, readClock?_eq_some_iff.mpr hclock]

/-! ## ISO forms -/

/-- The parts that an ISO form tells behind its `T`. -/
inductive ClockUnit where
  | hours
  | minutes
  | seconds

def ClockUnit.designator : ClockUnit → Char
  | hours => 'H'
  | minutes => 'M'
  | seconds => 'S'

/-- The number of a unit takes the place of the part that was there. -/
inductive ClockUnit.Puts : ClockUnit → List Char → Parts → Parts → Prop
  | hours {cs : List Char} {n : Nat} (p : Parts) (number : IsNumber cs n) :
      Puts .hours cs p { p with hours := n }
  | minutes {cs : List Char} {n : Nat} (p : Parts) (number : IsNumber cs n) :
      Puts .minutes cs p { p with minutes := n }
  | seconds {cs : List Char} {n nanos : Nat} (p : Parts) (number : IsSeconds cs n nanos) :
      Puts .seconds cs p { p with seconds := n, nanos }

/-- Numbers before their designators, in any order and any number of times. -/
inductive AnyOrder : Parts → List Char → Parts → Prop
  | done (p : Parts) : AnyOrder p [] p
  | next {unit : ClockUnit} {ds cs : List Char} {c : Char} {p p' q : Parts}
      (number : unit.Puts ds p p') (letter : c.toUpper = unit.designator)
      (rest : AnyOrder p' cs q) : AnyOrder p (ds ++ c :: cs) q

theorem ClockUnit.Puts.among {unit : ClockUnit} (h : unit.Puts cs p q) : Text.Among ['.'] cs := by
  cases h with
  | hours _ hnumber => exact hnumber.among _
  | minutes _ hnumber => exact hnumber.among _
  | seconds _ hnumber => exact hnumber.among

/-- What is put into a unit of the clock is a number of the ISO form. -/
theorem ClockUnit.Puts.isIsoNumber {unit : ClockUnit} (h : unit.Puts cs p q) :
    ∀ c ∈ cs, isIsoNumber c = true := by
  intro c hc
  rcases h.among c hc with hdigit | hpoint
  · exact isIsoNumber_of_isDigit hdigit
  · rw [List.mem_singleton.mp hpoint]
    rfl

/-- A letter that is a designator in either case ends a number. -/
theorem isIsoNumber_of_letter {letter : Char} (hletter : isIsoNumber letter = false)
    (h : c.toUpper = letter) : isIsoNumber c = false := by
  rw [Bool.eq_false_iff]
  intro hnumber
  have hc : c.toUpper = c := by
    rcases Bool.or_eq_true_iff.mp hnumber with hdigit | hpoint
    · exact toUpper_of_isDigit hdigit
    · rw [eq_of_beq hpoint]
      rfl
  rw [← h, hc, hnumber] at hletter
  contradiction

theorem ClockUnit.isIsoNumber_designator (unit : ClockUnit) :
    isIsoNumber unit.designator = false := by
  cases unit <;> rfl

/-- What is dropped of a text stands before what is left. -/
theorem eq_of_dropWhile {keep : Char → Bool} {rest : List Char}
    (h : cs.dropWhile keep = c :: rest) : cs = cs.takeWhile keep ++ c :: rest := by
  rw [← h, List.takeWhile_append_dropWhile]

/-- The clock of the ISO form is read with its designators in any order. -/
theorem readIsoClock?_eq_some_iff : readIsoClock? p cs = some q ↔ AnyOrder p cs q := by
  constructor
  · intro h
    fun_induction readIsoClock? p cs with
    | case1 p =>
        obtain rfl := Option.some.inj h
        exact .done p
    | case2 => contradiction
    | case3 p cs _ number unit rest hrest _ hunit ih =>
        obtain ⟨n, hn, h⟩ := Option.bind_eq_some_iff.mp h
        rw [eq_of_dropWhile hrest]
        exact .next (.hours p (readNumber?_eq_some_iff.mp hn)) hunit (ih n h)
    | case4 p cs _ number unit rest hrest _ hunit ih =>
        obtain ⟨n, hn, h⟩ := Option.bind_eq_some_iff.mp h
        rw [eq_of_dropWhile hrest]
        exact .next (.minutes p (readNumber?_eq_some_iff.mp hn)) hunit (ih n h)
    | case5 p cs _ number unit rest hrest _ hunit ih =>
        obtain ⟨⟨n, nanos⟩, hn, h⟩ := Option.bind_eq_some_iff.mp h
        rw [eq_of_dropWhile hrest]
        exact .next (.seconds p (readSeconds?_eq_some_iff.mp hn)) hunit (ih n nanos h)
    | case6 => contradiction
  · intro h
    -- Each number ends at its designator, which is no part of a number.
    induction h with
    | done p => exact readIsoClock?_nil
    | @next unit ds cs c p p' q hnumber hletter _ ih =>
        have hunit := isIsoNumber_of_letter unit.isIsoNumber_designator hletter
        rw [readIsoClock?_step hnumber.isIsoNumber hunit, hletter]
        cases hnumber with
        | hours _ hn => simpa [ClockUnit.designator, readNumber?_eq_some_iff.mpr hn] using ih
        | minutes _ hn => simpa [ClockUnit.designator, readNumber?_eq_some_iff.mpr hn] using ih
        | seconds _ hn => simpa [ClockUnit.designator, readSeconds?_eq_some_iff.mpr hn] using ih

/-- A text is a number of days before its designator, or nothing for no days. -/
inductive IsDays : List Char → Nat → Prop
  | absent : IsDays [] 0
  | present {ds : List Char} {c : Char} {days : Nat} (number : IsNumber ds days)
      (letter : c.toUpper = 'D') : IsDays (ds ++ [c]) days

theorem readIsoDays?_eq_some_iff : readIsoDays? cs = some n ↔ IsDays cs n := by
  constructor
  · intro h
    rw [readIsoDays?] at h
    split at h
    next hreverse =>
      obtain rfl := Option.some.inj h
      obtain rfl := List.reverse_eq_nil_iff.mp hreverse
      exact .absent
    next unit ds hreverse =>
      split at h
      next hunit =>
        have hcs : cs = ds.reverse ++ [unit] := by
          rw [← cs.reverse_reverse, hreverse, List.reverse_cons]
        rw [hcs]
        exact .present (readNumber?_eq_some_iff.mp h) hunit
      next => contradiction
  · intro h
    cases h with
    | absent => rfl
    | present hnumber hletter =>
        rw [readIsoDays?, List.reverse_append, List.reverse_singleton, List.singleton_append]
        simp [hletter, readNumber?_eq_some_iff.mpr hnumber]

theorem IsDays.not_T (h : IsDays cs n) : ∀ c ∈ cs, (c.toUpper == 'T') = false := by
  cases h with
  | absent => simp
  | present hnumber hletter =>
      intro c hc
      rcases List.mem_append.mp hc with hc | hc
      · have hdigit := hnumber.isDigit c hc
        rw [toUpper_of_isDigit hdigit]
        exact Text.beq_eq_false_of_isDigit hdigit (by decide)
      · rw [List.mem_singleton.mp hc, hletter]
        rfl

/-- What may stand behind the `T` of an ISO form, from the parts known before to those known
after. -/
abbrev ClockForm := Parts → List Char → Parts → Prop

/-- A text is an ISO form behind its `P`: days, or days or none, a `T` and something behind it. -/
inductive IsIso (clock : ClockForm) : List Char → Parts → Prop
  | days {cs : List Char} {days : Nat} (days_form : IsDays cs days) (ne_nil : cs ≠ []) :
      IsIso clock cs ⟨days, 0, 0, 0, 0⟩
  | clock {ds cs : List Char} {c : Char} {days : Nat} {p : Parts} (days_form : IsDays ds days)
      (letter : c.toUpper = 'T') (ne_nil : cs ≠ []) (clock_form : clock ⟨days, 0, 0, 0, 0⟩ cs p) :
      IsIso clock (ds ++ c :: cs) p

/-- The ISO form is read by its grammar, with the clock in any order. -/
theorem readIso?_eq_some_iff : readIso? cs = some p ↔ IsIso AnyOrder cs p := by
  constructor
  · intro h
    rw [readIso?] at h
    split at h
    next =>
      split at h
      next => contradiction
      next hne =>
        obtain ⟨days, hdays, h⟩ := Option.bind_eq_some_iff.mp h
        obtain rfl := Option.some.inj h
        exact .days (readIsoDays?_eq_some_iff.mp hdays) (by simpa using hne)
    next days clock hcut =>
      obtain ⟨c, rfl, hc, -⟩ := Text.cutAt_eq_some_iff.mp hcut
      split at h
      next => contradiction
      next hne =>
        obtain ⟨number, hnumber, h⟩ := Option.bind_eq_some_iff.mp h
        exact .clock (readIsoDays?_eq_some_iff.mp hnumber) (eq_of_beq hc) (by simpa using hne)
          (readIsoClock?_eq_some_iff.mp h)
  · intro h
    cases h with
    | days hdays hne =>
        rw [readIso?, Text.cutAt_eq_none hdays.not_T]
        simp [hne, readIsoDays?_eq_some_iff.mpr hdays]
    -- The days have no `T` in them, so the text is cut at the one before the clock.
    | clock hdays hletter hne hclock =>
        rw [readIso?, Text.cutAt_append hdays.not_T (by simpa using hletter)]
        simp [hne, readIsoDays?_eq_some_iff.mpr hdays, readIsoClock?_eq_some_iff.mpr hclock]

/-! ## Whole texts -/

/-- A text is a duration without its sign: a `P` and an ISO form, or a time span. -/
inductive IsMagnitude (clock : ClockForm) : List Char → Parts → Prop
  | iso {cs : List Char} {c : Char} {p : Parts} (letter : c.toUpper = 'P')
      (form : IsIso clock cs p) : IsMagnitude clock (c :: cs) p
  | span {cs : List Char} {p : Parts} (form : IsSpan cs p) : IsMagnitude clock cs p

theorem IsSpan.exists_digit (h : IsSpan cs p) :
    ∃ c rest, cs = c :: rest ∧ c.isDigit = true := by
  have hnumber {ds : List Char} {n : Nat} (h : IsNumber ds n) (rest : List Char) :
      ∃ c rest', ds ++ rest = c :: rest' ∧ c.isDigit = true := by
    obtain ⟨c, more, rfl⟩ := List.exists_cons_of_ne_nil h.ne_nil
    exact ⟨c, more ++ rest, rfl, h.isDigit c List.mem_cons_self⟩
  cases h with
  | days hdays => simpa using hnumber hdays []
  | clock hclock =>
      obtain ⟨hs, hours, rest, rfl, hhours⟩ := hclock.exists_hours
      exact hnumber hhours _
  | daysClock hdays => exact hnumber hdays _

theorem IsMagnitude.head_ne_minus {clock : ClockForm} (h : IsMagnitude clock (c :: cs) p) :
    c ≠ '-' := by
  rintro rfl
  cases h with
  | iso hletter => contradiction
  | span hspan =>
      obtain ⟨d, rest, hcons, hdigit⟩ := hspan.exists_digit
      obtain ⟨rfl, -⟩ := List.cons.inj hcons
      contradiction

/-- The parts of a duration are read by the grammar of magnitudes, with the clock in any order. -/
theorem readParts?_eq_some_iff : readParts? cs = some p ↔ IsMagnitude AnyOrder cs p := by
  constructor
  · intro h
    cases cs with
    | nil => contradiction
    | cons c rest =>
        rw [readParts?] at h
        split at h
        next hletter => exact .iso hletter (readIso?_eq_some_iff.mp h)
        next => exact .span (readSpan?_eq_some_iff.mp h)
  · intro h
    cases h with
    | iso hletter hiso =>
        rw [readParts?, if_pos hletter]
        exact readIso?_eq_some_iff.mpr hiso
    | span hspan =>
        have hread := readSpan?_eq_some_iff.mpr hspan
        obtain ⟨c, rest, rfl, hdigit⟩ := hspan.exists_digit
        have hletter : c.toUpper ≠ 'P' := by
          rw [toUpper_of_isDigit hdigit]
          rintro rfl
          contradiction
        rwa [readParts?, if_neg hletter]

/-- A text spells a duration: without the blanks around it, it is a magnitude with a minus sign or
without, and the duration is the sum of its parts with that sign. -/
inductive Spells (clock : ClockForm) (cs : List Char) (d : Duration) : Prop
  | positive {p : Parts} (magnitude : IsMagnitude clock (Text.trim cs) p)
      (nanos_eq : d.nanos = p.total)
  | negative {body : List Char} {p : Parts} (trim_eq : Text.trim cs = '-' :: body)
      (magnitude : IsMagnitude clock body p) (nanos_eq : d.nanos = -p.total)

/-- A duration is made of its nanoseconds. -/
theorem ofNanos?_eq_some_iff {nanos : Int} {d : Duration} :
    ofNanos? nanos = some d ↔ d.nanos = nanos := by
  unfold ofNanos?
  constructor
  · intro h
    split at h
    next => exact congrArg Duration.nanos (Option.some.inj h).symm
    next => contradiction
  · rintro rfl
    exact dif_pos d.within

/-- After a minus sign the parts are taken away. -/
theorem read?_minus {body : List Char} (h : Text.trim cs = '-' :: body) :
    read? cs = (readParts? body).bind fun p => ofNanos? (-(p.total : Int)) := by
  simp only [read?, h, Option.bind_eq_bind, if_true]

/-- Without a minus sign the parts are added. -/
theorem read?_no_minus (h : ∀ body, Text.trim cs ≠ '-' :: body) :
    read? cs = (readParts? (Text.trim cs)).bind fun p => ofNanos? p.total := by
  rw [read?]
  split
  next negative body hcut =>
    split at hcut
    next body' htrim => exact absurd htrim (h body')
    next =>
      obtain ⟨rfl, rfl⟩ := Prod.mk.inj hcut
      simp only [Option.bind_eq_bind, Bool.false_eq_true, if_false]

/-- Durations are read by their grammar, with the clock in any order. -/
theorem read?_eq_some_iff {d : Duration} : read? cs = some d ↔ Spells AnyOrder cs d := by
  constructor
  · intro h
    by_cases hminus : ∃ body, Text.trim cs = '-' :: body
    · obtain ⟨body, htrim⟩ := hminus
      rw [read?_minus htrim] at h
      obtain ⟨p, hp, h⟩ := Option.bind_eq_some_iff.mp h
      exact .negative htrim (readParts?_eq_some_iff.mp hp) (ofNanos?_eq_some_iff.mp h)
    · rw [read?_no_minus (not_exists.mp hminus)] at h
      obtain ⟨p, hp, h⟩ := Option.bind_eq_some_iff.mp h
      exact .positive (readParts?_eq_some_iff.mp hp) (ofNanos?_eq_some_iff.mp h)
  · intro h
    cases h with
    | positive hmagnitude hnanos =>
        have hminus : ∀ body, Text.trim cs ≠ '-' :: body := by
          intro body htrim
          rw [htrim] at hmagnitude
          exact hmagnitude.head_ne_minus rfl
        rw [read?_no_minus hminus, readParts?_eq_some_iff.mpr hmagnitude, Option.bind_some]
        exact ofNanos?_eq_some_iff.mpr hnanos
    | negative htrim hmagnitude hnanos =>
        rw [read?_minus htrim, readParts?_eq_some_iff.mpr hmagnitude, Option.bind_some]
        exact ofNanos?_eq_some_iff.mpr hnanos

/-! ## Written texts -/

theorem isFraction_padded (width : Nat) (hpos : 0 < width) (hwidth : width ≤ 9)
    (h : n < 10 ^ width) : IsFraction (Numeral.padded width n) (n * 10 ^ (9 - width)) := by
  have hlength := Numeral.length_padded hpos h
  refine ⟨Numeral.padded_ne_nil width n, fun _ hc => Numeral.isDigit_of_mem_padded hc, ?_, ?_⟩
  · rwa [hlength]
  · rw [hlength, Numeral.value_padded]

theorem isSeconds_span (width : Nat) (h : n < 9223372036854775808) (hnanos : nanos < 1000000000) :
    IsSeconds (Numeral.padded width n ++ spanFraction nanos) n nanos := by
  have hnumber := isNumber_padded width h
  unfold spanFraction
  split
  next hzero =>
    rw [List.append_nil, hzero]
    exact .whole hnumber
  split
  next hshort =>
    have hfraction := isFraction_padded 7 (n := nanos / 100) (by decide) (by decide)
      (by omega)
    rw [show nanos / 100 * 10 ^ (9 - 7) = nanos by omega] at hfraction
    exact .fraction hnumber hfraction
  next =>
    have hfraction := isFraction_padded 9 (by decide) (by decide) hnanos
    rw [show nanos * 10 ^ (9 - 9) = nanos by omega] at hfraction
    exact .fraction hnumber hfraction

theorem isClock_span (hp : p.Readable) : IsClock p.days
    (Numeral.padded 2 p.hours ++ ':' :: (Numeral.padded 2 p.minutes ++
      ':' :: (Numeral.padded 2 p.seconds ++ spanFraction p.nanos))) p := by
  have hhours := hp.hours_lt
  have hminutes := hp.minutes_lt
  have hseconds := hp.seconds_lt
  exact .long (isNumber_padded 2 (by omega)) (isNumber_padded 2 (by omega))
    (isSeconds_span 2 (by omega) hp.nanos_lt) (by omega) (by omega) (by omega)

/-- The time-span text of parts is a time span of these parts. -/
theorem isSpan_span (hp : p.Readable) : IsSpan p.span p := by
  have hclock := isClock_span hp
  simp only [Parts.span, List.append_assoc, List.cons_append]
  split
  next hdays =>
    rw [hdays] at hclock
    exact .clock hclock
  next =>
    rw [List.append_assoc]
    exact .daysClock (isNumber_digits hp.days_lt) hclock

/-- A duration is read back from its time span. -/
theorem ofText?_span (x : Duration) : ofText? x.span = some x := by
  have htrim : Text.trim x.span.toList = x.sign ++ x.parts.span := by
    rw [x.among_span.trim_eq_self (by decide), span, String.toList_ofList]
  have hspan : IsSpan x.parts.span x.parts := isSpan_span x.parts_readable
  have hhead : x.parts.span.head? ≠ some '-' := by
    obtain ⟨c, rest, hcons, hdigit⟩ := hspan.exists_digit
    rw [hcons, List.head?_cons, ne_eq, Option.some.injEq]
    rintro rfl
    contradiction
  rw [ofText?, x.read?_sign_append htrim hhead (readParts?_eq_some_iff.mpr (.span hspan))
    (Parts.total_ofNanos _), ofNanos?, dif_pos x.within]

/-- Both texts that are written for a duration are read as that duration. -/
theorem written_durations_read (x : Duration) :
    ofText? x.span = some x ∧ ofText? x.iso = some x :=
  ⟨x.ofText?_span, x.ofText?_iso⟩

end Selection.Duration
