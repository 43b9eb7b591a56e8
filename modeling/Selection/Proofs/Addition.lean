import Selection.Proofs.DurationGrammar
import Selection.Proofs.Sum

/-! # What a step of a sum adds

The total of a sum changes its representation on the way: signed and unsigned integers turn into one
another, integers into decimals, and a date into a date-time. Each representation stands for one
number, or for one point of a time scale. A step adds to it exactly what its operand stands for, or
overflows, and so does a run of steps.
-/

namespace Selection

open Value (ofSigned? ofUnsigned?)

/-! ## What values stand for -/

namespace Value

/-- The integer of an integer value. -/
def integer? : Value → Option Int
  | int n => some n.toInt
  | uint n => some n.toNat
  | _ => none

/-- The number of an integer or decimal. -/
def number? (v : Value) : Option ℚ :=
  v.exactNumber?.map Decimal.number

variable {v : Value} {n : Int}

/-- The integer that a value denotes is its number. -/
theorem number?_of_integer? (h : v.integer? = some n) : v.number? = some (n : ℚ) := by
  cases v <;> first
    | contradiction
    | obtain rfl := Option.some.inj h
      exact congrArg some (Decimal.number_ofInt _)

theorem ofSigned?_eq_some_iff {m : Int64} : ofSigned? n = some m ↔ m.toInt = n := by
  constructor
  · intro h
    obtain ⟨⟨hlow, hhigh⟩, h⟩ := Option.ite_none_right_eq_some.mp h
    obtain rfl := Option.some.inj h
    exact Int64.toInt_ofInt_of_le hlow (Int.lt_of_le_of_lt hhigh (by decide))
  · rintro rfl
    exact ofSigned?_toInt m

theorem ofUnsigned?_eq_some_iff {m : UInt64} : ofUnsigned? n = some m ↔ (m.toNat : Int) = n := by
  constructor
  · intro h
    obtain ⟨⟨hlow, hhigh⟩, h⟩ := Option.ite_none_right_eq_some.mp h
    obtain rfl := Option.some.inj h
    rw [UInt64.toNat_ofNat_of_lt' (by omega), Int.toNat_of_nonneg hlow]
  · rintro rfl
    exact ofUnsigned?_toNat m

end Value

namespace Sum

variable {t v : Value} {a b : Int} {P Q : Value → Prop} {x : Except CompileError Value}

/-! ## Overflow -/

/-- A sum overflows. -/
def Overflows (x : Except CompileError Value) : Prop :=
  ∃ left right, x = .error (.addOverflow left right)

/-- A sum ends in a value with a property, or overflows. -/
def EndsIn (P : Value → Prop) (x : Except CompileError Value) : Prop :=
  (∃ r, x = .ok r ∧ P r) ∨ Overflows x

theorem EndsIn.of_fitting {sum : Option Value} {left right : String} :
    (∀ r, sum = some r → P r) →
      EndsIn P (match sum with | some r => .ok r | none => .error (.addOverflow left right)) := by
  intro h
  cases sum with
  | some r => exact .inl ⟨r, rfl, h r rfl⟩
  | none => exact .inr ⟨left, right, rfl⟩

theorem EndsIn.of_ok {r : Value} (h : EndsIn P x) (hr : x = .ok r) : P r := by
  obtain ⟨r', h, hP⟩ | ⟨left, right, h⟩ := h
  · rwa [Except.ok.inj (hr.symm.trans h)]
  · rw [hr] at h
    contradiction

theorem EndsIn.bind {f : Value → Except CompileError Value} (h : EndsIn P x)
    (hf : ∀ r, P r → EndsIn Q (f r)) : EndsIn Q (x >>= f) := by
  obtain ⟨r, rfl, hr⟩ | ⟨left, right, rfl⟩ := h
  · exact hf r hr
  · exact .inr ⟨left, right, rfl⟩

/-- The run of a sum: when a step adds exactly what an operand stands for, so does the sum for all
of them. -/
theorem endsIn_foldlM {A : Type} [AddMonoid A] (Stands Adds : Value → A → Prop)
    (step : ∀ {t v a b}, Stands t a → Adds v b → EndsIn (Stands · (a + b)) (add t v)) {t : Value}
    {vs : List Value} {a : A} {bs : List A} (ht : Stands t a) (hvs : List.Forall₂ Adds vs bs) :
    EndsIn (Stands · (a + bs.sum)) (vs.foldlM add t) := by
  induction hvs generalizing t a with
  | nil =>
      rw [List.sum_nil, add_zero]
      exact .inl ⟨t, rfl, ht⟩
  | cons hv _ ih =>
      rw [List.sum_cons, ← add_assoc]
      exact (step ht hv).bind fun _ hr => ih hr

/-! ## Integers -/

/-- The representation of an integer that is the sum of two integer values. -/
def integerSum? : Value → Value → Int → Option Value
  | .int _, .int _, n => (ofSigned? n).map .int
  | .uint _, .uint _, n => (ofUnsigned? n).map .uint
  | _, _, n => integer? n

/-- Two integers are added as one of the two variants, or overflow. -/
theorem add_eq_integerSum? (ht : t.integer? = some a) (hv : v.integer? = some b) :
    add t v = match integerSum? t v (a + b) with
      | some r => .ok r
      | none => .error (.addOverflow t.literal v.literal) := by
  unfold add
  -- The integers become variables first, or the comparisons with their bounds would be computed.
  split <;> first
    | contradiction
    | rw [show _ = a from Option.some.inj ht, show _ = b from Option.some.inj hv]
      rfl
    | cases t <;> cases v <;> first | contradiction | simp_all

/-- The largest sum of two integer values: of signed ones a signed integer. -/
def reach : Value → Value → Int
  | .int _, .int _ => Int64.maxValue.toInt
  | _, _ => UInt64.size - 1

/-- The range that the sum of two integer values has to lie in. -/
def InReach (t v : Value) (n : Int) : Prop :=
  Int64.minValue.toInt ≤ n ∧ n ≤ reach t v

theorem exists_signed {n : Int} (hlow : Int64.minValue.toInt ≤ n)
    (hhigh : n ≤ Int64.maxValue.toInt) :
    ∃ m, ofSigned? n = some m ∧ (Value.int m).integer? = some n :=
  have hsigned : ofSigned? n = some (.ofInt n) := if_pos ⟨hlow, hhigh⟩
  ⟨_, hsigned, congrArg some (Value.ofSigned?_eq_some_iff.mp hsigned)⟩

theorem exists_unsigned {n : Int} (hlow : 0 ≤ n) (hhigh : n ≤ UInt64.size - 1) :
    ∃ m, ofUnsigned? n = some m ∧ (Value.uint m).integer? = some n :=
  have hunsigned : ofUnsigned? n = some (.ofNat n.toNat) := if_pos ⟨hlow, by omega⟩
  ⟨_, hunsigned, congrArg some (Value.ofUnsigned?_eq_some_iff.mp hunsigned)⟩

/-- JSON gives an unsigned integer back as it is just when it is beyond the signed ones. -/
theorem literal_uint_iff {m : UInt64} {n : Int} (h : (Value.uint m).integer? = some n) :
    (Value.uint m).Literal ↔ Int64.maxValue.toInt < n := by
  obtain rfl := Option.some.inj h
  exact Iff.rfl

/-- An integer with 64 bits is represented by a literal of its own, a signed one or else an unsigned
one. -/
theorem exists_integer? {n : Int} (hlow : Int64.minValue.toInt ≤ n) (hhigh : n ≤ UInt64.size - 1) :
    ∃ r, integer? n = some r ∧ r.integer? = some n ∧ r.Literal := by
  by_cases hsigned : n ≤ Int64.maxValue.toInt
  · obtain ⟨m, hm, hinteger⟩ := exists_signed hlow hsigned
    exact ⟨.int m, by rw [integer?, hm]; rfl, hinteger, trivial⟩
  · have hnonneg : 0 ≤ n := Int.le_trans (by decide) (Int.le_of_not_le hsigned)
    obtain ⟨m, hm, hinteger⟩ := exists_unsigned hnonneg hhigh
    refine ⟨.uint m, ?_, hinteger, (literal_uint_iff hinteger).mpr (Int.not_le.mp hsigned)⟩
    rw [integer?, ofSigned?, if_neg fun h => hsigned h.2, hm]
    rfl

/-- A sum in reach is represented, by a literal if the operands are literals. Two unsigned literals
have no sum in reach. -/
theorem exists_integerSum? (ht : t.integer? = some a) (hv : v.integer? = some b)
    (h : InReach t v (a + b)) : ∃ r, integerSum? t v (a + b) = some r ∧
      r.integer? = some (a + b) ∧ (t.Literal → v.Literal → r.Literal) := by
  obtain ⟨hlow, hhigh⟩ := h
  cases t <;> cases v <;> first | contradiction | skip
  case int.int =>
    obtain ⟨r, hr, hinteger⟩ := exists_signed hlow hhigh
    exact ⟨.int r, by rw [integerSum?, hr, Option.map_some], hinteger, fun _ _ => trivial⟩
  case uint.uint m n =>
    have hm : (m.toNat : Int) = a := Option.some.inj ht
    have hn : (n.toNat : Int) = b := Option.some.inj hv
    obtain ⟨r, hr, hinteger⟩ := exists_unsigned (n := a + b) (by omega) hhigh
    refine ⟨.uint r, by rw [integerSum?, hr, Option.map_some], hinteger, fun hml hnl => ?_⟩
    rw [literal_uint_iff ht] at hml
    rw [literal_uint_iff hv] at hnl
    rw [literal_uint_iff hinteger]
    omega
  case int.uint =>
    obtain ⟨r, hr, hinteger, hliteral⟩ := exists_integer? hlow hhigh
    exact ⟨r, hr, hinteger, fun _ _ => hliteral⟩
  case uint.int =>
    obtain ⟨r, hr, hinteger, hliteral⟩ := exists_integer? hlow hhigh
    exact ⟨r, hr, hinteger, fun _ _ => hliteral⟩

theorem integerSum?_eq_none (ht : t.integer? = some a) (hv : v.integer? = some b)
    (h : ¬InReach t v (a + b)) : integerSum? t v (a + b) = none := by
  have hzero : Int64.minValue.toInt ≤ 0 := by decide
  have hsize : Int64.maxValue.toInt ≤ UInt64.size - 1 := by decide
  have hmixed {n : Int} (h : ¬(Int64.minValue.toInt ≤ n ∧ n ≤ UInt64.size - 1)) :
      integer? n = none := by
    rw [integer?, ofSigned?, if_neg (by omega), ofUnsigned?, if_neg (by omega)]
    rfl
  cases t <;> cases v <;> first | contradiction | skip
  case int.int =>
    have hsigned : ofSigned? (a + b) = none := if_neg h
    rw [integerSum?, hsigned, Option.map_none]
  case uint.uint m n =>
    have hm : (m.toNat : Int) = a := Option.some.inj ht
    have hn : (n.toNat : Int) = b := Option.some.inj hv
    rw [integerSum?, ofUnsigned?, if_neg fun hrange => h ⟨by omega, Int.le_sub_one_of_lt hrange.2⟩]
    rfl
  case int.uint => exact hmixed h
  case uint.int => exact hmixed h

/-- What adding two integer values comes to: their sum as an integer, a literal of its own if they
are, or an overflow when the sum is out of reach. -/
inductive AddsTo (t v : Value) (n : Int) : Prop
  | sum {r : Value} (in_reach : InReach t v n) (add_eq : add t v = .ok r)
      (integer_eq : r.integer? = some n) (literal : t.Literal → v.Literal → r.Literal)
  | overflow (out_of_reach : ¬InReach t v n)
      (add_eq : add t v = .error (.addOverflow t.literal v.literal))

/-- The step of a sum of integers. -/
theorem add_integers (ht : t.integer? = some a) (hv : v.integer? = some b) :
    AddsTo t v (a + b) := by
  by_cases h : InReach t v (a + b)
  · obtain ⟨r, hr, hinteger, hliteral⟩ := exists_integerSum? ht hv h
    exact .sum h (by rw [add_eq_integerSum? ht hv, hr]) hinteger hliteral
  · exact .overflow h (by rw [add_eq_integerSum? ht hv, integerSum?_eq_none ht hv h])

/-! ## Numbers -/

theorem EndsIn.of_integers {n : Int} (h : AddsTo t v n) :
    EndsIn (fun r => r.number? = some (n : ℚ)) (add t v) := by
  cases h with
  | sum _ hadd hinteger => exact .inl ⟨_, hadd, Value.number?_of_integer? hinteger⟩
  | overflow _ hadd => exact .inr ⟨_, _, hadd⟩

theorem exists_integer_or_decimal {q : ℚ} (h : v.number? = some q) :
    (∃ n : Int, v.integer? = some n ∧ (n : ℚ) = q) ∨
      ∃ x : Decimal, v = .decimal x ∧ x.number = q := by
  cases v with
  | int n => exact .inl ⟨_, rfl, Option.some.inj ((Value.number?_of_integer? rfl).symm.trans h)⟩
  | uint n => exact .inl ⟨_, rfl, Option.some.inj ((Value.number?_of_integer? rfl).symm.trans h)⟩
  | decimal x => exact .inr ⟨x, rfl, Option.some.inj h⟩
  | _ => contradiction

theorem exists_decimal? {q : ℚ} (h : v.number? = some q) :
    ∃ x, decimal? v = some x ∧ x.number = q ∧ v.isNull = false := by
  obtain ⟨x, hx, hq⟩ := Option.map_eq_some_iff.mp h
  cases v <;> first | contradiction | exact ⟨x, hx, hq, rfl⟩

/-- The step of a sum of numbers. -/
theorem add_numbers {p q : ℚ} (ht : t.number? = some p) (hv : v.number? = some q) :
    EndsIn (fun r => r.number? = some (p + q)) (add t v) := by
  obtain ⟨x, hx, hp, htnull⟩ := exists_decimal? ht
  obtain ⟨y, hy, hq, hvnull⟩ := exists_decimal? hv
  have hdecimal : (Value.decimal (x.add y)).number? = some (p + q) := by
    rw [← hp, ← hq, ← Decimal.number_add]
    rfl
  obtain ⟨m, hm, rfl⟩ | ⟨x', rfl, -⟩ := exists_integer_or_decimal ht
  · obtain ⟨n, hn, rfl⟩ | ⟨y', rfl, -⟩ := exists_integer_or_decimal hv
    · rw [← Int.cast_add]
      exact .of_integers (add_integers hm hn)
    · obtain rfl := Option.some.inj hy
      refine .inl ⟨_, ?_, hdecimal⟩
      rw [add_decimal_right, htnull, hx]
      rfl
  · obtain rfl := Option.some.inj hx
    refine .inl ⟨_, ?_, hdecimal⟩
    rw [add_decimal_left, hvnull, hy]
    rfl

end Sum

/-! ## Points of time -/

namespace TimeOfDay

/-- The nanoseconds since midnight that a clock shows; in a leap second they run on. -/
def clock (t : TimeOfDay) : Int :=
  t.second * 1000000000 + t.nano

theorem clock_ofNanos (n : Int) : (ofNanos n).1.clock = n % 86400000000000 := by
  simp only [clock, ofNanos, wrapped]
  omega

theorem isLeap_ofNanos (n : Int) : (ofNanos n).1.isLeap = false := by
  have hnano : (ofNanos n).1.nano < 1000000000 := Nat.mod_lt _ (by decide)
  exact decide_eq_false (Nat.not_le.mpr hnano)

/-- Outside of a leap second a duration moves the clock by its nanoseconds. -/
theorem add_eq_ofNanos {t : TimeOfDay} (h : t.isLeap = false) (d : Duration) :
    t.add d = ofNanos (t.clock + d.nanos) := by
  simp [add, h, clock]

end TimeOfDay

/-- The nanoseconds from the beginning of day zero. -/
def DateTime.nanos (t : DateTime) : Int :=
  t.date.day * 86400000000000 + t.time.clock

/-- Adding days to a date moves it by so many days. -/
theorem Date.day_of_addDays? {d e : Date} {days : Int} (h : d.addDays? days = some e) :
    e.day = d.day + days := by
  rw [addDays?, ofDay?] at h
  split at h
  next => rw [← Option.some.inj h]
  next => contradiction

/-- A date-time that is no leap second moves by exactly the duration, and not into a leap second. -/
theorem DateTime.nanos_of_add? {t r : DateTime} {d : Duration} (hleap : t.time.isLeap = false)
    (h : t.add? d = some r) : r.time.isLeap = false ∧ r.nanos = t.nanos + d.nanos := by
  simp only [add?, TimeOfDay.add_eq_ofNanos hleap] at h
  obtain ⟨date, hdate, h⟩ := Option.bind_eq_some_iff.mp h
  obtain rfl := Option.some.inj h
  refine ⟨TimeOfDay.isLeap_ofNanos _, ?_⟩
  have hday : date.day = t.date.day + (t.time.clock + d.nanos) / 86400000000000 :=
    Date.day_of_addDays? hdate
  simp only [nanos, hday, TimeOfDay.clock_ofNanos]
  omega

/-- The scales of points of time: local times, instants, and lengths of time. -/
inductive Scale where
  | wall
  | universal
  | length

/-- The scale of a date, date-time or duration and its nanoseconds there, a date at its midnight. A
leap second has no nanoseconds of its own. -/
def Value.point? : Value → Option (Scale × Int)
  | .date d => some (.wall, (DateTime.ofDate d).nanos)
  | .timestampNaive t => if t.time.isLeap then none else some (.wall, t.nanos)
  | .timestamp t => if t.time.isLeap then none else some (.universal, t.nanos)
  | .duration d => some (.length, d.nanos)
  | _ => none

namespace Sum

variable {t : Value} {scale : Scale} {n : Int}

/-- A date moves on the wall clock by the duration from its midnight. -/
theorem point?_of_moveDate? {d : Date} {delta : Duration} {r : Value}
    (h : moveDate? d delta = some r) :
    r.point? = some (.wall, (DateTime.ofDate d).nanos + delta.nanos) := by
  obtain ⟨t, hadd, h⟩ := Option.bind_eq_some_iff.mp h
  obtain ⟨hleap, hnanos⟩ := DateTime.nanos_of_add? (t := .ofDate d) rfl hadd
  rw [← hnanos]
  obtain rfl := Option.some.inj h
  split
  next date hdate =>
    obtain ⟨hmidnight, hdate⟩ := Option.ite_none_right_eq_some.mp hdate
    obtain rfl := Option.some.inj hdate
    rw [Value.point?, DateTime.ofDate, ← hmidnight]
  next => simp [Value.point?, hleap]

/-- A date-time outside of a leap second moves by the duration, on its own scale. -/
theorem point?_of_add? {wrap : DateTime → Value} {scale' : Scale} {u r : DateTime} {d : Duration}
    (hwrap : ∀ t, (wrap t).point? = if t.time.isLeap then none else some (scale', t.nanos))
    (hu : (wrap u).point? = some (scale, n)) (hadd : u.add? d = some r) :
    (wrap r).point? = some (scale, n + d.nanos) := by
  rw [hwrap] at hu ⊢
  obtain ⟨hleap, hpoint⟩ := Option.ite_none_left_eq_some.mp hu
  obtain ⟨rfl, rfl⟩ := Prod.mk.inj (Option.some.inj hpoint)
  obtain ⟨hleap', hnanos⟩ := DateTime.nanos_of_add? (Bool.eq_false_iff.mpr hleap) hadd
  rw [hleap', hnanos]
  rfl

/-- The step of a sum over durations: the point of time moves by exactly the duration. -/
theorem add_duration (ht : t.point? = some (scale, n)) (d : Duration) :
    EndsIn (fun r => r.point? = some (scale, n + d.nanos)) (add t (.duration d)) := by
  cases t with
  | date e =>
      obtain ⟨rfl, rfl⟩ := Prod.mk.inj (Option.some.inj ht)
      exact .of_fitting fun r hr => point?_of_moveDate? hr
  | timestampNaive u =>
      refine .of_fitting fun r hr => ?_
      obtain ⟨w, hadd, rfl⟩ := Option.map_eq_some_iff.mp hr
      exact point?_of_add? (fun _ => rfl) ht hadd
  | timestamp u =>
      refine .of_fitting fun r hr => ?_
      obtain ⟨w, hadd, rfl⟩ := Option.map_eq_some_iff.mp hr
      exact point?_of_add? (fun _ => rfl) ht hadd
  | duration e =>
      obtain ⟨rfl, rfl⟩ := Prod.mk.inj (Option.some.inj ht)
      refine .of_fitting fun r hr => ?_
      obtain ⟨w, hadd, rfl⟩ := Option.map_eq_some_iff.mp hr
      rw [Value.point?, Duration.ofNanos?_eq_some_iff.mp hadd]
  | _ => contradiction

end Sum

/-! ## Times of day -/

namespace TimeOfDay

variable {t r u : TimeOfDay}

/-- The nanoseconds that pass and are not shown on a clock: those of the second by which it stands
still when a leap second is left on the way forward. -/
inductive Hidden (t r : TimeOfDay) : Int → Prop
  | none (leap : r.isLeap = true → t.isLeap = true) : Hidden t r 0
  | second (leap : t.isLeap = true) (left : r.isLeap = false) : Hidden t r 1000000000

/-- What two moves hide between times of day, they hide one after the other. -/
theorem Hidden.trans {m n : Int} (htr : Hidden t r m) (hru : Hidden r u n) :
    Hidden t u (m + n) := by
  cases htr with
  | none hleap =>
      rw [zero_add]
      cases hru with
      | none hleap' => exact .none fun h => hleap (hleap' h)
      | second hleap' hleft => exact .second (hleap hleap') hleft
  | second hleap hleft =>
      cases hru with
      | none hleap' =>
          refine .second hleap (Bool.eq_false_iff.mpr fun h => ?_)
          rw [hleap' h] at hleft
          contradiction
      | second hleap' =>
          rw [hleap'] at hleft
          contradiction

/-- Outside of a leap second nothing is hidden. -/
theorem Hidden.eq_zero {n : Int} (h : Hidden t r n) (hleap : t.isLeap = false) :
    n = 0 ∧ r.isLeap = false := by
  cases h with
  | none h =>
      refine ⟨rfl, Bool.eq_false_iff.mpr fun hr => ?_⟩
      rw [h hr] at hleap
      contradiction
  | second h =>
      rw [h] at hleap
      contradiction

theorem clock_mod (h : t.isLeap = false) : t.clock % 86400000000000 = t.clock := by
  have hnano : t.nano < 1000000000 := Nat.not_le.mp (of_decide_eq_false h)
  have hsecond := t.second_lt
  simp only [clock]
  omega

theorem clock_leapSecond (hleap : 1000000000 ≤ t.nano) {nano : Nat} (hlow : 1000000000 ≤ nano)
    (hhigh : nano < 2000000000) :
    (leapSecond (t.second / 60) nano).clock = t.second * 1000000000 + nano := by
  have hend := t.ends_minute hleap
  have hsecond := t.second_lt
  simp only [clock, leapSecond]
  omega

theorem clock_wrapped {second nano : Nat} (hsecond : second < 86400) (hnano : nano < 1000000000) :
    (wrapped second nano).clock = second * 1000000000 + nano := by
  simp only [clock, wrapped]
  omega

/-- After a duration a clock shows the time moved by it, but for the second that is hidden. -/
theorem clock_add (t : TimeOfDay) (d : Duration) : ∃ hidden, Hidden t (t.add d).1 hidden ∧
    (t.add d).1.clock % 86400000000000 = (t.clock + d.nanos - hidden) % 86400000000000 := by
  rw [add]
  split
  -- A leap second that is not left counts on in its own nanoseconds.
  next hstays =>
    obtain ⟨hleap, hshort, hhigh⟩ := hstays
    have hnano : 1000000000 ≤ t.nano := of_decide_eq_true hleap
    refine ⟨0, .none fun _ => hleap, ?_⟩
    dsimp only
    split
    next hlow =>
      rw [clock_leapSecond hnano hlow (by omega)]
      simp only [clock]
      omega
    next hlow =>
      rw [clock_wrapped t.second_lt (by omega)]
      simp only [clock]
      omega
  next =>
    dsimp only
    -- A leap second that is left forwards is not counted.
    by_cases hforward : t.isLeap = true ∧ 0 < d.nanos
    · refine ⟨1000000000, .second hforward.1 (isLeap_ofNanos _), ?_⟩
      rw [if_pos hforward, clock_ofNanos, Int.emod_emod, clock]
    · refine ⟨0, .none fun h => ?_, ?_⟩
      · rw [isLeap_ofNanos] at h
        contradiction
      · rw [if_neg hforward, clock_ofNanos, Int.emod_emod, clock]

end TimeOfDay

namespace Sum

/-- A sum from a time of day is a time of day. -/
theorem exists_foldlM_time (t : TimeOfDay) (ds : List Duration) :
    ∃ r hidden, (ds.map Value.duration).foldlM add (.time t) = .ok (.time r) ∧
      TimeOfDay.Hidden t r hidden ∧ r.clock % 86400000000000 =
        (t.clock + (ds.map Duration.nanos).sum - hidden) % 86400000000000 := by
  induction ds generalizing t with
  | nil => exact ⟨t, 0, rfl, .none id, by simp⟩
  | cons d ds ih =>
      obtain ⟨first, hfirst, hclock⟩ := t.clock_add d
      obtain ⟨r, rest, hsum, hrest, hclock'⟩ := ih (t.add d).1
      refine ⟨r, first + rest, hsum, hfirst.trans hrest, ?_⟩
      rw [hclock', List.map_cons, List.sum_cons]
      omega

end Sum

end Selection
