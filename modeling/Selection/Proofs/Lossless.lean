import Selection.Proofs.Coercion
import Selection.Proofs.Conversion

/-! # Coercion between exact types loses nothing

An integer or decimal is converted to another of these types exactly when that type has its number,
and to a value with this number. A date or timestamp always is, except to a date when its time is
not midnight. Converting back to the first type gives an equal value.
-/

namespace Selection

/-- The types of exact numbers. -/
inductive DataType.Exact : DataType → Prop
  | int : Exact .int
  | intUnsigned : Exact .intUnsigned
  | decimal : Exact .decimal

/-- The types of dates and timestamps. -/
inductive DataType.Dated : DataType → Prop
  | date : Dated .date
  | timestampNaive : Dated .timestampNaive
  | timestamp : Dated .timestamp

namespace Value

variable {v w : Value} {q : ℚ} {t : DateTime} {type : DataType}

/-! ## Exact numbers -/

theorem exists_number?_of_exact (h : v.dataType.Exact) : ∃ q, v.number? = some q := by
  cases v <;> first | exact ⟨_, rfl⟩ | cases h

/-- A value with a number is of a numeric type. -/
theorem isNumeric_of_number? (h : v.number? = some q) : v.dataType.isNumeric = true := by
  cases v <;> first | rfl | contradiction

/-- Values that have numbers are compared as their numbers. -/
theorem compare?_of_number? {p : ℚ} (hv : v.number? = some p) (hw : w.number? = some q) :
    v.compare? w = some (Ord.compare p q) := by
  obtain ⟨x, hx, rfl⟩ := Option.map_eq_some_iff.mp hv
  obtain ⟨y, hy, rfl⟩ := Option.map_eq_some_iff.mp hw
  rw [compare?_eq_compareNumbers? (isNumeric_of_number? hv) (isNumeric_of_number? hw),
    compareNumbers?, hx, hy, ← Decimal.compare_eq]

/-- Values of one type that have one number are equal. -/
theorem same_of_number? (htype : w.dataType = v.dataType) (hw : w.number? = some q)
    (hv : v.number? = some q) : w.same v = true := by
  have hcompare : w.compare? v = some .eq := by
    rw [compare?_of_number? hw hv, compare_eq_iff_eq.mpr rfl]
  rw [same, htype, BEq.rfl, Bool.true_and, equal, hcompare, BEq.rfl, Bool.or_true]

/-- An exact number gives the integer that it equals. -/
theorem toInteger?_eq_some_iff (hq : v.number? = some q) {n : Int} :
    v.toInteger? = some n ↔ q = n := by
  obtain ⟨x, hx, rfl⟩ := Option.map_eq_some_iff.mp hq
  have hinteger (m : Int) : some m = some n ↔ (Decimal.ofInt m).number = n := by
    rw [Decimal.number_ofInt, Option.some_inj]
    exact_mod_cast Iff.rfl
  cases v with
  | int m =>
      obtain rfl := Option.some.inj hx
      exact hinteger _
  | uint m =>
      obtain rfl := Option.some.inj hx
      exact hinteger _
  | decimal y =>
      obtain rfl := Option.some.inj hx
      exact Decimal.toInt?_eq_some_iff
  | _ => contradiction

theorem number?_int (n : Int64) : (int n).number? = some (n.toInt : ℚ) :=
  number?_of_integer? rfl

theorem number?_uint (n : UInt64) : (uint n).number? = some ((n.toNat : Int) : ℚ) :=
  number?_of_integer? rfl

/-- An exact number is cast to the integers of a type that equal it. -/
theorem cast?_integer_eq_some_iff {α : Type} {fit? : Int → Option α} {toInt : α → Int}
    {value : α → Value} (hfit : ∀ {n m}, fit? n = some m ↔ toInt m = n)
    (hvalue : ∀ m, (value m).number? = some (toInt m : ℚ)) (hq : v.number? = some q) :
    (v.toInteger?.bind fit?).map value = some w ↔ ∃ m, value m = w ∧ w.number? = some q := by
  rw [Option.map_eq_some_iff]
  refine exists_congr fun m => ?_
  rw [and_comm]
  refine and_congr_right fun hw => ?_
  have hbind : v.toInteger?.bind fit? = some m ↔ v.toInteger? = some (toInt m) := by
    simp only [Option.bind_eq_some_iff, hfit]
    exact ⟨fun ⟨_, hn, h⟩ => h ▸ hn, fun hn => ⟨_, hn, rfl⟩⟩
  rw [hbind, toInteger?_eq_some_iff hq, ← hw, hvalue, Option.some_inj, eq_comm]

/-- A number is cast to the signed integer of that number, if there is one. -/
theorem cast?_int_eq_some_iff (hq : v.number? = some q) :
    v.cast? .int = some w ↔ w.dataType = .int ∧ w.number? = some q := by
  rw [cast?_int (isNumeric_of_number? hq),
    cast?_integer_eq_some_iff ofSigned?_eq_some_iff number?_int hq]
  cases w <;> simp [dataType]

/-- A number is cast to the unsigned integer of that number, if there is one. -/
theorem cast?_intUnsigned_eq_some_iff (hq : v.number? = some q) :
    v.cast? .intUnsigned = some w ↔ w.dataType = .intUnsigned ∧ w.number? = some q := by
  rw [cast?_intUnsigned (isNumeric_of_number? hq),
    cast?_integer_eq_some_iff ofUnsigned?_eq_some_iff number?_uint hq]
  cases w <;> simp [dataType]

/-- A number is cast to the decimal that it is written as exactly. -/
theorem cast?_decimal_eq_some_iff (hq : v.number? = some q) :
    v.cast? .decimal = some w ↔ ∃ x, v.exactNumber? = some x ∧ w = decimal x := by
  obtain ⟨x, hx, -⟩ := Option.map_eq_some_iff.mp hq
  rw [cast?_decimal hx, hx]
  simp [eq_comm]

/-- An exact number is cast to a value with the same number. -/
theorem number?_cast? (hq : v.number? = some q) (htype : type.Exact)
    (h : v.cast? type = some w) : w.dataType = type ∧ w.number? = some q := by
  cases htype with
  | int => exact (cast?_int_eq_some_iff hq).mp h
  | intUnsigned => exact (cast?_intUnsigned_eq_some_iff hq).mp h
  | decimal =>
      obtain ⟨x, hx, rfl⟩ := (cast?_decimal_eq_some_iff hq).mp h
      refine ⟨rfl, ?_⟩
      rw [← hq, number?, number?, hx, exactNumber?]

/-- An exact number is cast to every type that has its number. -/
theorem exists_cast? (hq : v.number? = some q) (htype : w.dataType = type)
    (hw : w.number? = some q) : ∃ w, v.cast? type = some w := by
  cases w with
  | int n => exact ⟨int n, htype ▸ (cast?_int_eq_some_iff hq).mpr ⟨rfl, hw⟩⟩
  | uint n => exact ⟨uint n, htype ▸ (cast?_intUnsigned_eq_some_iff hq).mpr ⟨rfl, hw⟩⟩
  | decimal y =>
      obtain ⟨x, hx, -⟩ := Option.map_eq_some_iff.mp hq
      exact ⟨decimal x, htype ▸ cast?_decimal hx⟩
  | _ => contradiction

/-! ## Dates and timestamps -/

theorem exists_toDateTime?_of_dated (h : v.dataType.Dated) : ∃ t, v.toDateTime? = some t := by
  cases v <;> first | exact ⟨_, rfl⟩ | cases h

/-- A date or timestamp is cast to a value that tells the same date-time. -/
theorem toDateTime?_cast? (ht : v.toDateTime? = some t) (htype : type.Dated)
    (h : v.cast? type = some w) : w.dataType = type ∧ w.toDateTime? = some t := by
  obtain ⟨hdate, htimestamp, hnaive⟩ := cast?_dated ht
  cases htype with
  | date =>
      obtain ⟨d, hd, rfl⟩ := Option.map_eq_some_iff.mp (hdate.symm.trans h)
      exact ⟨rfl, congrArg some (toDate?_eq_some_iff.mp hd)⟩
  | timestampNaive =>
      obtain rfl := Option.some.inj (hnaive.symm.trans h)
      exact ⟨rfl, rfl⟩
  | timestamp =>
      obtain rfl := Option.some.inj (htimestamp.symm.trans h)
      exact ⟨rfl, rfl⟩

/-- A date or timestamp is cast unless a date is wanted and its time is not midnight. -/
theorem cast?_eq_none_iff (ht : v.toDateTime? = some t) (htype : type.Dated) :
    v.cast? type = none ↔ type = .date ∧ t.time ≠ .midnight := by
  obtain ⟨hdate, htimestamp, hnaive⟩ := cast?_dated ht
  cases htype with
  | date => rw [hdate, Option.map_eq_none_iff, toDate?_eq_none_iff, eq_self, true_and]
  | timestampNaive => simp [hnaive]
  | timestamp => simp [htimestamp]

/-- A value that tells the date-time of another one is cast to it. -/
theorem cast?_dataType_of_toDateTime? (hv : v.toDateTime? = some t)
    (hw : w.toDateTime? = some t) : w.cast? v.dataType = some v := by
  obtain ⟨hdate, htimestamp, hnaive⟩ := cast?_dated hw
  cases v with
  | date d =>
      rw [dataType, hdate, toDate?_eq_some_iff.mpr (Option.some.inj hv), Option.map_some]
  | timestamp s =>
      obtain rfl := Option.some.inj hv
      exact htimestamp
  | timestampNaive s =>
      obtain rfl := Option.some.inj hv
      exact hnaive
  | _ => contradiction

end Value

namespace Operand

variable {v w : Value} {q : ℚ} {t : DateTime} {type : DataType}

/-- A value that is not null is coerced to what it is cast to. -/
theorem coerce_eq_ok_iff (field : String) (hnull : v.isNull = false) :
    coerce field type v = .ok w ↔ v.cast? type = some w := by
  rw [coerce_eq_cast? field hnull]
  cases v.cast? type <;> simp

/-- A value that is not null fails to be coerced just when it is not cast. -/
theorem exists_coerce_error_iff (field : String) (hnull : v.isNull = false) :
    (∃ e, coerce field type v = .error e) ↔ v.cast? type = none := by
  rw [coerce_eq_cast? field hnull]
  cases v.cast? type <;> simp

theorem coerce_eq_ok_iff_of_number? (field : String) (hq : v.number? = some q) :
    coerce field type v = .ok w ↔ v.cast? type = some w := by
  refine coerce_eq_ok_iff field ?_
  cases v <;> first | contradiction | rfl

/-- An exact number is coerced to another exact type when a value of this type has its number, and
then to one. -/
theorem coerce_number (field : String) (hq : v.number? = some q) (htype : type.Exact) :
    ((∃ w, coerce field type v = .ok w) ↔ ∃ w : Value, w.dataType = type ∧ w.number? = some q) ∧
      ∀ w, coerce field type v = .ok w → w.dataType = type ∧ w.number? = some q := by
  simp only [coerce_eq_ok_iff_of_number? field hq]
  have hgives (w : Value) (hw : v.cast? type = some w) :
      w.dataType = type ∧ w.number? = some q :=
    Value.number?_cast? hq htype hw
  refine ⟨⟨fun ⟨w, hw⟩ => ⟨w, hgives w hw⟩, ?_⟩, hgives⟩
  rintro ⟨w, hw, hwq⟩
  exact Value.exists_cast? hq hw hwq

/-- A date or timestamp is coerced to another type of them, and back, unless a date is wanted and
its time is not midnight. -/
theorem coerce_dateTime (field : String) (ht : v.toDateTime? = some t) (htype : type.Dated) :
    ((∃ e, coerce field type v = .error e) ↔ type = .date ∧ t.time ≠ .midnight) ∧
      ∀ w, coerce field type v = .ok w → w.dataType = type ∧ w.toDateTime? = some t ∧
        coerce field v.dataType w = .ok v := by
  have hnull {v : Value} (ht : v.toDateTime? = some t) : v.isNull = false := by
    cases v <;> first | contradiction | rfl
  rw [exists_coerce_error_iff field (hnull ht)]
  refine ⟨Value.cast?_eq_none_iff ht htype, fun w hw => ?_⟩
  rw [coerce_eq_ok_iff field (hnull ht)] at hw
  obtain ⟨hwtype, hwt⟩ := Value.toDateTime?_cast? ht htype hw
  refine ⟨hwtype, hwt, ?_⟩
  rw [coerce_eq_ok_iff field (hnull hwt)]
  exact Value.cast?_dataType_of_toDateTime? ht hwt

/-- Exact numbers are coerced to one another exactly when the wanted type has the number, dates and
timestamps except to a date from a time that is not midnight. What is coerced has the same number or
date-time, and is coerced back to an equal value. -/
theorem coercion_is_lossless (field : String) (v : Value) (type : DataType) :
    (v.dataType.Exact → type.Exact → ∃ q, v.number? = some q ∧
      ((∃ w, coerce field type v = .ok w) ↔ ∃ w : Value, w.dataType = type ∧ w.number? = some q) ∧
      ∀ w, coerce field type v = .ok w → w.dataType = type ∧ w.number? = some q ∧
        ∃ again, coerce field v.dataType w = .ok again ∧ again.same v = true) ∧
    (v.dataType.Dated → type.Dated → ∃ t, v.toDateTime? = some t ∧
      ((∃ e, coerce field type v = .error e) ↔ type = .date ∧ t.time ≠ .midnight) ∧
      ∀ w, coerce field type v = .ok w → w.dataType = type ∧ w.toDateTime? = some t ∧
        coerce field v.dataType w = .ok v) := by
  constructor
  · intro hv htype
    obtain ⟨q, hq⟩ := Value.exists_number?_of_exact hv
    obtain ⟨hiff, hgives⟩ := coerce_number field hq htype
    refine ⟨q, hq, hiff, fun w hw => ?_⟩
    obtain ⟨hwtype, hwq⟩ := hgives w hw
    -- The value itself has its type and number, so its type has the number of what it became.
    obtain ⟨hback, hbackGives⟩ := coerce_number field hwq hv
    obtain ⟨again, hagain⟩ := hback.mpr ⟨v, rfl, hq⟩
    obtain ⟨hagainType, hagainq⟩ := hbackGives again hagain
    exact ⟨hwtype, hwq, again, hagain, Value.same_of_number? hagainType hagainq hq⟩
  · intro hv htype
    obtain ⟨t, ht⟩ := Value.exists_toDateTime?_of_dated hv
    exact ⟨t, ht, coerce_dateTime field ht htype⟩

/-- The decimal 5.0 is coerced to an integer and back, and a time in the evening is refused for a
date. -/
theorem five_is_coerced_losslessly :
    (∃ w, coerce "i" .int (.decimal ⟨50, 1, by decide, by decide⟩) = .ok w ∧
      ∃ again, coerce "i" .decimal w = .ok again ∧
        again.same (.decimal ⟨50, 1, by decide, by decide⟩) = true) ∧
    ∃ e, coerce "day" .date (.timestamp (Sample.moment (Sample.day 2024 2 29) 23 59)) =
      .error e := by
  constructor
  · have hfive : coerce "i" .int (.decimal ⟨50, 1, by decide, by decide⟩) = .ok (.int 5) := by rfl
    obtain ⟨q, -, -, hgives⟩ := (coercion_is_lossless "i"
      (.decimal ⟨50, 1, by decide, by decide⟩) .int).1 .decimal .int
    exact ⟨_, hfive, (hgives _ hfive).2.2⟩
  · obtain ⟨t, ht, hfails, -⟩ := (coercion_is_lossless "day"
      (.timestamp (Sample.moment (Sample.day 2024 2 29) 23 59)) .date).2 .timestamp .date
    obtain rfl := Option.some.inj ht
    exact hfails.mpr ⟨rfl, by decide⟩

end Operand

end Selection
