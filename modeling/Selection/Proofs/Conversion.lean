import Selection.Compile.Operand
import Selection.Proofs.Addition
import Selection.Proofs.DecimalNumber
import Selection.Proofs.Rounding

/-! # Comparison and conversion by one route

Numbers are compared and converted by a case for each pair of representations. All cases together
are one route: exact numbers are compared as decimals, and an integer type takes the integer that a
number equals, if it fits. Dates and timestamps all tell a date-time. A value of the wanted type is
not converted, but stays as it is; the routes give it too.
-/

namespace Selection

/-- Integers are ordered as their decimals. -/
theorem Decimal.compare_ofInt (m n : Int) :
    (Decimal.ofInt m).compare (.ofInt n) = Ord.compare m n := by
  rw [compare_eq, number_ofInt, number_ofInt, ← cmp_eq_compare, ← cmp_eq_compare]
  exact Int.cast_strictMono.cmp_map_eq m n

namespace Value

variable {v w : Value} {t : DateTime} {type : DataType} {x : Decimal}

/-! ## Order -/

/-- The order of two numbers: that of their exact numbers, unless one of them is a float. -/
def compareNumbers? (v w : Value) : Option Ordering :=
  match v.exactNumber?, w.exactNumber? with
  | some x, some y => some (x.compare y)
  | _, _ => do (← v.asFloat?).compare? (← w.asFloat?)

/-- Signed integers compare as the integers that they denote. -/
theorem compare_int64 (m n : Int64) : Ord.compare m n = Ord.compare m.toInt n.toInt := by
  simp [compareOfLessAndEq, Ord.compare, Int64.lt_iff_toInt_lt, ← Int64.toInt_inj]

/-- Unsigned integers compare as the integers that they denote. -/
theorem compare_uint64 (m n : UInt64) :
    Ord.compare m n = Ord.compare (m.toNat : Int) (n.toNat : Int) := by
  simp [compareOfLessAndEq, Ord.compare, UInt64.lt_iff_toNat_lt, ← UInt64.toNat_inj]

/-- Numbers of any two representations are compared by one route. -/
theorem compare?_eq_compareNumbers? (hv : v.dataType.isNumeric = true)
    (hw : w.dataType.isNumeric = true) : v.compare? w = compareNumbers? v w := by
  have hinteger (m n : Int) :
      some (Ord.compare m n) = some ((Decimal.ofInt m).compare (Decimal.ofInt n)) := by
    rw [Decimal.compare_ofInt]
  cases v with
  | int m =>
      cases w with
      | int n => exact (congrArg some (compare_int64 m n)).trans (hinteger _ _)
      | uint n => exact hinteger _ _
      | float y => rfl
      | decimal y => rfl
      | _ => contradiction
  | uint m =>
      cases w with
      | int n => exact hinteger _ _
      | uint n => exact (congrArg some (compare_uint64 m n)).trans (hinteger _ _)
      | float y => rfl
      | decimal y => rfl
      | _ => contradiction
  | float x => cases w <;> first | contradiction | rfl
  | decimal x => cases w <;> first | contradiction | rfl
  | _ => contradiction

/-! ## Integers -/

/-- The integer that a number equals, if any. -/
def toInteger? : Value → Option Int
  | int n => some n.toInt
  | uint n => some n.toNat
  | float x => x.toInt?
  | decimal x => x.toInt?
  | _ => none

/-- A float is within the limits of signed integers when its integer is one. -/
theorem isWithin_signed_iff {x : Binary64} {n : Int} (hx : x.toInt? = some n) :
    x.isWithin (.ofInt Int64.minValue.toInt) signedLimit = true ↔
      Int64.minValue.toInt ≤ n ∧ n ≤ Int64.maxValue.toInt := by
  -- Both limits are powers of two, so that they are floats themselves.
  have hleast : (Binary64.ofInt Int64.minValue.toInt).key? =
      some (Int64.minValue.toInt * Binary64.one) := by
    decide +kernel
  have hlimit : signedLimit.key? = some ((Int64.maxValue.toInt + 1) * Binary64.one) := by
    decide +kernel
  rw [Binary64.isWithin_iff hx hleast hlimit, Int.lt_add_one_iff]

/-- A float is within the limits of unsigned integers when its integer is one. -/
theorem isWithin_unsigned_iff {x : Binary64} {n : Int} (hx : x.toInt? = some n) :
    x.isWithin (.ofInt 0) unsignedLimit = true ↔ 0 ≤ n ∧ n < UInt64.size := by
  have hleast : (Binary64.ofInt 0).key? = some ((0 : Int) * Binary64.one) := by
    decide +kernel
  have hlimit : unsignedLimit.key? = some ((UInt64.size : Int) * Binary64.one) := by
    decide +kernel
  exact Binary64.isWithin_iff hx hleast hlimit

/-- A number of another type gives the signed integer that it equals, if this has 64 bits. -/
theorem toSigned?_eq (hv : v.dataType.isNumeric = true) (hne : v.dataType ≠ .int) :
    v.toSigned? = v.toInteger?.bind ofSigned? := by
  cases v with
  | uint n => rfl
  | float x =>
      rw [toSigned?, toInteger?]
      cases hx : x.toInt? with
      | none => simp [Binary64.toInt?_eq_none_iff.mp hx]
      | some n =>
          obtain ⟨hwhole, rfl⟩ := Binary64.isWhole_of_toInt? hx
          simp only [hwhole, Bool.true_and, isWithin_signed_iff hx, Option.bind_some, ofSigned?]
  | decimal x =>
      rw [toSigned?, toInteger?, Decimal.toInt?]
      split <;> rfl
  | _ => contradiction

/-- A number of another type gives the unsigned integer that it equals, if this has 64 bits. -/
theorem toUnsigned?_eq (hv : v.dataType.isNumeric = true) (hne : v.dataType ≠ .intUnsigned) :
    v.toUnsigned? = v.toInteger?.bind ofUnsigned? := by
  cases v with
  | int n => rfl
  | float x =>
      rw [toUnsigned?, toInteger?]
      cases hx : x.toInt? with
      | none => simp [Binary64.toInt?_eq_none_iff.mp hx]
      | some n =>
          obtain ⟨hwhole, rfl⟩ := Binary64.isWhole_of_toInt? hx
          simp only [hwhole, Bool.true_and, isWithin_unsigned_iff hx, Option.bind_some,
            ofUnsigned?]
  | decimal x =>
      rw [toUnsigned?, toInteger?, Decimal.toInt?]
      split <;> rfl
  | _ => contradiction

/-! ## Values of a type -/

/-- The value as one of a type: itself when it is of that type, and else what it is converted to. -/
def cast? (v : Value) (type : DataType) : Option Value :=
  if v.dataType = type then some v else v.convert? type

/-- A value is of its own type as it is. -/
theorem cast?_dataType (v : Value) : v.cast? v.dataType = some v :=
  if_pos rfl

theorem cast?_of_ne (h : v.dataType ≠ type) : v.cast? type = v.convert? type :=
  if_neg h

/-- A number is cast to the signed integer that it equals. -/
theorem cast?_int (hv : v.dataType.isNumeric = true) :
    v.cast? .int = (v.toInteger?.bind ofSigned?).map int := by
  by_cases htype : v.dataType = .int
  · cases v with
    | int n => rw [toInteger?, Option.bind_some, ofSigned?_toInt, Option.map_some]; rfl
    | _ => contradiction
  · rw [cast?_of_ne htype, convert?, toSigned?_eq hv htype]

theorem cast?_intUnsigned (hv : v.dataType.isNumeric = true) :
    v.cast? .intUnsigned = (v.toInteger?.bind ofUnsigned?).map uint := by
  by_cases htype : v.dataType = .intUnsigned
  · cases v with
    | uint n => rw [toInteger?, Option.bind_some, ofUnsigned?_toNat, Option.map_some]; rfl
    | _ => contradiction
  · rw [cast?_of_ne htype, convert?, toUnsigned?_eq hv htype]

/-- An exact number is cast to its decimal. -/
theorem cast?_decimal (hx : v.exactNumber? = some x) : v.cast? .decimal = some (decimal x) := by
  cases v <;> first
    | contradiction
    | obtain rfl := Option.some.inj hx
      rfl

/-! ## Dates and timestamps -/

/-- The date-time that a date begins or a timestamp tells. -/
def toDateTime? : Value → Option DateTime
  | date d => some (.ofDate d)
  | timestamp t | timestampNaive t => some t
  | _ => none

/-- A date-time is converted to the date that it is the midnight of. -/
theorem toDate?_eq_some_iff {d : Date} : toDate? t = some d ↔ .ofDate d = t := by
  obtain ⟨date, time⟩ := t
  simp only [toDate?, Option.ite_none_right_eq_some, Option.some_inj, DateTime.ofDate,
    DateTime.mk.injEq]
  exact ⟨fun h => ⟨h.2.symm, h.1.symm⟩, fun h => ⟨h.2.symm, h.1.symm⟩⟩

/-- A date-time is converted to no date unless it is at midnight. -/
theorem toDate?_eq_none_iff : toDate? t = none ↔ t.time ≠ .midnight := by
  simp [toDate?]

/-- A date or timestamp is cast to the values that tell its date-time. -/
theorem cast?_dated (ht : v.toDateTime? = some t) :
    v.cast? .date = (toDate? t).map date ∧ v.cast? .timestamp = some (timestamp t) ∧
      v.cast? .timestampNaive = some (timestampNaive t) := by
  cases v with
  | date d =>
      obtain rfl := Option.some.inj ht
      rw [toDate?_eq_some_iff.mpr rfl]
      exact ⟨rfl, rfl, rfl⟩
  | timestamp s =>
      obtain rfl := Option.some.inj ht
      exact ⟨rfl, rfl, rfl⟩
  | timestampNaive s =>
      obtain rfl := Option.some.inj ht
      exact ⟨rfl, rfl, rfl⟩
  | _ => contradiction

end Value

/-- A value that is not null is coerced as it is cast. -/
theorem Operand.coerce_eq_cast? (field : String) {v : Value} {type : DataType}
    (hnull : v.isNull = false) :
    coerce field type v = match v.cast? type with
      | some w => .ok w
      | none => .error (.typeCoercionFailure v.plainText v.dataType field type) := by
  by_cases htype : v.dataType = type
  · subst htype
    simp [coerce, Value.cast?_dataType]
  · have hother : (v.isNull || v.dataType == type) = false := by simp [hnull, htype]
    rw [Value.cast?_of_ne htype]
    cases hconvert : v.convert? type <;> simp [coerce, hother, hconvert]

end Selection
