import Selection.Proofs.DecimalText
import Selection.Proofs.IntegerSum
import Selection.Proofs.Lossless

/-! # Coercion of numbers on the wire

JSON gives back an integer as the same integer, and a decimal as its text. An integer type takes the
text only of a decimal that is written whole, though it takes every decimal that equals an integer.
So a number is coerced to another exact type after the wire as it was before, but for a decimal with
a point or an exponent in its text, which no integer type takes then.
-/

namespace Selection

open Value (ofSigned? ofUnsigned?)

namespace Value

variable {v u w : Value} {n : Int} {type : DataType} {x : Decimal}

/-! ## Integers -/

/-- Integers that are equal are cast to equal values of exact types. -/
theorem cast?_eq_of_integer? (hu : u.integer? = some n) (hv : v.integer? = some n)
    (htype : type.Exact) : u.cast? type = v.cast? type := by
  have hunumber := number?_of_integer? hu
  have hvnumber := number?_of_integer? hv
  cases htype with
  | int =>
      exact Option.ext fun w =>
        (cast?_int_eq_some_iff hunumber).trans (cast?_int_eq_some_iff hvnumber).symm
  | intUnsigned =>
      exact Option.ext fun w => (cast?_intUnsigned_eq_some_iff hunumber).trans
        (cast?_intUnsigned_eq_some_iff hvnumber).symm
  | decimal =>
      have hexact {v : Value} (h : v.integer? = some n) : v.exactNumber? = some (.ofInt n) := by
        cases v <;> first
          | contradiction
          | exact congrArg (some ∘ Decimal.ofInt) (Option.some.inj h)
      rw [cast?_decimal (hexact hu), cast?_decimal (hexact hv)]

/-! ## Texts of decimals -/

theorem trimmed_decimal_text (x : Decimal) : trimmed x.text = x.text.toList :=
  trimmed_wireText (v := decimal x) rfl

/-- The text of a decimal is the signed integer that the decimal is, if it is written whole. -/
theorem toSigned?_text (x : Decimal) :
    (string x.text).toSigned? = if x.WrittenWhole then (decimal x).toSigned? else none := by
  have hread : readSigned? x.text.toList = if x.WrittenWhole then x.toInt? else none := by
    refine Option.ext fun n => ?_
    rw [Decimal.readSigned?_text_eq_some_iff, Option.ite_none_right_eq_some,
      Decimal.toInt?_eq_some_iff]
  have htext : (string x.text).toSigned? = (readSigned? x.text.toList).bind ofSigned? := by
    rw [toSigned?, trimmed_decimal_text]
  have hdecimal : (decimal x).toSigned? = x.toInt?.bind ofSigned? :=
    toSigned?_eq rfl (by rintro ⟨⟩)
  rw [htext, hread, hdecimal]
  split <;> rfl

/-- The text of a decimal is an unsigned integer when it is written whole and the decimal is one. -/
theorem toUnsigned?_text (x : Decimal) :
    (string x.text).toUnsigned? = if x.WrittenWhole then (decimal x).toUnsigned? else none := by
  have htext : (string x.text).toUnsigned? =
      (readUnsigned? x.text.toList).bind fun n => ofUnsigned? n := by
    rw [toUnsigned?, trimmed_decimal_text]
  have hdecimal : (decimal x).toUnsigned? = x.toInt?.bind ofUnsigned? :=
    toUnsigned?_eq rfl (by rintro ⟨⟩)
  refine Option.ext fun m => ?_
  simp only [htext, hdecimal, Option.ite_none_right_eq_some, Option.bind_eq_some_iff,
    Decimal.readUnsigned?_text_eq_some_iff, Decimal.toInt?_eq_some_iff, ofUnsigned?_eq_some_iff]
  constructor
  · rintro ⟨n, ⟨hwhole, hnumber⟩, hm⟩
    exact ⟨hwhole, n, hnumber, hm⟩
  · rintro ⟨hwhole, n, hnumber, hm⟩
    exact ⟨m.toNat, ⟨hwhole, hm ▸ hnumber⟩, rfl⟩

/-- An integer type takes the text of a decimal as it takes the decimal, if this is written
whole. -/
theorem cast?_text (x : Decimal) (htype : type.Exact) (hne : type ≠ .decimal) :
    (string x.text).cast? type = if x.WrittenWhole then (decimal x).cast? type else none := by
  have hstring : (string x.text).dataType ≠ type := by
    rintro rfl
    cases htype
  have hdecimal : (decimal x).dataType ≠ type := hne.symm
  rw [cast?_of_ne hstring, cast?_of_ne hdecimal]
  cases htype with
  | int =>
      rw [convert?, convert?, toSigned?_text]
      split <;> rfl
  | intUnsigned =>
      rw [convert?, convert?, toUnsigned?_text]
      split <;> rfl
  | decimal => contradiction

/-- What JSON gives back for a number is cast to another exact type as the number, unless it is the
text of a decimal that is not written whole. -/
theorem cast?_carried_eq_some_iff (hv : v.dataType.Exact) (htype : type.Exact)
    (hne : type ≠ v.dataType) :
    v.carried.cast? type = some w ↔
      v.cast? type = some w ∧ ∀ x, v = decimal x → x.WrittenWhole := by
  have hinteger {n : Int} (h : v.integer? = some n) : v.carried.cast? type = some w ↔
      v.cast? type = some w ∧ ∀ x, v = decimal x → x.WrittenWhole := by
    rw [cast?_eq_of_integer? (integer?_carried h).1 h htype]
    refine (and_iff_left ?_).symm
    rintro x rfl
    contradiction
  cases v with
  | int m => exact hinteger rfl
  | uint m => exact hinteger rfl
  | decimal x =>
      have hcarried : (decimal x).carried = string x.text := rfl
      have hwhole : (∀ y, decimal x = decimal y → y.WrittenWhole) ↔ x.WrittenWhole :=
        ⟨fun h => h x rfl, fun h y hy => decimal.inj hy ▸ h⟩
      rw [hcarried, cast?_text x htype hne, hwhole, Option.ite_none_right_eq_some, and_comm]
  | _ => cases hv

/-- JSON carries no value of an exact type as a null. -/
theorem isNull_carried (hv : v.dataType.Exact) : v.carried.isNull = false := by
  have hinteger {n : Int} (h : v.integer? = some n) : v.carried.isNull = false := by
    obtain ⟨hcarried, -⟩ := integer?_carried h
    generalize v.carried = u at hcarried
    cases u <;> first | contradiction | rfl
  cases v with
  | int m => exact hinteger rfl
  | uint m => exact hinteger rfl
  | decimal x => rfl
  | _ => cases hv

end Value

namespace Operand

/-- A number is coerced to another exact type after the wire exactly as before, but for a decimal
that is not written whole, which no integer type takes from the wire. -/
theorem coerce_number_on_wire (field : String) (v : Value) (type : DataType)
    (hv : v.dataType.Exact) (htype : type.Exact) (hne : type ≠ v.dataType) :
    ∃ u, Value.ofJson? v.toJson = some u ∧
      ((∃ w, coerce field type u = .ok w) ↔
        (∃ w, coerce field type v = .ok w) ∧ ∀ x, v = .decimal x → x.WrittenWhole) ∧
      ∀ w, coerce field type u = .ok w → coerce field type v = .ok w := by
  obtain ⟨q, hq⟩ := Value.exists_number?_of_exact hv
  have hiff (w : Value) : coerce field type v.carried = .ok w ↔
      coerce field type v = .ok w ∧ ∀ x, v = .decimal x → x.WrittenWhole := by
    rw [coerce_eq_ok_iff field (Value.isNull_carried hv), coerce_eq_ok_iff_of_number? field hq,
      Value.cast?_carried_eq_some_iff hv htype hne]
  refine ⟨v.carried, v.ofJson?_toJson, ?_, fun w hw => ((hiff w).mp hw).1⟩
  simp only [hiff, exists_and_right]

/-- The decimal 7E+15 is written out in the digits of an integer. -/
theorem written_out_zeros_on_wire :
    ∃ u, Value.ofJson? (Value.decimal ⟨7, -15, by decide, by decide⟩).toJson = some u ∧
      coerce "i" .int u = .ok (.int 7000000000000000) := by
  obtain ⟨u, hjson, hiff, hsame⟩ := coerce_number_on_wire "i"
    (.decimal ⟨7, -15, by decide, by decide⟩) .int .decimal .int nofun
  have hbefore : coerce "i" .int (.decimal ⟨7, -15, by decide, by decide⟩) =
      .ok (.int 7000000000000000) := by
    rfl
  have hwhole : ∀ x, Value.decimal ⟨7, -15, by decide, by decide⟩ = .decimal x →
      x.WrittenWhole := by
    rintro x hx
    obtain rfl := Value.decimal.inj hx
    decide
  obtain ⟨w, hw⟩ := hiff.mpr ⟨⟨_, hbefore⟩, hwhole⟩
  obtain rfl := Except.ok.inj (hbefore.symm.trans (hsame w hw))
  exact ⟨u, hjson, hw⟩

/-- The decimal 5.0 is coerced to an integer, but not its text. -/
theorem trailing_zero_lost_on_wire :
    ∃ u, Value.ofJson? (Value.decimal ⟨50, 1, by decide, by decide⟩).toJson = some u ∧
      coerce "i" .int (.decimal ⟨50, 1, by decide, by decide⟩) = .ok (.int 5) ∧
      ∃ e, coerce "i" .int u = .error e := by
  refine ⟨.string (Decimal.text ⟨50, 1, by decide, by decide⟩), rfl, rfl, ?_⟩
  rw [exists_coerce_error_iff "i" rfl, Value.cast?_text _ .int nofun, if_neg (by decide)]

end Operand

end Selection
