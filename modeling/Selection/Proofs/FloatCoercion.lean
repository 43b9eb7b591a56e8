import Selection.Proofs.Lossless
import Selection.Proofs.Rounding

/-! # Integers coerced to floats

No integer is refused for a field of floats: it becomes a float that no other one is nearer to. It
is coerced back to the same integer exactly when it has at most 53 significant bits, since only then
the float has its number.
-/

namespace Selection

namespace Value

variable {v : Value} {n : Int} {x : Binary64}

/-- An integer is cast to the float nearest to it. -/
theorem cast?_float_of_integer? (h : v.integer? = some n) :
    v.cast? .float = some (float (.ofInt n)) := by
  cases v <;> first
    | contradiction
    | obtain rfl := Option.some.inj h
      rfl

/-- An integer of a value has 64 bits at most. -/
theorem natAbs_lt_of_integer? (h : v.integer? = some n) : n.natAbs < 2 ^ 64 := by
  cases v with
  | int m =>
      have hlow := m.le_toInt
      have hhigh := m.toInt_lt
      obtain rfl := Option.some.inj h
      omega
  | uint m =>
      obtain rfl := Option.some.inj h
      exact m.toNat_lt
  | _ => contradiction

/-- A float is cast to an integer that it is. -/
theorem cast?_float_eq_some_iff (h : v.integer? = some n) :
    (float x).cast? v.dataType = some v ↔ x.toInt? = some n := by
  cases v with
  | int m =>
      obtain rfl := Option.some.inj h
      rw [dataType, cast?_int rfl, toInteger?]
      simp [ofSigned?_eq_some_iff, Option.bind_eq_some_iff]
  | uint m =>
      obtain rfl := Option.some.inj h
      rw [dataType, cast?_intUnsigned rfl, toInteger?]
      simp [ofUnsigned?_eq_some_iff, Option.bind_eq_some_iff]
  | _ => contradiction

end Value

namespace Operand

variable {v : Value} {n : Int} {x : Binary64}

/-- An integer is coerced to a float that no other one is nearer to. It keeps its number, and is
coerced back to itself, exactly when it has at most 53 significant bits. -/
theorem coerce_integer_to_float (field : String) (h : v.integer? = some n) :
    ∃ x q, coerce field .float v = .ok (.float x) ∧ x.number? = some q ∧
      (∀ (y : Binary64) r, y.number? = some r → |q - n| ≤ |r - n|) ∧
      (q = n ↔ Binary64.IsShort n.natAbs) ∧
      (coerce field v.dataType (.float x) = .ok v ↔ q = n) := by
  obtain ⟨q, hq, hnearest, hexact⟩ := Binary64.number?_ofInt (Value.natAbs_lt_of_integer? h)
  have hv : v.number? = some (n : ℚ) := Value.number?_of_integer? h
  refine ⟨.ofInt n, q, ?_, hq, hnearest, hexact, ?_⟩
  · rw [coerce_eq_ok_iff_of_number? field hv, Value.cast?_float_of_integer? h]
  · rw [coerce_eq_ok_iff field rfl, Value.cast?_float_eq_some_iff h,
      Binary64.toInt?_eq_some_iff, hq, Option.some_inj]

/-- The largest signed integer that a float has is coerced there and back. The largest unsigned one
is coerced to a float that is no nearer to it than any other, and not back. -/
theorem large_integers_become_floats :
    (∃ x, coerce "f" .float (.int 9223372036854774784) = .ok (.float x) ∧
      x.number? = some ((9223372036854774784 : Int) : ℚ) ∧
      coerce "f" .int (.float x) = .ok (.int 9223372036854774784)) ∧
    ∃ x q, coerce "f" .float (.uint 18446744073709551615) = .ok (.float x) ∧
      x.number? = some q ∧
      (∀ (y : Binary64) r, y.number? = some r →
        |q - (18446744073709551615 : Int)| ≤ |r - (18446744073709551615 : Int)|) ∧
      coerce "f" .intUnsigned (.float x) ≠ .ok (.uint 18446744073709551615) := by
  constructor
  · have hinteger : (Value.int 9223372036854774784).integer? = some 9223372036854774784 := by
      decide
    obtain ⟨x, q, hcoerce, hq, -, hexact, hback⟩ := coerce_integer_to_float "f" hinteger
    have hsame := hexact.mpr ⟨9007199254740991, 10, by decide, by decide⟩
    exact ⟨x, hcoerce, hsame ▸ hq, hback.mpr hsame⟩
  · have hinteger : (Value.uint 18446744073709551615).integer? = some 18446744073709551615 := by
      decide
    obtain ⟨x, q, hcoerce, hq, hnearest, hexact, hback⟩ := coerce_integer_to_float "f" hinteger
    refine ⟨x, q, hcoerce, hq, hnearest, fun h => ?_⟩
    exact Binary64.not_isShort_of_odd (by decide) (by decide) (hexact.mp (hback.mp h))

/-- The first integer of more than 53 bits has no float, and becomes the one before it. -/
theorem odd_integer_is_rounded :
    (∀ y : Binary64, y.number? ≠ some ((9007199254740993 : Int) : ℚ)) ∧
    ∃ x, coerce "f" .float (.int 9007199254740993) = .ok (.float x) ∧
      x.number? = some ((9007199254740992 : Int) : ℚ) ∧
      coerce "f" .int (.float x) = .ok (.int 9007199254740992) := by
  have hinteger : (Binary64.ofInt 9007199254740993).toInt? = some 9007199254740992 := by
    decide +kernel
  have hrounded := Binary64.toInt?_eq_some_iff.mp hinteger
  refine ⟨fun y hy => ?_, _, rfl, hrounded, ?_⟩
  · obtain ⟨q, hq, hnearest, -⟩ := Binary64.number?_ofInt
      (show (9007199254740993 : Int).natAbs < 2 ^ 64 by decide)
    obtain rfl := Option.some.inj (hrounded.symm.trans hq)
    exact absurd (hnearest y _ hy) (by norm_num)
  · have hvalue : (Value.int 9007199254740992).integer? = some 9007199254740992 := by decide
    rw [coerce_eq_ok_iff "f" rfl]
    exact (Value.cast?_float_eq_some_iff hvalue).mpr hinteger

end Operand

end Selection
