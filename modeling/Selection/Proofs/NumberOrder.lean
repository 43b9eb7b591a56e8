import Selection.Proofs.Lossless

/-! # The order of exact numbers

Signed and unsigned integers and decimals have one order, that of the rational numbers that they
denote. It does not depend on the representations of the two sides nor on the scales of decimals, so
it is total on all three types together, and values are equal in it exactly when their numbers are.
-/

namespace Selection

namespace Value

variable {v : Value} {p q : ℚ}

/-- A value is an exact representation of a number. -/
inductive Denotes : Value → ℚ → Prop
  | int (n : Int64) : Denotes (int n) n.toInt
  | uint (n : UInt64) : Denotes (uint n) n.toNat
  | decimal (x : Decimal) : Denotes (decimal x) (x.digits * 10 ^ (-x.scale))

theorem exists_denotes_of_exact (h : v.dataType.Exact) : ∃ q, v.Denotes q := by
  cases v with
  | int n => exact ⟨_, .int n⟩
  | uint n => exact ⟨_, .uint n⟩
  | decimal x => exact ⟨_, .decimal x⟩
  | _ => cases h

/-- A value has the number that it denotes. -/
theorem Denotes.number? (h : v.Denotes q) : v.number? = some q := by
  cases h with
  | int n => exact number?_int n
  | uint n => rw [number?_uint, Int.cast_natCast]
  | decimal x => rfl

/-- The order of values that denote numbers is the order of the numbers. -/
theorem Denotes.compare? {w : Value} (hv : v.Denotes p) (hw : w.Denotes q) :
    v.compare? w = some (Ord.compare p q) :=
  compare?_of_number? hv.number? hw.number?

/-- Integers and decimals are compared as the numbers that they denote, whatever their types and
scales, and are equal exactly when they denote one number. So their order is reversed when the sides
are swapped, it is transitive across the types, and equal values have one order with every other. -/
theorem exact_numbers_totally_ordered (a b c : Value) (ha : a.dataType.Exact)
    (hb : b.dataType.Exact) (hc : c.dataType.Exact) :
    (∃ p q : ℚ, a.Denotes p ∧ b.Denotes q ∧ a.compare? b = some (Ord.compare p q) ∧
      (a.equal b = true ↔ p = q)) ∧
    b.compare? a = (a.compare? b).map Ordering.swap ∧
    (∀ o, a.compare? b = some o → b.compare? c = some o → a.compare? c = some o) ∧
    (a.equal b = true → a.compare? c = b.compare? c) := by
  obtain ⟨p, hp⟩ := exists_denotes_of_exact ha
  obtain ⟨q, hq⟩ := exists_denotes_of_exact hb
  obtain ⟨r, hr⟩ := exists_denotes_of_exact hc
  have hequal : a.equal b = true ↔ p = q := by
    rw [equal, hp.compare? hq, beq_iff_eq, Option.some_inj, compare_eq_iff_eq]
  refine ⟨⟨p, q, hp, hq, hp.compare? hq, hequal⟩, ?_, ?_, ?_⟩
  · rw [hq.compare? hp, hp.compare? hq, Option.map_some, ← Std.OrientedCmp.eq_swap]
  · intro o
    rw [hp.compare? hq, hq.compare? hr, hp.compare? hr]
    simp only [Option.some_inj]
    intro hpq hqr
    cases o with
    | lt => exact Std.TransCmp.lt_trans hpq hqr
    | eq => exact Std.TransCmp.eq_trans hpq hqr
    | gt => exact Std.TransCmp.gt_trans hpq hqr
  · intro h
    rw [hp.compare? hr, hq.compare? hr, hequal.mp h]

/-- The largest signed integer lies below the unsigned integer after it, and so below the decimal
1E+19 that this lies below. The decimal 9223372036854775808.0 equals the unsigned integer and lies
below 1E+19 too. -/
theorem signed_limit_below_power_of_ten :
    (int 9223372036854775807).compare? (decimal ⟨1, -19, by decide, by decide⟩) = some .lt ∧
    (uint 9223372036854775808).compare? (int 9223372036854775807) = some .gt ∧
    (decimal ⟨92233720368547758080, 1, by decide, by decide⟩).compare?
      (decimal ⟨1, -19, by decide, by decide⟩) = some .lt := by
  have hlimit : (int 9223372036854775807).compare? (uint 9223372036854775808) = some .lt := by
    decide
  have hpower : (uint 9223372036854775808).compare? (decimal ⟨1, -19, by decide, by decide⟩) =
      some .lt := by
    decide
  have hsame : (decimal ⟨92233720368547758080, 1, by decide, by decide⟩).equal
      (uint 9223372036854775808) = true := by
    decide
  obtain ⟨-, hswap, htrans, -⟩ := exact_numbers_totally_ordered (int 9223372036854775807)
    (uint 9223372036854775808) (decimal ⟨1, -19, by decide, by decide⟩) .int .intUnsigned .decimal
  obtain ⟨-, -, -, hcongr⟩ := exact_numbers_totally_ordered
    (decimal ⟨92233720368547758080, 1, by decide, by decide⟩) (uint 9223372036854775808)
    (decimal ⟨1, -19, by decide, by decide⟩) .decimal .intUnsigned .decimal
  refine ⟨htrans .lt hlimit hpower, ?_, (hcongr hsame).trans hpower⟩
  rw [hswap, hlimit]
  rfl

end Value

end Selection
