import Mathlib.Algebra.Order.Field.Power
import Mathlib.Algebra.Order.Ring.Rat
import Mathlib.Order.Compare
import Selection.Proofs.Decimal

/-! # Decimals stand for their numbers

Decimals are ordered as the numbers that they denote and give the integers that they equal, whatever
their scales. When digits of two scales are compared, the power of ten that brings them to one scale
is cut off where it can no longer change the order.
-/

namespace Selection

namespace Decimal

variable {x y : Decimal} {n : Int}

/-! ## Order -/

/-- Against an integer below a power of ten, all larger powers have the same order. -/
theorem compare_mul_of_natAbs_lt {a b : Int} {k m : Nat} (hk : b.natAbs < 10 ^ k) (hkm : k ≤ m) :
    Ord.compare (a * 10 ^ k) b = Ord.compare (a * 10 ^ m) b := by
  have hm : b.natAbs < 10 ^ m := lt_of_lt_of_le hk (Nat.pow_le_pow_right (by decide) hkm)
  have hpositive {a : Int} (ha : 0 < a) {e : Nat} (he : b.natAbs < 10 ^ e) : b < a * 10 ^ e := by
    have hle : (10 : Int) ^ e ≤ a * 10 ^ e := le_mul_of_one_le_left (by positivity) ha
    have hlt : (b.natAbs : Int) < 10 ^ e := by exact_mod_cast he
    omega
  have hnegative {a : Int} (ha : a < 0) {e : Nat} (he : b.natAbs < 10 ^ e) : a * 10 ^ e < b := by
    have hle : a * 10 ^ e ≤ -1 * 10 ^ e := by
      gcongr
      omega
    have hlt : (b.natAbs : Int) < 10 ^ e := by exact_mod_cast he
    omega
  rcases lt_trichotomy a 0 with ha | rfl | ha
  · rw [compare_lt_iff_lt.mpr (hnegative ha hk), compare_lt_iff_lt.mpr (hnegative ha hm)]
  · rw [zero_mul, zero_mul]
  · rw [compare_gt_iff_gt.mpr (hpositive ha hk), compare_gt_iff_gt.mpr (hpositive ha hm)]

/-- Cutting off the power of ten keeps the order against digits up to the limit. -/
theorem compare_digitsBeyond (x : Decimal) (exponent b : Int) :
    Ord.compare (x.digitsBeyond exponent b.natAbs) b =
      Ord.compare (x.digits * 10 ^ exponent.toNat) b := by
  rw [digitsBeyond, Numeral.powerOfTen_eq]
  push_cast
  rcases le_total exponent.toNat (b.natAbs.log2 + 1) with h | h
  · rw [min_eq_left h]
  · rw [min_eq_right h]
    refine compare_mul_of_natAbs_lt ?_ h
    exact lt_of_lt_of_le Nat.lt_log2_self (Nat.pow_le_pow_left (by decide) _)

/-- No digits of a decimal are left out for an exponent that is not positive. -/
theorem digitsBeyond_of_nonpos (x : Decimal) {exponent : Int} (h : exponent ≤ 0) (limit : Nat) :
    x.digitsBeyond exponent limit = x.digits := by
  rw [digitsBeyond, Int.toNat_of_nonpos h, Nat.zero_min, Numeral.powerOfTen_eq]
  simp

/-- Numbers are ordered as their digits at one scale. -/
theorem compare_number_eq {scale : Int} (hx : x.scale ≤ scale) (hy : y.scale ≤ scale) :
    Ord.compare x.number y.number = Ord.compare (x.digitsAt scale) (y.digitsAt scale) := by
  have hstrict : StrictMono fun n : Int => (n : ℚ) * 10 ^ (-scale) :=
    Int.cast_strictMono.mul_const (by positivity)
  rw [← x.number_digitsAt hx, ← y.number_digitsAt hy, ← cmp_eq_compare, ← cmp_eq_compare]
  exact hstrict.cmp_map_eq _ _

/-- The order of decimals is the order of their numbers. -/
theorem compare_eq (x y : Decimal) : x.compare y = Ord.compare x.number y.number := by
  have hself (x : Decimal) : x.digitsAt x.scale = x.digits := by
    rw [digitsAt, Int.sub_self, Int.toNat_zero, Numeral.powerOfTen_eq]
    simp
  have hat (x : Decimal) (scale : Int) :
      x.digitsAt scale = x.digits * 10 ^ (scale - x.scale).toNat := by
    rw [digitsAt, Numeral.powerOfTen_eq]
    push_cast
    rfl
  rw [Decimal.compare]
  rcases le_total x.scale y.scale with h | h
  · rw [y.digitsBeyond_of_nonpos (by omega), compare_digitsBeyond, compare_number_eq h le_rfl,
      hself, hat]
  · rw [x.digitsBeyond_of_nonpos (by omega), compare_number_eq le_rfl h, hself, hat,
      ← Int.compare_swap, compare_digitsBeyond, Int.compare_swap]

/-! ## Integers -/

/-- The integer that a decimal equals, if any. -/
def toInt? (x : Decimal) : Option Int :=
  if x.isInteger then some x.truncated else none

/-- A decimal gives the integer that it equals, and none when it equals none. -/
theorem toInt?_eq_some_iff : x.toInt? = some n ↔ x.number = n := by
  have hpower (k : Nat) : (10 : ℚ) ^ k ≠ 0 := by positivity
  rw [toInt?, isInteger, truncated]
  by_cases hscale : x.scale ≤ 0
  · have hnumber : (x.digitsAt 0 : ℚ) = x.number := by
      simpa using x.number_digitsAt hscale
    simp only [hscale, decide_true, Bool.true_or, ↓reduceIte, Option.some_inj, ← hnumber]
    exact_mod_cast Iff.rfl
  · obtain ⟨k, hk⟩ := Int.eq_ofNat_of_zero_le (Int.not_le.mp hscale).le
    have hnumber : x.number * 10 ^ k = x.digits := by
      rw [number, hk, zpow_neg, zpow_natCast, inv_mul_cancel_right₀ (hpower k)]
    have hiff : x.number = n ↔ x.digits = n * 10 ^ k := by
      rw [← mul_left_inj' (hpower k), hnumber]
      exact_mod_cast Iff.rfl
    simp only [hscale, decide_false, Bool.false_or, beq_iff_eq, ↓reduceIte,
      Option.ite_none_right_eq_some, Option.some_inj]
    rw [hiff, hk, Int.toNat_natCast, Numeral.powerOfTen_eq]
    push_cast
    constructor
    · rintro ⟨hdvd, rfl⟩
      rw [Int.tdiv_mul_cancel (Int.dvd_of_emod_eq_zero hdvd)]
    · rintro h
      rw [h]
      exact ⟨Int.mul_emod_left _ _, Int.mul_tdiv_cancel _ (by positivity)⟩

end Decimal

end Selection
