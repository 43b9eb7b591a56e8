import Mathlib.Algebra.Order.Field.Basic
import Mathlib.Algebra.Order.Field.Rat
import Mathlib.Data.Nat.Dist
import Selection.Number.Binary64

/-! # Integers rounded to floats

A magnitude of the binary64 format has at most 53 significant bits. An integer is rounded to a float
that no other one is nearer to, so it keeps its number exactly when it has no more significant bits
than that. Magnitudes are compared by their steps, which are natural numbers.
-/

namespace Selection.Binary64

/-! ## What the format holds -/

/-- A natural number of at most 53 significant bits. -/
def IsShort (n : Nat) : Prop :=
  ∃ m k, n = m * 2 ^ k ∧ m < 2 ^ 53

variable {n m k d e steps : Nat}

theorem log2_mul_two_pow_lt (hm : m < 2 ^ 53) (hpos : 0 < m) : (m * 2 ^ k).log2 < k + 53 := by
  rw [Nat.log2_lt (Nat.mul_ne_zero hpos.ne' (Nat.two_pow_pos k).ne'), Nat.pow_add, Nat.mul_comm]
  exact Nat.mul_lt_mul_of_pos_left hm (Nat.two_pow_pos k)

/-- Steps are those of a float when they do not overflow and are short. -/
theorem holds_iff : Holds steps ↔ steps < overflow ∧ IsShort steps := by
  rw [Holds, Nat.one_shiftLeft]
  refine and_congr_right fun _ => ⟨fun hunit => ?_, ?_⟩
  · refine ⟨steps / 2 ^ (steps.log2 - 52), steps.log2 - 52,
      (Nat.div_mul_cancel (Nat.dvd_of_mod_eq_zero hunit)).symm, ?_⟩
    rw [Nat.div_lt_iff_lt_mul (Nat.two_pow_pos _), ← Nat.pow_add]
    exact Nat.lt_of_lt_of_le Nat.lt_log2_self (Nat.pow_le_pow_right (by decide) (by omega))
  · rintro ⟨m, k, rfl, hm⟩
    rcases Nat.eq_zero_or_pos m with rfl | hpos
    · rw [Nat.zero_mul, Nat.zero_mod]
    · have hlog := log2_mul_two_pow_lt (k := k) hm hpos
      exact Nat.mod_eq_zero_of_dvd
        (Nat.dvd_trans (Nat.pow_dvd_pow 2 (by omega)) (Nat.dvd_mul_left _ _))

/-- A power of two does not make a number longer or shorter. -/
theorem isShort_mul_shift (e : Nat) : IsShort (n * 1 <<< e) ↔ IsShort n := by
  rw [Nat.one_shiftLeft]
  constructor
  · rintro ⟨m, k, h, hm⟩
    rcases Nat.le_total e k with hle | hle
    · refine ⟨m, k - e, ?_, hm⟩
      apply Nat.eq_of_mul_eq_mul_right (Nat.two_pow_pos e)
      rw [h, Nat.mul_assoc, ← Nat.pow_add, Nat.sub_add_cancel hle]
    · refine ⟨n, 0, (Nat.mul_one n).symm, Nat.lt_of_le_of_lt ?_ hm⟩
      apply Nat.le_of_mul_le_mul_right _ (Nat.two_pow_pos k)
      rw [← h]
      exact Nat.mul_le_mul_left n (Nat.pow_le_pow_right (by decide) hle)
  · rintro ⟨m, k, rfl, hm⟩
    exact ⟨m, k + e, by rw [Nat.mul_assoc, Nat.pow_add], hm⟩

/-- An odd number of more than 53 bits is not short. -/
theorem not_isShort_of_odd (hodd : n % 2 = 1) (hlong : 2 ^ 53 ≤ n) : ¬IsShort n := by
  rintro ⟨m, k, rfl, hm⟩
  cases k with
  | zero => omega
  | succ k =>
      rw [Nat.pow_succ, ← Nat.mul_assoc, Nat.mul_mod_left] at hodd
      contradiction

/-! ## The nearest magnitude -/

/-- A quotient is rounded down or up to the nearer side. -/
theorem roundedQuotient_cases (n d : Nat) :
    (roundedQuotient n d = n / d ∧ 2 * (n % d) ≤ d) ∨
      (roundedQuotient n d = n / d + 1 ∧ d ≤ 2 * (n % d)) := by
  unfold roundedQuotient
  dsimp only
  split
  · exact .inl ⟨rfl, by omega⟩
  split
  · exact .inr ⟨rfl, by omega⟩
  · rcases Nat.mod_two_eq_zero_or_one (n / d) with h | h
    · exact .inl ⟨by rw [h, Nat.add_zero], by omega⟩
    · exact .inr ⟨by rw [h], by omega⟩

/-- No multiple is nearer than the one by the rounded quotient. -/
theorem dist_roundedQuotient_le (hd : 0 < d) (k : Nat) :
    n.dist (roundedQuotient n d * d) ≤ n.dist (k * d) := by
  have hdiv := Nat.div_add_mod' n d
  have hmod := Nat.mod_lt n hd
  -- A multiple is at most the quotient's or at least the next one.
  have hside : k * d ≤ n / d * d ∨ n / d * d + d ≤ k * d := by
    rcases Nat.lt_or_ge (n / d) k with h | h
    · refine .inr ?_
      rw [← Nat.succ_mul]
      exact Nat.mul_le_mul_right d h
    · exact .inl (Nat.mul_le_mul_right d h)
  unfold Nat.dist
  rcases roundedQuotient_cases n d with ⟨hquotient, hhalf⟩ | ⟨hquotient, hhalf⟩
  · rw [hquotient]
    omega
  · rw [hquotient, Nat.succ_mul]
    omega

/-- The exponent of the unit that a number of steps is rounded to. -/
def unitExponent (n : Nat) : Nat :=
  n.log2 - 52

theorem nearest_one (n : Nat) :
    nearest n 1 = roundedQuotient n (2 ^ unitExponent n) * 2 ^ unitExponent n := by
  simp only [nearest, Nat.div_one, Nat.one_mul, Nat.one_shiftLeft, unitExponent]

/-- A rounded significand has 53 bits, or is the power of two beyond them. -/
theorem roundedQuotient_unit_le (n : Nat) : roundedQuotient n (2 ^ unitExponent n) ≤ 2 ^ 53 := by
  have hquotient : n / 2 ^ unitExponent n < 2 ^ 53 := by
    rw [Nat.div_lt_iff_lt_mul (Nat.two_pow_pos _), ← Nat.pow_add]
    refine Nat.lt_of_lt_of_le Nat.lt_log2_self (Nat.pow_le_pow_right (by decide) ?_)
    unfold unitExponent
    omega
  rcases roundedQuotient_cases n (2 ^ unitExponent n) with ⟨h, -⟩ | ⟨h, -⟩
  · omega
  · omega

/-- The nearest number of steps is short. -/
theorem isShort_nearest (n : Nat) : IsShort (nearest n 1) := by
  rw [nearest_one]
  rcases Nat.lt_or_eq_of_le (roundedQuotient_unit_le n) with hlt | heq
  · exact ⟨_, _, rfl, hlt⟩
  · -- Rounded up to the next power of two, it has a single bit.
    rw [heq, ← Nat.pow_add]
    exact ⟨1, _, (Nat.one_mul _).symm, by decide⟩

/-- No short number is nearer than the nearest one. -/
theorem dist_nearest_le (h : IsShort m) : n.dist (nearest n 1) ≤ n.dist m := by
  obtain ⟨m, k, rfl, hm⟩ := h
  rw [nearest_one]
  have hnearest := fun j => dist_roundedQuotient_le (n := n) (Nat.two_pow_pos (unitExponent n)) j
  rcases Nat.lt_or_ge k (unitExponent n) with hlt | hle
  · -- With smaller units, it lies below the power of two that the other one starts with.
    have hexponent : n.log2 = 52 + unitExponent n := by
      unfold unitExponent at hlt ⊢
      omega
    have hstart : 2 ^ 52 * 2 ^ unitExponent n ≤ n := by
      rw [← Nat.pow_add, ← hexponent]
      refine Nat.log2_self_le ?_
      rintro rfl
      contradiction
    have hbelow : m * 2 ^ k ≤ 2 ^ 52 * 2 ^ unitExponent n :=
      calc m * 2 ^ k ≤ 2 ^ 53 * 2 ^ k := Nat.mul_le_mul_right _ hm.le
        _ = 2 ^ (53 + k) := (Nat.pow_add 2 53 k).symm
        _ ≤ 2 ^ (52 + unitExponent n) := Nat.pow_le_pow_right (by decide) (by omega)
        _ = 2 ^ 52 * 2 ^ unitExponent n := Nat.pow_add 2 52 _
    refine (hnearest (2 ^ 52)).trans ?_
    unfold Nat.dist
    omega
  · have hmultiple : m * 2 ^ k = m * 2 ^ (k - unitExponent n) * 2 ^ unitExponent n := by
      rw [Nat.mul_assoc, ← Nat.pow_add, Nat.sub_add_cancel hle]
    rw [hmultiple]
    exact hnearest _

/-- A number below `2 ^ 1022` is rounded to one that the format holds. -/
theorem holds_nearest (h : n.log2 < 2096) : Holds (nearest n 1) := by
  refine holds_iff.mpr ⟨?_, isShort_nearest n⟩
  rw [nearest_one, overflow, Nat.one_shiftLeft]
  calc roundedQuotient n (2 ^ unitExponent n) * 2 ^ unitExponent n
      ≤ 2 ^ 53 * 2 ^ unitExponent n := Nat.mul_le_mul_right _ (roundedQuotient_unit_le n)
    _ = 2 ^ (53 + unitExponent n) := (Nat.pow_add 2 53 _).symm
    _ < 2 ^ 2098 := by
      apply Nat.pow_lt_pow_right (by decide)
      unfold unitExponent
      omega

/-! ## Numbers -/

/-- The number that a finite float stands for. -/
def number? : Binary64 → Option ℚ
  | finite negative steps _ => some ((signed negative steps : ℤ) / (one : ℚ))
  | _ => none

variable {x y : Binary64} {i : Int} {q r : ℚ}

theorem shift_pos (e : Nat) : 0 < 1 <<< e :=
  Nat.one_shiftLeft e ▸ Nat.two_pow_pos e

theorem one_pos : 0 < one :=
  shift_pos 1074

/-- An integer is short in steps when it is short itself. -/
theorem isShort_mul_one : IsShort (n * one) ↔ IsShort n :=
  isShort_mul_shift 1074

theorem signed_mul (negative : Bool) (m d : Nat) :
    signed negative (m * d) = signed negative m * d := by
  cases negative <;> simp [signed]

theorem signed_natAbs (i : Int) : signed (i < 0) i.natAbs = i := by
  unfold signed
  split
  next hneg =>
    have hneg : i < 0 := of_decide_eq_true hneg
    omega
  next hneg =>
    have hneg : ¬i < 0 := fun h => hneg (decide_eq_true h)
    omega

theorem natAbs_signed (negative : Bool) (m : Nat) : (signed negative m).natAbs = m := by
  cases negative <;> simp [signed]

/-- A finite float is the integer that has its steps. -/
theorem number?_finite_iff {negative : Bool} {holds : Holds steps} :
    (finite negative steps holds).number? = some (i : ℚ) ↔ signed negative steps = i * one := by
  rw [number?, Option.some_inj, div_eq_iff (Nat.cast_ne_zero.mpr one_pos.ne')]
  exact_mod_cast Iff.rfl

/-- The integer that a float is, if it is one. -/
def toInt? (x : Binary64) : Option Int :=
  if x.isWhole then some x.truncated else none

/-- A float denotes no integer just when it is not whole. -/
theorem toInt?_eq_none_iff : x.toInt? = none ↔ x.isWhole = false := by
  simp [toInt?]

/-- A float that denotes an integer is whole, and cut off to that integer. -/
theorem isWhole_of_toInt? (h : x.toInt? = some i) : x.isWhole = true ∧ x.truncated = i := by
  simpa [toInt?] using h

/-- A float gives the integer that it is. -/
theorem toInt?_eq_some_iff : x.toInt? = some i ↔ x.number? = some (i : ℚ) := by
  cases x with
  | finite negative steps holds =>
      rw [number?_finite_iff, toInt?, isWhole, truncated, Option.ite_none_right_eq_some,
        Option.some_inj, beq_iff_eq]
      constructor
      · rintro ⟨hmod, rfl⟩
        rw [← signed_mul, Nat.div_mul_cancel (Nat.dvd_of_mod_eq_zero hmod)]
      · intro h
        have hsteps : steps = i.natAbs * one := by
          rw [← natAbs_signed negative steps, h, Int.natAbs_mul, Int.natAbs_natCast]
        refine ⟨hsteps ▸ Nat.mul_mod_left _ _, ?_⟩
        apply Int.eq_of_mul_eq_mul_right (Int.natCast_ne_zero.mpr one_pos.ne')
        rw [← signed_mul, ← h, hsteps, Nat.mul_div_cancel _ one_pos]
  | _ => simp [toInt?, isWhole, number?]

/-- Among whole numbers, the float bounds that are integers bound the integer. -/
theorem isWithin_iff {least limit : Binary64} {low high : Int} (hx : x.toInt? = some i)
    (hleast : least.key? = some (low * one)) (hlimit : limit.key? = some (high * one)) :
    x.isWithin least limit = true ↔ low ≤ i ∧ i < high := by
  have hone : (0 : Int) < one := Int.natCast_pos.mpr one_pos
  have hkey : x.key? = some (i * one) := by
    cases x with
    | finite negative steps holds =>
        rw [key?, number?_finite_iff.mp (toInt?_eq_some_iff.mp hx)]
    | _ => contradiction
  have hscale (a b : Int) : Ord.compare (a * one) (b * one) = Ord.compare a b := by
    rw [← cmp_eq_compare, ← cmp_eq_compare]
    exact (strictMono_mul_right_of_pos hone).cmp_map_eq a b
  have hlow : least.compare? x = some (Ord.compare low i) := by
    rw [compare?, hleast, hkey, ← hscale]
    rfl
  have hhigh : x.compare? limit = some (Ord.compare i high) := by
    rw [compare?, hkey, hlimit, ← hscale]
    rfl
  rw [isWithin, hlow, hhigh]
  simp [compare_lt_iff_lt, Std.isLE_compare]

/-! ## The float of an integer -/

theorem log2_mul_shift_lt (hk : n < 2 ^ k) (e : Nat) (hpos : 0 < k + e) :
    (n * 1 <<< e).log2 < k + e := by
  rw [Nat.one_shiftLeft]
  rcases Nat.eq_zero_or_pos n with rfl | hn
  · rwa [Nat.zero_mul, Nat.log2_zero]
  · rw [Nat.log2_lt (Nat.mul_ne_zero hn.ne' (Nat.two_pow_pos e).ne'), Nat.pow_add]
    exact Nat.mul_lt_mul_of_pos_right hk (Nat.two_pow_pos e)

/-- The float of an integer of 64 bits has its sign and the nearest steps. -/
theorem ofInt_eq (h : i.natAbs < 2 ^ 64) :
    ∃ holds, ofInt i = finite (i < 0) (nearest (i.natAbs * one) 1) holds := by
  have hlog : (i.natAbs * one).log2 < 64 + 1074 := log2_mul_shift_lt h 1074 (by decide)
  exact ⟨holds_nearest (hlog.trans (by decide)), dif_pos _⟩

/-- Numbers are compared by their steps. -/
theorem abs_sub_le_iff_steps {a b c : Int} :
    |(a : ℚ) / one - (c : ℚ) / one| ≤ |(b : ℚ) / one - (c : ℚ) / one| ↔
      (a - c).natAbs ≤ (b - c).natAbs := by
  have hone : (0 : ℚ) < one := Nat.cast_pos.mpr one_pos
  rw [← sub_div, ← sub_div, abs_div, abs_div, div_le_div_iff_of_pos_right (abs_pos.mpr hone.ne')]
  rw [← Int.cast_sub, ← Int.cast_sub, ← Int.cast_abs, ← Int.cast_abs, Int.cast_le,
    Int.abs_eq_natAbs, Int.abs_eq_natAbs, Int.ofNat_le]

/-- The sign of another number does not bring it nearer. -/
theorem natAbs_sub_signed_le {s t : Bool} {a b c : Nat} (h : c.dist a ≤ c.dist b) :
    (signed s a - signed s c).natAbs ≤ (signed t b - signed s c).natAbs := by
  unfold Nat.dist at h
  cases s <;> cases t <;> simp only [signed] <;> simp <;> omega

theorem cast_eq_signed (i : Int) :
    (i : ℚ) = (signed (i < 0) (i.natAbs * one) : ℤ) / one := by
  have hone : (one : ℚ) ≠ 0 := Nat.cast_ne_zero.mpr one_pos.ne'
  rw [signed_mul, signed_natAbs, Int.cast_mul, Int.cast_natCast, mul_div_cancel_right₀ _ hone]

/-- An integer of 64 bits becomes a float that no other one is nearer to. The float is the integer
exactly when the integer has at most 53 significant bits. -/
theorem number?_ofInt (h : i.natAbs < 2 ^ 64) :
    ∃ q, (ofInt i).number? = some q ∧
      (∀ (y : Binary64) r, y.number? = some r → |q - i| ≤ |r - i|) ∧
      (q = i ↔ IsShort i.natAbs) := by
  obtain ⟨holds, hofInt⟩ := ofInt_eq h
  have hnearest (m : Nat) (hm : IsShort m) :=
    dist_nearest_le (n := i.natAbs * one) hm
  refine ⟨(signed (i < 0) (nearest (i.natAbs * one) 1) : ℤ) / one, by rw [hofInt]; rfl, ?_, ?_⟩
  -- Both distances are counted in steps of the smallest float, where rounding is to whole numbers.
  · intro y r hr
    cases y with
    | finite negative steps hsteps =>
        rw [← Option.some.inj hr, cast_eq_signed i, abs_sub_le_iff_steps]
        exact natAbs_sub_signed_le (hnearest steps (holds_iff.mp hsteps).2)
    | _ => contradiction
  · constructor
    · intro hexact
      have hsteps : (ofInt i).number? = some (i : ℚ) := by
        rw [hofInt, ← hexact]
        rfl
      rw [hofInt, number?_finite_iff] at hsteps
      have hsame := congrArg Int.natAbs hsteps
      rw [natAbs_signed, Int.natAbs_mul, Int.natAbs_natCast] at hsame
      exact isShort_mul_one.mp (hsame ▸ isShort_nearest _)
    -- A number of few bits is one of the candidates, so the nearest one has no distance from it.
    · intro hshort
      have hsame := hnearest _ (isShort_mul_one.mpr hshort)
      rw [Nat.dist_self, Nat.le_zero] at hsame
      rw [← Nat.eq_of_dist_eq_zero hsame, ← cast_eq_signed]

end Selection.Binary64
