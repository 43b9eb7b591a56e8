import Mathlib.Data.List.Basic
import Mathlib.Data.List.Induction
import Mathlib.Data.List.TakeWhile
import Mathlib.Tactic.Common
import Mathlib.Tactic.IntervalCases
import Mathlib.Tactic.Ring
import Selection.Text.Numeral

/-! # Numerals denote their numbers

The numeral of a number has digits only, and reading them gives the number back, with or without
zeros in front. A number below a power of ten has a numeral of that length when it is padded to it.
-/

namespace Selection.Numeral

@[simp] theorem powerOfTen_eq (n : Nat) : powerOfTen n = 10 ^ n :=
  rfl

/-! ## Digits -/

theorem digits_of_lt {n : Nat} (h : n < 10) : digits n = [n.digitChar] := by
  rw [digits, if_pos h]

theorem digits_of_le {n : Nat} (h : 10 ≤ n) :
    digits n = digits (n / 10) ++ [(n % 10).digitChar] := by
  rw [digits, if_neg (Nat.not_lt.mpr h)]

/-- A property of numerals holds when it holds of one digit and stays when a digit is added. -/
theorem digits_induction {motive : Nat → Prop} (one : ∀ n < 10, motive n)
    (more : ∀ n, 10 ≤ n → motive (n / 10) → motive n) (n : Nat) : motive n := by
  induction n using Nat.strongRecOn with
  | ind n ih =>
      by_cases h : n < 10
      · exact one n h
      · exact more n (Nat.not_lt.mp h) (ih (n / 10) (by omega))

theorem isDigit_digitChar {n : Nat} (h : n < 10) : n.digitChar.isDigit = true := by
  interval_cases n <;> rfl

theorem toNat_digitChar {n : Nat} (h : n < 10) : n.digitChar.toNat - '0'.toNat = n := by
  interval_cases n <;> rfl

theorem isDigit_of_mem_digits {n : Nat} {c : Char} (hc : c ∈ digits n) : c.isDigit = true := by
  induction n using digits_induction with
  | one n hn =>
      rw [digits_of_lt hn, List.mem_singleton] at hc
      rw [hc]
      exact isDigit_digitChar hn
  | more n hn ih =>
      rw [digits_of_le hn, List.mem_append, List.mem_singleton] at hc
      rcases hc with hc | rfl
      · exact ih hc
      · exact isDigit_digitChar (Nat.mod_lt _ (by decide))

theorem digits_ne_nil (n : Nat) : digits n ≠ [] := by
  rw [digits]
  split <;> simp

theorem length_digits_pos (n : Nat) : 0 < (digits n).length :=
  List.length_pos_iff.mpr (digits_ne_nil n)

/-- The numeral of a number has at most `k` digits when the number lies below `10 ^ k`. -/
theorem length_digits_le {n k : Nat} (hk : 0 < k) (h : n < 10 ^ k) : (digits n).length ≤ k := by
  induction n using digits_induction generalizing k with
  | one n hn =>
      rw [digits_of_lt hn]
      exact hk
  | more n hn ih =>
      rw [digits_of_le hn, List.length_append, List.length_singleton]
      obtain ⟨k, rfl⟩ : ∃ j, k = j + 1 := ⟨k - 1, by omega⟩
      have hshort : n / 10 < 10 ^ k := by
        rw [Nat.pow_succ] at h
        omega
      have hk : 0 < k := by
        rcases k with _ | k
        · rw [Nat.pow_zero] at hshort
          omega
        · exact Nat.succ_pos k
      exact Nat.succ_le_succ (ih hk hshort)

/-- The numeral of a number that is not zero does not start with a zero. -/
theorem head_digits_ne_zero {n : Nat} (hn : n ≠ 0) : (digits n).head? ≠ some '0' := by
  induction n using digits_induction with
  | one n hlt =>
      rw [digits_of_lt hlt]
      interval_cases n
      · contradiction
      all_goals decide
  | more n hle ih =>
      rw [digits_of_le hle, List.head?_append_of_ne_nil _ (digits_ne_nil _)]
      exact ih (by omega)

/-! ## Values -/

@[simp] theorem value_nil : value [] = 0 :=
  rfl

theorem value_append (xs ys : List Char) :
    value (xs ++ ys) = value xs * 10 ^ ys.length + value ys := by
  induction ys using List.reverseRecOn with
  | nil => simp
  | append_singleton ys y ih =>
      have hlast (cs : List Char) : value (cs ++ [y]) = 10 * value cs + (y.toNat - '0'.toNat) := by
        simp [value, List.foldl_append]
      rw [← List.append_assoc, hlast, ih, hlast, List.length_append, List.length_singleton]
      ring

theorem value_singleton (c : Char) : value [c] = c.toNat - '0'.toNat := by
  simp [value]

/-- The digits of a number denote it. -/
@[simp] theorem value_digits (n : Nat) : value (digits n) = n := by
  induction n using digits_induction with
  | one n hn => rw [digits_of_lt hn, value_singleton, toNat_digitChar hn]
  | more n hn ih =>
      rw [digits_of_le hn, value_append, ih, value_singleton,
        toNat_digitChar (Nat.mod_lt _ (by decide)), List.length_singleton]
      omega

/-- A run of digits denotes a number below the power of ten of its length. -/
theorem value_lt {cs : List Char} (h : ∀ c ∈ cs, c.isDigit = true) : value cs < 10 ^ cs.length := by
  induction cs using List.reverseRecOn with
  | nil => decide
  | append_singleton cs c ih =>
      have hcs := ih fun d hd => h d (List.mem_append_left _ hd)
      have hc := h c (List.mem_append_right _ List.mem_cons_self)
      have hdigit : c.toNat - '0'.toNat < 10 := by
        simp only [Char.isDigit, Bool.and_eq_true, decide_eq_true_eq, UInt32.le_iff_toNat_le] at hc
        have hhigh : c.toNat ≤ 57 := hc.2
        have hzero : '0'.toNat = 48 := rfl
        omega
      rw [value_append, value_singleton, List.length_append, List.length_singleton, Nat.pow_succ]
      omega

/-- A digit is the digit of a number below ten. -/
theorem exists_digitChar {c : Char} (hc : c.isDigit = true) : ∃ n < 10, c = n.digitChar := by
  simp only [Char.isDigit, Bool.and_eq_true, decide_eq_true_eq, UInt32.le_iff_toNat_le] at hc
  have hlow : 48 ≤ c.toNat := hc.1
  have hhigh : c.toNat ≤ 57 := hc.2
  refine ⟨c.toNat - 48, by omega, ?_⟩
  rw [← Char.ofNat_toNat c]
  interval_cases c.toNat <;> rfl

/-- Digits that do not start with a zero, unless they are one zero, are the numeral of their
number. -/
theorem digits_value {cs : List Char} (hne : cs ≠ []) (hdigits : ∀ c ∈ cs, c.isDigit = true)
    (hzero : cs.head? = some '0' → cs = ['0']) : digits (value cs) = cs := by
  induction cs using List.reverseRecOn with
  | nil => contradiction
  | append_singleton cs c ih =>
      obtain ⟨d, hd, rfl⟩ := exists_digitChar (hdigits c (by simp))
      rw [value_append, value_singleton, toNat_digitChar hd, List.length_singleton, Nat.pow_one]
      by_cases hcs : cs = []
      · subst hcs
        rw [value_nil, Nat.zero_mul, Nat.zero_add, digits_of_lt hd]
        rfl
      · have hhead : cs.head? ≠ some '0' := by
          intro hhead
          have hsingle := hzero ((List.head?_append_of_ne_nil _ hcs).trans hhead)
          rw [List.append_eq_singleton_iff] at hsingle
          simp [hcs] at hsingle
        have hfront := ih hcs (fun c hc => hdigits c (List.mem_append_left _ hc)) (absurd · hhead)
        have hpos : value cs ≠ 0 := by
          intro hvalue
          rw [hvalue, digits_of_lt (by decide)] at hfront
          exact hhead (by rw [← hfront]; rfl)
        rw [digits_of_le (by omega), show (value cs * 10 + d) / 10 = value cs by omega,
          show (value cs * 10 + d) % 10 = d by omega, hfront]

theorem value_zeros (k : Nat) : value (List.replicate k '0') = 0 := by
  induction k with
  | zero => rfl
  | succ k ih =>
      rw [List.replicate_succ', value_append, ih, value_singleton, Nat.zero_mul, Nat.sub_self]

/-- Zeros at the end multiply by a power of ten. -/
theorem value_append_zeros (cs : List Char) (k : Nat) :
    value (cs ++ List.replicate k '0') = value cs * 10 ^ k := by
  rw [value_append, value_zeros, List.length_replicate, Nat.add_zero]

theorem isDigit_of_mem_digits_zeros {n k : Nat} {c : Char}
    (hc : c ∈ digits n ++ List.replicate k '0') : c.isDigit = true := by
  rcases List.mem_append.mp hc with hc | hc
  · exact isDigit_of_mem_digits hc
  · rw [List.eq_of_mem_replicate hc]
    rfl

/-- Zeros in front do not count. -/
theorem value_zeros_append (k : Nat) (cs : List Char) :
    value (List.replicate k '0' ++ cs) = value cs := by
  rw [value_append, value_zeros, Nat.zero_mul, Nat.zero_add]

/-- Digits are read as the number that they denote. -/
theorem read?_eq_some {cs : List Char} (hne : cs ≠ []) (hdigits : ∀ c ∈ cs, c.isDigit = true) :
    read? cs = some (value cs) := by
  simpa [read?, hne] using hdigits

/-- A number is read back from its digits. -/
@[simp] theorem read?_digits (n : Nat) : read? (digits n) = some n := by
  rw [read?_eq_some (digits_ne_nil n) fun c hc => isDigit_of_mem_digits hc, value_digits]

/-- A numeral is one or more digits, and is read as the number that they denote. -/
theorem read?_eq_some_iff {cs : List Char} {n : Nat} :
    read? cs = some n ↔ cs ≠ [] ∧ (∀ c ∈ cs, c.isDigit = true) ∧ value cs = n := by
  simp [read?, ← and_assoc]

/-- Different numbers have different numerals. -/
theorem text_injective {n m : Nat} (h : text n = text m) : n = m := by
  rw [← value_digits n, ← value_digits m, String.ofList_injective h]

/-! ## Padding -/

@[simp] theorem value_padded (width n : Nat) : value (padded width n) = n := by
  rw [padded, value_zeros_append, value_digits]

theorem isDigit_of_mem_padded {width n : Nat} {c : Char} (hc : c ∈ padded width n) :
    c.isDigit = true := by
  rcases List.mem_append.mp hc with hc | hc
  · rw [List.eq_of_mem_replicate hc]
    rfl
  · exact isDigit_of_mem_digits hc

theorem length_padded {width n : Nat} (hwidth : 0 < width) (h : n < 10 ^ width) :
    (padded width n).length = width := by
  have := length_digits_le hwidth h
  simp only [padded, List.length_append, List.length_replicate]
  omega

theorem padded_ne_nil (width n : Nat) : padded width n ≠ [] :=
  List.append_ne_nil_of_right_ne_nil _ (digits_ne_nil n)

/-! ## Zeros at the end -/

/-- A numeral is its digits without the zeros at the end, and these zeros. -/
theorem dropTrailingZeros_append (cs : List Char) :
    ∃ k, dropTrailingZeros cs ++ List.replicate k '0' = cs := by
  refine ⟨(cs.reverse.takeWhile (· == '0')).length, ?_⟩
  have hzeros : cs.reverse.takeWhile (· == '0') =
      List.replicate (cs.reverse.takeWhile (· == '0')).length '0' := by
    apply List.eq_replicate_of_mem
    intro c hc
    exact eq_of_beq (List.mem_takeWhile_imp (p := (· == '0')) hc)
  rw [dropTrailingZeros, ← List.reverse_replicate, ← hzeros, ← List.reverse_append,
    List.takeWhile_append_dropWhile, List.reverse_reverse]

theorem mem_of_mem_dropTrailingZeros {cs : List Char} {c : Char} (hc : c ∈ dropTrailingZeros cs) :
    c ∈ cs := by
  obtain ⟨k, hk⟩ := dropTrailingZeros_append cs
  rw [← hk]
  exact List.mem_append_left _ hc

theorem value_dropTrailingZeros (cs : List Char) :
    value (dropTrailingZeros cs) * 10 ^ (cs.length - (dropTrailingZeros cs).length) = value cs := by
  obtain ⟨k, hk⟩ := dropTrailingZeros_append cs
  have hlength : cs.length = (dropTrailingZeros cs).length + k := by
    rw [← congrArg List.length hk, List.length_append, List.length_replicate]
  rw [hlength, Nat.add_sub_cancel_left, ← value_append_zeros, hk]

end Selection.Numeral
