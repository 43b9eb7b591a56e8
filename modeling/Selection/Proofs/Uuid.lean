import Selection.Proofs.Characters
import Selection.Uuid

/-! # Uuids are read back from their texts

The last hexadecimal digits of a number denote its remainder by a power of 16. The text of a uuid
is cut into its groups at the hyphens, and all its digits denote its bits.
-/

namespace Selection

/-! ## Hexadecimal digits -/

namespace Hex

/-- A hexadecimal digit is read back as its number. -/
theorem value?_digitChar {n : Nat} (h : n < 16) : value? n.digitChar = some n := by
  interval_cases n <;> rfl

/-- The hexadecimal digits that are letters. -/
def letters : List Char :=
  ['a', 'b', 'c', 'd', 'e', 'f']

theorem length_lastDigits (width n : Nat) : (lastDigits width n).length = width := by
  simp [lastDigits]

/-- The last digits of a number are those of its sixteenth and its own last one. -/
theorem lastDigits_succ (width n : Nat) :
    lastDigits (width + 1) n = lastDigits width (n / 16) ++ [(n % 16).digitChar] := by
  have hshift : ∀ i ∈ List.range width,
      ((n >>> (4 * (width + 1 - 1 - i))) % 16).digitChar =
        ((n / 16) >>> (4 * (width - 1 - i)) % 16).digitChar := by
    intro i hi
    have hsucc : 4 * (width + 1 - 1 - i) = 4 + 4 * (width - 1 - i) := by
      have := List.mem_range.mp hi
      omega
    rw [hsucc, Nat.shiftRight_add, Nat.shiftRight_eq_div_pow n 4]
  rw [lastDigits, List.range_succ, List.map_append, List.map_congr_left hshift]
  simp [lastDigits]

theorem among_lastDigits (width n : Nat) : Text.Among letters (lastDigits width n) := by
  have hdigit {d : Nat} (h : d < 16) : d.digitChar.isDigit = true ∨ d.digitChar ∈ letters := by
    interval_cases d <;> decide
  intro c hc
  obtain ⟨i, -, rfl⟩ := List.mem_map.mp hc
  exact hdigit (Nat.mod_lt _ (by decide))

/-- The values of the last digits, put together, are the remainder of the number. -/
theorem mapM_value?_lastDigits (width n : Nat) :
    ∃ values, (lastDigits width n).mapM value? = some values ∧
      values.foldl (fun n v => 16 * n + v) 0 = n % 16 ^ width := by
  induction width generalizing n with
  | zero => exact ⟨[], rfl, by rw [Nat.pow_zero, Nat.mod_one]; rfl⟩
  | succ width ih =>
      obtain ⟨values, hvalues, hfold⟩ := ih (n / 16)
      refine ⟨values ++ [n % 16], ?_, ?_⟩
      · rw [lastDigits_succ, List.mapM_append, hvalues]
        simp [value?_digitChar (Nat.mod_lt n (by decide : 0 < 16))]
      · rw [List.foldl_append, hfold, Nat.pow_succ', Nat.mod_mul]
        simp only [List.foldl_cons, List.foldl_nil]
        omega

end Hex

/-! ## Uuids -/

namespace Uuid

/-- The digits of a uuid. -/
def digits (u : Uuid) : List Char :=
  Hex.lastDigits 32 u.bits.toNat

/-- A uuid is read back from its digits. -/
theorem readDigits?_digits (u : Uuid) : readDigits? u.digits = some u := by
  obtain ⟨values, hvalues, hfold⟩ := Hex.mapM_value?_lastDigits 32 u.bits.toNat
  have hbits : u.bits.toNat % 16 ^ 32 = u.bits.toNat := Nat.mod_eq_of_lt u.bits.isLt
  rw [digits, readDigits?, if_pos (Hex.length_lastDigits _ _), hvalues, Option.bind_eq_bind,
    Option.bind_some, hfold, hbits, BitVec.ofNat_toNat, BitVec.setWidth_eq]
  rfl

/-- A part of the digits. -/
def group (u : Uuid) (start length : Nat) : List Char :=
  (u.digits.drop start).take length

/-- A uuid is written in five groups with hyphens between them. -/
theorem toList_text (u : Uuid) :
    u.text.toList = u.group 0 8 ++ '-' :: (u.group 8 4 ++ '-' :: (u.group 12 4 ++
      '-' :: (u.group 16 4 ++ '-' :: u.group 20 12))) := by
  simp [text, group, digits]

theorem length_group (u : Uuid) {start length : Nat} (h : start + length ≤ 32) :
    (u.group start length).length = length := by
  rw [group, List.length_take, List.length_drop, digits, Hex.length_lastDigits]
  omega

theorem group_append (u : Uuid) (start length : Nat) (rest : List Char)
    (h : rest = u.digits.drop (start + length)) :
    u.group start length ++ rest = u.digits.drop start := by
  rw [h, group, ← List.drop_drop, List.take_append_drop]

/-- The groups of a uuid are its digits. -/
theorem groups_eq_digits (u : Uuid) :
    u.group 0 8 ++ (u.group 8 4 ++ (u.group 12 4 ++ (u.group 16 4 ++ u.group 20 12))) =
      u.digits := by
  have hlast : u.group 20 12 = u.digits.drop 20 := by
    rw [group, List.take_of_length_le]
    rw [List.length_drop, digits, Hex.length_lastDigits]
  rw [group_append, List.drop_zero]
  rw [group_append]
  rw [group_append]
  exact u.group_append 16 4 _ hlast

/-- Five groups of the right lengths are read as their digits in a row. -/
theorem readGroups?_append {a b c d e : List Char} (ha : a.length = 8) (hb : b.length = 4)
    (hc : c.length = 4) (hd : d.length = 4) (he : e.length = 12) :
    readGroups? (a ++ '-' :: (b ++ '-' :: (c ++ '-' :: (d ++ '-' :: e)))) =
      readDigits? (a ++ (b ++ (c ++ (d ++ e)))) := by
  simp [readGroups?, ha, hb, hc, hd, he, List.drop_append,
    List.getElem?_append, List.take_of_length_le, List.drop_eq_nil_of_le]

theorem among_text (u : Uuid) : Text.Among ('-' :: Hex.letters) u.text.toList := by
  have hgroup (start length : Nat) : Text.Among ('-' :: Hex.letters) (u.group start length) := by
    intro c hc
    exact ((Hex.among_lastDigits _ _).mono (List.subset_cons_self _ _)) c
      (List.mem_of_mem_drop (List.mem_of_mem_take hc))
  rw [toList_text]
  exact (hgroup 0 8).append (.cons (.inr (by decide)) ((hgroup 8 4).append
    (.cons (.inr (by decide)) ((hgroup 12 4).append (.cons (.inr (by decide))
      ((hgroup 16 4).append (.cons (.inr (by decide)) (hgroup 20 12))))))))

/-- A uuid is read back from its text. -/
theorem read?_text (u : Uuid) : read? u.text.toList = some u := by
  have hgroups : readGroups? u.text.toList = some u := by
    rw [toList_text, readGroups?_append (u.length_group (by decide)) (u.length_group (by decide))
      (u.length_group (by decide)) (u.length_group (by decide)) (u.length_group (by decide)),
      groups_eq_digits, readDigits?_digits]
  have hlength : u.text.toList.length = 36 := by
    rw [toList_text]
    simp [length_group]
  have hbrace : '\x7b' ∉ u.text.toList := u.among_text.not_mem (by decide) (by decide)
  have hletter : 'u' ∉ u.text.toList := u.among_text.not_mem (by decide) (by decide)
  have hurn : "urn:uuid:".toList.isPrefixOf u.text.toList = false := by
    rw [Bool.eq_false_iff]
    intro h
    exact hletter ((List.isPrefixOf_iff_prefix.mp h).subset (by decide))
  unfold read?
  split
  next rest hcs => exact absurd (hcs ▸ List.mem_cons_self) hbrace
  next => rw [if_neg (by omega), hurn, if_neg Bool.false_ne_true, hgroups]

end Uuid

end Selection
