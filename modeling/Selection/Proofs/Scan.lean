import Selection.Proofs.Characters
import Selection.Text.Scan

/-! # Running scans

A scan runs on a text in front of a rest that it leaves. The number of a run of digits is the number
that the digits denote, as long as the rest cannot prolong it. A scan that takes a certain character
somewhere succeeds only on texts that have it.
-/

namespace Selection

namespace Scan

open Text (StartsWithout)

variable {α β : Type} {s : Scan α} {f : α → Scan β} {c : Char} {ds cs rest : List Char}

/-! ## Taking characters -/

@[simp] theorem run_discard_one_cons (p : Char → Bool) (c : Char) (rest : List Char) :
    (discard (one p)).run (c :: rest) = if p c then some ((), rest) else none := by
  by_cases h : p c <;> simp [one, discard, StateT.run, Functor.mapConst, StateT.map, h]

@[simp] theorem run_char_cons (c d : Char) (rest : List Char) :
    (char c).run (d :: rest) = if d = c then some ((), rest) else none := by
  simp [char]

@[simp] theorem run_char_nil (c : Char) : (char c).run [] = none :=
  rfl

@[simp] theorem run_one_cons (p : Char → Bool) (c : Char) (rest : List Char) :
    (one p).run (c :: rest) = if p c then some (c, rest) else none :=
  rfl

@[simp] theorem run_one_nil (p : Char → Bool) : (one p).run [] = none :=
  rfl

@[simp] theorem run_peek (cs : List Char) : peek.run cs = some (cs.head?, cs) :=
  rfl

theorem run_blanks (h : StartsWithout Text.isBlank cs) : blanks.run cs = some ((), cs) := by
  change some ((), Text.trimStart cs) = _
  rw [Text.trimStart, h.dropWhile_eq_self]

/-- Digits are taken up to the first character that is none. -/
theorem run_digits (hne : ds ≠ []) (hdigits : ∀ c ∈ ds, c.isDigit = true)
    (hrest : StartsWithout Char.isDigit rest) : digits.run (ds ++ rest) = some (ds, rest) := by
  have htake : (ds ++ rest).takeWhile Char.isDigit = ds := by
    rw [List.takeWhile_append_of_pos hdigits, hrest.takeWhile_eq_nil, List.append_nil]
  have hdrop : (ds ++ rest).dropWhile Char.isDigit = rest := by
    rw [List.dropWhile_append_of_pos hdigits, hrest.dropWhile_eq_self]
  change digits (ds ++ rest) = _
  unfold digits
  rw [htake, hdrop]
  cases ds with
  | nil => contradiction
  | cons d ds => rfl

/-- A number takes as many digits as it may, and is what they denote. -/
theorem run_number {least most : Nat} (hdigits : ∀ c ∈ ds, c.isDigit = true)
    (hleast : least ≤ ds.length) (hmost : ds.length ≤ most)
    (hrest : ds.length = most ∨ StartsWithout Char.isDigit rest) :
    (number least most).run (ds ++ rest) = some (Numeral.value ds, rest) := by
  have htake : ((ds ++ rest).take most).takeWhile Char.isDigit = ds := by
    have hnone : (rest.take (most - ds.length)).takeWhile Char.isDigit = [] := by
      rcases hrest with hlength | hrest
      · rw [hlength, Nat.sub_self, List.take_zero, List.takeWhile_nil]
      · exact (hrest.take _).takeWhile_eq_nil
    rw [List.take_append, List.take_of_length_le hmost, List.takeWhile_append_of_pos hdigits, hnone,
      List.append_nil]
  change number least most (ds ++ rest) = _
  simp only [number, htake, if_neg (Nat.not_lt.mpr hleast), List.drop_left]

/-- A text that a scan takes to its end is read as a whole. -/
theorem whole?_eq_some {a : α} (h : s.run cs = some (a, [])) : s.whole? cs = some a := by
  rw [whole?, h]

/-! ## What scans need -/

/-- The rest that a scan leaves is an end of its text. -/
def LeavesEnd (s : Scan α) : Prop :=
  ∀ cs a rest, s.run cs = some (a, rest) → rest <:+ cs

/-- A scan succeeds only on texts with a certain character. -/
def Needs (c : Char) (s : Scan α) : Prop :=
  ∀ cs a rest, s.run cs = some (a, rest) → c ∈ cs

theorem LeavesEnd.pure (a : α) : LeavesEnd (pure a : Scan α) := by
  intro cs b rest h
  obtain ⟨-, rfl⟩ := Prod.mk.inj (Option.some.inj h)
  exact List.suffix_refl cs

theorem LeavesEnd.lift (x : Option α) : LeavesEnd (liftM x : Scan α) := by
  intro cs a rest h
  obtain ⟨b, -, hb⟩ := Option.bind_eq_some_iff.mp h
  obtain ⟨-, rfl⟩ := Prod.mk.inj (Option.some.inj hb)
  exact List.suffix_refl cs

/-- A scan in steps takes the text in steps. -/
theorem run_bind_eq_some {b : β} (h : (s >>= f).run cs = some (b, rest)) :
    ∃ a mid, s.run cs = some (a, mid) ∧ (f a).run mid = some (b, rest) := by
  rw [StateT.run_bind] at h
  obtain ⟨⟨a, mid⟩, ha, hb⟩ := Option.bind_eq_some_iff.mp h
  exact ⟨a, mid, ha, hb⟩

theorem LeavesEnd.bind (hs : LeavesEnd s) (hf : ∀ a, LeavesEnd (f a)) : LeavesEnd (s >>= f) := by
  intro cs b rest h
  obtain ⟨a, mid, ha, hb⟩ := run_bind_eq_some h
  exact (hf a mid b rest hb).trans (hs cs a mid ha)

theorem Needs.bind_left (hs : Needs c s) : Needs c (s >>= f) := by
  intro cs b rest h
  obtain ⟨a, mid, ha, -⟩ := run_bind_eq_some h
  exact hs cs a mid ha

theorem Needs.bind_right (hs : LeavesEnd s) (hf : ∀ a, Needs c (f a)) : Needs c (s >>= f) := by
  intro cs b rest h
  obtain ⟨a, mid, ha, hb⟩ := run_bind_eq_some h
  exact (hs cs a mid ha).subset (hf a mid b rest hb)

theorem LeavesEnd.one (p : Char → Bool) : LeavesEnd (one p) := by
  intro cs a rest h
  cases cs with
  | nil => contradiction
  | cons d ds =>
      rw [run_one_cons] at h
      split at h
      · obtain ⟨-, rfl⟩ := Prod.mk.inj (Option.some.inj h)
        exact List.suffix_cons d ds
      · contradiction

theorem LeavesEnd.discard_one (p : Char → Bool) : LeavesEnd (discard (Scan.one p)) := by
  intro cs a rest h
  cases cs with
  | nil => contradiction
  | cons d ds =>
      rw [run_discard_one_cons] at h
      split at h
      · obtain ⟨-, rfl⟩ := Prod.mk.inj (Option.some.inj h)
        exact List.suffix_cons d ds
      · contradiction

theorem LeavesEnd.char (c : Char) : LeavesEnd (char c) :=
  .discard_one _

theorem Needs.char (c : Char) : Needs c (char c) := by
  intro cs a rest h
  cases cs with
  | nil => contradiction
  | cons d ds =>
      rw [run_char_cons] at h
      split at h
      next hd => exact hd ▸ List.mem_cons_self
      next => contradiction

theorem LeavesEnd.peek : LeavesEnd peek := by
  intro cs a rest h
  obtain ⟨-, rfl⟩ := Prod.mk.inj (Option.some.inj h)
  exact List.suffix_refl cs

theorem LeavesEnd.blanks : LeavesEnd blanks := by
  intro cs a rest h
  obtain ⟨-, rfl⟩ := Prod.mk.inj (Option.some.inj h)
  exact List.dropWhile_suffix _

theorem LeavesEnd.digits : LeavesEnd digits := by
  intro cs a rest h
  change Scan.digits cs = some (a, rest) at h
  unfold Scan.digits at h
  split at h
  · contradiction
  · obtain ⟨-, rfl⟩ := Prod.mk.inj (Option.some.inj h)
    exact List.dropWhile_suffix _

theorem LeavesEnd.number (least most : Nat) : LeavesEnd (number least most) := by
  intro cs a rest h
  change Scan.number least most cs = some (a, rest) at h
  simp only [Scan.number] at h
  split at h
  · contradiction
  · obtain ⟨-, rfl⟩ := Prod.mk.inj (Option.some.inj h)
    exact List.drop_suffix _ _

/-- A scan that needs a character fails on a text without it. -/
theorem Needs.whole?_eq_none (hs : Needs c s) (h : c ∉ cs) : s.whole? cs = none := by
  unfold whole?
  split
  next a hrun => exact absurd (hs cs a [] hrun) h
  next => rfl

end Scan

end Selection
