import Selection.Proofs.Numeral
import Selection.Text.Blank

/-! # Characters of texts

What a text starts with, which characters it has, and what follows for trimming and cutting it. A
text of digits and a few further characters is described by those characters.
-/

namespace Selection

namespace Text

variable {p : Char → Bool} {c : Char} {cs before after : List Char}

/-! ## First characters -/

/-- Whether a text starts with no character of a kind. -/
def StartsWithout (p : Char → Bool) (cs : List Char) : Prop :=
  ∀ c ∈ cs.head?, p c = false

@[simp] theorem startsWithout_nil (p : Char → Bool) : StartsWithout p [] := by
  simp [StartsWithout]

@[simp] theorem startsWithout_cons {p : Char → Bool} {c : Char} :
    StartsWithout p (c :: cs) ↔ p c = false := by
  simp [StartsWithout]

theorem StartsWithout.takeWhile_eq_nil {p : Char → Bool} (h : StartsWithout p cs) :
    cs.takeWhile p = [] := by
  cases cs with
  | nil => rfl
  | cons c rest => rw [List.takeWhile_cons, startsWithout_cons.mp h, if_neg Bool.false_ne_true]

theorem StartsWithout.dropWhile_eq_self {p : Char → Bool} (h : StartsWithout p cs) :
    cs.dropWhile p = cs := by
  cases cs with
  | nil => rfl
  | cons c rest => rw [List.dropWhile_cons, startsWithout_cons.mp h, if_neg Bool.false_ne_true]

theorem StartsWithout.take {p : Char → Bool} (h : StartsWithout p cs) (n : Nat) :
    StartsWithout p (cs.take n) := by
  intro c hc
  cases n with
  | zero => simp at hc
  | succ n =>
      apply h
      rwa [List.head?_take, if_neg (Nat.succ_ne_zero n)] at hc

/-- What is left of a text when some characters are dropped starts without them. -/
theorem startsWithout_dropWhile (p : Char → Bool) (cs : List Char) :
    StartsWithout p (cs.dropWhile p) := by
  intro c hc
  have := List.head?_dropWhile_not p cs
  rwa [Option.mem_def.mp hc] at this

theorem StartsWithout.append {p : Char → Bool} (hbefore : StartsWithout p before)
    (hafter : StartsWithout p after) : StartsWithout p (before ++ after) := by
  cases before with
  | nil => exact hafter
  | cons c before => exact startsWithout_cons.mpr (startsWithout_cons.mp hbefore)

theorem StartsWithout.append_left {p : Char → Bool} (h : StartsWithout p before)
    (hne : before ≠ []) (after : List Char) : StartsWithout p (before ++ after) := by
  intro c hc
  rw [List.head?_append_of_ne_nil _ hne] at hc
  exact h c hc

/-! ## Cutting -/

theorem beq_eq_false_of_isDigit {d : Char} (hc : c.isDigit = true) (hd : d.isDigit = false) :
    (c == d) = false := by
  rw [beq_eq_false_iff_ne]
  rintro rfl
  rw [hc] at hd
  contradiction

theorem cutAt_append (hbefore : ∀ c ∈ before, p c = false) (hc : p c = true) :
    cutAt p (before ++ c :: after) = some (before, after) := by
  induction before with
  | nil => rw [List.nil_append, cutAt, if_pos hc]
  | cons d before ih =>
      rw [List.cons_append, cutAt, hbefore d List.mem_cons_self, if_neg Bool.false_ne_true,
        ih fun c hmem => hbefore c (List.mem_cons_of_mem _ hmem)]
      rfl

theorem cutAt_eq_none (h : ∀ c ∈ before, p c = false) : cutAt p before = none := by
  induction before with
  | nil => rfl
  | cons d before ih =>
      rw [cutAt, h d List.mem_cons_self, if_neg Bool.false_ne_true,
        ih fun c hmem => h c (List.mem_cons_of_mem _ hmem)]
      rfl

/-- A text is cut where it is put together again by a character that is cut at. -/
theorem cutAt_eq_some_iff : cutAt p cs = some (before, after) ↔
    ∃ c, cs = before ++ c :: after ∧ p c = true ∧ ∀ d ∈ before, p d = false := by
  constructor
  · intro h
    induction cs generalizing before with
    | nil => contradiction
    | cons d cs ih =>
        rw [cutAt] at h
        split at h
        next hd =>
          obtain ⟨rfl, rfl⟩ := Prod.mk.inj (Option.some.inj h)
          exact ⟨d, rfl, hd, by simp⟩
        next hd =>
          obtain ⟨⟨first, last⟩, hcut, heq⟩ := Option.map_eq_some_iff.mp h
          obtain ⟨rfl, rfl⟩ := Prod.mk.inj heq
          obtain ⟨c, rfl, hc, hfirst⟩ := ih hcut
          exact ⟨c, rfl, hc, List.forall_mem_cons.mpr ⟨Bool.eq_false_iff.mpr hd, hfirst⟩⟩
  · rintro ⟨c, rfl, hc, hbefore⟩
    exact cutAt_append hbefore hc

theorem pieces_of_not_mem {sep : Char} (h : sep ∉ cs) : pieces sep cs = [cs] := by
  induction cs with
  | nil => rfl
  | cons c cs ih =>
      have hc : c ≠ sep := fun hc => h (hc ▸ List.mem_cons_self)
      rw [pieces, if_neg hc, ih fun hmem => h (List.mem_cons_of_mem c hmem)]

theorem pieces_append {sep : Char} (h : sep ∉ before) :
    pieces sep (before ++ sep :: after) = before :: pieces sep after := by
  induction before with
  | nil => rw [List.nil_append, pieces, if_pos rfl]
  | cons c before ih =>
      have hc : c ≠ sep := fun hc => h (hc ▸ List.mem_cons_self)
      rw [List.cons_append, pieces, if_neg hc, ih fun hmem => h (List.mem_cons_of_mem c hmem)]

/-- A text of one piece is that piece. -/
theorem eq_of_pieces_singleton {sep : Char} {piece : List Char} (h : pieces sep cs = [piece]) :
    cs = piece := by
  by_cases hmem : sep ∈ cs
  · obtain ⟨first, rest, rfl, hfirst⟩ := List.eq_append_cons_of_mem hmem
    rw [pieces_append hfirst] at h
    exact absurd (List.cons.inj h).2 (pieces_ne_nil sep rest)
  · rw [pieces_of_not_mem hmem] at h
    exact (List.cons.inj h).1

/-- A text of several pieces is the first one, a separator and a text of the others. -/
theorem exists_of_pieces_cons {sep : Char} {piece next : List Char} {more : List (List Char)}
    (h : pieces sep cs = piece :: next :: more) :
    ∃ rest, cs = piece ++ sep :: rest ∧ pieces sep rest = next :: more := by
  by_cases hmem : sep ∈ cs
  · obtain ⟨first, rest, rfl, hfirst⟩ := List.eq_append_cons_of_mem hmem
    rw [pieces_append hfirst] at h
    obtain ⟨rfl, hmore⟩ := List.cons.inj h
    exact ⟨rest, rfl, hmore⟩
  · rw [pieces_of_not_mem hmem] at h
    simp at h

/-- The parts of a cut text are its parts around the separator. -/
theorem eq_of_cutAtLast {sep : Char} (h : cutAtLast sep cs = some (before, after)) :
    cs = before ++ sep :: after := by
  induction cs generalizing before with
  | nil => contradiction
  | cons d cs ih =>
      rw [cutAtLast] at h
      split at h
      next first last hcut =>
        obtain ⟨rfl, rfl⟩ := Prod.mk.inj (Option.some.inj h)
        rw [ih hcut, List.cons_append]
      next =>
        split at h
        next hd =>
          obtain ⟨rfl, rfl⟩ := Prod.mk.inj (Option.some.inj h)
          rw [hd, List.nil_append]
        next => contradiction

/-! ## Blanks -/

theorem isBlank_of_isDigit {c : Char} (h : c.isDigit = true) : isBlank c = false := by
  simp only [Char.isDigit, Bool.and_eq_true, decide_eq_true_eq, ge_iff_le,
    UInt32.le_iff_toNat_le] at h
  obtain ⟨hlow, hhigh⟩ := h
  have hlow : 48 ≤ c.toNat := hlow
  have hhigh : c.toNat ≤ 57 := hhigh
  simp [isBlank]
  omega

/-- A text without blanks at its ends is left as it is by trimming. -/
theorem trim_eq_self (hfirst : StartsWithout isBlank cs)
    (hlast : StartsWithout isBlank cs.reverse) : trim cs = cs := by
  rw [trim, trimStart, trimStart, hfirst.dropWhile_eq_self, hlast.dropWhile_eq_self,
    List.reverse_reverse]

/-- A text without blanks is trimmed to itself. -/
theorem trim_eq_self_of_forall (h : ∀ c ∈ cs, isBlank c = false) : trim cs = cs := by
  apply trim_eq_self
  · intro c hc
    exact h c (List.mem_of_mem_head? hc)
  · intro c hc
    exact h c (List.mem_reverse.mp (List.mem_of_mem_head? hc))

/-! ## Digits and further characters -/

/-- What holds of the characters of a text is decided by going through the text, not through all
characters. -/
instance (priority := high) decidableForallMem (p : Char → Prop) [DecidablePred p]
    (cs : List Char) : Decidable (∀ c ∈ cs, p c) :=
  List.decidableBAll p cs

/-- A text has only digits and some further characters. -/
def Among (extra cs : List Char) : Prop :=
  ∀ c ∈ cs, c.isDigit = true ∨ c ∈ extra

instance (extra cs : List Char) : Decidable (Among extra cs) :=
  inferInstanceAs (Decidable (∀ c ∈ cs, _))

variable {extra more : List Char}

theorem among_nil (extra : List Char) : Among extra [] :=
  nofun

theorem Among.cons (hc : c.isDigit = true ∨ c ∈ extra) (h : Among extra cs) :
    Among extra (c :: cs) :=
  List.forall_mem_cons.mpr ⟨hc, h⟩

theorem Among.append (hbefore : Among extra before) (hafter : Among extra after) :
    Among extra (before ++ after) :=
  List.forall_mem_append.mpr ⟨hbefore, hafter⟩

theorem Among.mono (h : Among extra cs) (hsubset : extra ⊆ more) : Among more cs := by
  intro c hc
  exact (h c hc).imp_right fun hmem => hsubset hmem

/-- A character that is no digit and none of the extra ones is not in the text. -/
theorem Among.not_mem (h : Among extra cs) (hdigit : c.isDigit = false) (hextra : c ∉ extra) :
    c ∉ cs := by
  intro hc
  rcases h c hc with hc | hc
  · rw [hdigit] at hc
    contradiction
  · exact hextra hc

/-- A text of digits and characters that are no blanks is trimmed to itself. -/
theorem Among.trim_eq_self (h : Among extra cs) (hextra : ∀ c ∈ extra, isBlank c = false) :
    trim cs = cs := by
  apply trim_eq_self_of_forall
  intro c hc
  exact (h c hc).elim isBlank_of_isDigit (hextra c)

end Text

namespace Numeral

theorem among_digits (extra : List Char) (n : Nat) : Text.Among extra (digits n) :=
  fun _ hc => .inl (isDigit_of_mem_digits hc)

theorem among_padded (extra : List Char) (width n : Nat) : Text.Among extra (padded width n) :=
  fun _ hc => .inl (isDigit_of_mem_padded hc)

theorem among_paddedText (extra : List Char) (width n : Nat) :
    Text.Among extra (paddedText width n).toList := by
  rw [paddedText, String.toList_ofList]
  exact among_padded extra width n

theorem toList_ofInt (n : Int) :
    (ofInt n).toList = (if n < 0 then ['-'] else []) ++ digits n.natAbs := by
  cases n with
  | ofNat n => simp [ofInt, text]
  | negSucc n => simp [ofInt, text, Int.natAbs_negSucc]

theorem among_ofInt (n : Int) : Text.Among ['-'] (ofInt n).toList := by
  rw [toList_ofInt]
  refine .append ?_ (among_digits _ _)
  split <;> decide

end Numeral

end Selection
