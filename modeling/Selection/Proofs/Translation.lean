import Selection.Proofs.Except
import Selection.Proofs.SetBody

/-! # Patterns and their expressions

A pattern spells the pieces of an expression: a run, a dot, a character, or a class with the marks
of the body of a set. The expression of a pattern is the text of these pieces, which the expression
library reads back as the same pieces, so what a pattern is read as depends on its pieces alone.
-/

namespace Selection.Pattern

open Regex (Mark Piece)

/-! ## Patterns, part after part -/

/-- The body of a set: the text between its brackets without the caret at the start. -/
def body : List Char → List Char
  | '^' :: rest => rest
  | text => text

/-- Induction on a pattern, part after part. -/
theorem pattern_induction {motive : List Char → Prop} (nil : motive [])
    (run : ∀ pattern, motive pattern → motive ('%' :: pattern))
    (one : ∀ pattern, motive pattern → motive ('_' :: pattern))
    (char : ∀ c pattern, c ≠ '%' → c ≠ '_' → c ≠ '[' → motive pattern → motive (c :: pattern))
    (unterminated : ∀ rest, ']' ∉ rest → motive ('[' :: rest))
    (set : ∀ set pattern, ']' ∉ set → motive pattern → motive ('[' :: set ++ ']' :: pattern)) :
    ∀ pattern, motive pattern
  | [] => nil
  | c :: rest => by
    have ih (left : List Char) (_ : left.length ≤ rest.length) : motive left :=
      pattern_induction nil run one char unterminated set left
    by_cases hset : c = '['
    · subst hset
      by_cases hrest : ']' ∈ rest
      · obtain ⟨before, after, rfl, hbefore⟩ := List.eq_append_cons_of_mem hrest
        exact set before after hbefore (ih after (by simp; omega))
      · exact unterminated rest hrest
    by_cases hrun : c = '%'
    · exact hrun ▸ run rest (ih rest (Nat.le_refl _))
    by_cases hone : c = '_'
    · exact hone ▸ one rest (ih rest (Nat.le_refl _))
    exact char c rest hrun hone hset (ih rest (Nat.le_refl _))
termination_by pattern => pattern.length

/-- The first closing bracket ends a set. -/
theorem set_inj {set set' rest rest' : List Char} (hset : ']' ∉ set) (hset' : ']' ∉ set')
    (h : set ++ ']' :: rest = set' ++ ']' :: rest') : set = set' ∧ rest = rest' := by
  induction set generalizing set' with
  | nil =>
      cases set' with
      | nil => exact ⟨rfl, (List.cons.inj h).2⟩
      | cons c more => exact absurd ((List.cons.inj h).1 ▸ List.mem_cons_self) hset'
  | cons c more ih =>
      cases set' with
      | nil => exact absurd ((List.cons.inj h).1 ▸ List.mem_cons_self) hset
      | cons d more' =>
          obtain ⟨rfl, hrest⟩ := List.cons.inj h
          have hmore :=
            ih (mt (List.mem_cons_of_mem c) hset) (mt (List.mem_cons_of_mem c) hset') hrest
          exact ⟨congrArg (c :: ·) hmore.1, hmore.2⟩

theorem head?_set (set rest : List Char) :
    ((set ++ ']' :: rest).head? == some '^') = (set.head? == some '^') := by
  cases set <;> rfl

theorem head?_ne_caret {set : List Char} (h : ∀ rest, set ≠ '^' :: rest) :
    set.head? ≠ some '^' := by
  cases set with
  | nil => exact nofun
  | cons c rest =>
      intro hc
      obtain rfl := Option.some.inj hc
      exact h rest rfl

/-- The body of a set is what is left without the caret at the start. -/
theorem body_eq_drop (set : List Char) : body set = set.drop (set.head? == some '^').toNat := by
  rw [body.eq_def]
  split
  · rfl
  · rename_i hcaret
    rw [beq_eq_false_iff_ne.mpr (head?_ne_caret hcaret)]
    rfl

/-- What stands after the opening of a set is its body, its closing bracket and the rest. -/
theorem drop_set (set rest : List Char) :
    (set ++ ']' :: rest).drop (set.head? == some '^').toNat = body set ++ ']' :: rest := by
  rw [body_eq_drop]
  cases set with
  | nil => rfl
  | cons c more =>
      rw [List.head?_cons, Option.some_beq_some]
      cases c == '^' <;> rfl

/-! ## Spelling -/

/-- The piece of a set with a text between its brackets. -/
def setPiece (set : List Char) : Piece :=
  .set (set.head? == some '^') (marks false (body set))

/-- A pattern spells the pieces of an expression. -/
inductive Spells : List Char → List Piece → Prop
  | nil : Spells [] []
  | run {pattern : List Char} {ps : List Piece} :
      Spells pattern ps → Spells ('%' :: pattern) (.run :: ps)
  | one {pattern : List Char} {ps : List Piece} :
      Spells pattern ps → Spells ('_' :: pattern) (.one :: ps)
  | set {set pattern : List Char} {ps : List Piece} : ']' ∉ set → body set ≠ [] →
      Spells pattern ps → Spells ('[' :: set ++ ']' :: pattern) (setPiece set :: ps)
  | char {c : Char} {pattern : List Char} {ps : List Piece} : c ≠ '%' → c ≠ '_' → c ≠ '[' →
      Spells pattern ps → Spells (c :: pattern) (.char c (isMeta c) :: ps)

section Spells

variable {pattern : List Char} {ps : List Piece}

theorem spells_nil_iff : Spells [] ps ↔ ps = [] := by
  constructor
  · intro h
    cases h
    rfl
  · rintro rfl
    exact .nil

theorem spells_run_iff : Spells ('%' :: pattern) ps ↔ ∃ more, Spells pattern more ∧
    ps = .run :: more := by
  constructor
  · intro h
    cases h with
    | run h => exact ⟨_, h, rfl⟩
    | char hc => exact absurd rfl hc
  · rintro ⟨more, h, rfl⟩
    exact .run h

theorem spells_one_iff : Spells ('_' :: pattern) ps ↔ ∃ more, Spells pattern more ∧
    ps = .one :: more := by
  constructor
  · intro h
    cases h with
    | one h => exact ⟨_, h, rfl⟩
    | char _ hc => exact absurd rfl hc
  · rintro ⟨more, h, rfl⟩
    exact .one h

theorem spells_char_iff {c : Char} (hrun : c ≠ '%') (hone : c ≠ '_') (hset : c ≠ '[') :
    Spells (c :: pattern) ps ↔ ∃ more, Spells pattern more ∧
      ps = .char c (isMeta c) :: more := by
  constructor
  · intro h
    cases h with
    | run => exact absurd rfl hrun
    | one => exact absurd rfl hone
    | set => exact absurd rfl hset
    | char _ _ _ h => exact ⟨_, h, rfl⟩
  · rintro ⟨more, h, rfl⟩
    exact .char hrun hone hset h

/-- A pattern with an empty set spells nothing. -/
theorem spells_set_iff {set : List Char} (hset : ']' ∉ set) :
    Spells ('[' :: set ++ ']' :: pattern) ps ↔ body set ≠ [] ∧ ∃ more, Spells pattern more ∧
      ps = setPiece set :: more := by
  constructor
  -- The first closing bracket ends the set, so the whole is taken apart in one way only.
  · generalize hwhole : '[' :: set ++ ']' :: pattern = whole
    rintro (_ | _ | _ | ⟨hset', hbody, h⟩ | ⟨-, -, hc, -⟩)
    · contradiction
    · cases (List.cons.inj hwhole).1
    · cases (List.cons.inj hwhole).1
    · obtain ⟨rfl, rfl⟩ := set_inj hset hset' (List.cons.inj hwhole).2
      exact ⟨hbody, _, h, rfl⟩
    · exact absurd (List.cons.inj hwhole).1.symm hc
  · rintro ⟨hbody, more, h, rfl⟩
    exact .set hset hbody h

/-- A pattern with a set that is not closed spells nothing. -/
theorem not_spells_unterminated (h : ']' ∉ pattern) : ¬Spells ('[' :: pattern) ps := by
  generalize hwhole : '[' :: pattern = whole
  rintro (_ | _ | _ | _ | ⟨-, -, hc, -⟩)
  · contradiction
  · cases (List.cons.inj hwhole).1
  · cases (List.cons.inj hwhole).1
  · refine absurd ?_ h
    rw [(List.cons.inj hwhole).2]
    simp
  · exact absurd (List.cons.inj hwhole).1.symm hc

end Spells

/-! ## The text of an expression -/

/-- The text of some pieces. -/
def written (ps : List Piece) : List Char :=
  ps.flatMap Piece.text

theorem written_cons (p : Piece) (ps : List Piece) : written (p :: ps) = p.text ++ written ps :=
  List.flatMap_cons

/-- A set that is not closed has no expression. -/
theorem expression_unterminated {text : List Char} (h : ']' ∉ text) :
    expression ('[' :: text) = .error .unterminatedSet := by
  have hclass : classText? 0 (text.drop (text.head? == some '^').toNat) = none :=
    classText?_eq_none (fun hmem => h (List.mem_of_mem_drop hmem)) 0
  rw [expression]
  split <;> simp_all

/-- A set is written as its class, and an empty one has no expression. -/
theorem expression_set {set : List Char} (hset : ']' ∉ set) (rest : List Char) :
    expression ('[' :: set ++ ']' :: rest) =
      if body set = [] then .error .emptySet
      else (expression rest).map ((setPiece set).text ++ ·) := by
  have hbody : ']' ∉ body set := fun h => hset (List.mem_of_mem_drop (body_eq_drop set ▸ h))
  obtain ⟨count, hclass, hcount⟩ := classText?_append hbody 0 rest
  rw [← drop_set, ← head?_set set rest] at hclass
  rw [List.cons_append, expression]
  split
  · rename_i heq
    rw [hclass] at heq
    contradiction
  · rename_i heq
    rw [hclass] at heq
    have hzero : count = 0 := congrArg Prod.fst (Option.some.inj heq)
    rw [if_pos (hcount.mp hzero).2]
  · rename_i found text left hne heq
    rw [hclass] at heq
    obtain ⟨rfl, rfl, rfl⟩ : count = found ∧ _ = text ∧ rest = left := by
      simpa using Option.some.inj heq
    rw [if_neg fun hnil => hne (hcount.mpr ⟨rfl, hnil⟩), setPiece, ← head?_set set rest]
    rfl

/-- A pattern that spells a piece and then what the rest of it spells is written as the text of the
piece and then the expression of the rest. -/
theorem expression_cons_eq_ok_iff {cs rest text : List Char} {p : Piece}
    (h : expression cs = (expression rest).map (p.text ++ ·))
    (hspells : ∀ {ps}, Spells cs ps ↔ ∃ more, Spells rest more ∧ ps = p :: more)
    (ih : ∀ {text}, expression rest = .ok text ↔ ∃ ps, Spells rest ps ∧ text = written ps) :
    expression cs = .ok text ↔ ∃ ps, Spells cs ps ∧ text = written ps := by
  simp only [h, map_eq_ok_iff, ih, hspells]
  constructor
  · rintro ⟨_, ⟨ps, hps, rfl⟩, rfl⟩
    exact ⟨_, ⟨ps, hps, rfl⟩, (written_cons p ps).symm⟩
  · rintro ⟨_, ⟨ps, hps, rfl⟩, rfl⟩
    exact ⟨_, ⟨ps, hps, rfl⟩, written_cons p ps⟩

/-- The expression of a pattern is the text of the pieces it spells; a pattern that spells none has
no expression. -/
theorem expression_eq_ok_iff {cs text : List Char} :
    expression cs = .ok text ↔ ∃ ps, Spells cs ps ∧ text = written ps := by
  induction cs using pattern_induction generalizing text with
  | nil =>
      rw [expression]
      simp [spells_nil_iff, written, eq_comm]
  | run rest ih => exact expression_cons_eq_ok_iff (by rw [expression]; rfl) spells_run_iff ih
  | one rest ih => exact expression_cons_eq_ok_iff (by rw [expression]; rfl) spells_one_iff ih
  | char c rest hrun hone hset ih =>
      have h : expression (c :: rest) =
          (expression rest).map ((Piece.char c (isMeta c)).text ++ ·) := by
        rw [expression] <;> first | assumption | rfl
      exact expression_cons_eq_ok_iff h (spells_char_iff hrun hone hset) ih
  | unterminated rest hrest =>
      rw [expression_unterminated hrest]
      constructor
      · intro h
        contradiction
      · rintro ⟨_, h, -⟩
        exact absurd h (not_spells_unterminated hrest)
  | set set rest hset ih =>
      have h := expression_set hset rest
      by_cases hbody : body set = []
      · rw [h, if_pos hbody]
        constructor
        · intro h
          contradiction
        · rintro ⟨_, h, -⟩
          exact absurd hbody ((spells_set_iff hset).mp h).1
      · rw [if_neg hbody] at h
        refine expression_cons_eq_ok_iff h (fun {ps} => ?_) ih
        rw [spells_set_iff hset, and_iff_right hbody]

/-- A pattern is written from anchor to anchor as the pieces it spells. -/
theorem translate_eq_ok_iff {cs text : List Char} :
    translate cs = .ok text ↔ ∃ ps, Spells cs ps ∧ text = '^' :: written ps ++ ['$'] := by
  simp only [translate, map_eq_ok_iff, expression_eq_ok_iff]
  constructor
  · rintro ⟨_, ⟨ps, hps, rfl⟩, rfl⟩
    exact ⟨ps, hps, rfl⟩
  · rintro ⟨ps, hps, rfl⟩
    exact ⟨_, ⟨ps, hps, rfl⟩, rfl⟩

/-! ## Reading an expression back -/

/-- A character has a backslash before it just when it means something. -/
theorem escape_cases (c : Char) :
    isMeta c = true ∧ escape c = ['\\', c] ∨ isMeta c = false ∧ escape c = [c] := by
  cases h : isMeta c <;> simp [escape, h]

/-- A character that stands without a backslash means nothing else. -/
theorem ne_of_not_isMeta {c d : Char} (hc : isMeta c = false) (hd : isMeta d = true) : c ≠ d := by
  rintro rfl
  rw [hc] at hd
  contradiction

/-- What is written for a character begins with no character that means something, but for a
backslash. -/
theorem head?_escape {c d : Char} (hd : isMeta d = true) (hslash : d ≠ '\\') (rest : List Char) :
    (escape c ++ rest).head? ≠ some d := by
  rcases escape_cases c with ⟨-, h⟩ | ⟨hc, h⟩ <;> rw [h]
  · exact fun h => hslash (Option.some.inj h).symm
  · exact fun h => ne_of_not_isMeta hc hd (Option.some.inj h)

theorem text_mark (c : Char) : (mark c).text = escape c := rfl

/-- A character in a class is read back as it was written. -/
theorem classMarks_mark (c : Char) (rest : List Char) :
    Regex.classMarks (escape c ++ rest) =
      (mark c :: (Regex.classMarks rest).1, (Regex.classMarks rest).2) := by
  rcases escape_cases c with ⟨hc, h⟩ | ⟨hc, h⟩
  · rw [h, mark, hc]
    rfl
  · rw [h, mark, hc, List.singleton_append, Regex.classMarks.eq_5]
    · exact ne_of_not_isMeta hc (by decide)
    · exact ne_of_not_isMeta hc (by decide)
    · exact fun _ _ hslash => absurd hslash (ne_of_not_isMeta hc (by decide))

/-- The marks of a body are read back from their text. -/
theorem classMarks_marks (hasMember : Bool) (text rest : List Char) :
    Regex.classMarks ((marks hasMember text).flatMap Mark.text ++ ']' :: rest) =
      (marks hasMember text, rest) := by
  fun_induction marks hasMember text with
  | case1 => rfl
  | case2 hasMember more ih =>
      -- A bare hyphen is read by its own case of the reader, and any member by that of its text.
      split
      · rw [List.flatMap_cons, Mark.text, List.cons_append, List.nil_append, List.cons_append,
          Regex.classMarks, ih]
      · rw [List.flatMap_cons, List.append_assoc, text_mark, classMarks_mark, ih]
  | case3 hasMember c more _ ih =>
      rw [List.flatMap_cons, List.append_assoc, text_mark, classMarks_mark, ih]

/-- The text of a class that is not negated does not begin like that of one that is. -/
theorem head?_marks (text rest : List Char) :
    ((marks false text).flatMap Mark.text ++ ']' :: rest).head? ≠ some '^' := by
  cases text with
  | nil => exact nofun
  | cons c more =>
      rw [marks_member (by simp), List.flatMap_cons, text_mark, List.append_assoc]
      exact head?_escape (by decide) (by decide) _

/-- A class is read back as the piece of its set. -/
theorem pieces_set (set rest : List Char) :
    Regex.pieces ((setPiece set).text ++ rest) = setPiece set :: Regex.pieces rest := by
  have hmarks := classMarks_marks false (body set) rest
  have hhead := head?_marks (body set) rest
  rw [setPiece]
  cases set.head? == some '^' with
  | false =>
      have htext : (Piece.set false (marks false (body set))).text ++ rest =
          '[' :: ((marks false (body set)).flatMap Mark.text ++ ']' :: rest) := by
        simp [Piece.text, Regex.opening]
      rw [htext, Regex.pieces, beq_eq_false_iff_ne.mpr hhead]
      simp only [Bool.toNat_false, List.drop_zero, hmarks]
  | true =>
      have htext : (Piece.set true (marks false (body set))).text ++ rest =
          '[' :: '^' :: ((marks false (body set)).flatMap Mark.text ++ ']' :: rest) := by
        simp [Piece.text, Regex.opening]
      rw [htext, Regex.pieces]
      simp [hmarks]

/-- A character is read back as it was written. -/
theorem pieces_char (c : Char) (rest : List Char) :
    Regex.pieces (escape c ++ rest) = .char c (isMeta c) :: Regex.pieces rest := by
  rcases escape_cases c with ⟨hc, h⟩ | ⟨hc, h⟩ <;> rw [h, hc]
  · rw [List.cons_append, List.cons_append, List.nil_append, Regex.pieces]
  · have hne {d : Char} (hd : isMeta d = true) : c ≠ d := ne_of_not_isMeta hc hd
    rw [List.singleton_append, Regex.pieces]
    · exact fun h => absurd h (hne (by decide))
    · exact fun _ h => absurd h (hne (by decide))
    · exact hne (by decide)
    · exact hne (by decide)
    · exact fun _ _ h => absurd h (hne (by decide))

/-- No piece begins with an asterisk. -/
theorem Spells.head?_written {cs : List Char} {ps : List Piece} (h : Spells cs ps) :
    (written ps ++ ['$']).head? ≠ some '*' := by
  cases h with
  | nil => decide
  | run | one => exact nofun
  | set =>
      rw [written_cons, setPiece, Piece.text, Regex.opening]
      split <;> exact nofun
  | char =>
      rw [written_cons, List.append_assoc]
      exact head?_escape (by decide) (by decide) _

/-- The expression of a pattern is read back as the pieces that the pattern spells. -/
theorem Spells.pieces_written {cs : List Char} {ps : List Piece} (h : Spells cs ps) :
    Regex.pieces (written ps ++ ['$']) = ps := by
  induction h with
  | nil => rw [written, List.flatMap_nil, List.nil_append, Regex.pieces]
  | run _ ih =>
      rw [written_cons, List.append_assoc, Piece.text, List.cons_append, List.cons_append,
        List.nil_append, Regex.pieces, ih]
  -- A dot with an asterisk behind it would be read as a run.
  | one h ih =>
      rw [written_cons, List.append_assoc, Piece.text, List.cons_append, List.nil_append,
        Regex.pieces.eq_4, ih]
      intro rest hrest
      exact h.head?_written (by rw [hrest]; rfl)
  | set _ _ _ ih => rw [written_cons, List.append_assoc, pieces_set, ih]
  | char _ _ _ _ ih =>
      rw [written_cons, List.append_assoc]
      exact (pieces_char _ _).trans (by rw [ih])

/-! ## Reading a pattern -/

/-- Reading a pattern is reading the pieces it spells, from behind the first anchor. -/
theorem read_eq_ok_iff {cs : List Char} {p : Pattern} :
    read cs = .ok p ↔ ∃ ps, Spells cs ps ∧ Regex.toParts 1 ps = .ok p := by
  have hread {ps : List Piece} (h : Spells cs ps) :
      Regex.read ('^' :: written ps ++ ['$']) = .ok p ↔ Regex.toParts 1 ps = .ok p := by
    rw [Regex.read, List.cons_append, List.drop_one, List.tail_cons, h.pieces_written]
    exact mapError_eq_ok_iff
  simp only [read, bind_eq_ok_iff, translate_eq_ok_iff, mapError_eq_ok_iff]
  constructor
  · rintro ⟨_, ⟨ps, hps, rfl⟩, h⟩
    exact ⟨ps, hps, (hread hps).mp h⟩
  · rintro ⟨ps, hps, h⟩
    exact ⟨_, ⟨ps, hps, rfl⟩, (hread hps).mpr h⟩

/-- A piece is read where it stands, and the others behind it. -/
theorem toParts_cons_eq_ok_iff {pos : Nat} {p : Piece} {ps : List Piece} {parts : Pattern} :
    Regex.toParts pos (p :: ps) = .ok parts ↔ ∃ part more, p.toPart pos = .ok part ∧
      Regex.toParts (pos + p.text.length) ps = .ok more ∧ parts = part :: more := by
  simp only [Regex.toParts, bind_eq_ok_iff, pure_eq_ok_iff]
  constructor
  · rintro ⟨part, hpart, more, hmore, rfl⟩
    exact ⟨part, more, hpart, hmore, rfl⟩
  · rintro ⟨part, more, hpart, hmore, rfl⟩
    exact ⟨part, hpart, more, hmore, rfl⟩

/-- A set is read exactly when its body is in order, wherever it stands. -/
theorem toPart_setPiece_eq_ok_iff {pos : Nat} {set : List Char} {part : Part} :
    (setPiece set).toPart pos = .ok part ↔ OperandsInOrder (body set) ∧
      part = .set (set.head? == some '^') (.ofTexts (bodyOperands (body set))) := by
  simp only [setPiece, Piece.toPart, map_eq_ok_iff, readSet_eq_ok_iff, and_assoc, exists_eq_left,
    exists_and_left]

theorem toParts_cons_congr {pos pos' : Nat} {p : Piece} {ps : List Piece}
    (hpart : ∀ part, p.toPart pos = .ok part ↔ p.toPart pos' = .ok part)
    (hps : ∀ {pos pos' more}, Regex.toParts pos ps = .ok more ↔ Regex.toParts pos' ps = .ok more)
    {parts : Pattern} :
    Regex.toParts pos (p :: ps) = .ok parts ↔ Regex.toParts pos' (p :: ps) = .ok parts := by
  rw [toParts_cons_eq_ok_iff, toParts_cons_eq_ok_iff]
  exact exists₂_congr fun part more => and_congr (hpart part) (and_congr_left' hps)

/-- What the pieces of a pattern are read as does not depend on where they stand. -/
theorem Spells.toParts_congr {cs : List Char} {ps : List Piece} (h : Spells cs ps) {pos pos' : Nat}
    {p : Pattern} : Regex.toParts pos ps = .ok p ↔ Regex.toParts pos' ps = .ok p := by
  induction h generalizing pos pos' p with
  | nil => rfl
  | run _ ih | one _ ih | char _ _ _ _ ih =>
      refine toParts_cons_congr (fun part => ?_) ih
      rfl
  | set _ _ _ ih =>
      refine toParts_cons_congr (fun part => ?_) ih
      rw [toPart_setPiece_eq_ok_iff, toPart_setPiece_eq_ok_iff]

/-- A pattern that spells a piece and then what the rest of it spells is read as the part of the
piece and then what the rest is read as. -/
theorem read_cons_eq_ok_iff {cs rest : List Char} {p : Piece} {parts : Pattern}
    (hspells : ∀ {ps}, Spells cs ps ↔ ∃ more, Spells rest more ∧ ps = p :: more) :
    read cs = .ok parts ↔
      ∃ part more, p.toPart 1 = .ok part ∧ read rest = .ok more ∧ parts = part :: more := by
  simp only [read_eq_ok_iff, hspells]
  constructor
  · rintro ⟨_, ⟨ps, hps, rfl⟩, h⟩
    obtain ⟨part, more, hpart, hmore, rfl⟩ := toParts_cons_eq_ok_iff.mp h
    exact ⟨part, more, hpart, ⟨ps, hps, hps.toParts_congr.mp hmore⟩, rfl⟩
  · rintro ⟨part, more, hpart, ⟨ps, hps, hmore⟩, rfl⟩
    have hread : Regex.toParts 1 (p :: ps) = .ok (part :: more) :=
      toParts_cons_eq_ok_iff.mpr ⟨part, more, hpart, hps.toParts_congr.mp hmore, rfl⟩
    exact ⟨_, ⟨ps, hps, rfl⟩, hread⟩

theorem read_nil : read [] = .ok [] :=
  read_eq_ok_iff.mpr ⟨[], .nil, rfl⟩

theorem read_run_iff {rest : List Char} {p : Pattern} :
    read ('%' :: rest) = .ok p ↔ ∃ more, read rest = .ok more ∧ p = .run :: more := by
  simp [read_cons_eq_ok_iff spells_run_iff, Piece.toPart]

theorem read_one_iff {rest : List Char} {p : Pattern} :
    read ('_' :: rest) = .ok p ↔ ∃ more, read rest = .ok more ∧ p = .one :: more := by
  simp [read_cons_eq_ok_iff spells_one_iff, Piece.toPart]

theorem read_char_iff {c : Char} {rest : List Char} {p : Pattern} (hrun : c ≠ '%') (hone : c ≠ '_')
    (hset : c ≠ '[') :
    read (c :: rest) = .ok p ↔ ∃ more, read rest = .ok more ∧ p = .char c :: more := by
  simp [read_cons_eq_ok_iff (spells_char_iff hrun hone hset), Piece.toPart]

/-- A pattern with a set that is not closed is not read. -/
theorem read_unterminated {text : List Char} (h : ']' ∉ text) (p : Pattern) :
    read ('[' :: text) ≠ .ok p := by
  rw [Ne, read_eq_ok_iff]
  exact fun ⟨_, hspells, _⟩ => not_spells_unterminated h hspells

/-- A set is read as the ranges of its operands when these are in order. -/
theorem read_set_iff {set rest : List Char} {p : Pattern} (hset : ']' ∉ set) :
    read ('[' :: set ++ ']' :: rest) = .ok p ↔
      (body set ≠ [] ∧ OperandsInOrder (body set)) ∧ ∃ more, read rest = .ok more ∧
        p = .set (set.head? == some '^') (.ofTexts (bodyOperands (body set))) :: more := by
  by_cases hbody : body set = []
  · refine iff_of_false (fun h => ?_) fun h => h.1.1 hbody
    obtain ⟨_, hspells, -⟩ := read_eq_ok_iff.mp h
    exact ((spells_set_iff hset).mp hspells).1 hbody
  · have hspells {ps : List Piece} : Spells ('[' :: set ++ ']' :: rest) ps ↔
        ∃ more, Spells rest more ∧ ps = setPiece set :: more := by
      rw [spells_set_iff hset, and_iff_right hbody]
    rw [read_cons_eq_ok_iff hspells]
    simp only [toPart_setPiece_eq_ok_iff, and_assoc, exists_and_left, exists_eq_left, hbody,
      not_false_eq_true, ne_eq, true_and]

end Selection.Pattern
