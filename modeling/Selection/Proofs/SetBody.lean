import Mathlib.Data.List.Basic
import Mathlib.Order.Basic
import Selection.Pattern.Translation

/-! # The body of a set

The body of a set is read from the left: two characters with a hyphen between them are a range, and
any other character stands for itself. The class that a body is written as is read like that with
one exception. Two hyphens in a row, with a character of the body before them and one after them,
divide the body: the class holds what its first operand holds and none of the others does. A body
that is not divided has itself as its only operand.
-/

namespace Selection.Pattern

/-! ## Reading a body -/

/-- The ranges of a text, read from the left. -/
def textRanges : List Char → List Range
  | [] => []
  | a :: '-' :: b :: rest => ⟨a, b⟩ :: textRanges rest
  | c :: rest => ⟨c, c⟩ :: textRanges rest

/-- No range of a text is reversed. -/
def InOrder (text : List Char) : Prop :=
  ∀ r ∈ textRanges text, r.first ≤ r.last

/-- A character lies in a range of a text. -/
def InRanges (text : List Char) (c : Char) : Prop :=
  ∃ r ∈ textRanges text, r.first ≤ c ∧ c ≤ r.last

/-- The pieces between every two hyphens in a row that a character follows. -/
def pieces : List Char → List (List Char)
  | [] => [[]]
  | '-' :: '-' :: c :: rest => [] :: pieces (c :: rest)
  | c :: rest => (pieces rest).modifyHead (c :: ·)

/-- The operands of a body. A hyphen at its start stands for itself. -/
def bodyOperands : List Char → List (List Char)
  | [] => [[]]
  | c :: rest => (pieces rest).modifyHead (c :: ·)

/-- No range of an operand of a body is reversed. -/
def OperandsInOrder (body : List Char) : Prop :=
  ∀ operand ∈ bodyOperands body, InOrder operand

/-- A character lies in a range of the first operand of a body, and in none of the others. -/
def InOperands (body : List Char) (c : Char) : Prop :=
  (∃ operand ∈ (bodyOperands body).head?, InRanges operand c) ∧
    ∀ operand ∈ (bodyOperands body).tail, ¬InRanges operand c

/-- Two hyphens in a row stand inside a body. -/
def Divided (body : List Char) : Prop :=
  ∃ before after, before ≠ [] ∧ after ≠ [] ∧ body = before ++ '-' :: '-' :: after

/-- A character that no hyphen and further character follow stands for itself. -/
theorem textRanges_cons {c : Char} {rest : List Char} (h : ∀ b more, rest ≠ '-' :: b :: more) :
    textRanges (c :: rest) = ⟨c, c⟩ :: textRanges rest := by
  rw [textRanges]
  intro b more hrest
  exact h b more hrest

/-- A character that is no hyphen, or the last one, goes into the first piece. -/
theorem pieces_member {c : Char} {rest : List Char} (h : c = '-' → rest = []) :
    pieces (c :: rest) = (pieces rest).modifyHead (c :: ·) := by
  rw [pieces]
  rintro b more rfl hrest
  rw [h rfl] at hrest
  contradiction

theorem pieces_hyphen {c : Char} {rest : List Char} (h : c = '-' → rest = []) :
    pieces ('-' :: c :: rest) = (pieces (c :: rest)).modifyHead ('-' :: ·) := by
  rw [pieces]
  rintro b more - hrest
  obtain ⟨rfl, rfl⟩ := List.cons.inj hrest
  exact absurd (h rfl) (List.cons_ne_nil _ _)

/-- Induction on the rest of a body: its characters are members, hyphens before a member, and pairs
of hyphens before more. -/
theorem body_induction {motive : List Char → Prop} (nil : motive [])
    (member : ∀ c rest, (c = '-' → rest = []) → motive rest → motive (c :: rest))
    (hyphen : ∀ c rest, (c = '-' → rest = []) → motive rest → motive ('-' :: c :: rest))
    (pair : ∀ c rest, motive (c :: rest) → motive ('-' :: '-' :: c :: rest)) :
    ∀ text, motive text
  | [] => nil
  | c :: rest => by
    by_cases hc : c = '-' → rest = []
    · exact member c rest hc (body_induction nil member hyphen pair rest)
    · obtain ⟨rfl, hrest⟩ := Classical.not_imp.mp hc
      obtain ⟨d, more, rfl⟩ := List.exists_cons_of_ne_nil hrest
      by_cases hd : d = '-' → more = []
      · exact hyphen d more hd (body_induction nil member hyphen pair more)
      · obtain ⟨rfl, hmore⟩ := Classical.not_imp.mp hd
        obtain ⟨e, last, rfl⟩ := List.exists_cons_of_ne_nil hmore
        exact pair e last (body_induction nil member hyphen pair (e :: last))
termination_by text => text.length

/-! ## The marks of a body -/

open Regex (Mark operands)

/-- A character as a class holds it. -/
def mark (c : Char) : Mark :=
  .member c (isMeta c)

/-- The marks of the characters of a body; `hasMember` tells whether a member came before. -/
def marks (hasMember : Bool) : List Char → List Mark
  | [] => []
  | '-' :: rest => (if hasMember && !rest.isEmpty then .hyphen else mark '-') :: marks true rest
  | c :: rest => mark c :: marks true rest

/-- A character that is no bare hyphen is a member. -/
theorem marks_member {c : Char} {rest : List Char} {hasMember : Bool}
    (h : c = '-' → hasMember = true → rest = []) :
    marks hasMember (c :: rest) = mark c :: marks true rest := by
  by_cases hc : c = '-'
  · subst hc
    rw [marks]
    cases hasMember with
    | false => rfl
    | true => rw [h rfl rfl]; rfl
  · rw [marks]
    exact hc

/-- A body is written mark by mark, up to its closing bracket. -/
theorem classText?_append {body : List Char} (hbody : ']' ∉ body) (members : Nat)
    (rest : List Char) :
    ∃ count, classText? members (body ++ ']' :: rest) =
        some (count, (marks (0 < members) body).flatMap Mark.text, rest) ∧
      (count = 0 ↔ members = 0 ∧ body = []) := by
  induction body generalizing members with
  | nil => exact ⟨members, rfl, by simp⟩
  | cons c more ih =>
      obtain ⟨hc, hmore⟩ := not_or.mp (mt List.mem_cons.mpr hbody)
      -- The hyphen is bare in the text for the reason that it is one among the marks.
      have hnext : ((more ++ ']' :: rest).head?.any (· != ']')) = !more.isEmpty := by
        cases more with
        | nil => rfl
        | cons d more => simpa using fun hd : d = ']' => hmore (hd ▸ List.mem_cons_self)
      rw [List.cons_append, classText?.eq_3 _ _ _ fun h => hc h.symm, hnext]
      by_cases hbare : c = '-' ∧ 0 < members ∧ (!more.isEmpty) = true
      · obtain ⟨rfl, hmembers, hne⟩ := hbare
        obtain ⟨count, hcount, hzero⟩ := ih hmore members
        refine ⟨count, ?_, ?_⟩
        · rw [if_pos ⟨rfl, hmembers, hne⟩, hcount, marks]
          simp [hmembers, hne, Mark.text]
        · rw [hzero]
          simp [Nat.pos_iff_ne_zero.mp hmembers]
      · obtain ⟨count, hcount, hzero⟩ := ih hmore (members + 1)
        have hmark : marks (0 < members) (c :: more) = mark c :: marks true more :=
          marks_member fun hhyphen hmembers => not_not.mp fun hne =>
            hbare ⟨hhyphen, of_decide_eq_true hmembers, by simpa using hne⟩
        refine ⟨count, ?_, ?_⟩
        · rw [if_neg hbare, hcount, hmark]
          simp [mark, Mark.text, escape]
        · rw [hzero]
          simp

theorem classText?_eq_none {cs : List Char} (h : ']' ∉ cs) (members : Nat) :
    classText? members cs = none := by
  fun_induction classText? members cs <;> simp_all

/-! ## Operands of marks -/

/-- Marks are read as the ranges of some texts, or refused for a reversed range of one, wherever
they stand. -/
inductive Reads (ms : List Mark) (texts : List (List Char)) : Prop
  | ok (hread : ∀ pos, operands pos ms = .ok (texts.map textRanges))
      (horder : ∀ text ∈ texts, InOrder text)
  | reversed (hread : ∀ pos, ∃ span, operands pos ms = .error span)
      (hreversed : ¬∀ text ∈ texts, InOrder text)

/-- A text with one more range in front is in order when the range is, and the text. -/
theorem inOrder_iff {text text' : List Char} {r : Range}
    (h : textRanges text' = r :: textRanges text) :
    InOrder text' ↔ r.first ≤ r.last ∧ InOrder text := by
  simp only [InOrder, h, List.forall_mem_cons]

/-- A range read in front goes into the first text. -/
theorem Reads.into {ms ms' : List Mark} {text text' : List Char} {others : List (List Char)}
    (r : Range) (h : Reads ms (text :: others)) (htext : textRanges text' = r :: textRanges text)
    (hread : ∀ pos, ∃ after span, operands pos ms' =
      if r.first ≤ r.last then (operands after ms).map (Regex.intoFirst r) else .error span) :
    Reads ms' (text' :: others) := by
  by_cases hr : r.first ≤ r.last
  · cases h with
    | ok hmore horder =>
        refine .ok (fun pos => ?_) ?_
        · obtain ⟨after, _, hpos⟩ := hread pos
          rw [hpos, if_pos hr, hmore, List.map_cons, List.map_cons, htext]
          rfl
        · rw [List.forall_mem_cons, inOrder_iff htext]
          exact ⟨⟨hr, (List.forall_mem_cons.mp horder).1⟩, (List.forall_mem_cons.mp horder).2⟩
    | reversed hmore hreversed =>
        refine .reversed (fun pos => ?_) fun horder => hreversed ?_
        · obtain ⟨after, _, hpos⟩ := hread pos
          obtain ⟨span, hspan⟩ := hmore after
          exact ⟨span, by rw [hpos, if_pos hr, hspan]; rfl⟩
        · rw [List.forall_mem_cons, inOrder_iff htext] at horder
          exact List.forall_mem_cons.mpr ⟨horder.1.2, horder.2⟩
  · refine .reversed (fun pos => ?_) fun horder => hr ?_
    · obtain ⟨_, span, hpos⟩ := hread pos
      exact ⟨span, hpos.trans (if_neg hr)⟩
    · exact ((inOrder_iff htext).mp (List.forall_mem_cons.mp horder).1).1

/-- A character read in front goes into the first text. -/
theorem Reads.single {ms ms' : List Mark} {text text' : List Char} {others : List (List Char)}
    (c : Char) (h : Reads ms (text :: others))
    (htext : textRanges text' = ⟨c, c⟩ :: textRanges text)
    (hread : ∀ pos, ∃ after,
      operands pos ms' = (operands after ms).map (Regex.intoFirst ⟨c, c⟩)) :
    Reads ms' (text' :: others) := by
  refine h.into ⟨c, c⟩ htext fun pos => ?_
  obtain ⟨after, hpos⟩ := hread pos
  exact ⟨after, ⟨pos, after⟩, hpos.trans (if_pos (Char.le_refl c)).symm⟩

/-- Two hyphens in a row cut off a text of their own. -/
theorem Reads.divide {ms : List Mark} {texts : List (List Char)} (h : Reads ms texts) :
    Reads (.hyphen :: .hyphen :: ms) ([] :: texts) := by
  cases h with
  | ok hread horder =>
      refine .ok (fun pos => ?_) (List.forall_mem_cons.mpr ⟨?_, horder⟩)
      · rw [operands, hread]
        rfl
      · simp [InOrder, textRanges]
  | reversed hread hreversed =>
      refine .reversed (fun pos => ?_) fun horder => hreversed ?_
      · obtain ⟨span, hspan⟩ := hread (pos + 2)
        exact ⟨span, by rw [operands, hspan]; rfl⟩
      · exact (List.forall_mem_cons.mp horder).2

theorem exists_pieces (text : List Char) : ∃ first others, pieces text = first :: others := by
  fun_induction pieces text with
  | case1 => exact ⟨_, _, rfl⟩
  | case2 => exact ⟨_, _, rfl⟩
  | case3 c rest _ ih =>
      obtain ⟨first, others, h⟩ := ih
      exact ⟨c :: first, others, by rw [h]; rfl⟩

/-- A member that starts a piece makes no range with the character in front. -/
theorem textRanges_before_member {d : Char} {rest first : List Char} {others : List (List Char)}
    (hd : d = '-' → rest = []) (hpieces : pieces rest = first :: others) (c : Char) :
    textRanges (c :: d :: first) = ⟨c, c⟩ :: textRanges (d :: first) := by
  refine textRanges_cons fun b more h => ?_
  obtain ⟨rfl, hfirst⟩ := List.cons.inj h
  rw [hd rfl] at hpieces
  have hnil : first = [] := (List.cons.inj hpieces).1.symm
  rw [hnil] at hfirst
  contradiction

/-- The marks after a member are read as the pieces, and with a member in front as the pieces with
its character in front. -/
theorem reads_pieces (text : List Char) :
    Reads (marks true text) (pieces text) ∧
      ∀ c, Reads (mark c :: marks true text) ((pieces text).modifyHead (c :: ·)) := by
  -- A hyphen may make the member in front the start of a range, so what is read with it does not
  -- follow from what is read without it, and both go through the induction.
  induction text using body_induction with
  | nil =>
      have hnil : Reads [] [[]] := .ok (fun _ => rfl) (by simp [InOrder, textRanges])
      exact ⟨hnil, fun c => hnil.single c rfl fun _ => ⟨_, rfl⟩⟩
  | member d rest hd ih =>
      obtain ⟨first, others, hpieces⟩ := exists_pieces rest
      have hmarks : marks true (d :: rest) = mark d :: marks true rest :=
        marks_member fun h _ => hd h
      have hread := ih.2 d
      rw [hmarks, pieces_member hd]
      refine ⟨hread, fun c => ?_⟩
      rw [hpieces] at hread ⊢
      exact hread.single c (textRanges_before_member hd hpieces c) fun _ => ⟨_, rfl⟩
  | hyphen d rest hd ih =>
      obtain ⟨first, others, hpieces⟩ := exists_pieces rest
      have hmarks : marks true ('-' :: d :: rest) = .hyphen :: mark d :: marks true rest := by
        rw [marks, marks_member fun h _ => hd h]
        rfl
      rw [hmarks, pieces_hyphen hd, pieces_member hd]
      have hrest := ih.1
      have hread := ih.2 d
      rw [hpieces] at hrest hread ⊢
      have hhyphen := textRanges_before_member hd hpieces '-'
      refine ⟨hread.single '-' hhyphen fun _ => ⟨_, rfl⟩, fun c => ?_⟩
      exact hrest.into ⟨c, d⟩ (by rw [textRanges]) fun _ => ⟨_, _, rfl⟩
  | pair d rest ih =>
      have hmarks : marks true ('-' :: '-' :: d :: rest) =
          .hyphen :: .hyphen :: marks true (d :: rest) := rfl
      rw [hmarks, pieces]
      exact ⟨ih.1.divide, fun c => ih.1.divide.single c rfl fun _ => ⟨_, rfl⟩⟩

/-- The marks of a body are read as its operands. -/
theorem reads_body (body : List Char) : Reads (marks false body) (bodyOperands body) := by
  cases body with
  | nil => exact .ok (fun _ => rfl) (by simp [InOrder, textRanges, bodyOperands])
  | cons c rest =>
      rw [marks_member (by simp)]
      exact (reads_pieces rest).2 c

/-- The set with the ranges of some texts. -/
def CharSet.ofTexts : List (List Char) → CharSet
  | [] => ⟨[], []⟩
  | first :: others => ⟨textRanges first, others.map textRanges⟩

/-- A body is read exactly when its operands are in order, and as the set of them. -/
theorem readSet_eq_ok_iff {pos : Nat} {body : List Char} {set : CharSet} :
    Regex.readSet pos (marks false body) = .ok set ↔
      OperandsInOrder body ∧ set = .ofTexts (bodyOperands body) := by
  cases reads_body body with
  | ok hread horder =>
      have hset : Regex.readSet pos (marks false body) = .ok (.ofTexts (bodyOperands body)) := by
        rw [Regex.readSet, hread]
        cases bodyOperands body <;> rfl
      rw [hset, Except.ok.injEq, eq_comm, iff_and_self]
      exact fun _ => horder
  | reversed hread hreversed =>
      obtain ⟨span, hspan⟩ := hread pos
      rw [Regex.readSet, hspan]
      exact iff_of_false nofun fun h => hreversed h.1

theorem holds_textRanges {text : List Char} {c : Char} :
    holds false (textRanges text) c = true ↔ InRanges text c := by
  simp [holds, Range.holds, InRanges]

/-- The set of the operands of a body holds what lies in them. -/
theorem holds_ofTexts {body : List Char} {c : Char} :
    (CharSet.ofTexts (bodyOperands body)).holds false c = true ↔ InOperands body c := by
  rw [InOperands]
  cases bodyOperands body with
  | nil => simp [CharSet.ofTexts, CharSet.holds, holds]
  | cons first others => simp [CharSet.ofTexts, CharSet.holds, ← holds_textRanges]

/-! ## Divided bodies -/

/-- Two hyphens in a row stand in a text, with more after them. -/
def Paired (text : List Char) : Prop :=
  ∃ before after, after ≠ [] ∧ text = before ++ '-' :: '-' :: after

/-- A body is divided when two hyphens in a row stand behind its first character, with more after
them. -/
theorem divided_cons_iff {c : Char} {rest : List Char} : Divided (c :: rest) ↔ Paired rest := by
  constructor
  · rintro ⟨before, after, hbefore, hafter, h⟩
    obtain ⟨d, before, rfl⟩ := List.exists_cons_of_ne_nil hbefore
    exact ⟨before, after, hafter, (List.cons.inj h).2⟩
  · rintro ⟨before, after, hafter, rfl⟩
    exact ⟨c :: before, after, List.cons_ne_nil _ _, hafter, rfl⟩

theorem not_paired_nil : ¬Paired [] := by
  rintro ⟨before, after, -, h⟩
  exact List.append_ne_nil_of_right_ne_nil _ (List.cons_ne_nil _ _) h.symm

theorem Paired.cons {text : List Char} (c : Char) : Paired text → Paired (c :: text) := by
  rintro ⟨before, after, hafter, rfl⟩
  exact ⟨c :: before, after, hafter, rfl⟩

theorem Paired.of_cons {c : Char} {text : List Char} (h : Paired (c :: text))
    (hc : ∀ after, after ≠ [] → c :: text ≠ '-' :: '-' :: after) : Paired text := by
  obtain ⟨before, after, hafter, heq⟩ := h
  cases before with
  | nil => exact absurd heq (hc after hafter)
  | cons d before => exact ⟨before, after, hafter, (List.cons.inj heq).2⟩

/-- A member in front of a text makes no two hyphens in a row. -/
theorem Paired.of_member {c : Char} {rest : List Char} (hc : c = '-' → rest = [])
    (h : Paired (c :: rest)) : Paired rest := by
  refine h.of_cons fun after _ heq => ?_
  obtain ⟨rfl, rfl⟩ := List.cons.inj heq
  exact absurd (hc rfl) (List.cons_ne_nil _ _)

theorem Paired.of_hyphen {c : Char} {rest : List Char} (hc : c = '-' → rest = [])
    (h : Paired ('-' :: c :: rest)) : Paired rest := by
  refine (h.of_cons fun after hafter heq => hafter ?_).of_member hc
  obtain ⟨rfl, rfl⟩ := List.cons.inj (List.cons.inj heq).2
  exact hc rfl

/-- A text without two hyphens in a row has itself as its only piece. -/
theorem pieces_of_not_paired {text : List Char} (h : ¬Paired text) : pieces text = [text] := by
  induction text using body_induction with
  | nil => rfl
  | member c rest hc ih => rw [pieces_member hc, ih (mt (Paired.cons c) h)]; rfl
  | hyphen c rest hc ih =>
      rw [pieces_hyphen hc, pieces_member hc, ih fun hrest => h ((hrest.cons c).cons '-')]
      rfl
  | pair c rest ih => exact absurd ⟨[], c :: rest, List.cons_ne_nil _ _, rfl⟩ h

/-- Of a text with two hyphens in a row, what follows the last two is a piece. -/
theorem exists_suffix_piece {text : List Char} (h : Paired text) :
    ∃ piece ∈ (pieces text).tail, piece ≠ [] ∧ piece <:+ text := by
  induction text using body_induction with
  | nil => exact absurd h not_paired_nil
  | member c rest hc ih =>
      obtain ⟨piece, hmem, hne, hsuffix⟩ := ih (h.of_member hc)
      rw [pieces_member hc, List.tail_modifyHead]
      exact ⟨piece, hmem, hne, hsuffix.trans (List.suffix_cons c rest)⟩
  | hyphen c rest hc ih =>
      obtain ⟨piece, hmem, hne, hsuffix⟩ := ih (h.of_hyphen hc)
      rw [pieces_hyphen hc, pieces_member hc, List.tail_modifyHead, List.tail_modifyHead]
      exact ⟨piece, hmem, hne, hsuffix.trans (List.suffix_append ['-', c] rest)⟩
  | pair c rest ih =>
      rw [pieces, List.tail_cons]
      have hsuffix : c :: rest <:+ '-' :: '-' :: c :: rest := List.suffix_append ['-', '-'] _
      by_cases hrest : Paired (c :: rest)
      · obtain ⟨piece, hmem, hne, hpiece⟩ := ih hrest
        exact ⟨piece, List.mem_of_mem_tail hmem, hne, hpiece.trans hsuffix⟩
      · rw [pieces_of_not_paired hrest]
        exact ⟨c :: rest, List.mem_singleton_self _, List.cons_ne_nil _ _, hsuffix⟩

/-- The last character of a text ends a range of it. -/
theorem exists_range_last {text : List Char} {c : Char} (h : text.getLast? = some c) :
    ∃ r ∈ textRanges text, r.last = c := by
  fun_induction textRanges text with
  | case1 => contradiction
  | case2 a b rest ih =>
      cases rest with
      | nil => exact ⟨⟨a, b⟩, List.mem_cons_self, Option.some.inj h⟩
      | cons d rest =>
          obtain ⟨r, hr, hlast⟩ := ih h
          exact ⟨r, List.mem_cons_of_mem _ hr, hlast⟩
  | case3 d rest _ ih =>
      cases rest with
      | nil => exact ⟨⟨d, d⟩, List.mem_cons_self, Option.some.inj h⟩
      | cons e rest =>
          obtain ⟨r, hr, hlast⟩ := ih h
          exact ⟨r, List.mem_cons_of_mem _ hr, hlast⟩

/-- The last character of a text in order lies in a range of it. -/
theorem inRanges_last {text : List Char} {c : Char} (horder : InOrder text)
    (h : text.getLast? = some c) : InRanges text c := by
  obtain ⟨r, hr, rfl⟩ := exists_range_last h
  exact ⟨r, hr, horder r hr, Char.le_refl _⟩

/-- A body that is not divided has itself as its only operand. -/
theorem bodyOperands_of_not_divided {body : List Char} (h : ¬Divided body) :
    bodyOperands body = [body] := by
  cases body with
  | nil => rfl
  | cons c rest => rw [bodyOperands, pieces_of_not_paired (mt divided_cons_iff.mpr h)]; rfl

/-- A body that is not divided has its operands in order when it is. -/
theorem operandsInOrder_iff {body : List Char} (h : ¬Divided body) :
    OperandsInOrder body ↔ InOrder body := by
  rw [OperandsInOrder, bodyOperands_of_not_divided h, List.forall_mem_singleton]

/-- A body that is not divided holds what lies in its ranges. -/
theorem inOperands_iff {body : List Char} (h : ¬Divided body) (c : Char) :
    InOperands body c ↔ InRanges body c := by
  simp [InOperands, bodyOperands_of_not_divided h]

/-- A divided body in order does not hold its last character, which lies in a range of it. -/
theorem exists_inRanges_of_divided {body : List Char} (h : Divided body) (hbody : InOrder body)
    (hoperands : OperandsInOrder body) : ∃ c, InRanges body c ∧ ¬InOperands body c := by
  obtain ⟨c, rest, rfl⟩ := List.exists_cons_of_ne_nil (l := body) (by
    rintro rfl
    obtain ⟨before, after, -, -, h⟩ := h
    simp at h)
  obtain ⟨piece, hmem, hne, before, rfl⟩ := exists_suffix_piece (divided_cons_iff.mp h)
  have htail : piece ∈ (bodyOperands (c :: (before ++ piece))).tail := by
    rw [bodyOperands, List.tail_modifyHead]
    exact hmem
  have hlast : piece.getLast? = some (piece.getLast hne) := List.getLast?_eq_some_getLast hne
  refine ⟨piece.getLast hne, inRanges_last hbody ?_, fun hholds => ?_⟩
  · rw [← List.cons_append, List.getLast?_append, hlast]
    rfl
  · have horder := hoperands piece (List.mem_of_mem_tail htail)
    exact hholds.2 piece htail (inRanges_last horder hlast)

/-- A body is divided when it has more than one operand. -/
theorem divided_iff {body : List Char} : Divided body ↔ (bodyOperands body).tail ≠ [] := by
  cases body with
  | nil =>
      refine iff_of_false ?_ (not_not_intro rfl)
      rintro ⟨before, after, -, -, h⟩
      exact List.append_ne_nil_of_right_ne_nil _ (List.cons_ne_nil _ _) h.symm
  | cons c rest =>
      rw [divided_cons_iff, bodyOperands, List.tail_modifyHead]
      constructor
      · intro h
        obtain ⟨piece, hmem, -⟩ := exists_suffix_piece h
        exact List.ne_nil_of_mem hmem
      · refine fun h => not_not.mp fun hrest => h ?_
        rw [pieces_of_not_paired hrest]
        rfl

instance : DecidablePred Divided :=
  fun _ => decidable_of_iff _ divided_iff.symm

instance : DecidablePred InOrder :=
  fun text => inferInstanceAs (Decidable (∀ r ∈ textRanges text, r.first ≤ r.last))

instance (text : List Char) : DecidablePred (InRanges text) :=
  fun c => inferInstanceAs (Decidable (∃ r ∈ textRanges text, r.first ≤ c ∧ c ≤ r.last))

instance : DecidablePred OperandsInOrder :=
  fun body => inferInstanceAs (Decidable (∀ operand ∈ bodyOperands body, InOrder operand))

instance (body : List Char) : DecidablePred (InOperands body) :=
  fun c => inferInstanceAs (Decidable ((∃ operand ∈ (bodyOperands body).head?, InRanges operand c) ∧
    ∀ operand ∈ (bodyOperands body).tail, ¬InRanges operand c))

example : ¬Divided "-a-z".toList ∧ Divided "+--z".toList := by decide

end Selection.Pattern
