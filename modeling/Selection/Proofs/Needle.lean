import Selection.Proofs.Like
import Selection.Sql.Lowering

/-! # The patterns of text tests

The pattern that stands for a text test in SQL holds the part as it is: a wildcard in it becomes a
set with that character alone, so the only runs are those before and after the part. Matching in
memory accepts the pattern, and it matches the texts that pass the test.
-/

namespace Selection

namespace Pattern

/-! ## Sets of one character -/

/-- A body of one character is in order. -/
theorem operandsInOrder_singleton (c : Char) : OperandsInOrder [c] := by
  simp [OperandsInOrder, bodyOperands, pieces, InOrder, textRanges]

/-- A body of one character holds that character. -/
theorem inOperands_singleton_iff {c d : Char} : InOperands [c] d ↔ d = c := by
  have hranges : InRanges [c] d ↔ d = c := by
    simp only [InRanges, textRanges, List.mem_singleton, exists_eq_left]
    exact ⟨fun h => Char.le_antisymm h.2 h.1, fun h => h ▸ ⟨Char.le_refl _, Char.le_refl _⟩⟩
  simpa [InOperands, bodyOperands, pieces] using hranges

/-! ## Parts in patterns -/

open Sql (escapeWildcards)

theorem escapeWildcards_plain {c : Char} (hset : c ≠ '[') (hrun : c ≠ '%') (hone : c ≠ '_')
    (cs rest : List Char) :
    escapeWildcards (c :: cs) ++ rest = c :: (escapeWildcards cs ++ rest) := by
  simp [escapeWildcards, hset, hrun, hone]

theorem escapeWildcards_wildcard {c : Char} (h : c = '[' ∨ c = '%' ∨ c = '_')
    (cs rest : List Char) :
    escapeWildcards (c :: cs) ++ rest = '[' :: [c] ++ ']' :: (escapeWildcards cs ++ rest) := by
  simp [escapeWildcards, h]

/-- A character of a part is a wildcard, in a set of its own, or stands for itself. -/
theorem wildcard_cases (c : Char) :
    (c = '[' ∨ c = '%' ∨ c = '_') ∧ ']' ∉ [c] ∧ [c].head? ≠ some '^' ∨
      c ≠ '[' ∧ c ≠ '%' ∧ c ≠ '_' := by
  by_cases h : c = '[' ∨ c = '%' ∨ c = '_'
  · refine .inl ⟨h, ?_⟩
    rcases h with rfl | rfl | rfl <;> decide
  · exact .inr (by simpa only [not_or] using h)

/-- A part brings no fault into a pattern. -/
theorem hasFault_escapeWildcards_iff (cs rest : List Char) :
    HasFault .byOperands (escapeWildcards cs ++ rest) ↔ HasFault .byOperands rest := by
  induction cs with
  | nil => rfl
  | cons c cs ih =>
      rcases wildcard_cases c with ⟨hwildcard, hset, hcaret⟩ | ⟨hset, hrun, hone⟩
      · have horder : OperandsInOrder [c] := operandsInOrder_singleton c
        rw [escapeWildcards_wildcard hwildcard, hasFault_set_iff hset, body_of_ne_caret hcaret, ih]
        simp [Bodies.byOperands, horder]
      · rw [escapeWildcards_plain hset hrun hone, hasFault_char_iff hset, ih]

/-- A part in a pattern matches itself. -/
theorem matches_escapeWildcards_iff {cs rest text : List Char} :
    Matches InOperands (escapeWildcards cs ++ rest) text ↔
      ∃ more, text = cs ++ more ∧ Matches InOperands rest more := by
  induction cs generalizing text with
  | nil => simp [escapeWildcards]
  | cons c cs ih =>
      have hstep : Matches InOperands (escapeWildcards (c :: cs) ++ rest) text ↔
          ∃ left, text = c :: left ∧ Matches InOperands (escapeWildcards cs ++ rest) left := by
        rcases wildcard_cases c with ⟨hwildcard, hset, hcaret⟩ | ⟨hset, hrun, hone⟩
        · rw [escapeWildcards_wildcard hwildcard, matches_set_iff hset]
          simp [setAccepts_of_ne_caret hcaret, inOperands_singleton_iff]
        · rw [escapeWildcards_plain hset hrun hone, matches_char_iff hrun hone hset]
      rw [hstep]
      constructor
      · rintro ⟨left, rfl, h⟩
        obtain ⟨more, rfl, hmore⟩ := ih.mp h
        exact ⟨more, rfl, hmore⟩
      · rintro ⟨more, rfl, hmore⟩
        exact ⟨cs ++ more, rfl, ih.mpr ⟨more, rfl, hmore⟩⟩

/-- A run at the end of a pattern matches the rest of a text. -/
theorem matches_last_run {holds : List Char → Char → Prop} (text : List Char) :
    Matches holds ['%'] text := by
  simpa using Matches.run text .nil

end Pattern

/-- A text occurs in another when it is an infix of it. -/
theorem Text.occursIn_iff_infix {needle text : List Char} :
    Text.occursIn needle text = true ↔ needle <:+: text := by
  induction text with
  | nil => simp [Text.occursIn]
  | cons c rest ih =>
      rw [Text.occursIn, Bool.or_eq_true, ih, List.isPrefixOf_iff_prefix, List.infix_cons_iff]

namespace Sql

open Pattern

/-- The pattern of a text test has no fault. -/
theorem not_hasFault_likePattern (test : TextTest) (part : String) :
    ¬HasFault .byOperands (likePattern test part).toList := by
  have hrun : '%' ≠ '[' := by decide
  have hpart : ¬HasFault .byOperands (escapeWildcards part.toList) := by
    rw [← List.append_nil (escapeWildcards part.toList), hasFault_escapeWildcards_iff]
    exact not_hasFault_nil
  have hbefore : ¬HasFault .byOperands (escapeWildcards part.toList ++ ['%']) :=
    mt (hasFault_escapeWildcards_iff _ _).mp (mt (hasFault_char_iff hrun).mp not_hasFault_nil)
  cases test <;> simp only [likePattern, String.toList_ofList]
  case contains => exact mt (hasFault_char_iff hrun).mp hbefore
  case startsWith => exact hbefore
  case endsWith => exact mt (hasFault_char_iff hrun).mp hpart

/-- The pattern of a text test matches the texts that pass the test. -/
theorem matches_likePattern_iff (test : TextTest) (part text : String) :
    Matches InOperands (likePattern test part).toList text.toList ↔
      test.holds text part = true := by
  have hpart (text : List Char) :
      Matches InOperands (escapeWildcards part.toList) text ↔ text = part.toList := by
    rw [← List.append_nil (escapeWildcards part.toList), matches_escapeWildcards_iff]
    simp [matches_nil_iff]
  -- Escaped, the part matches itself alone, and the runs around it any text.
  have hbefore (text : List Char) :
      Matches InOperands (escapeWildcards part.toList ++ ['%']) text ↔
        ∃ more, text = part.toList ++ more := by
    simp only [matches_escapeWildcards_iff, matches_last_run, and_true]
  cases test <;> simp only [likePattern, String.toList_ofList, TextTest.holds]
  case contains =>
    rw [List.cons_append, matches_run_iff, Text.occursIn_iff_infix]
    constructor
    · rintro ⟨before, rest, htext, h⟩
      obtain ⟨after, rfl⟩ := (hbefore rest).mp h
      exact ⟨before, after, by rw [htext, List.append_assoc]⟩
    · rintro ⟨before, after, htext⟩
      exact ⟨before, _, by rw [← htext, List.append_assoc], (hbefore _).mpr ⟨after, rfl⟩⟩
  case startsWith =>
    rw [hbefore, List.isPrefixOf_iff_prefix]
    exact exists_congr fun _ => eq_comm
  case endsWith =>
    rw [matches_run_iff, List.isSuffixOf_iff_suffix]
    simp only [hpart, and_comm, exists_eq_left]
    exact exists_congr fun _ => eq_comm

/-- Matching in memory gives the pattern of a text test the verdict of the test. -/
theorem likePattern_holds (test : TextTest) (part : String) :
    ∃ holds, Compile.patternHolds false (.string (likePattern test part)) = .ok holds ∧
      ∀ text, holds text = test.holds text part := by
  obtain ⟨holds, hread, hholds⟩ :=
    (emulates_byOperands (likePattern test part)).matching (not_hasFault_likePattern test part)
  exact ⟨holds, hread, fun text =>
    Bool.eq_iff_iff.mpr ((hholds text).trans (matches_likePattern_iff test part text))⟩

end Sql

end Selection
