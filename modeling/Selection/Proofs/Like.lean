import Selection.Compile.Basic
import Selection.Proofs.Translation

/-! # The language of LIKE patterns

A pattern as it is written matches a text by the rules of `LIKE`, given how the body of a set is to
be read. Whether a body is in order, and which characters it holds, is the only thing the rules
leave open, so the matcher follows the rules for every pattern with bodies read by their operands,
and with bodies read from the left where no body is divided.
-/

namespace Selection.Pattern

/-! ## Patterns as they are written -/

/-- How the bodies of sets are read: which of them are in order, and which characters they hold. -/
structure Bodies where
  inOrder : List Char → Prop
  holds : List Char → Char → Prop

/-- Bodies read from the left. -/
def Bodies.fromLeft : Bodies := ⟨InOrder, InRanges⟩

/-- Bodies read by their operands. -/
def Bodies.byOperands : Bodies := ⟨OperandsInOrder, InOperands⟩

/-- The set with a text between its brackets accepts a character. -/
def SetAccepts (holds : List Char → Char → Prop) : List Char → Char → Prop
  | '^' :: rest, c => ¬holds rest c
  | text, c => holds text c

/-- A pattern matches the whole of a text. -/
inductive Matches (holds : List Char → Char → Prop) : List Char → List Char → Prop
  | nil : Matches holds [] []
  | run (skipped : List Char) {pattern text : List Char} :
      Matches holds pattern text → Matches holds ('%' :: pattern) (skipped ++ text)
  | one (c : Char) {pattern text : List Char} :
      Matches holds pattern text → Matches holds ('_' :: pattern) (c :: text)
  | set {set pattern text : List Char} {c : Char} : ']' ∉ set → SetAccepts holds set c →
      Matches holds pattern text → Matches holds ('[' :: set ++ ']' :: pattern) (c :: text)
  | char {c : Char} {pattern text : List Char} : c ≠ '%' → c ≠ '_' → c ≠ '[' →
      Matches holds pattern text → Matches holds (c :: pattern) (c :: text)

/-- A set opens in a pattern right before some rest of it. -/
inductive Opens : List Char → List Char → Prop
  | here (rest : List Char) : Opens ('[' :: rest) rest
  | afterChar {c : Char} {pattern rest : List Char} :
      c ≠ '[' → Opens pattern rest → Opens (c :: pattern) rest
  | afterSet {set pattern rest : List Char} :
      ']' ∉ set → Opens pattern rest → Opens ('[' :: set ++ ']' :: pattern) rest

/-- A pattern has a set with a text between its brackets. -/
def HasSet (pattern set : List Char) : Prop :=
  ']' ∉ set ∧ ∃ rest, Opens pattern (set ++ ']' :: rest)

/-- A pattern has a set that is unterminated, empty or not in order. -/
def HasFault (bodies : Bodies) (pattern : List Char) : Prop :=
  (∃ rest, Opens pattern rest ∧ ']' ∉ rest) ∨
    ∃ set, HasSet pattern set ∧ (body set = [] ∨ ¬bodies.inOrder (body set))

/-! ## Sets that open -/

theorem not_opens_nil (rest : List Char) : ¬Opens [] rest :=
  fun h => nomatch h

/-- A character that is no bracket opens no set in front of a pattern. -/
theorem opens_char_iff {c : Char} {pattern rest : List Char} (hc : c ≠ '[') :
    Opens (c :: pattern) rest ↔ Opens pattern rest := by
  constructor
  · intro h
    cases h with
    | here => exact absurd rfl hc
    | afterChar _ h => exact h
    | afterSet => exact absurd rfl hc
  · exact .afterChar hc

/-- In a pattern that begins with a set that one opens, and those of the rest. -/
theorem opens_set_iff {set pattern rest : List Char} (hset : ']' ∉ set) :
    Opens ('[' :: set ++ ']' :: pattern) rest ↔
      rest = set ++ ']' :: pattern ∨ Opens pattern rest := by
  constructor
  · generalize hwhole : '[' :: set ++ ']' :: pattern = whole
    rintro (_ | ⟨hc, -⟩ | ⟨hset', h⟩)
    · exact .inl (List.cons.inj hwhole).2.symm
    · exact absurd (List.cons.inj hwhole).1.symm hc
    · obtain ⟨-, rfl⟩ := set_inj hset hset' (List.cons.inj hwhole).2
      exact .inr h
  · rintro (rfl | h)
    · exact .here _
    · exact .afterSet hset h

theorem not_hasSet_nil (set : List Char) : ¬HasSet [] set :=
  fun ⟨_, _, h⟩ => not_opens_nil _ h

theorem hasSet_char_iff {c : Char} {pattern set : List Char} (hc : c ≠ '[') :
    HasSet (c :: pattern) set ↔ HasSet pattern set := by
  simp only [HasSet, opens_char_iff hc]

theorem hasSet_set_iff {set set' pattern : List Char} (hset : ']' ∉ set) :
    HasSet ('[' :: set ++ ']' :: pattern) set' ↔ set' = set ∨ HasSet pattern set' := by
  simp only [HasSet, opens_set_iff hset]
  constructor
  · rintro ⟨hset', rest, h | h⟩
    · exact .inl (set_inj hset' hset h).1
    · exact .inr ⟨hset', rest, h⟩
  · rintro (rfl | ⟨hset', rest, h⟩)
    · exact ⟨hset, pattern, .inl rfl⟩
    · exact ⟨hset', rest, .inr h⟩

variable {bodies : Bodies}

theorem not_hasFault_nil : ¬HasFault bodies [] := by
  simp [HasFault, not_opens_nil, not_hasSet_nil]

/-- A character in front of a pattern brings no fault. -/
theorem hasFault_char_iff {c : Char} {pattern : List Char} (hc : c ≠ '[') :
    HasFault bodies (c :: pattern) ↔ HasFault bodies pattern := by
  simp only [HasFault, opens_char_iff hc, hasSet_char_iff hc]

/-- A set that is not closed is a fault. -/
theorem hasFault_unterminated {text : List Char} (h : ']' ∉ text) :
    HasFault bodies ('[' :: text) :=
  .inl ⟨text, .here text, h⟩

/-- A pattern that begins with a set has the faults of that one and those of the rest. -/
theorem hasFault_set_iff {set pattern : List Char} (hset : ']' ∉ set) :
    HasFault bodies ('[' :: set ++ ']' :: pattern) ↔
      (body set = [] ∨ ¬bodies.inOrder (body set)) ∨ HasFault bodies pattern := by
  simp only [HasFault, opens_set_iff hset, hasSet_set_iff hset, or_and_right, exists_or,
    exists_eq_left]
  have hclosed : ¬(']' ∉ set ++ ']' :: pattern) := by simp
  rw [or_iff_right hclosed, or_left_comm]

/-! ## Texts that match -/

section Matches

variable {holds : List Char → Char → Prop} {pattern text : List Char}

/-- The empty pattern matches the empty text only. -/
theorem matches_nil_iff : Matches holds [] text ↔ text = [] := by
  constructor
  · intro h
    cases h
    rfl
  · rintro rfl
    exact .nil

theorem matches_run_iff : Matches holds ('%' :: pattern) text ↔
    ∃ skipped rest, text = skipped ++ rest ∧ Matches holds pattern rest := by
  constructor
  · intro h
    cases h with
    | run skipped h => exact ⟨skipped, _, rfl, h⟩
    | char hc => exact absurd rfl hc
  · rintro ⟨skipped, rest, rfl, h⟩
    exact .run skipped h

theorem matches_one_iff : Matches holds ('_' :: pattern) text ↔
    ∃ c rest, text = c :: rest ∧ Matches holds pattern rest := by
  constructor
  · intro h
    cases h with
    | one c h => exact ⟨c, _, rfl, h⟩
    | char _ hc => exact absurd rfl hc
  · rintro ⟨c, rest, rfl, h⟩
    exact .one c h

/-- A character that is no wildcard matches itself. -/
theorem matches_char_iff {c : Char} (hrun : c ≠ '%') (hone : c ≠ '_') (hset : c ≠ '[') :
    Matches holds (c :: pattern) text ↔ ∃ rest, text = c :: rest ∧ Matches holds pattern rest := by
  constructor
  · intro h
    cases h with
    | run => exact absurd rfl hrun
    | one => exact absurd rfl hone
    | set => exact absurd rfl hset
    | char _ _ _ h => exact ⟨_, rfl, h⟩
  · rintro ⟨rest, rfl, h⟩
    exact .char hrun hone hset h

theorem matches_set_iff {set : List Char} (hset : ']' ∉ set) :
    Matches holds ('[' :: set ++ ']' :: pattern) text ↔
      ∃ c rest, text = c :: rest ∧ SetAccepts holds set c ∧ Matches holds pattern rest := by
  constructor
  · generalize hwhole : '[' :: set ++ ']' :: pattern = whole
    rintro (_ | _ | _ | ⟨hset', hc, h⟩ | ⟨-, -, hc, -⟩)
    · contradiction
    · cases (List.cons.inj hwhole).1
    · cases (List.cons.inj hwhole).1
    · obtain ⟨rfl, rfl⟩ := set_inj hset hset' (List.cons.inj hwhole).2
      exact ⟨_, _, rfl, hc, h⟩
    · exact absurd (List.cons.inj hwhole).1.symm hc
  · rintro ⟨c, rest, rfl, hc, h⟩
    exact .set hset hc h

/-- A pattern with a set that is not closed matches nothing. -/
theorem not_matches_unterminated (h : ']' ∉ pattern) : ¬Matches holds ('[' :: pattern) text := by
  generalize hwhole : '[' :: pattern = whole
  rintro (_ | _ | _ | _ | ⟨-, -, hc, -⟩)
  · contradiction
  · cases (List.cons.inj hwhole).1
  · cases (List.cons.inj hwhole).1
  · refine absurd ?_ h
    rw [(List.cons.inj hwhole).2]
    simp
  · exact absurd (List.cons.inj hwhole).1.symm hc

end Matches

/-! ## Suffixes that a pattern accepts -/

theorem length_someLater (bs : List Bool) : (someLater bs).length = bs.length := by
  induction bs with
  | nil => rfl
  | cons b bs ih => simp [someLater, ih]

/-- There is one verdict for each suffix of a text. -/
theorem length_suffixes (ignoreCase : Bool) (text : List Char) (p : Pattern) :
    (suffixes ignoreCase text p).length = text.length + 1 := by
  fun_induction suffixes ignoreCase text p with
  | case1 => simp
  | case2 rest ih => rw [length_someLater, ih]
  | case3 p rest _ later ih => simp [later, ih]

theorem tail_someLater (bs : List Bool) : (someLater bs).tail = someLater bs.tail := by
  cases bs <;> rfl

/-- The suffixes of a longer text are judged alike. -/
theorem tail_suffixes (ignoreCase : Bool) (c : Char) (text : List Char) (p : Pattern) :
    (suffixes ignoreCase (c :: text) p).tail = suffixes ignoreCase text p := by
  -- By the parts of the pattern: each part judges a suffix by what the rest makes of it and of the
  -- shorter ones.
  fun_induction suffixes ignoreCase text p with
  | case1 => rfl
  | case2 rest ih => rw [suffixes, tail_someLater, ih]
  | case3 p rest hp later ih =>
      have hlength := length_suffixes ignoreCase text rest
      rw [suffixes, ih]
      · cases hlater : later with
        | nil => simp [later, hlater] at hlength
        | cons b bs => simp [later] at hlater; rw [hlater]; rfl
      · exact hp

theorem suffixes_eq_cons (ignoreCase : Bool) (text : List Char) (p : Pattern) :
    suffixes ignoreCase text p =
      accepts ignoreCase p text :: (suffixes ignoreCase text p).tail := by
  have hlength := length_suffixes ignoreCase text p
  rw [accepts]
  cases hcase : suffixes ignoreCase text p with
  | nil => simp [hcase] at hlength
  | cons b bs => rfl

/-- A longer text has one more suffix, and the others are judged as before. -/
theorem suffixes_cons (ignoreCase : Bool) (c : Char) (text : List Char) (p : Pattern) :
    suffixes ignoreCase (c :: text) p =
      accepts ignoreCase p (c :: text) :: suffixes ignoreCase text p := by
  rw [suffixes_eq_cons, tail_suffixes]

theorem accepts_nil_iff {ignoreCase : Bool} {text : List Char} :
    accepts ignoreCase [] text = true ↔ text = [] := by
  cases text <;> simp [accepts, suffixes]

theorem accepts_run_nil {ignoreCase : Bool} {p : Pattern} :
    accepts ignoreCase (.run :: p) [] = accepts ignoreCase p [] := by
  rw [accepts, suffixes]
  have hlength := length_suffixes ignoreCase [] p
  rw [suffixes_eq_cons] at hlength ⊢
  rw [List.eq_nil_of_length_eq_zero (Nat.succ.inj hlength)]
  exact Bool.or_false _

/-- A run skips a character or ends before it. -/
theorem accepts_run_cons {ignoreCase : Bool} {p : Pattern} (c : Char) (text : List Char) :
    accepts ignoreCase (.run :: p) (c :: text) =
      (accepts ignoreCase p (c :: text) || accepts ignoreCase (.run :: p) text) := by
  rw [accepts, suffixes, suffixes_cons]
  rfl

/-- A run skips any part of a text. -/
theorem accepts_run_iff {ignoreCase : Bool} {p : Pattern} {text : List Char} :
    accepts ignoreCase (.run :: p) text = true ↔
      ∃ skipped rest, text = skipped ++ rest ∧ accepts ignoreCase p rest = true := by
  induction text with
  | nil => simp [accepts_run_nil]
  | cons c text ih =>
      rw [accepts_run_cons, Bool.or_eq_true, ih]
      constructor
      · rintro (h | ⟨skipped, rest, rfl, h⟩)
        · exact ⟨[], _, rfl, h⟩
        · exact ⟨c :: skipped, rest, rfl, h⟩
      · rintro ⟨skipped, rest, htext, h⟩
        cases skipped with
        | nil => exact .inl (htext ▸ h)
        | cons d skipped => exact .inr ⟨skipped, rest, (List.cons.inj htext).2, h⟩

/-- A part that is no run takes a single character. -/
theorem accepts_part_iff {ignoreCase : Bool} {part : Part} {p : Pattern} {text : List Char}
    (hpart : part ≠ .run) : accepts ignoreCase (part :: p) text = true ↔
      ∃ c rest, text = c :: rest ∧ part.accepts ignoreCase c = true ∧
        accepts ignoreCase p rest = true := by
  have hstep : suffixes ignoreCase text (part :: p) =
      List.zipWith (fun c b => part.accepts ignoreCase c && b) text
        (suffixes ignoreCase text p).tail ++ [false] := by
    rw [suffixes]
    exact hpart
  rw [accepts, hstep]
  cases text with
  | nil => simp
  | cons c text =>
      rw [tail_suffixes, suffixes_eq_cons]
      simp [Bool.and_eq_true]

/-! ## The language -/

/-- A pattern is read exactly when it has no fault. -/
theorem exists_read_iff (cs : List Char) :
    (∃ p, read cs = .ok p) ↔ ¬HasFault .byOperands cs := by
  induction cs using pattern_induction with
  | nil => exact iff_of_true ⟨[], read_nil⟩ not_hasFault_nil
  | run rest ih => simpa [read_run_iff, hasFault_char_iff] using ih
  | one rest ih => simpa [read_one_iff, hasFault_char_iff] using ih
  | char c rest hrun hone hset ih =>
      simpa [read_char_iff hrun hone hset, hasFault_char_iff hset] using ih
  | unterminated rest hrest =>
      exact iff_of_false (fun ⟨p, h⟩ => read_unterminated hrest p h)
        (not_not_intro (hasFault_unterminated hrest))
  | set set rest hset ih =>
      rw [hasFault_set_iff hset, not_or, not_or, not_not, ← ih]
      constructor
      · rintro ⟨p, h⟩
        obtain ⟨hbody, more, hmore, -⟩ := (read_set_iff hset).mp h
        exact ⟨hbody, more, hmore⟩
      · rintro ⟨hbody, more, hmore⟩
        exact ⟨_, (read_set_iff hset).mpr ⟨hbody, more, hmore, rfl⟩⟩

/-- A set accepts what its body holds, or with a caret what it does not hold. -/
theorem setAccepts_iff {holds : List Char → Char → Prop} {set : List Char} {c : Char} :
    SetAccepts holds set c ↔ (holds (body set) c ↔ set.head? ≠ some '^') := by
  rw [SetAccepts.eq_def, body.eq_def]
  split
  · simp
  · rename_i hcaret
    simp [head?_ne_caret hcaret]

theorem body_of_ne_caret {set : List Char} (h : set.head? ≠ some '^') : body set = set := by
  rw [body.eq_def]
  split
  · exact absurd rfl h
  · rfl

/-- A set without a caret accepts what its body holds. -/
theorem setAccepts_of_ne_caret {holds : List Char → Char → Prop} {set : List Char} {c : Char}
    (h : set.head? ≠ some '^') : SetAccepts holds set c ↔ holds set c := by
  rw [setAccepts_iff, body_of_ne_caret h]
  exact iff_true_right h

/-- The part of a set accepts the characters the set does. -/
theorem accepts_set_iff {set : List Char} {c : Char} :
    (Part.set (set.head? == some '^') (.ofTexts (bodyOperands (body set)))).accepts false c =
      true ↔ SetAccepts InOperands set c := by
  rw [setAccepts_iff, ← holds_ofTexts, Part.accepts]
  cases (CharSet.ofTexts (bodyOperands (body set))).holds false c <;> simp

/-- What a pattern is read as accepts the texts that the pattern matches. -/
theorem accepts_iff_matches {cs : List Char} {p : Pattern} (h : read cs = .ok p)
    (text : List Char) : accepts false p text = true ↔ Matches InOperands cs text := by
  induction cs using pattern_induction generalizing p text with
  | nil =>
      obtain rfl : [] = p := Except.ok.inj (read_nil.symm.trans h)
      rw [accepts_nil_iff, matches_nil_iff]
  | run rest ih =>
      obtain ⟨more, hmore, rfl⟩ := read_run_iff.mp h
      simp only [accepts_run_iff, matches_run_iff, ih hmore]
  | one rest ih =>
      obtain ⟨more, hmore, rfl⟩ := read_one_iff.mp h
      simp [accepts_part_iff, matches_one_iff, ih hmore, Part.accepts]
  | char c rest hrun hone hset ih =>
      obtain ⟨more, hmore, rfl⟩ := (read_char_iff hrun hone hset).mp h
      simp [accepts_part_iff, matches_char_iff hrun hone hset, ih hmore, Part.accepts]
  | unterminated rest hrest => exact absurd h (read_unterminated hrest p)
  | set set rest hset ih =>
      obtain ⟨-, more, hmore, rfl⟩ := (read_set_iff hset).mp h
      have hpart {members : CharSet} : Part.set (set.head? == some '^') members ≠ .run := nofun
      rw [matches_set_iff hset, accepts_part_iff hpart]
      simp only [ih hmore, accepts_set_iff]

/-! ## Bodies that are not divided -/

/-- Faults depend on the order of the bodies of sets only. -/
theorem hasFault_congr {bodies bodies' : Bodies} {cs : List Char}
    (h : ∀ set, HasSet cs set → (bodies.inOrder (body set) ↔ bodies'.inOrder (body set))) :
    HasFault bodies cs ↔ HasFault bodies' cs := by
  refine or_congr_right (exists_congr fun set => and_congr_right fun hset => ?_)
  rw [h set hset]

/-- Matching depends on what the bodies of sets hold only. -/
theorem matches_congr {holds holds' : List Char → Char → Prop} {cs : List Char}
    (h : ∀ set, HasSet cs set → ∀ c, holds (body set) c ↔ holds' (body set) c) (text : List Char) :
    Matches holds cs text ↔ Matches holds' cs text := by
  induction cs using pattern_induction generalizing text with
  | nil => rw [matches_nil_iff, matches_nil_iff]
  | run rest ih =>
      have hrest := ih fun set hmem => h set ((hasSet_char_iff (by decide)).mpr hmem)
      simp only [matches_run_iff, hrest]
  | one rest ih =>
      have hrest := ih fun set hmem => h set ((hasSet_char_iff (by decide)).mpr hmem)
      simp only [matches_one_iff, hrest]
  | char c rest hrun hone hset ih =>
      have hrest := ih fun set hmem => h set ((hasSet_char_iff hset).mpr hmem)
      simp only [matches_char_iff hrun hone hset, hrest]
  | unterminated rest hrest =>
      exact iff_of_false (not_matches_unterminated hrest) (not_matches_unterminated hrest)
  | set set rest hset ih =>
      have hrest := ih fun other hmem => h other ((hasSet_set_iff hset).mpr (.inr hmem))
      have hbody := h set ((hasSet_set_iff hset).mpr (.inl rfl))
      simp only [matches_set_iff hset, setAccepts_iff, hbody, hrest]

/-- Matching in memory follows the rules of `LIKE`: a pattern is invalid exactly when it has a
fault, and any other is given a test that accepts the texts it matches. -/
structure Emulates (bodies : Bodies) (p : String) : Prop where
  invalid_iff : (∃ reason, Compile.patternHolds false (.string p) =
    .error (.invalidPattern p reason)) ↔ HasFault bodies p.toList
  matching : ¬HasFault bodies p.toList → ∃ test, Compile.patternHolds false (.string p) = .ok test ∧
    ∀ text : String, test text = true ↔ Matches bodies.holds p.toList text.toList

/-- Matching in memory follows the rules with bodies read by their operands. -/
theorem emulates_byOperands (p : String) : Emulates .byOperands p := by
  have hread := exists_read_iff p.toList
  cases hcase : read p.toList with
  | ok pattern =>
      have hfault : ¬HasFault .byOperands p.toList := hread.mp ⟨pattern, hcase⟩
      have hholds : Compile.patternHolds false (.string p) =
          .ok fun text => accepts false pattern text.toList := by
        simp only [Compile.patternHolds, hcase]
      refine ⟨iff_of_false ?_ hfault, fun _ => ⟨_, hholds, fun text => ?_⟩⟩
      · rintro ⟨reason, h⟩
        rw [hholds] at h
        contradiction
      · exact accepts_iff_matches hcase text.toList
  | error fault =>
      have hfault : HasFault .byOperands p.toList := by
        refine not_not.mp (mt hread.mpr ?_)
        rintro ⟨pattern, h⟩
        rw [hcase] at h
        contradiction
      refine ⟨iff_of_true ⟨fault.message, ?_⟩ hfault, fun h => absurd hfault h⟩
      simp only [Compile.patternHolds, hcase]

/-- Where no body of a set is divided, bodies read by their operands and from the left agree. -/
theorem emulates_fromLeft {p : String} (h : ∀ set, HasSet p.toList set → ¬Divided (body set)) :
    Emulates .fromLeft p := by
  have hemulates := emulates_byOperands p
  have hfault : HasFault .byOperands p.toList ↔ HasFault .fromLeft p.toList :=
    hasFault_congr fun set hset => operandsInOrder_iff (h set hset)
  have hmatches (text : List Char) :
      Matches InOperands p.toList text ↔ Matches InRanges p.toList text :=
    matches_congr (fun set hset => inOperands_iff (h set hset)) text
  refine ⟨hemulates.invalid_iff.trans hfault, fun hvalid => ?_⟩
  obtain ⟨test, htest, hholds⟩ := hemulates.matching (mt hfault.mp hvalid)
  exact ⟨test, htest, fun text => (hholds text).trans (hmatches text.toList)⟩

/-- Both readings of bodies are followed only where they find the same faults and match alike. -/
theorem Emulates.agree {bodies bodies' : Bodies} {p : String} (h : Emulates bodies p)
    (h' : Emulates bodies' p) :
    (HasFault bodies p.toList ↔ HasFault bodies' p.toList) ∧
      (¬HasFault bodies p.toList → ∀ text : String,
        (Matches bodies.holds p.toList text.toList ↔
          Matches bodies'.holds p.toList text.toList)) := by
  have hfault := h.invalid_iff.symm.trans h'.invalid_iff
  refine ⟨hfault, fun hvalid text => ?_⟩
  obtain ⟨test, htest, hholds⟩ := h.matching hvalid
  obtain ⟨test', htest', hholds'⟩ := h'.matching (mt hfault.mpr hvalid)
  obtain rfl : test = test' := Except.ok.inj (htest.symm.trans htest')
  exact (hholds text).symm.trans (hholds' text)

section Single

variable {set : List Char}

/-- A pattern that is one set has a fault just when the set is not in order. -/
theorem hasFault_single_iff {bodies : Bodies} (hset : ']' ∉ set) (hne : set ≠ [])
    (hcaret : set.head? ≠ some '^') :
    HasFault bodies ('[' :: set ++ [']']) ↔ ¬bodies.inOrder set := by
  rw [hasFault_set_iff hset, body_of_ne_caret hcaret, or_iff_left not_hasFault_nil,
    or_iff_right hne]

/-- A pattern that is one set matches the single characters it holds. -/
theorem matches_single_iff {holds : List Char → Char → Prop} {c : Char} (hset : ']' ∉ set)
    (hcaret : set.head? ≠ some '^') : Matches holds ('[' :: set ++ [']']) [c] ↔ holds set c := by
  rw [matches_set_iff hset]
  simp [matches_nil_iff, setAccepts_of_ne_caret hcaret]

/-- A single set is read from the left exactly when it is not divided. -/
theorem emulates_single_iff (hset : ']' ∉ set) (hne : set ≠ []) (hcaret : set.head? ≠ some '^')
    (horder : InOrder set) :
    Emulates .fromLeft (String.ofList ('[' :: set ++ [']'])) ↔ ¬Divided set := by
  constructor
  · intro h hdivided
    have hagree := h.agree (emulates_byOperands _)
    rw [String.toList_ofList, hasFault_single_iff hset hne hcaret,
      hasFault_single_iff hset hne hcaret, not_iff_not] at hagree
    have hoperands : OperandsInOrder set := hagree.1.mp horder
    obtain ⟨c, hranges, hnot⟩ := exists_inRanges_of_divided hdivided horder hoperands
    have hc := hagree.2 (not_not_intro horder) (String.ofList [c])
    rw [String.toList_ofList, matches_single_iff hset hcaret, matches_single_iff hset hcaret] at hc
    exact hnot (hc.mp hranges)
  · refine fun hdivided => emulates_fromLeft fun other hother => ?_
    rw [String.toList_ofList, hasSet_set_iff hset, or_iff_left (not_hasSet_nil other)] at hother
    rw [hother, body_of_ne_caret hcaret]
    exact hdivided

end Single

/-- Matching in memory follows the rules of `LIKE` with bodies read by their operands. It follows
them with bodies read from the left where no body is divided, and a pattern that is a single set in
order only there. -/
theorem memory_follows_like (p : String) :
    Emulates .byOperands p ∧
      ((∀ set, HasSet p.toList set → ¬Divided (body set)) → Emulates .fromLeft p) ∧
      ∀ set, p = String.ofList ('[' :: set ++ [']']) → ']' ∉ set → set ≠ [] →
        set.head? ≠ some '^' → InOrder set → (Emulates .fromLeft p ↔ ¬Divided set) := by
  refine ⟨emulates_byOperands p, emulates_fromLeft, ?_⟩
  rintro set rfl hset hne hcaret horder
  exact emulates_single_iff hset hne hcaret horder

/-- A set of letters in order is read from the left. -/
theorem letters_follow_like :
    (∀ set, HasSet "[A-C]".toList set → ¬Divided (body set)) ∧ Emulates .fromLeft "[A-C]" ∧
      InOrder "A-C".toList ∧ (Emulates .fromLeft "[A-C]" ↔ ¬Divided "A-C".toList) := by
  have hletters : ']' ∉ "A-C".toList := by decide
  have hdivided : ∀ set, HasSet "[A-C]".toList set → ¬Divided (body set) := by
    intro set hset
    have hset : HasSet ('[' :: "A-C".toList ++ [']']) set := hset
    rw [hasSet_set_iff hletters, or_iff_left (not_hasSet_nil set)] at hset
    rw [hset]
    decide
  have horder : InOrder "A-C".toList := by decide
  have hfollows := memory_follows_like "[A-C]"
  exact ⟨hdivided, hfollows.2.1 hdivided, horder,
    hfollows.2.2 "A-C".toList rfl hletters (by decide) (by decide) horder⟩

/-- A divided set leaves out the hyphen that ends its range. -/
theorem divided_set_leaves_hyphen :
    (¬HasFault .fromLeft "[+--z]".toList ∧ Matches InRanges "[+--z]".toList "-".toList ∧
      ∃ test, Compile.patternHolds false (.string "[+--z]") = .ok test ∧ test "-" = false) ∧
      ¬Emulates .fromLeft "[+--z]" := by
  have hset : ']' ∉ "+--z".toList := by decide
  have hne : "+--z".toList ≠ [] := by decide
  have hcaret : "+--z".toList.head? ≠ some '^' := by decide
  have horder : InOrder "+--z".toList := by decide
  have hoperands : ¬HasFault .byOperands ('[' :: "+--z".toList ++ [']']) := by
    have hin : OperandsInOrder "+--z".toList := by decide
    exact mt (hasFault_single_iff hset hne hcaret).mp (not_not_intro hin)
  refine ⟨⟨?_, ?_, ?_⟩, ?_⟩
  · exact mt (hasFault_single_iff hset hne hcaret).mp (not_not_intro horder)
  · exact (matches_single_iff hset hcaret).mpr (by decide)
  · obtain ⟨test, htest, hholds⟩ := (emulates_byOperands "[+--z]").matching hoperands
    refine ⟨test, htest, Bool.eq_false_iff.mpr fun h => ?_⟩
    have hhyphen : InOperands "+--z".toList '-' :=
      (matches_single_iff hset hcaret).mp ((hholds "-").mp h)
    exact absurd hhyphen (by decide)
  · exact fun h => (emulates_single_iff hset hne hcaret horder).mp h (by decide)

end Selection.Pattern
