import Selection.Proofs.Correlation
import Selection.Proofs.Lexemes
import Selection.Proofs.NormalForm

/-! # How lowered filters are grouped

The text of a filter in normal form has its chains in parentheses, each with one connective between
its items. When no name in it has a quote, a parenthesis or a connective, the text as it is read
back has no empty parentheses and nowhere both connectives at one level.
-/

namespace Selection.Sql

open Token (plain)

/-! ## Lexemes of texts that are put together -/

theorem lexemes_char {c : Char} (hc : isWordChar c = false) (us : List Token) :
    lexemes (.char c :: us) = mark c ++ lexemes us := by
  simp [lexemes, lexemesFrom, hc, wordOf]

/-- A text may be cut into lexemes before and after a character that is in no word. -/
theorem lexemes_append_char {c : Char} (hc : isWordChar c = false) (ts us : List Token) :
    lexemes (ts ++ .char c :: us) = lexemes ts ++ (mark c ++ lexemes us) := by
  rw [lexemes_append_of_head (by simp [Token.breaks, hc]), lexemes_char hc]

/-- A text may be cut into lexemes at a blank, which is none itself. -/
theorem lexemes_append_blank (ts us : List Token) :
    lexemes (ts ++ .char ' ' :: us) = lexemes ts ++ lexemes us :=
  lexemes_append_char (by decide) ts us

theorem lexemes_leaf (c : Condition) :
    lexemes (Filter.leaf c).tokens =
      lexemes (plain c.columnRef.toList) ++
        (lexemes (plain c.comparator.toList) ++ lexemes (tokens c.value.toList)) := by
  have htokens : (Filter.leaf c).tokens = plain c.columnRef.toList ++
      .char ' ' :: (plain c.comparator.toList ++ .char ' ' :: tokens c.value.toList) := by
    simp [Filter.tokens, plain]
  rw [htokens, lexemes_append_blank, lexemes_append_blank]

theorem lexemes_patIndex (column pattern : String) :
    lexemes (Filter.patIndex column (Value.quote pattern)).tokens =
      [.word "PATINDEX".toList] ++
        (.opening :: ([.literal, .symbol ','] ++ lexemes (plain column.toList)) ++ [.closing]) ++
        [.symbol '>', .word "0".toList] := by
  have htokens : (Filter.patIndex column (Value.quote pattern)).tokens =
      plain "PATINDEX(".toList ++ .literal pattern.toList ::
        (plain ", ".toList ++ (plain column.toList ++ plain ") > 0".toList)) := by
    rw [Filter.tokens, (splits_quote pattern).tokens_eq]
    simp [plain]
  have hstart : lexemes (plain "PATINDEX(".toList) = [.word "PATINDEX".toList, .opening] := by
    decide
  have hcomma : lexemes (plain ", ".toList) = [.symbol ','] := by
    decide
  have hend : lexemes (plain ") > 0".toList) = [.closing, .symbol '>', .word "0".toList] := by
    decide
  rw [htokens, lexemes_append_of_last (by decide), lexemes_cons rfl,
    lexemes_append_of_last (by decide), lexemes_append_of_head (by decide), hstart, hcomma, hend]
  simp [lexemes, lexemesFrom, wordOf]

theorem lexemes_exists (table : String) (clause : Filter) :
    lexemes (Filter.exists table (some clause)).tokens =
      [.word "EXISTS".toList] ++
        (.opening ::
          ([.word "SELECT".toList, .word "1".toList, .word "FROM".toList] ++
            lexemes (plain table.toList) ++ ([.word "WHERE".toList] ++ lexemes clause.tokens)) ++
          [.closing]) := by
  have htokens : (Filter.exists table (some clause)).tokens =
      plain "EXISTS (SELECT 1 FROM ".toList ++ (plain table.toList ++
        (plain " WHERE ".toList ++ (clause.tokens ++ plain ")".toList))) := by
    simp [Filter.tokens, whereTokens, plain]
  have hstart : lexemes (plain "EXISTS (SELECT 1 FROM ".toList) = [.word "EXISTS".toList, .opening,
      .word "SELECT".toList, .word "1".toList, .word "FROM".toList] := by
    decide
  have hwhere : lexemes (plain " WHERE ".toList) = [.word "WHERE".toList] := by
    decide
  have hend : lexemes (plain ")".toList) = [.closing] := by
    decide
  have hhead (ts : List Token) :
      ∀ t ∈ (plain " WHERE ".toList ++ ts).head?, t.breaks = true := by
    intro t ht
    rw [← Option.some.inj ht]
    decide
  rw [htokens, lexemes_append_of_last (by decide), lexemes_append_of_head (hhead _),
    lexemes_append_of_last (by decide), lexemes_append_of_head (by decide), hstart, hwhere, hend]
  simp

theorem lexemes_not (f : Filter) :
    lexemes (Filter.not f).tokens =
      [.word "NOT".toList] ++ (.opening :: lexemes f.tokens ++ [.closing]) := by
  rw [Filter.tokens, lexemes_append_of_head (by decide), lexemes_append_of_last (by decide)]
  rfl

/-- Texts that are joined by a separator that breaks words have their lexemes joined by those of the
separator. -/
theorem lexemes_intercalate {sep : List Token} (hhead : ∀ t ∈ sep.head?, t.breaks = true)
    (hlast : ∀ t ∈ sep.getLast?, t.breaks = true) (hne : sep ≠ []) (tss : List (List Token)) :
    lexemes (sep.intercalate tss) = (lexemes sep).intercalate (tss.map lexemes) := by
  induction tss with
  | nil => rfl
  | cons ts tss ih =>
      cases tss with
      | nil => simp
      | cons next tss =>
          rw [List.map_cons] at ih
          have hstart : ∀ t ∈ (sep ++ sep.intercalate (next :: tss)).head?, t.breaks = true := by
            rwa [List.head?_append_of_ne_nil _ hne]
          rw [List.intercalate_cons_cons, List.append_assoc, lexemes_append_of_head hstart,
            lexemes_append_of_last hlast, ih, List.map_cons, List.map_cons,
            List.intercalate_cons_cons, List.append_assoc]

theorem lexemes_and (items : List Filter) :
    lexemes (Filter.and items).tokens =
      .opening :: [.word "AND".toList].intercalate (items.map fun f => lexemes f.tokens) ++
        [.closing] := by
  rw [Filter.tokens, lexemes_append_of_head (by decide), lexemes_append_of_last (by decide),
    lexemes_intercalate (by decide) (by decide) (by decide), allTokens_eq, List.map_map]
  rfl

theorem lexemes_or (items : List Filter) :
    lexemes (Filter.or items).tokens =
      .opening :: [.word "OR".toList].intercalate (items.map fun f => lexemes f.tokens) ++
        [.closing] := by
  rw [Filter.tokens, lexemes_append_of_head (by decide), lexemes_append_of_last (by decide),
    lexemes_intercalate (by decide) (by decide) (by decide), allTokens_eq, List.map_map]
  rfl

/-! ## Names and values -/

/-- A text without parentheses and connectives. -/
def IsPlain (s : String) : Prop :=
  ∀ x ∈ lexemes (plain s.toList), x.isPlain = true

instance (s : String) : Decidable (IsPlain s) :=
  inferInstanceAs (Decidable (∀ x ∈ lexemes (plain s.toList), x.isPlain = true))

/-- A name that says nothing to the grouping of a text that it is written in. -/
structure Inert (name : String) : Prop where
  no_quote : '\'' ∉ name.toList
  is_plain : IsPlain name

instance (name : String) : Decidable (Inert name) :=
  decidable_of_iff ('\'' ∉ name.toList ∧ IsPlain name) ⟨fun h => ⟨h.1, h.2⟩, fun h => ⟨h.1, h.2⟩⟩

variable {s t : String} {field : FieldRef}

theorem isPlain_dotted (hs : IsPlain s) (ht : IsPlain t) : IsPlain (s ++ "." ++ t) := by
  have htokens : plain (s ++ "." ++ t).toList = plain s.toList ++ .char '.' :: plain t.toList := by
    simp [plain]
  intro x hx
  rw [htokens, lexemes_append_char (by decide), List.mem_append, List.mem_append] at hx
  rcases hx with hx | hx | hx
  · exact hs x hx
  · rw [List.mem_singleton.mp hx]
    rfl
  · exact ht x hx

theorem isPlain_columnRef {c : Condition} (htable : IsPlain c.table) (hcolumn : IsPlain c.column) :
    IsPlain c.columnRef := by
  unfold Condition.columnRef
  split
  · exact hcolumn
  · exact isPlain_dotted htable hcolumn

/-- The column of a field is its path, but for a point at the very start. -/
theorem isPlain_columnOf (h : IsPlain field.path) : IsPlain (columnOf field) := by
  have hparts {table column : List Char} (hpath : field.path.toList = table ++ '.' :: column) :
      IsPlain (String.ofList table) ∧ IsPlain (String.ofList column) := by
    have htokens : plain field.path.toList = plain table ++ .char '.' :: plain column := by
      simp [plain, hpath]
    unfold IsPlain at h ⊢
    rw [htokens, lexemes_append_char (by decide)] at h
    simp only [List.forall_mem_append] at h
    exact ⟨by simpa using h.1, by simpa using h.2.2⟩
  unfold columnOf condition
  split
  next table column hcut =>
    obtain ⟨htable, hcolumn⟩ := hparts (Text.eq_of_cutAtLast hcut)
    exact isPlain_columnRef htable hcolumn
  next => exact h

/-- The literals without quotes are numerals and words of few letters. -/
theorem among_literal {v : Value} (h : quotedText? v = none) :
    Text.Among "+-.eENaninfUL".toList (literal v).toList := by
  cases v <;> simp only [quotedText?, reduceCtorEq] at h
  case int n => exact (Numeral.among_ofInt n.toInt).mono (by decide)
  case uint n => exact (Numeral.among_ofInt n.toNat).mono (by decide)
  case float x =>
    cases x with
    | nan => decide
    | infinity negative => cases negative <;> decide
    | finite negative steps holds => exact (Binary64.among_text rfl).mono (by decide)
  case decimal x => exact x.among_text.mono (by decide)
  case boolean b => cases b <;> decide
  case null => decide

/-- A number is plain. -/
theorem isPlain_of_among (h : Text.Among "+-.eENaninfUL".toList s.toList) : IsPlain s := by
  intro x hx
  have hnot {c : Char} (hdigit : c.isDigit = false) (hmark : c ∉ "+-.eENaninfUL".toList) :
      c ∉ x.chars :=
    fun hc => h.not_mem hdigit hmark (chars_subset hx hc)
  cases x with
  | opening => exact absurd (.head _) (hnot (by decide) (by decide))
  | closing => exact absurd (.head _) (hnot (by decide) (by decide))
  | word letters =>
      -- `AND` has a D and `OR` an R.
      have hand : letters ≠ "AND".toList := by
        rintro rfl
        exact hnot (c := 'D') (by decide) (by decide) (by decide)
      have hor : letters ≠ "OR".toList := by
        rintro rfl
        exact hnot (c := 'R') (by decide) (by decide) (by decide)
      rw [Lexeme.isPlain, connective?, if_neg hand, if_neg hor]
      rfl
  | literal => rfl
  | symbol c => rfl

/-- What is written of a value, in lexemes. -/
def IsPlainValue (s : String) : Prop :=
  ∀ x ∈ lexemes (tokens s.toList), x.isPlain = true

theorem isPlainValue_quote (s : String) : IsPlainValue (Value.quote s) := by
  rw [IsPlainValue, (splits_quote s).tokens_eq]
  exact List.forall_mem_singleton.mpr rfl

theorem isPlainValue_plain (hquote : '\'' ∉ s.toList) (h : IsPlain s) : IsPlainValue s := by
  rw [IsPlainValue, (splits_plain hquote).tokens_eq]
  exact h

/-- The literal of a value is a plain value. -/
theorem isPlainValue_literal (v : Value) : IsPlainValue (literal v) := by
  cases h : quotedText? v with
  | none => exact isPlainValue_plain (literal_plain h) (isPlain_of_among (among_literal h))
  | some s => exact literal_quoted h ▸ isPlainValue_quote s

/-! ## Filters -/

/-- A condition with plain parts fills a place of a chain. -/
theorem fills_leaf {c : Condition} (hcolumn : IsPlain c.columnRef)
    (hcomparator : IsPlain c.comparator) (hne : lexemes (plain c.comparator.toList) ≠ [])
    (hvalue : IsPlainValue c.value) : Fills (lexemes (Filter.leaf c).tokens) := by
  rw [lexemes_leaf]
  apply fills_plain
  · simp [hne]
  · simp only [List.forall_mem_append]
    exact ⟨hcolumn, hcomparator, hvalue⟩

theorem fills_condition (hfield : Inert field.path) {comparator value : String}
    (hcomparator : IsPlain comparator) (hne : lexemes (plain comparator.toList) ≠ [])
    (hvalue : IsPlainValue value) :
    Fills (lexemes (Filter.leaf (condition field comparator value)).tokens) := by
  apply fills_leaf
  · rw [columnRef_condition]
    exact isPlain_columnOf hfield.is_plain
  · rwa [comparator_condition]
  · rwa [comparator_condition]
  · rwa [value_condition]

variable {named : String → Prop}

/-- A condition on a field with an inert name fills a place of a chain. -/
theorem Tests.fills (hnamed : ∀ name, named name → Inert name) {c : Condition}
    (h : Tests named c) : Fills (lexemes (Filter.leaf c).tokens) := by
  cases h with
  | comparison hfield op value =>
      refine fills_condition (hnamed _ hfield) ?_ ?_ (isPlainValue_literal value)
      · cases op <;> decide
      · cases op <;> decide
  | null hfield isNull =>
      refine fills_condition (hnamed _ hfield) ?_ ?_ (isPlainValue_plain (by decide) (by decide))
      · cases isNull <;> decide
      · cases isNull <;> decide
  | like hfield pattern =>
      exact fills_condition (hnamed _ hfield) (by decide) (by decide) (isPlainValue_quote pattern)
  | @keys table scope link htable hscope hforeign hparent =>
      have hscope := hnamed _ hscope
      have hparent := hnamed _ hparent
      have hquote : '\'' ∉ (scope ++ "." ++ link.parentKey).toList := by
        simp [hscope.no_quote, hparent.no_quote]
      refine fills_leaf (isPlain_columnRef (hnamed _ htable).is_plain (hnamed _ hforeign).is_plain)
        (by decide : IsPlain "=") (by decide : lexemes (plain "=".toList) ≠ []) ?_
      exact isPlainValue_plain hquote (isPlain_dotted hscope.is_plain hparent.is_plain)

/-- Items that fill their places fill the chain in parentheses. -/
theorem fills_items {letters : List Char} {conjunctive : Bool} {items : List Filter}
    (hword : connective? letters = some conjunctive) (hlength : 2 ≤ items.length)
    (h : ∀ f ∈ items, Fills (lexemes f.tokens)) :
    Fills (.opening :: [.word letters].intercalate (items.map fun f => lexemes f.tokens) ++
      [.closing]) := by
  refine fills_chain hword ?_ (List.forall_mem_map.mpr h)
  rw [Ne, List.map_eq_nil_iff]
  exact List.ne_nil_of_length_pos (Nat.zero_lt_of_lt hlength)

/-- The text of a filter in normal form is read as one thing: its chains are in parentheses. -/
theorem Filter.Normal.fills (hnamed : ∀ name, named name → Inert name) {f : Filter}
    (h : f.Normal named) : Fills (lexemes f.tokens) := by
  induction h with
  | leaf h => exact h.fills hnamed
  -- The call has parentheses of its own, around a literal and a plain column.
  | @patIndex field hfield pattern =>
      have hgroup : Fills (.opening :: ([.literal, .symbol ','] ++
          lexemes (plain (columnOf field).toList)) ++ [.closing]) := by
        refine Fills.group (fills_plain (by simp) ?_)
        rw [List.forall_mem_append]
        exact ⟨by decide, isPlain_columnOf (hnamed _ hfield).is_plain⟩
      rw [lexemes_patIndex]
      exact ((fills_singleton (by decide)).append hgroup).append (fills_plain (by simp) (by decide))
  | @«exists» table clause htable _ ih =>
      rw [lexemes_exists]
      refine Fills.append (fills_singleton (by decide)) (Fills.group ?_)
      refine Fills.append (fills_plain (by simp) ?_) (Fills.append (fills_singleton (by decide)) ih)
      rw [List.forall_mem_append]
      exact ⟨by decide, (hnamed _ htable).is_plain⟩
  | not _ _ ih =>
      rw [lexemes_not]
      exact Fills.append (fills_singleton (by decide)) ih.group
  | and hlength _ _ ih =>
      rw [lexemes_and]
      exact fills_items rfl hlength ih
  | or hlength _ _ ih =>
      rw [lexemes_or]
      exact fills_items rfl hlength ih

/-! ## Whole filters -/

variable {name : String} {f : Formula} {F : Filter} {filter : Option Filter}

/-- The filter of a lambda is the one that is never true, or what its body lowers to. -/
theorem lowered_cases (h : lowerLambda (.ofRecord name f) = .ok (some F)) :
    F = .never ∨ lower false name f = .ok (.filter F) := by
  obtain ⟨low, hlow, hfilter⟩ := (lowerLambda_eq_ok_iff rfl).mp h
  rcases low with (_ | _) | G
  · exact .inl (Option.some.inj hfilter).symm
  · contradiction
  · rw [← Option.some.inj hfilter]
    exact .inr hlow

/-- The filter of a lambda is in normal form and joined, unless it is never true. -/
theorem lowered_normal (h : lowerLambda (.ofRecord name f) = .ok (some F)) :
    F = .never ∨ F.Normal (· ∈ (Lambda.ofRecord name f).names) ∧ AllJoined [name] F := by
  refine (lowered_cases h).imp_right fun hlow => ⟨?_, lower_allJoined hlow⟩
  exact lower_normal (fun _ => List.mem_append_right _) (.head _) hlow

/-- The tokens of a whole clause, read back from its text. -/
theorem tokens_whereClause (h : lowerLambda (.ofRecord name f) = .ok filter)
    (hnames : ∀ s ∈ (Lambda.ofRecord name f).names, Inert s) :
    tokens (whereClause filter).toList = whereTokens filter := by
  refine (splits_whereText fun F hF => Filter.Safe.splits ?_).tokens_eq
  rw [Option.mem_def.mp hF] at h
  rcases lowered_cases h with rfl | hlow
  · exact .never
  · have hscope := (hnames name (.head _)).no_quote
    have hquotes : f.QuoteFree := by
      intro g hg s hs
      have hmem : s ∈ f.allNames := List.mem_flatMap.mpr ⟨g, hg, hs⟩
      exact (hnames s (List.mem_append_right _ hmem)).no_quote
    cases lower_shows hquotes hscope hlow with
    | filter hsafe => exact hsafe

/-- The text of a filter with inert names is read, group after group. -/
theorem read_whereTokens (h : lowerLambda (.ofRecord name f) = .ok filter)
    (hnames : ∀ s ∈ (Lambda.ofRecord name f).names, Inert s) :
    ∃ levels, read [.empty] (lexemes (whereTokens filter)) = some levels := by
  cases filter with
  | none => exact ⟨_, rfl⟩
  | some F =>
      have hclause : Fills (lexemes F.tokens) := by
        rcases lowered_normal h with rfl | ⟨hnormal, -⟩
        · exact fills_plain (by decide) (by decide)
        · exact hnormal.fills hnames
      have hwhere : lexemes (whereTokens (some F)) =
          [.word "WHERE".toList] ++ lexemes F.tokens := by
        rw [whereTokens, lexemes_append_of_last (by decide)]
        rfl
      exact ⟨_, hwhere ▸ (fills_singleton (by decide)).append hclause .empty []⟩

/-- The filter of a lambda is the one that accepts no row, or it is in normal form and every
sub-query in it has a clause that is the condition on its keys or starts with it. When no name has a
quote, a parenthesis, or one of the words `AND` and `OR`, the text of its clause has outside string
literals no empty parentheses and nowhere both words at the same level of parentheses. -/
theorem lowered_filter_grouped (h : lowerLambda (.ofRecord name f) = .ok filter) :
    (∀ F ∈ filter,
      F = .never ∨ F.Normal (· ∈ (Lambda.ofRecord name f).names) ∧ AllJoined [name] F) ∧
      ((∀ s ∈ (Lambda.ofRecord name f).names, Inert s) →
        ¬HasEmptyPair (lexemes (tokens (whereClause filter).toList)) ∧
          ¬Mixes (lexemes (tokens (whereClause filter).toList))) := by
  constructor
  · intro F hF
    rw [Option.mem_def.mp hF] at h
    exact lowered_normal h
  · intro hnames
    rw [tokens_whereClause h hnames]
    obtain ⟨levels, hread⟩ := read_whereTokens h hnames
    exact ⟨not_hasEmptyPair hread, not_mixes hread⟩

/-- No kid is small or off, and no text says an `OR` in parentheses: what it says stands in a
literal, and the chains around it are told apart by their parentheses. -/
theorem parentheses_in_text_are_literal :
    ∃ F, lowerLambda (.ofRecord "Wide"
        (.not (.or [.text ⟨"s", .string⟩ .contains (.string ") OR ("),
          .any "kids" "Wide" (some ⟨"parentId", "id"⟩) ["Wide"]
            (.or [.compare ⟨"i", .int⟩ .lt (.int 3) false,
              .compare ⟨"sub.b", .boolean⟩ .ne (.boolean true) false])]))) = .ok (some F) ∧
      whereClause (some F) = " WHERE ((NOT (s LIKE '%) OR (%') OR s IS NULL) AND " ++
        "NOT (EXISTS (SELECT 1 FROM kids WHERE (kids.parentId = Wide.id AND " ++
          "(i < 3 OR sub.b <> 1 OR sub.b IS NULL)))))" ∧
      AllJoined ["Wide"] F ∧
      ¬HasEmptyPair (lexemes (tokens (whereClause (some F)).toList)) ∧
      ¬Mixes (lexemes (tokens (whereClause (some F)).toList)) := by
  obtain ⟨F, hlower, htext⟩ : ∃ F, lowerLambda (.ofRecord "Wide"
        (.not (.or [.text ⟨"s", .string⟩ .contains (.string ") OR ("),
          .any "kids" "Wide" (some ⟨"parentId", "id"⟩) ["Wide"]
            (.or [.compare ⟨"i", .int⟩ .lt (.int 3) false,
              .compare ⟨"sub.b", .boolean⟩ .ne (.boolean true) false])]))) = .ok (some F) ∧
      whereClause (some F) = " WHERE ((NOT (s LIKE '%) OR (%') OR s IS NULL) AND " ++
        "NOT (EXISTS (SELECT 1 FROM kids WHERE (kids.parentId = Wide.id AND " ++
          "(i < 3 OR sub.b <> 1 OR sub.b IS NULL)))))" :=
    ⟨_, rfl, by decide +kernel⟩
  obtain ⟨hform, hgrouped⟩ := lowered_filter_grouped hlower
  have hjoined : AllJoined ["Wide"] F := by
    rcases hform F rfl with rfl | ⟨-, hjoined⟩
    · exact absurd htext (by decide +kernel)
    · exact hjoined
  exact ⟨F, hlower, htext, hjoined, hgrouped (by decide +kernel)⟩

/-- A name is written as it is, so one with an `OR` in it is read as a part of the chain. -/
theorem name_with_connective_mixes :
    ∃ F, lowerLambda (.ofRecord "Wide"
        (.and [.compare ⟨"x OR y", .int⟩ .eq (.int 1) false,
          .compare ⟨"i", .int⟩ .eq (.int 2) false])) = .ok (some F) ∧
      whereClause (some F) = " WHERE (x OR y = 1 AND i = 2)" ∧
      Mixes (lexemes (tokens (whereClause (some F)).toList)) := by
  refine ⟨_, rfl, by decide +kernel, ?_⟩
  exact ⟨[.word "WHERE".toList, .opening, .word "x".toList],
    [.word "y".toList, .symbol '=', .word "1".toList],
    [.word "i".toList, .symbol '=', .word "2".toList, .closing],
    "OR".toList, "AND".toList, false, by decide +kernel, rfl, rfl, rfl⟩

end Selection.Sql
