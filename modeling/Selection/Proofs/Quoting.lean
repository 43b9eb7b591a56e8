import Selection.Proofs.Lowered
import Selection.Proofs.Tokens

/-! # The tokens of a filter

The text of a filter has the tokens of its leaves in their order, with fixed characters between
them, when no name in it has a quote. Joining and negating filters keeps the literals in their
order, and commutes with leaving out the contents of the literals.
-/

namespace Selection.Sql

open Token (plain)

/-! ## Texts of filters -/

mutual

/-- The tokens of a filter, those of its leaves put together. -/
def Filter.tokens : Filter → List Token
  | .leaf c =>
    plain (c.columnRef ++ " " ++ c.comparator ++ " ").toList ++ Sql.tokens c.value.toList
  | .patIndex column pattern =>
    plain "PATINDEX(".toList ++ Sql.tokens pattern.toList ++
      plain (", " ++ column ++ ") > 0").toList
  | .exists table filter =>
    plain ("EXISTS (SELECT 1 FROM " ++ table).toList ++ whereTokens filter ++ plain ")".toList
  | .never => plain "1 = 0".toList
  | .not f => plain "NOT (".toList ++ f.tokens ++ plain ")".toList
  | .and items =>
    plain "(".toList ++ (plain " AND ".toList).intercalate (allTokens items) ++ plain ")".toList
  | .or items =>
    plain "(".toList ++ (plain " OR ".toList).intercalate (allTokens items) ++ plain ")".toList

/-- The tokens of the clause of an optional filter. -/
def whereTokens : Option Filter → List Token
  | none => []
  | some f => plain " WHERE ".toList ++ f.tokens

def allTokens : List Filter → List (List Token)
  | [] => []
  | f :: rest => f.tokens :: allTokens rest

end

theorem allTokens_eq (fs : List Filter) : allTokens fs = fs.map Filter.tokens := by
  induction fs with
  | nil => rfl
  | cons f rest ih => rw [allTokens, ih, List.map_cons]

theorem texts_eq (fs : List Filter) : Filter.texts fs = fs.map Filter.text := by
  induction fs with
  | nil => rfl
  | cons f rest ih => rw [Filter.texts, ih, List.map_cons]

/-- No name in a filter has a quote, and every value in it is one without quotes or one literal. -/
inductive Filter.Safe : Filter → Prop
  | leaf {c : Condition} (column : '\'' ∉ c.columnRef.toList)
      (comparator : '\'' ∉ c.comparator.toList) (value : Written c.value) : (Filter.leaf c).Safe
  | patIndex {column pattern : String} (column_plain : '\'' ∉ column.toList)
      (pattern_written : Written pattern) : (Filter.patIndex column pattern).Safe
  | exists {table : String} {filter : Option Filter} (table_plain : '\'' ∉ table.toList)
      (filter_safe : ∀ f ∈ filter, f.Safe) : (Filter.exists table filter).Safe
  | never : Filter.never.Safe
  | not {f : Filter} (item_safe : f.Safe) : (Filter.not f).Safe
  | and {items : List Filter} (items_safe : ∀ f ∈ items, f.Safe) : (Filter.and items).Safe
  | or {items : List Filter} (items_safe : ∀ f ∈ items, f.Safe) : (Filter.or items).Safe

/-- Texts that are joined by a separator without quotes. -/
theorem splits_intercalate {sep : List Char} (hsep : '\'' ∉ sep) (hne : sep ≠ [])
    {texts : List (List Char)} {tokens : List (List Token)}
    (h : List.Forall₂ Splits texts tokens) :
    Splits (sep.intercalate texts) ((plain sep).intercalate tokens) := by
  induction h with
  | nil => exact splits_plain List.not_mem_nil
  | @cons cs ts texts tokens hhead htail ih =>
      cases htail with
      | nil => simpa using hhead
      | cons hnext hrest =>
          rw [List.intercalate_cons_cons, List.intercalate_cons_cons, List.append_assoc,
            List.append_assoc]
          refine hhead.append (.plain_append hsep ih) ?_
          exact (startsWithout_quote hsep).append_left hne _

theorem splits_whereText {filter : Option Filter}
    (h : ∀ f ∈ filter, Splits f.text.toList f.tokens) :
    Splits (Filter.whereText filter).toList (whereTokens filter) := by
  cases filter with
  | none => exact splits_plain List.not_mem_nil
  | some f =>
      rw [Filter.whereText, String.toList_append]
      exact .plain_append (by decide) (h f rfl)

/-- The text of a condition is split around its value when the other parts have no quotes. -/
theorem splits_leaf {c : Condition} (hcolumn : '\'' ∉ c.columnRef.toList)
    (hcomparator : '\'' ∉ c.comparator.toList) (hvalue : Written c.value) :
    Splits (Filter.leaf c).text.toList (Filter.leaf c).tokens := by
  have htext : (Filter.leaf c).text.toList =
      (c.columnRef ++ " " ++ c.comparator ++ " ").toList ++ c.value.toList :=
    String.toList_append
  rw [htext]
  exact .plain_append (by simp [hcolumn, hcomparator]) hvalue.splits

theorem splits_patIndex {column pattern : String} (hcolumn : '\'' ∉ column.toList)
    (hpattern : Written pattern) :
    Splits (Filter.patIndex column pattern).text.toList
      (Filter.patIndex column pattern).tokens := by
  have htext : (Filter.patIndex column pattern).text.toList =
      "PATINDEX(".toList ++ pattern.toList ++ (", " ++ column ++ ") > 0").toList := by
    change ("PATINDEX(" ++ pattern ++ ", " ++ column ++ ") > 0").toList = _
    simp only [String.toList_append, List.append_assoc]
  have hopen : '\'' ∉ "PATINDEX(".toList := by decide
  have hclose : '\'' ∉ (", " ++ column ++ ") > 0").toList := by
    simp only [String.toList_append, List.mem_append, not_or]
    exact ⟨⟨by decide, hcolumn⟩, by decide⟩
  rw [htext]
  exact Splits.append_plain (.plain_append hopen hpattern.splits) hclose

theorem splits_exists {table : String} {filter : Option Filter} (htable : '\'' ∉ table.toList)
    (hfilter : ∀ f ∈ filter, Splits f.text.toList f.tokens) :
    Splits (Filter.exists table filter).text.toList (Filter.exists table filter).tokens := by
  have htext : (Filter.exists table filter).text.toList =
      ("EXISTS (SELECT 1 FROM " ++ table).toList ++ (Filter.whereText filter).toList ++
        ")".toList := by
    change ("EXISTS (SELECT 1 FROM " ++ table ++ Filter.whereText filter ++ ")").toList = _
    simp only [String.toList_append, List.append_assoc]
  have hopen : '\'' ∉ ("EXISTS (SELECT 1 FROM " ++ table).toList := by
    simp only [String.toList_append, List.mem_append, not_or]
    exact ⟨by decide, htable⟩
  rw [htext]
  exact Splits.append_plain (.plain_append hopen (splits_whereText hfilter)) (by decide)

theorem splits_not {f : Filter} (h : Splits f.text.toList f.tokens) :
    Splits (Filter.not f).text.toList (Filter.not f).tokens := by
  have htext : (Filter.not f).text.toList = "NOT (".toList ++ f.text.toList ++ ")".toList := by
    change ("NOT (" ++ f.text ++ ")").toList = _
    simp only [String.toList_append]
  rw [htext]
  exact .append_plain (.plain_append (by decide) h) (by decide)

/-- Both connectives put their word between the texts of their items. -/
theorem splits_chain {sep : String} {items : List Filter} (hsep : '\'' ∉ sep.toList)
    (hne : sep.toList ≠ []) (hitems : ∀ f ∈ items, Splits f.text.toList f.tokens) :
    Splits ("(" ++ sep.intercalate (Filter.texts items) ++ ")").toList
      (plain "(".toList ++ (plain sep.toList).intercalate (allTokens items) ++
        plain ")".toList) := by
  rw [String.toList_append, String.toList_append, String.toList_intercalate, texts_eq, allTokens_eq,
    List.map_map]
  refine Splits.append_plain (.plain_append (by decide) (splits_intercalate hsep hne ?_))
    (by decide)
  rw [List.forall₂_map_left_iff, List.forall₂_map_right_iff, List.forall₂_same]
  exact hitems

/-- A safe filter's text has the filter's tokens. -/
theorem Filter.Safe.splits {f : Filter} (h : f.Safe) : Splits f.text.toList f.tokens := by
  induction h with
  | leaf hcolumn hcomparator hvalue => exact splits_leaf hcolumn hcomparator hvalue
  | patIndex hcolumn hpattern => exact splits_patIndex hcolumn hpattern
  | «exists» htable _ ih => exact splits_exists htable ih
  | never => exact splits_plain (by decide)
  | not _ ih => exact splits_not ih
  | and _ ih => exact splits_chain (by decide) (by decide) ih
  | or _ ih => exact splits_chain (by decide) (by decide) ih

/-! ## Filters without the contents of their literals -/

/-- A literal without its contents, and any other text as it is. -/
def blankText (s : String) : String :=
  if s.toList.head? = some '\'' then Value.quote "" else s

theorem blankText_quote (s : String) : blankText (Value.quote s) = Value.quote "" := by
  refine if_pos ?_
  rw [Value.quote, String.toList_append, String.toList_append]
  rfl

theorem blankText_plain {s : String} (h : '\'' ∉ s.toList) : blankText s = s :=
  if_neg fun hhead => h (List.mem_of_mem_head? hhead)

theorem shape_blankText {s : String} (h : Written s) :
    (tokens (blankText s).toList).map Token.shape = (tokens s.toList).map Token.shape := by
  cases h with
  | plain h => rw [blankText_plain h]
  | quoted t h =>
      rw [h, blankText_quote, (splits_quote t).tokens_eq, (splits_quote "").tokens_eq]
      rfl

mutual

/-- The filter without the contents of its literals. -/
def Filter.blank : Filter → Filter
  | .leaf c => .leaf { c with value := blankText c.value }
  | .patIndex column pattern => .patIndex column (blankText pattern)
  | .exists table filter => .exists table (blankOption filter)
  | .never => .never
  | .not f => .not f.blank
  | .and items => .and (blankAll items)
  | .or items => .or (blankAll items)

def blankOption : Option Filter → Option Filter
  | none => none
  | some f => some f.blank

def blankAll : List Filter → List Filter
  | [] => []
  | f :: rest => f.blank :: blankAll rest

end

theorem blankAll_eq (fs : List Filter) : blankAll fs = fs.map Filter.blank := by
  induction fs with
  | nil => rfl
  | cons f rest ih => rw [blankAll, ih, List.map_cons]

theorem map_intercalate {α β : Type} (g : α → β) (sep : List α) (xss : List (List α)) :
    (sep.intercalate xss).map g = (sep.map g).intercalate (xss.map (List.map g)) := by
  induction xss with
  | nil => rfl
  | cons xs rest ih =>
      cases rest with
      | nil => simp
      | cons next rest =>
          rw [List.map_cons] at ih
          rw [List.intercalate_cons_cons, List.map_append, List.map_append, ih, List.map_cons,
            List.map_cons, List.intercalate_cons_cons]

theorem shape_whereTokens {filter : Option Filter}
    (h : ∀ f ∈ filter, f.blank.tokens.map Token.shape = f.tokens.map Token.shape) :
    (whereTokens (blankOption filter)).map Token.shape = (whereTokens filter).map Token.shape := by
  cases filter with
  | none => rfl
  | some f => simp only [blankOption, whereTokens, List.map_append, h f rfl]

theorem shape_allTokens {sep : List Token} {items : List Filter}
    (h : ∀ f ∈ items, f.blank.tokens.map Token.shape = f.tokens.map Token.shape) :
    (sep.intercalate (allTokens (blankAll items))).map Token.shape =
      (sep.intercalate (allTokens items)).map Token.shape := by
  rw [map_intercalate, map_intercalate, allTokens_eq, allTokens_eq, blankAll_eq, List.map_map,
    List.map_map, List.map_map]
  exact congrArg _ (List.map_congr_left h)

/-- Leaving the contents out does not change the shape of the tokens. -/
theorem Filter.Safe.shape_blank {f : Filter} (h : f.Safe) :
    f.blank.tokens.map Token.shape = f.tokens.map Token.shape := by
  induction h with
  | leaf _ _ hvalue =>
      simp only [Filter.blank, Filter.tokens, List.map_append, shape_blankText hvalue]
      rfl
  | patIndex _ hpattern =>
      simp only [Filter.blank, Filter.tokens, List.map_append, shape_blankText hpattern]
  | «exists» _ _ ih =>
      simp only [Filter.blank, Filter.tokens, List.map_append, shape_whereTokens ih]
  | never => rfl
  | not _ ih => simp only [Filter.blank, Filter.tokens, List.map_append, ih]
  | and _ ih => simp only [Filter.blank, Filter.tokens, List.map_append, shape_allTokens ih]
  | or _ ih => simp only [Filter.blank, Filter.tokens, List.map_append, shape_allTokens ih]

/-- The literals in the text of a filter, in their order. -/
def Filter.literals (f : Filter) : List Token :=
  f.tokens.filter Token.isQuoted

/-- A separator without literals goes when the others are filtered out. -/
theorem filter_intercalate {α : Type} {p : α → Bool} {sep : List α} (hsep : sep.filter p = [])
    (xss : List (List α)) : (sep.intercalate xss).filter p = xss.flatMap (List.filter p) := by
  induction xss with
  | nil => rfl
  | cons xs rest ih =>
      cases rest with
      | nil => simp
      | cons next rest =>
          rw [List.intercalate_cons_cons, List.filter_append, List.filter_append, hsep, ih,
            List.append_nil]
          rfl

theorem literals_chain (sep : String) (fs : List Filter) :
    ((plain sep.toList).intercalate (allTokens fs)).filter Token.isQuoted =
      fs.flatMap Filter.literals := by
  rw [filter_intercalate (Token.filter_isQuoted_plain _), allTokens_eq, List.flatMap_map]
  rfl

@[simp] theorem literals_and (items : List Filter) :
    (Filter.and items).literals = items.flatMap Filter.literals := by
  simp only [Filter.literals, Filter.tokens, List.filter_append, Token.filter_isQuoted_plain,
    literals_chain, List.nil_append, List.append_nil]

@[simp] theorem literals_or (items : List Filter) :
    (Filter.or items).literals = items.flatMap Filter.literals := by
  simp only [Filter.literals, Filter.tokens, List.filter_append, Token.filter_isQuoted_plain,
    literals_chain, List.nil_append, List.append_nil]

@[simp] theorem literals_not (f : Filter) : (Filter.not f).literals = f.literals := by
  simp only [Filter.literals, Filter.tokens, List.filter_append, Token.filter_isQuoted_plain,
    List.nil_append, List.append_nil]

@[simp] theorem literals_exists (table : String) (f : Filter) :
    (Filter.exists table (some f)).literals = f.literals := by
  simp only [Filter.literals, Filter.tokens, whereTokens, List.filter_append,
    Token.filter_isQuoted_plain, List.nil_append, List.append_nil]

@[simp] theorem literals_leaf (c : Condition) :
    (Filter.leaf c).literals = (tokens c.value.toList).filter Token.isQuoted := by
  simp only [Filter.literals, Filter.tokens, List.filter_append, Token.filter_isQuoted_plain,
    List.nil_append]

@[simp] theorem literals_patIndex (column pattern : String) :
    (Filter.patIndex column pattern).literals =
      (tokens pattern.toList).filter Token.isQuoted := by
  simp only [Filter.literals, Filter.tokens, List.filter_append, Token.filter_isQuoted_plain,
    List.nil_append, List.append_nil]

/-! ## Joining -/

section Joining

variable {f : Filter} {fs : List Filter}

/-- A conjunction is its only conjunct, or an AND of the conjuncts of all its filters. -/
theorem conj_cases (fs : List Filter) :
    fs.flatMap Filter.conjuncts = [.conj fs] ∨
      Filter.conj fs = .and (fs.flatMap Filter.conjuncts) := by
  unfold Filter.conj
  split
  next f hone => exact .inl hone
  next => exact .inr rfl

/-- A disjunction is its only disjunct, or an OR of the disjuncts of all its filters. -/
theorem disj_cases (fs : List Filter) :
    fs.flatMap Filter.disjuncts = [.disj fs] ∨
      Filter.disj fs = .or (fs.flatMap Filter.disjuncts) := by
  unfold Filter.disj
  split
  next f hone => exact .inl hone
  next => exact .inr rfl

/-- What a conjunction has when all its items do, joined filters have when all of them do. -/
theorem conj_of_forall {motive : Filter → Prop}
    (hand : ∀ items, motive (.and items) ↔ ∀ g ∈ items, motive g) (h : ∀ f ∈ fs, motive f) :
    motive (.conj fs) := by
  have hitems : ∀ g ∈ fs.flatMap Filter.conjuncts, motive g := by
    intro g hg
    obtain ⟨f, hf, hg⟩ := List.mem_flatMap.mp hg
    cases f with
    | and items => exact (hand items).mp (h _ hf) g hg
    | _ =>
        rw [List.mem_singleton.mp hg]
        exact h _ hf
  rcases conj_cases fs with hone | hmany
  · exact hitems _ (hone ▸ List.mem_singleton_self _)
  · exact hmany ▸ (hand _).mpr hitems

/-- What a disjunction has when all its items do, joined filters have when all of them do. -/
theorem disj_of_forall {motive : Filter → Prop}
    (hor : ∀ items, motive (.or items) ↔ ∀ g ∈ items, motive g) (h : ∀ f ∈ fs, motive f) :
    motive (.disj fs) := by
  have hitems : ∀ g ∈ fs.flatMap Filter.disjuncts, motive g := by
    intro g hg
    obtain ⟨f, hf, hg⟩ := List.mem_flatMap.mp hg
    cases f with
    | or items => exact (hor items).mp (h _ hf) g hg
    | _ =>
        rw [List.mem_singleton.mp hg]
        exact h _ hf
  rcases disj_cases fs with hone | hmany
  · exact hitems _ (hone ▸ List.mem_singleton_self _)
  · exact hmany ▸ (hor _).mpr hitems

/-- The conjunction of safe filters is safe. -/
theorem safe_conj (h : ∀ f ∈ fs, f.Safe) : (Filter.conj fs).Safe :=
  conj_of_forall (fun _ => ⟨fun | .and hitems => hitems, .and⟩) h

theorem safe_disj (h : ∀ f ∈ fs, f.Safe) : (Filter.disj fs).Safe :=
  disj_of_forall (fun _ => ⟨fun | .or hitems => hitems, .or⟩) h

theorem safe_neg (h : f.Safe) : f.neg.Safe := by
  cases h with
  | not hitem => exact hitem
  | _ => exact .not (by constructor <;> assumption)

/-- The literals of a conjunction are those of its filters. -/
theorem literals_conj (fs : List Filter) :
    (Filter.conj fs).literals = fs.flatMap Filter.literals := by
  have hparts : (fs.flatMap Filter.conjuncts).flatMap Filter.literals =
      fs.flatMap Filter.literals := by
    rw [List.flatMap_assoc]
    congr 1
    funext f
    cases f <;> simp [Filter.conjuncts]
  rcases conj_cases fs with hone | hand
  · rw [← hparts, hone, List.flatMap_singleton]
  · rw [hand, literals_and, hparts]

theorem literals_disj (fs : List Filter) :
    (Filter.disj fs).literals = fs.flatMap Filter.literals := by
  have hparts : (fs.flatMap Filter.disjuncts).flatMap Filter.literals =
      fs.flatMap Filter.literals := by
    rw [List.flatMap_assoc]
    congr 1
    funext f
    cases f <;> simp [Filter.disjuncts]
  rcases disj_cases fs with hone | hor
  · rw [← hparts, hone, List.flatMap_singleton]
  · rw [hor, literals_or, hparts]

@[simp] theorem literals_neg (f : Filter) : f.neg.literals = f.literals := by
  cases f <;> simp [Filter.neg]

theorem blank_conj (fs : List Filter) :
    (Filter.conj fs).blank = .conj (fs.map Filter.blank) := by
  have hparts : (fs.map Filter.blank).flatMap Filter.conjuncts =
      (fs.flatMap Filter.conjuncts).map Filter.blank := by
    rw [List.flatMap_map, List.map_flatMap]
    congr 1
    funext f
    cases f <;> simp [Filter.conjuncts, Filter.blank, blankAll_eq]
  unfold Filter.conj
  rw [hparts]
  rcases fs.flatMap Filter.conjuncts with _ | ⟨f, _ | ⟨g, rest⟩⟩
  · rfl
  · rfl
  · simp [Filter.blank, blankAll_eq]

theorem blank_disj (fs : List Filter) :
    (Filter.disj fs).blank = .disj (fs.map Filter.blank) := by
  have hparts : (fs.map Filter.blank).flatMap Filter.disjuncts =
      (fs.flatMap Filter.disjuncts).map Filter.blank := by
    rw [List.flatMap_map, List.map_flatMap]
    congr 1
    funext f
    cases f <;> simp [Filter.disjuncts, Filter.blank, blankAll_eq]
  unfold Filter.disj
  rw [hparts]
  rcases fs.flatMap Filter.disjuncts with _ | ⟨f, _ | ⟨g, rest⟩⟩
  · rfl
  · rfl
  · simp [Filter.blank, blankAll_eq]

theorem blank_neg (f : Filter) : f.neg.blank = f.blank.neg := by
  cases f <;> rfl

end Joining

end Selection.Sql
