import Selection.Proofs.Engine
import Selection.Proofs.Quoting
import Selection.Sample.Customers

/-! # Strings stay inside their literals

Two lambdas that differ only in what their strings say have filters whose texts differ only inside
string literals, as long as no name has a quote. The record name at the root counts as a name: the
keys of the outermost sub-queries refer to it, and it is written as it is.
-/

namespace Selection

/-! ## Strings and names of a formula -/

/-- The value with an empty text if it is a string. -/
def Value.blank : Value → Value
  | string _ => string ""
  | v => v

namespace Formula

mutual

/-- The formula with empty texts for its strings. -/
def blank : Formula → Formula
  | constant verdict => constant verdict
  | compare field op value lexical => compare field op value.blank lexical
  | text field test part => text field test part.blank
  | pattern field value => pattern field value.blank
  | any path element link parameters predicate =>
    any path element link parameters predicate.blank
  | and items => and (blankAll items)
  | or items => or (blankAll items)
  | not item => not item.blank

def blankAll : List Formula → List Formula
  | [] => []
  | item :: rest => item.blank :: blankAll rest

end

mutual

/-- The literals that a query has for the tests of a formula, in their order: the compared texts,
the patterns, and the `LIKE` patterns of text tests. Uuids, dates, times and durations are compared
as literals too. Only strings are tested for a part or a pattern. -/
def literals : Formula → List Sql.Token
  | compare _ _ value _ => Sql.quotedTokens value
  | text _ test part =>
    (part.asString?.map fun part => .literal (Sql.likePattern test part).toList).toList
  | pattern _ value => (value.asString?.map fun pattern => .literal pattern.toList).toList
  | any _ _ _ _ predicate => predicate.literals
  | and items | or items => allLiterals items
  | not item => item.literals
  | constant _ => []

def allLiterals : List Formula → List Sql.Token
  | [] => []
  | item :: rest => item.literals ++ allLiterals rest

end

/-- The names that a formula itself has: the path of a field, or the path of a collection and its
keys. -/
def names : Formula → List String
  | compare field .. | text field .. | pattern field _ => [field.path]
  | any path _ link _ _ => path :: (link.map fun keys => [keys.foreignKey, keys.parentKey]).getD []
  | _ => []

/-- No name anywhere in the formula has a quote. -/
def QuoteFree (f : Formula) : Prop :=
  ∀ g ∈ f.subformulas, ∀ name ∈ g.names, '\'' ∉ name.toList

theorem QuoteFree.mono {f g : Formula} (h : f.QuoteFree)
    (hsubset : g.subformulas ⊆ f.subformulas) : g.QuoteFree :=
  fun g hg => h g (hsubset hg)

/-- Blanking the values of a formula keeps its names. -/
theorem names_blank (f : Formula) : f.blank.names = f.names := by
  cases f <;> rfl

theorem subformulas_blank (f : Formula) : f.blank.subformulas = f.subformulas.map blank := by
  have hall {items : List Formula}
      (h : ∀ item ∈ items, item.blank.subformulas = item.subformulas.map blank) :
      allSubformulas (blankAll items) = (allSubformulas items).map blank := by
    induction items with
    | nil => rfl
    | cons item rest ih =>
        rw [blankAll, allSubformulas, allSubformulas, h item (.head _),
          ih fun item hitem => h item (.tail _ hitem), List.map_append]
  induction f using Formula.induction with
  | any path element link parameters predicate ih =>
      simp only [blank, subformulas, ih, List.map_cons]
  | and items ih => simp only [blank, subformulas, hall ih, List.map_cons]
  | or items ih => simp only [blank, subformulas, hall ih, List.map_cons]
  | not item ih => simp only [blank, subformulas, ih, List.map_cons]
  | _ => rfl

/-- Whether names have quotes does not depend on what strings say. -/
theorem quoteFree_blank {f : Formula} : f.blank.QuoteFree ↔ f.QuoteFree := by
  unfold QuoteFree
  rw [subformulas_blank]
  simp only [List.forall_mem_map, names_blank]

end Formula

/-- The lambda with empty texts for its strings. -/
def Lambda.blank (l : Lambda) : Lambda :=
  ⟨l.parameters, l.body.blank⟩

namespace Sql

variable {negated : Bool} {scope : String}

/-! ## Leaves -/

variable {field : FieldRef} {f : Filter}

/-- The column of a field has the characters of the field's path. -/
theorem mem_path_of_mem_columnOf {c : Char} (hc : c ∈ (columnOf field).toList) :
    c ∈ field.path.toList := by
  unfold columnOf condition at hc
  split at hc
  next table column hcut =>
    rw [Text.eq_of_cutAtLast hcut]
    unfold Condition.columnRef at hc
    split at hc
    · simp only [String.toList_ofList] at hc
      simp [hc]
    · simpa [or_assoc] using hc
  next => simpa [Condition.columnRef] using hc

theorem safe_condition (hfield : '\'' ∉ field.path.toList) {comparator value : String}
    (hcomparator : '\'' ∉ comparator.toList) (hvalue : Written value) :
    (Filter.leaf (condition field comparator value)).Safe := by
  refine .leaf ?_ ?_ ?_
  · rw [columnRef_condition]
    exact fun hc => hfield (mem_path_of_mem_columnOf hc)
  · rwa [comparator_condition]
  · rwa [value_condition]

theorem literals_condition (field : FieldRef) (comparator value : String) :
    (Filter.leaf (condition field comparator value)).literals =
      (tokens value.toList).filter Token.isQuoted := by
  rw [literals_leaf, value_condition]

theorem blank_condition (field : FieldRef) (comparator value : String) :
    (Filter.leaf (condition field comparator value)).blank =
      .leaf (condition field comparator (blankText value)) := by
  unfold condition
  split <;> rfl

theorem safe_compareLeaf (hfield : '\'' ∉ field.path.toList) (op : Comparison) (value : Value) :
    (compareLeaf field op value).Safe :=
  safe_condition hfield (by cases op <;> decide) (written_literal value)

theorem safe_nullTest (hfield : '\'' ∉ field.path.toList) (isNull : Bool) :
    (nullTest field isNull).Safe :=
  safe_condition hfield (by cases isNull <;> decide) (.plain (by decide))

theorem literals_compareLeaf (field : FieldRef) (op : Comparison) (value : Value) :
    (compareLeaf field op value).literals = quotedTokens value := by
  rw [compareLeaf, literals_condition, filter_tokens_literal]

theorem literals_nullTest (field : FieldRef) (isNull : Bool) :
    (nullTest field isNull).literals = [] := by
  rw [nullTest, literals_condition, (splits_plain (by decide : '\'' ∉ "NULL".toList)).tokens_eq,
    Token.filter_isQuoted_plain]

theorem blank_nullTest (field : FieldRef) (isNull : Bool) :
    (nullTest field isNull).blank = nullTest field isNull := by
  rw [nullTest, blank_condition, blankText_plain (by decide)]

/-- What a value is compared as shows its text only between quotes. -/
theorem blankText_literal (value : Value) :
    blankText (literal value.blank) = blankText (literal value) := by
  cases value with
  | string s => exact (blankText_quote "").trans (blankText_quote s).symm
  | _ => rfl

theorem blank_compareLeaf (field : FieldRef) (op : Comparison) (value : Value) :
    (compareLeaf field op value.blank).blank = (compareLeaf field op value).blank := by
  rw [compareLeaf, compareLeaf, blank_condition, blank_condition, blankText_literal]

theorem safe_correlation {path : String} {keys : Link} (hpath : '\'' ∉ path.toList)
    (hforeign : '\'' ∉ keys.foreignKey.toList) (hparent : '\'' ∉ keys.parentKey.toList)
    (hscope : '\'' ∉ scope.toList) : (correlation path keys scope).Safe := by
  refine .leaf ?_ (by decide : '\'' ∉ "=".toList) (.plain ?_)
  · unfold Condition.columnRef
    split
    · exact hforeign
    · simp [hpath, hforeign]
  · simp [hscope, hparent]

theorem literals_correlation {path : String} {keys : Link}
    (hparent : '\'' ∉ keys.parentKey.toList) (hscope : '\'' ∉ scope.toList) :
    (correlation path keys scope).literals = [] := by
  have hplain : '\'' ∉ (scope ++ "." ++ keys.parentKey).toList := by simp [hscope, hparent]
  rw [correlation, literals_leaf, (splits_plain hplain).tokens_eq, Token.filter_isQuoted_plain]

/-! ## What filters show -/

/-- A lowered formula has no quotes but those of its literals, and its literals are some of the
given ones, in their order. -/
inductive Lowered.Shows (literals : List Token) : Lowered → Prop
  | constant (verdict : Bool) : Shows literals (.constant verdict)
  | filter {f : Filter} (safe : f.Safe) (literals_sublist : f.literals.Sublist literals) :
      Shows literals (.filter f)

/-- What a comparison lowers to shows the literals of its value at most. -/
theorem lowerComparison_shows (hfield : '\'' ∉ field.path.toList) (op : Comparison) (value : Value)
    (negated : Bool) :
    (lowerComparison field op value negated).Shows (quotedTokens value) := by
  have hnull (isNull : Bool) :
      (Lowered.filter (nullTest field isNull)).Shows (quotedTokens value) := by
    refine .filter (safe_nullTest hfield isNull) ?_
    rw [literals_nullTest]
    exact List.nil_sublist _
  have hcompared (op : Comparison) (negated : Bool) :
      (Lowered.filter (if negated then .disj [compareLeaf field (complement op) value,
        nullTest field true] else compareLeaf field op value)).Shows (quotedTokens value) := by
    split
    · refine .filter (safe_disj ?_) ?_
      · simp [safe_compareLeaf hfield, safe_nullTest hfield]
      · simp [literals_disj, literals_compareLeaf, literals_nullTest]
    · refine .filter (safe_compareLeaf hfield _ _) ?_
      rw [literals_compareLeaf]
  unfold lowerComparison
  split
  · cases op <;> first | exact hnull _ | exact .constant _
  · -- A difference is lowered as an equation of the other polarity.
    by_cases hne : op = .ne
    · rw [if_pos hne]
      exact hcompared .eq (!negated)
    · rw [if_neg hne]
      exact hcompared op negated

/-- What a text or pattern test lowers to shows the literals of the test at most. -/
theorem lowerMatch_shows (hfield : '\'' ∉ field.path.toList) {test : Filter} (htest : test.Safe)
    (negated : Bool) : (lowerMatch field test negated).Shows test.literals := by
  unfold lowerMatch
  split
  · refine .filter (safe_disj ?_) ?_
    · simp [safe_neg htest, safe_nullTest hfield]
    · simp [literals_disj, literals_nullTest]
  · exact .filter htest (List.Sublist.refl _)

/-- A sub-query shows the literals of what is in it. -/
theorem subquery_shows {path : String} {keys : Filter} {inner : Lowered}
    {literals : List Token} (hpath : '\'' ∉ path.toList) (hkeys : keys.Safe)
    (hliterals : keys.literals = []) (hinner : inner.Shows literals) (negated : Bool) :
    (subquery negated path (clause? keys inner)).Shows literals := by
  have hexists {clause : Filter} (hsafe : clause.Safe)
      (hsublist : clause.literals.Sublist literals) :
      (subquery negated path (some clause)).Shows literals := by
    have hclause : (Filter.exists path (some clause)).Safe := .exists hpath (by simpa using hsafe)
    unfold subquery
    dsimp only
    split
    · exact .filter (safe_neg hclause) (by simpa using hsublist)
    · exact .filter hclause (by simpa using hsublist)
  cases hinner with
  | constant verdict =>
      cases verdict with
      | false => exact .constant _
      | true =>
          apply hexists hkeys
          rw [hliterals]
          exact List.nil_sublist _
  | filter hsafe hsublist =>
      apply hexists
      · exact safe_conj (by simp [hkeys, hsafe])
      · simpa [literals_conj, hliterals] using hsublist

/-- Filters that are joined show the literals of their formulas, in order. -/
theorem join_shows {conjunctive : Bool} {items : List Formula} {lows : List Lowered}
    (h : List.Forall₂ (fun item low => low.Shows item.literals) items lows) :
    (join conjunctive (lows.filterMap Lowered.filter?)).Shows (Formula.allLiterals items) := by
  have hfilters : (∀ f ∈ lows.filterMap Lowered.filter?, f.Safe) ∧
      ((lows.filterMap Lowered.filter?).flatMap Filter.literals).Sublist
        (Formula.allLiterals items) := by
    induction h with
    | nil => exact ⟨nofun, List.Sublist.refl _⟩
    | cons hhead _ ih =>
        cases hhead with
        | constant verdict => exact ⟨ih.1, ih.2.trans (List.sublist_append_right _ _)⟩
        | filter hsafe hsublist =>
            exact ⟨List.forall_mem_cons.mpr ⟨hsafe, ih.1⟩, hsublist.append ih.2⟩
  unfold join
  split
  · exact .constant _
  · split
    · exact .filter (safe_conj hfilters.1) (literals_conj _ ▸ hfilters.2)
    · exact .filter (safe_disj hfilters.1) (literals_disj _ ▸ hfilters.2)

/-- A chain shows what its items show. -/
theorem lowerChain_shows {conjunctive negated : Bool} {items : List Formula} {low : Lowered}
    (hitems : ∀ item ∈ items, ∀ low, lower negated scope item = .ok low → low.Shows item.literals)
    (h : lowerChain conjunctive negated scope [] items = .ok low) :
    low.Shows (Formula.allLiterals items) := by
  cases chained_of_ok h with
  | absorbed => exact .constant _
  | joined lows hlows _ =>
      rw [List.nil_append]
      apply join_shows
      rw [List.forall₂_iff_zip] at hlows ⊢
      refine ⟨hlows.1, fun hmem => ?_⟩
      exact hitems _ (List.of_mem_zip hmem).1 _ (hlows.2 hmem)

/-- A formula without quotes in its names lowers to a filter that shows some of its literals. -/
theorem lower_shows {f : Formula} {low : Lowered} (hf : f.QuoteFree) (hscope : '\'' ∉ scope.toList)
    (h : lower negated scope f = .ok low) : low.Shows f.literals := by
  induction f using Formula.induction generalizing negated scope low with
  | constant verdict =>
      rw [← Except.ok.inj h]
      exact .constant _
  | compare field op value lexical =>
      rw [← Except.ok.inj h]
      have hfield := hf _ (Formula.self_mem_subformulas _) field.path (.head _)
      exact lowerComparison_shows hfield op value negated
  | text field test part =>
      have hfield := hf _ (Formula.self_mem_subformulas _) field.path (.head _)
      cases part with
      | string part =>
          obtain rfl := Except.ok.inj h
          have hsafe := safe_condition hfield (by decide : '\'' ∉ "LIKE".toList)
            (.quoted (likePattern test part) rfl)
          have hshows := lowerMatch_shows hfield hsafe negated
          rwa [literals_condition, (splits_quote _).tokens_eq] at hshows
      | _ =>
          obtain rfl := Except.ok.inj h
          exact .constant _
  | pattern field value =>
      have hfield := hf _ (Formula.self_mem_subformulas _) field.path (.head _)
      cases value with
      | string pattern =>
          obtain rfl := Except.ok.inj h
          have hcolumn : '\'' ∉ (columnOf field).toList :=
            fun hc => hfield (mem_path_of_mem_columnOf hc)
          have hsafe := Filter.Safe.patIndex hcolumn (.quoted pattern rfl)
          have hshows := lowerMatch_shows hfield hsafe negated
          rwa [literals_patIndex, (splits_quote _).tokens_eq] at hshows
      | _ =>
          obtain rfl := Except.ok.inj h
          exact .constant _
  | any path element link parameters predicate ih =>
      obtain ⟨keys, parameter, inner, rfl, rfl, hinner, rfl⟩ := lower_any_eq_ok_iff.mp h
      have hnames := hf _ (Formula.self_mem_subformulas _)
      have hpath : '\'' ∉ path.toList := hnames path (.head _)
      have hparent : '\'' ∉ keys.parentKey.toList := hnames _ (.tail _ (.tail _ (.head _)))
      have hpredicate := hf.mono fun _ hmem => Formula.mem_subformulas_any hmem
      -- Inside of the sub-query, keys refer to the collection, whose name has no quote either.
      exact subquery_shows hpath
        (safe_correlation hpath (hnames _ (.tail _ (.head _))) hparent hscope)
        (literals_correlation hparent hscope) (ih hpredicate hpath hinner) negated
  | and items ih =>
      refine lowerChain_shows (fun item hitem low hlow => ?_) h
      exact ih item hitem (hf.mono fun _ hmem => Formula.mem_subformulas_and hitem hmem) hscope hlow
  | or items ih =>
      refine lowerChain_shows (fun item hitem low hlow => ?_) h
      exact ih item hitem (hf.mono fun _ hmem => Formula.mem_subformulas_or hitem hmem) hscope hlow
  | not item ih => exact ih (hf.mono fun _ hmem => Formula.mem_subformulas_not hmem) hscope h

/-! ## What filters have in common -/

/-- A lowered formula without the contents of its literals. -/
def Lowered.blank : Lowered → Lowered
  | constant verdict => constant verdict
  | filter f => filter f.blank

theorem blank_lowerComparison (field : FieldRef) (op : Comparison) (value : Value)
    (negated : Bool) :
    (lowerComparison field op value.blank negated).blank =
      (lowerComparison field op value negated).blank := by
  have hcompared (op : Comparison) (negated : Bool) :
      (if negated then Filter.disj [compareLeaf field (complement op) value.blank,
        nullTest field true] else compareLeaf field op value.blank).blank =
      (if negated then Filter.disj [compareLeaf field (complement op) value,
        nullTest field true] else compareLeaf field op value).blank := by
    split
    · simp only [blank_disj, List.map_cons, blank_compareLeaf]
    · exact blank_compareLeaf field op value
  have hnull : value.blank.isNull = value.isNull := by
    cases value <;> rfl
  unfold lowerComparison
  rw [hnull]
  split
  · rfl
  · by_cases hne : op = .ne
    · rw [if_pos hne]
      exact congrArg Lowered.filter (hcompared .eq (!negated))
    · rw [if_neg hne]
      exact congrArg Lowered.filter (hcompared op negated)

theorem blank_lowerMatch (field : FieldRef) (test : Filter) (negated : Bool) :
    (lowerMatch field test negated).blank = lowerMatch field test.blank negated := by
  unfold lowerMatch
  rw [Lowered.blank]
  split
  · simp only [blank_disj, List.map_cons, List.map_nil, blank_neg, blank_nullTest]
  · rfl

theorem blank_subquery (negated : Bool) (table : String) (keys : Filter) (inner : Lowered) :
    (subquery negated table (clause? keys inner)).blank =
      subquery negated table (clause? keys.blank inner.blank) := by
  have hexists (clause : Filter) : (subquery negated table (some clause)).blank =
      subquery negated table (some clause.blank) := by
    cases negated <;> rfl
  rcases inner with (_ | _) | f
  · rfl
  · exact hexists keys
  · rw [clause?, hexists, blank_conj]
    rfl

theorem blank_join {conjunctive : Bool} {fs gs : List Filter}
    (h : fs.map Filter.blank = gs.map Filter.blank) :
    (join conjunctive fs).blank = (join conjunctive gs).blank := by
  have hempty : fs.isEmpty = gs.isEmpty := by
    rw [← List.isEmpty_map (f := Filter.blank), h, List.isEmpty_map]
  unfold join
  rw [hempty]
  split
  · rfl
  · rw [Lowered.blank, Lowered.blank]
    cases conjunctive
    · simp [blank_disj, h]
    · simp [blank_conj, h]

/-- A chain whose items lower alike lowers alike. -/
theorem lowerChain_blank {conjunctive negated : Bool} {items : List Formula} {low : Lowered}
    (hitems : ∀ item ∈ items, ∀ low, lower negated scope item = .ok low →
      ∃ low', lower negated scope item.blank = .ok low' ∧ low'.blank = low.blank)
    {done done' : List Filter} (hdone : done'.map Filter.blank = done.map Filter.blank)
    (h : lowerChain conjunctive negated scope done items = .ok low) :
    ∃ low', lowerChain conjunctive negated scope done' (Formula.blankAll items) = .ok low' ∧
      low'.blank = low.blank := by
  induction items generalizing done done' with
  | nil =>
      rw [← Except.ok.inj h]
      exact ⟨_, rfl, blank_join hdone⟩
  | cons item rest ih =>
      have ih := fun {done done'} => @ih (fun item hitem => hitems item (.tail _ hitem)) done done'
      obtain ⟨first, hfirst, h⟩ := bind_eq_ok_iff.mp h
      obtain ⟨first', hfirst', hblank⟩ := hitems item (.head _) first hfirst
      rw [Formula.blankAll, lowerChain, hfirst']
      cases first with
      | constant verdict =>
          -- What is constant is so whatever the strings say.
          obtain rfl : first' = .constant verdict := by
            cases first' with
            | constant _ => exact hblank
            | filter _ => contradiction
          dsimp only at h
          split at h
          next hneutral =>
            obtain ⟨low', hlow', hsame⟩ := ih hdone h
            exact ⟨low', (if_pos hneutral).trans hlow', hsame⟩
          next habsorbing =>
            rw [← Except.ok.inj h]
            exact ⟨_, if_neg habsorbing, rfl⟩
      | filter f =>
          obtain ⟨f', rfl, hf⟩ : ∃ f', first' = .filter f' ∧ f'.blank = f.blank := by
            cases first' with
            | constant _ => contradiction
            | filter f' => exact ⟨f', rfl, Lowered.filter.inj hblank⟩
          exact ih (by simp [hdone, hf]) h

/-- A formula without what its strings say lowers to the same but for the contents of literals. -/
theorem lower_blank {negated : Bool} {scope : String} {f : Formula} {low : Lowered}
    (h : lower negated scope f = .ok low) :
    ∃ low', lower negated scope f.blank = .ok low' ∧ low'.blank = low.blank := by
  induction f using Formula.induction generalizing negated scope low with
  | constant verdict => exact ⟨low, h, rfl⟩
  | compare field op value lexical =>
      rw [← Except.ok.inj h]
      exact ⟨_, rfl, blank_lowerComparison field op value negated⟩
  -- Only strings are blanked, and each of them stands in a literal of its own.
  | text field test part =>
      cases part with
      | string part =>
          rw [← Except.ok.inj h]
          refine ⟨_, rfl, ?_⟩
          rw [blank_lowerMatch, blank_lowerMatch, blank_condition, blank_condition,
            blankText_quote, blankText_quote]
      | _ => exact ⟨low, h, rfl⟩
  | pattern field value =>
      cases value with
      | string pattern =>
          rw [← Except.ok.inj h]
          refine ⟨_, rfl, ?_⟩
          rw [blank_lowerMatch, blank_lowerMatch, Filter.blank, Filter.blank, blankText_quote "",
            blankText_quote pattern]
      | _ => exact ⟨low, h, rfl⟩
  | any path element link parameters predicate ih =>
      obtain ⟨keys, parameter, inner, hlink, hparameters, hinner, rfl⟩ := lower_any_eq_ok_iff.mp h
      obtain ⟨inner', hinner', hblank⟩ := ih hinner
      refine ⟨_, lower_any_eq_ok_iff.mpr
        ⟨keys, parameter, inner', hlink, hparameters, hinner', rfl⟩, ?_⟩
      rw [blank_subquery, blank_subquery, hblank]
  | and items ih => exact lowerChain_blank (fun item hitem _ => ih item hitem) rfl h
  | or items ih => exact lowerChain_blank (fun item hitem _ => ih item hitem) rfl h
  | not item ih => exact ih h

/-! ## Lambdas -/

theorem toFilter?_blank (low : Lowered) : low.blank.toFilter? = blankOption low.toFilter? := by
  rcases low with (_ | _) | f <;> rfl

/-- The filter is safe, and its literals are among those shown. -/
theorem Lowered.Shows.toFilter? {low : Lowered} {literals : List Token} (h : low.Shows literals) :
    ∀ f ∈ low.toFilter?, f.Safe ∧ f.literals.Sublist literals := by
  intro f hf
  cases h with
  | constant verdict =>
      cases verdict with
      | false =>
          obtain rfl := Option.some.inj hf
          exact ⟨.never, List.nil_sublist _⟩
      | true => contradiction
  | filter hsafe hsublist =>
      obtain rfl := Option.some.inj hf
      exact ⟨hsafe, hsublist⟩

/-- The clause of a filter in tokens. Its literals are some of the given ones, and its shape does
not depend on the contents of the literals. -/
theorem Lowered.Shows.whereClause {low : Lowered} {literals : List Token}
    (h : low.Shows literals) :
    (tokens (whereClause low.toFilter?).toList).map Token.shape =
        (whereTokens low.blank.toFilter?).map Token.shape ∧
      ((tokens (whereClause low.toFilter?).toList).filter Token.isQuoted).Sublist literals := by
  have hfilter := h.toFilter?
  have htokens : tokens (Sql.whereClause low.toFilter?).toList = whereTokens low.toFilter? :=
    (splits_whereText fun f hf => (hfilter f hf).1.splits).tokens_eq
  rw [htokens, toFilter?_blank, shape_whereTokens fun f hf => (hfilter f hf).1.shape_blank]
  refine ⟨rfl, ?_⟩
  cases hlow : low.toFilter? with
  | none => exact List.nil_sublist _
  | some f =>
      rw [whereTokens, List.filter_append, Token.filter_isQuoted_plain]
      exact (hfilter f hlow).2

/-- A lambda that lowers has one parameter. -/
theorem parameters_of_lowerLambda {l : Lambda} {filter : Option Filter}
    (h : lowerLambda l = .ok filter) : ∃ name, l.parameters = [name] := by
  obtain ⟨name, hname, -⟩ := bind_eq_ok_iff.mp h
  match hparameters : l.parameters, hname with
  | [name], _ => exact ⟨name, rfl⟩

end Sql

namespace Sample

/-- Records of a name with a kid that has a text. -/
def parents (record text : String) : Lambda :=
  .ofRecord record <|
    .any "kids" "Wide" (some ⟨"parentId", "id"⟩) ["Wide"]
      (.compare ⟨"s", .string⟩ .eq (.string text) false)

/-- Records of the leap day with a text that contains another one. -/
def leapDay (text : String) : Lambda :=
  .ofRecord "Wide" <| .and
    [.compare ⟨"date", .date⟩ .eq (.date (day 2000 2 29)) false,
      .text ⟨"s", .string⟩ .contains (.string text)]

theorem quoteFree_parents (record text : String) : (parents record text).body.QuoteFree := by
  intro g hg name hname
  simp only [parents, Lambda.ofRecord, Formula.subformulas, List.mem_cons, List.not_mem_nil,
    or_false] at hg
  rcases hg with rfl | rfl
  · simp only [Formula.names, Option.map_some, Option.getD_some, List.mem_cons, List.not_mem_nil,
      or_false] at hname
    rcases hname with rfl | rfl | rfl <;> decide
  · obtain rfl := List.mem_singleton.mp hname
    decide

theorem quoteFree_leapDay (text : String) : (leapDay text).body.QuoteFree := by
  intro g hg name hname
  simp only [leapDay, Lambda.ofRecord, Formula.subformulas, Formula.allSubformulas, List.mem_cons,
    List.append_nil, List.mem_append, List.not_mem_nil, or_false] at hg
  rcases hg with rfl | rfl | rfl
  · contradiction
  all_goals
    obtain rfl := List.mem_singleton.mp hname
    decide

end Sample

namespace Sql

/-- Two lambdas that differ only in what their strings say have clauses that differ only in the
contents of literals, and the literals are the compared texts, the patterns and the `LIKE` patterns
of the tests, in their order. No name may have a quote, the name of the record included. -/
theorem strings_stay_in_literals {l m : Lambda} {F G : Option Filter} (hsame : l.blank = m.blank)
    (hnames : l.body.QuoteFree) (hrecord : ∀ name ∈ l.parameters, '\'' ∉ name.toList)
    (hl : lowerLambda l = .ok F) (hm : lowerLambda m = .ok G) :
    (tokens (whereClause F).toList).map Token.shape =
        (tokens (whereClause G).toList).map Token.shape ∧
      ((tokens (whereClause F).toList).filter Token.isQuoted).Sublist l.body.literals ∧
      ((tokens (whereClause G).toList).filter Token.isQuoted).Sublist m.body.literals := by
  obtain ⟨hparameters, hbody⟩ := Lambda.mk.inj hsame
  obtain ⟨name, hname⟩ := parameters_of_lowerLambda hl
  have hscope : '\'' ∉ name.toList := hrecord name (hname ▸ .head _)
  obtain ⟨low, hlow, rfl⟩ := (lowerLambda_eq_ok_iff hname).mp hl
  obtain ⟨low', hlow', rfl⟩ := (lowerLambda_eq_ok_iff (hparameters ▸ hname)).mp hm
  have hnames' : m.body.QuoteFree := by
    rwa [← Formula.quoteFree_blank, ← hbody, Formula.quoteFree_blank]
  have hblank : low.blank = low'.blank := by
    obtain ⟨common, hcommon, hlow⟩ := lower_blank hlow
    obtain ⟨common', hcommon', hlow'⟩ := lower_blank hlow'
    rw [hbody, hcommon'] at hcommon
    rw [← hlow, ← hlow', Except.ok.inj hcommon]
  obtain ⟨hshape, hliterals⟩ := (lower_shows hnames hscope hlow).whereClause
  obtain ⟨hshape', hliterals'⟩ := (lower_shows hnames' hscope hlow').whereClause
  exact ⟨by rw [hshape, hshape', hblank], hliterals, hliterals'⟩

/-- What a text contains is looked for with its quotes doubled and its wildcards in brackets, so
that it says nothing outside of its literal. -/
theorem drop_stays_in_its_literal :
    ∃ F G, lowerLambda (Sample.leapDay "x") = .ok F ∧
      lowerLambda (Sample.leapDay "'; DROP TABLE [Wide] --") = .ok G ∧
      (tokens (whereClause F).toList).map Token.shape =
        (tokens (whereClause G).toList).map Token.shape ∧
      ((tokens (whereClause G).toList).filter Token.isQuoted).Sublist
        [.literal "2000-02-29".toList, .literal "%'; DROP TABLE [[]Wide] --%".toList] := by
  obtain ⟨hshape, -, hliterals⟩ := strings_stay_in_literals
    (show (Sample.leapDay "x").blank = (Sample.leapDay "'; DROP TABLE [Wide] --").blank from rfl)
    (Sample.quoteFree_leapDay "x") (by decide) rfl rfl
  have hcontents : (Sample.leapDay "'; DROP TABLE [Wide] --").body.literals =
      [.literal "2000-02-29".toList, .literal "%'; DROP TABLE [[]Wide] --%".toList] := by
    decide +kernel
  exact ⟨_, _, rfl, rfl, hshape, hcontents ▸ hliterals⟩

/-- The name of a record with a quote in it opens a literal that goes on to the next quote, and
what a string says stands outside of it. A date is compared as a literal, and says what no string
does. -/
theorem quoted_record_lets_strings_out :
    (Sample.parents "O'Brien" "x").blank = (Sample.parents "O'Brien" "x OR 1 = 1").blank ∧
      (Sample.parents "O'Brien" "x").body.QuoteFree ∧
      (∃ F G, lowerLambda (Sample.parents "O'Brien" "x") = .ok F ∧
        lowerLambda (Sample.parents "O'Brien" "x OR 1 = 1") = .ok G ∧
        (tokens (whereClause F).toList).map Token.shape ≠
          (tokens (whereClause G).toList).map Token.shape) ∧
      ∃ F, lowerLambda (Sample.leapDay "x") = .ok F ∧
        (tokens (whereClause F).toList).filter Token.isQuoted =
          [.literal "2000-02-29".toList, .literal "%x%".toList] := by
  refine ⟨rfl, Sample.quoteFree_parents _ _, ⟨_, _, rfl, rfl, ?_⟩, _, rfl, ?_⟩
  · decide +kernel
  · decide +kernel

end Sql

end Selection
