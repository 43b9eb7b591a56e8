import Selection.Proofs.Compilation
import Selection.Proofs.Formed
import Selection.Sample.Criteria

/-! # What the keys of sub-queries refer to

The condition that joins a sub-query to the row around it names both rows, and a name means the
innermost row that has it. The rows of a sub-query have the name of its collection and the row at
the root has the name of its record type, with nothing to tell apart two rows of one name. So the
condition refers to the row right around the sub-query exactly when that row has another name than
the collection. In a collection of the same name it compares a row with itself.
-/

namespace Selection.Sql

/-- How far out the row is that a name means, among the names of the rows in scope. -/
def resolve (name : String) (names : List String) : Option Nat :=
  names.findIdx? (· == name)

@[simp] theorem resolve_head (name : String) (names : List String) :
    resolve name (name :: names) = some 0 := by
  simp [resolve, List.findIdx?_cons]

/-- The name of the enclosing row is the row's own scope, unless the table of the sub-query hides
it. -/
theorem resolve_enclosing (table enclosing : String) (outer : List String) :
    resolve enclosing (table :: enclosing :: outer) =
      some (if table = enclosing then 0 else 1) := by
  by_cases hname : table = enclosing
  · simp [hname]
  · simp [resolve, List.findIdx?_cons, hname]

/-- A filter among rows in scope has a sub-query at some depth, given with the rows in scope where
it stands, its table and its clause. -/
inductive HasSubquery : List String → Filter → List String → String → Option Filter → Prop
  | here (names : List String) (table : String) (clause : Option Filter) :
      HasSubquery names (.exists table clause) names table clause
  | inside {names inner : List String} {table table' : String} {f : Filter}
      {clause : Option Filter} (h : HasSubquery (table :: names) f inner table' clause) :
      HasSubquery names (.exists table (some f)) inner table' clause
  | not {names inner : List String} {table : String} {f : Filter} {clause : Option Filter}
      (h : HasSubquery names f inner table clause) :
      HasSubquery names (.not f) inner table clause
  | and {names inner : List String} {table : String} {f : Filter} {items : List Filter}
      {clause : Option Filter} (hitem : f ∈ items)
      (h : HasSubquery names f inner table clause) :
      HasSubquery names (.and items) inner table clause
  | or {names inner : List String} {table : String} {f : Filter} {items : List Filter}
      {clause : Option Filter} (hitem : f ∈ items)
      (h : HasSubquery names f inner table clause) :
      HasSubquery names (.or items) inner table clause

/-- The clause of a sub-query starts with the condition that joins it to the row right around it. -/
def Joined (names : List String) (table : String) (clause : Option Filter) : Prop :=
  ∃ enclosing outer keys f, names = enclosing :: outer ∧ clause = some f ∧
    f.conjuncts.head? = some (correlation table keys enclosing)

/-- All sub-queries of a filter are joined to the rows right around them. -/
def AllJoined (names : List String) (f : Filter) : Prop :=
  ∀ inner table clause, HasSubquery names f inner table clause → Joined inner table clause

variable {names : List String} {f : Filter}

theorem AllJoined.leaf (c : Condition) : AllJoined names (.leaf c) := by
  intro inner table clause h
  cases h

theorem AllJoined.patIndex (column pattern : String) :
    AllJoined names (.patIndex column pattern) := by
  intro inner table clause h
  cases h

theorem AllJoined.not (h : AllJoined names f) : AllJoined names (.not f) := by
  rintro inner table clause (_ | _ | hsub)
  exact h inner table clause hsub

theorem AllJoined.neg (h : AllJoined names f) : AllJoined names f.neg := by
  cases f with
  | not f =>
      intro inner table clause hsub
      exact h inner table clause (.not hsub)
  | _ => exact h.not

theorem allJoined_and_iff (items : List Filter) :
    AllJoined names (.and items) ↔ ∀ item ∈ items, AllJoined names item := by
  constructor
  · intro h item hitem inner table clause hsub
    exact h inner table clause (.and hitem hsub)
  · rintro h inner table clause (_ | _ | _ | ⟨hitem, hsub⟩)
    exact h _ hitem inner table clause hsub

theorem allJoined_or_iff (items : List Filter) :
    AllJoined names (.or items) ↔ ∀ item ∈ items, AllJoined names item := by
  constructor
  · intro h item hitem inner table clause hsub
    exact h inner table clause (.or hitem hsub)
  · rintro h inner table clause (_ | _ | _ | _ | ⟨hitem, hsub⟩)
    exact h _ hitem inner table clause hsub

theorem AllJoined.conj {fs : List Filter} (h : ∀ f ∈ fs, AllJoined names f) :
    AllJoined names (.conj fs) :=
  conj_of_forall allJoined_and_iff h

theorem AllJoined.disj {fs : List Filter} (h : ∀ f ∈ fs, AllJoined names f) :
    AllJoined names (.disj fs) :=
  disj_of_forall allJoined_or_iff h

theorem AllJoined.subquery {scope table : String} {outer : List String} {keys : Link}
    (hkeys : f.conjuncts.head? = some (correlation table keys scope))
    (h : AllJoined (table :: scope :: outer) f) :
    AllJoined (scope :: outer) (.exists table (some f)) := by
  intro inner table' clause hsub
  cases hsub with
  | here => exact ⟨scope, outer, keys, f, rfl, rfl, hkeys⟩
  | inside hsub => exact h inner table' clause hsub

/-! ## Lowering -/

theorem head?_conjuncts_conj (c : Condition) (fs : List Filter) :
    (Filter.conj (.leaf c :: fs)).conjuncts.head? = some (.leaf c) := by
  unfold Filter.conj
  split
  next f hone =>
    have hleaf : f = .leaf c := (List.cons.inj hone).1.symm
    rw [hleaf]
    rfl
  next => rfl

/-- In what is formed as lowering does, the clause of every sub-query starts with the condition on
its keys. -/
theorem Filter.Formed.allJoined {named : String → Prop} {scope : String} {outer : List String}
    (h : f.Formed named scope) : AllJoined (scope :: outer) f := by
  induction h generalizing outer with
  | leaf => exact .leaf _
  | patIndex => exact .patIndex _ _
  | neg _ _ ih => exact ih.neg
  | conj _ _ ih => exact .conj fun g hg => ih g hg
  | disj _ _ ih => exact .disj fun g hg => ih g hg
  | linked => exact .subquery rfl (.leaf _)
  | narrowed _ _ _ _ ih =>
      refine .subquery (head?_conjuncts_conj _ _) (.conj ?_)
      simp [correlation, AllJoined.leaf, ih]

/-- Every sub-query of a lowered formula is joined to the row that the scope around it names. -/
theorem lower_allJoined {formula : Formula} {negated : Bool} {scope : String}
    {outer : List String} (h : lower negated scope formula = .ok (.filter f)) :
    AllJoined (scope :: outer) f := by
  have hformed : f.Formed (fun _ => True) scope := lower_formed (fun _ _ => trivial) trivial h
  exact hformed.allJoined

/-! ## Compiled criteria -/

variable {ι : Type} {catalog : Catalog ι} {env : Environment} {record : ι} {c : Criterion}
  {p : Predicate}

/-- In the filter of a compiled criterion the clause of every sub-query starts with a condition on
keys. The name on its left means the row of the sub-query itself. The name on its right is that of
the row right around the sub-query and means that row, unless the collection has the same name:
then it means the row of the sub-query too. -/
theorem correlation_resolves (hcompile : Compile.criterion catalog env record c = .ok p)
    (hlower : lowerLambda p.lambda = .ok (some f)) {table : String} {clause : Option Filter}
    (hsub : HasSubquery [(catalog record).name] f names table clause) :
    ∃ enclosing outer keys body, names = enclosing :: outer ∧ clause = some body ∧
      body.conjuncts.head? = some (correlation table keys enclosing) ∧
      resolve table (table :: names) = some 0 ∧
      resolve enclosing (table :: names) = some (if table = enclosing then 0 else 1) := by
  obtain ⟨low, hlow, hfilter⟩ :=
    (lowerLambda_eq_ok_iff (Compile.criterion_parameters hcompile)).mp hlower
  have hjoined : AllJoined [(catalog record).name] f := by
    rcases low with (_ | _) | g
    · obtain rfl := Option.some.inj hfilter
      intro inner table clause hsub
      cases hsub
    · contradiction
    · obtain rfl := Option.some.inj hfilter
      exact lower_allJoined hlow
  obtain ⟨enclosing, outer, keys, body, rfl, hbody, hkeys⟩ := hjoined names table clause hsub
  exact ⟨enclosing, outer, keys, body, rfl, hbody, hkeys, resolve_head _ _,
    resolve_enclosing table enclosing outer⟩

/-- The lines of an order are joined to that order. -/
theorem lines_join_their_order :
    ∃ p f body keys,
      Compile.criterion Sample.catalog Sample.office .customer Sample.bookBuyers = .ok p ∧
        lowerLambda p.lambda = .ok (some f) ∧
        HasSubquery ["Customer"] f ["orders", "Customer"] "lines" (some body) ∧
        body.conjuncts.head? = some (correlation "lines" keys "orders") ∧
        resolve "orders" ["lines", "orders", "Customer"] = some 1 := by
  obtain ⟨p, f, body, hcompile, hlower, hsub⟩ :
      ∃ p f body,
        Compile.criterion Sample.catalog Sample.office .customer Sample.bookBuyers = .ok p ∧
          lowerLambda p.lambda = .ok (some f) ∧
          HasSubquery ["Customer"] f ["orders", "Customer"] "lines" (some body) :=
    ⟨_, _, _, rfl, rfl, .inside (.and (.tail _ (.head _)) (.here _ _ _))⟩
  obtain ⟨enclosing, outer, keys, body', hnames, hbody, hkeys, -, hresolve⟩ :=
    correlation_resolves hcompile hlower hsub
  obtain ⟨rfl, rfl⟩ := List.cons.inj hnames
  obtain rfl := Option.some.inj hbody
  exact ⟨p, f, body, keys, hcompile, hlower, hsub, hkeys, hresolve⟩

/-- The kids of a kid are joined to themselves: both names in their condition mean the innermost
row. -/
theorem nested_kids_join_themselves :
    ∃ p f body,
      Compile.criterion Sample.catalog Sample.office .wide Sample.grandparents = .ok p ∧
        lowerLambda p.lambda = .ok (some f) ∧
        HasSubquery ["Wide"] f ["kids", "Wide"] "kids" (some body) ∧
        body.conjuncts.head? = some (correlation "kids" ⟨"parentId", "id"⟩ "kids") ∧
        resolve "kids" ["kids", "kids", "Wide"] = some 0 := by
  refine ⟨_, _, _, rfl, rfl, .inside (.and (.tail _ (.head _)) (.here _ _ _)), rfl, ?_⟩
  decide

end Selection.Sql
