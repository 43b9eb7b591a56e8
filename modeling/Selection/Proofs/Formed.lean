import Selection.Proofs.Injection
import Selection.Proofs.Lowered

/-! # How lowered filters are formed

Whatever a formula says, its filter is formed in a few ways: from conditions and pattern tests,
negations of what has no complement, chains, and sub-queries whose clause starts with the condition
on their keys. What holds of every lowered filter is proved by induction on how it is formed.
-/

namespace Selection

/-- The names in a formula, at any depth: the paths of fields and collections, and keys. -/
def Formula.allNames (f : Formula) : List String :=
  f.subformulas.flatMap names

theorem Formula.allNames_subset {f g : Formula} (hsubset : g.subformulas ⊆ f.subformulas) :
    g.allNames ⊆ f.allNames := by
  intro s hs
  obtain ⟨h, hmem, hs⟩ := List.mem_flatMap.mp hs
  exact List.mem_flatMap.mpr ⟨h, hsubset hmem, hs⟩

theorem Formula.names_subset (f : Formula) : f.names ⊆ f.allNames :=
  fun _ hs => List.mem_flatMap.mpr ⟨f, self_mem_subformulas f, hs⟩

namespace Sql

variable {named : String → Prop}

/-- A condition that lowering writes, about names of some kind. -/
inductive Tests (named : String → Prop) : Condition → Prop
  | comparison {field : FieldRef} (hfield : named field.path) (op : Comparison) (value : Value) :
      Tests named (condition field (comparator op) (literal value))
  | null {field : FieldRef} (hfield : named field.path) (isNull : Bool) :
      Tests named (condition field (if isNull then "IS" else "IS NOT") "NULL")
  | like {field : FieldRef} (hfield : named field.path) (pattern : String) :
      Tests named (condition field "LIKE" (Value.quote pattern))
  | keys {table scope : String} {link : Link} (htable : named table) (hscope : named scope)
      (hforeign : named link.foreignKey) (hparent : named link.parentKey) :
      Tests named ⟨table, link.foreignKey, "=", scope ++ "." ++ link.parentKey⟩

namespace Filter

/-- A test that has no complement, so that its negation is written with `NOT`. -/
def HasNoComplement : Filter → Prop
  | leaf c => c.comparator = "LIKE"
  | patIndex .. | .exists .. => True
  | _ => False

/-- A filter formed as lowering does, about a row that the scope names and with names of some kind.
The clause of a sub-query is the condition on its keys, alone or before a filter about its rows. -/
inductive Formed (named : String → Prop) : String → Filter → Prop
  | leaf {scope : String} {c : Condition} (h : Tests named c) : Formed named scope (leaf c)
  | patIndex {scope : String} {field : FieldRef} (hfield : named field.path) (pattern : String) :
      Formed named scope (patIndex (columnOf field) (Value.quote pattern))
  | neg {scope : String} {f : Filter} (hnone : f.HasNoComplement) (h : Formed named scope f) :
      Formed named scope f.neg
  | conj {scope : String} {fs : List Filter} (hne : fs ≠ []) (h : ∀ f ∈ fs, Formed named scope f) :
      Formed named scope (conj fs)
  | disj {scope : String} {fs : List Filter} (hne : fs ≠ []) (h : ∀ f ∈ fs, Formed named scope f) :
      Formed named scope (disj fs)
  | linked {scope table : String} {keys : Link} (htable : named table)
      (hkeys : Formed named scope (correlation table keys scope)) :
      Formed named scope (.exists table (some (correlation table keys scope)))
  | narrowed {scope table : String} {keys : Link} {f : Filter} (htable : named table)
      (hkeys : Formed named scope (correlation table keys scope)) (h : Formed named table f) :
      Formed named scope (.exists table (some (.conj [correlation table keys scope, f])))

end Filter

variable {f : Filter} {field : FieldRef} {negated : Bool} {scope : String}

/-! ## Tests -/

theorem formed_nullTest (hfield : named field.path) (isNull : Bool) :
    (nullTest field isNull).Formed named scope :=
  .leaf (.null hfield isNull)

theorem formed_compareLeaf (hfield : named field.path) (op : Comparison) (value : Value) :
    (compareLeaf field op value).Formed named scope :=
  .leaf (.comparison hfield op value)

/-- A negated test is one that null columns pass too. -/
theorem formed_orNull {test : Filter} (hfield : named field.path)
    (htest : test.Formed named scope) :
    (Filter.disj [test, nullTest field true]).Formed named scope :=
  .disj (List.cons_ne_nil _ _) (by simp [htest, formed_nullTest hfield])

/-- What a comparison lowers to is formed when its field is named. -/
theorem lowerComparison_formed (hfield : named field.path) {op : Comparison} {value : Value}
    (h : lowerComparison field op value negated = .filter f) : f.Formed named scope := by
  unfold lowerComparison at h
  split at h
  · cases op <;> first
      | contradiction
      | (obtain rfl := Lowered.filter.inj h; exact formed_nullTest hfield _)
  · obtain rfl := Lowered.filter.inj h
    split
    · exact formed_orNull hfield (formed_compareLeaf hfield _ value)
    · exact formed_compareLeaf hfield _ value

/-- What a text or pattern test lowers to is formed when its field is named. -/
theorem lowerMatch_formed (hfield : named field.path) {test : Filter}
    (hnone : test.HasNoComplement) (htest : test.Formed named scope)
    (h : lowerMatch field test negated = .filter f) : f.Formed named scope := by
  obtain rfl := Lowered.filter.inj h
  split
  · exact formed_orNull hfield (htest.neg hnone)
  · exact htest

/-! ## Formulas with others inside -/

/-- A chain of items is formed when what the items lower to is. -/
theorem chained_formed {conjunctive : Bool} {items : List Formula}
    (h : Chained conjunctive negated scope items [] (.filter f))
    (hitems : ∀ item ∈ items, ∀ g, lower negated scope item = .ok (.filter g) →
      g.Formed named scope) : f.Formed named scope := by
  obtain ⟨fs, hne, rfl, hfs⟩ := h.filters
  have hformed : ∀ g ∈ fs, g.Formed named scope := by
    intro g hg
    obtain ⟨item, hitem, hlow⟩ := hfs g hg
    exact hitems item hitem g hlow
  split
  · exact .conj hne hformed
  · exact .disj hne hformed

/-- A sub-query is formed, negated or not. -/
theorem subquery_formed {table : String} {clause : Filter}
    (hexists : (Filter.exists table (some clause)).Formed named scope)
    (h : Lowered.filter f = subquery negated table (some clause)) : f.Formed named scope := by
  obtain rfl := Lowered.filter.inj h
  split
  · exact hexists.neg trivial
  · exact hexists

/-- What a formula lowers to is formed about the row that the scope names, with names of the formula
and of the scope. -/
theorem lower_formed {formula : Formula} (hnames : ∀ s ∈ formula.allNames, named s)
    (hscope : named scope) (h : lower negated scope formula = .ok (.filter f)) :
    f.Formed named scope := by
  induction formula using Formula.induction generalizing negated scope f with
  | constant verdict =>
      have := Except.ok.inj h
      contradiction
  | compare field op value lexical =>
      have hfield := hnames field.path (Formula.names_subset _ (.head _))
      exact lowerComparison_formed hfield (Except.ok.inj h)
  | text field test part =>
      have hfield := hnames field.path (Formula.names_subset _ (.head _))
      cases part with
      | string part =>
          refine lowerMatch_formed hfield ?_ (.leaf (.like hfield _)) (Except.ok.inj h)
          exact comparator_condition field "LIKE" _
      | _ =>
          have := Except.ok.inj h
          contradiction
  | pattern field value =>
      have hfield := hnames field.path (Formula.names_subset _ (.head _))
      cases value with
      | string wanted =>
          refine lowerMatch_formed hfield ?_ (.patIndex hfield wanted) (Except.ok.inj h)
          exact trivial
      | _ =>
          have := Except.ok.inj h
          contradiction
  | any path element link parameters predicate ih =>
      obtain ⟨keys, parameter, inner, rfl, rfl, hinner, hlow⟩ := lower_any_eq_ok_iff.mp h
      have hname := fun s hs => hnames s (Formula.names_subset _ hs)
      have hpath := hname path (.head _)
      have hkeys : (correlation path keys scope).Formed named scope :=
        .leaf (.keys hpath hscope (hname _ (.tail _ (.head _)))
          (hname _ (.tail _ (.tail _ (.head _)))))
      rcases inner with (_ | _) | g
      · contradiction
      · exact subquery_formed (.linked hpath hkeys) hlow
      · -- The rows inside are those of the collection, which is the scope there.
        have hg : g.Formed named path := by
          refine ih (fun s hs => hnames s ?_) hpath hinner
          exact Formula.allNames_subset (fun _ => Formula.mem_subformulas_any) hs
        exact subquery_formed (.narrowed hpath hkeys hg) hlow
  | and items ih =>
      refine chained_formed (chained_of_ok h) fun item hitem g hlow =>
        ih item hitem (fun s hs => hnames s ?_) hscope hlow
      exact Formula.allNames_subset (fun _ => Formula.mem_subformulas_and hitem) hs
  | or items ih =>
      refine chained_formed (chained_of_ok h) fun item hitem g hlow =>
        ih item hitem (fun s hs => hnames s ?_) hscope hlow
      exact Formula.allNames_subset (fun _ => Formula.mem_subformulas_or hitem) hs
  | not item ih =>
      refine ih (fun s hs => hnames s ?_) hscope h
      exact Formula.allNames_subset (fun _ => Formula.mem_subformulas_not) hs

end Sql

end Selection
