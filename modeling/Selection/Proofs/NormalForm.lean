import Selection.Proofs.Formed

/-! # The normal form of lowered filters

Filters are joined flat and a chain of one item is that item, so what a lambda lowers to has chains
of two items or more, none of them right inside a chain of its kind. Negation is pushed down and
stays only on tests that have no complement. A sub-query has a clause, and the filter that accepts
no row stands alone.
-/

namespace Selection

/-- The names that the query of a lambda is written with: those of its formula, and that of its
record, which the keys of its sub-queries refer to. -/
def Lambda.names (l : Lambda) : List String :=
  l.parameters ++ l.body.allNames

namespace Sql

variable {named : String → Prop}

namespace Filter

/-- A filter in normal form, about names of some kind. -/
inductive Normal (named : String → Prop) : Filter → Prop
  | leaf {c : Condition} (h : Tests named c) : Normal named (leaf c)
  | patIndex {field : FieldRef} (hfield : named field.path) (pattern : String) :
      Normal named (patIndex (columnOf field) (Value.quote pattern))
  | exists {table : String} {clause : Filter} (htable : named table)
      (hclause : Normal named clause) : Normal named (.exists table (some clause))
  | not {f : Filter} (hnone : f.HasNoComplement) (hitem : Normal named f) : Normal named (not f)
  | and {items : List Filter} (hlength : 2 ≤ items.length)
      (hitems : ∀ f ∈ items, Normal named f) (hflat : ∀ f ∈ items, ∀ others, f ≠ .and others) :
      Normal named (and items)
  | or {items : List Filter} (hlength : 2 ≤ items.length)
      (hitems : ∀ f ∈ items, Normal named f) (hflat : ∀ f ∈ items, ∀ others, f ≠ .or others) :
      Normal named (or items)

variable {f g : Filter} {fs : List Filter}

/-! ## Joining -/

theorem conjuncts_ne_nil (h : f.Normal named) : f.conjuncts ≠ [] := by
  cases h with
  | and hlength => exact List.ne_nil_of_length_pos (Nat.zero_lt_of_lt hlength)
  | _ => exact List.cons_ne_nil _ _

theorem disjuncts_ne_nil (h : f.Normal named) : f.disjuncts ≠ [] := by
  cases h with
  | or hlength => exact List.ne_nil_of_length_pos (Nat.zero_lt_of_lt hlength)
  | _ => exact List.cons_ne_nil _ _

/-- The conjuncts of a normal filter are normal and no conjunctions. -/
theorem Normal.conjunct (h : f.Normal named) (hg : g ∈ f.conjuncts) :
    g.Normal named ∧ ∀ others, g ≠ .and others := by
  cases f with
  | and items =>
      cases h with
      | and _ hitems hflat => exact ⟨hitems g hg, hflat g hg⟩
  | _ =>
      rw [List.mem_singleton.mp hg]
      exact ⟨h, nofun⟩

/-- The disjuncts of a normal filter are normal and no disjunctions. -/
theorem Normal.disjunct (h : f.Normal named) (hg : g ∈ f.disjuncts) :
    g.Normal named ∧ ∀ others, g ≠ .or others := by
  cases f with
  | or items =>
      cases h with
      | or _ hitems hflat => exact ⟨hitems g hg, hflat g hg⟩
  | _ =>
      rw [List.mem_singleton.mp hg]
      exact ⟨h, nofun⟩

/-- A list that is neither empty nor of one item has two or more. -/
theorem two_le_length {items : List Filter} (hne : items ≠ []) (hone : ∀ f, items ≠ [f]) :
    2 ≤ items.length := by
  match items with
  | [] => contradiction
  | [f] => exact absurd rfl (hone f)
  | _ :: _ :: _ => simp

/-- The conjunction of normal filters is normal. -/
theorem Normal.conj (hne : fs ≠ []) (h : ∀ f ∈ fs, f.Normal named) :
    (Filter.conj fs).Normal named := by
  have hitems : ∀ g ∈ fs.flatMap conjuncts, g.Normal named ∧ ∀ others, g ≠ .and others := by
    intro g hg
    obtain ⟨f, hf, hg⟩ := List.mem_flatMap.mp hg
    exact (h f hf).conjunct hg
  have hnonempty : fs.flatMap conjuncts ≠ [] := by
    obtain ⟨f, hf⟩ := List.exists_mem_of_ne_nil fs hne
    obtain ⟨g, hg⟩ := List.exists_mem_of_ne_nil _ (conjuncts_ne_nil (h f hf))
    exact List.ne_nil_of_mem (List.mem_flatMap.mpr ⟨f, hf, hg⟩)
  unfold Filter.conj
  split
  next f hone => exact (hitems f (hone ▸ List.mem_singleton_self f)).1
  next hmany =>
    exact .and (two_le_length hnonempty hmany) (fun g hg => (hitems g hg).1)
      fun g hg => (hitems g hg).2

theorem Normal.disj (hne : fs ≠ []) (h : ∀ f ∈ fs, f.Normal named) :
    (Filter.disj fs).Normal named := by
  have hitems : ∀ g ∈ fs.flatMap disjuncts, g.Normal named ∧ ∀ others, g ≠ .or others := by
    intro g hg
    obtain ⟨f, hf, hg⟩ := List.mem_flatMap.mp hg
    exact (h f hf).disjunct hg
  have hnonempty : fs.flatMap disjuncts ≠ [] := by
    obtain ⟨f, hf⟩ := List.exists_mem_of_ne_nil fs hne
    obtain ⟨g, hg⟩ := List.exists_mem_of_ne_nil _ (disjuncts_ne_nil (h f hf))
    exact List.ne_nil_of_mem (List.mem_flatMap.mpr ⟨f, hf, hg⟩)
  unfold Filter.disj
  split
  next f hone => exact (hitems f (hone ▸ List.mem_singleton_self f)).1
  next hmany =>
    exact .or (two_le_length hnonempty hmany) (fun g hg => (hitems g hg).1)
      fun g hg => (hitems g hg).2

/-- The negation of a test in normal form; nothing is undone. -/
theorem Normal.neg (hnone : f.HasNoComplement) (h : f.Normal named) : f.neg.Normal named := by
  cases f with
  | not item => contradiction
  | _ => exact .not hnone h

/-- What is formed as lowering does is in normal form. -/
theorem Formed.normal {scope : String} (h : f.Formed named scope) : f.Normal named := by
  induction h with
  | leaf htest => exact .leaf htest
  | patIndex hfield pattern => exact .patIndex hfield pattern
  | neg hnone _ ih => exact ih.neg hnone
  | conj hne _ ih => exact .conj hne ih
  | disj hne _ ih => exact .disj hne ih
  | linked htable _ ih => exact .exists htable ih
  | narrowed htable _ _ ihkeys ih =>
      refine .exists htable (.conj (List.cons_ne_nil _ _) ?_)
      simp [ihkeys, ih]

end Filter

/-- What a formula lowers to is in normal form, about names of the formula and of the scope. -/
theorem lower_normal {f : Filter} {formula : Formula} {negated : Bool} {scope : String}
    (hnames : ∀ s ∈ formula.allNames, named s) (hscope : named scope)
    (h : lower negated scope formula = .ok (.filter f)) : f.Normal named :=
  (lower_formed hnames hscope h).normal

end Sql

end Selection
