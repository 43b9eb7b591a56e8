import Mathlib.Data.List.Forall2
import Selection.Proofs.Except
import Selection.Proofs.Reading
import Selection.Sql.Lowering

/-! # How formulas lower

A successful lowering is taken apart once for each kind of formula with others inside. A chain is
either decided by one item that absorbs the others, or it joins the filters of its items. A
quantifier gives a sub-query whose clause puts the condition on the keys before what its predicate
lowers to. A lowering fails only at a quantifier, for want of a link or of a single parameter.
-/

namespace Selection

/-- Every collection in a formula is linked, and its predicate has one parameter. -/
def Formula.Linked (f : Formula) : Prop :=
  ∀ path element link parameters predicate,
    any path element link parameters predicate ∈ f.subformulas →
      link.isSome = true ∧ parameters.length = 1

theorem Formula.Linked.mono {f g : Formula} (h : f.Linked)
    (hsubset : g.subformulas ⊆ f.subformulas) : g.Linked := by
  intro path element link parameters predicate hmem
  exact h path element link parameters predicate (hsubset hmem)

/-- The predicate of every quantifier in a formula has one parameter. -/
def Formula.OneParameter (f : Formula) : Prop :=
  ∀ path element link parameters predicate,
    any path element link parameters predicate ∈ f.subformulas → parameters.length = 1

theorem Formula.OneParameter.mono {f g : Formula} (h : f.OneParameter)
    (hsubset : g.subformulas ⊆ f.subformulas) : g.OneParameter := by
  intro path element link parameters predicate hmem
  exact h path element link parameters predicate (hsubset hmem)

/-- A formula asks, at some depth, for an element of a collection at the path that has no link. -/
def Formula.HasUnlinked (f : Formula) (path : String) : Prop :=
  ∃ element parameters predicate, any path element none parameters predicate ∈ f.subformulas

/-- A formula with one parameter each and no collection without a link is linked. -/
theorem Formula.OneParameter.linked {f : Formula} (h : f.OneParameter)
    (hnone : ∀ path, ¬f.HasUnlinked path) : f.Linked := by
  intro path element link parameters predicate hmem
  refine ⟨?_, h path element link parameters predicate hmem⟩
  cases link with
  | none => exact absurd ⟨element, parameters, predicate, hmem⟩ (hnone path)
  | some keys => rfl

theorem Formula.HasUnlinked.mono {f g : Formula} {path : String} (h : g.HasUnlinked path)
    (hsubset : g.subformulas ⊆ f.subformulas) : f.HasUnlinked path := by
  obtain ⟨element, parameters, predicate, hmem⟩ := h
  exact ⟨element, parameters, predicate, hsubset hmem⟩

namespace Sql

variable {conjunctive negated : Bool} {scope : String} {low : Lowered}

/-- The filter of a lowered formula that has no verdict of its own. -/
def Lowered.filter? : Lowered → Option Filter
  | constant _ => none
  | filter f => some f

/-- Filters joined to one; of no filters, the neutral verdict. -/
def join (conjunctive : Bool) (fs : List Filter) : Lowered :=
  if fs.isEmpty then .constant conjunctive
  else .filter (if conjunctive then .conj fs else .disj fs)

/-- A formula that a chain of items lowers to. -/
inductive Chained (conjunctive negated : Bool) (scope : String) (items : List Formula)
    (done : List Filter) : Lowered → Prop
  | absorbed (item : Formula) (hitem : item ∈ items)
      (h : lower negated scope item = .ok (.constant !conjunctive)) :
      Chained conjunctive negated scope items done (.constant !conjunctive)
  | joined (lows : List Lowered)
      (hlows : List.Forall₂ (fun item low => lower negated scope item = .ok low) items lows)
      (hneutral : ∀ low ∈ lows, low ≠ .constant !conjunctive) :
      Chained conjunctive negated scope items done
        (join conjunctive (done ++ lows.filterMap Lowered.filter?))

/-- An item that does not absorb the others goes before them. -/
theorem Chained.cons {item : Formula} {items : List Formula} {done : List Filter}
    {first : Lowered} (hfirst : lower negated scope item = .ok first)
    (hneutral : first ≠ .constant !conjunctive)
    (h : Chained conjunctive negated scope items (done ++ first.filter?.toList) low) :
    Chained conjunctive negated scope (item :: items) done low := by
  cases h with
  | absorbed other hother hverdict =>
      exact .absorbed other (List.mem_cons_of_mem _ hother) hverdict
  | joined lows hlows hrest =>
      have hjoined := @Chained.joined conjunctive negated scope (item :: items) done
        (first :: lows) (.cons hfirst hlows) (List.forall_mem_cons.mpr ⟨hneutral, hrest⟩)
      cases first <;> simpa [List.filterMap_cons, Lowered.filter?] using hjoined

/-- Everything that a successful lowering of a chain can have done. -/
theorem chained_of_ok {items : List Formula} {done : List Filter}
    (h : lowerChain conjunctive negated scope done items = .ok low) :
    Chained conjunctive negated scope items done low := by
  induction items generalizing done with
  | nil =>
      have hjoined := @Chained.joined conjunctive negated scope [] done [] .nil nofun
      rw [← Except.ok.inj h]
      simpa [join] using hjoined
  | cons item rest ih =>
      obtain ⟨first, hfirst, h⟩ := bind_eq_ok_iff.mp h
      cases first with
      | constant verdict =>
          dsimp only at h
          split at h
          next hneutral =>
            apply Chained.cons hfirst
            · simp [hneutral]
            · simpa [Lowered.filter?] using ih h
          next habsorbing =>
            have hverdict : verdict = !conjunctive := Bool.eq_not.mpr habsorbing
            rw [hverdict] at hfirst
            rw [← Except.ok.inj h, hverdict]
            exact .absorbed item List.mem_cons_self hfirst
      | filter f => exact .cons hfirst nofun (ih h)

/-- The filter of a chain joins filters of its items, at least one. -/
theorem Chained.filters {items : List Formula} {f : Filter}
    (h : Chained conjunctive negated scope items [] (.filter f)) :
    ∃ fs, fs ≠ [] ∧ f = (if conjunctive then .conj fs else .disj fs) ∧
      ∀ g ∈ fs, ∃ item ∈ items, lower negated scope item = .ok (.filter g) := by
  generalize hlow : Lowered.filter f = low at h
  cases h with
  | absorbed => contradiction
  | joined lows hlows _ =>
      rw [List.nil_append, join] at hlow
      split at hlow
      next => contradiction
      next hfilters =>
        refine ⟨lows.filterMap Lowered.filter?, ?_, Lowered.filter.inj hlow, ?_⟩
        · simpa using hfilters
        · intro g hg
          obtain ⟨low, hmem, hfilter⟩ := List.mem_filterMap.mp hg
          obtain rfl : low = .filter g := by
            cases low with
            | constant verdict => contradiction
            | filter g' => rw [Option.some.inj hfilter]
          exact exists_of_mem_outcomes hlows hmem

/-! ## Sub-queries -/

/-- The clause of a sub-query: the condition on its keys, and what its predicate lowers to unless
that accepts every row. None when it accepts no row. -/
def clause? (keys : Filter) : Lowered → Option Filter
  | .constant false => none
  | .constant true => some keys
  | .filter f => some (.conj [keys, f])

/-- The sub-query of a clause, possibly negated. -/
def subquery (negated : Bool) (table : String) : Option Filter → Lowered
  | none => .constant negated
  | some clause =>
    .filter <|
      if negated then (Filter.exists table (some clause)).neg else .exists table (some clause)

/-- A quantifier lowers when its collection is linked, its predicate has one parameter and that
lowers, to a sub-query with the correlation in it. -/
theorem lower_any_eq_ok_iff {path element : String} {link : Option Link}
    {parameters : List String} {predicate : Formula} :
    lower negated scope (.any path element link parameters predicate) = .ok low ↔
      ∃ keys parameter inner, link = some keys ∧ parameters = [parameter] ∧
        lower false path predicate = .ok inner ∧
        low = subquery negated path (clause? (correlation path keys scope) inner) := by
  constructor
  · intro h
    cases link with
    | none => contradiction
    | some keys =>
        obtain ⟨_, hparameters, h⟩ := bind_eq_ok_iff.mp h
        obtain ⟨inner, hinner, h⟩ := bind_eq_ok_iff.mp h
        match parameters, hparameters with
        | [parameter], _ =>
          refine ⟨keys, parameter, inner, rfl, rfl, hinner, ?_⟩
          rcases inner with (_ | _) | f <;> exact (Except.ok.inj h).symm
  · rintro ⟨keys, parameter, inner, rfl, rfl, hinner, rfl⟩
    rw [lower]
    simp only [onlyParameter, hinner]
    rcases inner with (_ | _) | f <;> rfl

/-! ## Failure and success -/

/-- A chain fails with the error of one of its items. -/
theorem lowerChain_eq_error {items : List Formula} {done : List Filter} {e : LowerError}
    (h : lowerChain conjunctive negated scope done items = .error e) :
    ∃ item ∈ items, lower negated scope item = .error e := by
  induction items generalizing done with
  | nil => contradiction
  | cons item rest ih =>
      have hrest {done : List Filter}
          (h : lowerChain conjunctive negated scope done rest = .error e) :
          ∃ other ∈ item :: rest, lower negated scope other = .error e := by
        obtain ⟨other, hother, hlow⟩ := ih h
        exact ⟨other, List.mem_cons_of_mem _ hother, hlow⟩
      rcases bind_eq_error_iff.mp h with hfirst | ⟨first, -, h⟩
      · exact ⟨item, List.mem_cons_self, hfirst⟩
      cases first with
      | constant verdict =>
          dsimp only at h
          split at h
          · exact hrest h
          · contradiction
      | filter f => exact hrest h

/-- A formula whose quantifiers have one parameter each fails to lower only at a collection that has
no link. -/
theorem lower_eq_error {f : Formula} (hone : f.OneParameter) {e : LowerError}
    (h : lower negated scope f = .error e) :
    ∃ path, f.HasUnlinked path ∧ e = .unlinkedCollection path := by
  induction f using Formula.induction generalizing negated scope with
  | constant verdict => contradiction
  | compare field op value lexical => contradiction
  | text field test part => cases part <;> contradiction
  | pattern field value => cases value <;> contradiction
  | any path element link parameters predicate ih =>
      have hsubset : predicate.subformulas ⊆
          (Formula.any path element link parameters predicate).subformulas :=
        fun _ => Formula.mem_subformulas_any
      have hlength := hone path element link parameters predicate (Formula.self_mem_subformulas _)
      obtain ⟨parameter, rfl⟩ := List.length_eq_one_iff.mp hlength
      cases link with
      | none =>
          rw [← Except.error.inj h]
          exact ⟨path, ⟨element, _, predicate, Formula.self_mem_subformulas _⟩, rfl⟩
      | some keys =>
          -- With a link and one parameter, only the predicate can fail.
          rcases bind_eq_error_iff.mp h with hparameter | ⟨-, -, h⟩
          · contradiction
          rcases bind_eq_error_iff.mp h with hpredicate | ⟨inner, -, h⟩
          · obtain ⟨path, hunlinked, he⟩ := ih (hone.mono hsubset) hpredicate
            exact ⟨path, hunlinked.mono hsubset, he⟩
          · rcases inner with (_ | _) | f <;> contradiction
  | and items ih =>
      obtain ⟨item, hitem, hlow⟩ := lowerChain_eq_error h
      have hsubset := fun g => Formula.mem_subformulas_and (g := g) hitem
      obtain ⟨path, hunlinked, he⟩ := ih item hitem (hone.mono hsubset) hlow
      exact ⟨path, hunlinked.mono hsubset, he⟩
  | or items ih =>
      obtain ⟨item, hitem, hlow⟩ := lowerChain_eq_error h
      have hsubset := fun g => Formula.mem_subformulas_or (g := g) hitem
      obtain ⟨path, hunlinked, he⟩ := ih item hitem (hone.mono hsubset) hlow
      exact ⟨path, hunlinked.mono hsubset, he⟩
  | not item ih =>
      have hsubset : item.subformulas ⊆ (Formula.not item).subformulas :=
        fun _ => Formula.mem_subformulas_not
      obtain ⟨path, hunlinked, he⟩ := ih (hone.mono hsubset) h
      exact ⟨path, hunlinked.mono hsubset, he⟩

/-- A formula whose quantifiers have links and one parameter each has a filter, either way. -/
theorem lower_succeeds {f : Formula} (hlinked : f.Linked) (negated : Bool) (scope : String) :
    ∃ low, lower negated scope f = .ok low := by
  have hone : f.OneParameter := by
    intro path element link parameters predicate hmem
    exact (hlinked path element link parameters predicate hmem).2
  cases hlow : lower negated scope f with
  | ok low => exact ⟨low, rfl⟩
  | error e =>
      obtain ⟨path, ⟨element, parameters, predicate, hmem⟩, -⟩ := lower_eq_error hone hlow
      have hlink := (hlinked path element none parameters predicate hmem).1
      contradiction

/-- A lambda of one parameter lowers when its body does. -/
theorem lowerLambda_eq_ok_iff {l : Lambda} {name : String} {filter : Option Filter}
    (hparameters : l.parameters = [name]) :
    lowerLambda l = .ok filter ↔
      ∃ low, lower false name l.body = .ok low ∧ low.toFilter? = filter := by
  rw [lowerLambda, hparameters]
  change (lower false name l.body >>= fun low => pure low.toFilter?) = _ ↔ _
  constructor
  · intro h
    obtain ⟨low, hlow, hfilter⟩ := bind_eq_ok_iff.mp h
    exact ⟨low, hlow, Except.ok.inj hfilter⟩
  · rintro ⟨low, hlow, rfl⟩
    exact bind_eq_ok_iff.mpr ⟨low, hlow, rfl⟩

end Sql

end Selection
