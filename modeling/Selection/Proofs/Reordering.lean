import Selection.Proofs.Lowered

/-! # Lowering and the order of parts

A chain is lowered item by item, up to one that decides it alone. What stands behind that item is
not looked at, so an item that cannot be lowered makes the chain fail in one order and not in
another. Two orders that both lower come to the same kind of result. All orders lower exactly when
every collection is linked, with one parameter for its elements; and some order lowers exactly when
the one does that puts deciding items first.
-/

namespace Selection

namespace Formula

/-- A formula is another one with the items of its chains in another order, at any depth. -/
inductive Reordered : Formula → Formula → Prop
  | refl (f : Formula) : Reordered f f
  | trans {f g h : Formula} (hfirst : Reordered f g) (hsecond : Reordered g h) : Reordered f h
  | and {items others : List Formula} (h : items.Perm others) :
      Reordered (.and items) (.and others)
  | or {items others : List Formula} (h : items.Perm others) : Reordered (.or items) (.or others)
  | andItem (before after : List Formula) {f g : Formula} (h : Reordered f g) :
      Reordered (.and (before ++ f :: after)) (.and (before ++ g :: after))
  | orItem (before after : List Formula) {f g : Formula} (h : Reordered f g) :
      Reordered (.or (before ++ f :: after)) (.or (before ++ g :: after))
  | any (path element : String) (link : Option Link) (parameters : List String) {f g : Formula}
      (h : Reordered f g) :
      Reordered (.any path element link parameters f) (.any path element link parameters g)
  | not {f g : Formula} (h : Reordered f g) : Reordered (.not f) (.not g)

variable {f g : Formula} {items others : List Formula}

/-- Items are reordered one after the other, in any place where each of them may be. -/
theorem Reordered.ofItems {join : List Formula → Formula}
    (hitem : ∀ before after f g, Reordered f g →
      Reordered (join (before ++ f :: after)) (join (before ++ g :: after)))
    (before : List Formula) (h : List.Forall₂ Reordered items others) :
    Reordered (join (before ++ items)) (join (before ++ others)) := by
  induction h generalizing before with
  | nil => exact .refl _
  | @cons item other items others hhead _ ih =>
      have hrest := ih (before ++ [other])
      rw [List.append_assoc, List.append_assoc] at hrest
      exact .trans (hitem before items item other hhead) hrest

/-! ## Linked formulas -/

/-- A quantifier is linked when its collection is, with one parameter, and so is its predicate. -/
theorem linked_any_iff {path element : String} {link : Option Link} {parameters : List String} :
    (any path element link parameters f).Linked ↔
      (link.isSome = true ∧ parameters.length = 1) ∧ f.Linked := by
  constructor
  · intro h
    refine ⟨h _ _ _ _ _ (self_mem_subformulas _), h.mono ?_⟩
    exact fun _ => mem_subformulas_any
  · rintro ⟨hlinked, hf⟩ path' element' link' parameters' predicate' hmem
    rcases List.mem_cons.mp hmem with heq | hmem
    · cases heq
      exact hlinked
    · exact hf _ _ _ _ _ hmem

theorem linked_and_iff : (and items).Linked ↔ ∀ item ∈ items, item.Linked := by
  constructor
  · exact fun h item hitem => h.mono fun _ => mem_subformulas_and hitem
  · intro h path element link parameters predicate hmem
    rw [subformulas, List.mem_cons, mem_allSubformulas] at hmem
    obtain heq | ⟨item, hitem, hmem⟩ := hmem
    · contradiction
    · exact h item hitem _ _ _ _ _ hmem

theorem linked_or_iff : (or items).Linked ↔ ∀ item ∈ items, item.Linked := by
  constructor
  · exact fun h item hitem => h.mono fun _ => mem_subformulas_or hitem
  · intro h path element link parameters predicate hmem
    rw [subformulas, List.mem_cons, mem_allSubformulas] at hmem
    obtain heq | ⟨item, hitem, hmem⟩ := hmem
    · contradiction
    · exact h item hitem _ _ _ _ _ hmem

theorem linked_not_iff : (not f).Linked ↔ f.Linked := by
  simp [Linked, subformulas]

/-- Reordering keeps what is linked. -/
theorem Reordered.linked (h : Reordered f g) (hf : f.Linked) : g.Linked := by
  induction h with
  | refl => exact hf
  | trans _ _ ihFirst ihSecond => exact ihSecond (ihFirst hf)
  | and h =>
      rw [linked_and_iff] at hf ⊢
      exact fun item hitem => hf item (h.mem_iff.mpr hitem)
  | or h =>
      rw [linked_or_iff] at hf ⊢
      exact fun item hitem => hf item (h.mem_iff.mpr hitem)
  | andItem before after _ ih =>
      rw [linked_and_iff, List.forall_mem_append, List.forall_mem_cons] at hf ⊢
      exact ⟨hf.1, ih hf.2.1, hf.2.2⟩
  | orItem before after _ ih =>
      rw [linked_or_iff, List.forall_mem_append, List.forall_mem_cons] at hf ⊢
      exact ⟨hf.1, ih hf.2.1, hf.2.2⟩
  | any path element link parameters _ ih =>
      rw [linked_any_iff] at hf ⊢
      exact ⟨hf.1, ih hf.2⟩
  | not _ ih =>
      rw [linked_not_iff] at hf ⊢
      exact ih hf

end Formula

namespace Sql

open Formula (Reordered)

/-! ## Outcomes -/

/-- What a formula comes to when it is lowered: a failure, a verdict on every row, or a filter. -/
inductive Outcome where
  | failure
  | constant (verdict : Bool)
  | filter
deriving DecidableEq

def outcome : Except LowerError Lowered → Outcome
  | .error _ => .failure
  | .ok (.constant verdict) => .constant verdict
  | .ok (.filter _) => .filter

/-- The outcome of a chain from those of its items, when filters have been found before or not. -/
def chainOutcome (conjunctive found : Bool) : List Outcome → Outcome
  | [] => if found then .filter else .constant conjunctive
  | .failure :: _ => .failure
  | .constant verdict :: rest =>
    if verdict = conjunctive then chainOutcome conjunctive found rest else .constant verdict
  | .filter :: rest => chainOutcome conjunctive true rest

/-- The outcome of a linked quantifier from that of its predicate. -/
def anyOutcome (negated : Bool) : Outcome → Outcome
  | .failure => .failure
  | .constant false => .constant negated
  | .constant true | .filter => .filter

variable {conjunctive found negated : Bool} {scope : String} {f g : Formula}
  {items : List Formula} {os os' : List Outcome}

/-- The outcome is a failure when nothing is lowered. -/
theorem outcome_eq_failure_iff {x : Except LowerError Lowered} :
    outcome x = .failure ↔ ¬∃ low, x = .ok low := by
  rcases x with e | (verdict | f) <;> simp [outcome]

/-- The outcomes of some formulas. -/
def outcomes (negated : Bool) (scope : String) (items : List Formula) : List Outcome :=
  items.map fun item => outcome (lower negated scope item)

theorem outcomes_cons (item : Formula) (rest : List Formula) :
    outcomes negated scope (item :: rest) =
      outcome (lower negated scope item) :: outcomes negated scope rest :=
  rfl

/-- The outcome of a chain depends on the outcomes of its items only. -/
theorem outcome_lowerChain (done : List Filter) :
    outcome (lowerChain conjunctive negated scope done items) =
      chainOutcome conjunctive (!done.isEmpty) (outcomes negated scope items) := by
  induction items generalizing done with
  | nil => cases done <;> rfl
  | cons item rest ih =>
      rw [lowerChain, outcomes_cons]
      rcases lower negated scope item with e | (verdict | f)
      · rfl
      · change outcome (if verdict = conjunctive then _ else _) =
          if verdict = conjunctive then _ else _
        split
        · exact ih done
        · rfl
      · have hfound : (!(done ++ [f]).isEmpty) = true := by simp
        exact (ih (done ++ [f])).trans (congrArg (chainOutcome _ · _) hfound)

theorem outcome_lower_any {path element : String} {link : Option Link} {parameters : List String} :
    outcome (lower negated scope (.any path element link parameters f)) =
      if link.isSome = true ∧ parameters.length = 1 then
        anyOutcome negated (outcome (lower false path f))
      else .failure := by
  split
  next hlinked =>
    obtain ⟨keys, rfl⟩ := Option.isSome_iff_exists.mp hlinked.1
    obtain ⟨parameter, rfl⟩ := List.length_eq_one_iff.mp hlinked.2
    rw [lower]
    simp only [onlyParameter]
    rcases lower false path f with e | ((_ | _) | inner) <;> rfl
  next hlinked =>
    rw [outcome_eq_failure_iff]
    rintro ⟨low, hlow⟩
    obtain ⟨keys, parameter, inner, rfl, rfl, -⟩ := lower_any_eq_ok_iff.mp hlow
    exact hlinked ⟨rfl, rfl⟩

theorem outcome_lower_and :
    outcome (lower negated scope (.and items)) =
      chainOutcome (!negated) false (outcomes negated scope items) :=
  outcome_lowerChain []

theorem outcome_lower_or :
    outcome (lower negated scope (.or items)) =
      chainOutcome negated false (outcomes negated scope items) :=
  outcome_lowerChain []

/-! ## The best order -/

/-- The outcome of a chain in which an item that decides it alone stands first, if it has one. -/
def bestOfChain (conjunctive : Bool) (os : List Outcome) : Outcome :=
  if .constant (!conjunctive) ∈ os then .constant !conjunctive
  else chainOutcome conjunctive false os

mutual

/-- The outcome of a formula, or of its negation, when items that decide a chain alone stand first
in all its chains. -/
def bestOutcome (negated : Bool) : Formula → Outcome
  | .any _ _ link parameters predicate =>
    if link.isSome = true ∧ parameters.length = 1 then
      anyOutcome negated (bestOutcome false predicate)
    else .failure
  | .and items => bestOfChain (!negated) (bestOutcomes negated items)
  | .or items => bestOfChain negated (bestOutcomes negated items)
  | .not item => bestOutcome (!negated) item
  | f => outcome (lower negated "" f)

/-- The best outcomes of some formulas. -/
def bestOutcomes (negated : Bool) : List Formula → List Outcome
  | [] => []
  | item :: rest => bestOutcome negated item :: bestOutcomes negated rest

end

theorem bestOutcomes_eq : bestOutcomes negated items = items.map (bestOutcome negated) := by
  induction items with
  | nil => rfl
  | cons item rest ih => rw [bestOutcomes, ih, List.map_cons]

/-- Without an item that decides it alone, a chain fails with any of its items, and else it has a
filter when one of them has. -/
theorem chainOutcome_eq (hnone : .constant (!conjunctive) ∉ os) :
    chainOutcome conjunctive found os =
      if .failure ∈ os then .failure
      else if found = true ∨ .filter ∈ os then .filter else .constant conjunctive := by
  induction os generalizing found with
  | nil => simp [chainOutcome]
  | cons o rest ih =>
      rw [List.mem_cons, not_or] at hnone
      cases o with
      | failure => simp [chainOutcome]
      | constant verdict =>
          have hverdict : verdict = conjunctive := by simpa [eq_comm] using hnone.1
          simp [chainOutcome, hverdict, ih hnone.2]
      | filter => simp [chainOutcome, ih hnone.2]

/-- The best outcome of a chain does not depend on the order of its items. -/
theorem bestOfChain_perm (h : os.Perm os') :
    bestOfChain conjunctive os = bestOfChain conjunctive os' := by
  unfold bestOfChain
  simp only [h.mem_iff]
  split
  next => rfl
  next hnone =>
    rw [chainOutcome_eq hnone, chainOutcome_eq (mt h.mem_iff.mp hnone)]
    simp only [h.mem_iff]

/-- The best outcome of a formula does not depend on its order. -/
theorem bestOutcome_congr (h : Reordered f g) (negated : Bool) :
    bestOutcome negated f = bestOutcome negated g := by
  induction h generalizing negated with
  | refl => rfl
  | trans _ _ ihFirst ihSecond => exact (ihFirst negated).trans (ihSecond negated)
  | and h =>
      rw [bestOutcome, bestOutcome, bestOutcomes_eq, bestOutcomes_eq]
      exact bestOfChain_perm (h.map _)
  | or h =>
      rw [bestOutcome, bestOutcome, bestOutcomes_eq, bestOutcomes_eq]
      exact bestOfChain_perm (h.map _)
  | andItem before after _ ih =>
      simp only [bestOutcome, bestOutcomes_eq, List.map_append, List.map_cons, ih]
  | orItem before after _ ih =>
      simp only [bestOutcome, bestOutcomes_eq, List.map_append, List.map_cons, ih]
  | any path element link parameters _ ih => rw [bestOutcome, bestOutcome, ih]
  | not _ ih => exact ih (!negated)

/-- A chain fails or comes to what it does in the best order, when its items do so. -/
theorem chainOutcome_eq_failure_or (h : List.Forall₂ (fun o o' => o = .failure ∨ o = o') os os') :
    chainOutcome conjunctive found os = .failure ∨
      chainOutcome conjunctive found os =
        if .constant (!conjunctive) ∈ os' then .constant !conjunctive
        else chainOutcome conjunctive found os' := by
  induction h generalizing found with
  | nil => exact .inr rfl
  | @cons o o' os os' ho _ ih =>
      rcases ho with rfl | rfl
      · exact .inl rfl
      · cases o with
        | failure => exact .inl rfl
        | constant verdict =>
            by_cases hverdict : verdict = conjunctive
            · simpa [chainOutcome, hverdict] using ih
            · exact .inr (by simp [chainOutcome, Bool.eq_not.mpr hverdict])
        | filter => simpa [chainOutcome] using ih

/-- A chain whose items fail or have their best outcomes fails or has its best outcome. -/
theorem chain_eq_failure_or_best
    (h : ∀ item ∈ items, outcome (lower negated scope item) = .failure ∨
      outcome (lower negated scope item) = bestOutcome negated item) :
    chainOutcome conjunctive false (outcomes negated scope items) = .failure ∨
      chainOutcome conjunctive false (outcomes negated scope items) =
        bestOfChain conjunctive (bestOutcomes negated items) := by
  rw [bestOutcomes_eq]
  apply chainOutcome_eq_failure_or
  rw [outcomes, List.forall₂_map_left_iff, List.forall₂_map_right_iff, List.forall₂_same]
  exact h

/-- A formula fails to lower, or comes to what it does in the best order. -/
theorem outcome_eq_failure_or_best (f : Formula) (negated : Bool) (scope : String) :
    outcome (lower negated scope f) = .failure ∨
      outcome (lower negated scope f) = bestOutcome negated f := by
  induction f using Formula.induction generalizing negated scope with
  | constant verdict => exact .inr rfl
  | compare field op value lexical => exact .inr rfl
  | text field test part => cases part <;> exact .inr rfl
  | pattern field value => cases value <;> exact .inr rfl
  | any path element link parameters predicate ih =>
      rw [outcome_lower_any, bestOutcome]
      split
      · rcases ih false path with h | h <;> rw [h]
        · exact .inl rfl
        · exact .inr rfl
      · exact .inl rfl
  | and items ih =>
      rw [outcome_lower_and, bestOutcome]
      exact chain_eq_failure_or_best fun item hitem => ih item hitem negated scope
  | or items ih =>
      rw [outcome_lower_or, bestOutcome]
      exact chain_eq_failure_or_best fun item hitem => ih item hitem negated scope
  | not item ih => exact ih (!negated) scope

/-- The items of a chain have an order in which one that decides it alone stands first, if there is
one. -/
theorem exists_perm_best (conjunctive negated : Bool) (scope : String) (items : List Formula) :
    ∃ others, items.Perm others ∧
      chainOutcome conjunctive false (outcomes negated scope others) =
        bestOfChain conjunctive (outcomes negated scope items) := by
  unfold bestOfChain
  split
  next hdeciding =>
    obtain ⟨item, hitem, hlow⟩ := List.mem_map.mp hdeciding
    obtain ⟨before, after, rfl⟩ := List.append_of_mem hitem
    refine ⟨_, List.perm_middle, ?_⟩
    simp [outcomes_cons, hlow, chainOutcome]
  next => exact ⟨items, .refl items, rfl⟩

theorem exists_items_best
    (h : ∀ item ∈ items, ∃ g, Reordered item g ∧
      outcome (lower negated scope g) = bestOutcome negated item) :
    ∃ others, List.Forall₂ Reordered items others ∧
      outcomes negated scope others = bestOutcomes negated items := by
  obtain ⟨others, hothers⟩ := exists_forall₂_iff.mpr h
  refine ⟨others, hothers.imp fun _ _ h => h.1, ?_⟩
  rw [bestOutcomes_eq, outcomes, ← List.forall₂_eq_eq_eq, List.forall₂_map_left_iff,
    List.forall₂_map_right_iff]
  exact (hothers.imp fun _ _ h => h.2).flip

/-- Some order of the items of all chains is the best one: the items of a chain are put in their
best orders first, and then one that decides the chain alone goes to the front. -/
theorem exists_reordered_best (f : Formula) (negated : Bool) (scope : String) :
    ∃ g, Reordered f g ∧ outcome (lower negated scope g) = bestOutcome negated f := by
  induction f using Formula.induction generalizing negated scope with
  | constant verdict => exact ⟨_, .refl _, rfl⟩
  | compare field op value lexical => exact ⟨_, .refl _, rfl⟩
  | text field test part => cases part <;> exact ⟨_, .refl _, rfl⟩
  | pattern field value => cases value <;> exact ⟨_, .refl _, rfl⟩
  | any path element link parameters predicate ih =>
      obtain ⟨g, hg, hlow⟩ := ih false path
      exact ⟨_, .any path element link parameters hg, by rw [outcome_lower_any, hlow, bestOutcome]⟩
  | and items ih =>
      obtain ⟨others, hothers, hlows⟩ :=
        exists_items_best fun item hitem => ih item hitem negated scope
      obtain ⟨ordered, hperm, hlow⟩ := exists_perm_best (!negated) negated scope others
      refine ⟨_, .trans (.ofItems (fun _ _ _ _ => .andItem _ _) [] hothers) (.and hperm), ?_⟩
      rw [outcome_lower_and, hlow, hlows, bestOutcome]
  | or items ih =>
      obtain ⟨others, hothers, hlows⟩ :=
        exists_items_best fun item hitem => ih item hitem negated scope
      obtain ⟨ordered, hperm, hlow⟩ := exists_perm_best negated negated scope others
      refine ⟨_, .trans (.ofItems (fun _ _ _ _ => .orItem _ _) [] hothers) (.or hperm), ?_⟩
      rw [outcome_lower_or, hlow, hlows, bestOutcome]
  | not item ih =>
      obtain ⟨g, hg, hlow⟩ := ih (!negated) scope
      exact ⟨_, .not hg, hlow⟩

/-! ## An order that fails -/

/-- An item that cannot be lowered makes its chain fail when it stands first. -/
theorem exists_reordered_failure {f : Formula} (h : ¬f.Linked) (negated : Bool) (scope : String) :
    ∃ g, Reordered f g ∧ outcome (lower negated scope g) = .failure := by
  induction f using Formula.induction generalizing negated scope with
  | constant verdict => simp [Formula.Linked, Formula.subformulas] at h
  | compare field op value lexical => simp [Formula.Linked, Formula.subformulas] at h
  | text field test part => simp [Formula.Linked, Formula.subformulas] at h
  | pattern field value => simp [Formula.Linked, Formula.subformulas] at h
  | any path element link parameters predicate ih =>
      rw [Formula.linked_any_iff, not_and] at h
      by_cases hlinked : link.isSome = true ∧ parameters.length = 1
      · obtain ⟨g, hg, hlow⟩ := ih (h hlinked) false path
        refine ⟨_, .any path element link parameters hg, ?_⟩
        rw [outcome_lower_any, if_pos hlinked, hlow]
        rfl
      · exact ⟨_, .refl _, by rw [outcome_lower_any, if_neg hlinked]⟩
  | and items ih =>
      simp only [Formula.linked_and_iff, not_forall] at h
      obtain ⟨item, hitem, hunlinked⟩ := h
      obtain ⟨g, hg, hlow⟩ := ih item hitem hunlinked negated scope
      -- The item is moved to the front, where no constant can end the chain before it.
      obtain ⟨before, after, rfl⟩ := List.append_of_mem hitem
      refine ⟨_, .trans (.andItem before after hg) (.and List.perm_middle), ?_⟩
      rw [outcome_lower_and, outcomes_cons, hlow]
      rfl
  | or items ih =>
      simp only [Formula.linked_or_iff, not_forall] at h
      obtain ⟨item, hitem, hunlinked⟩ := h
      obtain ⟨g, hg, hlow⟩ := ih item hitem hunlinked negated scope
      obtain ⟨before, after, rfl⟩ := List.append_of_mem hitem
      refine ⟨_, .trans (.orItem before after hg) (.or List.perm_middle), ?_⟩
      rw [outcome_lower_or, outcomes_cons, hlow]
      rfl
  | not item ih =>
      rw [Formula.linked_not_iff] at h
      obtain ⟨g, hg, hlow⟩ := ih h (!negated) scope
      exact ⟨_, .not hg, hlow⟩

/-! ## All orders -/

/-- A lambda has a filter, or accepts every row. -/
def Lowers (l : Lambda) : Prop :=
  ∃ filter, lowerLambda l = .ok filter

variable {name : String}

/-- A formula lowers when its outcome is no failure. -/
theorem lowers_iff : Lowers (.ofRecord name f) ↔ outcome (lower false name f) ≠ .failure := by
  rw [Ne, outcome_eq_failure_iff, not_not]
  constructor
  · rintro ⟨filter, h⟩
    obtain ⟨low, hlow, -⟩ := (lowerLambda_eq_ok_iff rfl).mp h
    exact ⟨low, hlow⟩
  · rintro ⟨low, hlow⟩
    exact ⟨_, (lowerLambda_eq_ok_iff rfl).mpr ⟨low, hlow, rfl⟩⟩

theorem all_orders_lower_iff :
    (∀ g, Reordered f g → Lowers (.ofRecord name g)) ↔ f.Linked := by
  constructor
  · intro h
    by_contra hunlinked
    obtain ⟨g, hg, hlow⟩ := exists_reordered_failure hunlinked false name
    exact lowers_iff.mp (h g hg) hlow
  · intro hlinked g hg
    obtain ⟨low, hlow⟩ := lower_succeeds (hg.linked hlinked) false name
    rw [lowers_iff, Ne, outcome_eq_failure_iff, not_not]
    exact ⟨low, hlow⟩

/-- A formula lowers in some order just when its best outcome is no failure. -/
theorem some_order_lowers_iff :
    (∃ g, Reordered f g ∧ Lowers (.ofRecord name g)) ↔ bestOutcome false f ≠ .failure := by
  constructor
  · rintro ⟨g, hg, hlowers⟩ hbest
    have hfails := outcome_eq_failure_or_best g false name
    rw [← bestOutcome_congr hg, hbest, or_self] at hfails
    exact lowers_iff.mp hlowers hfails
  · intro hbest
    obtain ⟨g, hg, hlow⟩ := exists_reordered_best f false name
    exact ⟨g, hg, lowers_iff.mpr (hlow ▸ hbest)⟩

/-- All orders of the items of chains in a lambda lower when its collections are linked, with one
parameter for their elements. None does when the best order fails. These are the lambdas for which
the order is indifferent: of every other one, some order lowers and some order fails. -/
theorem order_is_indifferent_iff (name : String) (f : Formula) :
    ((∀ g, Reordered f g → Lowers (.ofRecord name g)) ↔ f.Linked) ∧
      ((∃ g, Reordered f g ∧ Lowers (.ofRecord name g)) ↔ bestOutcome false f ≠ .failure) ∧
      ((∀ g, Reordered f g → (Lowers (.ofRecord name g) ↔ Lowers (.ofRecord name f))) ↔
        f.Linked ∨ bestOutcome false f = .failure) := by
  refine ⟨all_orders_lower_iff, some_order_lowers_iff, ?_⟩
  rw [← @all_orders_lower_iff f name, ← not_ne_iff, ← @some_order_lowers_iff f name]
  constructor
  · intro hsame
    by_cases hlowers : Lowers (.ofRecord name f)
    · exact .inl fun g hg => (hsame g hg).mpr hlowers
    · exact .inr fun ⟨g, hg, h⟩ => hlowers ((hsame g hg).mp h)
  · rintro (hall | hnone) g hg
    · exact iff_of_true (hall g hg) (hall f (.refl f))
    · exact iff_of_false (fun h => hnone ⟨g, hg, h⟩) fun h => hnone ⟨f, .refl f, h⟩

/-- An ordering against a null decides a conjunction before a collection without a link. Behind the
collection it comes too late. -/
theorem ordering_hides_unlinked :
    let never := Formula.compare ⟨"i", .int⟩ .gt .null false
    let unlinked := Formula.any "tags" "Part" none ["Part"] (.constant true)
    Reordered (.and [never, unlinked]) (.and [unlinked, never]) ∧
      lowerLambda (.ofRecord "Wide" (.and [never, unlinked])) = .ok (some .never) ∧
      lowerLambda (.ofRecord "Wide" (.and [unlinked, never])) =
        .error (.unlinkedCollection "tags") :=
  ⟨.and (.swap _ _ []), rfl, rfl⟩

end Sql

end Selection
