import Mathlib.Data.List.Basic
import Mathlib.Tactic.Common
import Selection.Lambda.Basic
import Selection.Record

/-! # The direct reading of formulas

A formula is read on a record in two-valued logic, test by test, with nothing folded and nothing
pushed inwards. What a pattern matches is a parameter. Joining and negating formulas folds constants
and flattens chains, and none of that changes a reading.
-/

namespace Selection

namespace Formula

/-! ## Formulas inside formulas -/

/-- Induction on formulas, with a hypothesis for every item of a chain. -/
theorem induction {motive : Formula → Prop}
    (constant : ∀ verdict, motive (constant verdict))
    (compare : ∀ field op value lexical, motive (compare field op value lexical))
    (text : ∀ field test part, motive (text field test part))
    (pattern : ∀ field value, motive (pattern field value))
    (any : ∀ path element link parameters predicate, motive predicate →
      motive (any path element link parameters predicate))
    (and : ∀ items, (∀ item ∈ items, motive item) → motive (and items))
    (or : ∀ items, (∀ item ∈ items, motive item) → motive (or items))
    (not : ∀ item, motive item → motive (not item)) (f : Formula) : motive f := by
  refine @Formula.rec motive (fun items => ∀ item ∈ items, motive item) constant compare text
    pattern any and or not ?_ ?_ f
  · intro item hitem
    exact absurd hitem List.not_mem_nil
  · intro head tail hhead htail item hitem
    rcases List.mem_cons.mp hitem with rfl | hmem
    · exact hhead
    · exact htail item hmem

mutual

/-- The formula itself and all formulas inside it, those of its quantifiers included. -/
def subformulas : Formula → List Formula
  | any path element link parameters predicate =>
    any path element link parameters predicate :: predicate.subformulas
  | and items => and items :: allSubformulas items
  | or items => or items :: allSubformulas items
  | not item => not item :: item.subformulas
  | f => [f]

/-- The formulas inside some formulas. -/
def allSubformulas : List Formula → List Formula
  | [] => []
  | item :: rest => item.subformulas ++ allSubformulas rest

end

theorem mem_allSubformulas {items : List Formula} {g : Formula} :
    g ∈ allSubformulas items ↔ ∃ item ∈ items, g ∈ item.subformulas := by
  induction items with
  | nil => simp [allSubformulas]
  | cons item rest ih => simp [allSubformulas, ih]

theorem self_mem_subformulas (f : Formula) : f ∈ f.subformulas := by
  cases f <;> simp [subformulas]

theorem mem_subformulas_any {path element : String} {link : Option Link}
    {parameters : List String} {predicate g : Formula} (hmem : g ∈ predicate.subformulas) :
    g ∈ (any path element link parameters predicate).subformulas := by
  rw [subformulas]
  exact List.mem_cons_of_mem _ hmem

theorem mem_subformulas_and {items : List Formula} {item g : Formula} (hitem : item ∈ items)
    (hmem : g ∈ item.subformulas) : g ∈ (and items).subformulas := by
  rw [subformulas]
  exact List.mem_cons_of_mem _ (mem_allSubformulas.mpr ⟨item, hitem, hmem⟩)

theorem mem_subformulas_or {items : List Formula} {item g : Formula} (hitem : item ∈ items)
    (hmem : g ∈ item.subformulas) : g ∈ (or items).subformulas := by
  rw [subformulas]
  exact List.mem_cons_of_mem _ (mem_allSubformulas.mpr ⟨item, hitem, hmem⟩)

theorem mem_subformulas_not {item g : Formula} (hmem : g ∈ item.subformulas) :
    g ∈ (not item).subformulas := by
  rw [subformulas]
  exact List.mem_cons_of_mem _ hmem

/-! ## Reading -/

mutual

/-- The reading of a formula on a record; `like` tells whether a pattern matches a text. A test is
false when a nested record on its path is absent. -/
def holds (like : String → String → Bool) (r : Record) : Formula → Bool
  | constant verdict => verdict
  | compare field op value _ =>
    match r.value? field.path with
    | some actual => op.evaluate actual value
    | none => false
  | text field test part =>
    match r.value? field.path, part with
    | some (.string actual), .string part => test.holds actual part
    | _, _ => false
  | pattern field value =>
    match r.value? field.path, value with
    | some (.string actual), .string wanted => like wanted actual
    | _, _ => false
  | any path _ _ _ predicate =>
    match r.elements? path with
    | some elements => elements.any fun e => predicate.holds like e
    | none => false
  | and items => allHold like r items
  | or items => someHolds like r items
  | not item => !item.holds like r

/-- Whether all of some formulas hold. -/
def allHold (like : String → String → Bool) (r : Record) : List Formula → Bool
  | [] => true
  | item :: rest => item.holds like r && allHold like r rest

/-- Whether one of some formulas holds. -/
def someHolds (like : String → String → Bool) (r : Record) : List Formula → Bool
  | [] => false
  | item :: rest => item.holds like r || someHolds like r rest

end

variable {like : String → String → Bool} {r : Record}

@[simp] theorem holds_constant (verdict : Bool) : (constant verdict).holds like r = verdict := rfl

theorem allHold_eq (items : List Formula) :
    allHold like r items = items.all (·.holds like r) := by
  induction items with
  | nil => rfl
  | cons item rest ih => rw [allHold, ih, List.all_cons]

theorem someHolds_eq (items : List Formula) :
    someHolds like r items = items.any (·.holds like r) := by
  induction items with
  | nil => rfl
  | cons item rest ih => rw [someHolds, ih, List.any_cons]

@[simp] theorem holds_and (items : List Formula) :
    (and items).holds like r = items.all (·.holds like r) :=
  allHold_eq items

@[simp] theorem holds_or (items : List Formula) :
    (or items).holds like r = items.any (·.holds like r) :=
  someHolds_eq items

@[simp] theorem holds_not (item : Formula) : (not item).holds like r = !item.holds like r := rfl

/-! ## Joining and negating -/

/-- A formula is constant when it is a constant. -/
theorem constant?_eq_some_iff {f : Formula} {verdict : Bool} :
    f.constant? = some verdict ↔ f = constant verdict := by
  cases f <;> simp [constant?]

theorem constant?_eq_none {f : Formula} (htrue : f ≠ constant true) (hfalse : f ≠ constant false) :
    f.constant? = none := by
  cases f with
  | constant verdict => cases verdict <;> contradiction
  | _ => rfl

/-- What the conjunction of two formulas can be, once for each way of folding and flattening. -/
theorem conj_cases {motive : Formula → Prop} (f g : Formula)
    (dropLeft : f = constant true → motive g) (dropRight : g = constant true → motive f)
    (absorb : f = constant false ∨ g = constant false → motive (constant false))
    (flatten : ∀ items, f = and items → g.constant? = none → motive (and (items ++ [g])))
    (pair : f.constant? = none → g.constant? = none → motive (and [f, g])) :
    motive (f.conj g) := by
  unfold conj
  split
  next => exact dropLeft rfl
  next => exact dropRight rfl
  next => exact absorb (.inl rfl)
  next => exact absorb (.inr rfl)
  next items htrue hfalse => exact flatten items rfl (constant?_eq_none htrue hfalse)
  next hfTrue hfFalse _ hgTrue hgFalse =>
    exact pair (constant?_eq_none hfTrue hfFalse) (constant?_eq_none hgTrue hgFalse)

/-- What the disjunction of two formulas can be, dual to their conjunction. -/
theorem disj_cases {motive : Formula → Prop} (f g : Formula)
    (dropLeft : f = constant false → motive g) (dropRight : g = constant false → motive f)
    (absorb : f = constant true ∨ g = constant true → motive (constant true))
    (flatten : ∀ items, f = or items → g.constant? = none → motive (or (items ++ [g])))
    (pair : f.constant? = none → g.constant? = none → motive (or [f, g])) :
    motive (f.disj g) := by
  unfold disj
  split
  next => exact dropLeft rfl
  next => exact dropRight rfl
  next => exact absorb (.inl rfl)
  next => exact absorb (.inr rfl)
  next items hfalse htrue => exact flatten items rfl (constant?_eq_none htrue hfalse)
  next hfFalse hfTrue _ hgFalse hgTrue =>
    exact pair (constant?_eq_none hfTrue hfFalse) (constant?_eq_none hgTrue hgFalse)

/-- A conjunction, folded or not, holds when both sides do. -/
theorem holds_conj (f g : Formula) :
    (f.conj g).holds like r = (f.holds like r && g.holds like r) := by
  unfold conj
  split <;> simp

theorem holds_disj (f g : Formula) :
    (f.disj g).holds like r = (f.holds like r || g.holds like r) := by
  unfold disj
  split <;> simp

theorem holds_neg (f : Formula) : f.neg.holds like r = !f.holds like r := by
  cases f <;> rfl

end Formula

namespace Lambda

/-- The reading of a lambda of one record type. -/
def holds (like : String → String → Bool) (r : Record) (l : Lambda) : Bool :=
  l.body.holds like r

variable {like : String → String → Bool} {r : Record}

theorem holds_and (l m : Lambda) :
    (l.and m).holds like r = (l.holds like r && m.holds like r) :=
  Formula.holds_conj l.body m.body

theorem holds_or (l m : Lambda) :
    (l.or m).holds like r = (l.holds like r || m.holds like r) :=
  Formula.holds_disj l.body m.body

/-- A lambda is negated when it has one parameter, by negating its body. -/
theorem negate_eq_ok {l m : Lambda} (h : l.negate = .ok m) :
    l.arity = 1 ∧ m = ⟨l.parameters, l.body.neg⟩ := by
  unfold negate at h
  split at h
  next harity => exact ⟨harity, (Except.ok.inj h).symm⟩
  next => contradiction

theorem holds_negate {l m : Lambda} (h : l.negate = .ok m) :
    m.holds like r = !l.holds like r := by
  obtain ⟨-, rfl⟩ := negate_eq_ok h
  exact Formula.holds_neg l.body

end Lambda

end Selection
