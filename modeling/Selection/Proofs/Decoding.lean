import Selection.Document.Criterion
import Selection.Proofs.Except

/-! # The steps of decoding

A document is decoded when its version and its shape pass the checks, its constant is a literal, and
its slots are decoded. Each step is described by the outcomes that it accepts, so that what holds of
all decoded criteria is shown without a look at how they are decoded.
-/

namespace Selection

variable {op : Operator}

theorem Operator.isConstant_iff : op.isConstant = true ↔ op = .constant := by
  cases op <;> simp [isConstant]

theorem Operator.isQuantifier_iff : op.isQuantifier = true ↔ op = .any := by
  cases op <;> simp [isQuantifier]

theorem Operator.isSum_iff : op.isSum = true ↔ op = .add := by
  cases op <;> simp [isSum]

namespace Document

variable {d : Document} {c : Criterion} {j : Json} {v : Value} {value : Option Value}

/-! ## Checks -/

/-- The versions are not mixed when one of the two right-hand sides is missing. -/
theorem checkVersion_eq_ok_iff :
    checkVersion d = .ok () ↔ d.fieldValue = none ∨ d.rightHandSide = none := by
  rw [checkVersion]
  cases d.fieldValue <;> cases d.rightHandSide <;> simp

theorem check_eq_ok_iff {p : Prop} [Decidable p] {e : Error} {x : Except Error Unit} :
    (if p then .error e else x) = .ok () ↔ ¬p ∧ x = .ok () := by
  split <;> simp [*]

/-- Lists stand on aggregates and sums only, inner criteria on quantifiers, and values on constants.
-/
theorem checkShape_eq_ok_iff : checkShape d = .ok () ↔
    (d.aggregateList ≠ [] → d.operator.isAggregate = true ∨ d.operator = .add) ∧
      (d.innerCriteria ≠ none → d.operator = .any) ∧
      (d.constantValue ≠ none → d.operator = .constant) := by
  rw [← Operator.isSum_iff, ← Operator.isQuantifier_iff, ← Operator.isConstant_iff,
    ← Option.isSome_iff_ne_none, ← Option.isSome_iff_ne_none]
  simp only [checkShape, check_eq_ok_iff, Bool.and_eq_true, Bool.not_eq_true', not_and,
    Bool.not_eq_false, Bool.or_eq_true, List.isEmpty_eq_false_iff, and_true]

/-- A literal is decoded to the value that JSON carries there. -/
theorem literalValue_eq_ok_iff : literalValue j = .ok v ↔ Value.ofJson? j = some v := by
  rw [literalValue]
  cases Value.ofJson? j <;> simp

/-! ## What decoding gives for each attribute -/

/-- The slot of the right-hand side in either version. -/
def rightSlot (d : Document) : Option Slot :=
  match d.fieldValue with
  | some j => some (.literal j)
  | none => d.rightHandSide

/-- The value that a document gives its criterion: that of its literal, and null for a constant
without a literal. -/
inductive ValueOf (d : Document) : Option Value → Prop
  | given {j : Json} {v : Value} (constant_eq : d.constantValue = some j)
      (literal_eq : Value.ofJson? j = some v) : ValueOf d (some v)
  | null (constant_eq : d.constantValue = none) (operator_eq : d.operator = .constant) :
      ValueOf d (some .null)
  | absent (constant_eq : d.constantValue = none) (operator_ne : d.operator ≠ .constant) :
      ValueOf d none

/-- The value of a constant is that of its literal, and null without one. -/
theorem constantOf_eq_ok_iff :
    constantOf d.operator d.constantValue = .ok value ↔ d.ValueOf value := by
  -- Without a literal a constant is null, and any other criterion has no value.
  cases hconstant : d.constantValue with
  | none =>
      rw [constantOf, pure_eq_ok_iff]
      constructor
      · intro h
        subst h
        split
        next hop => exact .null hconstant (Operator.isConstant_iff.mp hop)
        next hop => exact .absent hconstant (mt Operator.isConstant_iff.mpr hop)
      · intro h
        cases h with
        | given hsome _ => exact absurd (hconstant.symm.trans hsome) nofun
        | null _ hop => rw [if_pos (Operator.isConstant_iff.mpr hop)]
        | absent _ hop => rw [if_neg (mt Operator.isConstant_iff.mp hop)]
  | some j =>
      rw [constantOf, bind_eq_ok_iff]
      constructor
      · rintro ⟨v, hv, hvalue⟩
        obtain rfl := Except.ok.inj hvalue
        exact .given hconstant (literalValue_eq_ok_iff.mp hv)
      · intro h
        cases h with
        | given hsome hv =>
            obtain rfl := Option.some.inj (hconstant.symm.trans hsome)
            exact ⟨_, literalValue_eq_ok_iff.mpr hv, rfl⟩
        | null hnone _ => exact absurd (hconstant.symm.trans hnone) nofun
        | absent hnone _ => exact absurd (hconstant.symm.trans hnone) nofun

/-- A slot is decoded when it is there. -/
theorem presentCriterion_eq_ok_iff {s? : Option Slot} {c? : Option Criterion} :
    presentCriterion s? = .ok c? ↔ Option.Rel (fun s c => s.toCriterion = .ok c) s? c? := by
  cases s? with
  | none =>
      rw [presentCriterion, pure_eq_ok_iff]
      constructor
      · rintro rfl
        exact .none
      · rintro ⟨⟩
        rfl
  | some s =>
      rw [presentCriterion, bind_eq_ok_iff]
      constructor
      · rintro ⟨c, hc, hsome⟩
        obtain rfl := Except.ok.inj hsome
        exact .some hc
      · rintro ⟨hc⟩
        exact ⟨_, hc, rfl⟩

/-- Slots are decoded one by one. -/
theorem criteria_eq_ok_iff {slots : List Slot} {cs : List Criterion} :
    criteria slots = .ok cs ↔ List.Forall₂ (fun s c => s.toCriterion = .ok c) slots cs := by
  induction slots generalizing cs with
  | nil =>
      rw [criteria, pure_eq_ok_iff, List.forall₂_nil_left_iff]
      exact eq_comm
  | cons s rest ih =>
      simp only [criteria, bind_eq_ok_iff, pure_eq_ok_iff, ih, List.forall₂_cons_left_iff]
      constructor
      · rintro ⟨c, hc, cs, hrest, rfl⟩
        exact ⟨c, cs, hc, hrest, rfl⟩
      · rintro ⟨c, cs, hc, hrest, rfl⟩
        exact ⟨c, hc, cs, hrest, rfl⟩

/-! ## Whole documents -/

/-- The right-hand side of either version is decoded like a slot that holds it. -/
theorem toCriterion_eq (d : Document) : toCriterion d = (do
    checkVersion d
    checkShape d
    let value ← constantOf d.operator d.constantValue
    let right ← presentCriterion d.rightSlot
    let inner ← presentCriterion d.innerCriteria
    return .node d.operator d.fieldName right value inner (← criteria d.aggregateList)) := by
  obtain ⟨op, field, right, constant, inner, parts, fieldValue⟩ := d
  rw [toCriterion]
  cases fieldValue with
  | none => rfl
  | some j =>
      simp only [rightSlot, presentCriterion, Slot.toCriterion]
      cases literalValue j <;> rfl

/-- A document is decoded to a criterion with its operator and field when its attributes pass the
checks, and value, right-hand side, inner criterion and parts are decoded to those of the
criterion. -/
theorem toCriterion_eq_ok_iff : toCriterion d = .ok c ↔
    checkVersion d = .ok () ∧ checkShape d = .ok () ∧ ∃ value, d.ValueOf value ∧
      ∃ right, Option.Rel (fun s c => s.toCriterion = .ok c) d.rightSlot right ∧
      ∃ inner, Option.Rel (fun s c => s.toCriterion = .ok c) d.innerCriteria inner ∧
      ∃ parts, List.Forall₂ (fun s c => s.toCriterion = .ok c) d.aggregateList parts ∧
        .node d.operator d.fieldName right value inner parts = c := by
  simp only [toCriterion_eq, bind_eq_ok_iff, constantOf_eq_ok_iff, presentCriterion_eq_ok_iff,
    criteria_eq_ok_iff, pure_eq_ok_iff, Unique.exists_iff, PUnit.default_eq_unit]

/-- A document is decoded when its attributes pass the checks and its slots are decoded. -/
theorem exists_toCriterion_iff : (∃ c, toCriterion d = .ok c) ↔
    checkVersion d = .ok () ∧ checkShape d = .ok () ∧ (∃ value, d.ValueOf value) ∧
      (∀ s ∈ d.rightSlot, ∃ c, s.toCriterion = .ok c) ∧
      (∀ s ∈ d.innerCriteria, ∃ c, s.toCriterion = .ok c) ∧
      ∀ s ∈ d.aggregateList, ∃ c, s.toCriterion = .ok c := by
  rw [← exists_rel_iff, ← exists_rel_iff, ← exists_forall₂_iff]
  constructor
  · rintro ⟨c, h⟩
    obtain ⟨hversion, hshape, value, hvalue, right, hright, inner, hinner, parts, hparts, -⟩ :=
      toCriterion_eq_ok_iff.mp h
    exact ⟨hversion, hshape, ⟨value, hvalue⟩, ⟨right, hright⟩, ⟨inner, hinner⟩, parts, hparts⟩
  · rintro ⟨hversion, hshape, ⟨value, hvalue⟩, ⟨right, hright⟩, ⟨inner, hinner⟩, parts, hparts⟩
    exact ⟨_, toCriterion_eq_ok_iff.mpr ⟨hversion, hshape, value, hvalue, right, hright, inner,
      hinner, parts, hparts, rfl⟩⟩

/-- The slot of the right-hand side has what the literal of the first version and the right-hand
side of the second have. -/
theorem forall_mem_rightSlot {p : Slot → Prop} (literal : ∀ j ∈ d.fieldValue, p (.literal j))
    (right : ∀ s ∈ d.rightHandSide, p s) : ∀ s ∈ d.rightSlot, p s := by
  intro s hs
  rw [rightSlot] at hs
  split at hs
  next j hj => exact Option.some.inj hs ▸ literal j hj
  next => exact right s hs

/-- A literal in a slot is decoded to a constant. -/
theorem Slot.toCriterion_literal_eq_ok_iff :
    (Slot.literal j).toCriterion = .ok c ↔ ∃ v, Value.ofJson? j = some v ∧ .constant v = c := by
  simp only [toCriterion, bind_eq_ok_iff, pure_eq_ok_iff, literalValue_eq_ok_iff]

/-- Exactly the constants get a value, when no other document gives one. -/
theorem ValueOf.ne_none_iff (h : d.ValueOf value)
    (hconstant : d.constantValue ≠ none → d.operator = .constant) :
    value ≠ none ↔ d.operator = .constant := by
  cases h with
  | given hsome _ => exact iff_of_true nofun (hconstant (hsome ▸ nofun))
  | null _ hop => exact iff_of_true nofun hop
  | absent _ hop => exact iff_of_false (absurd rfl) hop

/-- The attributes of a decoded criterion stand where its operator uses them. -/
theorem places_of_toCriterion {field : Option String} {right inner : Option Criterion}
    {parts : List Criterion} (h : toCriterion d = .ok (.node op field right value inner parts)) :
    (parts ≠ [] → op.isAggregate = true ∨ op = .add) ∧ (inner ≠ none → op = .any) ∧
      (value ≠ none ↔ op = .constant) := by
  obtain ⟨-, hshape, value', hvalue, right', -, inner', hinner, parts', hparts, hnode⟩ :=
    toCriterion_eq_ok_iff.mp h
  obtain ⟨rfl, -, -, rfl, rfl, rfl⟩ := Criterion.node.inj hnode
  obtain ⟨hlist, hquantifier, hconstant⟩ := checkShape_eq_ok_iff.mp hshape
  refine ⟨fun hne => hlist fun hnil => hne ?_, fun hne => hquantifier fun hnone => hne ?_,
    hvalue.ne_none_iff hconstant⟩
  · rwa [hnil, List.forall₂_nil_left_iff] at hparts
  · rw [hnone] at hinner
    cases hinner
    rfl

end Document

end Selection
