import Selection.Proofs.Decoding
import Selection.Proofs.Versions

/-! # Well-shaped documents

A document is decoded exactly when, in it and in every document inside, no right-hand side is given
in both versions, every attribute stands on an operator that uses it, and every literal is a scalar.
The criterion mirrors the document then: it has the same operators and fields, a criterion for each
slot, and a value on every constant and nowhere else.
-/

namespace Selection

/-! ## Scalars -/

/-- A JSON value that is neither an array nor an object. -/
def Json.IsScalar : Json → Prop
  | .null | .bool _ | .number _ | .string _ => True
  | .array _ | .object _ => False

/-- The scalars of JSON are the literals. -/
theorem Value.exists_ofJson?_iff {j : Json} : (∃ v, ofJson? j = some v) ↔ j.IsScalar := by
  cases j with
  | number n =>
      refine iff_of_true ?_ trivial
      cases n with
      | float x => exact ⟨_, rfl⟩
      | integer n =>
          rw [ofJson?]
          split <;> exact ⟨_, rfl⟩
  | null | bool _ | string _ => exact iff_of_true ⟨_, rfl⟩ trivial
  | array _ | object _ => simp [ofJson?, Json.IsScalar]

namespace Document

variable {d : Document} {s : Slot} {c : Criterion}

/-! ## Shapes -/

/-- The attributes of a document itself are in place: one right-hand side, a list on aggregates and
sums, an inner criterion on quantifiers, a value on constants, and scalars for literals. -/
structure InPlace (d : Document) : Prop where
  one_right : d.fieldValue = none ∨ d.rightHandSide = none
  list_of : d.aggregateList ≠ [] → d.operator.isAggregate = true ∨ d.operator = .add
  inner_of : d.innerCriteria ≠ none → d.operator = .any
  constant_of : d.constantValue ≠ none → d.operator = .constant
  constant_scalar : ∀ j ∈ d.constantValue, j.IsScalar
  legacy_scalar : ∀ j ∈ d.fieldValue, j.IsScalar

/-- A slot is well-shaped when its literal is a scalar, or when the attributes of its document are
in place and the slots of the document are well-shaped. -/
inductive Slot.WellShaped : Slot → Prop
  | literal {j : Json} (scalar : j.IsScalar) : WellShaped (.literal j)
  | document {d : Document} (in_place : d.InPlace) (right : ∀ s ∈ d.rightHandSide, s.WellShaped)
      (inner : ∀ s ∈ d.innerCriteria, s.WellShaped)
      (parts : ∀ s ∈ d.aggregateList, s.WellShaped) : WellShaped (.document d)

/-- A criterion mirrors a slot: it is the constant of its literal, or it has the operator, the field
and the value of its document and mirrors its slots one by one. -/
inductive Slot.Mirrors : Slot → Criterion → Prop
  | literal {j : Json} {v : Value} (literal_eq : Value.ofJson? j = some v) :
      Mirrors (.literal j) (.constant v)
  | document {d : Document} {right inner : Option Criterion} {value : Option Value}
      {parts : List Criterion} (value_of : d.ValueOf value)
      (right_mirrors : Option.Rel Slot.Mirrors d.rightSlot right)
      (inner_mirrors : Option.Rel Slot.Mirrors d.innerCriteria inner)
      (parts_mirror : List.Forall₂ Slot.Mirrors d.aggregateList parts) :
      Mirrors (.document d) (.node d.operator d.fieldName right value inner parts)

end Document

/-- A criterion is complete when here and in all criteria inside only aggregates and sums have
parts, only quantifiers have an inner criterion, and exactly the constants have a value. -/
inductive Criterion.Complete : Criterion → Prop
  | node {op : Operator} {field : Option String} {right inner : Option Criterion}
      {value : Option Value} {parts : List Criterion}
      (parts_of : parts ≠ [] → op.isAggregate = true ∨ op = .add)
      (inner_of : inner ≠ none → op = .any) (value_iff : value ≠ none ↔ op = .constant)
      (right_complete : ∀ c ∈ right, c.Complete) (inner_complete : ∀ c ∈ inner, c.Complete)
      (parts_complete : ∀ c ∈ parts, c.Complete) :
      Complete (.node op field right value inner parts)

theorem Criterion.complete_constant (v : Value) : (constant v).Complete :=
  .node (absurd rfl) (absurd rfl) (iff_of_true nofun rfl) nofun nofun nofun

namespace Document

variable {d : Document} {s : Slot} {c : Criterion}

/-! ## What is accepted -/

theorem exists_valueOf_iff : (∃ value, d.ValueOf value) ↔ ∀ j ∈ d.constantValue, j.IsScalar := by
  constructor
  · rintro ⟨value, h⟩ j hj
    cases h with
    | given hsome hv =>
        obtain rfl := Option.some.inj (hsome.symm.trans hj)
        exact Value.exists_ofJson?_iff.mp ⟨_, hv⟩
    | null hnone _ | absent hnone _ => exact absurd (hnone.symm.trans hj) nofun
  · intro h
    cases hconstant : d.constantValue with
    | some j =>
        obtain ⟨v, hv⟩ := Value.exists_ofJson?_iff.mpr (h j hconstant)
        exact ⟨some v, .given hconstant hv⟩
    | none =>
        by_cases hop : d.operator = .constant
        · exact ⟨some .null, .null hconstant hop⟩
        · exact ⟨none, .absent hconstant hop⟩

theorem Slot.wellShaped_literal_iff {j : Json} : (Slot.literal j).WellShaped ↔ j.IsScalar :=
  ⟨fun | .literal h => h, .literal⟩

/-- With a right-hand side in one version only, its slot is well-shaped when it is in either
version. -/
theorem forall_rightSlot_iff (h : d.fieldValue = none ∨ d.rightHandSide = none) :
    (∀ s ∈ d.rightSlot, s.WellShaped) ↔
      (∀ j ∈ d.fieldValue, j.IsScalar) ∧ ∀ s ∈ d.rightHandSide, s.WellShaped := by
  rw [rightSlot]
  rcases h with hlegacy | hright
  · simp [hlegacy]
  · cases hlegacy : d.fieldValue <;> simp [hright, Slot.wellShaped_literal_iff]

/-- A document is well shaped when it passes the checks, has a value and its slots are well shaped.
-/
theorem wellShaped_document_iff : (Slot.document d).WellShaped ↔
    checkVersion d = .ok () ∧ checkShape d = .ok () ∧ (∃ value, d.ValueOf value) ∧
      (∀ s ∈ d.rightSlot, s.WellShaped) ∧ (∀ s ∈ d.innerCriteria, s.WellShaped) ∧
      ∀ s ∈ d.aggregateList, s.WellShaped := by
  rw [checkVersion_eq_ok_iff, checkShape_eq_ok_iff, exists_valueOf_iff]
  constructor
  · intro h
    cases h with
    | document hplace hright hinner hparts =>
      exact ⟨hplace.one_right, ⟨hplace.list_of, hplace.inner_of, hplace.constant_of⟩,
        hplace.constant_scalar,
        (forall_rightSlot_iff hplace.one_right).mpr ⟨hplace.legacy_scalar, hright⟩, hinner, hparts⟩
  · rintro ⟨hone, ⟨hlist, hquantifier, hconstant⟩, hscalar, hright, hinner, hparts⟩
    obtain ⟨hlegacy, hright⟩ := (forall_rightSlot_iff hone).mp hright
    exact .document ⟨hone, hlist, hquantifier, hconstant, hscalar, hlegacy⟩ hright hinner hparts

/-- Induction over the slots that are decoded: the right-hand side counts in either version. -/
theorem Slot.decoding_induction {motive : Slot → Prop} (literal : ∀ j, motive (.literal j))
    (document : ∀ d : Document, (∀ s ∈ d.rightSlot, motive s) →
      (∀ s ∈ d.innerCriteria, motive s) → (∀ s ∈ d.aggregateList, motive s) →
      motive (.document d)) (s : Slot) : motive s := by
  induction s using Slot.induction with
  | literal j => exact literal j
  | document d hright hinner hparts =>
      exact document d (forall_mem_rightSlot (fun j _ => literal j) hright) hinner hparts

/-- A slot is decoded exactly when it is well-shaped. -/
theorem Slot.exists_toCriterion_iff (s : Slot) :
    (∃ c, s.toCriterion = .ok c) ↔ s.WellShaped := by
  induction s using Slot.decoding_induction with
  | literal j =>
      rw [wellShaped_literal_iff, ← Value.exists_ofJson?_iff]
      simp only [toCriterion_literal_eq_ok_iff]
      exact ⟨fun ⟨_, v, hv, _⟩ => ⟨v, hv⟩, fun ⟨v, hv⟩ => ⟨_, v, hv, rfl⟩⟩
  | document d hright hinner hparts =>
      rw [toCriterion, Document.exists_toCriterion_iff, wellShaped_document_iff]
      simp only [forall₂_congr hright, forall₂_congr hinner, forall₂_congr hparts]

/-! ## What is decoded -/

/-- A slot is decoded to a criterion that mirrors it. -/
theorem Slot.mirrors_of_toCriterion (s : Slot) : ∀ c, s.toCriterion = .ok c → s.Mirrors c := by
  induction s using Slot.decoding_induction with
  | literal j =>
      intro c h
      obtain ⟨v, hv, rfl⟩ := toCriterion_literal_eq_ok_iff.mp h
      exact .literal hv
  | document d hright hinner hparts =>
      intro c h
      rw [toCriterion] at h
      obtain ⟨-, -, value, hvalue, right, hrightOk, inner, hinnerOk, parts, hpartsOk, rfl⟩ :=
        toCriterion_eq_ok_iff.mp h
      exact .document hvalue (rel_of_forall_mem hrightOk hright)
        (rel_of_forall_mem hinnerOk hinner) (forall₂_of_forall_mem hpartsOk hparts)

/-- A slot is decoded to a complete criterion. -/
theorem Slot.complete_of_toCriterion (s : Slot) : ∀ c, s.toCriterion = .ok c → c.Complete := by
  induction s using Slot.decoding_induction with
  | literal j =>
      intro c h
      obtain ⟨v, -, rfl⟩ := toCriterion_literal_eq_ok_iff.mp h
      exact Criterion.complete_constant v
  | document d hright hinner hparts =>
      intro c h
      rw [toCriterion] at h
      obtain ⟨-, -, value, -, right, hrightOk, inner, hinnerOk, parts, hpartsOk, rfl⟩ :=
        toCriterion_eq_ok_iff.mp h
      obtain ⟨hlist, hquantifier, hconstant⟩ := places_of_toCriterion h
      exact .node hlist hquantifier hconstant (forall_mem_of_rel hrightOk hright)
        (forall_mem_of_rel hinnerOk hinner) (forall_mem_of_forall₂ hpartsOk hparts)

/-- A document is decoded exactly when it is well-shaped, and then to a complete criterion that
mirrors it. -/
theorem decodes_iff_wellShaped (d : Document) :
    ((∃ c, toCriterion d = .ok c) ↔ (Slot.document d).WellShaped) ∧
      ∀ c, toCriterion d = .ok c → (Slot.document d).Mirrors c ∧ c.Complete := by
  have hslot := (Slot.document d).exists_toCriterion_iff
  refine ⟨hslot, fun c h => ⟨?_, ?_⟩⟩
  · exact (Slot.document d).mirrors_of_toCriterion c h
  · exact (Slot.document d).complete_of_toCriterion c h

/-- A disjunction of a document of the first version and one of the second version. -/
def eitherVersion : Document where
  operator := .or
  aggregateList := [
    .document
      { operator := .equal, fieldName := some "i", fieldValue := some (.number (.integer 5)) },
    .document
      { operator := .lessThan, fieldName := some "i",
        rightHandSide := some (.literal (.number (.integer 7))) }]

/-- A negation of a constant that carries an inner criterion. -/
def misplacedInside : Document where
  operator := .nand
  aggregateList := [
    .document { operator := .constant, innerCriteria := some (.literal .null) }]

/-- Both versions of a comparison are decoded in one document; a misplaced attribute inside is not.
-/
theorem eitherVersion_decodes :
    toCriterion eitherVersion = .ok (.group .or
      [.test .equal "i" (.constant (.int 5)), .test .lessThan "i" (.constant (.int 7))]) ∧
    (Slot.document eitherVersion).WellShaped ∧
    (Slot.document eitherVersion).Mirrors (.group .or
      [.test .equal "i" (.constant (.int 5)), .test .lessThan "i" (.constant (.int 7))]) ∧
    ¬(Slot.document misplacedInside).WellShaped := by
  have hok : toCriterion eitherVersion = .ok (.group .or
      [.test .equal "i" (.constant (.int 5)), .test .lessThan "i" (.constant (.int 7))]) := rfl
  refine ⟨hok, (decodes_iff_wellShaped eitherVersion).1.mp ⟨_, hok⟩,
    ((decodes_iff_wellShaped eitherVersion).2 _ hok).1, fun h => ?_⟩
  obtain ⟨c, hc⟩ := (decodes_iff_wellShaped misplacedInside).1.mpr h
  contradiction

end Document

end Selection
