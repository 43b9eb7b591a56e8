import Selection.Document.Criterion
import Selection.Proofs.Except
import Selection.Proofs.Wire

/-! # Decoding what was encoded

A criterion whose attributes stand where its operator uses them is decoded from its encoding, as the
criterion whose constants are what JSON makes of them. The members of its JSON object may come in
the order in which they are written or in that of their keys.
-/

namespace Selection

/-! ## Criteria on the wire -/

namespace Value

/-- What JSON makes of a value. -/
def carried (v : Value) : Value :=
  (ofJson? v.toJson).getD null

/-- A value is read back from its JSON as what JSON carries it as. -/
theorem ofJson?_toJson (v : Value) : ofJson? v.toJson = some v.carried := by
  have hsome : (ofJson? v.toJson).isSome = true := by
    cases v with
    | float x =>
        rw [toJson]
        split <;> rfl
    | int n =>
        change (ofJson? (.number (.integer _))).isSome = true
        rw [ofJson?]
        split <;> rfl
    | uint n =>
        change (ofJson? (.number (.integer _))).isSome = true
        rw [ofJson?]
        split <;> rfl
    | _ => rfl
  obtain ⟨u, hu⟩ := Option.isSome_iff_exists.mp hsome
  rw [carried, hu, Option.getD_some]

end Value

namespace Criterion

/-- Every attribute stands on an operator that uses it, here and in all criteria inside. Fields and
right-hand sides may stand anywhere. -/
inductive Shaped : Criterion → Prop
  | node {op : Operator} {field : Option String} {right : Option Criterion} {value : Option Value}
      {inner : Option Criterion} {parts : List Criterion}
      (value_of : value.isSome = true → op.isConstant = true)
      (inner_of : inner.isSome = true → op.isQuantifier = true)
      (parts_of : parts ≠ [] → (op.isAggregate || op.isSum) = true)
      (right_shaped : ∀ c ∈ right, c.Shaped) (inner_shaped : ∀ c ∈ inner, c.Shaped)
      (parts_shaped : ∀ c ∈ parts, c.Shaped) : Shaped (.node op field right value inner parts)

theorem shaped_group {op : Operator} {parts : List Criterion}
    (hop : (op.isAggregate || op.isSum) = true) (h : ∀ c ∈ parts, c.Shaped) :
    (group op parts).Shaped :=
  .node nofun nofun (fun _ => hop) nofun nofun h

theorem shaped_constant (v : Value) : (constant v).Shaped :=
  .node (fun _ => rfl) nofun (absurd rfl) nofun nofun nofun

mutual

/-- The criterion whose constants are what JSON makes of them; a constant without a value is
null. -/
def carried : Criterion → Criterion
  | node op field right value inner parts =>
    node op field (carriedPresent right)
      (if op.isConstant then some (value.getD .null).carried else none) (carriedPresent inner)
      (carriedAll parts)

def carriedPresent : Option Criterion → Option Criterion
  | none => none
  | some c => some c.carried

def carriedAll : List Criterion → List Criterion
  | [] => []
  | c :: rest => c.carried :: carriedAll rest

end

theorem carriedPresent_eq (right : Option Criterion) :
    carriedPresent right = right.map carried := by
  cases right <;> rfl

theorem carriedAll_eq (parts : List Criterion) : carriedAll parts = parts.map carried := by
  induction parts with
  | nil => rfl
  | cons c rest ih => rw [carriedAll, ih, List.map_cons]

end Criterion

/-! ## Members -/

namespace Document

section Reads

/-- Members are read as a document. -/
def Reads (members : List (String × Json)) (d : Document) : Prop :=
  ofMembers? members = some d

variable {members : List (String × Json)} {op : Operator} {name : Option String}
  {right inner : Option Slot} {constant legacy : Option Json} {parts : List Slot}

theorem reads_nil : Reads [] {} :=
  rfl

theorem Reads.operator (h : Reads members ⟨.equal, name, right, constant, inner, parts, legacy⟩)
    (op : Operator) :
    Reads (("selectionComparison", .string op.name) :: members)
      ⟨op, name, right, constant, inner, parts, legacy⟩ := by
  have hname : operatorOf? (.string op.name) = some op := by cases op <;> rfl
  simp only [Reads, ofMembers?, show ofMembers? members = _ from h, hname]
  rfl

theorem Reads.fieldName (h : Reads members ⟨op, none, right, constant, inner, parts, legacy⟩)
    (name : Option String) :
    Reads (member "fieldName" (name.map .string) ++ members)
      ⟨op, name, right, constant, inner, parts, legacy⟩ := by
  cases name with
  | none => exact h
  | some name =>
      simp only [Reads, Option.map_some, member, List.singleton_append, ofMembers?,
        show ofMembers? members = _ from h]
      rfl

theorem Reads.constantValue (h : Reads members ⟨op, name, right, none, inner, parts, legacy⟩)
    (constant : Option Json) :
    Reads (member "constantValue" constant ++ members)
      ⟨op, name, right, constant.bind presentOf, inner, parts, legacy⟩ := by
  cases constant with
  | none => exact h
  | some j =>
      simp only [Reads, member, List.singleton_append, ofMembers?,
        show ofMembers? members = _ from h]
      rfl

/-- Whether a slot holds the document that a JSON value is read as. -/
def ReadsSlot (j : Json) (d : Document) : Prop :=
  Slot.ofJson? j = some (.document d)

theorem Reads.rightHandSide (h : Reads members ⟨op, name, none, constant, inner, parts, legacy⟩)
    {right : Option Json} {doc : Option Document} (hright : Option.Rel ReadsSlot right doc) :
    Reads (member "rightHandSide" right ++ members)
      ⟨op, name, doc.map .document, constant, inner, parts, legacy⟩ := by
  cases hright with
  | none => exact h
  | some hslot =>
      simp only [Reads, member, List.singleton_append, ofMembers?,
        show ofMembers? members = _ from h, show Slot.ofJson? _ = _ from hslot]
      rfl

theorem Reads.innerCriteria (h : Reads members ⟨op, name, right, constant, none, parts, legacy⟩)
    {inner : Option Json} {doc : Option Document} (hinner : Option.Rel ReadsSlot inner doc) :
    Reads (member "innerCriteria" inner ++ members)
      ⟨op, name, right, constant, doc.map .document, parts, legacy⟩ := by
  cases hinner with
  | none => exact h
  | some hslot =>
      simp only [Reads, member, List.singleton_append, ofMembers?,
        show ofMembers? members = _ from h, show Slot.ofJson? _ = _ from hslot]
      rfl

theorem slots?_eq_some {items : List Json} {docs : List Document}
    (h : List.Forall₂ ReadsSlot items docs) : slots? items = some (docs.map .document) := by
  induction h with
  | nil => rfl
  | cons hhead _ ih =>
      rw [slots?, show Slot.ofJson? _ = _ from hhead, ih]
      rfl

theorem Reads.aggregateList (h : Reads members ⟨op, name, right, constant, inner, [], legacy⟩)
    {items : List Json} {docs : List Document} (hitems : List.Forall₂ ReadsSlot items docs) :
    Reads (member "aggregateList" (if items.isEmpty then none else some (.array items)) ++ members)
      ⟨op, name, right, constant, inner, docs.map .document, legacy⟩ := by
  cases hitems with
  | nil => exact h
  | cons hhead htail =>
      simp only [Reads, List.isEmpty_cons, Bool.false_eq_true, if_false, member,
        List.singleton_append, ofMembers?, show ofMembers? members = _ from h,
        slots?_eq_some (.cons hhead htail)]
      rfl

end Reads

/-! ## Encoding -/

/-- The members of an object in the order of a document, and in that of the keys. -/
theorem ofMembers_attributes (op : Json) (field right constant inner parts : Option Json) :
    Json.ofMembers
        (("selectionComparison", op) :: member "fieldName" field ++ member "rightHandSide" right ++
          member "constantValue" constant ++ member "innerCriteria" inner ++
          member "aggregateList" parts) =
      .object
        (member "aggregateList" parts ++ member "constantValue" constant ++
          member "fieldName" field ++ member "innerCriteria" inner ++
          member "rightHandSide" right ++ [("selectionComparison", op)]) := by
  cases field <;> cases right <;> cases constant <;> cases inner <;> cases parts <;> rfl

end Document

namespace Criterion

open Document (member)

/-- The members of the encoding of a criterion, in the order of a document, the criteria inside
encoded by `encode`. -/
def members (encode : Criterion → Json) : Criterion → List (String × Json)
  | node op field right value inner parts =>
    let items := parts.map encode
    ("selectionComparison", .string op.name) :: member "fieldName" (field.map .string) ++
      member "rightHandSide" (right.map encode) ++
      member "constantValue" (value.map Value.toJson) ++
      member "innerCriteria" (inner.map encode) ++
      member "aggregateList" (if items.isEmpty then none else some (.array items))

/-- A document is written with the members of its criterion. -/
theorem write_ofCriterion (make : List (String × Json) → Json) (c : Criterion) :
    Document.write make (Document.ofCriterion c) =
      make (c.members fun c => Document.write make (Document.ofCriterion c)) := by
  obtain ⟨op, field, right, value, inner, parts⟩ := c
  have hpresent (c : Option Criterion) :
      Document.writePresent make (Document.presentSlot c) =
        c.map fun c => Document.write make (Document.ofCriterion c) := by
    cases c <;> rfl
  have hall (cs : List Criterion) :
      Document.writeAll make (Document.slots cs) =
        cs.map fun c => Document.write make (Document.ofCriterion c) := by
    induction cs with
    | nil => rfl
    | cons c rest ih =>
        rw [Document.slots, Document.writeAll, ih]
        rfl
  rw [Document.ofCriterion, Document.write, hpresent, hpresent, hall]
  rfl

/-- A criterion is written as an object of its members, with the JSON of its parts in them. -/
theorem toJson_eq (c : Criterion) : c.toJson = .ofMembers (c.members toJson) :=
  write_ofCriterion .ofMembers c

end Criterion

/-! ## Decoding -/

namespace Document

/-- A document is decoded to a criterion. -/
def Decodes (d : Document) (c : Criterion) : Prop :=
  toCriterion d = .ok c

variable {op : Operator} {field : Option String} {constant : Option Json}
  {value : Option Value} {right inner : Option Criterion} {parts : List Criterion}
  {rightDoc innerDoc : Option Document} {docs : List Document}

/-- A document in a slot is decoded as the document is. -/
theorem presentCriterion_eq_ok (h : Option.Rel Decodes rightDoc right) :
    presentCriterion (rightDoc.map .document) = .ok right := by
  cases h with
  | none => rfl
  | some hdoc =>
      rw [Option.map_some, presentCriterion, Slot.toCriterion, show toCriterion _ = _ from hdoc]
      rfl

/-- Documents in slots are decoded as the documents are. -/
theorem criteria_eq_ok (h : List.Forall₂ Decodes docs parts) :
    criteria (docs.map .document) = .ok parts := by
  induction h with
  | nil => rfl
  | cons hhead _ ih =>
      rw [List.map_cons, criteria, Slot.toCriterion, show toCriterion _ = _ from hhead, ih]
      rfl

/-- A document is decoded when its attributes stand where they are used and their slots are
decoded. -/
theorem decodes_attributes (field : Option String) (hvalue : constantOf op constant = .ok value)
    (hconstant : constant.isSome = true → op.isConstant = true)
    (hquantifier : inner.isSome = true → op.isQuantifier = true)
    (hlist : parts ≠ [] → (op.isAggregate || op.isSum) = true)
    (hright : Option.Rel Decodes rightDoc right) (hinner : Option.Rel Decodes innerDoc inner)
    (hparts : List.Forall₂ Decodes docs parts) :
    Decodes
      ⟨op, field, rightDoc.map .document, constant, innerDoc.map .document, docs.map .document,
        none⟩
      (.node op field right value inner parts) := by
  -- Slots and criteria are there or absent together, so the shape is that of the criterion.
  have hshape : checkShape ⟨op, field, rightDoc.map .document, constant, innerDoc.map .document,
      docs.map .document, none⟩ = .ok () := by
    have hnoParts : (docs.map Slot.document).isEmpty = parts.isEmpty := by
      cases hparts <;> rfl
    have hnoInner : (innerDoc.map Slot.document).isSome = inner.isSome := by
      cases hinner <;> rfl
    simp only [checkShape, hnoParts, hnoInner]
    rw [if_neg, if_neg, if_neg]
    · simpa using hconstant
    · simpa using hquantifier
    · simpa [or_iff_not_imp_left] using hlist
  have hversion : checkVersion ⟨op, field, rightDoc.map .document, constant,
      innerDoc.map .document, docs.map .document, none⟩ = .ok () := rfl
  rw [Decodes, toCriterion, hversion, hshape, hvalue]
  simp only [presentCriterion_eq_ok hright, presentCriterion_eq_ok hinner, criteria_eq_ok hparts]
  rfl

end Document

namespace Criterion

open Document (member Reads ReadsSlot Decodes)

/-- The documents of some criteria. -/
theorem exists_docs {cs : List Criterion}
    (h : ∀ c ∈ cs, ∃ d, ReadsSlot c.toJson d ∧ Decodes d c.carried) :
    ∃ docs, List.Forall₂ ReadsSlot (cs.map toJson) docs ∧
      List.Forall₂ Decodes docs (cs.map carried) := by
  induction cs with
  | nil => exact ⟨[], .nil, .nil⟩
  | cons c rest ih =>
      obtain ⟨d, hreads, hdecodes⟩ := h c List.mem_cons_self
      obtain ⟨docs, hreadsAll, hdecodesAll⟩ := ih fun c hc => h c (List.mem_cons_of_mem _ hc)
      exact ⟨d :: docs, .cons hreads hreadsAll, .cons hdecodes hdecodesAll⟩

theorem exists_doc {right : Option Criterion}
    (h : ∀ c ∈ right, ∃ d, ReadsSlot c.toJson d ∧ Decodes d c.carried) :
    ∃ doc, Option.Rel ReadsSlot (right.map toJson) doc ∧
      Option.Rel Decodes doc (right.map carried) := by
  cases right with
  | none => exact ⟨none, .none, .none⟩
  | some c =>
      obtain ⟨d, hreads, hdecodes⟩ := h c rfl
      exact ⟨some d, .some hreads, .some hdecodes⟩

/-- The value of a constant after decoding. A null in JSON is no attribute, and is put back. -/
theorem constantOf_toJson {op : Operator} {value : Option Value}
    (h : value.isSome = true → op.isConstant = true) :
    Document.constantOf op ((value.map Value.toJson).bind Document.presentOf) =
      .ok (if op.isConstant then some (value.getD .null).carried else none) := by
  cases value with
  | none => cases op <;> rfl
  | some v =>
      have hcarried := v.ofJson?_toJson
      rw [Option.map_some, Option.bind_some, Option.getD_some, if_pos (h rfl)]
      generalize v.toJson = j at hcarried
      cases j with
      | null =>
          obtain hnull := Option.some.inj hcarried
          rw [Document.presentOf, Document.constantOf, if_pos (h rfl), ← hnull]
          rfl
      | _ =>
          rw [Document.presentOf, Document.constantOf, Document.literalValue, hcarried]
          · rfl
          · nofun

/-- The encoding of a shaped criterion, in either order of its members, is read as a document that
is decoded to what JSON makes of the criterion. -/
theorem Shaped.decodes {c : Criterion} (h : c.Shaped) :
    ∃ d, Reads (c.members toJson) d ∧ ReadsSlot c.toJson d ∧ Decodes d c.carried := by
  induction h with
  | @node op field right value inner parts hvalue hinner hparts _ _ _ ihright ihinner ihparts =>
      obtain ⟨rightDoc, hreadsRight, hdecodesRight⟩ :=
        exists_doc fun c hc => (ihright c hc).imp fun _ h => h.2
      obtain ⟨innerDoc, hreadsInner, hdecodesInner⟩ :=
        exists_doc fun c hc => (ihinner c hc).imp fun _ h => h.2
      obtain ⟨docs, hreadsAll, hdecodesAll⟩ :=
        exists_docs fun c hc => (ihparts c hc).imp fun _ h => h.2
      have hpresent : ((value.map Value.toJson).bind Document.presentOf).isSome = true →
          op.isConstant = true := by
        intro hsome
        apply hvalue
        cases value <;> first | contradiction | rfl
      have hdecodes := Document.decodes_attributes field (constantOf_toJson hvalue) hpresent
        (by simpa using hinner) (by simpa using hparts) hdecodesRight hdecodesInner hdecodesAll
      -- The members in the order in which they are written, and in the order of their names.
      have hwritten := ((((((Document.reads_nil.aggregateList hreadsAll).innerCriteria
        hreadsInner).constantValue (value.map Value.toJson)).rightHandSide
          hreadsRight).fieldName field).operator op)
      have hsorted := ((((((Document.reads_nil.operator op).rightHandSide
        hreadsRight).innerCriteria hreadsInner).fieldName field).constantValue
          (value.map Value.toJson)).aggregateList hreadsAll)
      refine ⟨_, by simpa [members] using hwritten, ?_, ?_⟩
      · rw [toJson_eq, members, Document.ofMembers_attributes, ReadsSlot, Document.Slot.ofJson?]
        simp only [List.append_assoc, show Document.ofMembers? _ = _ from hsorted]
        rfl
      · rwa [carried, carriedPresent_eq, carriedPresent_eq, carriedAll_eq]

/-- A criterion is written as an object. -/
theorem toJson_eq_object (c : Criterion) : ∃ members, c.toJson = .object members :=
  ⟨_, c.toJson_eq⟩

/-- A shaped criterion is decoded from its encoding, as what JSON makes of it. -/
theorem Shaped.ofJson_toJson {c : Criterion} (h : c.Shaped) : ofJson c.toJson = .ok c.carried := by
  obtain ⟨d, -, hslot, hdecodes⟩ := h.decodes
  obtain ⟨members, hjson⟩ := c.toJson_eq_object
  rw [hjson] at hslot ⊢
  have hreads : Document.ofJson? (.object members) = some d := by
    obtain ⟨d', hd', hdoc⟩ := Option.map_eq_some_iff.mp hslot
    rw [Document.ofJson?, hd', Document.Slot.document.inj hdoc]
  rw [ofJson, hreads]
  exact hdecodes

@[simp] theorem operator_carried (c : Criterion) : c.carried.operator = c.operator := by
  cases c
  rfl

theorem parts_carried (c : Criterion) : c.carried.parts = c.parts.map carried := by
  cases c
  exact carriedAll_eq _

/-- A constant that has been carried by JSON has a value. -/
theorem value_carried {c : Criterion} (h : c.operator.isConstant = true) :
    c.carried.value = some (c.value.getD .null).carried := by
  cases c
  exact if_pos h

end Criterion

end Selection
