import Selection.Proofs.Decoded

/-! # Documents of both versions

A document of the first version gives its right-hand literal in `fieldValue`, and one of the second
in a constant in its right-hand slot. Documents of both may stand in each other's slots. Moving the
literal of every document inside a JSON value leaves no document of the first version, and the value
is read as the same criterion, or fails as it did before.
-/

namespace Selection

namespace Json

/-! ## Moving literals in JSON -/

/-- The value of a member that is not null. -/
def given? (key : String) (members : List (String × Json)) : Option Json :=
  (members.lookup key).bind Document.presentOf

/-- The members of a constant. -/
def constantMembers (value : Json) : List (String × Json) :=
  [("constantValue", value), ("selectionComparison", .string "Constant")]

/-- Moves the literal of the first version to the right-hand slot, unless that is taken. -/
def moveLiteral (members : List (String × Json)) : List (String × Json) :=
  match given? "fieldValue" members, given? "rightHandSide" members with
  | some value, none =>
    insertMember "rightHandSide" (.object (constantMembers value))
      (members.filter (·.1 != "fieldValue"))
  | _, _ => members

mutual

/-- Moves the literals of a document and of all documents in its slots. -/
def modern : Json → Json
  | object members => object (moveLiteral (modernMembers members))
  | null => null
  | bool b => bool b
  | number n => number n
  | string s => string s
  | array items => array items

def modernItems : List Json → List Json
  | [] => []
  | item :: rest => item.modern :: modernItems rest

/-- Moves the literals of the documents in slots. -/
def modernMembers : List (String × Json) → List (String × Json)
  | [] => []
  | (key, value) :: rest =>
    let value :=
      match key with
      | "rightHandSide" | "innerCriteria" => value.modern
      | "aggregateList" =>
        match value with
        | array items => array (modernItems items)
        | value => value
      | _ => value
    (key, value) :: modernMembers rest

end

/-- The value of a member where the documents in slots are moved. -/
def modernMember (key : String) (value : Json) : Json :=
  match key with
  | "rightHandSide" | "innerCriteria" => value.modern
  | "aggregateList" =>
    match value with
    | array items => array (modernItems items)
    | value => value
  | _ => value

theorem modernMembers_cons (key : String) (value : Json) (rest : List (String × Json)) :
    modernMembers ((key, value) :: rest) = (key, modernMember key value) :: modernMembers rest := by
  rw [modernMembers.eq_def]
  rfl

theorem modernItems_eq (items : List Json) : modernItems items = items.map modern := by
  induction items with
  | nil => rfl
  | cons item rest ih => rw [modernItems, ih, List.map_cons]

/-- The members of an object that is read as a document: the value itself, or an object in a slot of
such a document. -/
inductive HasNode : Json → List (String × Json) → Prop
  | root (node : List (String × Json)) : HasNode (object node) node
  | slot {members node : List (String × Json)} {slot : Json} (key : String)
      (hkey : key = "rightHandSide" ∨ key = "innerCriteria")
      (hslot : members.lookup key = some slot) (hnode : HasNode slot node) :
      HasNode (object members) node
  | part {members node : List (String × Json)} {items : List Json} {item : Json}
      (hitems : members.lookup "aggregateList" = some (array items)) (hitem : item ∈ items)
      (hnode : HasNode item node) : HasNode (object members) node

/-- The right-hand side is given in both versions. -/
def Mixed (node : List (String × Json)) : Prop :=
  (given? "fieldValue" node).isSome = true ∧ (given? "rightHandSide" node).isSome = true

/-! ## Members of moved documents -/

variable {members : List (String × Json)}

theorem lookup_modernMembers (key : String) (members : List (String × Json)) :
    (modernMembers members).lookup key = (members.lookup key).map (modernMember key) := by
  induction members with
  | nil => rfl
  | cons m rest ih =>
      obtain ⟨other, value⟩ := m
      rw [modernMembers_cons, List.lookup_cons, List.lookup_cons, ih]
      cases hkey : key == other with
      | false => rfl
      | true =>
          obtain rfl := eq_of_beq hkey
          rfl

theorem lookup_filter (keep : String → Bool) (key : String) (members : List (String × Json)) :
    (members.filter (keep ·.1)).lookup key = if keep key then members.lookup key else none := by
  induction members with
  | nil => rw [List.filter_nil, List.lookup_nil, ite_self]
  | cons m rest ih =>
      rw [List.filter_cons, List.lookup_cons]
      cases hkey : key == m.1 with
      | false =>
          split
          · rw [List.lookup_cons, hkey, ih]
          · exact ih
      | true =>
          obtain rfl := eq_of_beq hkey
          split
          next => rw [List.lookup_cons_self]
          next hdrop => rw [ih, if_neg hdrop]

/-- The members with other names than `fieldValue` are found as before. -/
theorem lookup_filter_fieldValue {key : String} (hkey : key ≠ "fieldValue")
    (members : List (String × Json)) :
    (members.filter (·.1 != "fieldValue")).lookup key = members.lookup key := by
  rw [lookup_filter (· != "fieldValue"), if_pos (bne_iff_ne.mpr hkey)]

theorem ne_of_compare_gt {key other : String} (h : compare key other = .gt) : key ≠ other := by
  rintro rfl
  simp at h

theorem lookup_insertMember_self (key : String) (value : Json) (members : List (String × Json)) :
    (insertMember key value members).lookup key = some value := by
  induction members with
  | nil => exact List.lookup_cons_self
  | cons m rest ih =>
      rw [insertMember]
      split
      next => exact List.lookup_cons_self
      next => exact List.lookup_cons_self
      next hkey => rw [List.lookup_cons, beq_eq_false_iff_ne.mpr (ne_of_compare_gt hkey), ih]

theorem lookup_insertMember_ne {key other : String} (hne : key ≠ other) (value : Json)
    (members : List (String × Json)) :
    (insertMember other value members).lookup key = members.lookup key := by
  have hcons (members : List (String × Json)) :
      List.lookup key ((other, value) :: members) = members.lookup key := by
    rw [List.lookup_cons, beq_eq_false_iff_ne.mpr hne]
  induction members with
  | nil => exact hcons []
  | cons m rest ih =>
      rw [insertMember]
      split
      next => exact hcons _
      next hkey =>
        obtain rfl := Std.LawfulEqOrd.eq_of_compare hkey
        rw [hcons, List.lookup_cons, beq_eq_false_iff_ne.mpr hne]
      next => rw [List.lookup_cons, List.lookup_cons, ih]

theorem lookup_moveLiteral {key : String} (hkey : key ≠ "fieldValue")
    (members : List (String × Json)) :
    (moveLiteral members).lookup key = members.lookup key ∨
      ∃ value, (moveLiteral members).lookup key = some (object (constantMembers value)) := by
  unfold moveLiteral
  split
  next value _ _ =>
    by_cases hright : key = "rightHandSide"
    · subst hright
      exact .inr ⟨value, lookup_insertMember_self _ _ _⟩
    · exact .inl ((lookup_insertMember_ne hright _ _).trans (lookup_filter_fieldValue hkey _))
  next => exact .inl rfl

theorem given?_modernMembers_legacy (members : List (String × Json)) :
    given? "fieldValue" (modernMembers members) = given? "fieldValue" members := by
  rw [given?, lookup_modernMembers, given?]
  cases members.lookup "fieldValue" <;> rfl

theorem given?_modernMembers_right (members : List (String × Json)) :
    (given? "rightHandSide" (modernMembers members)).isSome =
      (given? "rightHandSide" members).isSome := by
  rw [given?, lookup_modernMembers, given?]
  cases members.lookup "rightHandSide" with
  | none => rfl
  | some value => cases value <;> rfl

/-- A document whose literal is moved is not of the first version. -/
theorem given?_moveLiteral (h : ¬Mixed members) :
    given? "fieldValue" (moveLiteral (modernMembers members)) = none := by
  unfold moveLiteral
  split
  next =>
    rw [given?, lookup_insertMember_ne (by decide), lookup_filter (· != "fieldValue")]
    rfl
  next hother =>
    rw [given?_modernMembers_legacy] at hother ⊢
    cases hlegacy : given? "fieldValue" members with
    | none => rfl
    | some value =>
        -- The literal stays only where the right-hand slot is taken.
        refine absurd ⟨by rw [hlegacy]; rfl, ?_⟩ h
        rw [← given?_modernMembers_right]
        exact Option.isSome_iff_ne_none.mpr (hother value hlegacy)

/-! ## Documents inside a value -/

theorem HasNode.exists_object {j : Json} {node : List (String × Json)} (h : j.HasNode node) :
    ∃ members, j = object members := by
  cases h <;> exact ⟨_, rfl⟩

theorem HasNode.of_constant {value : Json} {node : List (String × Json)}
    (h : (object (constantMembers value)).HasNode node) : node = constantMembers value := by
  cases h with
  | root => rfl
  | slot key hkey hslot _ => rcases hkey with rfl | rfl <;> contradiction
  | part hitems _ _ => contradiction

/-- What becomes an object was one. -/
theorem modern_eq_object {j : Json} (h : j.modern = object members) :
    ∃ before, j = object before ∧ members = moveLiteral (modernMembers before) := by
  cases j with
  | object before => exact ⟨before, rfl, (Json.object.inj h).symm⟩
  | _ => contradiction

/-- The documents in a value whose literals are moved are those of the value with their literals
moved, and the constants that the literals have become. -/
theorem HasNode.of_modern {j : Json} {node : List (String × Json)} (h : j.modern.HasNode node) :
    (∃ before, j.HasNode before ∧ node = moveLiteral (modernMembers before)) ∨
      ∃ value, node = constantMembers value := by
  -- The induction is on the way to the node in the moved value. The value it was moved from varies
  -- along that way.
  generalize hj : j.modern = moved at h
  induction h generalizing j with
  | root node =>
      obtain ⟨before, rfl, hnode⟩ := modern_eq_object hj
      exact .inl ⟨before, .root before, hnode⟩
  | @slot members node inner key hkey hslot hnode ih =>
      obtain ⟨before, rfl, rfl⟩ := modern_eq_object hj
      have hne : key ≠ "fieldValue" := by rcases hkey with rfl | rfl <;> decide
      rcases lookup_moveLiteral hne (modernMembers before) with hsame | ⟨value, hmoved⟩
      · rw [hsame, lookup_modernMembers] at hslot
        obtain ⟨slot, hlookup, hmodern⟩ := Option.map_eq_some_iff.mp hslot
        have hinner : slot.modern = inner := by
          rcases hkey with rfl | rfl <;> exact hmodern
        rcases ih hinner with ⟨within, hwithin, hnode⟩ | hconstant
        · exact .inl ⟨within, .slot key hkey hlookup hwithin, hnode⟩
        · exact .inr hconstant
      -- The slot was put there for the literal, and holds nothing but a constant.
      · rw [hmoved] at hslot
        obtain rfl := Option.some.inj hslot
        exact .inr ⟨value, hnode.of_constant⟩
  | @part members node items item hitems hitem hnode ih =>
      obtain ⟨before, rfl, rfl⟩ := modern_eq_object hj
      have hne : "aggregateList" ≠ "fieldValue" := by decide
      rcases lookup_moveLiteral hne (modernMembers before) with hsame | ⟨value, hmoved⟩
      · rw [hsame, lookup_modernMembers] at hitems
        obtain ⟨list, hlookup, hmodern⟩ := Option.map_eq_some_iff.mp hitems
        cases list with
        | array parts =>
            obtain rfl := Json.array.inj hmodern
            rw [modernItems_eq] at hitem
            obtain ⟨part, hpart, hpartModern⟩ := List.mem_map.mp hitem
            rcases ih hpartModern with ⟨within, hwithin, hnode⟩ | hconstant
            · exact .inl ⟨within, .part hlookup hpart hwithin, hnode⟩
            · exact .inr hconstant
        | _ => contradiction
      · rw [hmoved] at hitems
        exact Json.noConfusion (Option.some.inj hitems)

end Json

namespace Document

/-- The document that takes a value for an attribute. -/
def assign? (d : Document) (key : String) (value : Json) : Option Document :=
  match key with
  | "selectionComparison" => do return { d with operator := ← operatorOf? value }
  | "fieldName" => do return { d with fieldName := ← fieldNameOf? value }
  | "rightHandSide" => do return { d with rightHandSide := (← Slot.ofJson? value).present }
  | "constantValue" => return { d with constantValue := presentOf value }
  | "innerCriteria" => do return { d with innerCriteria := (← Slot.ofJson? value).present }
  | "aggregateList" =>
    match value with
    | .array items => do return { d with aggregateList := ← slots? items }
    | _ => none
  | "fieldValue" => return { d with fieldValue := presentOf value }
  | _ => return d

theorem ofMembers?_cons (key : String) (value : Json) (rest : List (String × Json)) :
    ofMembers? ((key, value) :: rest) = (ofMembers? rest).bind (assign? · key value) := by
  rw [ofMembers?]
  rfl

/-! ## Moving literals in documents -/

/-- The document in the second version, unless its right-hand side is given twice. -/
def settle (d : Document) : Document :=
  match d.fieldValue, d.rightHandSide with
  | some v, none =>
    { d with
      rightHandSide := some (.document { operator := .constant, constantValue := some v })
      fieldValue := none }
  | _, _ => d

mutual

def Slot.modern : Slot → Slot
  | .literal j => .literal j
  | .document d => .document (modern d)

def modernPresent : Option Slot → Option Slot
  | none => none
  | some s => some s.modern

def modernAll : List Slot → List Slot
  | [] => []
  | s :: rest => s.modern :: modernAll rest

/-- The document and all documents in its slots in the second version. -/
def modern : Attributes Slot → Attributes Slot
  | ⟨op, field, right, constant, inner, parts, fieldValue⟩ =>
    settle ⟨op, field, modernPresent right, constant, modernPresent inner, modernAll parts,
      fieldValue⟩

end

/-- The document with the documents in its slots in the second version. -/
def modernSlots (d : Document) : Document :=
  { d with
    rightHandSide := d.rightHandSide.map Slot.modern
    innerCriteria := d.innerCriteria.map Slot.modern
    aggregateList := d.aggregateList.map Slot.modern }

theorem modernPresent_eq (right : Option Slot) : modernPresent right = right.map Slot.modern := by
  cases right <;> rfl

theorem modernAll_eq (slots : List Slot) : modernAll slots = slots.map Slot.modern := by
  induction slots with
  | nil => rfl
  | cons s rest ih => rw [modernAll, ih, List.map_cons]

theorem modern_eq (d : Document) : modern d = settle (modernSlots d) := by
  obtain ⟨op, field, right, constant, inner, parts, fieldValue⟩ := d
  rw [modern, modernPresent_eq, modernPresent_eq, modernAll_eq]
  rfl

/-- Induction on a slot, through the slots of a document in it. -/
theorem Slot.induction {motive : Slot → Prop} (literal : ∀ j, motive (.literal j))
    (document : ∀ d : Document, (∀ s ∈ d.rightHandSide, motive s) →
      (∀ s ∈ d.innerCriteria, motive s) → (∀ s ∈ d.aggregateList, motive s) →
      motive (.document d)) (s : Slot) : motive s := by
  refine @Slot.rec motive
    (fun d => (∀ s ∈ d.rightHandSide, motive s) ∧ (∀ s ∈ d.innerCriteria, motive s) ∧
      ∀ s ∈ d.aggregateList, motive s)
    (fun right => ∀ s ∈ right, motive s) (fun parts => ∀ s ∈ parts, motive s)
    literal ?_ ?_ (fun s hs => absurd hs (Option.not_mem_none s)) ?_ (List.forall_mem_nil _) ?_ s
  · exact fun d hslots => document d hslots.1 hslots.2.1 hslots.2.2
  · exact fun _ _ _ _ _ _ _ hright hinner hparts => ⟨hright, hinner, hparts⟩
  · intro s hs t ht
    exact Option.some.inj ht ▸ hs
  · exact fun _ _ hs hrest => List.forall_mem_cons.mpr ⟨hs, hrest⟩

/-! ## Moving literals keeps the criterion -/

/-- A constant in the right-hand slot is the same criterion as the literal of the first version. -/
theorem toCriterion_settle (d : Document) : toCriterion (settle d) = toCriterion d := by
  obtain ⟨op, field, right, constant, inner, parts, fieldValue⟩ := d
  cases fieldValue with
  | none => rfl
  | some v =>
      cases right with
      | some s => rfl
      | none =>
          have hconstant : presentCriterion
                (some (.document { operator := .constant, constantValue := some v })) =
              (literalValue v).map fun w => some (.constant w) := by
            rw [presentCriterion, Slot.toCriterion, toCriterion]
            cases hv : literalValue v <;> simp [constantOf, hv] <;> rfl
          rw [settle, toCriterion, toCriterion]
          dsimp only
          rw [hconstant]
          cases literalValue v <;> rfl

theorem criteria_map {f : Slot → Slot} {slots : List Slot}
    (h : ∀ s ∈ slots, (f s).toCriterion = s.toCriterion) :
    criteria (slots.map f) = criteria slots := by
  induction slots with
  | nil => rfl
  | cons s rest ih =>
      obtain ⟨hs, hrest⟩ := List.forall_mem_cons.mp h
      rw [List.map_cons, criteria, criteria, hs, ih hrest]

theorem presentCriterion_map {f : Slot → Slot} {right : Option Slot}
    (h : ∀ s ∈ right, (f s).toCriterion = s.toCriterion) :
    presentCriterion (right.map f) = presentCriterion right := by
  cases right with
  | none => rfl
  | some s => rw [Option.map_some, presentCriterion, presentCriterion, h s rfl]

/-- A document whose slots are made modern is decoded as before when the slots are. -/
theorem toCriterion_modernSlots {d : Document}
    (hright : ∀ s ∈ d.rightHandSide, s.modern.toCriterion = s.toCriterion)
    (hinner : ∀ s ∈ d.innerCriteria, s.modern.toCriterion = s.toCriterion)
    (hparts : ∀ s ∈ d.aggregateList, s.modern.toCriterion = s.toCriterion) :
    toCriterion (modernSlots d) = toCriterion d := by
  obtain ⟨op, field, right, constant, inner, parts, fieldValue⟩ := d
  rw [modernSlots, toCriterion, toCriterion]
  rw [presentCriterion_map hright, presentCriterion_map hinner, criteria_map hparts]
  simp only [checkVersion, checkShape, Option.isSome_map, List.isEmpty_map]

/-- A slot that is made modern is decoded as before. -/
theorem Slot.toCriterion_modern (s : Slot) : s.modern.toCriterion = s.toCriterion := by
  induction s using Slot.induction with
  | literal j => rfl
  | document d hright hinner hparts =>
      show Document.toCriterion (Document.modern d) = Document.toCriterion d
      rw [modern_eq, toCriterion_settle, toCriterion_modernSlots hright hinner hparts]

/-- A document that is made modern is decoded as before. -/
theorem toCriterion_modern (d : Document) : toCriterion (modern d) = toCriterion d :=
  Slot.toCriterion_modern (.document d)

/-! ## Reading what has been moved -/

theorem Slot.present_modern (s : Slot) : s.modern.present = s.present.map Slot.modern := by
  cases s with
  | literal j => cases j <;> rfl
  | document d => rfl

/-- An attribute that is made modern is assigned as before. -/
theorem assign?_modern {key : String} {value : Json} (d : Document)
    (hslot : Slot.ofJson? value.modern = (Slot.ofJson? value).map Slot.modern)
    (hitems : ∀ items, value = .array items →
      slots? (Json.modernItems items) = (slots? items).map (List.map Slot.modern)) :
    assign? (modernSlots d) key (Json.modernMember key value) =
      (assign? d key value).map modernSlots := by
  unfold assign? Json.modernMember
  split
  -- The kind and the name are read from values that moving leaves alone.
  · show (operatorOf? value).bind _ = _
    cases operatorOf? value <;> rfl
  · show (fieldNameOf? value).bind _ = _
    cases fieldNameOf? value <;> rfl
  · show (Slot.ofJson? value.modern).bind _ = _
    rw [hslot]
    cases Slot.ofJson? value with
    | none => rfl
    | some s => simp [modernSlots, s.present_modern]
  · rfl
  · show (Slot.ofJson? value.modern).bind _ = _
    rw [hslot]
    cases Slot.ofJson? value with
    | none => rfl
    | some s => simp [modernSlots, s.present_modern]
  · cases value with
    | array items =>
        show (slots? (Json.modernItems items)).bind _ = ((slots? items).bind _).map _
        rw [hitems items rfl]
        cases slots? items <;> rfl
    | _ => rfl
  · rfl
  · rfl

theorem assign?_of_ne_fieldValue {key : String} (hkey : key ≠ "fieldValue") (d : Document)
    (value : Json) :
    assign? { d with fieldValue := none } key value =
      (assign? d key value).map fun d => { d with fieldValue := none } := by
  unfold assign?
  split
  · cases operatorOf? value <;> rfl
  · cases fieldNameOf? value <;> rfl
  · cases Slot.ofJson? value <;> rfl
  · rfl
  · cases Slot.ofJson? value <;> rfl
  · split
    next items => cases slots? items <;> rfl
    next => rfl
  · contradiction
  · rfl

theorem ofMembers?_filter (members : List (String × Json)) :
    ofMembers? (members.filter (·.1 != "fieldValue")) =
      (ofMembers? members).map fun d => { d with fieldValue := none } := by
  induction members with
  | nil => rfl
  | cons m rest ih =>
      obtain ⟨key, value⟩ := m
      rw [ofMembers?_cons]
      by_cases hkey : key = "fieldValue"
      · subst hkey
        rw [List.filter_cons_of_neg (by simp), ih]
        cases ofMembers? rest <;> rfl
      · rw [List.filter_cons_of_pos (by simpa using hkey), ofMembers?_cons, ih]
        cases ofMembers? rest with
        | none => rfl
        | some d => exact assign?_of_ne_fieldValue hkey d value

theorem assign?_of_ne_rightHandSide {key : String} (hkey : key ≠ "rightHandSide") (d : Document)
    (right : Option Slot) (value : Json) :
    assign? { d with rightHandSide := right } key value =
      (assign? d key value).map fun d => { d with rightHandSide := right } := by
  unfold assign?
  split
  · cases operatorOf? value <;> rfl
  · cases fieldNameOf? value <;> rfl
  · contradiction
  · rfl
  · cases Slot.ofJson? value <;> rfl
  · split
    next items => cases slots? items <;> rfl
    next => rfl
  · rfl
  · rfl

theorem presentOf_eq_none {j : Json} : presentOf j = none ↔ j = .null := by
  cases j <;> simp [presentOf]

theorem presentOf_of_given? {key : String} {members : List (String × Json)} {value : Json}
    (h : Json.given? key members = some value) : presentOf value = some value := by
  obtain ⟨j, -, hj⟩ := Option.bind_eq_some_iff.mp h
  cases j <;> first | contradiction | exact Option.some.inj hj ▸ rfl

/-- A right-hand slot that is set where none is given fills that of the document. -/
theorem ofMembers?_insertMember {members : List (String × Json)} {value : Json} {s : Slot}
    (hnone : Json.given? "rightHandSide" members = none) (hs : Slot.ofJson? value = some s) :
    ofMembers? (Json.insertMember "rightHandSide" value members) =
      (ofMembers? members).map fun d => { d with rightHandSide := s.present } := by
  have hset (d : Document) :
      assign? d "rightHandSide" value = some { d with rightHandSide := s.present } := by
    show (Slot.ofJson? value).bind _ = _
    rw [hs]
    rfl
  induction members with
  | nil => exact hset {}
  | cons m rest ih =>
      obtain ⟨key, other⟩ := m
      rw [Json.insertMember]
      split
      next =>
        rw [ofMembers?_cons]
        cases ofMembers? ((key, other) :: rest) with
        | none => rfl
        | some d => exact hset d
      next hkey =>
        -- The member that is replaced is a null, which fills no slot.
        obtain rfl := Std.LawfulEqOrd.eq_of_compare hkey
        obtain rfl : other = .null := by
          simpa [Json.given?, presentOf_eq_none] using hnone
        rw [ofMembers?_cons, ofMembers?_cons]
        cases ofMembers? rest with
        | none => rfl
        | some d => exact hset d
      next hkey =>
        have hne := (Json.ne_of_compare_gt hkey).symm
        have hrest : Json.given? "rightHandSide" rest = none := by
          simpa [Json.given?, List.lookup_cons, beq_eq_false_iff_ne.mpr hne.symm] using hnone
        rw [ofMembers?_cons, ih hrest, ofMembers?_cons]
        cases ofMembers? rest with
        | none => rfl
        | some d => exact assign?_of_ne_rightHandSide hne d _ other

/-- What is read from a member for a slot; without the member the slot is empty. -/
def slotAt? (key : String) (members : List (String × Json)) : Option (Option Slot) :=
  match members.lookup key with
  | some value => (Slot.ofJson? value).map Slot.present
  | none => some none

/-- What is read from the member for the list of slots. -/
def partsAt? (members : List (String × Json)) : Option (List Slot) :=
  match members.lookup "aggregateList" with
  | some (.array items) => slots? items
  | some _ => none
  | none => some []

/-- The attributes of a document are those of the first members with their names. -/
theorem attributes_of_ofMembers? {members : List (String × Json)} {d : Document}
    (h : ofMembers? members = some d) :
    Json.given? "fieldValue" members = d.fieldValue ∧
      slotAt? "rightHandSide" members = some d.rightHandSide ∧
      slotAt? "innerCriteria" members = some d.innerCriteria ∧
      partsAt? members = some d.aggregateList := by
  -- The last member is assigned first, so that the first one of a name is what is left of it.
  induction members generalizing d with
  | nil =>
      obtain rfl := Option.some.inj h
      exact ⟨rfl, rfl, rfl, rfl⟩
  | cons m rest ih =>
      obtain ⟨key, value⟩ := m
      rw [ofMembers?_cons] at h
      obtain ⟨before, hbefore, h⟩ := Option.bind_eq_some_iff.mp h
      obtain ⟨hlegacy, hright, hinner, hparts⟩ := ih hbefore
      unfold assign? at h
      split at h
      · obtain ⟨op, -, h⟩ := Option.bind_eq_some_iff.mp h
        obtain rfl := Option.some.inj h
        exact ⟨hlegacy, hright, hinner, hparts⟩
      · obtain ⟨name, -, h⟩ := Option.bind_eq_some_iff.mp h
        obtain rfl := Option.some.inj h
        exact ⟨hlegacy, hright, hinner, hparts⟩
      · obtain ⟨s, hs, h⟩ := Option.bind_eq_some_iff.mp h
        obtain rfl := Option.some.inj h
        exact ⟨hlegacy, congrArg (Option.map Slot.present) hs, hinner, hparts⟩
      · obtain rfl := Option.some.inj h
        exact ⟨hlegacy, hright, hinner, hparts⟩
      · obtain ⟨s, hs, h⟩ := Option.bind_eq_some_iff.mp h
        obtain rfl := Option.some.inj h
        exact ⟨hlegacy, hright, congrArg (Option.map Slot.present) hs, hparts⟩
      · split at h
        next items =>
          obtain ⟨slots, hslots, h⟩ := Option.bind_eq_some_iff.mp h
          obtain rfl := Option.some.inj h
          exact ⟨hlegacy, hright, hinner, hslots⟩
        next => contradiction
      · obtain rfl := Option.some.inj h
        exact ⟨rfl, hright, hinner, hparts⟩
      -- Any other key is passed over, here and by the look-ups.
      next hkind hname hrightKey hconstant hinnerKey hpartsKey hlegacyKey =>
        obtain rfl := Option.some.inj h
        have hlookup (other : String) (hother : key ≠ other) :
            List.lookup other ((key, value) :: rest) = rest.lookup other := by
          rw [List.lookup_cons, beq_eq_false_iff_ne.mpr hother.symm]
        simp only [Json.given?, slotAt?, partsAt?, hlookup _ hrightKey, hlookup _ hinnerKey,
          hlookup _ hpartsKey, hlookup _ hlegacyKey]
        exact ⟨hlegacy, hright, hinner, hparts⟩

/-- A slot is empty when no member is given for it. -/
theorem given?_eq_none_iff {key : String} {members : List (String × Json)} {slot : Option Slot}
    (h : slotAt? key members = some slot) : Json.given? key members = none ↔ slot = none := by
  rw [slotAt?] at h
  rw [Json.given?]
  cases hlookup : members.lookup key with
  | none =>
      rw [hlookup] at h
      obtain rfl := Option.some.inj h
      exact iff_of_true rfl rfl
  | some value =>
      rw [hlookup] at h
      obtain ⟨s, hs, rfl⟩ := Option.map_eq_some_iff.mp h
      rw [Option.bind_some, presentOf_eq_none]
      cases value with
      | object members =>
          obtain ⟨d, -, rfl⟩ := Option.map_eq_some_iff.mp hs
          exact iff_of_false nofun nofun
      | null =>
          obtain rfl := Option.some.inj hs
          exact iff_of_true rfl rfl
      | _ =>
          obtain rfl := Option.some.inj hs
          exact iff_of_false nofun nofun

/-- Moving the literal of an object settles the document that it is read as. -/
theorem ofMembers?_moveLiteral (members : List (String × Json)) :
    ofMembers? (Json.moveLiteral members) = (ofMembers? members).map settle := by
  have hgiven {d : Document} (hd : ofMembers? members = some d) :
      d.fieldValue = Json.given? "fieldValue" members ∧
        (Json.given? "rightHandSide" members = none ↔ d.rightHandSide = none) := by
    obtain ⟨hlegacy, hright, -, -⟩ := attributes_of_ofMembers? hd
    exact ⟨hlegacy.symm, given?_eq_none_iff hright⟩
  unfold Json.moveLiteral
  split
  -- The literal is moved: the member it becomes is read as the slot that settling puts in.
  next value hvalue hnone =>
    have hfiltered : Json.given? "rightHandSide" (members.filter (·.1 != "fieldValue")) = none := by
      rw [Json.given?, Json.lookup_filter_fieldValue (by decide)]
      exact hnone
    rw [ofMembers?_insertMember hfiltered rfl, ofMembers?_filter, Option.map_map]
    cases hd : ofMembers? members with
    | none => rfl
    | some d =>
        obtain ⟨hlegacy, hright⟩ := hgiven hd
        rw [Option.map_some, Option.map_some, settle, hlegacy, hvalue, hright.mp hnone,
          presentOf_of_given? hvalue]
        rfl
  -- It stays: there is none, or there is a right-hand side already.
  next hother =>
    cases hd : ofMembers? members with
    | none => rfl
    | some d =>
        obtain ⟨hlegacy, hright⟩ := hgiven hd
        rw [Option.map_some, settle]
        split
        next value hvalue hempty =>
          exact absurd (hright.mpr hempty) (hother value (hlegacy ▸ hvalue))
        next => rfl

mutual

/-- A value whose literals are moved is read as the slot in the second version. -/
theorem Slot.ofJson?_modern : ∀ j : Json, Slot.ofJson? j.modern = (Slot.ofJson? j).map Slot.modern
  | .object members => by
      rw [Json.modern, Slot.ofJson?, ofMembers?_moveLiteral, ofMembers?_modernMembers members,
        Slot.ofJson?]
      cases ofMembers? members with
      | none => rfl
      | some d => exact congrArg (some ∘ Slot.document) (modern_eq d).symm
  | .array items => rfl
  | .null => rfl
  | .bool b => rfl
  | .number n => rfl
  | .string t => rfl

/-- Items that are made modern are read as the slots made modern. -/
theorem slots?_modernItems : ∀ items : List Json,
    slots? (Json.modernItems items) = (slots? items).map (List.map Slot.modern)
  | [] => rfl
  | item :: items => by
      rw [Json.modernItems, slots?, slots?, Slot.ofJson?_modern item, slots?_modernItems items]
      cases Slot.ofJson? item <;> cases slots? items <;> rfl

/-- Members that are made modern are read as the document with its slots made modern. -/
theorem ofMembers?_modernMembers : ∀ members : List (String × Json),
    ofMembers? (Json.modernMembers members) = (ofMembers? members).map modernSlots
  | [] => rfl
  | (key, value) :: members => by
      have hslot := Slot.ofJson?_modern value
      have hitems (items : List Json) (hvalue : value = .array items) :
          slots? (Json.modernItems items) = (slots? items).map (List.map Slot.modern) := by
        subst hvalue
        exact slots?_modernItems items
      rw [Json.modernMembers_cons, ofMembers?_cons, ofMembers?_modernMembers members,
        ofMembers?_cons]
      cases ofMembers? members with
      | none => rfl
      | some d => exact assign?_modern d hslot hitems

end

/-- Members of the second version are read as the document made modern. -/
theorem ofMembers?_modern (members : List (String × Json)) :
    ofMembers? (Json.moveLiteral (Json.modernMembers members)) =
      (ofMembers? members).map modern := by
  rw [ofMembers?_moveLiteral, ofMembers?_modernMembers, Option.map_map]
  exact congrArg (Option.map · (ofMembers? members)) (funext fun d => (modern_eq d).symm)

/-! ## Values with mixed documents -/

/-- A document that has a criterion gives its right-hand side once, and all its slots have
criteria. -/
theorem slots_of_toCriterion {d : Document} {c : Criterion} (h : toCriterion d = .ok c) :
    (d.fieldValue.isSome = true → d.rightHandSide = none) ∧
      (∀ s ∈ d.rightHandSide, ∃ c, s.toCriterion = .ok c) ∧
      (∀ s ∈ d.innerCriteria, ∃ c, s.toCriterion = .ok c) ∧
      ∀ s ∈ d.aggregateList, ∃ c, s.toCriterion = .ok c := by
  obtain ⟨hversion, -, -, hright, hinner, hparts⟩ := exists_toCriterion_iff.mp ⟨c, h⟩
  have honce (hlegacy : d.fieldValue.isSome = true) : d.rightHandSide = none :=
    (checkVersion_eq_ok_iff.mp hversion).resolve_left (Option.isSome_iff_ne_none.mp hlegacy)
  refine ⟨honce, fun s hs => ?_, hinner, hparts⟩
  apply hright
  rw [rightSlot]
  cases hlegacy : d.fieldValue with
  | none => exact hs
  | some j =>
      rw [honce (hlegacy ▸ rfl)] at hs
      contradiction

/-- A member for a slot that holds a document fills the slot. -/
theorem slot_of_hasNode {key : String} {members node : List (String × Json)} {inner : Json}
    {slot : Option Slot} (hlookup : members.lookup key = some inner) (hnode : inner.HasNode node)
    (h : slotAt? key members = some slot) : ∃ s, Slot.ofJson? inner = some s ∧ slot = some s := by
  rw [slotAt?, hlookup] at h
  obtain ⟨s, hs, rfl⟩ := Option.map_eq_some_iff.mp h
  obtain ⟨members, rfl⟩ := hnode.exists_object
  obtain ⟨d, -, rfl⟩ := Option.map_eq_some_iff.mp hs
  exact ⟨_, hs, rfl⟩

theorem slot_of_mem_slots? {items : List Json} {item : Json} {slots : List Slot}
    (h : slots? items = some slots) (hitem : item ∈ items) :
    ∃ s ∈ slots, Slot.ofJson? item = some s := by
  induction items generalizing slots with
  | nil => exact absurd hitem List.not_mem_nil
  | cons head rest ih =>
      rw [slots?] at h
      obtain ⟨s, hs, h⟩ := Option.bind_eq_some_iff.mp h
      obtain ⟨others, hothers, h⟩ := Option.bind_eq_some_iff.mp h
      obtain rfl := Option.some.inj h
      rcases List.mem_cons.mp hitem with rfl | hmem
      · exact ⟨s, List.mem_cons_self, hs⟩
      · obtain ⟨other, hother, hread⟩ := ih hothers hmem
        exact ⟨other, List.mem_cons_of_mem _ hother, hread⟩

/-- A value that has a criterion has no document with its right-hand side in both versions. -/
theorem not_mixed_of_toCriterion {j : Json} {node : List (String × Json)} (hnode : j.HasNode node)
    {s : Slot} {c : Criterion} (hs : Slot.ofJson? j = some s) (hc : s.toCriterion = .ok c) :
    ¬Json.Mixed node := by
  -- Every document on the way to the node is decoded itself, and a decoded one is not of both
  -- versions.
  induction hnode generalizing s c with
  | root node =>
      obtain ⟨d, hd, rfl⟩ := Option.map_eq_some_iff.mp hs
      obtain ⟨hlegacy, hright, -, -⟩ := attributes_of_ofMembers? hd
      rintro ⟨hfirst, hsecond⟩
      have hempty := (slots_of_toCriterion hc).1 (hlegacy ▸ hfirst)
      rw [(given?_eq_none_iff hright).mpr hempty] at hsecond
      contradiction
  | slot key hkey hslot hnode ih =>
      obtain ⟨d, hd, rfl⟩ := Option.map_eq_some_iff.mp hs
      obtain ⟨-, hright, hinner, -⟩ := attributes_of_ofMembers? hd
      obtain ⟨-, hrightOk, hinnerOk, -⟩ := slots_of_toCriterion hc
      rcases hkey with rfl | rfl
      · obtain ⟨s, hread, hfilled⟩ := slot_of_hasNode hslot hnode hright
        obtain ⟨c, hc⟩ := hrightOk s hfilled
        exact ih hread hc
      · obtain ⟨s, hread, hfilled⟩ := slot_of_hasNode hslot hnode hinner
        obtain ⟨c, hc⟩ := hinnerOk s hfilled
        exact ih hread hc
  | part hitems hitem hnode ih =>
      obtain ⟨d, hd, rfl⟩ := Option.map_eq_some_iff.mp hs
      obtain ⟨-, -, -, hparts⟩ := attributes_of_ofMembers? hd
      rw [partsAt?, hitems] at hparts
      obtain ⟨s, hmem, hread⟩ := slot_of_mem_slots? hparts hitem
      obtain ⟨c, hc⟩ := (slots_of_toCriterion hc).2.2.2 s hmem
      exact ih hread hc

/-! ## Upgrading one document -/

/-- An upgraded document is of the second version. -/
theorem version_of_upgrade {d d' : Document} (h : upgrade d = .ok d') : version d' = .second := by
  obtain ⟨op, field, right, constant, inner, parts, legacy⟩ := d
  cases legacy with
  | none =>
      obtain rfl := Except.ok.inj h
      rfl
  | some v =>
      cases right with
      | some s => contradiction
      | none =>
          obtain rfl := Except.ok.inj h
          rfl

/-- A document of the second version is left as it is. -/
theorem upgrade_of_version {d : Document} (h : version d = .second) : upgrade d = .ok d := by
  obtain ⟨op, field, right, constant, inner, parts, legacy⟩ := d
  cases legacy with
  | none => rfl
  | some v => contradiction

/-- A document is decoded by way of its second version: the literal of the first is moved before the
shape is checked and the slots are decoded. -/
theorem toCriterion_eq_upgrade (d : Document) : toCriterion d = (do
    let d ← upgrade d
    checkShape d
    let value ← constantOf d.operator d.constantValue
    let right ← presentCriterion d.rightHandSide
    let inner ← presentCriterion d.innerCriteria
    return .node d.operator d.fieldName right value inner (← criteria d.aggregateList)) := by
  rw [toCriterion_eq]
  obtain ⟨op, field, right, constant, inner, parts, legacy⟩ := d
  cases legacy with
  | none => rfl
  | some v =>
      cases right with
      | some s => rfl
      | none =>
          -- The constant that stands for the literal is decoded to what the literal itself is.
          have hconstant : presentCriterion
              (some (.document { operator := .constant, constantValue := some v })) =
                presentCriterion (some (.literal v)) := by
            simp only [presentCriterion, Slot.toCriterion, toCriterion, constantOf]
            cases literalValue v <;> rfl
          simp only [upgrade, rightSlot, ← hconstant]
          rfl

end Document

namespace Criterion

/-- A document that is made modern is read as before. -/
theorem ofJson_modern (j : Json) : ofJson j.modern = ofJson j := by
  cases j with
  | object members =>
      unfold ofJson
      rw [Json.modern, Document.ofJson?, Document.ofMembers?_modern, Document.ofJson?]
      cases Document.ofMembers? members with
      | none => rfl
      | some d => exact Document.toCriterion_modern d
  | _ => rfl

/-- No document that is read has a right-hand side in both versions. -/
theorem not_mixed_of_ofJson {members node : List (String × Json)} {c : Criterion}
    (hnode : (Json.object members).HasNode node) (h : ofJson (.object members) = .ok c) :
    ¬Json.Mixed node := by
  unfold ofJson at h
  split at h
  next d hd =>
    have hslot : Document.Slot.ofJson? (.object members) = some (.document d) :=
      congrArg (Option.map Document.Slot.document) hd
    exact Document.not_mixed_of_toCriterion hnode hslot h
  next => contradiction

/-- A document has the criterion, or the error, of the document where each literal of the first
version is a constant in the right-hand slot. If every right-hand side is given once, none of the
first version is left there; a right-hand side in both versions, at any depth, is an error.
Upgrading a single document again changes nothing, and gives the second version. -/
theorem versions_read_alike (members : List (String × Json)) :
    ofJson (Json.object members).modern = ofJson (.object members) ∧
    ((∀ node, (Json.object members).HasNode node → ¬Json.Mixed node) →
      ∀ node, (Json.object members).modern.HasNode node → Json.given? "fieldValue" node = none) ∧
    (∀ node, (Json.object members).HasNode node → Json.Mixed node →
      ∃ e, ofJson (.object members) = .error e) ∧
    ∀ d d' : Document, d.upgrade = .ok d' → d'.upgrade = .ok d' ∧ d'.version = .second := by
  refine ⟨ofJson_modern _, ?_, ?_, ?_⟩
  · intro hunmixed node hnode
    rcases hnode.of_modern with ⟨before, hbefore, rfl⟩ | ⟨value, rfl⟩
    · exact Json.given?_moveLiteral (hunmixed before hbefore)
    · rfl
  · intro node hnode hmixed
    cases hread : ofJson (.object members) with
    | error e => exact ⟨e, rfl⟩
    | ok c => exact absurd hmixed (not_mixed_of_ofJson hnode hread)
  · intro d d' hd
    have hsecond := Document.version_of_upgrade hd
    exact ⟨Document.upgrade_of_version hsecond, hsecond⟩

end Criterion

namespace Sample

/-- Customers of thirty, asked for in the first version, or in Oslo, in the second. -/
def eitherVersion : List (String × Json) :=
  [("aggregateList", .array
    [.object [("fieldName", .string "age"), ("fieldValue", .ofInt 30)],
      .object [("fieldName", .string "address.city"), ("rightHandSide", .string "Oslo")]]),
    ("selectionComparison", .string "Or")]

/-- Customers not of an age that is given in both versions. -/
def bothVersions : List (String × Json) :=
  [("aggregateList", .array
    [.object [("fieldName", .string "age"), ("fieldValue", .ofInt 30),
      ("rightHandSide", .ofInt 31)]]),
    ("selectionComparison", .string "Nor")]

end Sample

/-- Both versions in one document give one criterion, with no literal of the first left to move. An
age in both versions gives none. -/
theorem Criterion.either_version_reads :
    ∃ c, ofJson (.object Sample.eitherVersion) = .ok c ∧
      ofJson (Json.object Sample.eitherVersion).modern = .ok c ∧
      (∀ node, (Json.object Sample.eitherVersion).modern.HasNode node →
        Json.given? "fieldValue" node = none) ∧
      (∃ e, ofJson (.object Sample.bothVersions) = .error e) ∧
      ∃ d d' : Document, d.version = .first ∧ d.upgrade = .ok d' ∧ d'.upgrade = .ok d' ∧
        d'.version = .second := by
  obtain ⟨c, hc⟩ : ∃ c, ofJson (.object Sample.eitherVersion) = .ok c := ⟨_, rfl⟩
  obtain ⟨hmodern, hleft, -, hupgrade⟩ := versions_read_alike Sample.eitherVersion
  obtain ⟨-, -, hmixed, -⟩ := versions_read_alike Sample.bothVersions
  refine ⟨c, hc, hmodern.trans hc, hleft fun node hnode => not_mixed_of_ofJson hnode hc, ?_, ?_⟩
  · exact hmixed _ (.part rfl List.mem_cons_self (.root _)) ⟨rfl, rfl⟩
  · obtain ⟨d, d', hfirst, hd⟩ : ∃ d d' : Document, d.version = .first ∧ d.upgrade = .ok d' :=
      ⟨{ fieldValue := some (.ofInt 30) }, _, rfl, rfl⟩
    exact ⟨d, d', hfirst, hd, hupgrade d d' hd⟩

end Selection
