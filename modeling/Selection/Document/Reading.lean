import Selection.Document.Basic
import Selection.Json.Reading

/-! # Reading documents

A document is an object of attributes, or an array of them in their order. Attributes of other names
are passed over. A null attribute counts as absent, but an operator and a list must not be null. In
the text of a document no attribute may be given twice, and an attribute that is passed over need
only have the form of JSON; inside the document the last of equal keys counts.
-/

namespace Selection.Document

/-- The names of the attributes, in their order. -/
def attributeNames : List String :=
  ["selectionComparison", "fieldName", "rightHandSide", "constantValue", "innerCriteria",
    "aggregateList", "fieldValue"]

/-- The operator of its name, or of an object with the name as its only key and a null. -/
def operatorOf? : Json → Option Operator
  | .string name => Operator.ofName? name
  | .object [(name, .null)] => Operator.ofName? name
  | _ => none

/-- The field name of a string, absent for a null. -/
def fieldNameOf? : Json → Option (Option String)
  | .null => some none
  | .string name => some (some name)
  | _ => none

/-- A JSON value, absent for a null. -/
def presentOf : Json → Option Json
  | .null => none
  | j => some j

def Slot.present : Slot → Option Slot
  | .literal .null => none
  | s => some s

mutual

/-- The slot of a JSON value: a document for an object, and a literal for any other. -/
def Slot.ofJson? : Json → Option Slot
  | .object members => (ofMembers? members).map .document
  | .null => some (.literal .null)
  | .bool b => some (.literal (.bool b))
  | .number n => some (.literal (.number n))
  | .string s => some (.literal (.string s))
  | .array items => some (.literal (.array items))

/-- The slots of some JSON values. -/
def slots? : List Json → Option (List Slot)
  | [] => some []
  | j :: rest => do return (← Slot.ofJson? j) :: (← slots? rest)

def ofMembers? : List (String × Json) → Option Document
  | [] => some {}
  | (key, value) :: rest => do
    let d ← ofMembers? rest
    match key with
    | "selectionComparison" => do return { d with operator := ← operatorOf? value }
    | "fieldName" => do return { d with fieldName := ← fieldNameOf? value }
    | "rightHandSide" => do return { d with rightHandSide := (← Slot.ofJson? value).present }
    | "constantValue" => return { d with constantValue := presentOf value }
    | "innerCriteria" => do return { d with innerCriteria := (← Slot.ofJson? value).present }
    | "aggregateList" =>
      match value with
      | .array items => do return { d with aggregateList := ← slots? items }
      | _ => none
    | "fieldValue" => return { d with fieldValue := presentOf value }
    | _ => return d

end

/-- The document of a JSON value. -/
def ofJson? : Json → Option Document
  | .object members => ofMembers? members
  | .array items =>
    if items.length ≤ attributeNames.length then ofMembers? (attributeNames.zip items) else none
  | _ => none

/-- The attributes among the members of an object in a text. -/
def attributesOf? : List (List Json.Part × Json.Source) → Option (List (String × Json.Source))
  | [] => some []
  | (key, source) :: rest => do
    let key := String.ofList (← Json.Part.string? key)
    let attributes ← attributesOf? rest
    if !attributeNames.contains key then return attributes
    guard (attributes.lookup key).isNone
    return (key, source) :: attributes

/-- The values of the attributes in a text. An operator written as an object has one member. -/
def attributeValues? : List (String × Json.Source) → Option (List (String × Json))
  | [] => some []
  | (key, source) :: rest => do
    match key, source with
    | "selectionComparison", .object (_ :: _ :: _) => none
    | _, _ => return (key, ← source.value? (Json.Source.maxDepth - 1)) :: (← attributeValues? rest)

def ofText? (s : String) : Option Document := do
  match ← Json.Source.read? s.toList with
  | .object members => ofMembers? (← attributeValues? (← attributesOf? members))
  | .array items =>
    guard (items.length ≤ attributeNames.length)
    ofMembers? (← attributeValues? (attributeNames.zip items))
  | _ => none

end Selection.Document
