import Selection.Document.Basic

/-! # Writing documents

A document is written with its attributes in their order, absent ones left out. The right-hand
literal of the first version is not written. As a JSON value the same members stand in the order of
their keys.
-/

namespace Selection.Document

/-- The member of an attribute that is present. -/
def member (key : String) : Option Json → List (String × Json)
  | some j => [(key, j)]
  | none => []

mutual

/-- The JSON value of a slot, objects made of their members by `make`. -/
def Slot.write (make : List (String × Json) → Json) : Slot → Json
  | .literal j => j
  | .document d => write make d

def writePresent (make : List (String × Json) → Json) : Option Slot → Option Json
  | none => none
  | some s => some (s.write make)

def writeAll (make : List (String × Json) → Json) : List Slot → List Json
  | [] => []
  | s :: rest => s.write make :: writeAll make rest

/-- The JSON value of a document, objects made of their members by `make`. -/
def write (make : List (String × Json) → Json) : Attributes Slot → Json
  | ⟨operator, fieldName, rightHandSide, constantValue, innerCriteria, aggregateList, _⟩ =>
    let parts := writeAll make aggregateList
    make <|
      ("selectionComparison", .string operator.name) ::
        member "fieldName" (fieldName.map .string) ++
        member "rightHandSide" (writePresent make rightHandSide) ++
        member "constantValue" constantValue ++
        member "innerCriteria" (writePresent make innerCriteria) ++
        member "aggregateList" (if parts.isEmpty then none else some (.array parts))

end

def text (d : Document) : String :=
  (write .object d).text

def toJson (d : Document) : Json :=
  write .ofMembers d

end Selection.Document
