import Selection.Criterion.Basic
import Selection.Json.Basic
import Selection.Text.Quoted

/-! # Criteria documents

A document is the written form of a criterion. Its slots for criteria hold a document or a bare
literal that stands for a constant. Documents of the first version give the right-hand side as a
literal in `fieldValue`; upgrading moves it to the right-hand slot, as a constant.
-/

namespace Selection

/-- The attributes of a document whose slots hold `slot`. -/
structure Document.Attributes (slot : Type) where
  operator : Operator := .equal
  fieldName : Option String := none
  rightHandSide : Option slot := none
  constantValue : Option Json := none
  innerCriteria : Option slot := none
  aggregateList : List slot := []
  /-- The right-hand literal of the first version. -/
  fieldValue : Option Json := none

inductive Document.Slot where
  | literal (j : Json)
  | document (d : Document.Attributes Document.Slot)

/-- The written form of a criterion. -/
abbrev Document := Document.Attributes Document.Slot

namespace Document

inductive Error where
  | malformed
  | notLiteral (j : Json)
  | twoRightHandSides (field : Option String)
  | misplaced (operator : Operator) (name : String)

def Error.message : Error → String
  | malformed => "Malformed criteria document"
  | notLiteral j => "Value " ++ j.text ++ " is not a literal"
  | twoRightHandSides field =>
    let field :=
      match field with
      | some field => "Some(" ++ Text.quoted field ++ ")"
      | none => "None"
    "Criteria on field " ++ field ++
      " carries both \"rightHandSide\" and legacy \"fieldValue\""
  | misplaced op name =>
    "\"" ++ name ++ "\" is not valid on a " ++ op.name ++ " criteria"

/-! ## Versions -/

/-- The versions of the written form. -/
inductive Version where
  | first
  | second
deriving DecidableEq

/-- The version of a document itself, whatever its slots hold. -/
def version (d : Document) : Version :=
  if d.fieldValue.isSome then .first else .second

/-- The document in the second version, its slots left as they are. -/
def upgrade (d : Document) : Except Error Document :=
  match d.fieldValue, d.rightHandSide with
  | none, _ => .ok d
  | some _, some _ => .error (.twoRightHandSides d.fieldName)
  | some v, none =>
    let constant : Document.Slot := .document { operator := .constant, constantValue := some v }
    .ok { d with rightHandSide := some constant, fieldValue := none }

end Document

end Selection
