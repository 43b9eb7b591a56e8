import Selection.Document.Reading
import Selection.Document.Writing

/-! # Documents and criteria

A document is a criterion when every attribute stands where its operator uses it, nowhere a
right-hand side is given in both versions, and every literal is a scalar. Every criterion has a
document of the second version.
-/

namespace Selection.Document

def literalValue (j : Json) : Except Error Value :=
  match Value.ofJson? j with
  | some v => .ok v
  | none => .error (.notLiteral j)

/-- Checks that lists stand only on aggregates and sums, inner criteria on quantifiers and values on
constants. -/
def checkShape (d : Document) : Except Error Unit :=
  let op := d.operator
  if !d.aggregateList.isEmpty && !(op.isAggregate || op.isSum) then
    .error (.misplaced op "aggregateList")
  else if d.innerCriteria.isSome && !op.isQuantifier then .error (.misplaced op "innerCriteria")
  else if d.constantValue.isSome && !op.isConstant then .error (.misplaced op "constantValue")
  else .ok ()

/-- Checks that a right-hand side is not given in both versions. -/
def checkVersion (d : Document) : Except Error Unit :=
  if d.fieldValue.isSome && d.rightHandSide.isSome then .error (.twoRightHandSides d.fieldName)
  else .ok ()

/-- The value of the attribute `constantValue`; a constant without one has the value null. -/
def constantOf (op : Operator) : Option Json → Except Error (Option Value)
  | some j => do return some (← literalValue j)
  | none => return if op.isConstant then some .null else none

mutual

def Slot.toCriterion : Slot → Except Error Criterion
  | .literal j => do return .constant (← literalValue j)
  | .document d => toCriterion d

def presentCriterion : Option Slot → Except Error (Option Criterion)
  | none => return none
  | some s => do return some (← s.toCriterion)

/-- The criteria of some slots; the first error counts. -/
def criteria : List Slot → Except Error (List Criterion)
  | [] => return []
  | s :: rest => do return (← s.toCriterion) :: (← criteria rest)

def toCriterion : Attributes Slot → Except Error Criterion
  | ⟨op, field, right, constant, inner, parts, fieldValue⟩ => do
    checkVersion ⟨op, field, right, constant, inner, parts, fieldValue⟩
    checkShape ⟨op, field, right, constant, inner, parts, fieldValue⟩
    let constant ← constantOf op constant
    let right ←
      match fieldValue with
      | some j => do pure (some (Criterion.constant (← literalValue j)))
      | none => presentCriterion right
    return .node op field right constant (← presentCriterion inner) (← criteria parts)

end

mutual

def ofCriterion : Criterion → Attributes Slot
  | .node op field right value inner parts =>
    { operator := op
      fieldName := field
      rightHandSide := presentSlot right
      constantValue := value.map Value.toJson
      innerCriteria := presentSlot inner
      aggregateList := slots parts }

def presentSlot : Option Criterion → Option Slot
  | none => none
  | some c => some (.document (ofCriterion c))

def slots : List Criterion → List Slot
  | [] => []
  | c :: rest => .document (ofCriterion c) :: slots rest

end

end Document

namespace Criterion

/-- Reads the criterion of a document text. -/
def ofText (s : String) : Except Document.Error Criterion :=
  match Document.ofText? s with
  | some d => Document.toCriterion d
  | none => .error .malformed

/-- Reads the criterion of a document given as a JSON value. -/
def ofJson (j : Json) : Except Document.Error Criterion :=
  match Document.ofJson? j with
  | some d => Document.toCriterion d
  | none => .error .malformed

/-- The document text of a criterion. -/
def toText (c : Criterion) : String :=
  Document.text (Document.ofCriterion c)

/-- The document of a criterion as a JSON value. -/
def toJson (c : Criterion) : Json :=
  Document.toJson (Document.ofCriterion c)

end Criterion

end Selection
