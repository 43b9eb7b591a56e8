import Selection.Criterion.Operator
import Selection.Value.Text

/-! # Criteria

A criterion is a tree of operators. Which attributes count depends on the operator: a relational,
text or pattern test has a field and a right-hand side, a quantifier has a field and an inner
criterion, an aggregate or a sum has parts, a constant has a value. The others are carried along.
-/

namespace Selection

inductive Criterion where
  | node (operator : Operator) (field : Option String) (rightHandSide : Option Criterion)
      (value : Option Value) (inner : Option Criterion) (parts : List Criterion)

namespace Criterion

def operator : Criterion → Operator
  | node op .. => op

/-- The name of the field, possibly a dotted path. -/
def field : Criterion → Option String
  | node _ field .. => field

/-- What the field is compared with. -/
def rightHandSide : Criterion → Option Criterion
  | node _ _ rhs .. => rhs

def value : Criterion → Option Value
  | node _ _ _ value .. => value

/-- The criterion that an element of a collection has to satisfy. -/
def inner : Criterion → Option Criterion
  | node _ _ _ _ inner _ => inner

def parts : Criterion → List Criterion
  | node _ _ _ _ _ parts => parts

/-! ## Building criteria -/

/-- A criterion with nothing but its operator. -/
def bare (op : Operator) : Criterion :=
  node op none none none none []

/-- A field tested against a right-hand side. -/
def test (op : Operator) (field : String) (rhs : Criterion) : Criterion :=
  node op (some field) (some rhs) none none []

/-- Criteria or operands under an operator. -/
def group (op : Operator) (parts : List Criterion) : Criterion :=
  node op none none none none parts

def constant (v : Value) : Criterion :=
  node .constant none none (some v) none []

/-- Some element of a collection satisfies a criterion. -/
def any (field : String) (inner : Criterion) : Criterion :=
  node .any (some field) none none (some inner) []

def not (c : Criterion) : Criterion :=
  group .nand [c]

/-- The field equals one of some values. -/
def containedIn (field : String) (values : List Criterion) : Criterion :=
  group .or (values.map (test .equal field))

/-- The field lies between two values or equals one of them. -/
def between (field : String) (low high : Criterion) : Criterion :=
  group .and [test .greaterThanOrEqual field low, test .lessThanOrEqual field high]

/-! ## Text and equality -/

mutual

/-- The text of a criterion; `?` stands for a field that is missing. -/
def text : Criterion → String
  | node op field rhs value inner parts =>
    let field := field.getD "?"
    match op with
    | .constant => (value.map Value.literal).getD "NULL"
    | .isTrue | .isFalse => op.name
    | .and | .or | .nand | .nor | .add => op.name ++ "[" ++ ", ".intercalate (texts parts) ++ "]"
    | .any =>
      match inner with
      | some inner => op.name ++ "(" ++ field ++ ", " ++ inner.text ++ ")"
      | none => op.name ++ "(" ++ field ++ ")"
    | _ =>
      match rhs with
      | some rhs => op.name ++ "(" ++ field ++ ", " ++ rhs.text ++ ")"
      | none => op.name ++ "(" ++ field ++ ", NULL)"

def texts : List Criterion → List String
  | [] => []
  | c :: rest => c.text :: texts rest

end

mutual

/-- Whether two criteria have the same operators and attributes, values compared by `Value.same`. -/
def same : Criterion → Criterion → Bool
  | node op field rhs value inner parts, node op' field' rhs' value' inner' parts' =>
    op == op' && field == field' && sameOption rhs rhs' && sameOption inner inner' &&
      sameList parts parts' &&
      match value, value' with
      | none, none => true
      | some v, some v' => v.same v'
      | _, _ => false

def sameOption : Option Criterion → Option Criterion → Bool
  | none, none => true
  | some c, some c' => c.same c'
  | _, _ => false

def sameList : List Criterion → List Criterion → Bool
  | [], [] => true
  | c :: rest, c' :: rest' => c.same c' && sameList rest rest'
  | _, _ => false

end

end Criterion

end Selection
