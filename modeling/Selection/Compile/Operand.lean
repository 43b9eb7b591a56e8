import Selection.Compile.Sigil
import Selection.Compile.Sum
import Selection.Criterion.Basic

/-! # Operands

What a field is compared with: the value of a constant or of a sum of constants, converted to the
type of the field. Sigils are resolved in every constant before anything else is done with it.
-/

namespace Selection.Operand

/-- The value of a constant, its sigil resolved. -/
def constant (env : Environment) (c : Criterion) : Except CompileError Value :=
  if c.operator.isConstant then Sigil.resolve env (c.value.getD .null)
  else .error (.nonConstantOperand c.operator)

/-- Adds operands to a sum, from left to right. -/
def total (env : Environment) (sum : Option Value) : List Criterion → Except CompileError Value
  | [] => .ok (sum.getD .null)
  | c :: rest => do
    let v := Sum.operand sum (← constant env c)
    match sum with
    | none => total env (some v) rest
    | some t => do total env (some (← Sum.add t v)) rest

/-- The value of the right-hand side of a test: null when there is none, the sum of a sum, and the
value of a constant. -/
def rightHandSide (env : Environment) : Option Criterion → Except CompileError Value
  | none => .ok .null
  | some c => if c.operator.isSum then total env none c.parts else constant env c

/-- Converts a value to the type of a field. A null and a value of that type stay as they are. -/
def coerce (field : String) (type : DataType) (v : Value) : Except CompileError Value :=
  if v.isNull || v.dataType == type then .ok v
  else
    match v.convert? type with
    | some w => .ok w
    | none => .error (.typeCoercionFailure v.plainText v.dataType field type)

/-- The value that a field is compared with: the right-hand side converted to the type of the
field. -/
def comparand (env : Environment) (c : Criterion) (field : String) (type : DataType) :
    Except CompileError Value := do
  coerce field type (← rightHandSide env c.rightHandSide)

end Selection.Operand
