import Selection.Criterion.Operator
import Selection.Schema.Basic
import Selection.Text.Numeral

/-! # Compile errors

The reasons why a criterion does not compile for a record type.
-/

namespace Selection

inductive CompileError where
  | unknownField (record field : String)
  | missingFieldName (operator : Operator)
  | fieldKindMismatch (field : String) (expected actual : FieldKind)
  | unsupportedOperator (operator : Operator) (context : String)
  | typeCoercionFailure (value : String) (valueType : DataType) (field : String)
      (fieldType : DataType)
  | missingInnerCriteria (field : String)
  | invalidNegation (parameters : Nat)
  | nonConstantOperand (operator : Operator)
  | undefinedAddOperation (left right : DataType)
  | addOverflow (left right : String)
  | contextLookupFailure (path segment : String)
  | invalidSigil (literal suffix : String)
  | invalidPattern (pattern reason : String)
deriving DecidableEq

def CompileError.message : CompileError → String
  | unknownField record field => s!"Field \"{field}\" does not exist on {record}"
  | missingFieldName op => s!"{op.name} criteria requires a field name"
  | fieldKindMismatch field expected actual =>
    s!"Field \"{field}\" is a {actual.text}, expected a {expected.text}"
  | unsupportedOperator op context => s!"Operator {op.name} is not supported {context}"
  | typeCoercionFailure value valueType field fieldType =>
    s!"Cannot convert value \"{value}\" of type \"{valueType.name}\" to field \"{field}\"" ++
      s!" of type \"{fieldType.name}\""
  | missingInnerCriteria field => s!"Any criteria on \"{field}\" has no inner criteria"
  | invalidNegation parameters =>
    s!"Cannot \"not\" a compound expression with {Numeral.text parameters} parameters"
  | nonConstantOperand op => s!"Expected a constant operand, found {op.name}"
  | undefinedAddOperation left right =>
    s!"No addition is defined between {left.name} and {right.name}"
  | addOverflow left right => s!"Addition of {left} and {right} overflows"
  | contextLookupFailure path segment =>
    s!"Context path \"{path}\" cannot be resolved at \"{segment}\""
  | invalidSigil literal suffix => s!"Unknown suffix \"{suffix}\" in \"{literal}\""
  | invalidPattern pattern reason => s!"Invalid LIKE pattern \"{pattern}\": {reason}"

end Selection
