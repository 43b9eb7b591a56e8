import Selection.Compile.Error
import Selection.Lambda.Test

/-! # Lambdas

A lambda is the form of a compiled criterion that a query engine can look into: its parameters,
which name the record types, and a formula over the fields. Lambdas are joined and negated with
constants folded away.
-/

namespace Selection

/-- A field by its path, and its declared type. -/
structure FieldRef where
  path : String
  type : DataType
deriving DecidableEq

/-- A formula over the fields of a record. -/
inductive Formula where
  | constant (verdict : Bool)
  /-- A lexical comparison orders texts. -/
  | compare (field : FieldRef) (op : Comparison) (value : Value) (lexical : Bool)
  | text (field : FieldRef) (test : TextTest) (part : Value)
  | pattern (field : FieldRef) (value : Value)
  /-- Some element of the collection satisfies a formula, given with its parameters. -/
  | any (path : String) (element : String) (link : Option Link) (parameters : List String)
      (predicate : Formula)
  | and (items : List Formula)
  | or (items : List Formula)
  | not (item : Formula)

/-- A formula under the names of its parameters. -/
structure Lambda where
  parameters : List String
  body : Formula

namespace Formula

mutual

/-- Whether a query engine can decide the formula as it is decided in memory: it has no pattern
test, and every collection in it is linked. -/
def isPortable : Formula → Bool
  | pattern .. => false
  | any _ _ link _ predicate => link.isSome && predicate.isPortable
  | and items | or items => allPortable items
  | not item => item.isPortable
  | constant _ | compare .. | text .. => true

/-- Whether all of some formulas are portable. -/
def allPortable : List Formula → Bool
  | [] => true
  | item :: rest => item.isPortable && allPortable rest

end

/-- The names of parameters between bars. -/
def parameterText (parameters : List String) : String :=
  "|" ++ ", ".intercalate parameters ++ "| "

mutual

def toText : Formula → String
  | constant verdict => if verdict then "true" else "false"
  | compare field op value lexical =>
    if lexical then "compare(" ++ field.path ++ ", " ++ value.literal ++ ") " ++ op.symbol ++ " 0"
    else field.path ++ " " ++ op.symbol ++ " " ++ value.literal
  | text field test part => field.path ++ "." ++ test.name ++ "(" ++ part.literal ++ ")"
  | pattern field value => "PATINDEX(" ++ value.literal ++ ", " ++ field.path ++ ") > 0"
  | any path _ _ parameters predicate =>
    path ++ ".any(" ++ parameterText parameters ++ predicate.toText ++ ")"
  | and items => "(" ++ " && ".intercalate (toTexts items) ++ ")"
  | or items => "(" ++ " || ".intercalate (toTexts items) ++ ")"
  | not item => "!(" ++ item.toText ++ ")"

def toTexts : List Formula → List String
  | [] => []
  | item :: rest => item.toText :: toTexts rest

end

/-- The conjunction of two formulas. True is dropped, false absorbs, and a conjunction on the left
takes the other formula as its last item. -/
def conj : Formula → Formula → Formula
  | constant true, right => right
  | left, constant true => left
  | constant false, _ | _, constant false => constant false
  | and items, right => and (items ++ [right])
  | left, right => and [left, right]

/-- The disjunction of two formulas, dual to their conjunction. -/
def disj : Formula → Formula → Formula
  | constant false, right => right
  | left, constant false => left
  | constant true, _ | _, constant true => constant true
  | or items, right => or (items ++ [right])
  | left, right => or [left, right]

/-- The negation of a formula; a constant is negated at once. -/
def neg : Formula → Formula
  | constant verdict => constant !verdict
  | item => not item

/-- The verdict of a constant. -/
def constant? : Formula → Option Bool
  | constant verdict => some verdict
  | _ => none

end Formula

namespace Lambda

/-- The lambda of one record type. -/
def ofRecord (record : String) (body : Formula) : Lambda :=
  ⟨[record], body⟩

/-- The number of parameters. -/
def arity (l : Lambda) : Nat :=
  l.parameters.length

/-- Whether a query engine can decide the lambda as it is decided in memory. -/
def isPortable (l : Lambda) : Bool :=
  l.body.isPortable

def text (l : Lambda) : String :=
  Formula.parameterText l.parameters ++ l.body.toText

/-- The conjunction, over the parameters of the first lambda. -/
def and (l r : Lambda) : Lambda :=
  ⟨l.parameters, l.body.conj r.body⟩

/-- The disjunction, over the parameters of the first lambda. -/
def or (l r : Lambda) : Lambda :=
  ⟨l.parameters, l.body.disj r.body⟩

def negate (l : Lambda) : Except CompileError Lambda :=
  if l.arity = 1 then .ok ⟨l.parameters, l.body.neg⟩ else .error (.invalidNegation l.arity)

end Lambda

end Selection
