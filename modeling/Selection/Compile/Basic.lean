import Selection.Compile.Operand
import Selection.Lambda.Predicate
import Selection.Pattern.Translation
import Selection.Schema.Resolve

/-! # Compiling criteria

A criterion is compiled for a record type of a catalog into a predicate: a lambda and a test in
memory that decide alike. Aggregates join the predicates of their parts, starting from the verdict
that changes nothing; a quantifier compiles its inner criterion for the element type of a
collection; the other criteria test one field. A test in memory is false when a nested record on the
path of its field is absent.
-/

namespace Selection

def Operator.comparison? : Operator → Option Comparison
  | equal => some .eq
  | notEqual => some .ne
  | lessThan => some .lt
  | lessThanOrEqual => some .le
  | greaterThan => some .gt
  | greaterThanOrEqual => some .ge
  | _ => none

namespace Compile

variable {ι : Type}

def fieldName (op : Operator) (field : Option String) : Except CompileError String :=
  match field with
  | some name => .ok name
  | none => .error (.missingFieldName op)

def scalarField (catalog : Catalog ι) (record : ι) (c : Criterion) :
    Except CompileError FieldRef := do
  let name ← fieldName c.operator c.field
  match ← catalog.resolve record name with
  | .scalar type => return ⟨name, type⟩
  | .collection .. => throw (.fieldKindMismatch name .scalar .collection)

/-- The scalar field of a criterion, which must hold text. -/
def textField (catalog : Catalog ι) (record : ι) (c : Criterion) :
    Except CompileError FieldRef := do
  let field ← scalarField catalog record c
  if field.type.isTextual then return field
  throw (.unsupportedOperator c.operator
    ("on field \"" ++ field.path ++ "\" of type " ++ field.type.name))

def comparisonTest (path : String) (op : Comparison) (value : Value) (r : Record) : Bool :=
  match r.value? path with
  | some actual => op.evaluate actual value
  | none => false

/-- The test of a text in memory: `holds` decides on the text of a string. -/
def textualTest (path : String) (holds : String → Bool) (r : Record) : Bool :=
  match r.value? path with
  | some (.string actual) => holds actual
  | _ => false

def comparison (catalog : Catalog ι) (env : Environment) (record : ι) (c : Criterion) :
    Except CompileError Predicate :=
  match c.operator.comparison? with
  | none => .error (.unsupportedOperator c.operator "as a predicate")
  | some op => do
    let field ← scalarField catalog record c
    let value ← Operand.comparand env c field.path field.type
    let lexical := field.type.isTextual && op.isOrdering
    return ⟨.ofRecord (catalog record).name (.compare field op value lexical),
      some (comparisonTest field.path op value)⟩

def textTest (catalog : Catalog ι) (env : Environment) (record : ι) (test : TextTest)
    (c : Criterion) : Except CompileError Predicate := do
  let field ← textField catalog record c
  let part ← Operand.comparand env c field.path field.type
  let holds : String → Bool :=
    match part with
    | .string part => (test.holds · part)
    | _ => fun _ => false
  return ⟨.ofRecord (catalog record).name (.text field test part),
    some (textualTest field.path holds)⟩

/-- The verdict of a pattern on texts in memory. -/
def patternHolds (ignoreCase : Bool) (pattern : Value) : Except CompileError (String → Bool) :=
  match pattern with
  | .string s =>
    match Pattern.read s.toList with
    | .ok p => .ok fun text => p.accepts ignoreCase text.toList
    | .error fault => .error (.invalidPattern s fault.message)
  | _ => .ok fun _ => false

/-- The test of a pattern in memory, if the mode has one. -/
def patternTest (mode : LikeMode) (path : String) (pattern : Value) :
    Except CompileError (Option (Record → Bool)) :=
  match mode with
  | .engineOnly => .ok none
  | .ignoringCase => do return some (textualTest path (← patternHolds true pattern))
  | .caseSensitive => do return some (textualTest path (← patternHolds false pattern))

def patternMatch (catalog : Catalog ι) (env : Environment) (record : ι) (c : Criterion) :
    Except CompileError Predicate := do
  let field ← textField catalog record c
  let pattern ← Operand.comparand env c field.path field.type
  let test ← patternTest env.settings.like field.path pattern
  return ⟨.ofRecord (catalog record).name (.pattern field pattern), test⟩

/-- The collection of a quantifier: its path, the record type of its elements and its link. -/
def collectionField (catalog : Catalog ι) (record : ι) (name : String) :
    Except CompileError (ι × Option Link) := do
  match ← catalog.resolve record name with
  | .collection element link => return (element, link)
  | .scalar _ => throw (.fieldKindMismatch name .collection .scalar)

/-- The predicate that some element of a collection satisfies the predicate of its elements. -/
def quantifier (record path element : String) (link : Option Link) (inner : Predicate) :
    Predicate :=
  ⟨.ofRecord record (.any path element link inner.lambda.parameters inner.lambda.body),
    inner.test.map fun test r =>
      match r.elements? path with
      | some elements => elements.any test
      | none => false⟩

mutual

def criterion (catalog : Catalog ι) (env : Environment) (record : ι) :
    Criterion → Except CompileError Predicate
  | .node op field right value inner parts =>
    let c := Criterion.node op field right value inner parts
    match op with
    | .isTrue => .ok (.constant (catalog record).name true)
    | .isFalse => .ok (.constant (catalog record).name false)
    | .and => conjunction catalog env record (.constant (catalog record).name true) parts
    | .or => disjunction catalog env record (.constant (catalog record).name false) parts
    | .nand => do
      (← conjunction catalog env record (.constant (catalog record).name true) parts).negate
    | .nor => do
      (← disjunction catalog env record (.constant (catalog record).name false) parts).negate
    | .contains => textTest catalog env record .contains c
    | .startsWith => textTest catalog env record .startsWith c
    | .endsWith => textTest catalog env record .endsWith c
    | .like => patternMatch catalog env record c
    | .any => do
      let name ← fieldName op field
      match inner with
      | none => throw (.missingInnerCriteria name)
      | some inner =>
        let (element, link) ← collectionField catalog record name
        let p ← criterion catalog env element inner
        return quantifier (catalog record).name name (catalog element).name link p
    | _ => comparison catalog env record c

/-- Joins the predicates of some criteria to one that all of them are to hold with. -/
def conjunction (catalog : Catalog ι) (env : Environment) (record : ι) (joined : Predicate) :
    List Criterion → Except CompileError Predicate
  | [] => .ok joined
  | c :: rest => do
    let p ← criterion catalog env record c
    conjunction catalog env record (joined.and p) rest

/-- Joins the predicates of some criteria to one that may hold instead of them. -/
def disjunction (catalog : Catalog ι) (env : Environment) (record : ι) (joined : Predicate) :
    List Criterion → Except CompileError Predicate
  | [] => .ok joined
  | c :: rest => do
    let p ← criterion catalog env record c
    disjunction catalog env record (joined.or p) rest

end

end Compile

end Selection
