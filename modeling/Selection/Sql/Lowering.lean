import Selection.Lambda.Basic
import Selection.Sql.Filter

/-! # Lowering lambdas to SQL

A lambda of one parameter becomes a filter. Negation is pushed down to the leaves, where a negated
test also accepts a null column, so that a row with nulls is accepted exactly when the record is. A
quantifier becomes an `EXISTS` sub-query joined to the row around it by the keys of its collection.
Constants are folded; a filter that is constantly true is left out.
-/

namespace Selection.Sql

inductive LowerError where
  | multiParameter (parameters : Nat)
  | unlinkedCollection (field : String)
deriving DecidableEq

def LowerError.message : LowerError → String
  | multiParameter parameters =>
    "Cannot lower a predicate with " ++ Numeral.text parameters ++ " parameters"
  | unlinkedCollection field =>
    "Collection \"" ++ field ++ "\" has no key linking it to its owner"

/-- A filter, or the verdict that a formula has on every row. -/
inductive Lowered where
  | constant (verdict : Bool)
  | filter (f : Filter)

/-! ## Leaves -/

def comparator : Comparison → String
  | .eq => "="
  | .ne => "<>"
  | .lt => "<"
  | .le => "<="
  | .gt => ">"
  | .ge => ">="

/-- The comparison that holds of two ordered values when another does not. -/
def complement : Comparison → Comparison
  | .eq => .ne
  | .ne => .eq
  | .lt => .ge
  | .le => .gt
  | .gt => .le
  | .ge => .lt

/-- A condition on a field: its column is the last segment of the path and its table the path before
it. -/
def condition (field : FieldRef) (comparator value : String) : Condition :=
  match Text.cutAtLast '.' field.path.toList with
  | some (table, column) => ⟨String.ofList table, String.ofList column, comparator, value⟩
  | none => ⟨"", field.path, comparator, value⟩

/-- The literal of a value in SQL, where a boolean is a bit. -/
def literal : Value → String
  | .boolean b => if b then "1" else "0"
  | v => v.literal

/-- The condition that a field compares with a value. -/
def compareLeaf (field : FieldRef) (op : Comparison) (value : Value) : Filter :=
  .leaf (condition field (comparator op) (literal value))

/-- The condition that a field is null, or is not. -/
def nullTest (field : FieldRef) (isNull : Bool) : Filter :=
  .leaf (condition field (if isNull then "IS" else "IS NOT") "NULL")

/-- The characters of a text with the wildcards of `LIKE` in brackets. -/
def escapeWildcards (cs : List Char) : List Char :=
  cs.flatMap fun c => if c = '[' ∨ c = '%' ∨ c = '_' then ['[', c, ']'] else [c]

/-- The `LIKE` pattern of a text test. -/
def likePattern (test : TextTest) (part : String) : String :=
  let body := escapeWildcards part.toList
  String.ofList <|
    match test with
    | .contains => '%' :: body ++ ['%']
    | .startsWith => body ++ ['%']
    | .endsWith => '%' :: body

/-- A comparison, possibly negated. An inequality is the negation of an equality, and an ordering
against a null never holds. -/
def lowerComparison (field : FieldRef) (op : Comparison) (value : Value) (negated : Bool) :
    Lowered :=
  if value.isNull then
    match op with
    | .eq => .filter (nullTest field (true != negated))
    | .ne => .filter (nullTest field (false != negated))
    | _ => .constant negated
  else
    let (op, negated) := if op = .ne then (Comparison.eq, !negated) else (op, negated)
    .filter <|
      if negated then .disj [compareLeaf field (complement op) value, nullTest field true]
      else compareLeaf field op value

/-- A test that no null column satisfies, possibly negated. -/
def lowerMatch (field : FieldRef) (test : Filter) (negated : Bool) : Lowered :=
  .filter (if negated then .disj [test.neg, nullTest field true] else test)

/-- The condition that the rows of a sub-query belong to the row of the scope around it. -/
def correlation (table : String) (link : Link) (scope : String) : Filter :=
  .leaf ⟨table, link.foreignKey, "=", scope ++ "." ++ link.parentKey⟩

/-! ## Formulas -/

/-- Checks that there is one parameter, and gives it. -/
def onlyParameter : List String → Except LowerError String
  | [parameter] => .ok parameter
  | parameters => .error (.multiParameter parameters.length)

mutual

/-- Lowers a formula, or its negation, about a row that the scope names. -/
def lower (negated : Bool) (scope : String) : Formula → Except LowerError Lowered
  | .constant verdict => .ok (.constant (verdict != negated))
  | .compare field op value _ => .ok (lowerComparison field op value negated)
  | .text field test part =>
    match part with
    | .string part =>
      let pattern := Value.quote (likePattern test part)
      .ok (lowerMatch field (.leaf (condition field "LIKE" pattern)) negated)
    | _ => .ok (.constant negated)
  | .pattern field value =>
    match value with
    | .string pattern =>
      let column := (condition field "" "").columnRef
      .ok (lowerMatch field (.patIndex column (Value.quote pattern)) negated)
    | _ => .ok (.constant negated)
  | .any path _ link parameters predicate =>
    match link with
    | none => .error (.unlinkedCollection path)
    | some link => do
      discard <| onlyParameter parameters
      let sub (filter : Filter) : Lowered :=
        let clause := Filter.exists path (some filter)
        .filter (if negated then clause.neg else clause)
      match ← lower false path predicate with
      | .constant false => return .constant negated
      | .constant true => return sub (correlation path link scope)
      | .filter inner => return sub (.conj [correlation path link scope, inner])
  | .and items => lowerChain (!negated) negated scope [] items
  | .or items => lowerChain negated negated scope [] items
  | .not item => lower (!negated) scope item

/-- Lowers the items of a chain that is a conjunction or a disjunction, after the filters of those
before. The neutral constant is dropped, and the other one ends the chain. -/
def lowerChain (conjunctive negated : Bool) (scope : String) (done : List Filter) :
    List Formula → Except LowerError Lowered
  | [] =>
    .ok <|
      if done.isEmpty then .constant conjunctive
      else .filter (if conjunctive then .conj done else .disj done)
  | item :: rest => do
    match ← lower negated scope item with
    | .constant verdict =>
      if verdict = conjunctive then lowerChain conjunctive negated scope done rest
      else return .constant verdict
    | .filter f => lowerChain conjunctive negated scope (done ++ [f]) rest

end

/-- The filter of a whole query: none when every row is accepted. -/
def Lowered.toFilter? : Lowered → Option Filter
  | .constant true => none
  | .constant false => some .never
  | .filter f => some f

def lowerLambda (l : Lambda) : Except LowerError (Option Filter) := do
  let scope ← onlyParameter l.parameters
  return (← lower false scope l.body).toFilter?

/-- The clause of a filter with a blank before it, empty when every row is accepted. -/
def whereClause (filter : Option Filter) : String :=
  Filter.whereText filter

/-- The tables of the sub-queries of a filter, in ascending order. -/
def tables (filter : Option Filter) : List String :=
  (filter.map Filter.tables).getD []

end Selection.Sql
