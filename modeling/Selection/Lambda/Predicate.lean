import Selection.Lambda.Basic
import Selection.Record
import Selection.Text.Quoted

/-! # Predicates

A predicate is a lambda together with a test of records in memory, which is missing when the query
engine alone can decide. A predicate whose lambda is a constant always has its test.
-/

namespace Selection

/-- A compiled criterion. -/
structure Predicate where
  lambda : Lambda
  test : Option (Record → Bool)

inductive EvalError where
  | engineDelegated (lambda : String)
deriving DecidableEq

def EvalError.message : EvalError → String
  | engineDelegated lambda =>
    "Predicate \x60" ++ lambda ++ "\x60 can only be evaluated by the query engine"

namespace Predicate

/-- The predicate of one record type with a fixed verdict. -/
def constant (record : String) (verdict : Bool) : Predicate :=
  ⟨.ofRecord record (.constant verdict), some fun _ => verdict⟩

/-- The predicate of a lambda; when it is a constant, that decides instead of the test. -/
def folded (lambda : Lambda) (test : Option (Record → Bool)) : Predicate :=
  match lambda.body.constant? with
  | some verdict => ⟨lambda, some fun _ => verdict⟩
  | none => ⟨lambda, test⟩

def and (p q : Predicate) : Predicate :=
  folded (p.lambda.and q.lambda) do
    let left ← p.test
    let right ← q.test
    return fun r => left r && right r

def or (p q : Predicate) : Predicate :=
  folded (p.lambda.or q.lambda) do
    let left ← p.test
    let right ← q.test
    return fun r => left r || right r

def negate (p : Predicate) : Except CompileError Predicate := do
  return folded (← p.lambda.negate) (p.test.map fun test r => !test r)

/-- The verdict on a record. -/
def evaluate (p : Predicate) (r : Record) : Except EvalError Bool :=
  match p.test with
  | some test => .ok (test r)
  | none => .error (.engineDelegated p.lambda.text)

/-- Whether the predicate is decided in memory, and by a query engine just so. -/
def isPortable (p : Predicate) : Bool :=
  p.test.isSome && p.lambda.isPortable

/-- The records that the predicate accepts, in their order. -/
def filter (p : Predicate) : List Record → Except EvalError (List Record)
  | [] => .ok []
  | r :: rest => do
    let verdict ← p.evaluate r
    let accepted ← p.filter rest
    return if verdict then r :: accepted else accepted

def text (p : Predicate) : String :=
  "Predicate \x7b lambda: " ++ Text.quoted p.lambda.text ++ ", in_memory: " ++
    (if p.test.isSome then "true" else "false") ++ " \x7d"

end Predicate

end Selection
