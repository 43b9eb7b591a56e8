import Selection.Text.Blank
import Selection.Value.Basic

/-! # Records

A record holds values, nested records and collections of records under their field names. A value
that is not held is null, a collection that is not held is empty, and a nested record that is not
held is absent: nothing can be read through it.
-/

namespace Selection

/-- The data of a record. -/
inductive Record where
  | mk (values : List (String × Value)) (nested : List (String × Record))
      (collections : List (String × List Record))

namespace Record

def value (r : Record) (name : String) : Value :=
  match r with
  | mk values _ _ => (values.lookup name).getD .null

/-- The nested record of a field, if it is there. -/
def nested? (r : Record) (name : String) : Option Record :=
  match r with
  | mk _ nested _ => nested.lookup name

def collection (r : Record) (name : String) : List Record :=
  match r with
  | mk _ _ collections => (collections.lookup name).getD []

/-- Reads through nested records: `read` takes the last segment. None when a record on the way is
absent. -/
def through? {α : Type} (read : Record → String → α) (r : Record) : List String → Option α
  | [] => none
  | [name] => some (read r name)
  | name :: rest => (r.nested? name).bind (through? read · rest)

/-- The value at the end of a dotted path. -/
def value? (r : Record) (path : String) : Option Value :=
  r.through? value (Text.segments path)

/-- The elements of the collection at the end of a dotted path. -/
def elements? (r : Record) (path : String) : Option (List Record) :=
  r.through? collection (Text.segments path)

end Record

end Selection
