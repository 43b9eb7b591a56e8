import Selection.Compile.Error
import Selection.Text.Blank
import Selection.Value.Text

/-! # Contexts

A context holds the data that a criterion may refer to by dotted path: values, maps of named parts,
and objects of the caller that are asked for a part by its name. The arrays of a JSON document
become maps whose names are the positions `0`, `1`, ….
-/

namespace Selection

/-- Data that a criterion may refer to. -/
inductive Context where
  | value (v : Value)
  | map (entries : List (String × Context))
  | object (part? : String → Option Context)

namespace Context

/-- The part of a name; a value has none. -/
def lookup? : Context → String → Option Context
  | value _, _ => none
  | map entries, name => entries.lookup name
  | object part?, name => part? name

/-- Walks the segments that are left of a path. Fails with the first segment that names nothing, and
with the last one when the walk ends at a map or an object. -/
def walk (path : String) (last : String) : Context → List String → Except CompileError Value
  | value v, [] => .ok v
  | map _, [] | object _, [] => .error (.contextLookupFailure path last)
  | c, segment :: rest =>
    match c.lookup? segment with
    | some part => walk path segment part rest
    | none => .error (.contextLookupFailure path segment)

/-- The value at the end of a dotted path. -/
def resolve (c : Context) (path : String) : Except CompileError Value :=
  c.walk path path (Text.segments path)

/-- A map with one more entry; one of the same name is replaced. -/
def insert (entries : List (String × Context)) (name : String) (part : Context) :
    List (String × Context) :=
  (name, part) :: entries.filter (·.1 != name)

mutual

/-- The context of a JSON document. -/
def ofJson : Json → Context
  | .object members => map (ofMembers members)
  | .array items => map (ofItems 0 items)
  | j => value ((Value.ofJson? j).getD .null)

/-- The entries of the members of an object. -/
def ofMembers : List (String × Json) → List (String × Context)
  | [] => []
  | (name, j) :: rest => (name, ofJson j) :: ofMembers rest

/-- The entries of the items of an array from a position on. -/
def ofItems (position : Nat) : List Json → List (String × Context)
  | [] => []
  | j :: rest => (Numeral.text position, ofJson j) :: ofItems (position + 1) rest

end

end Context

end Selection
