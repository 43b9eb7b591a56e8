import Selection.Value.DataType

/-! # Schemas

A schema names a record type and its fields in order. A field is a scalar of a declared type, a
nested record or a collection of records; a collection may be linked to its owner by a pair of keys.
The schemas of a catalog refer to each other by index, so they may be mutually recursive and no
reference leads nowhere.
-/

namespace Selection

inductive FieldKind where
  | scalar
  | record
  | collection
deriving DecidableEq

def FieldKind.text : FieldKind → String
  | scalar => "scalar field"
  | record => "nested record"
  | collection => "collection"

/-- The keys that join the elements of a collection to their owner: the element's foreign key equals
the owner's parent key. -/
structure Link where
  foreignKey : String
  parentKey : String
deriving DecidableEq

/-- A field, other record types told by their index. -/
inductive Field (ι : Type) where
  | scalar (type : DataType)
  | nested (record : ι)
  | collection (element : ι) (link : Option Link)

def Field.kind {ι : Type} : Field ι → FieldKind
  | scalar _ => .scalar
  | nested _ => .record
  | collection .. => .collection

/-- The field with the record types told otherwise. -/
def Field.map {ι κ : Type} (f : ι → κ) : Field ι → Field κ
  | scalar type => scalar type
  | nested record => nested (f record)
  | collection element link => collection (f element) link

/-- A record type: its name and its fields. -/
structure Schema (ι : Type) where
  name : String
  fields : List (String × Field ι) := []

/-- The schemas of all record types. -/
abbrev Catalog (ι : Type) := ι → Schema ι

namespace Schema

variable {ι : Type}

/-- Sets a field among others; one of the same name is replaced where it stands. -/
def setField (name : String) (field : Field ι) : List (String × Field ι) → List (String × Field ι)
  | [] => [(name, field)]
  | (n, f) :: rest => if n = name then (n, field) :: rest else (n, f) :: setField name field rest

/-- The schema with one more field. -/
def add (s : Schema ι) (name : String) (field : Field ι) : Schema ι :=
  { s with fields := setField name field s.fields }

def scalar (s : Schema ι) (name : String) (type : DataType) : Schema ι :=
  s.add name (.scalar type)

def nested (s : Schema ι) (name : String) (record : ι) : Schema ι :=
  s.add name (.nested record)

/-- The schema with a collection that is not linked to its owner. -/
def collection (s : Schema ι) (name : String) (element : ι) : Schema ι :=
  s.add name (.collection element none)

/-- The schema with a collection linked to its owner. -/
def linked (s : Schema ι) (name : String) (element : ι) (foreignKey parentKey : String) :
    Schema ι :=
  s.add name (.collection element (some ⟨foreignKey, parentKey⟩))

def field? (s : Schema ι) (name : String) : Option (Field ι) :=
  s.fields.lookup name

/-- The kind of the field of a name. -/
def kindOf? (s : Schema ι) (name : String) : Option FieldKind :=
  (s.field? name).map Field.kind

def fieldNames (s : Schema ι) : List String :=
  s.fields.map Prod.fst

/-- The schema with the record types told otherwise. -/
def map {κ : Type} (f : ι → κ) (s : Schema ι) : Schema κ :=
  ⟨s.name, s.fields.map fun (name, field) => (name, field.map f)⟩

end Schema

/-- The catalog with one more schema, which `none` stands for. -/
def Catalog.extend {ι : Type} (catalog : Catalog ι) (schema : Schema (Option ι)) :
    Catalog (Option ι)
  | none => schema
  | some record => (catalog record).map some

end Selection
