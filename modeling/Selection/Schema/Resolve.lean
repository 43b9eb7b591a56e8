import Selection.Compile.Error
import Selection.Text.Blank

/-! # Field paths

A dotted path is walked through the schemas of a catalog: every segment but the last names a nested
record of the record reached so far, and the last a scalar or a collection. A collection reached
through a nested record loses its link, since the record has no rows of its own that the keys could
name.
-/

namespace Selection

/-- What a field path leads to. -/
inductive Resolution (ι : Type) where
  | scalar (type : DataType)
  | collection (element : ι) (link : Option Link)

namespace Resolution

variable {ι : Type}

/-- The same field seen from the record around the one it was found in. -/
def outward : Resolution ι → Resolution ι
  | scalar type => scalar type
  | collection element _ => collection element none

end Resolution

namespace Catalog

variable {ι : Type}

/-- Walks the segments that are left of a path from a record type. -/
def walk (catalog : Catalog ι) (path : String) (record : ι) :
    List String → Except CompileError (Resolution ι)
  | [] => .error (.unknownField (catalog record).name path)
  | segment :: rest =>
    match (catalog record).field? segment with
    | none => .error (.unknownField (catalog record).name path)
    | some (.scalar type) =>
      if rest.isEmpty then .ok (.scalar type)
      else .error (.unknownField (catalog record).name path)
    | some (.nested inner) =>
      if rest.isEmpty then .error (.fieldKindMismatch path .scalar .record)
      else (walk catalog path inner rest).map Resolution.outward
    | some (.collection element link) =>
      if rest.isEmpty then .ok (.collection element link)
      else .error (.fieldKindMismatch path .record .collection)

/-- Resolves a dotted path from a record type. -/
def resolve (catalog : Catalog ι) (record : ι) (path : String) :
    Except CompileError (Resolution ι) :=
  catalog.walk path record (Text.segments path)

end Catalog

end Selection
