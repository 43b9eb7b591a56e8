import Selection.Calendar.DateTime
import Selection.Json.Basic

/-! # Settings

How a criterion is compiled: whether pattern tests are evaluated in memory, and which clock tells
the current time. Settings are read from and written to JSON.
-/

namespace Selection

/-- The evaluation of pattern tests in memory. -/
inductive LikeMode where
  | engineOnly
  | ignoringCase
  | caseSensitive
deriving DecidableEq

/-- The clock that tells the current time. -/
inductive Clock where
  | system
  | fixed (time : DateTime)
deriving DecidableEq

/-- How a criterion is compiled. -/
structure Settings where
  like : LikeMode := .engineOnly
  clock : Clock := .system
deriving DecidableEq

namespace LikeMode

def name : LikeMode → String
  | engineOnly => "EngineOnly"
  | ignoringCase => "Emulate"
  | caseSensitive => "EmulateCaseSensitive"

def ofName? (name : String) : Option LikeMode :=
  [engineOnly, ignoringCase, caseSensitive].find? (·.name == name)

/-- The mode of a JSON value: its name, or an object of its name and a null. -/
def ofJson? : Json → Option LikeMode
  | .string name => ofName? name
  | .object [(name, .null)] => ofName? name
  | _ => none

end LikeMode

namespace Clock

/-- The time that a clock tells, when the system's clock tells `systemTime`. -/
def now (systemTime : DateTime) : Clock → DateTime
  | system => systemTime
  | fixed time => time

/-- The clock of a JSON value: the name of the system's clock, or an object with a fixed time. -/
def ofJson? : Json → Option Clock
  | .string "System" => some system
  | .object [("System", .null)] => some system
  | .object [("Fixed", .string time)] => (DateTime.readSpaced? time.toList).map fixed
  | _ => none

def toJson : Clock → Json
  | system => .string "System"
  | fixed time => .ofMembers [("Fixed", .string time.text)]

end Clock

namespace Settings

/-- The settings of the members of an object; those of other names are passed over. -/
def ofMembers? : List (String × Json) → Option Settings
  | [] => some {}
  | (key, value) :: rest => do
    let s ← ofMembers? rest
    match key with
    | "like" => do return { s with like := ← LikeMode.ofJson? value }
    | "clock" => do return { s with clock := ← Clock.ofJson? value }
    | _ => return s

/-- The settings of a JSON value: an object, or an array of mode and clock; what is missing has its
default. -/
def ofJson? : Json → Option Settings
  | .object members => ofMembers? members
  | .array [] => some {}
  | .array [like] => ofMembers? [("like", like)]
  | .array [like, clock] => ofMembers? [("like", like), ("clock", clock)]
  | _ => none

def toJson (s : Settings) : Json :=
  .ofMembers [("like", .string s.like.name), ("clock", s.clock.toJson)]

end Settings

end Selection
