import Selection.Number.Shortest
import Selection.Text.Hex
import Selection.Text.Numeral

/-! # JSON values

A JSON value as it is worked with after reading. The members of an object have distinct keys in
ascending order; of members with one key the last counts. Numbers are integers or binary64 numbers.
The text of a value is compact: no blanks, and only the escapes that JSON demands.
-/

namespace Selection

inductive Json.Number where
  | integer (n : Int)
  | float (x : Binary64)
deriving DecidableEq

inductive Json where
  | null
  | bool (b : Bool)
  | number (n : Json.Number)
  | string (s : String)
  | array (items : List Json)
  | object (members : List (String × Json))

namespace Json

/-- Sets a member among members with ascending keys. -/
def insertMember (key : String) (value : Json) : List (String × Json) → List (String × Json)
  | [] => [(key, value)]
  | (k, v) :: rest =>
    match compare key k with
    | .lt => (key, value) :: (k, v) :: rest
    | .eq => (key, value) :: rest
    | .gt => (k, v) :: insertMember key value rest

/-- The object of some members, given in any order. -/
def ofMembers (members : List (String × Json)) : Json :=
  .object (members.foldl (fun sorted (key, value) => insertMember key value sorted) [])

/-- The member of an object, if the value is an object that has it. -/
def get? (key : String) : Json → Option Json
  | object members => members.lookup key
  | _ => none

def ofInt (n : Int) : Json :=
  .number (.integer n)

/-! ## Text -/

/-- A character inside a JSON string. -/
def escapeChar (c : Char) : List Char :=
  if c = '"' then ['\\', '"']
  else if c = '\\' then ['\\', '\\']
  else if c = '\x08' then ['\\', 'b']
  else if c = '\x0c' then ['\\', 'f']
  else if c = '\n' then ['\\', 'n']
  else if c = '\r' then ['\\', 'r']
  else if c = '\t' then ['\\', 't']
  else if c.toNat < 0x20 then
    '\\' :: 'u' :: Hex.lastDigits 4 c.toNat
  else [c]

def quote (s : String) : String :=
  "\"" ++ String.ofList (s.toList.flatMap escapeChar) ++ "\""

/-- The text of a number; a float that is not finite is written `null`. -/
def Number.text : Number → String
  | integer n => Numeral.ofInt n
  | float x => x.jsonText?.getD "null"

mutual

/-- The compact text of a value. -/
def text : Json → String
  | null => "null"
  | bool b => if b then "true" else "false"
  | number n => n.text
  | string s => quote s
  | array items => "[" ++ ",".intercalate (itemTexts items) ++ "]"
  | object members => "\x7b" ++ ",".intercalate (memberTexts members) ++ "\x7d"

/-- The texts of the items of an array. -/
def itemTexts : List Json → List String
  | [] => []
  | item :: rest => item.text :: itemTexts rest

/-- The texts of the members of an object. -/
def memberTexts : List (String × Json) → List String
  | [] => []
  | (key, value) :: rest => (quote key ++ ":" ++ value.text) :: memberTexts rest

end

end Json

end Selection
