import Selection.Json.Basic
import Selection.Json.Reading
import Selection.Value.Basic

/-! # The texts of a value

A value has a literal, as it stands in a query, and a JSON form. In the JSON form the types that
JSON lacks are strings: decimals, uuids, and dates, times and durations in ISO form. The plain text
is the JSON form without quotes, save that a duration is written as a time span.
-/

namespace Selection.Value

/-- A text in single quotes, each single quote inside written twice. -/
def quote (s : String) : String :=
  "'" ++ String.ofList (s.toList.flatMap fun c => if c = '\'' then ['\'', '\''] else [c]) ++ "'"

/-- The literal of a value. -/
def literal : Value → String
  | int n => Numeral.ofInt n.toInt
  | uint n => Numeral.text n.toNat
  | float x => x.text
  | decimal x => x.text
  | string s => quote s
  | boolean b => if b then "true" else "false"
  | uuid u => "'" ++ u.text ++ "'"
  | date d => "'" ++ d.text ++ "'"
  | timestamp t => "'" ++ t.utcText ++ "'"
  | timestampNaive t => "'" ++ t.text ++ "'"
  | time t => "'" ++ t.text ++ "'"
  | duration d => "'" ++ d.span ++ "'"
  | null => "NULL"

/-- The JSON form of a value. A float that is not finite has none and becomes null. -/
def toJson : Value → Json
  | int n => .ofInt n.toInt
  | uint n => .ofInt n.toNat
  | float x => if x.isFinite then .number (.float x) else .null
  | decimal x => .string x.text
  | string s => .string s
  | boolean b => .bool b
  | uuid u => .string u.text
  | date d => .string d.text
  | timestamp t => .string t.utcText
  | timestampNaive t => .string t.text
  | time t => .string t.text
  | duration d => .string d.iso
  | null => .null

/-- The value of a JSON literal. An integer is signed if it fits, else unsigned, else a float;
arrays and objects are no literals. -/
def ofJson? : Json → Option Value
  | .null => some null
  | .bool b => some (boolean b)
  | .number (.integer n) =>
    match ofSigned? n, ofUnsigned? n with
    | some n, _ => some (int n)
    | none, some n => some (uint n)
    | none, none => some (float (.ofInt n))
  | .number (.float x) => some (float x)
  | .string s => some (string s)
  | .array _ | .object _ => none

/-- The text of a value without quotes. -/
def plainText : Value → String
  | string s => s
  | duration d => d.span
  | v =>
    match v.toJson with
    | .string s => s
    | json => json.text

/-- The duration that a string spells. -/
def spelledDuration? : Value → Option Value
  | string s => (Duration.ofText? s).map duration
  | _ => none

end Selection.Value
