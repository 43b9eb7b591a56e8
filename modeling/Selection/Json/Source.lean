import Selection.Text.Hex
import Selection.Text.Scan

/-! # JSON source

The form of a JSON text before its meaning is asked for: numbers are their digits, strings their
characters and code units, members stand in the order of the text. What has the form of JSON but
denotes nothing, such as a lone surrogate or a number out of range, is still source.
-/

namespace Selection.Json

/-- The digits of a JSON number. -/
structure Numeral where
  negative : Bool
  whole : List Char
  fraction : Option (List Char)
  /-- Whether the exponent is negative, and its digits. -/
  exponent : Option (Bool × List Char)

/-- A part of a string: a character, or a code unit written `\u` and four hexadecimal digits. -/
inductive Part where
  | char (c : Char)
  | unit (n : Nat)

/-- A JSON text taken apart. -/
inductive Source where
  | null
  | bool (b : Bool)
  | number (n : Numeral)
  | string (parts : List Part)
  | array (items : List Source)
  | object (members : List (List Part × Source))

namespace Source

/-- A blank between the tokens of JSON. -/
def isSpace (c : Char) : Bool :=
  c == ' ' || c == '\n' || c == '\t' || c == '\r'

/-- Takes the blanks at the front. -/
def spaces : Scan Unit := fun cs => some ((), cs.dropWhile isSpace)

/-- Takes a token character and the blanks before it. -/
def token (c : Char) : Scan Unit := do
  spaces
  Scan.char c

/-- Takes the characters of a word. -/
def word (w : List Char) : Scan Unit := fun cs =>
  if w.isPrefixOf cs then some ((), cs.drop w.length) else none

/-- The character of an escape of one letter. -/
def escaped? : Char → Option Char
  | '"' => some '"'
  | '\\' => some '\\'
  | '/' => some '/'
  | 'b' => some '\x08'
  | 'f' => some '\x0c'
  | 'n' => some '\n'
  | 'r' => some '\r'
  | 't' => some '\t'
  | _ => none

/-- Takes the parts of a string after its opening quote, and the closing one. -/
def stringBody : Scan (List Part)
  | '"' :: rest => some ([], rest)
  | '\\' :: 'u' :: a :: b :: c :: d :: rest => do
    let high := 16 * (← Hex.value? a) + (← Hex.value? b)
    let n := 256 * high + 16 * (← Hex.value? c) + (← Hex.value? d)
    let (parts, rest) ← stringBody rest
    return (.unit n :: parts, rest)
  | '\\' :: c :: rest => do
    let c ← escaped? c
    let (parts, rest) ← stringBody rest
    return (.char c :: parts, rest)
  | c :: rest => do
    guard (0x20 ≤ c.toNat)
    let (parts, rest) ← stringBody rest
    return (.char c :: parts, rest)
  | [] => none

/-- Takes a string. -/
def quoted : Scan (List Part) := do
  token '"'
  stringBody

/-- Takes the whole part of a number: a zero alone, or digits that begin with another. -/
def wholePart : Scan (List Char) := do
  match ← Scan.peek with
  | some '0' => do
    Scan.char '0'
    return ['0']
  | _ => Scan.digits

/-- Takes the fraction of a number, if there is one. -/
def fractionPart : Scan (Option (List Char)) := do
  match ← Scan.peek with
  | some '.' => do
    Scan.char '.'
    return some (← Scan.digits)
  | _ => return none

/-- Takes the exponent of a number, if there is one. -/
def exponentPart : Scan (Option (Bool × List Char)) := do
  match ← Scan.peek with
  | some 'e' | some 'E' => do
    discard <| Scan.one fun _ => true
    match ← Scan.peek with
    | some '-' => do
      Scan.char '-'
      return some (true, ← Scan.digits)
    | some '+' => do
      Scan.char '+'
      return some (false, ← Scan.digits)
    | _ => return some (false, ← Scan.digits)
  | _ => return none

/-- Takes a number. -/
def numeral : Scan Numeral := do
  let negative := (← Scan.peek) == some '-'
  if negative then Scan.char '-'
  return ⟨negative, ← wholePart, ← fractionPart, ← exponentPart⟩

mutual

/-- Takes a value; `fuel` bounds the number of values and separators ahead. -/
def scan (fuel : Nat) : Scan Source := do
  match fuel with
  | 0 => failure
  | fuel + 1 =>
    spaces
    match ← Scan.peek with
    | some 'n' => do
      word "null".toList
      return .null
    | some 't' => do
      word "true".toList
      return .bool true
    | some 'f' => do
      word "false".toList
      return .bool false
    | some '"' => return .string (← quoted)
    | some '[' => do
      Scan.char '['
      spaces
      if (← Scan.peek) == some ']' then
        Scan.char ']'
        return .array []
      return .array (← scanItems fuel)
    | some '\x7b' => do
      Scan.char '\x7b'
      spaces
      if (← Scan.peek) == some '\x7d' then
        Scan.char '\x7d'
        return .object []
      return .object (← scanMembers fuel)
    | _ => return .number (← numeral)

/-- Takes the items of an array, at least one, and its closing bracket. -/
def scanItems (fuel : Nat) : Scan (List Source) := do
  match fuel with
  | 0 => failure
  | fuel + 1 =>
    let item ← scan fuel
    spaces
    if (← Scan.peek) == some ',' then
      Scan.char ','
      return item :: (← scanItems fuel)
    Scan.char ']'
    return [item]

/-- Takes the members of an object, at least one, and its closing brace. -/
def scanMembers (fuel : Nat) : Scan (List (List Part × Source)) := do
  match fuel with
  | 0 => failure
  | fuel + 1 =>
    let key ← quoted
    token ':'
    let item ← scan fuel
    spaces
    if (← Scan.peek) == some ',' then
      Scan.char ','
      return (key, item) :: (← scanMembers fuel)
    Scan.char '\x7d'
    return [(key, item)]

end

/-- Takes a text apart, blanks around it allowed. Every value, item and member takes a character of
its own, so the length of the text is fuel enough. -/
def read? (cs : List Char) : Option Source :=
  Scan.whole? (do let source ← scan (cs.length + 1); spaces; return source) cs

end Source

end Selection.Json
