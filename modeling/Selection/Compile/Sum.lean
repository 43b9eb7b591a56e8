import Selection.Compile.Error
import Selection.Value.Conversion

/-! # Sums of values

A string among the operands of a sum is read as what it can be added as: after a number as a
decimal, after a date, time or duration as a duration. The first operand, and a string that is not
so read, is read as whatever it spells. Integers are added exactly within 64 bits, decimals exactly,
floats by rounding, and durations move dates and times.
-/

namespace Selection.Sum

/-- Whether a text can only be a duration: an ISO duration, or a time span with days before its
first colon. -/
def isSurelyDuration (cs : List Char) : Bool :=
  let body := if cs.head? == some '-' then cs.tail else cs
  match body with
  | c :: _ =>
    c.toUpper == 'P' ||
      body.contains ':' && (body.takeWhile (· != ':')).contains '.'
  | [] => false

def readDecimal? (s : String) : Option Value :=
  (Decimal.read? (Value.trimmed s)).map .decimal

def readDuration? (s : String) : Option Value :=
  (Duration.ofText? s).map .duration

/-- Reads what a text spells: what can only be a duration, a date or date-time, a time of day, a
decimal, or any other duration. -/
def readAny? (s : String) : Option Value :=
  if isSurelyDuration (Value.trimmed s) then readDuration? s
  else
    Value.readTemporal? s <|> (TimeOfDay.read? (Value.trimmed s)).map .time <|> readDecimal? s <|>
      readDuration? s

/-- Reads a text as what can be added to a total. -/
def readAgainst? (total : Option Value) (s : String) : Option Value :=
  match total with
  | none => none
  | some total =>
    if total.dataType.isNumeric then readDecimal? s
    else if total.dataType.isTemporal then readDuration? s
    else none

/-- The value of an operand after a total. -/
def operand (total : Option Value) (v : Value) : Value :=
  match v with
  | .string s => (readAgainst? total s <|> readAny? s).getD v
  | v => v

/-- The decimal of a number, that of a float its exact one. -/
def decimal? : Value → Option Decimal
  | .float x => Decimal.ofBinary64? x
  | v => v.exactNumber?

/-- The sum of integers in the representation of the first that it fits, signed before unsigned. -/
def integer? (n : Int) : Option Value :=
  (Value.ofSigned? n).map .int <|> (Value.ofUnsigned? n).map .uint

/-- A date moved by a duration: a date when it arrives at a midnight, and else a date-time. -/
def moveDate? (d : Date) (delta : Duration) : Option Value := do
  let t ← (DateTime.ofDate d).add? delta
  return match Value.toDate? t with
    | some d => .date d
    | none => .timestampNaive t

def add (left right : Value) : Except CompileError Value :=
  let fitting (sum : Option Value) : Except CompileError Value :=
    match sum with
    | some v => .ok v
    | none => .error (.addOverflow left.literal right.literal)
  let undefined : Except CompileError Value :=
    .error (.undefinedAddOperation left.dataType right.dataType)
  match left, right with
  | .null, _ | _, .null => .ok .null
  | .int m, .int n => fitting ((Value.ofSigned? (m.toInt + n.toInt)).map .int)
  | .uint m, .uint n => fitting ((Value.ofUnsigned? (m.toNat + n.toNat)).map .uint)
  | .int m, .uint n => fitting (integer? (m.toInt + n.toNat))
  | .uint m, .int n => fitting (integer? (m.toNat + n.toInt))
  | .timestampNaive t, .duration d => fitting ((t.add? d).map .timestampNaive)
  | .timestamp t, .duration d => fitting ((t.add? d).map .timestamp)
  | .date d, .duration e => fitting (moveDate? d e)
  | .time t, .duration d => .ok (.time (t.add d).1)
  | .duration d, .duration e => fitting ((d.add? e).map .duration)
  | .decimal _, _ | _, .decimal _ =>
    match decimal? left, decimal? right with
    | some x, some y => .ok (.decimal (x.add y))
    | _, _ => undefined
  | _, _ =>
    match left.asFloat?, right.asFloat? with
    | some x, some y => .ok (.float (x.add y))
    | _, _ => undefined

end Selection.Sum
