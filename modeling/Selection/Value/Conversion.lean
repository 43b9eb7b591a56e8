import Selection.Number.Reading
import Selection.Value.Text

/-! # Conversion of values

A value converts to another type when it denotes a value of it: numbers to numbers without loss, to
floats by rounding, dates and timestamps into each other, to a date only from its midnight, strings
by reading them, and every value to its plain text. Blanks around a string do not matter. The local
time zone is UTC throughout, so an instant and the local time that it falls on read the same.
-/

namespace Selection.Value

def trimmed (s : String) : List Char :=
  Text.trim s.toList

/-- Reads an instant with a zone, a local date-time or a date, in this order. -/
def readTemporal? (s : String) : Option Value :=
  let cs := trimmed s
  (DateTime.readInstant? cs).map timestamp <|> (DateTime.read? cs).map timestampNaive <|>
    (Date.read? cs).map date

def readUnsigned? : List Char → Option Nat
  | '+' :: cs => Numeral.read? cs
  | cs => Numeral.read? cs

def readSigned? : List Char → Option Int
  | '-' :: cs => (Numeral.read? cs).map fun n => -(n : Int)
  | cs => (readUnsigned? cs).map fun n => (n : Int)

/-- The number `2 ^ 63`, where the signed integers end. -/
def signedLimit : Binary64 :=
  .ofInt (Int64.maxValue.toInt + 1)

/-- The number `2 ^ 64`, where the unsigned integers end. -/
def unsignedLimit : Binary64 :=
  .ofInt UInt64.size

/-- The signed integer of a number of another type or of a string. -/
def toSigned? : Value → Option Int64
  | uint n => ofSigned? n.toNat
  | float x =>
    if x.isWhole && x.isWithin (.ofInt Int64.minValue.toInt) signedLimit then
      some (.ofInt x.truncated)
    else none
  | decimal x => if x.isInteger then ofSigned? x.truncated else none
  | string s => (readSigned? (trimmed s)).bind ofSigned?
  | _ => none

/-- The unsigned integer of a number of another type or of a string. -/
def toUnsigned? : Value → Option UInt64
  | int n => ofUnsigned? n.toInt
  | float x =>
    if x.isWhole && x.isWithin (.ofInt 0) unsignedLimit then some (.ofNat x.truncated.toNat)
    else none
  | decimal x => if x.isInteger then ofUnsigned? x.truncated else none
  | string s => (readUnsigned? (trimmed s)).bind fun n => ofUnsigned? n
  | _ => none

/-- The float of a number, or the one nearest to the decimal that a string spells. -/
def toFloat? : Value → Option Binary64
  | string s => Binary64.read? (trimmed s)
  | v => v.asFloat?

/-- The decimal of a number of another type or of a string. That of a float is the one of its
text. -/
def toDecimal? : Value → Option Decimal
  | int n => some (.ofInt n.toInt)
  | uint n => some (.ofInt n.toNat)
  | float x =>
    if x.isFinite then Decimal.read? x.text.toList <|> Decimal.ofBinary64? x else none
  | string s => Decimal.read? (trimmed s)
  | _ => none

/-- The boolean that a string spells, in any case. -/
def toBoolean? : Value → Option Bool
  | string s =>
    let word := Text.lowerAscii (trimmed s)
    if word = "true".toList then some true
    else if word = "false".toList then some false
    else none
  | _ => none

/-- The uuid that a string spells. -/
def toUuid? : Value → Option Uuid
  | string s => Uuid.read? (trimmed s)
  | _ => none

/-- The time that a string spells, with or without seconds. -/
def toTime? : Value → Option TimeOfDay
  | string s => TimeOfDay.read? (trimmed s) <|> TimeOfDay.readShort? (trimmed s)
  | _ => none

/-- The value itself, or the date or date-time that a string spells. -/
def temporal? : Value → Option Value
  | string s => readTemporal? s
  | v => some v

/-- The date of a date-time at midnight. -/
def toDate? (t : DateTime) : Option Date :=
  if t.time = .midnight then some t.date else none

/-- Converts dates and timestamps into each other. The local time of an instant is its time in
UTC. -/
def convertTemporal? : Value → DataType → Option Value
  | timestampNaive t, .date | timestamp t, .date => (toDate? t).map date
  | timestampNaive t, .timestamp => some (timestamp t)
  | timestamp t, .timestampNaive => some (timestampNaive t)
  | date d, .timestampNaive => some (timestampNaive (.ofDate d))
  | date d, .timestamp => some (timestamp (.ofDate d))
  | v, type => if v.dataType = type then some v else none

/-- The value of another type that denotes the same. -/
def convert? (v : Value) : DataType → Option Value
  | .string => some (string v.plainText)
  | .int => v.toSigned?.map int
  | .intUnsigned => v.toUnsigned?.map uint
  | .float => v.toFloat?.map float
  | .decimal => v.toDecimal?.map decimal
  | .boolean => v.toBoolean?.map boolean
  | .uuid => v.toUuid?.map uuid
  | .duration => v.spelledDuration?
  | .time => v.toTime?.map time
  | type@.date | type@.timestamp | type@.timestampNaive => do
    convertTemporal? (← v.temporal?) type
  | .null => none

end Selection.Value
