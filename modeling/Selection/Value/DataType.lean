/-! # Data types

The declared type of a record field, which is also the type of a value.
-/

namespace Selection

/-- The type of a field or a value. -/
inductive DataType where
  | int
  | intUnsigned
  | float
  | decimal
  | string
  | boolean
  | uuid
  | date
  | timestamp
  | timestampNaive
  | time
  | duration
  | null
deriving DecidableEq

namespace DataType

def name : DataType → String
  | int => "Int"
  | intUnsigned => "IntUnsigned"
  | float => "Float"
  | decimal => "Decimal"
  | string => "String"
  | boolean => "Boolean"
  | uuid => "Uuid"
  | date => "Date"
  | timestamp => "Timestamp"
  | timestampNaive => "TimestampNaive"
  | time => "Time"
  | duration => "Duration"
  | null => "Null"

def all : List DataType :=
  [int, intUnsigned, float, decimal, string, boolean, uuid, date, timestamp, timestampNaive, time,
    duration, null]

def ofName? (name : String) : Option DataType :=
  all.find? (·.name == name)

def isTextual : DataType → Bool
  | string => true
  | _ => false

def isNumeric : DataType → Bool
  | int | intUnsigned | float | decimal => true
  | _ => false

/-- The types of dates, times and durations. -/
def isTemporal : DataType → Bool
  | date | timestamp | timestampNaive | time | duration => true
  | _ => false

end DataType

end Selection
