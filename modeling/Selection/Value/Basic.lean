import Selection.Calendar.DateTime
import Selection.Number.Approximation
import Selection.Uuid
import Selection.Value.DataType

/-! # Values

A value is what a record field holds and what a criterion compares it with. Values of one family
have an order: the numbers in all their representations, and each other type by itself. A null has
no order, not even against another null. Integers and decimals compare by their exact numbers;
against a float both sides are taken as floats.
-/

namespace Selection

/-- A value of a record field. A timestamp is an instant in UTC, a naive timestamp a local time. The
local zone is UTC: what depends on another zone of the system is not told apart here. -/
inductive Value where
  | int (n : Int64)
  | uint (n : UInt64)
  | float (x : Binary64)
  | decimal (x : Decimal)
  | string (s : String)
  | boolean (b : Bool)
  | uuid (u : Uuid)
  | date (d : Date)
  | timestamp (t : DateTime)
  | timestampNaive (t : DateTime)
  | time (t : TimeOfDay)
  | duration (d : Duration)
  | null
deriving DecidableEq

namespace Value

def dataType : Value → DataType
  | int _ => .int
  | uint _ => .intUnsigned
  | float _ => .float
  | decimal _ => .decimal
  | string _ => .string
  | boolean _ => .boolean
  | uuid _ => .uuid
  | date _ => .date
  | timestamp _ => .timestamp
  | timestampNaive _ => .timestampNaive
  | time _ => .time
  | duration _ => .duration
  | null => .null

def isNull : Value → Bool
  | null => true
  | _ => false

theorem eq_null_of_isNull {v : Value} (h : v.isNull = true) : v = null := by
  cases v <;> first | rfl | contradiction

def asString? : Value → Option String
  | string s => some s
  | _ => none

/-- The signed integer, if it fits 64 bits. -/
def ofSigned? (n : Int) : Option Int64 :=
  if Int64.minValue.toInt ≤ n ∧ n ≤ Int64.maxValue.toInt then some (.ofInt n) else none

/-- The unsigned integer, if it fits 64 bits. -/
def ofUnsigned? (n : Int) : Option UInt64 :=
  if 0 ≤ n ∧ n < UInt64.size then some (.ofNat n.toNat) else none

/-- The exact decimal of an integer or decimal. -/
def exactNumber? : Value → Option Decimal
  | int n => some (.ofInt n.toInt)
  | uint n => some (.ofInt n.toNat)
  | decimal x => some x
  | _ => none

/-- The float of a number: the nearest one to an integer, and the one that stands for a decimal. -/
def asFloat? : Value → Option Binary64
  | int n => some (.ofInt n.toInt)
  | uint n => some (.ofInt n.toNat)
  | float x => some x
  | decimal x => some x.toBinary64
  | _ => none

/-- The order of two values of one family. Integers of different signedness are compared in a wider
type, and against a float both sides are floats. -/
def compare? (v w : Value) : Option Ordering :=
  match v, w with
  | int a, int b => some (Ord.compare a b)
  | uint a, uint b => some (Ord.compare a b)
  | int a, uint b => some (Ord.compare a.toInt b.toNat)
  | uint a, int b => some (Ord.compare (a.toNat : Int) b.toInt)
  | float a, float b => a.compare? b
  | decimal a, decimal b => some (a.compare b)
  | decimal a, int b => some (a.compare (.ofInt b.toInt))
  | int a, decimal b => some ((Decimal.ofInt a.toInt).compare b)
  | decimal a, uint b => some (a.compare (.ofInt b.toNat))
  | uint a, decimal b => some ((Decimal.ofInt a.toNat).compare b)
  | int _, float _ | uint _, float _ | decimal _, float _
  | float _, int _ | float _, uint _ | float _, decimal _ => do
    (← v.asFloat?).compare? (← w.asFloat?)
  | string a, string b => some (Ord.compare a b)
  | boolean a, boolean b => some (Ord.compare a b)
  | uuid a, uuid b => some (a.compare b)
  | date a, date b => some (a.compare b)
  | timestamp a, timestamp b => some (a.compare b)
  | timestampNaive a, timestampNaive b => some (a.compare b)
  | time a, time b => some (a.compare b)
  | duration a, duration b => some (a.compare b)
  | _, _ => none

def equal (a b : Value) : Bool :=
  a.compare? b == some .eq

/-- Whether two values have one type and are equal; a null is the same as a null. -/
def same (a b : Value) : Bool :=
  a.dataType == b.dataType && (a.isNull || a.equal b)

end Value

end Selection
