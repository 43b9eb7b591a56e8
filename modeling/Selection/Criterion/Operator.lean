/-! # Operators

The operators of a criterion. They fall into families that decide which attributes a criterion uses
and how it is compiled.
-/

namespace Selection

/-- What a criterion does with its attributes. -/
inductive Operator where
  | equal
  | notEqual
  | lessThan
  | lessThanOrEqual
  | greaterThan
  | greaterThanOrEqual
  | isTrue
  | isFalse
  | contains
  | startsWith
  | endsWith
  | like
  | any
  | and
  | or
  | nand
  | nor
  | constant
  | add
deriving DecidableEq

namespace Operator

/-- The name of an operator, also its written form. -/
def name : Operator → String
  | equal => "Equal"
  | notEqual => "NotEqual"
  | lessThan => "LessThan"
  | lessThanOrEqual => "LessThanOrEqual"
  | greaterThan => "GreaterThan"
  | greaterThanOrEqual => "GreaterThanOrEqual"
  | isTrue => "IsTrue"
  | isFalse => "IsFalse"
  | contains => "Contains"
  | startsWith => "StartsWith"
  | endsWith => "EndsWith"
  | like => "Like"
  | any => "Any"
  | and => "And"
  | or => "Or"
  | nand => "Nand"
  | nor => "Nor"
  | constant => "Constant"
  | add => "Add"

def all : List Operator :=
  [equal, notEqual, lessThan, lessThanOrEqual, greaterThan, greaterThanOrEqual, isTrue, isFalse,
    contains, startsWith, endsWith, like, any, and, or, nand, nor, constant, add]

def ofName? (name : String) : Option Operator :=
  all.find? (·.name == name)

/-- Operators that join the verdicts of a list of criteria. -/
def isAggregate : Operator → Bool
  | and | or | nand | nor => true
  | _ => false

/-- Aggregates whose joined verdict is negated. -/
def isNegated : Operator → Bool
  | nand | nor => true
  | _ => false

/-- Aggregates that ask for all of their criteria. -/
def isConjunctive : Operator → Bool
  | and | nand => true
  | _ => false

/-- Operators that test a text for a part. -/
def isTextTest : Operator → Bool
  | contains | startsWith | endsWith => true
  | _ => false

def isPattern : Operator → Bool
  | like => true
  | _ => false

/-- The operator that asks for an element of a collection. -/
def isQuantifier : Operator → Bool
  | any => true
  | _ => false

/-- Operators whose verdict is fixed. -/
def isFixed : Operator → Bool
  | isTrue | isFalse => true
  | _ => false

def isConstant : Operator → Bool
  | constant => true
  | _ => false

def isSum : Operator → Bool
  | add => true
  | _ => false

/-- Operators that compare by equality or order. -/
def isRelational : Operator → Bool
  | equal | notEqual | lessThan | lessThanOrEqual | greaterThan | greaterThanOrEqual => true
  | _ => false

/-- Operators that speak about a field. -/
def takesField (op : Operator) : Bool :=
  op.isRelational || op.isTextTest || op.isPattern || op.isQuantifier

end Operator

end Selection
