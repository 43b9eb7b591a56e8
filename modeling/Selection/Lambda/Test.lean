import Selection.Text.Blank
import Selection.Value.Text

/-! # Tests of a single value

Comparisons lift the order of values to nulls: a null equals only a null, and every ordering against
a null is false. Values without an order are unequal, and no ordering of them is true. A text test
asks whether one text is a part of another.
-/

namespace Selection

/-- A comparison by equality or order. -/
inductive Comparison where
  | eq
  | ne
  | lt
  | le
  | gt
  | ge
deriving DecidableEq

namespace Comparison

def symbol : Comparison → String
  | eq => "=="
  | ne => "!="
  | lt => "<"
  | le => "<="
  | gt => ">"
  | ge => ">="

def isOrdering : Comparison → Bool
  | eq | ne => false
  | _ => true

/-- The verdict on the order of two values, if they have one. -/
def admits : Comparison → Option Ordering → Bool
  | eq, o => o == some .eq
  | ne, o => o != some .eq
  | lt, o => o == some .lt
  | le, o => o == some .lt || o == some .eq
  | gt, o => o == some .gt
  | ge, o => o == some .gt || o == some .eq

/-- The verdict on two values, nulls included. -/
def evaluate (op : Comparison) (left right : Value) : Bool :=
  match left.isNull, right.isNull with
  | true, true => op == eq
  | true, false | false, true => op == ne
  | false, false => op.admits (left.compare? right)

end Comparison

/-- A test whether one text is a part of another. -/
inductive TextTest where
  | contains
  | startsWith
  | endsWith
deriving DecidableEq

namespace TextTest

/-- The name of a text test. -/
def name : TextTest → String
  | contains => "Contains"
  | startsWith => "StartsWith"
  | endsWith => "EndsWith"

/-- Whether the text has the part where the test asks for it. -/
def holds (test : TextTest) (text part : String) : Bool :=
  match test with
  | contains => Text.occursIn part.toList text.toList
  | startsWith => part.toList.isPrefixOf text.toList
  | endsWith => part.toList.isSuffixOf text.toList

end TextTest

end Selection
