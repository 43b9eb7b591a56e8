import Selection.Text.Numeral

/-! # Binary64 numbers

A finite number of the 64-bit binary format is kept as its sign and its magnitude, counted in steps
of `2 ^ -1074`, the smallest distance between two numbers of the format. Order, sum and rounding are
then arithmetic of natural numbers. Every operation but the power is its exact result rounded to the
nearest number of the format, a tie going to the even significand.
-/

namespace Selection

namespace Binary64

/-- The number 1, in steps of `2 ^ -1074`. -/
def one : Nat :=
  1 <<< 1074

/-- The first power of two beyond the format, `2 ^ 1024`, in steps. -/
def overflow : Nat :=
  1 <<< 2098

/-- A magnitude, in steps of `2 ^ -1074`, that the format holds: it lies below `2 ^ 1024` and has at
most 53 significant bits. -/
def Holds (steps : Nat) : Prop :=
  steps < overflow ∧ steps % (1 <<< (steps.log2 - 52)) = 0

instance (steps : Nat) : Decidable (Holds steps) :=
  inferInstanceAs (Decidable (_ ∧ _))

end Binary64

/-- A number of the 64-bit binary format. -/
inductive Binary64 where
  | nan
  | infinity (negative : Bool)
  | finite (negative : Bool) (steps : Nat) (holds : Binary64.Holds steps)
deriving DecidableEq

namespace Binary64

/-- The quotient rounded to the nearest natural number, a tie going to the even one. -/
def roundedQuotient (num den : Nat) : Nat :=
  let q := num / den
  let r := num % den
  if 2 * r < den then q else if den < 2 * r then q + 1 else q + q % 2

/-- The magnitude of at most 53 significant bits nearest to `num / den` steps. -/
def nearest (num den : Nat) : Nat :=
  let unit := 1 <<< ((num / den).log2 - 52)
  roundedQuotient num (den * unit) * unit

/-- The number of a magnitude, infinite when the format does not reach it. -/
def ofSteps (negative : Bool) (steps : Nat) : Binary64 :=
  if h : Holds steps then .finite negative steps h else .infinity negative

/-- The number nearest to `num / den`. -/
def ofRatio (negative : Bool) (num den : Nat) : Binary64 :=
  ofSteps negative (nearest (num * one) den)

/-- The number nearest to an integer. -/
def ofInt (n : Int) : Binary64 :=
  ofRatio (n < 0) n.natAbs 1

/-- The number nearest to `digits * 10 ^ exponent`. Exponents that leave the format on either side
are decided by the number of digits alone. -/
def ofScientific (negative : Bool) (digits : Nat) (exponent : Int) : Binary64 :=
  let magnitude := exponent + digits.log2 / 4
  if digits = 0 ∨ exponent + digits.log2 < -330 then ofRatio negative 0 1
  else if 310 < magnitude then .infinity negative
  else if 0 ≤ exponent then ofRatio negative (digits * Numeral.powerOfTen exponent.toNat) 1
  else ofRatio negative digits (Numeral.powerOfTen (-exponent).toNat)

/-- An integer of a sign and a magnitude. -/
def signed (negative : Bool) (magnitude : Nat) : Int :=
  if negative then -(magnitude : Int) else magnitude

/-- The signed count of steps of a finite number; the infinities lie beyond all of them. -/
def key? : Binary64 → Option Int
  | nan => none
  | infinity negative => some (signed negative overflow)
  | finite negative steps _ => some (signed negative steps)

/-- The order of two numbers; nothing is ordered against not-a-number. -/
def compare? (x y : Binary64) : Option Ordering := do
  return compare (← x.key?) (← y.key?)

/-- The sum, rounded. Opposite infinities have none, and an exact zero is negative only when both
operands are. -/
def add : Binary64 → Binary64 → Binary64
  | nan, _ | _, nan => nan
  | infinity s, infinity t => if s = t then infinity s else nan
  | infinity s, finite .. | finite .., infinity s => infinity s
  | finite s m _, finite t n _ =>
    let sum := signed s m + signed t n
    if sum = 0 then ofSteps (s && t) 0 else ofSteps (sum < 0) (nearest sum.natAbs 1)

/-- The product, rounded. An infinity times zero has none. -/
def mul : Binary64 → Binary64 → Binary64
  | nan, _ | _, nan => nan
  | infinity s, infinity t => infinity (s != t)
  | infinity s, finite t n _ | finite t n _, infinity s =>
    if n = 0 then nan else infinity (s != t)
  | finite s m _, finite t n _ => ofSteps (s != t) (nearest (m * n) one)

/-- The power by repeated squaring from the lowest bit of the exponent up, each product rounded. So
it may differ from the exact power by more than one rounding. -/
def power (x : Binary64) (n : Nat) : Binary64 :=
  let (result, _) := (List.range (n.log2 + 1)).foldl
    (fun (result, square) i =>
      (if n.testBit i then result.mul square else result, square.mul square))
    (ofInt 1, x)
  result

def isFinite : Binary64 → Bool
  | finite .. => true
  | _ => false

/-- Whether there is nothing after the point. -/
def isWhole : Binary64 → Bool
  | finite _ steps _ => steps % one == 0
  | _ => false

/-- The integer part of a finite number. -/
def truncated : Binary64 → Int
  | finite negative steps _ => signed negative (steps / one)
  | _ => 0

/-- Whether the number is neither below `least` nor at `limit` or beyond. -/
def isWithin (x least limit : Binary64) : Bool :=
  (least.compare? x).any Ordering.isLE && x.compare? limit == some .lt

end Binary64

end Selection
