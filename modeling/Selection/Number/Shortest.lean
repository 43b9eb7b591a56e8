import Selection.Number.Binary64

/-! # The shortest decimal of a binary64 number

A finite number is written with the fewest decimal digits that read back as the same number, and of
these the ones nearest to it. The digits are found on the decimal grids of 1 to 17 digits, coarsest
first: if a grid has a point that reads back, one of the two neighbours of the number on it does.
Two notations place the point: the positional one and the JSON one.
-/

namespace Selection.Binary64

/-- Where a decimal lies that is as near to the number as its other neighbour. -/
inductive TieBreak where
  | up
  | toEven
deriving DecidableEq

/-- The decimal digits of a positive number and the place of its point: the value is
`0.d₁d₂… * 10 ^ point`. -/
structure Decimals where
  digits : List Char
  point : Int

namespace Shortest

/-- Four times the end below and above of the reals that round to a magnitude, in steps. Below a
power of two the steps are half as long. -/
def bounds (steps : Nat) : Nat × Nat :=
  let unit := 1 <<< (steps.log2 - 52)
  let below := if steps = 1 <<< steps.log2 ∧ 1 < unit then unit else 2 * unit
  (4 * steps - below, 4 * steps + 2 * unit)

/-- Whether `digits * 10 ^ exponent` rounds to the magnitude; the ends do when its significand is
even. -/
def readsBack (steps digits : Nat) (exponent : Int) : Bool :=
  let (low, high) := bounds steps
  let point := digits * Numeral.powerOfTen exponent.toNat * (4 * one)
  let scale := Numeral.powerOfTen (-exponent).toNat
  if steps / (1 <<< (steps.log2 - 52)) % 2 = 0 then low * scale ≤ point && point ≤ high * scale
  else low * scale < point && point < high * scale

/-- The decimal exponent of the leading digit of a positive magnitude. -/
def leadingExponent (steps : Nat) : Int :=
  ((Numeral.digits (steps * Numeral.powerOfTen 324 / one)).length : Int) - 325

/-- Whether the part `rem / den` of a grid step left above the digit `d` rounds it up. -/
def roundsUp (tie : TieBreak) (d rem den : Nat) : Bool :=
  match compare (2 * rem) den with
  | .lt => false
  | .gt => true
  | .eq => tie == .up || d % 2 == 1

/-- The neighbour on the grid of `10 ^ exponent` that reads back, the nearer one of two. -/
def onGrid? (tie : TieBreak) (steps : Nat) (exponent : Int) : Option Nat :=
  let num := steps * Numeral.powerOfTen (-exponent).toNat
  let den := one * Numeral.powerOfTen exponent.toNat
  let d := num / den
  match readsBack steps d exponent, readsBack steps (d + 1) exponent with
  | true, true => some (if roundsUp tie d (num % den) den then d + 1 else d)
  | true, false => some d
  | false, true => some (d + 1)
  | false, false => none

/-- The shortest decimal of a positive magnitude. -/
def ofSteps (tie : TieBreak) (steps : Nat) : Decimals :=
  let lead := leadingExponent steps
  let found := (List.range 17).findSome? fun (k : Nat) =>
    (onGrid? tie steps (lead - k)).map fun d => (d, lead - k)
  let (d, exponent) := found.getD (steps, -1074)
  let ds := Numeral.digits d
  ⟨Numeral.dropTrailingZeros ds, ds.length + exponent⟩

end Shortest

/-- Digits with the point at its place and no exponent. A whole number takes `whole` at its end. -/
def Decimals.positional (x : Decimals) (whole : List Char) : List Char :=
  let n := x.digits.length
  if x.point ≤ 0 then '0' :: '.' :: List.replicate (-x.point).toNat '0' ++ x.digits
  else if n ≤ x.point then x.digits ++ List.replicate (x.point.toNat - n) '0' ++ whole
  else x.digits.take x.point.toNat ++ '.' :: x.digits.drop x.point.toNat

/-- One digit, the point, the others, and the exponent with its sign. -/
def Decimals.exponential (x : Decimals) : List Char :=
  let exponent := x.point - 1
  let mantissa :=
    match x.digits with
    | d :: rest@(_ :: _) => d :: '.' :: rest
    | ds => ds
  mantissa ++ 'e' :: (if exponent < 0 then '-' else '+') :: Numeral.digits exponent.natAbs

/-- The sign before a magnitude. -/
def withSign (negative : Bool) (cs : List Char) : String :=
  String.ofList (if negative then '-' :: cs else cs)

/-- The number without an exponent: `1`, `0.0000001`, `-0`, `NaN`, `inf`. A tie goes up. -/
def text : Binary64 → String
  | nan => "NaN"
  | infinity negative => withSign negative "inf".toList
  | finite negative steps _ =>
    withSign negative <|
      if steps = 0 then ['0'] else (Shortest.ofSteps .up steps).positional []

/-- The number as a JSON numeral, always with a point or an exponent: the exponent is written from
`1e+16` up and below `0.00001`. A tie goes to the even digit. -/
def jsonText? : Binary64 → Option String
  | finite negative steps _ =>
    some <| withSign negative <|
      if steps = 0 then "0.0".toList
      else
        let x := Shortest.ofSteps .toEven steps
        if -5 < x.point ∧ x.point ≤ 16 then x.positional ".0".toList else x.exponential
  | _ => none

end Selection.Binary64
