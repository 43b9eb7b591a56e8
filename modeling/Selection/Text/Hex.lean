/-! # Hexadecimal digits

Numbers written with the digits `0` to `9` and `a` to `f`, and the value of a digit of either case.
-/

namespace Selection.Hex

def value? (c : Char) : Option Nat :=
  if c.isDigit then some (c.toNat - '0'.toNat)
  else
    let n := c.toLower.toNat
    if 'a'.toNat ≤ n ∧ n ≤ 'f'.toNat then some (n - 'a'.toNat + 10) else none

/-- The digits of a number without leading zeros. -/
def digits (n : Nat) : List Char :=
  Nat.toDigits 16 n

/-- The last `width` digits of a number. -/
def lastDigits (width n : Nat) : List Char :=
  (List.range width).map fun i => ((n >>> (4 * (width - 1 - i))) % 16).digitChar

end Selection.Hex
