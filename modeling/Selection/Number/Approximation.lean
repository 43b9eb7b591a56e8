import Selection.Number.Decimal

/-! # The binary64 number that stands for a decimal

A decimal that is compared with a float, or set into a field of floats, is first taken to a binary64
number. It is a close one, not always the nearest: the bits of a long integer are looked at in
words, long digits lose blocks at their end, and a power of ten is multiplied up in rounded steps.
-/

namespace Selection

namespace Binary64

/-- Whether one of the 64-bit words of a number has a bit among its `width` lowest. -/
def anyLowBit (width n : Nat) : Bool :=
  (List.range (n.log2 / 64 + 1)).any fun i => (n >>> (64 * i)) % (1 <<< width) != 0

/-- The number of an integer, read through its leading 64 bits and rounded once. The last of them is
set when a bit is found below; in each word after the first, the search covers only as many of the
lowest bits as the first word has. -/
def ofLeadingBits (negative : Bool) (n : Nat) : Binary64 :=
  let size := n.log2 + 1
  let first := n.log2 % 64 + 1
  let below := size - 64
  let leading := n >>> below
  let isInexact := anyLowBit first (n % (1 <<< (size - first)))
  ofSteps negative (nearest ((if isInexact then leading ||| 1 else leading) * one) 1 <<< below)

end Binary64

namespace Decimal

/-- The number of decimal digits as estimated from the number of bits: it is never too large, and
too small by one at most. The factor is the logarithm of 2 to the base 10. -/
def estimatedLength (n : Nat) : Nat :=
  (n.log2 + 2) * 30102999566398 / 100000000000000

/-- The digits and the scale without the blocks of nineteen digits at the end that leave 25 digits
or more, by the estimate. -/
def shortened (x : Decimal) : Int × Int :=
  let blocks := (estimatedLength x.digits.natAbs - 25) / 19
  (x.digits.tdiv (Numeral.powerOfTen (19 * blocks)), x.scale - 19 * blocks)

/-- The binary64 number that stands for the decimal. An integer without an exponent is read through
its leading bits. Any other decimal is shortened first; then it is rounded once if it has places
after its point, and else multiplied by the power of ten. A scale beyond 32 bits gives an infinity,
even to a number close to zero. -/
def toBinary64 (x : Decimal) : Binary64 :=
  let negative : Bool := x.digits < 0
  let (digits, scale) := x.shortened
  if x.digits = 0 ∨ x.scale = 0 then .ofLeadingBits negative x.digits.natAbs
  else if Int32.maxValue.toInt < scale.natAbs then .infinity negative
  else if 0 < scale then .ofScientific negative digits.natAbs (-scale)
  else
    (Binary64.ofLeadingBits negative digits.natAbs).mul
      ((Binary64.ofInt 10).power scale.natAbs)

end Decimal

end Selection
