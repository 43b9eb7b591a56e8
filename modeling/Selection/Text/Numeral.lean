/-! # Decimal numerals

Natural numbers written with the digits `0` to `9`, without leading zeros or padded to a width,
and read back from a non-empty run of digits.
-/

namespace Selection.Numeral

/-- The decimal digits of a number, most significant first. -/
def digits (n : Nat) : List Char :=
  if n < 10 then [n.digitChar] else digits (n / 10) ++ [(n % 10).digitChar]
termination_by n

/-- The number that a list of digit characters denotes. -/
def value (cs : List Char) : Nat :=
  cs.foldl (fun n c => 10 * n + (c.toNat - '0'.toNat)) 0

/-- Reads a numeral: a non-empty list of digits and nothing else. -/
def read? (cs : List Char) : Option Nat :=
  if cs.isEmpty || !cs.all Char.isDigit then none else some (value cs)

/-- The power of ten that is written as a one and `n` zeros. -/
def powerOfTen (n : Nat) : Nat :=
  Nat.pow 10 n

/-- The numeral with zeros in front up to a width. -/
def padded (width n : Nat) : List Char :=
  let ds := digits n
  List.replicate (width - ds.length) '0' ++ ds

/-- The numeral of a natural number as text. -/
def text (n : Nat) : String :=
  String.ofList (digits n)

/-- The padded numeral as text. -/
def paddedText (width n : Nat) : String :=
  String.ofList (padded width n)

/-- The numeral of an integer: a minus sign before a negative one. -/
def ofInt : Int → String
  | .ofNat n => text n
  | .negSucc n => "-" ++ text (n + 1)

/-- The digits without the zeros at their end. -/
def dropTrailingZeros (cs : List Char) : List Char :=
  (cs.reverse.dropWhile (· == '0')).reverse

end Selection.Numeral
