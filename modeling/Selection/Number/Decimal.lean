import Selection.Number.Binary64
import Selection.Text.Blank
import Selection.Text.Numeral

/-! # Decimals of any precision

A decimal is an integer of digits and a scale, the number of digits after its point; it denotes
`digits * 10 ^ (-scale)`. The scale is kept as it was given, so `1.50` and `1.5` are one number in
two writings: order and equality are those of the number, the text shows the writing. A scale has
64 bits.
-/

namespace Selection

/-- A decimal number with the scale in which it was given. -/
structure Decimal where
  digits : Int
  scale : Int
  min_le_scale : Int64.minValue.toInt ≤ scale := by decide
  scale_le_max : scale ≤ Int64.maxValue.toInt := by decide
deriving DecidableEq

namespace Decimal

/-- The decimal of some digits and a scale that has 64 bits. -/
def ofScale? (digits scale : Int) : Option Decimal :=
  if h : Int64.minValue.toInt ≤ scale ∧ scale ≤ Int64.maxValue.toInt then
    some ⟨digits, scale, h.1, h.2⟩
  else none

/-- The decimal of an integer. -/
def ofInt (n : Int) : Decimal :=
  ⟨n, 0, by decide, by decide⟩

/-- The digits brought to a scale that is not smaller. -/
def digitsAt (x : Decimal) (scale : Int) : Int :=
  x.digits * Numeral.powerOfTen (scale - x.scale).toNat

/-- The digits scaled by a power of ten, or by one that already takes any digits but zero beyond
`limit`. -/
def digitsBeyond (x : Decimal) (exponent : Int) (limit : Nat) : Int :=
  x.digits * Numeral.powerOfTen (min exponent.toNat (limit.log2 + 1))

/-- The order of the numbers, whatever their scales. The digits are brought to one scale, as far as
the digits on the other side leave the order open. -/
protected def compare (x y : Decimal) : Ordering :=
  Ord.compare (x.digitsBeyond (y.scale - x.scale) y.digits.natAbs)
    (y.digitsBeyond (x.scale - y.scale) x.digits.natAbs)

/-- The sum, at the larger of the two scales. -/
def add (x y : Decimal) : Decimal :=
  let scale := max x.scale y.scale
  { digits := x.digitsAt scale + y.digitsAt scale
    scale
    min_le_scale := Int.le_trans x.min_le_scale (Int.le_max_left _ _)
    scale_le_max := Int.max_le.mpr ⟨x.scale_le_max, y.scale_le_max⟩ }

/-- Whether the number is an integer, in whatever writing. -/
def isInteger (x : Decimal) : Bool :=
  x.scale ≤ 0 || x.digits % Numeral.powerOfTen x.scale.toNat == 0

/-- The integer part. -/
def truncated (x : Decimal) : Int :=
  if x.scale ≤ 0 then x.digitsAt 0 else x.digits.tdiv (Numeral.powerOfTen x.scale.toNat)

/-- The exact decimal of a finite binary64 number, with no more digits than it needs. -/
def ofBinary64? : Binary64 → Option Decimal
  | .finite negative steps _ =>
    let places := (Binary64.one / Nat.gcd steps Binary64.one).log2
    ofScale? (Binary64.signed negative (steps * Numeral.powerOfTen places / Binary64.one)) places
  | _ => none

/-! ## Text -/

/-- Whether a writing begins with `0.` and more than five zeros. -/
def isTiny (x : Decimal) : Bool :=
  x.scale > (Numeral.digits x.digits.natAbs).length + 5

/-- The magnitude without an exponent. -/
def positional (x : Decimal) : List Char :=
  let ds := Numeral.digits x.digits.natAbs
  if x.scale ≤ 0 then ds ++ List.replicate (-x.scale).toNat '0'
  else
    let ds := List.replicate (x.scale.toNat + 1 - ds.length) '0' ++ ds
    let whole := ds.length - x.scale.toNat
    ds.take whole ++ '.' :: ds.drop whole

def exponentText (exponent : Int) : List Char :=
  (if exponent < 0 then '-' else '+') :: Numeral.digits exponent.natAbs

/-- The magnitude in the notation of the decimal: `0` for every zero, one digit before the point and
an `E` below `0.000001`, an `e` for more than 15 zeros at the end, and all digits otherwise. -/
def magnitudeText (x : Decimal) : List Char :=
  let ds := Numeral.digits x.digits.natAbs
  if x.digits = 0 then ['0']
  else if x.isTiny then
    let mantissa :=
      match ds with
      | d :: rest@(_ :: _) => d :: '.' :: rest
      | ds => ds
    mantissa ++ 'E' :: exponentText (ds.length - 1 - x.scale)
  else if x.scale < -15 then ds ++ 'e' :: exponentText (-x.scale)
  else x.positional

/-- The decimal as text. -/
def text (x : Decimal) : String :=
  String.ofList (if x.digits < 0 then '-' :: x.magnitudeText else x.magnitudeText)

/-- Reads digits that begin with one and may hold underscores. -/
def readDigits? (cs : List Char) : Option Nat :=
  if cs.head? = some '_' then none else Numeral.read? (cs.filter (· != '_'))

def readSigned? : List Char → Option Int
  | '-' :: cs => (readDigits? cs).map fun n => -(n : Int)
  | '+' :: cs => (readDigits? cs).map fun n => (n : Int)
  | cs => (readDigits? cs).map fun n => (n : Int)

/-- Reads an exponent: digits with an optional sign. -/
def readExponent? : List Char → Option Int
  | '-' :: cs => (Numeral.read? cs).map fun n => -(n : Int)
  | '+' :: cs => (Numeral.read? cs).map fun n => (n : Int)
  | cs => (Numeral.read? cs).map fun n => (n : Int)

/-- The digits of a base without its first point, and the number of places after it. The sign is
looked for after the point is taken out, and counts as a place when it stood behind the point. -/
def splitPoint (base : List Char) : List Char × Nat :=
  match Text.cutAt (· == '.') base with
  | none => (base, 0)
  | some (whole, places) => (whole ++ places, (places.filter (· != '_')).length)

/-- Reads a decimal: digits with an optional sign, point and exponent. A scale beyond 64 bits is
refused. -/
def read? (cs : List Char) : Option Decimal := do
  let (base, exponent) ←
    match Text.cutAt (fun c => c == 'e' || c == 'E') cs with
    | none => pure (cs, 0)
    | some (base, exponent) => pure (base, ← readExponent? exponent)
  let (ds, places) := splitPoint base
  ofScale? (← readSigned? ds) (places - exponent)

end Decimal

end Selection
