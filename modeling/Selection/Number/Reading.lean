import Selection.Number.Binary64
import Selection.Text.Scan

/-! # Reading binary64 numbers

A number is read from digits with an optional sign, point and exponent, or from the words `inf`,
`infinity` and `nan`, whose case does not matter. It is the number nearest to the decimal.
-/

namespace Selection.Binary64

/-- The exponent after its letter: digits with an optional sign. -/
def scanExponent : Scan Int := do
  match ← Scan.peek with
  | some '-' => do
    Scan.char '-'
    return -(Numeral.value (← Scan.digits) : Int)
  | some '+' => do
    Scan.char '+'
    return (Numeral.value (← Scan.digits) : Int)
  | _ => do return (Numeral.value (← Scan.digits) : Int)

/-- Takes the digits at the front, possibly none. -/
def someDigits : Scan (List Char) := fun cs =>
  some (cs.takeWhile Char.isDigit, cs.dropWhile Char.isDigit)

/-- The digits of a decimal and its exponent. -/
def scanDecimal : Scan (Nat × Int) := do
  let whole ← someDigits
  let fraction ←
    if (← Scan.peek) == some '.' then do
      Scan.char '.'
      someDigits
    else pure []
  guard (!whole.isEmpty || !fraction.isEmpty)
  let exponent ←
    match ← Scan.peek with
    | some 'e' | some 'E' => do
      discard <| Scan.one fun _ => true
      scanExponent
    | _ => pure 0
  return (Numeral.value (whole ++ fraction), exponent - fraction.length)

def readMagnitude? (negative : Bool) (cs : List Char) : Option Binary64 :=
  let word := Text.lowerAscii cs
  if word = "inf".toList ∨ word = "infinity".toList then some (infinity negative)
  else if word = "nan".toList then some nan
  else (scanDecimal.whole? cs).map fun (digits, exponent) => ofScientific negative digits exponent

def read? : List Char → Option Binary64
  | '-' :: cs => readMagnitude? true cs
  | '+' :: cs => readMagnitude? false cs
  | cs => readMagnitude? false cs

end Selection.Binary64
