import Selection.Json.Basic
import Selection.Json.Source

/-! # The value of a JSON text

A source denotes a value unless a string holds a lone surrogate, a number leaves the range of
binary64, or containers nest deeper than 127 levels. An integer of 64 bits, signed or unsigned, is
read exactly. Any other number is read through at most 64 bits of its leading digits and one power
of ten, so its last digit may differ from the nearest one.
-/

namespace Selection.Json

namespace Numeral

/-- Leading digits within 64 bits, and the power of ten that they are to be scaled with. -/
structure Significand where
  digits : Nat
  exponent : Int

/-- Takes the digits of the whole part. From the first that does not fit, each only raises the
exponent. -/
def takeWhole (ds : List Char) : Significand :=
  ds.foldl
    (fun s c =>
      let next := 10 * s.digits + (c.toNat - '0'.toNat)
      if s.exponent = 0 ∧ next < UInt64.size then ⟨next, 0⟩ else ⟨s.digits, s.exponent + 1⟩)
    ⟨0, 0⟩

/-- Takes the digits of the fraction up to the first that does not fit. -/
def takeFraction (s : Significand) : List Char → Significand
  | [] => s
  | c :: rest =>
    let next := 10 * s.digits + (c.toNat - '0'.toNat)
    if next < UInt64.size then takeFraction ⟨next, s.exponent - 1⟩ rest else s

/-- The significand scaled with its power of ten, each step rounded; none beyond the range. -/
def Significand.toBinary64? (s : Significand) (negative : Bool) : Option Binary64 :=
  let steps := Binary64.nearest (s.digits * Binary64.one) 1
  let power (n : Nat) := Binary64.nearest (Numeral.powerOfTen n * Binary64.one) 1
  let divided (steps n : Nat) := Binary64.nearest (steps * Binary64.one) (power n)
  let n := s.exponent.natAbs
  let scaled? : Option Nat :=
    if s.digits = 0 then some 0
    else if 0 ≤ s.exponent then
      if n ≤ 308 then some (Binary64.nearest (steps * power n) Binary64.one) else none
    else if n ≤ 308 then some (divided steps n)
    else if n ≤ 616 then some (divided (divided steps 308) (n - 308))
    else some 0
  scaled?.bind fun steps =>
    match Binary64.ofSteps negative steps with
    | .infinity _ => none
    | x => some x

/-- The exponent that the text gives. -/
def exponentValue (n : Numeral) : Int :=
  match n.exponent with
  | none => 0
  | some (negative, ds) => Binary64.signed negative (Numeral.value ds)

/-- The number read as binary64. -/
def toBinary64? (n : Numeral) : Option Binary64 :=
  let s := takeFraction (takeWhole n.whole) (n.fraction.getD [])
  Significand.toBinary64? ⟨s.digits, s.exponent + n.exponentValue⟩ n.negative

/-- The number of a numeral: an integer when it is written as one and fits 64 bits. A negative zero
is no integer. -/
def toNumber? (n : Numeral) : Option Number :=
  let magnitude := Numeral.value n.whole
  let fits : Bool :=
    if n.negative then 0 < magnitude && magnitude ≤ UInt64.size / 2 else magnitude < UInt64.size
  if n.fraction.isNone && n.exponent.isNone && fits then
    some (.integer (Binary64.signed n.negative magnitude))
  else n.toBinary64?.map .float

end Numeral

/-- The string of its parts. Two code units make a character when they are a surrogate pair. -/
def Part.string? : List Part → Option (List Char)
  | [] => some []
  | .char c :: rest => (string? rest).map (c :: ·)
  | .unit n :: rest =>
    if n < 0xD800 ∨ 0xE000 ≤ n then (string? rest).map (Char.ofNat n :: ·)
    else
      match rest with
      | .unit m :: rest =>
        if n < 0xDC00 ∧ 0xDC00 ≤ m ∧ m < 0xE000 then
          (string? rest).map (Char.ofNat (0x10000 + (n - 0xD800) * 0x400 + (m - 0xDC00)) :: ·)
        else none
      | _ => none

namespace Source

mutual

/-- The value of a source whose containers may nest up to a depth. -/
def value? (depth : Nat) : Source → Option Json
  | null => some .null
  | bool b => some (.bool b)
  | number n => n.toNumber?.map .number
  | string parts => (Part.string? parts).map fun cs => .string (String.ofList cs)
  | array items =>
    match depth with
    | 0 => none
    | depth + 1 => (itemValues? depth items).map .array
  | object members =>
    match depth with
    | 0 => none
    | depth + 1 => (memberValues? depth members).map ofMembers

/-- The values of the items of an array. -/
def itemValues? (depth : Nat) : List Source → Option (List Json)
  | [] => some []
  | item :: rest => do return (← item.value? depth) :: (← itemValues? depth rest)

/-- The values of the members of an object, in the order of the text. -/
def memberValues? (depth : Nat) : List (List Part × Source) → Option (List (String × Json))
  | [] => some []
  | (key, item) :: rest => do
    let key ← Part.string? key
    return (String.ofList key, ← item.value? depth) :: (← memberValues? depth rest)

end

/-- The deepest nesting of containers that is read. -/
def maxDepth : Nat := 127

end Source

/-- Reads the value of a JSON text. -/
def ofText? (s : String) : Option Json := do
  (← Source.read? s.toList).value? Source.maxDepth

end Selection.Json
