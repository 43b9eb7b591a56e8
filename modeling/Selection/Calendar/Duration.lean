import Selection.Text.Blank
import Selection.Text.Numeral

/-! # Durations

A duration is a signed count of nanoseconds within `2 ^ 63 - 1` milliseconds on either side of
zero. It has two texts, the time span `[-][d.]hh:mm:ss[.fff]` and the ISO form `[-]PnDTnHnMnS`, and
one reader accepts both.
-/

namespace Selection

/-- The nanoseconds of the longest duration. -/
def Duration.limit : Nat :=
  9223372036854775807 * 1000000

/-- A signed length of time. -/
structure Duration where
  nanos : Int
  within : nanos.natAbs ≤ Duration.limit
deriving DecidableEq

namespace Duration

/-- The duration of a count of nanoseconds within the limit. -/
def ofNanos? (nanos : Int) : Option Duration :=
  if h : nanos.natAbs ≤ limit then some ⟨nanos, h⟩ else none

protected def compare (x y : Duration) : Ordering :=
  Ord.compare x.nanos y.nanos

/-- The sum, if it lies within the limit. -/
def add? (x y : Duration) : Option Duration :=
  ofNanos? (x.nanos + y.nanos)

/-- The duration in the other direction. -/
def neg (x : Duration) : Duration :=
  ⟨-x.nanos, by rw [Int.natAbs_neg]; exact x.within⟩

/-! ## Parts -/

/-- Days, hours, minutes, seconds and nanoseconds of a length of time. -/
structure Parts where
  days : Nat
  hours : Nat
  minutes : Nat
  seconds : Nat
  nanos : Nat
deriving DecidableEq

namespace Parts

/-- The length of time in nanoseconds. -/
def total (p : Parts) : Nat :=
  (((p.days * 24 + p.hours) * 60 + p.minutes) * 60 + p.seconds) * 1000000000 + p.nanos

/-- The parts of a length of time, all but the days as on a clock. -/
def ofNanos (n : Nat) : Parts :=
  let seconds := n / 1000000000
  ⟨seconds / 86400, seconds / 3600 % 24, seconds / 60 % 60, seconds % 60, n % 1000000000⟩

end Parts

def parts (x : Duration) : Parts :=
  .ofNanos x.nanos.natAbs

/-! ## Writing -/

/-- The minus sign of a negative duration. -/
def sign (x : Duration) : List Char :=
  if x.nanos < 0 then ['-'] else []

/-- The fraction of a time span: none, seven digits when these are enough, or nine. -/
def spanFraction (nanos : Nat) : List Char :=
  if nanos = 0 then []
  else if nanos % 100 = 0 then '.' :: Numeral.padded 7 (nanos / 100)
  else '.' :: Numeral.padded 9 nanos

def Parts.span (p : Parts) : List Char :=
  (if p.days = 0 then [] else Numeral.digits p.days ++ ['.']) ++
    Numeral.padded 2 p.hours ++ ':' :: Numeral.padded 2 p.minutes ++
    ':' :: Numeral.padded 2 p.seconds ++ spanFraction p.nanos

/-- The time-span text, such as `1.02:03:04.5000000`. -/
def span (x : Duration) : String :=
  String.ofList (x.sign ++ x.parts.span)

/-- A number before its designator, left out when zero. -/
def designated (n : Nat) (unit : Char) : List Char :=
  if n = 0 then [] else Numeral.digits n ++ [unit]

/-- Seconds and their fraction without zeros at the end, left out when zero. -/
def isoSeconds (seconds nanos : Nat) : List Char :=
  if seconds = 0 ∧ nanos = 0 then []
  else if nanos = 0 then Numeral.digits seconds ++ ['S']
  else
    Numeral.digits seconds ++
      '.' :: Numeral.dropTrailingZeros (Numeral.padded 9 nanos) ++ ['S']

/-- The ISO form of the magnitude after its `P`. -/
def Parts.iso (p : Parts) : List Char :=
  let clock := designated p.hours 'H' ++ designated p.minutes 'M' ++ isoSeconds p.seconds p.nanos
  if clock = [] then if p.days = 0 then ['T', '0', 'S'] else designated p.days 'D'
  else designated p.days 'D' ++ 'T' :: clock

/-- The ISO text, such as `P1DT2H3M4.5S`; unlike a time span it is never a time of day. -/
def iso (x : Duration) : String :=
  String.ofList (x.sign ++ 'P' :: x.parts.iso)

/-! ## Reading -/

/-- A number of the text; one beyond 63 bits is refused wherever it stands. -/
def readNumber? (cs : List Char) : Option Nat :=
  (Numeral.read? cs).filter (· < 9223372036854775808)

/-- Seconds with an optional fraction of one to nine digits. -/
def readSeconds? (cs : List Char) : Option (Nat × Nat) :=
  match Text.cutAt (· == '.') cs with
  | none => do return (← readNumber? cs, 0)
  | some (whole, fraction) =>
    if 9 < fraction.length then none
    else do
      let nanos := (← readNumber? fraction) * Numeral.powerOfTen (9 - fraction.length)
      return (← readNumber? whole, nanos)

/-- A time of day as `hh:mm` or `hh:mm:ss` with an optional fraction, after a number of days. -/
def readClock? (days : Nat) (cs : List Char) : Option Parts := do
  let (hours, minutes, seconds, nanos) ←
    match Text.pieces ':' cs with
    | [h, m] => pure (← readNumber? h, ← readNumber? m, 0, 0)
    | [h, m, s] =>
      let (seconds, nanos) ← readSeconds? s
      pure (← readNumber? h, ← readNumber? m, seconds, nanos)
    | _ => none
  guard (hours ≤ 23 ∧ minutes ≤ 59 ∧ seconds ≤ 59)
  return ⟨days, hours, minutes, seconds, nanos⟩

/-- A time span: a clock, days before a point and a clock, or days alone. -/
def readSpan? (cs : List Char) : Option Parts :=
  if !cs.contains ':' then do return ⟨← readNumber? cs, 0, 0, 0, 0⟩
  else
    match Text.cutAt (· == '.') cs with
    | some (days, clock) =>
      if days.contains ':' then readClock? 0 cs
      else do readClock? (← readNumber? days) clock
    | none => readClock? 0 cs

/-- Whether a character belongs to a number of the ISO form. -/
def isIsoNumber (c : Char) : Bool :=
  c.isDigit || c == '.'

/-- The designated numbers after the `T`, put into their parts; of a repeated designator the last
number counts. -/
def readIsoClock? (p : Parts) (cs : List Char) : Option Parts :=
  if h : cs = [] then some p
  else
    let number := cs.takeWhile isIsoNumber
    match hrest : cs.dropWhile isIsoNumber with
    | [] => none
    | unit :: rest =>
      have : rest.length < cs.length := by
        have := (List.dropWhile_sublist isIsoNumber (l := cs)).length_le
        simp only [hrest, List.length_cons] at this
        omega
      match unit.toUpper with
      | 'H' => do readIsoClock? { p with hours := ← readNumber? number } rest
      | 'M' => do readIsoClock? { p with minutes := ← readNumber? number } rest
      | 'S' => do
        let (seconds, nanos) ← readSeconds? number
        readIsoClock? { p with seconds, nanos } rest
      | _ => none
termination_by cs.length

/-- The days before the `T`, if any. -/
def readIsoDays? (cs : List Char) : Option Nat :=
  match cs.reverse with
  | [] => some 0
  | unit :: ds => if unit.toUpper = 'D' then readNumber? ds.reverse else none

/-- The ISO form after its `P`. -/
def readIso? (cs : List Char) : Option Parts :=
  match Text.cutAt (·.toUpper == 'T') cs with
  | none => if cs.isEmpty then none else do return ⟨← readIsoDays? cs, 0, 0, 0, 0⟩
  | some (days, clock) =>
    if clock.isEmpty then none else do readIsoClock? ⟨← readIsoDays? days, 0, 0, 0, 0⟩ clock

/-- The magnitude in either form. -/
def readParts? : List Char → Option Parts
  | [] => none
  | c :: rest => if c.toUpper = 'P' then readIso? rest else readSpan? (c :: rest)

/-- Reads a duration in either form, blanks around it and a minus sign before it allowed. -/
def read? (cs : List Char) : Option Duration := do
  let (negative, body) :=
    match Text.trim cs with
    | '-' :: body => (true, body)
    | body => (false, body)
  let total := (← readParts? body).total
  ofNanos? (if negative then -(total : Int) else total)

def ofText? (s : String) : Option Duration :=
  read? s.toList

end Duration

end Selection
