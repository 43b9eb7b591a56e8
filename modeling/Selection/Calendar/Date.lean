import Selection.Text.Numeral
import Selection.Text.Scan

/-! # Dates

A date of the proleptic Gregorian calendar is kept as its day number, counted from 1 March of the
year 0, so that a year begins with March and a leap day ends it. The range is that of the years
-262143 to 262142. Year, month and day are computed from the day number and back.
-/

namespace Selection

/-- Year, month and day of the month. -/
structure Civil where
  year : Int
  month : Nat
  day : Nat
deriving DecidableEq

namespace Civil

/-- A year divisible by 4, but of the hundreds only one divisible by 400. -/
def isLeap (year : Int) : Bool :=
  year % 4 == 0 && (year % 100 != 0 || year % 400 == 0)

/-- The number of days of a month. -/
def monthLength (year : Int) (month : Nat) : Nat :=
  if month = 2 then if isLeap year then 29 else 28
  else if month = 4 ∨ month = 6 ∨ month = 9 ∨ month = 11 then 30
  else 31

def IsValid (c : Civil) : Prop :=
  1 ≤ c.month ∧ c.month ≤ 12 ∧ 1 ≤ c.day ∧ c.day ≤ monthLength c.year c.month

instance (c : Civil) : Decidable c.IsValid :=
  inferInstanceAs (Decidable (_ ∧ _))

/-- The number of days since 1 March of the year 0. -/
def dayNumber (c : Civil) : Int :=
  let year := if c.month ≤ 2 then c.year - 1 else c.year
  let month := (c.month + 9) % 12
  365 * year + year / 4 - year / 100 + year / 400 + (153 * month + 2) / 5 + c.day - 1

/-- The year, month and day of a day number. -/
def ofDayNumber (n : Int) : Civil :=
  let ofEra := n % 146097
  let yearOfEra := (ofEra - ofEra / 1460 + ofEra / 36524 - ofEra / 146096) / 365
  let dayOfYear := ofEra - (365 * yearOfEra + yearOfEra / 4 - yearOfEra / 100)
  let month := (5 * dayOfYear + 2) / 153
  let year := n / 146097 * 400 + yearOfEra
  let day := (dayOfYear - (153 * month + 2) / 5 + 1).toNat
  if month < 10 then ⟨year, (month + 3).toNat, day⟩ else ⟨year + 1, (month - 9).toNat, day⟩

end Civil

namespace Date

/-- The first and the last day number of the calendar. -/
def first : Int := Civil.dayNumber ⟨-262143, 1, 1⟩

@[inherit_doc first]
def last : Int := Civil.dayNumber ⟨262142, 12, 31⟩

end Date

/-- A date, kept as its day number. -/
structure Date where
  day : Int
  first_le : Date.first ≤ day
  le_last : day ≤ Date.last
deriving DecidableEq

namespace Date

/-- The date of a day number in the range of the calendar. -/
def ofDay? (day : Int) : Option Date :=
  if h : first ≤ day ∧ day ≤ last then some ⟨day, h.1, h.2⟩ else none

/-- The date of a year, month and day that exist. -/
def ofCivil? (c : Civil) : Option Date :=
  if c.IsValid then ofDay? c.dayNumber else none

def civil (d : Date) : Civil :=
  .ofDayNumber d.day

protected def compare (x y : Date) : Ordering :=
  Ord.compare x.day y.day

/-- The date a number of days later, if the calendar reaches it. -/
def addDays? (d : Date) (days : Int) : Option Date :=
  ofDay? (d.day + days)

/-- Four digits of a year; outside 0 to 9999 a sign and at least four. -/
def yearText (year : Int) : String :=
  if 0 ≤ year ∧ year ≤ 9999 then Numeral.paddedText 4 year.natAbs
  else (if year < 0 then "-" else "+") ++ Numeral.paddedText 4 year.natAbs

/-- The text of a date: `2024-02-29`, `-0001-06-15`, `+10000-01-01`. -/
def text (d : Date) : String :=
  let c := d.civil
  yearText c.year ++ "-" ++ Numeral.paddedText 2 c.month ++ "-" ++ Numeral.paddedText 2 c.day

/-! ## Reading -/

/-- A number of at most `most` digits, blanks before it allowed. -/
def scanField (most : Nat) : Scan Nat := do
  Scan.blanks
  Scan.number 1 most

/-- A year of at most four digits, or with a sign of any number; blanks before it allowed. -/
def scanYear : Scan Int := do
  Scan.blanks
  match ← Scan.peek with
  | some '-' => do
    Scan.char '-'
    return -(Numeral.value (← Scan.digits) : Int)
  | some '+' => do
    Scan.char '+'
    return (Numeral.value (← Scan.digits) : Int)
  | _ => do return (← Scan.number 1 4 : Nat)

/-- A date; `gap` is what may stand before a hyphen. -/
def scan (gap : Scan Unit) : Scan Date := do
  let year ← scanYear
  gap
  Scan.char '-'
  let month ← scanField 2
  gap
  Scan.char '-'
  let day ← scanField 2
  ofCivil? ⟨year, month, day⟩

def read? (cs : List Char) : Option Date :=
  (scan (pure ())).whole? cs

end Date

end Selection
