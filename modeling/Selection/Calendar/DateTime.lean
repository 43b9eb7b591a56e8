import Selection.Calendar.Date
import Selection.Calendar.TimeOfDay

/-! # Dates with a time

A date-time is a date and a time of day. It stands for a local time where no zone is told, and for
an instant in UTC where one is. The local zone is UTC, so the two convert without change.
-/

namespace Selection

structure DateTime where
  date : Date
  time : TimeOfDay
deriving DecidableEq

namespace DateTime

def ofDate (d : Date) : DateTime :=
  ⟨d, .midnight⟩

def startOfDay (t : DateTime) : DateTime :=
  .ofDate t.date

protected def compare (x y : DateTime) : Ordering :=
  (x.date.compare y.date).then (x.time.compare y.time)

/-- The date-time a duration later, if the calendar reaches it. -/
def add? (t : DateTime) (d : Duration) : Option DateTime := do
  let (time, days) := t.time.add d
  return ⟨← t.date.addDays? days, time⟩

/-- The date-time of a clock set forward by some minutes, if the calendar reaches it. -/
def shift? (t : DateTime) (minutes : Int) : Option DateTime := do
  let (time, days) := t.time.shift minutes
  return ⟨← t.date.addDays? days, time⟩

/-- The text of a local date-time: `2024-03-10T12:00:00.500`. -/
def text (t : DateTime) : String :=
  t.date.text ++ "T" ++ t.time.text

/-- The text of an instant, with the offset of UTC. -/
def utcText (t : DateTime) : String :=
  t.text ++ "+00:00"

/-! ## Reading -/

/-- A date-time with `separator` between date and time. -/
def scan (separator : Scan Unit) : Scan DateTime := do
  let date ← Date.scan (pure ())
  separator
  return ⟨date, ← TimeOfDay.scan TimeOfDay.scanField (pure ())⟩

/-- Reads a local date-time with a `T`, or else with blanks, between date and time. -/
def read? (cs : List Char) : Option DateTime :=
  (scan (Scan.char 'T')).whole? cs <|> (scan Scan.blanks).whole? cs

/-- A local date-time with a `T`, blanks before every separator and at the end allowed. -/
def spaced : Scan DateTime := do
  let date ← Date.scan Scan.blanks
  Scan.blanks
  Scan.char 'T'
  let time ← TimeOfDay.scan TimeOfDay.scanField Scan.blanks
  Scan.blanks
  return ⟨date, time⟩

/-- Reads a local date-time with a `T`, blanks before every separator and at the end allowed. -/
def readSpaced? (cs : List Char) : Option DateTime :=
  spaced.whole? cs

/-- The offset of a zone in minutes: `Z`, or a sign, two digits of hours and two of minutes. -/
def scanOffset : Scan Int := do
  let c ← Scan.one fun c => c == 'Z' || c == 'z' || c == '+' || c == '-' || c == '\u2212'
  if c == 'Z' || c == 'z' then return 0
  let hours ← Scan.number 2 2
  Scan.char ':'
  let minutes ← Scan.number 2 2
  guard (hours ≤ 23 ∧ minutes ≤ 59)
  let offset : Int := hours * 60 + minutes
  return if c == '+' then offset else -offset

/-- An instant: digits of fixed width, a `T` or one space between date and time, and the offset of
its zone, which is taken off. -/
def instant : Scan DateTime := do
  let year ← Scan.number 4 4
  Scan.char '-'
  let month ← Scan.number 2 2
  Scan.char '-'
  let date ← Date.ofCivil? ⟨year, month, ← Scan.number 2 2⟩
  discard <| Scan.one fun c => c == 'T' || c == 't' || c == ' '
  let time ← TimeOfDay.scan (Scan.number 2 2) (pure ())
  shift? ⟨date, time⟩ (-(← scanOffset))

def readInstant? (cs : List Char) : Option DateTime :=
  instant.whole? cs

end DateTime

end Selection
