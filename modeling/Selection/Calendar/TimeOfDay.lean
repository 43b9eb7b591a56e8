import Selection.Calendar.Duration
import Selection.Text.Scan

/-! # Times of day

A time of day is a second of the day and the nanoseconds since its beginning. A leap second is told
after the 59th second of a minute: it has that second and nanoseconds from `10 ^ 9` on. Adding a
duration wraps around midnight and tells the days that were passed.
-/

namespace Selection

structure TimeOfDay where
  second : Nat
  nano : Nat
  second_lt : second < 86400
  nano_lt : nano < 2000000000
  ends_minute : 1000000000 ≤ nano → second % 60 = 59
deriving DecidableEq

namespace TimeOfDay

def midnight : TimeOfDay :=
  ⟨0, 0, by decide, by decide, by decide⟩

/-- The time of a second of the day that is no leap second, both parts taken into their range. -/
def wrapped (second nano : Nat) : TimeOfDay where
  second := second % 86400
  nano := nano % 1000000000
  second_lt := Nat.mod_lt _ (by decide)
  nano_lt := Nat.lt_trans (Nat.mod_lt _ (by decide)) (by decide)
  ends_minute h := absurd (Nat.mod_lt nano (by decide)) (Nat.not_lt.mpr h)

theorem minute_end_lt (minute : Nat) : minute % 1440 * 60 + 59 < 86400 := by
  omega

theorem minute_end_mod (minute : Nat) : (minute % 1440 * 60 + 59) % 60 = 59 := by
  omega

/-- The leap second at the end of a minute of the day, the nanoseconds taken into their range. -/
def leapSecond (minute nano : Nat) : TimeOfDay where
  second := minute % 1440 * 60 + 59
  nano := 1000000000 + nano % 1000000000
  second_lt := minute_end_lt minute
  nano_lt := Nat.add_lt_add_left (Nat.mod_lt nano (by decide)) 1000000000
  ends_minute _ := minute_end_mod minute

/-- The time of an hour, minute and second; the second 60 is the leap second. -/
def ofClock? (hour minute second nano : Nat) : Option TimeOfDay :=
  if hour ≤ 23 ∧ minute ≤ 59 ∧ second ≤ 60 ∧ nano < 1000000000 then
    let start := hour * 60 + minute
    if second = 60 then some (leapSecond start nano) else some (wrapped (start * 60 + second) nano)
  else none

def isLeap (t : TimeOfDay) : Bool :=
  1000000000 ≤ t.nano

protected def compare (x y : TimeOfDay) : Ordering :=
  (Ord.compare x.second y.second).then (Ord.compare x.nano y.nano)

/-- The time after a number of nanoseconds from midnight, and the days passed. -/
def ofNanos (n : Int) : TimeOfDay × Int :=
  let ofDay := (n % 86400000000000).toNat
  (wrapped (ofDay / 1000000000) (ofDay % 1000000000), n / 86400000000000)

/-- The time a duration later, and the days passed. A leap second is left when a whole second or the
end of the leap second is reached; on the way forward it takes no time of its own. -/
def add (t : TimeOfDay) (d : Duration) : TimeOfDay × Int :=
  if t.isLeap ∧ d.nanos.natAbs < 1000000000 ∧ t.nano + d.nanos < 2000000000 then
    let nano := (t.nano + d.nanos).toNat
    (if 1000000000 ≤ nano then leapSecond (t.second / 60) nano else wrapped t.second nano, 0)
  else
    let leap : Int := if t.isLeap ∧ 0 < d.nanos then 1000000000 else 0
    ofNanos (t.second * 1000000000 + t.nano + d.nanos - leap)

theorem toNat_mod_lt (n : Int) : (n % 86400).toNat < 86400 := by
  omega

theorem shifted_mod (second : Nat) (minutes : Int) :
    ((second + 60 * minutes) % 86400).toNat % 60 = second % 60 := by
  omega

/-- The time on a clock set forward by some minutes, and the days passed. A leap second stays
one. -/
def shift (t : TimeOfDay) (minutes : Int) : TimeOfDay × Int :=
  let total := t.second + 60 * minutes
  ({ t with
      second := (total % 86400).toNat
      second_lt := toNat_mod_lt total
      ends_minute := fun h => (shifted_mod t.second minutes).trans (t.ends_minute h) },
    total / 86400)

/-! ## Writing -/

/-- Hours, minutes and seconds; a leap second is the second 60. -/
def clockText (t : TimeOfDay) : String :=
  Numeral.paddedText 2 (t.second / 3600) ++ ":" ++ Numeral.paddedText 2 (t.second / 60 % 60) ++
    ":" ++ Numeral.paddedText 2 (t.second % 60 + t.nano / 1000000000)

/-- A fraction of three, six or nine digits, the fewest that are enough, or none. -/
def fractionText (nano : Nat) : String :=
  if nano = 0 then ""
  else if nano % 1000000 = 0 then "." ++ Numeral.paddedText 3 (nano / 1000000)
  else if nano % 1000 = 0 then "." ++ Numeral.paddedText 6 (nano / 1000)
  else "." ++ Numeral.paddedText 9 nano

/-- The text of a time: `06:30:00`, `06:30:00.250`. -/
def text (t : TimeOfDay) : String :=
  t.clockText ++ fractionText (t.nano % 1000000000)

def millisText (t : TimeOfDay) : String :=
  t.clockText ++ "." ++ Numeral.paddedText 3 (t.nano % 1000000000 / 1000000)

/-! ## Reading -/

/-- A number of one or two digits, blanks before it allowed. -/
def scanField : Scan Nat := do
  Scan.blanks
  Scan.number 1 2

/-- The nanoseconds of an optional fraction; digits after the ninth are dropped. -/
def scanFraction : Scan Nat := do
  match ← Scan.peek with
  | some '.' => do
    Scan.char '.'
    let ds ← Scan.digits
    return Numeral.value (ds.take 9) * Numeral.powerOfTen (9 - ds.length)
  | _ => return 0

/-- Hours, minutes and seconds with an optional fraction; `field` reads each number and `gap` is
what may stand before a colon. -/
def scan (field : Scan Nat) (gap : Scan Unit) : Scan TimeOfDay := do
  let hour ← field
  gap
  Scan.char ':'
  let minute ← field
  gap
  Scan.char ':'
  let second ← field
  let nano ← scanFraction
  ofClock? hour minute second nano

/-- Hours and minutes alone. -/
def scanShort : Scan TimeOfDay := do
  let hour ← scanField
  Scan.char ':'
  let minute ← scanField
  ofClock? hour minute 0 0

def read? (cs : List Char) : Option TimeOfDay :=
  (scan scanField (pure ())).whole? cs

def readShort? (cs : List Char) : Option TimeOfDay :=
  scanShort.whole? cs

end TimeOfDay

end Selection
