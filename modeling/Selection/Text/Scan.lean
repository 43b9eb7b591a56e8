import Selection.Text.Blank
import Selection.Text.Numeral

/-! # Scanning

A scan takes a value off the front of a text and leaves the rest, or fails. Scans run one after the
other in `do` blocks; `Scan.whole?` asks that nothing is left.
-/

namespace Selection

/-- Takes a value off the front of a text. -/
abbrev Scan (α : Type) := StateT (List Char) Option α

namespace Scan

/-- The value of a scan that uses up the text. -/
def whole? {α : Type} (scan : Scan α) (cs : List Char) : Option α :=
  match scan.run cs with
  | some (a, []) => some a
  | _ => none

/-- The character at the front, if any, left in place. -/
def peek : Scan (Option Char) := fun cs => some (cs.head?, cs)

/-- Takes one character that `p` accepts. -/
def one (p : Char → Bool) : Scan Char := fun
  | c :: rest => if p c then some (c, rest) else none
  | [] => none

def char (c : Char) : Scan Unit :=
  discard (one (· == c))

/-- Takes the blanks at the front, if any. -/
def blanks : Scan Unit := fun cs => some ((), Text.trimStart cs)

/-- Takes all digits at the front, at least one. -/
def digits : Scan (List Char) := fun cs =>
  match cs.takeWhile Char.isDigit with
  | [] => none
  | ds => some (ds, cs.dropWhile Char.isDigit)

/-- Takes the digits at the front, at least `least` and at most `most` of them. -/
def number (least most : Nat) : Scan Nat := fun cs =>
  let ds := (cs.take most).takeWhile Char.isDigit
  if ds.length < least then none else some (Numeral.value ds, cs.drop ds.length)

end Scan

end Selection
