import Selection.Pattern.Basic

/-! # Regular expressions

The expressions that patterns are written as: between the anchors of both ends, characters with a
backslash before them or none, dots, dots that repeat, and classes. The expression library reads a
class from the left. Two characters with a bare hyphen between them are a range, two bare hyphens
in a row take what follows away from what came before, and any other bare hyphen is a character. A
range whose first character comes after its last is refused, with a note of where it stands.

Only these expressions have a meaning here. What else the library knows (groups, repetition of a
character, character classes by name, its limit on the size of an expression) has none.
-/

namespace Selection.Regex

open Pattern (Range CharSet Part)

/-! ## Pieces of an expression -/

/-- A mark in a class: a character, with a backslash before it or none, or a bare hyphen. -/
inductive Mark where
  | member (c : Char) (escaped : Bool)
  | hyphen
deriving DecidableEq

def Mark.text : Mark → List Char
  | member c escaped => if escaped then ['\\', c] else [c]
  | hyphen => ['-']

inductive Piece where
  | run
  | one
  | char (c : Char) (escaped : Bool)
  | set (negated : Bool) (marks : List Mark)
deriving DecidableEq

/-- What stands in a class before its marks. -/
def opening (negated : Bool) : List Char :=
  if negated then ['[', '^'] else ['[']

def Piece.text : Piece → List Char
  | run => ['.', '*']
  | one => ['.']
  | char c escaped => (Mark.member c escaped).text
  | set negated marks => opening negated ++ marks.flatMap Mark.text ++ [']']

/-- The marks of a class and the text after the bracket that closes it. -/
def classMarks : List Char → List Mark × List Char
  | [] => ([], [])
  | ']' :: rest => ([], rest)
  | '-' :: rest =>
    let (marks, left) := classMarks rest
    (.hyphen :: marks, left)
  | '\\' :: c :: rest =>
    let (marks, left) := classMarks rest
    (.member c true :: marks, left)
  | c :: rest =>
    let (marks, left) := classMarks rest
    (.member c false :: marks, left)

theorem length_classMarks_le (text : List Char) : (classMarks text).2.length ≤ text.length := by
  fun_induction classMarks text <;> simp_all <;> omega

/-- The pieces of an expression after the anchor of its start. -/
def pieces (text : List Char) : List Piece :=
  match text with
  | [] => []
  | ['$'] => []
  | '.' :: '*' :: rest => .run :: pieces rest
  | '.' :: rest => .one :: pieces rest
  | '[' :: rest =>
    let negated := rest.head? == some '^'
    let marks := classMarks (rest.drop negated.toNat)
    .set negated marks.1 :: pieces marks.2
  | '\\' :: c :: rest => .char c true :: pieces rest
  | c :: rest => .char c false :: pieces rest
termination_by text.length
decreasing_by
  · simp only [List.length_cons]; omega
  · exact Nat.lt_succ_self _
  · exact Nat.lt_succ_of_le
      (Nat.le_trans (length_classMarks_le _) (List.drop_sublist _ rest).length_le)
  · simp only [List.length_cons]; omega
  · exact Nat.lt_succ_self _

/-! ## Reading -/

/-- From where to where something stands in an expression, in characters from its start. -/
structure Span where
  start : Nat
  stop : Nat
deriving DecidableEq

/-- Puts a range into the first of some operands. -/
def intoFirst (r : Range) : List (List Range) → List (List Range)
  | [] => [[r]]
  | rs :: more => (r :: rs) :: more

/-- The ranges of marks that stand at a place, cut at every two bare hyphens in a row, or the span
of the first range that is reversed. -/
def operands (pos : Nat) : List Mark → Except Span (List (List Range))
  | [] => .ok [[]]
  | .hyphen :: .hyphen :: rest => (operands (pos + 2) rest).map ([] :: ·)
  | .member a escaped :: .hyphen :: .member b escaped' :: rest =>
    let first := Mark.member a escaped
    let last := Mark.member b escaped'
    let stop := pos + first.text.length + 1 + last.text.length
    if a ≤ b then (operands stop rest).map (intoFirst ⟨a, b⟩) else .error ⟨pos, stop⟩
  | .member c escaped :: rest =>
    (operands (pos + (Mark.member c escaped).text.length) rest).map (intoFirst ⟨c, c⟩)
  | .hyphen :: rest => (operands (pos + 1) rest).map (intoFirst ⟨'-', '-'⟩)

/-- The set of marks that stand at a place. -/
def readSet (pos : Nat) (marks : List Mark) : Except Span CharSet := do
  match ← operands pos marks with
  | [] => return ⟨[], []⟩
  | ranges :: without => return ⟨ranges, without⟩

def Piece.toPart (pos : Nat) : Piece → Except Span Part
  | run => .ok .run
  | one => .ok .one
  | char c _ => .ok (.char c)
  | set negated marks => (readSet (pos + (opening negated).length) marks).map (.set negated)

/-- The parts of pieces that stand at a place. -/
def toParts (pos : Nat) : List Piece → Except Span Pattern
  | [] => .ok []
  | p :: rest => do
    let part ← p.toPart pos
    return part :: (← toParts (pos + p.text.length) rest)

/-- An expression that is refused, and the reversed range in it. -/
structure Error where
  text : List Char
  range : Span
deriving DecidableEq

/-- Reads an expression from the anchor of its start to that of its end. -/
def read (text : List Char) : Except Error Pattern :=
  (toParts 1 (pieces (text.drop 1))).mapError (Error.mk text)

/-! ## Messages -/

/-- A line and a column of an expression, both from one. -/
structure Position where
  line : Nat
  column : Nat

/-- Where the character at an offset stands. -/
def Position.of (text : List Char) (offset : Nat) : Position :=
  let before := text.take offset
  ⟨before.count '\n' + 1, (before.reverse.takeWhile (· != '\n')).length + 1⟩

/-- The lines of a text, without the carriage returns that end them. -/
def lines (text : List Char) : List (List Char) :=
  (text.splitOn '\n').map fun line => if line.getLast? == some '\r' then line.dropLast else line

/-- The carets under a span of a line that is shown with an indent. -/
def carets (indent : Nat) (start stop : Position) : List Char :=
  List.replicate (indent + start.column - 1) ' ' ++
    List.replicate (max 1 (stop.column - start.column)) '^'

/-- The lines of an expression, with the carets of a span that lies on one line below that line. In
an expression of more than one line, every line has its number before it. -/
def Error.notes (e : Error) : List Char :=
  let count := (lines e.text).length
  let width := (Nat.toDigits 10 count).length
  let start := Position.of e.text e.range.start
  let stop := Position.of e.text e.range.stop
  (lines e.text).zipIdx 1 |>.flatMap fun (line, n) =>
    let digits := Nat.toDigits 10 n
    let indent :=
      if count = 1 then List.replicate 4 ' '
      else List.replicate (width - digits.length) ' ' ++ digits ++ [':', ' ']
    indent ++ line ++ ['\n'] ++
      if start.line = n ∧ stop.line = n then carets indent.length start stop ++ ['\n'] else []

def Error.message (e : Error) : String :=
  let start := Position.of e.text e.range.start
  let stop := Position.of e.text e.range.stop
  let divider := if '\n' ∈ e.text then String.ofList (List.replicate 79 '~') ++ "\n" else ""
  let place :=
    if start.line = stop.line then ""
    else s!"on line {start.line} (column {start.column}) " ++
      s!"through line {stop.line} (column {stop.column - 1})\n"
  "regex parse error:\n" ++ divider ++ String.ofList e.notes ++ divider ++ place ++
    "error: invalid character class range, the start must be <= the end"

example : Error.message ⟨"^a[z-b]$".toList, ⟨3, 6⟩⟩ =
    "regex parse error:\n    ^a[z-b]$\n       ^^^\n" ++
      "error: invalid character class range, the start must be <= the end" := by
  decide

end Selection.Regex
