import Selection.Text.CaseFold

/-! # LIKE patterns

A pattern is a list of parts: `%` is any run of characters, `_` any one character, `[set]` one
character of a set and `[^set]` one outside it, and every other character stands for itself. A
pattern is written as a regular expression, and the parts are what the expression library makes of
it. A text matches when the parts take it from its first character to its last.
-/

namespace Selection

namespace Pattern

/-- A range of characters from the first to the last; a single character is a range of one. -/
structure Range where
  first : Char
  last : Char
deriving DecidableEq

/-- The ranges of a set, less those of some others. -/
structure CharSet where
  ranges : List Range
  without : List (List Range)
deriving DecidableEq

inductive Part where
  | run
  | one
  | char (c : Char)
  | set (negated : Bool) (members : CharSet)
deriving DecidableEq

end Pattern

abbrev Pattern := List Pattern.Part

namespace Pattern

/-! ## Matching -/

def Range.holds (r : Range) (c : Char) : Bool :=
  r.first ≤ c && c ≤ r.last

/-- Whether some ranges hold a character, or with `ignoreCase` one that differs only in case. -/
def holds (ignoreCase : Bool) (ranges : List Range) (c : Char) : Bool :=
  if ignoreCase then
    (Text.CaseFold.variants c).any fun n => ranges.any fun r =>
      r.first.toNat ≤ n && n ≤ r.last.toNat
  else ranges.any (·.holds c)

def CharSet.holds (ignoreCase : Bool) (s : CharSet) (c : Char) : Bool :=
  Pattern.holds ignoreCase s.ranges c && !s.without.any (Pattern.holds ignoreCase · c)

/-- Whether a part accepts a single character; a run is no single part. -/
def Part.accepts (ignoreCase : Bool) (p : Part) (c : Char) : Bool :=
  match p with
  | run => false
  | one => true
  | char d => if ignoreCase then Text.CaseFold.fold c == Text.CaseFold.fold d else c == d
  | set negated members => members.holds ignoreCase c != negated

/-- For every entry, whether it or a later one is true. -/
def someLater : List Bool → List Bool
  | [] => []
  | b :: rest =>
    let later := someLater rest
    (b || later.headD false) :: later

/-- For every suffix of a text, the empty one last, whether a pattern matches it. -/
def suffixes (ignoreCase : Bool) (text : List Char) : Pattern → List Bool
  | [] => text.map (fun _ => false) ++ [true]
  | .run :: rest => someLater (suffixes ignoreCase text rest)
  | p :: rest =>
    let later := suffixes ignoreCase text rest
    List.zipWith (fun c b => p.accepts ignoreCase c && b) text later.tail ++ [false]

def accepts (ignoreCase : Bool) (p : Pattern) (text : List Char) : Bool :=
  (suffixes ignoreCase text p).headD false

end Pattern

end Selection
