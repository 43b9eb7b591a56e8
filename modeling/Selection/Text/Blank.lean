/-! # Blanks and the cutting of text

Text is read as a list of characters. A blank is a character of the Unicode property
`White_Space`; trimming takes the blanks off both ends. A cut at a character keeps every piece,
the empty ones too, so the pieces joined by that character give the text back.
-/

namespace Selection.Text

/-- A character with the Unicode property `White_Space`. -/
def isBlank (c : Char) : Bool :=
  let n := c.toNat
  (0x9 ≤ n && n ≤ 0xD) || n == 0x20 || n == 0x85 || n == 0xA0 || n == 0x1680 ||
    (0x2000 ≤ n && n ≤ 0x200A) || n == 0x2028 || n == 0x2029 || n == 0x202F || n == 0x205F ||
    n == 0x3000

/-- The text without its leading blanks. -/
def trimStart (cs : List Char) : List Char :=
  cs.dropWhile isBlank

/-- The text without the blanks at its ends. -/
def trim (cs : List Char) : List Char :=
  (trimStart (trimStart cs).reverse).reverse

/-- The pieces between the occurrences of `sep`, at least one. -/
def pieces (sep : Char) : List Char → List (List Char)
  | [] => [[]]
  | c :: rest =>
    if c = sep then [] :: pieces sep rest
    else
      match pieces sep rest with
      | [] => [[c]]
      | piece :: more => (c :: piece) :: more

/-- The text before and after the first character that `p` accepts. -/
def cutAt (p : Char → Bool) : List Char → Option (List Char × List Char)
  | [] => none
  | c :: rest =>
    if p c then some ([], rest) else (cutAt p rest).map fun (before, after) => (c :: before, after)

/-- The text before and after the last occurrence of `sep`. -/
def cutAtLast (sep : Char) : List Char → Option (List Char × List Char)
  | [] => none
  | c :: rest =>
    match cutAtLast sep rest with
    | some (before, after) => some (c :: before, after)
    | none => if c = sep then some ([], rest) else none

/-- Whether `needle` stands somewhere in the text. -/
def occursIn (needle : List Char) : List Char → Bool
  | [] => needle.isEmpty
  | c :: rest => needle.isPrefixOf (c :: rest) || occursIn needle rest

/-- The dotted segments of a path, at least one. -/
def segments (path : String) : List String :=
  (pieces '.' path.toList).map String.ofList

/-- The letters `A` to `Z` made small; other characters stay. -/
def lowerAscii (cs : List Char) : List Char :=
  cs.map Char.toLower

theorem pieces_ne_nil (sep : Char) (cs : List Char) : pieces sep cs ≠ [] := by
  cases cs with
  | nil => simp [pieces]
  | cons c rest =>
    unfold pieces
    split
    · simp
    · split <;> simp

theorem segments_ne_nil (path : String) : segments path ≠ [] :=
  fun h => pieces_ne_nil '.' path.toList (List.map_eq_nil_iff.mp h)

end Selection.Text
