import Selection.Pattern.Regex

/-! # Patterns as regular expressions

A pattern is written as an expression from the start of a text to its end: `%` as a dot that
repeats, `_` as a dot, a set as a class, and any other character with a backslash before it where it
would mean something else. The body of a set runs to the first `]`. A hyphen in it stays bare when a
member came before and another character of the body follows; every other character is a member.

Dots take line ends too. Whether case counts is no part of the expression: it is said to the library
apart from it, and here where the pattern is matched.
-/

namespace Selection.Pattern

inductive Fault where
  | unterminatedSet
  | emptySet
  | unreadable (error : Regex.Error)
deriving DecidableEq

def Fault.message : Fault → String
  | unterminatedSet => "unterminated character set"
  | emptySet => "empty character set"
  | unreadable error => error.message

/-! ## Writing -/

/-- Whether a character means something else in an expression when no backslash is before it. -/
def isMeta (c : Char) : Bool :=
  c ∈ ['\\', '.', '+', '*', '?', '(', ')', '|', '[', ']', '{', '}', '^', '$', '#', '&', '-', '~']

def escape (c : Char) : List Char :=
  if isMeta c then ['\\', c] else [c]

/-- The body of a set as the text of a class, with the number of its members, and what follows its
`]`; none when there is no `]`. `members` is the number of those that came before. -/
def classText? (members : Nat) : List Char → Option (Nat × List Char × List Char)
  | [] => none
  | ']' :: rest => some (members, [], rest)
  | c :: rest =>
    if c = '-' ∧ 0 < members ∧ rest.head?.any (· != ']') then
      (classText? members rest).map fun (count, text, left) => (count, '-' :: text, left)
    else
      (classText? (members + 1) rest).map fun (count, text, left) =>
        (count, escape c ++ text, left)

theorem length_of_classText? {members count : Nat} {cs text left : List Char}
    (h : classText? members cs = some (count, text, left)) : left.length < cs.length := by
  fun_induction classText? members cs generalizing count text left with
  | case1 => simp at h
  | case2 => simp_all
  | case3 | case4 =>
    next ih =>
      obtain ⟨⟨_, _, more⟩, hmore, heq⟩ := Option.map_eq_some_iff.1 h
      simp only [Prod.mk.injEq] at heq
      have := ih hmore
      simp only [List.length_cons, ← heq.2.2]
      omega

/-- The expression of a pattern between its anchors. -/
def expression (cs : List Char) : Except Fault (List Char) :=
  match cs with
  | [] => .ok []
  | '%' :: rest => (expression rest).map (['.', '*'] ++ ·)
  | '_' :: rest => (expression rest).map ('.' :: ·)
  | '[' :: rest =>
    let negated := rest.head? == some '^'
    match h : classText? 0 (rest.drop negated.toNat) with
    | none => .error .unterminatedSet
    | some (0, _, _) => .error .emptySet
    | some (_, text, left) =>
      have : left.length < rest.length + 1 :=
        Nat.lt_succ_of_lt
          (Nat.lt_of_lt_of_le (length_of_classText? h) (List.drop_sublist _ rest).length_le)
      (expression left).map (Regex.opening negated ++ text ++ [']'] ++ ·)
  | c :: rest => (expression rest).map (escape c ++ ·)
termination_by cs.length
decreasing_by
  · exact Nat.lt_succ_self _
  · exact Nat.lt_succ_self _
  · exact this
  · exact Nat.lt_succ_self _

/-- The regular expression of a pattern. -/
def translate (cs : List Char) : Except Fault (List Char) :=
  (expression cs).map fun text => '^' :: text ++ ['$']

/-- Reads a pattern by way of its expression. -/
def read (cs : List Char) : Except Fault Pattern := do
  (Regex.read (← translate cs)).mapError .unreadable

end Selection.Pattern
