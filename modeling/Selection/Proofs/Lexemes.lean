import Selection.Proofs.Tokens

/-! # Words and parentheses of SQL texts

Between the string literals of a text stand its words, and parentheses group them. A reading of a
text keeps, for each parenthesis that is open, what has been read since. It fails at a closing
parenthesis with nothing before it, and at an `AND` or `OR` behind the other one at the same level.
What it accepts has neither anywhere.
-/

namespace Selection.Sql

/-! ## Lexemes -/

/-- A part of an SQL text: a parenthesis, a word, a string literal, or another character that is not
blank. -/
inductive Lexeme where
  | opening
  | closing
  | word (letters : List Char)
  | literal
  | symbol (c : Char)
deriving DecidableEq

/-- Words have letters, digits and underscores, and whatever is neither ASCII nor blank. -/
def isWordChar (c : Char) : Bool :=
  c.isAlphanum || c == '_' || (127 < c.toNat && !Text.isBlank c)

/-- The lexeme of a character that is in no word, unless it is blank. -/
def mark (c : Char) : List Lexeme :=
  if c = '(' then [.opening]
  else if c = ')' then [.closing]
  else if Text.isBlank c then []
  else [.symbol c]

def wordOf (letters : List Char) : List Lexeme :=
  if letters.isEmpty then [] else [.word letters]

/-- The lexemes of some tokens behind the first letters of a word. -/
def lexemesFrom (letters : List Char) : List Token → List Lexeme
  | [] => wordOf letters
  | .char c :: rest =>
    if isWordChar c then lexemesFrom (letters ++ [c]) rest
    else wordOf letters ++ mark c ++ lexemesFrom [] rest
  | .literal _ :: rest | .unclosed _ :: rest => wordOf letters ++ .literal :: lexemesFrom [] rest

/-- The lexemes of some tokens. -/
def lexemes (ts : List Token) : List Lexeme :=
  lexemesFrom [] ts

/-- Whether a token is in no word, so that none goes on across it. -/
def Token.breaks : Token → Bool
  | char c => !isWordChar c
  | literal _ | unclosed _ => true

variable {t : Token} {ts us : List Token} {cs letters : List Char}

/-- A token that breaks words ends the word before it. -/
theorem lexemesFrom_breaks (ht : t.breaks = true) (letters : List Char) (us : List Token) :
    lexemesFrom letters (t :: us) = wordOf letters ++ (lexemes [t] ++ lexemes us) := by
  cases t with
  | char c =>
      have hc : isWordChar c = false := by simpa [Token.breaks] using ht
      simp [lexemes, lexemesFrom, hc, wordOf]
  | literal contents => simp [lexemes, lexemesFrom, wordOf]
  | unclosed contents => simp [lexemes, lexemesFrom, wordOf]

/-- A token that breaks words has its lexemes to itself. -/
theorem lexemes_cons (ht : t.breaks = true) (us : List Token) :
    lexemes (t :: us) = lexemes [t] ++ lexemes us :=
  lexemesFrom_breaks ht [] us

/-- A text may be cut into lexemes before a token that breaks words. -/
theorem lexemesFrom_append (hus : ∀ t ∈ us.head?, t.breaks = true) (letters : List Char)
    (ts : List Token) : lexemesFrom letters (ts ++ us) = lexemesFrom letters ts ++ lexemes us := by
  induction ts generalizing letters with
  | nil =>
      cases us with
      | nil => exact (List.append_nil _).symm
      | cons t us =>
          have ht : t.breaks = true := hus t rfl
          rw [List.nil_append, lexemesFrom_breaks ht, ← lexemes_cons ht]
          rfl
  | cons t ts ih =>
      rw [List.cons_append]
      cases t with
      | char c =>
          rw [lexemesFrom, lexemesFrom]
          split
          · exact ih _
          · simp only [ih, List.append_assoc]
      | literal contents => simp only [lexemesFrom, ih, List.append_assoc, List.cons_append]
      | unclosed contents => simp only [lexemesFrom, ih, List.append_assoc, List.cons_append]

/-- Tokens that do not go on with a word have lexemes of their own. -/
theorem lexemes_append_of_head (hus : ∀ t ∈ us.head?, t.breaks = true) :
    lexemes (ts ++ us) = lexemes ts ++ lexemes us :=
  lexemesFrom_append hus [] ts

/-- Tokens that do not end in a word have lexemes of their own. -/
theorem lexemes_append_of_last (hts : ∀ t ∈ ts.getLast?, t.breaks = true) :
    lexemes (ts ++ us) = lexemes ts ++ lexemes us := by
  induction ts using List.reverseRecOn with
  | nil => rfl
  | append_singleton ts t _ =>
      have ht : t.breaks = true := hts t List.getLast?_concat
      have hlast {us : List Token} : lexemes (ts ++ t :: us) = lexemes ts ++ lexemes (t :: us) :=
        lexemes_append_of_head fun t' h => Option.some.inj h ▸ ht
      rw [List.append_assoc, List.singleton_append, hlast, hlast, lexemes_cons ht us,
        List.append_assoc]

/-- The characters that a lexeme is made of. -/
def Lexeme.chars : Lexeme → List Char
  | opening => ['(']
  | closing => [')']
  | word letters => letters
  | literal => []
  | symbol c => [c]

theorem chars_wordOf {x : Lexeme} (hx : x ∈ wordOf letters) : x.chars = letters := by
  unfold wordOf at hx
  split at hx
  · contradiction
  · rw [List.mem_singleton.mp hx]
    rfl

theorem chars_mark {c : Char} {x : Lexeme} (hx : x ∈ mark c) : x.chars = [c] := by
  unfold mark at hx
  split at hx
  next hc => rw [List.mem_singleton.mp hx, hc]; rfl
  next =>
    split at hx
    next hc => rw [List.mem_singleton.mp hx, hc]; rfl
    next =>
      split at hx
      · contradiction
      · rw [List.mem_singleton.mp hx]
        rfl

/-- The lexemes of a text without quotes have only characters of the text. -/
theorem chars_subset {x : Lexeme} (hx : x ∈ lexemesFrom letters (Token.plain cs)) :
    x.chars ⊆ letters ++ cs := by
  induction cs generalizing letters with
  | nil => simp [chars_wordOf hx]
  | cons c cs ih =>
      change x ∈ if isWordChar c then _ else _ at hx
      split at hx
      · simpa using ih hx
      · rw [List.mem_append, List.mem_append] at hx
        rcases hx with (hx | hx) | hx
        · simp [chars_wordOf hx]
        · simp [chars_mark hx]
        · exact List.Subset.trans (ih hx) (by simp)

/-! ## Grouping -/

/-- The connective that a word is. -/
def connective? (letters : List Char) : Option Bool :=
  if letters = "AND".toList then some true
  else if letters = "OR".toList then some false
  else none

/-- Whether a lexeme groups and joins nothing. -/
def Lexeme.isPlain : Lexeme → Bool
  | opening | closing => false
  | word letters => (connective? letters).isNone
  | literal | symbol _ => true

/-- How many parentheses are open behind some lexemes, if none is closed that was not open. -/
def depthFrom : Nat → List Lexeme → Option Nat
  | depth, [] => some depth
  | depth, .opening :: rest => depthFrom (depth + 1) rest
  | 0, .closing :: _ => none
  | depth + 1, .closing :: rest => depthFrom depth rest
  | depth, _ :: rest => depthFrom depth rest

/-- Both connectives stand at one level: what is between them closes the parentheses that it opens
and no others. -/
def Mixes (ls : List Lexeme) : Prop :=
  ∃ before between after : List Lexeme, ∃ first second : List Char, ∃ conjunctive : Bool,
    ls = before ++ .word first :: between ++ .word second :: after ∧
      connective? first = some conjunctive ∧ connective? second = some (!conjunctive) ∧
      depthFrom 0 between = some 0

/-- Some pair of parentheses has nothing inside. -/
def HasEmptyPair (ls : List Lexeme) : Prop :=
  [.opening, .closing] <:+: ls

/-- What has been read since a parenthesis was opened: nothing, something without a connective, or
something with connectives of one kind. -/
inductive Level where
  | empty
  | filled
  | joined (conjunctive : Bool)
deriving DecidableEq

def Level.fill : Level → Level
  | empty | filled => filled
  | joined conjunctive => joined conjunctive

def Level.join (conjunctive : Bool) : Level → Option Level
  | empty | filled => some (joined conjunctive)
  | joined other => if conjunctive = other then some (joined other) else none

/-- A level with one lexeme more, which is no parenthesis. -/
def Level.take (level : Level) : Lexeme → Option Level
  | .word letters =>
    match connective? letters with
    | some conjunctive => level.join conjunctive
    | none => some level.fill
  | _ => some level.fill

/-- Reads one lexeme, inside parentheses at some levels. -/
def readOne : List Level → Lexeme → Option (List Level)
  | levels, .opening => some (.empty :: levels)
  | level :: outer :: rest, .closing => if level = .empty then none else some (outer.fill :: rest)
  | [], _ | [_], .closing => none
  | level :: outer, x => (level.take x).map (· :: outer)

def read (levels : List Level) (ls : List Lexeme) : Option (List Level) :=
  ls.foldlM readOne levels

variable {levels levels' outer : List Level} {level : Level} {x : Lexeme} {ls ms : List Lexeme}

theorem read_cons : read levels (x :: ls) = (readOne levels x).bind (read · ls) :=
  rfl

/-- Lexemes are read one part after the other. -/
theorem read_append : read levels (ls ++ ms) = (read levels ls).bind (read · ms) :=
  List.foldlM_append

/-- No empty pair of parentheses is read. -/
theorem not_hasEmptyPair (h : read levels ls = some levels') : ¬HasEmptyPair ls := by
  rintro ⟨before, after, rfl⟩
  rw [List.append_assoc, read_append] at h
  obtain ⟨levels, -, h⟩ := Option.bind_eq_some_iff.mp h
  cases levels <;> contradiction

theorem readOne_cons (hopening : x ≠ .opening) (hclosing : x ≠ .closing) (level : Level)
    (outer : List Level) : readOne (level :: outer) x = (level.take x).map (· :: outer) := by
  cases x with
  | opening => contradiction
  | closing => contradiction
  | _ => rfl

/-- A group that is closed is not empty, and fills its place in the group around it. -/
theorem readOne_closing {around : Level}
    (h : readOne (level :: around :: outer) .closing = some levels) :
    level ≠ .empty ∧ levels = around.fill :: outer := by
  rw [readOne] at h
  split at h
  next => contradiction
  next hempty => exact ⟨hempty, (Option.some.inj h).symm⟩

theorem depthFrom_cons (hopening : x ≠ .opening) (hclosing : x ≠ .closing) (depth : Nat) :
    depthFrom depth (x :: ls) = depthFrom depth ls := by
  cases x with
  | opening => contradiction
  | closing => contradiction
  | _ => cases depth <;> rfl

/-- A group that is joined has the connective it is joined by. -/
theorem join_eq_some {conjunctive : Bool} {level' : Level}
    (h : level.join conjunctive = some level') : level' = .joined conjunctive := by
  cases level with
  | joined other =>
      rw [Level.join] at h
      split at h
      next heq => rw [heq, Option.some.inj h]
      next => contradiction
  | _ => exact (Option.some.inj h).symm

/-- A level keeps its connective. -/
theorem take_joined {conjunctive : Bool} (h : (Level.joined conjunctive).take x = some level) :
    level = .joined conjunctive := by
  unfold Level.take at h
  split at h
  next letters =>
    split at h
    next other _ =>
      rw [Level.join] at h
      split at h
      · exact (Option.some.inj h).symm
      · contradiction
    next => exact (Option.some.inj h).symm
  next => exact (Option.some.inj h).symm

/-- A connective joins at the innermost level. -/
theorem readOne_connective {letters : List Char} {conjunctive : Bool}
    (hword : connective? letters = some conjunctive)
    (h : readOne levels (.word letters) = some levels') :
    ∃ level outer, levels = level :: outer ∧ (level.join conjunctive).isSome ∧
      levels' = .joined conjunctive :: outer := by
  cases levels with
  | nil => contradiction
  | cons level outer =>
      change (level.take (.word letters)).map (· :: outer) = _ at h
      rw [Level.take, hword] at h
      obtain ⟨level', hjoin, rfl⟩ := Option.map_eq_some_iff.mp h
      refine ⟨level, outer, rfl, Option.isSome_of_eq_some hjoin, ?_⟩
      rw [join_eq_some hjoin]

/-- What closes the parentheses that it opens leaves the levels around them alone, but for the one
it stands at, which keeps its connective. -/
theorem read_of_depth {depth depth' : Nat} {conjunctive : Bool} (inner : List Level)
    (hdepth : depthFrom depth ls = some depth') (hinner : inner.length = depth)
    (h : read (inner ++ .joined conjunctive :: outer) ls = some levels') :
    ∃ inner', inner'.length = depth' ∧ levels' = inner' ++ .joined conjunctive :: outer := by
  induction ls generalizing depth inner with
  | nil => exact ⟨inner, hinner.trans (Option.some.inj hdepth), (Option.some.inj h).symm⟩
  | cons x ls ih =>
      rw [read_cons] at h
      obtain ⟨levels, hone, h⟩ := Option.bind_eq_some_iff.mp h
      by_cases hopening : x = .opening
      · subst hopening
        obtain rfl := Option.some.inj hone
        exact ih (.empty :: inner) hdepth (congrArg (· + 1) hinner) h
      by_cases hclosing : x = .closing
      · subst hclosing
        -- The parenthesis was opened in between, so its level is one of those inside.
        match depth, inner with
        | depth + 1, [level] =>
          obtain ⟨-, rfl⟩ := readOne_closing hone
          exact ih [] hdepth (Nat.succ.inj hinner) h
        | depth + 1, level :: level' :: inner =>
          obtain ⟨-, rfl⟩ := readOne_closing hone
          exact ih (level'.fill :: inner) hdepth (Nat.succ.inj hinner) h
      · rw [depthFrom_cons hopening hclosing] at hdepth
        cases inner with
        | nil =>
            rw [List.nil_append, readOne_cons hopening hclosing] at hone
            obtain ⟨level, hlevel, rfl⟩ := Option.map_eq_some_iff.mp hone
            rw [take_joined hlevel] at h
            exact ih [] hdepth hinner h
        | cons level inner =>
            rw [List.cons_append, readOne_cons hopening hclosing] at hone
            obtain ⟨level', -, rfl⟩ := Option.map_eq_some_iff.mp hone
            exact ih (level' :: inner) hdepth hinner h

/-- No group with both connectives is read. -/
theorem not_mixes (h : read levels ls = some levels') : ¬Mixes ls := by
  rintro ⟨before, between, after, first, second, conjunctive, rfl, hfirst, hsecond, hbetween⟩
  simp only [List.append_assoc, List.cons_append, read_append, read_cons] at h
  obtain ⟨levels, -, h⟩ := Option.bind_eq_some_iff.mp h
  obtain ⟨levels, hone, h⟩ := Option.bind_eq_some_iff.mp h
  obtain ⟨levels'', hread, h⟩ := Option.bind_eq_some_iff.mp h
  obtain ⟨levels', hother, -⟩ := Option.bind_eq_some_iff.mp h
  -- The first connective is that of its level up to the second one, which the level refuses.
  obtain ⟨level, outer, rfl, -, rfl⟩ := readOne_connective hfirst hone
  obtain ⟨inner, hinner, rfl⟩ := read_of_depth [] hbetween rfl hread
  obtain rfl := List.length_eq_zero_iff.mp hinner
  obtain ⟨level, outer, hlevels, hjoin, -⟩ := readOne_connective hsecond hother
  obtain ⟨rfl, -⟩ := List.cons.inj hlevels
  cases conjunctive <;> contradiction

/-! ## What readings accept -/

theorem fill_fill (level : Level) : level.fill.fill = level.fill := by
  cases level <;> rfl

/-- Lexemes that are read at any level, as something without a connective of that level. -/
def Fills (ls : List Lexeme) : Prop :=
  ∀ level outer, read (level :: outer) ls = some (level.fill :: outer)

/-- Lexemes that fill a place fill it together. -/
theorem Fills.append (hls : Fills ls) (hms : Fills ms) : Fills (ls ++ ms) := by
  intro level outer
  rw [read_append, hls, Option.bind_some, hms, fill_fill]

theorem fills_singleton (hx : x.isPlain = true) : Fills [x] := by
  intro level outer
  cases x with
  | opening => contradiction
  | closing => contradiction
  | word letters =>
      have hnone : connective? letters = none := Option.isNone_iff_eq_none.mp hx
      change ((level.take (.word letters)).map (· :: outer)).bind _ = _
      rw [Level.take, hnone]
      rfl
  | literal => rfl
  | symbol c => rfl

/-- Plain lexemes fill a place. -/
theorem fills_plain (hne : ls ≠ []) (h : ∀ x ∈ ls, x.isPlain = true) : Fills ls := by
  induction ls with
  | nil => contradiction
  | cons x ls ih =>
      obtain ⟨hx, hls⟩ := List.forall_mem_cons.mp h
      cases ls with
      | nil => exact fills_singleton hx
      | cons y ls => exact (fills_singleton hx).append (ih (List.cons_ne_nil _ _) hls)

/-- Parentheses around something. -/
theorem fills_group
    (h : ∀ outer, ∃ level, level ≠ .empty ∧ read (.empty :: outer) ls = some (level :: outer)) :
    Fills (.opening :: ls ++ [.closing]) := by
  intro level outer
  obtain ⟨inner, hinner, hread⟩ := h (level :: outer)
  rw [List.cons_append, read_cons]
  change read (.empty :: level :: outer) (ls ++ [.closing]) = _
  rw [read_append, hread]
  change (if inner = .empty then none else some (level.fill :: outer)).bind _ = _
  rw [if_neg hinner]
  rfl

/-- Lexemes that fill a place fill one in parentheses. -/
theorem Fills.group (h : Fills ls) : Fills (.opening :: ls ++ [.closing]) :=
  fills_group fun outer => ⟨.filled, nofun, h .empty outer⟩

/-- A filled group takes a connective unless it has the other one. -/
theorem join_fill {conjunctive : Bool} (h : level ≠ .joined (!conjunctive)) :
    level.fill.join conjunctive = some (.joined conjunctive) := by
  cases level with
  | joined other =>
      have hsame : other = conjunctive := by simpa using h
      simp [Level.fill, Level.join, hsame]
  | _ => rfl

section Chain

variable {letters : List Char} {conjunctive : Bool} {lss : List (List Lexeme)}

/-- A connective is read behind a filled group unless that has the other one. -/
theorem read_connective (hword : connective? letters = some conjunctive)
    (hlevel : level ≠ .joined (!conjunctive)) (outer : List Level) :
    read (level.fill :: outer) [.word letters] = some (.joined conjunctive :: outer) := by
  change ((level.fill.take (.word letters)).map (· :: outer)).bind _ = _
  rw [Level.take, hword]
  dsimp only
  rw [join_fill hlevel]
  rfl

/-- Items with one connective between them are read at a level that does not have the other one. -/
theorem read_chain (hword : connective? letters = some conjunctive) (hne : lss ≠ [])
    (h : ∀ ls ∈ lss, Fills ls) (hlevel : level ≠ .joined (!conjunctive)) (outer : List Level) :
    ∃ level', level' ≠ .empty ∧
      read (level :: outer) ([.word letters].intercalate lss) = some (level' :: outer) := by
  induction lss generalizing level with
  | nil => contradiction
  | cons ls lss ih =>
      obtain ⟨hls, hlss⟩ := List.forall_mem_cons.mp h
      cases lss with
      | nil =>
          refine ⟨level.fill, ?_, ?_⟩
          · cases level <;> nofun
          · simpa using hls level outer
      | cons next lss =>
          obtain ⟨level', hlevel', hread⟩ :=
            @ih (.joined conjunctive) (List.cons_ne_nil _ _) hlss (by simp)
          refine ⟨level', hlevel', ?_⟩
          rw [List.intercalate_cons_cons, read_append, read_append, hls, Option.bind_some,
            read_connective hword hlevel]
          exact hread

/-- Items that fill their places and are joined by one connective fill the chain in parentheses. -/
theorem fills_chain (hword : connective? letters = some conjunctive) (hne : lss ≠ [])
    (h : ∀ ls ∈ lss, Fills ls) :
    Fills (.opening :: [.word letters].intercalate lss ++ [.closing]) :=
  fills_group fun outer => read_chain hword hne h (by simp) outer

end Chain

end Selection.Sql
