import Selection.Proofs.Binary64
import Selection.Proofs.Wire
import Selection.Sql.Lowering

/-! # Tokens of SQL texts

A string literal runs from a quote to the next quote that no other quote follows, and two quotes in
it stand for one. A text that is split by this rule falls into the literals with their contents and
the characters between them. The literal of every value is one of its own, or has no quote at all.
-/

namespace Selection.Sql

/-! ## Splitting -/

/-- A token of an SQL text: a character between the literals, or a literal with its contents. A text
may end inside its last literal. -/
inductive Token where
  | char (c : Char)
  | literal (contents : List Char)
  | unclosed (contents : List Char)
deriving DecidableEq

mutual

/-- The tokens of a text. -/
def tokens : List Char → List Token
  | [] => []
  | '\'' :: rest => literalTokens [] rest
  | c :: rest => .char c :: tokens rest

/-- The tokens of a text that goes on inside a literal, behind some contents of it. -/
def literalTokens (before : List Char) : List Char → List Token
  | [] => [.unclosed before]
  | '\'' :: '\'' :: rest => literalTokens (before ++ ['\'']) rest
  | '\'' :: rest => .literal before :: tokens rest
  | c :: rest => literalTokens (before ++ [c]) rest

end

namespace Token

/-- A token without its contents, if it is a literal. -/
def shape : Token → Token
  | char c => char c
  | literal _ => literal []
  | unclosed _ => unclosed []

/-- Whether a token is more than a character. -/
def isQuoted : Token → Bool
  | char _ => false
  | literal _ | unclosed _ => true

/-- The characters of a text as tokens. -/
def plain (cs : List Char) : List Token :=
  cs.map char

@[simp] theorem filter_isQuoted_plain (cs : List Char) : (plain cs).filter isQuoted = [] := by
  simp [plain, isQuoted, List.filter_eq_nil_iff]

end Token

variable {cs ds rest : List Char} {ts us : List Token}

/-- A character that is no quote is a token by itself. -/
theorem tokens_cons {c : Char} (h : c ≠ '\'') (rest : List Char) :
    tokens (c :: rest) = .char c :: tokens rest := by
  rw [tokens]
  exact h

/-- Without quotes, characters are tokens. -/
theorem tokens_append (h : '\'' ∉ cs) (rest : List Char) :
    tokens (cs ++ rest) = Token.plain cs ++ tokens rest := by
  induction cs with
  | nil => rfl
  | cons c cs ih =>
      rw [List.mem_cons, not_or] at h
      rw [List.cons_append, tokens_cons (Ne.symm h.1), ih h.2]
      rfl

/-- The quotes that stand for a character inside a literal. -/
def doubled (c : Char) : List Char :=
  if c = '\'' then ['\'', '\''] else [c]

/-- A literal is read to its closing quote, doubled quotes as one. -/
theorem literalTokens_doubled (hrest : Text.StartsWithout (· == '\'') rest)
    (before cs : List Char) :
    literalTokens before (cs.flatMap doubled ++ '\'' :: rest) =
      .literal (before ++ cs) :: tokens rest := by
  induction cs generalizing before with
  | nil =>
      rw [List.flatMap_nil, List.nil_append, List.append_nil]
      cases rest with
      | nil => rfl
      | cons c rest =>
          have hc : c ≠ '\'' := by simpa using hrest
          rw [literalTokens]
          rintro _ ⟨rfl, -⟩
          exact hc rfl
  | cons c cs ih =>
      have hcontents : before ++ c :: cs = before ++ [c] ++ cs := by simp
      rw [List.flatMap_cons, List.append_assoc, hcontents, ← ih, doubled]
      split
      next hc =>
        rw [hc]
        rfl
      next hc =>
        rw [List.singleton_append, literalTokens]
        · exact fun _ h => absurd h hc
        · exact hc

/-- A text has certain tokens in front of whatever follows it, unless that goes on with a quote. -/
def Splits (cs : List Char) (ts : List Token) : Prop :=
  ∀ rest, Text.StartsWithout (· == '\'') rest → tokens (cs ++ rest) = ts ++ tokens rest

/-- A text is split in one way. -/
theorem Splits.tokens_eq (h : Splits cs ts) : tokens cs = ts := by
  simpa [tokens] using h [] (Text.startsWithout_nil _)

/-- A text without quotes is split into its characters. -/
theorem splits_plain (h : '\'' ∉ cs) : Splits cs (Token.plain cs) :=
  fun rest _ => tokens_append h rest

theorem startsWithout_quote (h : '\'' ∉ cs) : Text.StartsWithout (· == '\'') cs := by
  intro c hc
  rw [beq_eq_false_iff_ne]
  rintro rfl
  exact h (List.mem_of_mem_head? hc)

/-- Texts are split one after the other when the second begins with no quote. -/
theorem Splits.append (hcs : Splits cs ts) (hds : Splits ds us)
    (hstart : Text.StartsWithout (· == '\'') ds) : Splits (cs ++ ds) (ts ++ us) := by
  intro rest hrest
  rw [List.append_assoc, hcs _ (hstart.append hrest), hds rest hrest, List.append_assoc]

theorem Splits.append_plain (hcs : Splits cs ts) (h : '\'' ∉ ds) :
    Splits (cs ++ ds) (ts ++ Token.plain ds) :=
  hcs.append (splits_plain h) (startsWithout_quote h)

theorem Splits.plain_append (h : '\'' ∉ cs) (hds : Splits ds us) :
    Splits (cs ++ ds) (Token.plain cs ++ us) := by
  intro rest hrest
  rw [List.append_assoc, tokens_append h, hds rest hrest, List.append_assoc]

/-- A text in quotes is one literal with the text as its contents. -/
theorem splits_quote (s : String) : Splits (Value.quote s).toList [.literal s.toList] := by
  intro rest hrest
  have htext : (Value.quote s).toList ++ rest =
      '\'' :: (s.toList.flatMap doubled ++ '\'' :: rest) := by
    simp only [Value.quote, String.toList_append, String.toList_ofList, List.append_assoc]
    rfl
  rw [htext, tokens, literalTokens_doubled hrest, List.nil_append]
  rfl

/-! ## Literals -/

/-- A text without quotes, or one in quotes. -/
inductive Written (s : String) : Prop
  | plain (plain : '\'' ∉ s.toList)
  | quoted (t : String) (eq_quote : s = Value.quote t)

/-- A value that is written as a literal is split into its tokens. -/
theorem Written.splits {s : String} (h : Written s) : Splits s.toList (tokens s.toList) := by
  cases h with
  | plain h =>
      have hsplits := splits_plain h
      rwa [hsplits.tokens_eq]
  | quoted t h =>
      have hsplits := splits_quote t
      rw [h, hsplits.tokens_eq]
      exact hsplits

/-- A text without quotes only needs quotes around it. -/
theorem quote_eq {s : String} (h : '\'' ∉ s.toList) : Value.quote s = "'" ++ s ++ "'" := by
  have hsame : s.toList.flatMap doubled = s.toList := by
    generalize s.toList = cs at *
    induction cs with
    | nil => rfl
    | cons c cs ih =>
        rw [List.mem_cons, not_or] at h
        rw [List.flatMap_cons, ih h.2, doubled, if_neg (Ne.symm h.1)]
        rfl
  change "'" ++ String.ofList (s.toList.flatMap doubled) ++ "'" = _
  rw [hsame, String.ofList_toList]

/-- The text that stands between the quotes of a value's literal. -/
def quotedText? : Value → Option String
  | .string s => some s
  | .uuid u => some u.text
  | .date d => some d.text
  | .timestamp t => some t.utcText
  | .timestampNaive t => some t.text
  | .time t => some t.text
  | .duration d => some d.span
  | _ => none

variable {v : Value} {s : String}

/-- A value that is quoted is written between quotes. -/
theorem literal_quoted (h : quotedText? v = some s) : literal v = Value.quote s := by
  have hquote (v : Value) {s : String} (h : v.wireText? = some s) : '\'' ∉ s.toList :=
    (Value.among_wireText h).not_mem (by decide) (by decide)
  cases v <;> simp only [quotedText?, Option.some.injEq, reduceCtorEq] at h <;> subst h
  case string s => rfl
  case duration d => exact (quote_eq (d.among_span.not_mem (by decide) (by decide))).symm
  case uuid u => exact (quote_eq (hquote (.uuid u) rfl)).symm
  case date d => exact (quote_eq (hquote (.date d) rfl)).symm
  case timestamp t => exact (quote_eq (hquote (.timestamp t) rfl)).symm
  case timestampNaive t => exact (quote_eq (hquote (.timestampNaive t) rfl)).symm
  case time t => exact (quote_eq (hquote (.time t) rfl)).symm

/-- A value that is not quoted is written without quotes. -/
theorem literal_plain (h : quotedText? v = none) : '\'' ∉ (literal v).toList := by
  cases v <;> simp only [quotedText?, reduceCtorEq] at h
  case int n => exact (Numeral.among_ofInt n.toInt).not_mem (by decide) (by decide)
  case uint n => exact (Numeral.among_ofInt n.toNat).not_mem (by decide) (by decide)
  case float x =>
    cases x with
    | nan => decide
    | infinity negative => cases negative <;> decide
    | finite negative steps holds => exact (Binary64.among_text rfl).not_mem (by decide) (by decide)
  case decimal x => exact x.not_mem_text (by decide) (by decide)
  case boolean b => cases b <;> decide
  case null => decide

/-- The literal of a value has no quote, or is a text in quotes. -/
theorem written_literal (v : Value) : Written (literal v) := by
  cases h : quotedText? v with
  | none => exact .plain (literal_plain h)
  | some s => exact .quoted s (literal_quoted h)

/-- The token of a value's literal, if the literal has quotes. -/
def quotedTokens (v : Value) : List Token :=
  ((quotedText? v).map fun s => .literal s.toList).toList

/-- The literal of a value is a literal of the text between its quotes. -/
theorem filter_tokens_literal (v : Value) :
    (tokens (literal v).toList).filter Token.isQuoted = quotedTokens v := by
  unfold quotedTokens
  cases h : quotedText? v with
  | none =>
      rw [(splits_plain (literal_plain h)).tokens_eq, Token.filter_isQuoted_plain]
      rfl
  | some s =>
      rw [literal_quoted h, (splits_quote s).tokens_eq]
      rfl

end Selection.Sql
