import Selection.Json.Reading
import Selection.Proofs.Binary64
import Selection.Proofs.Scan
import Selection.Proofs.Uuid

/-! # Printed JSON is read back

The text of a JSON value is taken apart into the parts that it was put together from, whatever
follows it, and the parts denote the value again. Of the numbers this is proved for the integers of
64 bits; for the others it is an assumption, since their reader does not always find the nearest
one. Objects come back with their members in the order of the keys.
-/

namespace Selection.Json

/-! ## Strings -/

/-- The characters that are printed as an escape of one letter. -/
def lettered : List Char :=
  ['"', '\\', '\x08', '\x0c', '\n', '\r', '\t']

/-- The part that a character is printed as. -/
def Part.ofChar (c : Char) : Part :=
  if c.toNat < 0x20 ∧ c ∉ lettered then .unit c.toNat else .char c

/-- A character without an escape letter is written as its number, if it is a control character, or
as itself. -/
theorem escapeChar_not_lettered {c : Char} (h : c ∉ lettered) :
    escapeChar c = if c.toNat < 0x20 then '\\' :: 'u' :: Hex.lastDigits 4 c.toNat else [c] := by
  simp only [lettered, List.mem_cons, List.not_mem_nil, or_false, not_or] at h
  simp [escapeChar, h]

/-- The parts of a string behind its first one. -/
def Part.before (part : Part) : Option (List Part × List Char) → Option (List Part × List Char) :=
  Option.map fun (parts, rest) => (part :: parts, rest)

theorem lastDigits_four (n : Nat) :
    Hex.lastDigits 4 n =
      [(n / 4096 % 16).digitChar, (n / 256 % 16).digitChar, (n / 16 % 16).digitChar,
        (n % 16).digitChar] := by
  have hnil (n : Nat) : Hex.lastDigits 0 n = [] := rfl
  simp only [Hex.lastDigits_succ, hnil, Nat.div_div_eq_div_mul, List.nil_append,
    List.cons_append]

/-- A character that is written by its number is read back. -/
theorem stringBody_unit {n : Nat} (h : n < 65536) (rest : List Char) :
    Source.stringBody ('\\' :: 'u' :: (Hex.lastDigits 4 n ++ rest)) =
      (Part.unit n).before (Source.stringBody rest) := by
  have hdigit (m : Nat) : Hex.value? (m % 16).digitChar = some (m % 16) :=
    Hex.value?_digitChar (Nat.mod_lt _ (by decide))
  have hvalue : 256 * (16 * (n / 4096 % 16) + n / 256 % 16) + 16 * (n / 16 % 16) + n % 16 = n := by
    omega
  rw [lastDigits_four]
  simp only [List.cons_append, List.nil_append, Source.stringBody, hdigit,
    Option.bind_eq_bind, Option.bind_some, hvalue]
  cases Source.stringBody rest <;> rfl

/-- A character with an escape letter is read back. -/
theorem stringBody_escape {letter c : Char} (hletter : letter ≠ 'u')
    (h : Source.escaped? letter = some c) (rest : List Char) :
    Source.stringBody ('\\' :: letter :: rest) = (Part.char c).before (Source.stringBody rest) := by
  rw [Source.stringBody, h]
  · cases Source.stringBody rest <;> rfl
  · exact fun _ _ _ _ _ hu => absurd hu hletter

/-- A character that stands for itself is read as it is. -/
theorem stringBody_plain {c : Char} (hquote : c ≠ '"') (hslash : c ≠ '\\') (h : 0x20 ≤ c.toNat)
    (rest : List Char) :
    Source.stringBody (c :: rest) = (Part.char c).before (Source.stringBody rest) := by
  rw [Source.stringBody]
  · rw [guard, if_pos h]
    cases Source.stringBody rest <;> rfl
  · exact hquote
  · exact fun _ _ _ _ _ hc => absurd hc hslash
  · exact fun _ _ hc => absurd hc hslash

/-- A character is taken off a string in the form in which it is printed. -/
theorem stringBody_escapeChar (c : Char) (rest : List Char) :
    Source.stringBody (escapeChar c ++ rest) =
      (Part.ofChar c).before (Source.stringBody rest) := by
  by_cases hlettered : c ∈ lettered
  · have hpart : Part.ofChar c = .char c := if_neg fun h => h.2 hlettered
    rw [hpart]
    simp only [lettered, List.mem_cons, List.not_mem_nil, or_false] at hlettered
    rcases hlettered with rfl | rfl | rfl | rfl | rfl | rfl | rfl <;>
      exact stringBody_escape (by decide) rfl rest
  -- Any other character is escaped by its number if it is a control character, else not at all.
  rw [escapeChar_not_lettered hlettered, Part.ofChar]
  split
  next hcontrol =>
    rw [if_pos ⟨hcontrol, hlettered⟩]
    exact stringBody_unit (by omega) rest
  next hplain =>
    rw [if_neg fun h => hplain h.1]
    refine stringBody_plain ?_ ?_ (Nat.not_lt.mp hplain) rest <;> rintro rfl <;> contradiction

/-- A printed string is taken apart behind its opening quote. -/
theorem stringBody_quoted (cs rest : List Char) :
    Source.stringBody (cs.flatMap escapeChar ++ '"' :: rest) =
      some (cs.map Part.ofChar, rest) := by
  induction cs with
  | nil => rfl
  | cons c cs ih =>
      rw [List.flatMap_cons, List.append_assoc, stringBody_escapeChar, ih]
      rfl

/-- The parts of a printed string are its characters. -/
theorem string?_ofChar (cs : List Char) : Part.string? (cs.map Part.ofChar) = some cs := by
  induction cs with
  | nil => rfl
  | cons c cs ih =>
      rw [List.map_cons, Part.ofChar]
      split
      next hcontrol =>
        unfold Part.string?
        rw [if_pos (.inl (by omega)), ih, Char.ofNat_toNat]
        rfl
      next =>
        rw [Part.string?, ih]
        rfl

theorem toList_quote (s : String) :
    (quote s).toList = '"' :: (s.toList.flatMap escapeChar ++ ['"']) := by
  simp [quote]

/-! ## Numbers -/

/-- What may follow a value inside a text: nothing, a comma or a closing bracket or brace. -/
def Follows (rest : List Char) : Prop :=
  ∀ c ∈ rest.head?, c ∈ [',', ']', '\x7d']

variable {rest : List Char}

theorem follows_nil : Follows [] :=
  nofun

theorem follows_cons {c : Char} (h : c ∈ [',', ']', '\x7d']) (rest : List Char) :
    Follows (c :: rest) := by
  intro d hd
  obtain rfl := Option.some.inj hd
  exact h

/-- What follows a value starts without the characters of values. -/
theorem Follows.startsWithout (h : Follows rest) {p : Char → Bool}
    (hp : ∀ c ∈ [',', ']', '\x7d'], p c = false) : Text.StartsWithout p rest :=
  fun c hc => hp c (h c hc)

/-- A scan that is not prolonged by what follows a value, and leaves an end of its text. -/
structure StopsBefore (rest : List Char) {α : Type} (s : Scan α) : Prop where
  run_append : ∀ cs a mid, s.run cs = some (a, mid) → s.run (cs ++ rest) = some (a, mid ++ rest)
  leavesEnd : s.LeavesEnd

section StopsBefore

variable {α β : Type} {s : Scan α} {f : α → Scan β}

theorem StopsBefore.pure (a : α) : StopsBefore rest (pure a : Scan α) := by
  refine ⟨fun cs b mid h => ?_, .pure a⟩
  obtain ⟨rfl, rfl⟩ := Prod.mk.inj (Option.some.inj h)
  rfl

theorem StopsBefore.bind (hs : StopsBefore rest s) (hf : ∀ a, StopsBefore rest (f a)) :
    StopsBefore rest (s >>= f) := by
  refine ⟨fun cs b last h => ?_, hs.leavesEnd.bind fun a => (hf a).leavesEnd⟩
  obtain ⟨a, mid, ha, hb⟩ := Scan.run_bind_eq_some h
  rw [StateT.run_bind, hs.run_append cs a mid ha]
  exact (hf a).run_append mid b last hb

theorem StopsBefore.discard_one (p : Char → Bool) :
    StopsBefore rest (discard (Scan.one p)) := by
  refine ⟨fun cs a mid h => ?_, .discard_one p⟩
  cases cs with
  | nil => contradiction
  | cons d cs =>
      rw [Scan.run_discard_one_cons] at h
      rw [List.cons_append, Scan.run_discard_one_cons]
      split at h
      next hd =>
        obtain ⟨-, rfl⟩ := Prod.mk.inj (Option.some.inj h)
        rw [if_pos hd]
      next => contradiction

theorem StopsBefore.char (c : Char) : StopsBefore rest (Scan.char c) :=
  .discard_one _

theorem StopsBefore.digits (h : Text.StartsWithout Char.isDigit rest) :
    StopsBefore rest Scan.digits := by
  refine ⟨fun cs ds mid hrun => ?_, .digits⟩
  have htaken : cs.takeWhile Char.isDigit ≠ [] ∧ cs.takeWhile Char.isDigit = ds ∧
      cs.dropWhile Char.isDigit = mid := by
    change Scan.digits cs = some (ds, mid) at hrun
    unfold Scan.digits at hrun
    split at hrun
    next => contradiction
    next hne =>
      obtain ⟨rfl, rfl⟩ := Prod.mk.inj (Option.some.inj hrun)
      exact ⟨hne, rfl, rfl⟩
  obtain ⟨hne, rfl, rfl⟩ := htaken
  have hafter := (Text.startsWithout_dropWhile Char.isDigit cs).append h
  have hdigits : ∀ c ∈ cs.takeWhile Char.isDigit, c.isDigit = true :=
    fun c hc => List.mem_takeWhile_imp hc
  conv =>
    lhs
    rw [← List.takeWhile_append_dropWhile (p := Char.isDigit) (l := cs), List.append_assoc]
  exact Scan.run_digits hne hdigits hafter

/-- A look at the next character tells nothing about what follows a value. -/
theorem StopsBefore.peek {f : Option Char → Scan β} (h : Follows rest)
    (hf : ∀ c, StopsBefore rest (f c)) (hcomma : f (some ',') = f none)
    (hbracket : f (some ']') = f none) (hbrace : f (some '\x7d') = f none) :
    StopsBefore rest (Scan.peek >>= f) := by
  refine ⟨fun cs b mid hrun => ?_, .bind .peek fun c => (hf c).leavesEnd⟩
  cases cs with
  | cons c cs => exact (hf (some c)).run_append (c :: cs) b mid hrun
  | nil =>
      -- At the end of the text the next character belongs to what follows.
      have hmid := (hf none).run_append [] b mid hrun
      cases rest with
      | nil => exact hmid
      | cons c rest =>
          have hnone : f (some c) = f none := by
            have hc := h c rfl
            simp only [List.mem_cons, List.not_mem_nil, or_false] at hc
            rcases hc with rfl | rfl | rfl <;> assumption
          rw [← hnone] at hmid
          exact hmid

end StopsBefore

/-! ### The parts of a number -/

theorem stopsBefore_wholePart (h : Follows rest) : StopsBefore rest Source.wholePart := by
  refine .peek h (fun c => ?_) rfl rfl rfl
  split
  · exact .bind (.char '0') fun _ => .pure _
  · exact .digits (h.startsWithout (by decide))

theorem stopsBefore_fractionPart (h : Follows rest) : StopsBefore rest Source.fractionPart := by
  refine .peek h (fun c => ?_) rfl rfl rfl
  split
  · exact .bind (.char '.') fun _ => .bind (.digits (h.startsWithout (by decide))) fun _ => .pure _
  · exact .pure _

/-- Takes the sign and the digits of an exponent, behind its letter. -/
def Source.exponentDigits : Scan (Option (Bool × List Char)) := do
  match ← Scan.peek with
  | some '-' => do
    Scan.char '-'
    return some (true, ← Scan.digits)
  | some '+' => do
    Scan.char '+'
    return some (false, ← Scan.digits)
  | _ => return some (false, ← Scan.digits)

theorem stopsBefore_exponentDigits (h : Follows rest) :
    StopsBefore rest Source.exponentDigits := by
  have hdigits : StopsBefore rest Scan.digits := .digits (h.startsWithout (by decide))
  refine .peek h (fun c => ?_) rfl rfl rfl
  split
  · exact .bind (.char '-') fun _ => .bind hdigits fun _ => .pure _
  · exact .bind (.char '+') fun _ => .bind hdigits fun _ => .pure _
  · exact .bind hdigits fun _ => .pure _

theorem stopsBefore_exponentPart (h : Follows rest) : StopsBefore rest Source.exponentPart := by
  refine .peek h (fun c => ?_) rfl rfl rfl
  split
  · exact .bind (.discard_one _) fun _ => stopsBefore_exponentDigits h
  · exact .bind (.discard_one _) fun _ => stopsBefore_exponentDigits h
  · exact .pure _

/-- Takes a number behind its sign. -/
def Source.magnitude (negative : Bool) : Scan Numeral := do
  return ⟨negative, ← Source.wholePart, ← Source.fractionPart, ← Source.exponentPart⟩

/-- A number is taken off a text in front of what follows as it is taken off the text alone. -/
theorem stopsBefore_numeral (h : Follows rest) : StopsBefore rest Source.numeral := by
  have hmagnitude (negative : Bool) : StopsBefore rest (Source.magnitude negative) :=
    .bind (stopsBefore_wholePart h) fun _ => .bind (stopsBefore_fractionPart h) fun _ =>
      .bind (stopsBefore_exponentPart h) fun _ => .pure _
  refine .peek h (fun c => ?_) rfl rfl rfl
  dsimp only
  split
  · exact .bind (.char '-') fun _ => hmagnitude _
  · exact hmagnitude _

/-! ### Integers -/

theorem run_wholePart_digits (n : Nat) :
    Source.wholePart.run (Selection.Numeral.digits n) = some (Selection.Numeral.digits n, []) := by
  have hdigits := Scan.run_digits (Selection.Numeral.digits_ne_nil n)
    (fun c hc => Selection.Numeral.isDigit_of_mem_digits hc) (Text.startsWithout_nil _)
  rw [List.append_nil] at hdigits
  by_cases hzero : n = 0
  · rw [hzero, Selection.Numeral.digits_of_lt (by decide)]
    rfl
  have hhead := Selection.Numeral.head_digits_ne_zero hzero
  rw [Source.wholePart, StateT.run_bind, Scan.run_peek, Option.bind_eq_bind, Option.bind_some]
  split
  next h => exact absurd h hhead
  next => exact hdigits

theorem head_digits_ne_minus (n : Nat) : (Selection.Numeral.digits n).head? ≠ some '-' := by
  intro h
  have hdigit := Selection.Numeral.isDigit_of_mem_digits (List.mem_of_mem_head? h)
  contradiction

/-- An integer is read back from its text as a number without fraction and exponent. -/
theorem run_numeral_ofInt (n : Int) :
    Source.numeral.run (Selection.Numeral.ofInt n).toList =
      some (⟨decide (n < 0), Selection.Numeral.digits n.natAbs, none, none⟩, []) := by
  have hmagnitude (negative : Bool) :
      (Source.magnitude negative).run (Selection.Numeral.digits n.natAbs) =
        some (⟨negative, Selection.Numeral.digits n.natAbs, none, none⟩, []) := by
    rw [Source.magnitude, StateT.run_bind, run_wholePart_digits]
    rfl
  rw [Selection.Numeral.toList_ofInt, Source.numeral, StateT.run_bind, Scan.run_peek,
    Option.bind_eq_bind, Option.bind_some]
  dsimp only
  by_cases hsign : n < 0
  · rw [if_pos hsign, decide_eq_true hsign, ← hmagnitude]
    rfl
  · have hhead : ((Selection.Numeral.digits n.natAbs).head? == some '-') = false :=
      beq_eq_false_iff_ne.mpr (head_digits_ne_minus _)
    rw [if_neg hsign, decide_eq_false hsign, List.nil_append, hhead, if_neg Bool.false_ne_true]
    exact hmagnitude false

/-- A number that a JSON text can hold: an integer of 64 bits, signed or unsigned, or a finite
float. -/
def Number.Valid : Number → Prop
  | .integer n => Int64.minValue.toInt ≤ n ∧ n < UInt64.size
  | .float x => x.isFinite = true

/-- A number whose text is a numeral that denotes it. -/
def Number.Recovered (n : Number) : Prop :=
  ∃ numeral, Source.numeral.run n.text.toList = some (numeral, []) ∧ numeral.toNumber? = some n

theorem signed_natAbs (n : Int) : Binary64.signed (decide (n < 0)) n.natAbs = n := by
  unfold Binary64.signed
  by_cases h : n < 0
  · rw [if_pos (decide_eq_true h)]
    omega
  · rw [if_neg (by simpa using h)]
    omega

/-- An integer of 64 bits is recovered from its text. -/
theorem recovered_integer {n : Int} (h : (Number.integer n).Valid) :
    (Number.integer n).Recovered := by
  obtain ⟨hlow, hhigh⟩ := h
  have hmin : Int64.minValue.toInt = -9223372036854775808 := rfl
  have hsize : UInt64.size = 18446744073709551616 := rfl
  refine ⟨_, run_numeral_ofInt n, ?_⟩
  rw [Numeral.toNumber?, Selection.Numeral.value_digits, if_pos, signed_natAbs]
  rw [hmin] at hlow
  rw [hsize] at hhigh ⊢
  by_cases hsign : n < 0
  · simp [hsign]
    omega
  · simp [hsign]
    omega

end Selection.Json
