import Selection.Proofs.Decimal
import Selection.Proofs.Duration
import Selection.Proofs.Uuid
import Selection.Value.Conversion

/-! # Values on the wire

JSON has no type for decimals, uuids, dates, times and durations, so their values are carried as
texts. Each text is read back by the reader of its type as the value it was written from, a decimal
as the same number. The texts have no blanks at their ends and no braces, so they are never sigils.
-/

namespace Selection

namespace Value

variable {v w : Value} {s : String}

/-- Two values agree when they are equal, decimals as numbers whatever their scales. -/
inductive Agrees : Value → Value → Prop
  | refl (v : Value) : Agrees v v
  | decimal {x y : Decimal} (number_eq : x.number = y.number) : Agrees (decimal x) (decimal y)

/-- Values that agree are of one type. -/
theorem Agrees.dataType_eq (h : w.Agrees v) : w.dataType = v.dataType := by
  cases h <;> rfl

/-- A value that JSON keeps: of the floats only the finite ones, and of the instants those in a year
of four digits. -/
def Portable : Value → Prop
  | float x => x.isFinite = true
  | timestamp t => 0 ≤ t.date.civil.year ∧ t.date.civil.year ≤ 9999
  | _ => True

instance : DecidablePred Portable
  | float x => inferInstanceAs (Decidable (x.isFinite = true))
  | timestamp _ => inferInstanceAs (Decidable (_ ∧ _))
  | int _ | uint _ | decimal _ | string _ | boolean _ | uuid _ | date _ | timestampNaive _ | time _
  | duration _ | null => isTrue trivial

/-! ## Integers -/

theorem ofSigned?_toInt (n : Int64) : ofSigned? n.toInt = some n := by
  rw [ofSigned?, if_pos ⟨n.minValue_le_toInt, n.toInt_le⟩, Int64.ofInt_toInt]

theorem ofUnsigned?_toNat (n : UInt64) : ofUnsigned? n.toNat = some n := by
  rw [ofUnsigned?, if_pos ⟨by omega, by exact_mod_cast n.toNat_lt⟩, Int.toNat_natCast,
    UInt64.ofNat_toNat]

theorem exists_signed_or_unsigned (n : UInt64) :
    (∃ m : Int64, m.toInt = n.toNat ∧ ofJson? (uint n).toJson = some (int m)) ∨
      Int64.maxValue.toInt < n.toNat ∧ ofJson? (uint n).toJson = some (uint n) := by
  have hjson : (uint n).toJson = .number (.integer n.toNat) := rfl
  by_cases hsmall : (n.toNat : Int) ≤ Int64.maxValue.toInt
  · have hlow : Int64.minValue.toInt ≤ n.toNat := Int.le_trans (by decide) (Int.natCast_nonneg _)
    refine .inl ⟨.ofInt n.toNat, Int64.toInt_ofInt_of_le hlow ?_, ?_⟩
    · exact Int.lt_of_le_of_lt hsmall (by decide)
    · rw [hjson, ofJson?, ofSigned?, if_pos ⟨hlow, hsmall⟩]
  · refine .inr ⟨Int.not_le.mp hsmall, ?_⟩
    rw [hjson, ofJson?, ofSigned?, if_neg fun h => hsmall h.2, ofUnsigned?_toNat]

/-! ## Literals -/

/-- A value that JSON has a literal of its own for. An unsigned integer is one when it is too large
for a signed one. -/
def Literal : Value → Prop
  | null | boolean _ | string _ | int _ => True
  | uint n => Int64.maxValue.toInt < n.toNat
  | float x => x.isFinite = true
  | decimal _ | uuid _ | date _ | timestamp _ | timestampNaive _ | time _ | duration _ => False

/-- A literal is read back from its JSON. -/
theorem Literal.ofJson?_toJson (h : v.Literal) : ofJson? v.toJson = some v := by
  cases v with
  | int n =>
      change ofJson? (.number (.integer n.toInt)) = _
      rw [ofJson?, ofSigned?_toInt]
  | uint n =>
      rcases exists_signed_or_unsigned n with ⟨m, hm, -⟩ | ⟨-, hjson⟩
      · exact absurd (hm ▸ m.toInt_le) (Int.not_le.mpr h)
      · exact hjson
  | float x =>
      have hfinite : x.isFinite = true := h
      rw [toJson, if_pos hfinite]
      rfl
  | null | boolean _ | string _ => rfl
  | decimal _ | uuid _ | date _ | timestamp _ | timestampNaive _ | time _ | duration _ =>
      exact absurd h not_false

/-! ## Texts -/

/-- The text that carries a value of a type that JSON lacks. -/
def wireText? : Value → Option String
  | decimal x => some x.text
  | uuid u => some u.text
  | date d => some d.text
  | timestamp t => some t.utcText
  | timestampNaive t => some t.text
  | time t => some t.text
  | duration d => some d.iso
  | _ => none

theorem dataType_ne_string_of_wireText? (h : v.wireText? = some s) : v.dataType ≠ .string := by
  cases v <;> first | contradiction | nofun

/-- The value that JSON gives back for another one. -/
inductive CarriedAs : Value → Value → Prop
  | literal {v : Value} (literal : v.Literal) : CarriedAs v v
  | signed {n : UInt64} {m : Int64} (toInt_eq : m.toInt = n.toNat) : CarriedAs (uint n) (int m)
  | text {v : Value} {s : String} (wireText_eq : v.wireText? = some s) : CarriedAs v (string s)

/-- A value that JSON keeps is carried by its JSON form. -/
theorem Portable.carried (h : v.Portable) : ∃ u, ofJson? v.toJson = some u ∧ CarriedAs v u := by
  cases v with
  | uint n =>
      rcases exists_signed_or_unsigned n with ⟨m, hm, hjson⟩ | ⟨hlarge, hjson⟩
      · exact ⟨int m, hjson, .signed hm⟩
      · exact ⟨uint n, hjson, .literal hlarge⟩
  | float x =>
      have hliteral : (float x).Literal := h
      exact ⟨float x, hliteral.ofJson?_toJson, .literal hliteral⟩
  | null | boolean _ | string _ | int _ =>
      exact ⟨_, Literal.ofJson?_toJson trivial, .literal trivial⟩
  | decimal _ | uuid _ | date _ | timestamp _ | timestampNaive _ | time _ | duration _ =>
      exact ⟨_, rfl, .text rfl⟩

/-- The characters of the texts besides digits. -/
def wireMarks : List Char :=
  ['+', '-', '.', ':', 'D', 'E', 'H', 'M', 'P', 'S', 'T', 'a', 'b', 'c', 'd', 'e', 'f']

theorem among_wireText (h : v.wireText? = some s) : Text.Among wireMarks s.toList := by
  cases v <;> simp only [wireText?, Option.some.injEq, reduceCtorEq] at h <;> rw [← h]
  case decimal x => exact x.among_text.mono (by decide)
  case uuid u => exact u.among_text.mono (by decide)
  case date d => exact d.among_text.mono (by decide)
  case timestamp t => exact t.among_utcText.mono (by decide)
  case timestampNaive t => exact t.among_text.mono (by decide)
  case time t => exact t.among_text.mono (by decide)
  case duration d => exact d.among_iso.mono (by decide)

/-- The texts have no blanks to trim. -/
theorem trimmed_wireText (h : v.wireText? = some s) : trimmed s = s.toList :=
  (among_wireText h).trim_eq_self (by decide)

/-! ## Reading the texts -/

/-- A date is read back from its text. -/
theorem readTemporal?_date (d : Date) : readTemporal? d.text = some (date d) := by
  have htrim : trimmed d.text = d.text.toList := trimmed_wireText (v := date d) rfl
  have hcolon : ':' ∉ d.text.toList := d.among_text.not_mem (by decide) (by decide)
  simp only [readTemporal?, htrim, DateTime.readInstant?_eq_none (.inl hcolon),
    DateTime.read?_eq_none (.inl hcolon), d.read?_text]
  rfl

/-- A local time is read back from its text. -/
theorem readTemporal?_timestampNaive (t : DateTime) :
    readTemporal? t.text = some (timestampNaive t) := by
  have htrim : trimmed t.text = t.text.toList := trimmed_wireText (v := timestampNaive t) rfl
  simp only [readTemporal?, htrim, t.readInstant?_text, t.read?_text]
  rfl

/-- An instant is read back from its text. -/
theorem readTemporal?_timestamp {t : DateTime} (h : (timestamp t).Portable) :
    readTemporal? t.utcText = some (timestamp t) := by
  have htrim : trimmed t.utcText = t.utcText.toList := trimmed_wireText (v := timestamp t) rfl
  simp only [readTemporal?, htrim, t.readInstant?_utcText h]
  rfl

/-- What has no colon and is no date is nothing temporal. -/
theorem readTemporal?_eq_none (hcolon : ':' ∉ trimmed s) (hdate : Date.read? (trimmed s) = none) :
    readTemporal? s = none := by
  simp only [readTemporal?, DateTime.readInstant?_eq_none (.inl hcolon),
    DateTime.read?_eq_none (.inl hcolon), hdate]
  rfl

/-- A text converts back to the type of the value that it carries. -/
theorem convert?_wireText (hportable : v.Portable) (h : v.wireText? = some s) :
    ∃ w, (string s).convert? v.dataType = some w ∧ w.Agrees v := by
  have htrim := trimmed_wireText h
  cases v <;> simp only [wireText?, Option.some.injEq, reduceCtorEq] at h <;> subst h
  case decimal x =>
    obtain ⟨y, hread, hnumber⟩ := x.read?_text
    refine ⟨decimal y, ?_, .decimal hnumber⟩
    simp [convert?, dataType, toDecimal?, htrim, hread]
  case uuid u =>
    refine ⟨uuid u, ?_, .refl _⟩
    simp [convert?, dataType, toUuid?, htrim, u.read?_text]
  case date d =>
    refine ⟨date d, ?_, .refl _⟩
    simp [convert?, dataType, temporal?, readTemporal?_date, convertTemporal?]
  case timestamp t =>
    refine ⟨timestamp t, ?_, .refl _⟩
    simp [convert?, dataType, temporal?, readTemporal?_timestamp hportable, convertTemporal?]
  case timestampNaive t =>
    refine ⟨timestampNaive t, ?_, .refl _⟩
    simp [convert?, dataType, temporal?, readTemporal?_timestampNaive, convertTemporal?]
  case time t =>
    refine ⟨time t, ?_, .refl _⟩
    simp [convert?, dataType, toTime?, htrim, t.read?_text]
  case duration d =>
    refine ⟨duration d, ?_, .refl _⟩
    simp [convert?, dataType, spelledDuration?, d.ofText?_iso]

end Value

end Selection
