import Mathlib.Algebra.Order.Field.Rat
import Mathlib.Tactic.FieldSimp
import Selection.Number.Decimal
import Selection.Proofs.Clock

/-! # Decimals are read back from their texts

The text of a decimal shows its digits and its scale, except that a zero is one digit and a whole
number of up to 15 zeros at the end is written out. So a decimal is read back as the same number,
and nearly always with the same scale. Its text is not taken for a date or a time.
-/

namespace Selection

namespace Decimal

/-- The number that a decimal denotes. -/
def number (x : Decimal) : ℚ :=
  x.digits * 10 ^ (-x.scale)

variable {x : Decimal} {ds base : List Char}

/-! ## Digits and signs -/

/-- The minus sign of a negative decimal. -/
def sign (x : Decimal) : List Char :=
  if x.digits < 0 then ['-'] else []

/-- A decimal is written as its sign and then its magnitude. -/
theorem toList_text (x : Decimal) : x.text.toList = x.sign ++ x.magnitudeText := by
  unfold text sign
  split <;> simp

/-- Digits are read as the number that they denote. -/
theorem readDigits?_eq_some (hne : ds ≠ []) (hdigits : ∀ c ∈ ds, c.isDigit = true) :
    readDigits? ds = some (Numeral.value ds) := by
  have hplain : ∀ c ∈ ds, (c != '_') = true := by
    intro c hc
    rw [bne_iff_ne]
    rintro rfl
    exact absurd (hdigits '_' hc) (by decide)
  have hhead : ds.head? ≠ some '_' := by
    intro h
    exact absurd (hdigits '_' (List.mem_of_mem_head? h)) (by decide)
  rw [readDigits?, if_neg hhead, List.filter_eq_self.mpr hplain, Numeral.read?_eq_some hne hdigits]

/-- Digits are read with the sign of the decimal. -/
theorem readSigned?_sign_append (x : Decimal) (hne : ds ≠ []) (hdigits : ∀ c ∈ ds, c.isDigit = true)
    {k : Nat} (hvalue : Numeral.value ds = x.digits.natAbs * 10 ^ k) :
    readSigned? (x.sign ++ ds) = some (x.digits * 10 ^ k) := by
  have hread := readDigits?_eq_some hne hdigits
  rw [hvalue] at hread
  unfold sign
  by_cases hnegative : x.digits < 0
  · have hback : -((x.digits.natAbs : Int) * 10 ^ k) = x.digits * 10 ^ k := by
      rw [Int.ofNat_natAbs_of_nonpos hnegative.le, neg_mul, neg_neg]
    rw [if_pos hnegative, List.singleton_append, readSigned?, hread]
    simpa using hback
  · have hback : (x.digits.natAbs : Int) * 10 ^ k = x.digits * 10 ^ k := by
      rw [Int.natAbs_of_nonneg (Int.not_lt.mp hnegative)]
    rw [if_neg hnegative, List.nil_append, readSigned?, hread]
    · simpa using hback
    · rintro rest rfl
      exact absurd (hdigits '-' List.mem_cons_self) (by decide)
    · rintro rest rfl
      exact absurd (hdigits '+' List.mem_cons_self) (by decide)

theorem among_sign (x : Decimal) : Text.Among ['-', '.'] x.sign := by
  unfold sign
  split <;> decide

/-! ## Bases -/

/-- A base spells a decimal when it is read as the digits of the decimal with `zeros` more zeros,
`places` of them after the point. -/
structure Spells (x : Decimal) (base : List Char) (zeros places : Nat) : Prop where
  among : Text.Among ['-', '.'] base
  starts : ∃ ds rest, base = x.sign ++ (ds ++ rest) ∧ ds ≠ [] ∧ (∀ c ∈ ds, c.isDigit = true) ∧
    (rest = [] ∨ rest.head? = some '.')
  readSigned : readSigned? (splitPoint base).1 = some (x.digits * 10 ^ zeros)
  places_eq : (splitPoint base).2 = places

variable {zeros places : Nat}

theorem sign_ne_point (x : Decimal) (hdigits : ∀ c ∈ ds, c.isDigit = true) :
    ∀ c ∈ x.sign ++ ds, (c == '.') = false := by
  intro c hc
  rcases List.mem_append.mp hc with hc | hc
  · rw [sign] at hc
    split at hc
    · rw [List.mem_singleton.mp hc]
      rfl
    · contradiction
  · exact Text.beq_eq_false_of_isDigit (hdigits c hc) (by decide)

theorem spells_digits (x : Decimal) (hne : ds ≠ []) (hdigits : ∀ c ∈ ds, c.isDigit = true)
    (hvalue : Numeral.value ds = x.digits.natAbs * 10 ^ zeros) :
    x.Spells (x.sign ++ ds) zeros 0 := by
  have hsplit : splitPoint (x.sign ++ ds) = (x.sign ++ ds, 0) := by
    rw [splitPoint, Text.cutAt_eq_none (x.sign_ne_point hdigits)]
  constructor
  · exact x.among_sign.append fun c hc => .inl (hdigits c hc)
  · exact ⟨ds, [], by rw [List.append_nil], hne, hdigits, .inl rfl⟩
  · rw [hsplit, x.readSigned?_sign_append hne hdigits hvalue]
  · rw [hsplit]

theorem spells_point (x : Decimal) (whole fraction : List Char) (hne : whole ≠ [])
    (hdigits : ∀ c ∈ whole ++ fraction, c.isDigit = true)
    (hvalue : Numeral.value (whole ++ fraction) = x.digits.natAbs * 10 ^ zeros) :
    x.Spells (x.sign ++ (whole ++ '.' :: fraction)) zeros fraction.length := by
  have hwhole : ∀ c ∈ whole, c.isDigit = true := fun c hc => hdigits c (List.mem_append_left _ hc)
  have hfraction : ∀ c ∈ fraction, c.isDigit = true :=
    fun c hc => hdigits c (List.mem_append_right _ hc)
  have hplain : fraction.filter (· != '_') = fraction := by
    rw [List.filter_eq_self]
    intro c hc
    rw [bne, Text.beq_eq_false_of_isDigit (hfraction c hc) (by decide), Bool.not_false]
  have hsplit : splitPoint (x.sign ++ (whole ++ '.' :: fraction)) =
      (x.sign ++ (whole ++ fraction), fraction.length) := by
    rw [splitPoint, ← List.append_assoc, Text.cutAt_append (x.sign_ne_point hwhole) (by rfl)]
    simp [hplain]
  constructor
  · refine x.among_sign.append (.append (fun c hc => .inl (hwhole c hc)) (.cons ?_ ?_))
    · decide
    · exact fun c hc => .inl (hfraction c hc)
  · exact ⟨whole, '.' :: fraction, rfl, hne, hwhole, .inr rfl⟩
  · rw [hsplit, x.readSigned?_sign_append (List.append_ne_nil_of_left_ne_nil hne _) hdigits hvalue]
  · rw [hsplit]

theorem Spells.no_exponent (h : x.Spells base zeros places) :
    ∀ c ∈ base, (c == 'e' || c == 'E') = false := by
  intro c hc
  rcases h.among c hc with hdigit | hextra
  · rw [Text.beq_eq_false_of_isDigit hdigit (by decide),
      Text.beq_eq_false_of_isDigit hdigit (by decide), Bool.or_false]
  · simp only [List.mem_cons, List.not_mem_nil, or_false] at hextra
    rcases hextra with rfl | rfl <;> rfl

/-- What spells a decimal is read as its digits, zeros and places told. -/
theorem Spells.read? (h : x.Spells base zeros places) :
    Decimal.read? base = ofScale? (x.digits * 10 ^ zeros) places := by
  rw [Decimal.read?, Text.cutAt_eq_none h.no_exponent]
  simp [h.readSigned, h.places_eq]

/-! ## Exponents -/

/-- An exponent is read back from its text. -/
theorem readExponent?_exponentText (e : Int) : readExponent? (exponentText e) = some e := by
  unfold exponentText
  by_cases hnegative : e < 0
  · have hback : -(e.natAbs : Int) = e := by omega
    rw [if_pos hnegative, readExponent?, Numeral.read?_digits]
    simpa using hback
  · have hback : (e.natAbs : Int) = e := by omega
    rw [if_neg hnegative, readExponent?, Numeral.read?_digits]
    simpa using hback

/-- An exponent behind what spells a decimal takes places from it. -/
theorem Spells.read?_exponent (h : x.Spells base zeros places) {letter : Char} {e : Int}
    (hletter : letter = 'e' ∨ letter = 'E') :
    Decimal.read? (base ++ letter :: exponentText e) =
      ofScale? (x.digits * 10 ^ zeros) (places - e) := by
  rw [Decimal.read?, Text.cutAt_append h.no_exponent (by simpa using hletter)]
  simp [h.readSigned, h.places_eq, readExponent?_exponentText]

/-! ## The text of a decimal -/

theorem isDigit_of_mem_digits (x : Decimal) :
    ∀ c ∈ Numeral.digits x.digits.natAbs, c.isDigit = true :=
  fun _ hc => Numeral.isDigit_of_mem_digits hc

theorem value_digits (x : Decimal) :
    Numeral.value (Numeral.digits x.digits.natAbs) = x.digits.natAbs * 10 ^ 0 := by
  rw [Numeral.value_digits, Nat.pow_zero, Nat.mul_one]

/-- The zeros that are written out at the end of a whole number. -/
theorem spells_positional_whole (x : Decimal) (h : x.scale ≤ 0) :
    x.Spells (x.sign ++ x.positional) (-x.scale).toNat 0 := by
  rw [positional, if_pos h]
  apply x.spells_digits
  · exact List.append_ne_nil_of_left_ne_nil (Numeral.digits_ne_nil _) _
  · exact fun _ hc => Numeral.isDigit_of_mem_digits_zeros hc
  · rw [Numeral.value_append_zeros, Numeral.value_digits]

theorem spells_positional_point (x : Decimal) (h : 0 < x.scale) :
    x.Spells (x.sign ++ x.positional) 0 x.scale.toNat := by
  rw [positional, if_neg (Int.not_le.mpr h)]
  dsimp only
  generalize hds :
    List.replicate (x.scale.toNat + 1 - (Numeral.digits x.digits.natAbs).length) '0' ++
      Numeral.digits x.digits.natAbs = ds
  have hlong : x.scale.toNat + 1 ≤ ds.length := by
    rw [← hds, List.length_append, List.length_replicate]
    omega
  have hdigits : ∀ c ∈ ds, c.isDigit = true := by
    intro c hc
    rw [← hds] at hc
    exact Numeral.isDigit_of_mem_padded hc
  have hvalue : Numeral.value ds = x.digits.natAbs * 10 ^ 0 := by
    rw [← hds, Numeral.value_zeros_append, x.value_digits]
  have hplaces : (ds.drop (ds.length - x.scale.toNat)).length = x.scale.toNat := by
    rw [List.length_drop]
    omega
  have hwhole : ds.take (ds.length - x.scale.toNat) ≠ [] := by
    rw [← List.length_pos_iff, List.length_take]
    omega
  have hspells := x.spells_point _ _ hwhole (by rwa [List.take_append_drop])
    (by rwa [List.take_append_drop])
  rwa [hplaces] at hspells

/-- A tiny decimal is written with an exponent behind its digits, a point after the first of
several. -/
theorem magnitudeText_tiny (x : Decimal) (hzero : x.digits ≠ 0) (htiny : x.isTiny = true) :
    ∃ base, x.magnitudeText =
        base ++ 'E' :: exponentText ((Numeral.digits x.digits.natAbs).length - 1 - x.scale) ∧
      x.Spells (x.sign ++ base) 0 ((Numeral.digits x.digits.natAbs).length - 1) := by
  have hvalue := x.value_digits
  have hdigits := x.isDigit_of_mem_digits
  have hne := Numeral.digits_ne_nil x.digits.natAbs
  rw [magnitudeText, if_neg hzero, if_pos htiny]
  generalize Numeral.digits x.digits.natAbs = ds at hvalue hdigits hne ⊢
  refine ⟨_, rfl, ?_⟩
  split
  next d e rest => exact x.spells_point [d] (e :: rest) (by simp) hdigits hvalue
  next hshort =>
    rcases ds with _ | ⟨d, _ | ⟨e, rest⟩⟩
    · contradiction
    · exact x.spells_digits hne hdigits hvalue
    · exact absurd rfl (hshort d e rest)

/-- The text of a decimal: a base that spells it, and an exponent where the scale is far from what
the base shows. Only a zero has a text that does not tell its scale. -/
inductive Written (x : Decimal) : List Char → Prop
  | plain {base : List Char} {zeros places : Nat} (spells : x.Spells base zeros places)
      (scale_eq : (places : Int) = x.scale + zeros)
      (scale_le_max : (places : Int) ≤ Int64.maxValue.toInt) : Written x base
  | exponential {base : List Char} {zeros places : Nat} {letter : Char} {e : Int}
      (spells : x.Spells base zeros places) (letter_eq : letter = 'e' ∨ letter = 'E')
      (scale_eq : places - e = x.scale + zeros) (scale_le_max : places - e ≤ Int64.maxValue.toInt) :
      Written x (base ++ letter :: exponentText e)
  | zero (digits_eq : x.digits = 0) : Written x ['0']

/-- The text of a decimal is one of the forms in which decimals are written. -/
theorem written_text (x : Decimal) : x.Written x.text.toList := by
  have hmax := x.scale_le_max
  have hbound : (0 : Int) ≤ Int64.maxValue.toInt := by decide
  rw [toList_text]
  by_cases hzero : x.digits = 0
  · have htext : x.sign ++ x.magnitudeText = ['0'] := by
      rw [sign, magnitudeText, hzero]
      rfl
    rw [htext]
    exact .zero hzero
  by_cases htiny : x.isTiny = true
  · obtain ⟨base, htext, hspells⟩ := x.magnitudeText_tiny hzero htiny
    have hlength := Numeral.length_digits_pos x.digits.natAbs
    rw [htext, ← List.append_assoc]
    exact .exponential hspells (.inr rfl) (by omega) (by omega)
  rw [magnitudeText, if_neg hzero, if_neg htiny]
  split
  next hzeros =>
    -- There are too many zeros to write them out, and the exponent counts them.
    have hspells : x.Spells (x.sign ++ Numeral.digits x.digits.natAbs) 0 0 :=
      x.spells_digits (Numeral.digits_ne_nil _) x.isDigit_of_mem_digits x.value_digits
    rw [← List.append_assoc]
    exact .exponential hspells (.inl rfl) (by omega) (by omega)
  by_cases hwhole : x.scale ≤ 0
  · exact .plain (x.spells_positional_whole hwhole) (by omega) hbound
  · exact .plain (x.spells_positional_point (Int.not_le.mp hwhole)) (by omega) (by omega)

/-! ## Reading the text -/

/-- Digits with more zeros and as many more places denote the same number. -/
theorem number_shifted (x : Decimal) {k : Nat} {scale : Int} (hscale : scale = x.scale + k) :
    ((x.digits * 10 ^ k : Int) : ℚ) * 10 ^ (-scale) = x.number := by
  have hten : (10 : ℚ) ≠ 0 := by decide
  rw [number, hscale, neg_add, zpow_add₀ hten, zpow_neg, zpow_neg, zpow_natCast]
  push_cast
  field_simp

/-- Digits at a scale that is not smaller denote the same number. -/
theorem number_digitsAt (x : Decimal) {scale : Int} (h : x.scale ≤ scale) :
    (x.digitsAt scale : ℚ) * 10 ^ (-scale) = x.number :=
  x.number_shifted (by omega)

/-- An integer has itself as its number. -/
theorem number_ofInt (n : Int) : (ofInt n).number = n := by
  simp [number, ofInt]

/-- Digits with zeros at the end, and a scale for these, are of the same number. -/
theorem ofScale?_shifted (x : Decimal) {k : Nat} {scale : Int} (hscale : scale = x.scale + k)
    (hmax : scale ≤ Int64.maxValue.toInt) :
    ∃ y, ofScale? (x.digits * 10 ^ k) scale = some y ∧ y.number = x.number := by
  have hmin : Int64.minValue.toInt ≤ scale := by
    have := x.min_le_scale
    omega
  exact ⟨⟨x.digits * 10 ^ k, scale, hmin, hmax⟩, dif_pos ⟨hmin, hmax⟩, x.number_shifted hscale⟩

/-- A decimal is read back from its text as the same number. -/
theorem read?_text (x : Decimal) :
    ∃ y, Decimal.read? x.text.toList = some y ∧ y.number = x.number := by
  have hwritten := x.written_text
  generalize x.text.toList = cs at hwritten
  cases hwritten with
  | plain hspells hscale hmax =>
      rw [hspells.read?]
      exact x.ofScale?_shifted hscale hmax
  | exponential hspells hletter hscale hmax =>
      rw [hspells.read?_exponent hletter]
      exact x.ofScale?_shifted hscale hmax
  | zero hzero =>
      have hread : Decimal.read? ['0'] = some (ofInt 0) := by rfl
      exact ⟨ofInt 0, hread, by rw [number_ofInt, number, hzero]; simp⟩

/-! ## Sums -/

/-- The sum of decimals is the sum of their numbers. -/
theorem number_add (x y : Decimal) : (x.add y).number = x.number + y.number := by
  have hsum : (x.add y).number =
      ((x.digitsAt (max x.scale y.scale) + y.digitsAt (max x.scale y.scale) : Int) : ℚ) *
        10 ^ (-max x.scale y.scale) := rfl
  rw [hsum, Int.cast_add, add_mul, x.number_digitsAt (le_max_left _ _),
    y.number_digitsAt (le_max_right _ _)]

/-! ## What the text is not taken for -/

/-- The characters of a decimal besides its digits. -/
def marks : List Char :=
  ['+', '-', '.', 'E', 'e']

theorem among_exponentText (e : Int) : Text.Among marks (exponentText e) := by
  unfold exponentText
  split
  · exact .cons (.inr (by decide)) (Numeral.among_digits _ _)
  · exact .cons (.inr (by decide)) (Numeral.among_digits _ _)

/-- The text of a decimal has digits and marks of numbers only. -/
theorem among_text (x : Decimal) : Text.Among marks x.text.toList := by
  have hwritten := x.written_text
  generalize x.text.toList = cs at hwritten
  cases hwritten with
  | plain hspells => exact hspells.among.mono (by decide)
  | @exponential base _ _ letter e hspells hletter =>
      refine (hspells.among.mono (by decide)).append (.cons (.inr ?_) (among_exponentText e))
      rcases hletter with rfl | rfl <;> decide
  | zero => decide

/-- The text is a sign, a run of digits, and a rest that starts with neither a digit nor a
hyphen. -/
theorem text_eq_digits_append (x : Decimal) :
    ∃ sign ds rest, x.text.toList = sign ++ (ds ++ rest) ∧ (sign = [] ∨ sign = ['-']) ∧ ds ≠ [] ∧
      (∀ c ∈ ds, c.isDigit = true) ∧ Text.StartsWithout (fun c => c.isDigit || c == '-') rest := by
  have hsign : x.sign = [] ∨ x.sign = ['-'] := by
    unfold sign
    split
    · exact .inr rfl
    · exact .inl rfl
  have hwritten := x.written_text
  generalize x.text.toList = cs at hwritten
  cases hwritten with
  | plain hspells =>
      obtain ⟨ds, rest, rfl, hne, hdigits, hrest⟩ := hspells.starts
      refine ⟨x.sign, ds, rest, rfl, hsign, hne, hdigits, ?_⟩
      rcases hrest with rfl | hpoint
      · exact Text.startsWithout_nil _
      · intro c hc
        obtain rfl : '.' = c := Option.some.inj (hpoint.symm.trans hc)
        rfl
  -- What follows the digits is a point or the letter of the exponent.
  | @exponential base _ _ letter e hspells hletter =>
      obtain ⟨ds, rest, rfl, hne, hdigits, hrest⟩ := hspells.starts
      refine ⟨x.sign, ds, rest ++ letter :: exponentText e, by simp, hsign, hne, hdigits, ?_⟩
      rcases hrest with rfl | hpoint
      · rw [List.nil_append, Text.startsWithout_cons]
        rcases hletter with rfl | rfl <;> rfl
      · obtain ⟨rest, rfl⟩ := List.head?_eq_some_iff.mp hpoint
        exact Text.startsWithout_cons.mpr (by decide)
  | zero => exact ⟨[], ['0'], [], rfl, .inl rfl, by simp, by decide, Text.startsWithout_nil _⟩

theorem not_mem_text (x : Decimal) {c : Char} (hdigit : c.isDigit = false) (hmark : c ∉ marks) :
    c ∉ x.text.toList :=
  x.among_text.not_mem hdigit hmark

/-- The text of a decimal is no date. -/
theorem date_read?_text (x : Decimal) : Date.read? x.text.toList = none := by
  obtain ⟨sign, ds, rest, htext, hsign, hne, hdigits, hrest⟩ := x.text_eq_digits_append
  rw [htext, Date.read?_number hsign hne hdigits hrest]

end Decimal

end Selection
