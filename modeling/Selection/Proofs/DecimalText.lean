import Selection.Proofs.DecimalNumber
import Selection.Value.Conversion

/-! # Decimals that are written as integers

The text of a decimal is the numeral of an integer when the decimal is zero, or has no places and at
most 15 zeros at its end. The readers of integers take these texts for the number of the decimal,
and refuse the text of every other decimal.
-/

namespace Selection

variable {cs ds : List Char} {n : Int} {m : Nat}

/-! ## Numerals of integers -/

/-- A text is the numeral of an integer: its digits, behind a minus sign when it is negative. -/
inductive Numeral.IsInteger : List Char → Int → Prop
  | plain {ds : List Char} (ne_nil : ds ≠ []) (isDigit : ∀ c ∈ ds, c.isDigit = true) :
      IsInteger ds (value ds)
  | minus {ds : List Char} (ne_nil : ds ≠ []) (isDigit : ∀ c ∈ ds, c.isDigit = true)
      (pos : 0 < value ds) : IsInteger ('-' :: ds) (-(value ds : Int))

/-- What is read as a numeral has digits only. -/
theorem Numeral.isDigit_of_read? (h : read? cs = some m) : ∀ c ∈ cs, c.isDigit = true := by
  rw [read?] at h
  split at h
  next => contradiction
  next hdigits =>
    simp only [Bool.or_eq_true, Bool.not_eq_true', not_or, Bool.not_eq_false,
      List.all_eq_true] at hdigits
    exact hdigits.2

namespace Value

theorem among_of_readUnsigned? (h : readUnsigned? cs = some m) : Text.Among ['+', '-'] cs := by
  unfold readUnsigned? at h
  split at h
  · exact .cons (.inr (by decide)) fun c hc => .inl (Numeral.isDigit_of_read? h c hc)
  · exact fun c hc => .inl (Numeral.isDigit_of_read? h c hc)

theorem readSigned?_minus (cs : List Char) :
    readSigned? ('-' :: cs) = (Numeral.read? cs).map fun m : Nat => -(m : Int) := by
  rw [readSigned?]
  cases Numeral.read? cs <;> rfl

/-- Without a minus sign a signed integer is read like an unsigned one. -/
theorem readSigned?_no_minus (hminus : cs.head? ≠ some '-') :
    readSigned? cs = (readUnsigned? cs).map fun m : Nat => (m : Int) := by
  unfold readSigned?
  split
  · contradiction
  · cases readUnsigned? cs <;> rfl

theorem among_of_readSigned? (h : readSigned? cs = some n) : Text.Among ['+', '-'] cs := by
  by_cases hminus : cs.head? = some '-'
  · obtain ⟨rest, rfl⟩ := List.head?_eq_some_iff.mp hminus
    rw [readSigned?_minus] at h
    obtain ⟨m, hm, -⟩ := Option.map_eq_some_iff.mp h
    exact .cons (.inr (by decide)) fun c hc => .inl (Numeral.isDigit_of_read? hm c hc)
  · rw [readSigned?_no_minus hminus] at h
    obtain ⟨m, hm, -⟩ := Option.map_eq_some_iff.mp h
    exact among_of_readUnsigned? hm

/-- Without a plus sign an unsigned integer is read like a numeral. -/
theorem readUnsigned?_eq_read? (hplus : cs.head? ≠ some '+') :
    readUnsigned? cs = Numeral.read? cs := by
  unfold readUnsigned?
  split
  · simp at hplus
  · rfl

theorem head?_ne_of_isDigit {c : Char} (hc : c.isDigit = false) (h : ∀ c ∈ ds, c.isDigit = true) :
    ds.head? ≠ some c := by
  intro hhead
  rw [h c (List.mem_of_mem_head? hhead)] at hc
  contradiction

/-- The reader of signed integers takes the numeral of an integer for that integer. -/
theorem readSigned?_of_isInteger (h : Numeral.IsInteger cs n) : readSigned? cs = some n := by
  cases h with
  | plain hne hdigits =>
      have hminus := head?_ne_of_isDigit (c := '-') (by decide) hdigits
      have hplus := head?_ne_of_isDigit (c := '+') (by decide) hdigits
      rw [readSigned?_no_minus hminus, readUnsigned?_eq_read? hplus,
        Numeral.read?_eq_some hne hdigits, Option.map_some]
  | minus hne hdigits => rw [readSigned?_minus, Numeral.read?_eq_some hne hdigits, Option.map_some]

/-- The reader of unsigned integers takes the numeral of an integer for that integer when it is not
negative. -/
theorem readUnsigned?_of_isInteger (h : Numeral.IsInteger cs n) :
    readUnsigned? cs = some m ↔ n = m := by
  cases h with
  | plain hne hdigits =>
      have hplus := head?_ne_of_isDigit (c := '+') (by decide) hdigits
      rw [readUnsigned?_eq_read? hplus, Numeral.read?_eq_some hne hdigits, Option.some_inj,
        Int.natCast_inj]
  | @minus ds hne hdigits hpos =>
      refine iff_of_false ?_ (by omega)
      rw [readUnsigned?_eq_read? (by simp)]
      intro hread
      exact absurd (Numeral.isDigit_of_read? hread '-' List.mem_cons_self) (by decide)

end Value

namespace Decimal

variable {x : Decimal}

/-! ## Whole decimals -/

/-- A decimal is written without a point and an exponent. -/
def WrittenWhole (x : Decimal) : Prop :=
  x.digits = 0 ∨ -15 ≤ x.scale ∧ x.scale ≤ 0

instance (x : Decimal) : Decidable x.WrittenWhole :=
  inferInstanceAs (Decidable (_ ∨ _))

/-- A sign and the digits of a magnitude are the numeral of an integer. -/
theorem isInteger_sign_append (hne : ds ≠ []) (hdigits : ∀ c ∈ ds, c.isDigit = true) {k : Nat}
    (hvalue : Numeral.value ds = x.digits.natAbs * 10 ^ k) :
    Numeral.IsInteger (x.sign ++ ds) (x.digits * 10 ^ k) := by
  unfold sign
  split
  next hnegative =>
    have hback : x.digits * 10 ^ k = -(Numeral.value ds : Int) := by
      rw [hvalue, Int.natCast_mul, Int.ofNat_natAbs_of_nonpos hnegative.le]
      push_cast
      rw [neg_mul, neg_neg]
    have hpos : 0 < Numeral.value ds := by
      rw [hvalue]
      exact Nat.mul_pos (Int.natAbs_pos.mpr hnegative.ne) (Nat.pow_pos (by decide))
    rw [hback]
    exact .minus hne hdigits hpos
  next hnegative =>
    have hback : x.digits * 10 ^ k = (Numeral.value ds : Int) := by
      rw [hvalue, Int.natCast_mul, Int.natAbs_of_nonneg (Int.not_lt.mp hnegative)]
      push_cast
      rfl
    rw [hback]
    exact .plain hne hdigits

/-- The text of a decimal that is written whole is the numeral of its number. -/
theorem WrittenWhole.exists_isInteger (h : x.WrittenWhole) :
    ∃ n, Numeral.IsInteger x.text.toList n ∧ x.number = n := by
  by_cases hzero : x.digits = 0
  · refine ⟨0, ?_, by simp [number, hzero]⟩
    rw [toList_text, magnitudeText, if_pos hzero, sign, if_neg (by omega)]
    exact .plain (List.cons_ne_nil _ _) (by decide)
  · obtain ⟨hlow, hhigh⟩ := h.resolve_left hzero
    obtain ⟨k, hk⟩ := Int.exists_eq_neg_ofNat hhigh
    have htiny : ¬x.isTiny = true := by
      simp only [isTiny, decide_eq_true_eq]
      omega
    refine ⟨x.digits * 10 ^ k, ?_, ?_⟩
    · rw [toList_text, magnitudeText, if_neg hzero, if_neg htiny, if_neg (by omega), positional,
        if_pos hhigh, hk, neg_neg, Int.toNat_natCast]
      apply isInteger_sign_append
      · exact List.append_ne_nil_of_left_ne_nil (Numeral.digits_ne_nil _) _
      · exact fun _ hc => Numeral.isDigit_of_mem_digits_zeros hc
      · rw [Numeral.value_append_zeros, Numeral.value_digits]
    · rw [number, hk, neg_neg, zpow_natCast]
      push_cast
      rfl

/-- The text of a decimal that is not written whole has a point or an exponent. -/
theorem exists_mark (h : ¬x.WrittenWhole) : ∃ c ∈ x.text.toList, c ∈ ['.', 'e', 'E'] := by
  obtain ⟨hzero, hscale⟩ := not_or.mp h
  rw [toList_text, magnitudeText, if_neg hzero]
  split
  · exact ⟨'E', by simp, by decide⟩
  split
  · exact ⟨'e', by simp, by decide⟩
  · refine ⟨'.', ?_, by decide⟩
    rw [positional, if_neg (by omega)]
    simp

/-- A decimal is written whole when its text has no point and no exponent. -/
theorem writtenWhole_of_among {extra : List Char} (h : Text.Among extra x.text.toList)
    (hextra : ∀ c ∈ ['.', 'e', 'E'], c ∉ extra) : x.WrittenWhole := by
  by_contra hnot
  obtain ⟨c, hc, hmark⟩ := exists_mark hnot
  have hdigit : ∀ c ∈ ['.', 'e', 'E'], c.isDigit = false := by decide
  exact h.not_mem (hdigit c hmark) (hextra c hmark) hc

/-! ## Reading integers -/

/-- The reader of signed integers takes the text of a decimal for its number when it is written
whole, and refuses it otherwise. -/
theorem readSigned?_text_eq_some_iff :
    Value.readSigned? x.text.toList = some n ↔ x.WrittenWhole ∧ x.number = n := by
  constructor
  · intro h
    have hwhole := writtenWhole_of_among (Value.among_of_readSigned? h) (by decide)
    obtain ⟨k, hk, hnumber⟩ := hwhole.exists_isInteger
    rw [Value.readSigned?_of_isInteger hk] at h
    exact ⟨hwhole, Option.some.inj h ▸ hnumber⟩
  · rintro ⟨hwhole, hnumber⟩
    obtain ⟨k, hk, hnumber'⟩ := hwhole.exists_isInteger
    rw [Value.readSigned?_of_isInteger hk, Option.some_inj]
    exact_mod_cast hnumber'.symm.trans hnumber

/-- The text of a decimal is read as an unsigned integer just when it is written whole, and as its
number. -/
theorem readUnsigned?_text_eq_some_iff :
    Value.readUnsigned? x.text.toList = some m ↔ x.WrittenWhole ∧ x.number = (m : Int) := by
  constructor
  · intro h
    have hwhole := writtenWhole_of_among (Value.among_of_readUnsigned? h) (by decide)
    obtain ⟨k, hk, hnumber⟩ := hwhole.exists_isInteger
    exact ⟨hwhole, (Value.readUnsigned?_of_isInteger hk).mp h ▸ hnumber⟩
  · rintro ⟨hwhole, hnumber⟩
    obtain ⟨k, hk, hnumber'⟩ := hwhole.exists_isInteger
    rw [Value.readUnsigned?_of_isInteger hk]
    exact_mod_cast hnumber'.symm.trans hnumber

end Decimal

end Selection
