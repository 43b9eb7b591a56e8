import Selection.Proofs.Addition
import Selection.Proofs.DecimalText

/-! # What the texts of values are taken for

The reader of durations takes a number for days and a time of day for a time span. So it takes the
text of a decimal that is written whole, and that of a time of day that is no leap second, though
neither was written for a duration. The texts of dates and date-times it refuses. The reader of
decimals refuses a date, and every text with a character that no decimal has.
-/

namespace Selection

/-- The second hyphen of a date. -/
theorem Date.hyphen_mem_tail_text (d : Date) : '-' ∈ d.text.toList.tail := by
  rw [toList_text, ← List.cons_append, ← List.append_assoc, List.tail_append_of_ne_nil]
  · simp
  · simp

namespace Duration

variable {cs rest : List Char} {d : Duration} {n : Int} {p : Parts}

/-! ## Texts without a `P` -/

/-- A magnitude without the mark of the ISO form is a time span. -/
theorem IsMagnitude.isSpan {clock : ClockForm} (h : IsMagnitude clock cs p)
    (hP : ∀ c ∈ cs, (c.toUpper == 'P') = false) : IsSpan cs p := by
  cases h with
  | @iso cs c p hletter =>
      have hc := hP c List.mem_cons_self
      rw [hletter] at hc
      contradiction
  | span hspan => exact hspan

/-- A text without blanks and without a `P` is a duration when it is a time span, with a minus sign
before it or without. -/
theorem read?_eq_some_iff_isSpan (htrim : Text.trim cs = cs)
    (hP : ∀ c ∈ cs, (c.toUpper == 'P') = false) :
    read? cs = some d ↔ (∃ p, IsSpan cs p ∧ d.nanos = p.total) ∨
      ∃ body p, cs = '-' :: body ∧ IsSpan body p ∧ d.nanos = -p.total := by
  rw [read?_eq_some_iff]
  constructor
  · intro h
    cases h with
    | positive hmagnitude hnanos =>
        rw [htrim] at hmagnitude
        exact .inl ⟨_, hmagnitude.isSpan hP, hnanos⟩
    | @negative body p hbody hmagnitude hnanos =>
        rw [htrim] at hbody
        subst hbody
        have hspan : IsSpan body p := hmagnitude.isSpan fun c hc => hP c (List.mem_cons_of_mem _ hc)
        exact .inr ⟨_, _, rfl, hspan, hnanos⟩
  · rintro (⟨p, hspan, hnanos⟩ | ⟨body, p, rfl, hspan, hnanos⟩)
    · exact .positive (htrim.symm ▸ .span hspan) hnanos
    · exact .negative htrim (.span hspan) hnanos

/-- Without the mark of the ISO form the parts are read as a time span. -/
theorem readParts?_eq_readSpan? (hne : cs ≠ []) (hP : ∀ c ∈ cs, (c.toUpper == 'P') = false) :
    readParts? cs = readSpan? cs := by
  obtain ⟨c, rest, rfl⟩ := List.exists_cons_of_ne_nil hne
  have hc := hP c List.mem_cons_self
  rw [readParts?, if_neg (by simpa using hc)]

/-- Behind its first character no duration without a `P` has other characters than those of a time
span. -/
theorem read?_eq_none_of_mem_tail {c : Char} (htrim : Text.trim cs = cs)
    (hP : ∀ c ∈ cs, (c.toUpper == 'P') = false) (hc : c ∈ cs.tail) (hdigit : c.isDigit = false)
    (hmark : c ∉ ['.', ':']) : read? cs = none := by
  rw [Option.eq_none_iff_forall_ne_some]
  intro d hread
  rcases (read?_eq_some_iff_isSpan htrim hP).mp hread with
    ⟨p, hspan, -⟩ | ⟨body, p, rfl, hspan, -⟩
  · exact hspan.among.not_mem hdigit hmark (List.mem_of_mem_tail hc)
  · exact hspan.among.not_mem hdigit hmark hc

/-! ## Numerals -/

/-- A time span without a colon is a number of days. -/
theorem IsSpan.isNumber (h : IsSpan cs p) (hcolon : ':' ∉ cs) :
    ∃ days, IsNumber cs days ∧ p.total = days * 86400000000000 := by
  cases h with
  | @days cs days hdays =>
      refine ⟨days, hdays, ?_⟩
      simp only [Parts.total]
      omega
  | clock hclock =>
      obtain ⟨hs, hours, rest, rfl, -⟩ := hclock.exists_hours
      simp at hcolon
  | daysClock hdays hclock =>
      obtain ⟨hs, hours, rest, rfl, -⟩ := hclock.exists_hours
      simp at hcolon

/-- A number of days is a time span when it has 63 bits, as in a duration it has to. -/
theorem isSpan_digits (hne : cs ≠ []) (hdigits : ∀ c ∈ cs, c.isDigit = true)
    (hlimit : Numeral.value cs < 9223372036854775808) : IsSpan cs ⟨Numeral.value cs, 0, 0, 0, 0⟩ :=
  .days ⟨hne, hdigits, rfl, hlimit⟩

/-- The numeral of an integer is read as so many days. -/
theorem read?_of_isInteger (h : Numeral.IsInteger cs n) :
    read? cs = some d ↔ d.nanos = n * 86400000000000 := by
  have hwithin : d.nanos.natAbs ≤ 9223372036854775807 * 1000000 := d.within
  have hamong : Text.Among ['-'] cs := by
    cases h with
    | plain _ hdigits => exact fun c hc => .inl (hdigits c hc)
    | minus _ hdigits => exact .cons (.inr (by decide)) fun c hc => .inl (hdigits c hc)
  have hcolon : ':' ∉ cs := hamong.not_mem (by decide) (by decide)
  -- Without a `P` the text has to be a time span, and without a colon one of days alone.
  rw [read?_eq_some_iff_isSpan (hamong.trim_eq_self (by decide))
    (Sum.toUpper_ne_P hamong (by decide))]
  cases h with
  | plain hne hdigits =>
      constructor
      · rintro (⟨p, hspan, hnanos⟩ | ⟨body, p, rfl, -⟩)
        · obtain ⟨days, hdays, htotal⟩ := hspan.isNumber hcolon
          rw [hnanos, htotal, hdays.value_eq]
          push_cast
          rfl
        · exact absurd (hdigits '-' List.mem_cons_self) (by decide)
      · intro hnanos
        refine .inl ⟨_, isSpan_digits hne hdigits (by omega), ?_⟩
        simp only [Parts.total]
        omega
  | @minus ds hne hdigits hpos =>
      constructor
      · rintro (⟨p, hspan, -⟩ | ⟨body, p, hbody, hspan, hnanos⟩)
        · exact absurd List.mem_cons_self (hspan.among.not_mem (c := '-') (by decide) (by decide))
        · obtain rfl := (List.cons.inj hbody).2
          obtain ⟨days, hdays, htotal⟩ :=
            hspan.isNumber fun hc => hcolon (List.mem_cons_of_mem _ hc)
          rw [hnanos, htotal, hdays.value_eq]
          push_cast
          ring
      · intro hnanos
        refine .inr ⟨ds, _, rfl, isSpan_digits hne hdigits (by omega), ?_⟩
        simp only [Parts.total]
        omega

/-- The text of a decimal is read as so many days, when it is written whole. -/
theorem ofText?_decimal (x : Decimal) :
    ofText? x.text = some d ↔ x.WrittenWhole ∧ (d.nanos : ℚ) = x.number * 86400000000000 := by
  have hcolon : ':' ∉ x.text.toList := x.not_mem_text (by decide) (by decide)
  have hwhole : ofText? x.text = some d → x.WrittenWhole := by
    intro hread
    rcases (read?_eq_some_iff_isSpan (x.among_text.trim_eq_self (by decide))
      (Sum.toUpper_ne_P x.among_text (by decide))).mp hread with
      ⟨p, hspan, -⟩ | ⟨body, p, hbody, hspan, -⟩
    · obtain ⟨days, hdays, -⟩ := hspan.isNumber hcolon
      exact Decimal.writtenWhole_of_among (hdays.among []) (by decide)
    · rw [hbody] at hcolon
      obtain ⟨days, hdays, -⟩ := hspan.isNumber fun hc => hcolon (List.mem_cons_of_mem _ hc)
      have hamong : Text.Among ['-'] x.text.toList :=
        hbody ▸ .cons (.inr (by decide)) (hdays.among _)
      exact Decimal.writtenWhole_of_among hamong (by decide)
  refine ⟨fun hread => ⟨hwhole hread, ?_⟩, fun ⟨hwhole, hnanos⟩ => ?_⟩
  · obtain ⟨n, hn, hnumber⟩ := (hwhole hread).exists_isInteger
    rw [hnumber, (read?_of_isInteger hn).mp hread]
    push_cast
    rfl
  · obtain ⟨n, hn, hnumber⟩ := hwhole.exists_isInteger
    rw [hnumber] at hnanos
    exact (read?_of_isInteger hn).mpr (by exact_mod_cast hnanos)

/-! ## Times of day -/

theorem isSeconds_time (second nano : Nat) (hsecond : second < 9223372036854775808)
    (hnano : nano < 1000000000) :
    IsSeconds (Numeral.padded 2 second ++ (TimeOfDay.fractionText nano).toList) second nano := by
  have hnumber := isNumber_padded 2 hsecond
  have hpoint (width : Nat) (n : Nat) :
      ("." ++ Numeral.paddedText width n).toList = '.' :: Numeral.padded width n := by
    simp [Numeral.paddedText]
  unfold TimeOfDay.fractionText
  -- The fraction is left out or written with three, six or nine digits, the fewest that are exact.
  split
  next hzero =>
    rw [hzero]
    simpa using IsSeconds.whole hnumber
  split
  next hmillis =>
    have hfraction := isFraction_padded 3 (n := nano / 1000000) (by decide) (by decide) (by omega)
    rw [show nano / 1000000 * 10 ^ (9 - 3) = nano by omega] at hfraction
    rw [hpoint]
    exact .fraction hnumber hfraction
  split
  next hmicros =>
    have hfraction := isFraction_padded 6 (n := nano / 1000) (by decide) (by decide) (by omega)
    rw [show nano / 1000 * 10 ^ (9 - 6) = nano by omega] at hfraction
    rw [hpoint]
    exact .fraction hnumber hfraction
  next =>
    have hfraction := isFraction_padded 9 (by decide) (by decide) hnano
    rw [show nano * 10 ^ (9 - 9) = nano by omega] at hfraction
    rw [hpoint]
    exact .fraction hnumber hfraction

/-- The text of a time of day is read as the time since midnight, but that of a leap second is
refused. -/
theorem ofText?_time (t : TimeOfDay) :
    ofText? t.text = some d ↔ t.isLeap = false ∧ d.nanos = t.clock := by
  have hsecond := t.second_lt
  have hnano := t.nano_lt
  have hends := t.ends_minute
  have hhours := isNumber_padded 2 (n := t.second / 3600) (by omega)
  have hminutes := isNumber_padded 2 (n := t.second / 60 % 60) (by omega)
  have hseconds := isSeconds_time (t.second % 60 + t.nano / 1000000000) (t.nano % 1000000000)
    (by omega) (by omega)
  have htext : t.text.toList = Numeral.padded 2 (t.second / 3600) ++ ':' ::
      (Numeral.padded 2 (t.second / 60 % 60) ++ ':' ::
        (Numeral.padded 2 (t.second % 60 + t.nano / 1000000000) ++
          (TimeOfDay.fractionText (t.nano % 1000000000)).toList)) := by
    simp [TimeOfDay.text, TimeOfDay.toList_clockText]
  have hread : ofText? t.text = (readSpan? t.text.toList).bind fun p => ofNanos? p.total := by
    have hminus : '-' ∉ t.text.toList := t.among_text.not_mem (by decide) (by decide)
    have htrim := t.among_text.trim_eq_self (by decide)
    rw [ofText?, read?_no_minus fun body hbody => hminus (htrim ▸ hbody ▸ List.mem_cons_self),
      htrim, readParts?_eq_readSpan? (by simp [htext]) (Sum.toUpper_ne_P t.among_text (by decide))]
  -- The fields of a time of day are in their ranges but for the second 60 of a leap second.
  have hleap : (t.second / 3600 ≤ 23 ∧ t.second / 60 % 60 ≤ 59 ∧
      t.second % 60 + t.nano / 1000000000 ≤ 59) ↔ t.isLeap = false := by
    simp only [TimeOfDay.isLeap, decide_eq_false_iff_not]
    omega
  rw [hread, htext, readSpan?_hours hhours, readClock?_long hhours hminutes hseconds]
  by_cases h : t.isLeap = false
  · have htotal : ((Parts.total ⟨0, t.second / 3600, t.second / 60 % 60,
        t.second % 60 + t.nano / 1000000000, t.nano % 1000000000⟩ : Nat) : Int) = t.clock := by
      simp only [TimeOfDay.isLeap, decide_eq_false_iff_not] at h
      simp only [Parts.total, TimeOfDay.clock]
      omega
    rw [if_pos (hleap.mpr h), Option.bind_some, ofNanos?_eq_some_iff, htotal, and_iff_right h]
  · rw [if_neg (mt hleap.mp h)]
    exact iff_of_false (by simp) fun hd => h hd.1

/-! ## Dates -/

/-- The text of a date is no duration. -/
theorem ofText?_date (d : Date) : ofText? d.text = none :=
  read?_eq_none_of_mem_tail (d.among_text.trim_eq_self (by decide))
    (Sum.toUpper_ne_P d.among_text (by decide)) d.hyphen_mem_tail_text (by decide) (by decide)

/-- The texts of a date-time are no durations. -/
theorem ofText?_dateTime (t : DateTime) : ofText? t.text = none ∧ ofText? t.utcText = none := by
  have hmem (suffix : List Char) : 'T' ∈ (t.text.toList ++ suffix).tail := by
    rw [DateTime.toList_text, Date.toList_text, List.append_assoc, List.tail_append_of_ne_nil]
    · simp
    · simp
  constructor
  · refine read?_eq_none_of_mem_tail (t.among_text.trim_eq_self (by decide))
      (Sum.toUpper_ne_P t.among_text (by decide)) (c := 'T') ?_ (by decide) (by decide)
    simpa using hmem []
  · refine read?_eq_none_of_mem_tail (t.among_utcText.trim_eq_self (by decide))
      (Sum.toUpper_ne_P t.among_utcText (by decide)) (c := 'T') ?_ (by decide) (by decide)
    rw [DateTime.utcText, String.toList_append]
    exact hmem _

end Duration

namespace Decimal

variable {cs ds : List Char} {x : Decimal}

/-! ## What is no decimal -/

theorem among_of_readDigits? {n : Nat} (h : readDigits? ds = some n) : Text.Among ['_'] ds := by
  rw [readDigits?] at h
  split at h
  next => contradiction
  next =>
    intro c hc
    by_cases hplain : c = '_'
    · exact .inr (by simp [hplain])
    · exact .inl (Numeral.isDigit_of_read? h c (List.mem_filter.mpr ⟨hc, by simpa using hplain⟩))

/-- Digits have at most a sign before them. -/
theorem among_of_readSigned? {n : Int} (h : readSigned? ds = some n) :
    Text.Among ['+', '-', '_'] ds ∧ Text.Among ['_'] ds.tail := by
  have hcons {c : Char} {rest : List Char} (hc : c ∈ ['+', '-', '_'])
      (hrest : Text.Among ['_'] rest) :
      Text.Among ['+', '-', '_'] (c :: rest) ∧ Text.Among ['_'] (c :: rest).tail :=
    ⟨.cons (.inr hc) (hrest.mono (by decide)), hrest⟩
  have hdigits {rest : List Char} {f : Int → Int}
      (h : (do let k ← readDigits? rest; pure (k : Int)).map f = some n) :
      Text.Among ['_'] rest := by
    obtain ⟨_, hread, -⟩ := Option.map_eq_some_iff.mp h
    obtain ⟨k, hk, -⟩ := Option.bind_eq_some_iff.mp hread
    exact among_of_readDigits? hk
  unfold readSigned? at h
  split at h
  · exact hcons (by decide) (hdigits h)
  · exact hcons (by decide) (hdigits h)
  · exact ⟨(hdigits h).mono (by decide), fun c hc => hdigits h c (List.mem_of_mem_tail hc)⟩

theorem among_of_readExponent? {n : Int} (h : readExponent? ds = some n) :
    Text.Among ['+', '-'] ds := by
  have hdigits {rest : List Char} {f : Int → Int}
      (h : (do let k ← Numeral.read? rest; pure (k : Int)).map f = some n) :
      Text.Among ['+', '-'] rest := by
    obtain ⟨_, hread, -⟩ := Option.map_eq_some_iff.mp h
    obtain ⟨k, hk, -⟩ := Option.bind_eq_some_iff.mp hread
    exact fun c hc => .inl (Numeral.isDigit_of_read? hk c hc)
  unfold readExponent? at h
  split at h
  · exact .cons (.inr (by decide)) (hdigits h)
  · exact .cons (.inr (by decide)) (hdigits h)
  · exact hdigits h

theorem among_splitPoint {extra : List Char} (h : Text.Among extra (splitPoint cs).1)
    (hpoint : '.' ∈ extra) : Text.Among extra cs := by
  rw [splitPoint] at h
  split at h
  next => exact h
  next whole places hcut =>
    obtain ⟨c, rfl, hc, -⟩ := Text.cutAt_eq_some_iff.mp hcut
    obtain rfl := eq_of_beq hc
    intro c hc
    simp only [List.mem_append, List.mem_cons] at hc
    rcases hc with hc | rfl | hc
    · exact h c (List.mem_append_left _ hc)
    · exact .inr hpoint
    · exact h c (List.mem_append_right _ hc)

/-- The characters of a decimal besides its digits. -/
theorem among_of_read? (h : Decimal.read? cs = some x) :
    Text.Among ['+', '-', '.', 'E', '_', 'e'] cs := by
  have hbase {base : List Char} {e : Int}
      (h : (readSigned? (splitPoint base).1).bind (ofScale? · ((splitPoint base).2 - e)) = some x) :
      Text.Among ['+', '-', '.', 'E', '_', 'e'] base := by
    obtain ⟨n, hn, -⟩ := Option.bind_eq_some_iff.mp h
    exact among_splitPoint ((among_of_readSigned? hn).1.mono (by decide)) (by decide)
  rw [Decimal.read?] at h
  split at h
  next => exact hbase h
  next base exponent hcut =>
    obtain ⟨k, hk, h⟩ := Option.bind_eq_some_iff.mp h
    obtain ⟨c, rfl, hc, -⟩ := Text.cutAt_eq_some_iff.mp hcut
    have hletter : c ∈ ['+', '-', '.', 'E', '_', 'e'] := by
      rcases Bool.or_eq_true_iff.mp hc with hc | hc <;> rw [eq_of_beq hc] <;> decide
    exact (hbase h).append (.cons (.inr hletter) ((among_of_readExponent? hk).mono (by decide)))

/-- Without a point and an exponent there is only a sign before the digits. -/
theorem read?_eq_none_of_mem_tail {c : Char} (hamong : Text.Among ['+', '-'] cs) (hc : c ∈ cs.tail)
    (hdigit : c.isDigit = false) (hmark : c ∉ ['_']) : Decimal.read? cs = none := by
  have hnot {c : Char} (hc : c ∈ cs) : (c == 'e' || c == 'E') = false ∧ (c == '.') = false := by
    rcases hamong c hc with hdigit | hsign
    · rw [Text.beq_eq_false_of_isDigit hdigit (by decide),
        Text.beq_eq_false_of_isDigit hdigit (by decide),
        Text.beq_eq_false_of_isDigit hdigit (by decide)]
      exact ⟨rfl, rfl⟩
    · simp only [List.mem_cons, List.not_mem_nil, or_false] at hsign
      rcases hsign with rfl | rfl <;> exact ⟨rfl, rfl⟩
  have hread : readSigned? cs = none := by
    rw [Option.eq_none_iff_forall_ne_some]
    intro n hn
    exact (among_of_readSigned? hn).2.not_mem hdigit hmark hc
  rw [Decimal.read?, Text.cutAt_eq_none fun c hc => (hnot hc).1]
  simp [splitPoint, Text.cutAt_eq_none fun c hc => (hnot hc).2, hread]

/-- The text of a date is no decimal. -/
theorem read?_date (d : Date) : Decimal.read? d.text.toList = none :=
  read?_eq_none_of_mem_tail d.among_text d.hyphen_mem_tail_text (by decide) (by decide)

theorem read?_eq_none_of_mem {c : Char} (hc : c ∈ cs) (hdigit : c.isDigit = false)
    (hmark : c ∉ ['+', '-', '.', 'E', '_', 'e']) : Decimal.read? cs = none := by
  rw [Option.eq_none_iff_forall_ne_some]
  intro x hx
  exact (among_of_read? hx).not_mem hdigit hmark hc

end Decimal

end Selection
