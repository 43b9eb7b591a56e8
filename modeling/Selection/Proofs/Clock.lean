import Selection.Proofs.Calendar

/-! # Times and date-times are read back from their texts

A time of day is read back from its text, a leap second as the second 60 of its minute. A local
date-time and an instant are read back too. An instant is told from a local date-time by its offset,
a date-time from a date by its colons, and from a time of day by its hyphens.
-/

namespace Selection

open Text (StartsWithout)

variable {ds rest : List Char}

/-! ## Times of day -/

namespace TimeOfDay

theorem ext {t u : TimeOfDay} (hsecond : t.second = u.second) (hnano : t.nano = u.nano) :
    t = u := by
  cases t
  cases u
  obtain rfl := hsecond
  obtain rfl := hnano
  rfl

/-- A time of day is the time of its hour, minute and second on a clock. -/
theorem ofClock?_parts (t : TimeOfDay) :
    ofClock? (t.second / 3600) (t.second / 60 % 60) (t.second % 60 + t.nano / 1000000000)
      (t.nano % 1000000000) = some t := by
  have hsecond := t.second_lt
  have hnano := t.nano_lt
  rw [ofClock?, if_pos (by have := t.ends_minute; omega)]
  by_cases hleap : 1000000000 ≤ t.nano
  · -- A leap second is kept as nanoseconds beyond the last second of its minute.
    have hends := t.ends_minute hleap
    rw [if_pos (by omega)]
    apply congrArg some
    apply ext
    · simp only [leapSecond]
      omega
    · simp only [leapSecond]
      omega
  · rw [if_neg (by omega)]
    apply congrArg some
    apply ext
    · simp only [wrapped]
      omega
    · simp only [wrapped]
      omega

theorem toList_clockText (t : TimeOfDay) :
    t.clockText.toList =
      Numeral.padded 2 (t.second / 3600) ++ ':' :: (Numeral.padded 2 (t.second / 60 % 60) ++
        ':' :: Numeral.padded 2 (t.second % 60 + t.nano / 1000000000)) := by
  simp [clockText, Numeral.paddedText]

theorem among_clockText (t : TimeOfDay) : Text.Among ['.', ':'] t.clockText.toList := by
  rw [toList_clockText]
  exact (Numeral.among_padded _ _ _).append (.cons (.inr (by decide))
    ((Numeral.among_padded _ _ _).append (.cons (.inr (by decide)) (Numeral.among_padded _ _ _))))

theorem among_fractionText (nano : Nat) : Text.Among ['.', ':'] (fractionText nano).toList := by
  have hpoint (width n : Nat) :
      Text.Among ['.', ':'] ("." ++ Numeral.paddedText width n).toList := by
    rw [String.toList_append]
    exact .append (by decide) (Numeral.among_paddedText _ _ _)
  unfold fractionText
  split
  · decide
  split
  · exact hpoint 3 _
  split
  · exact hpoint 6 _
  · exact hpoint 9 _

/-- The text of a time of day has digits, colons and a point at most. -/
theorem among_text (t : TimeOfDay) : Text.Among ['.', ':'] t.text.toList := by
  rw [text, String.toList_append]
  exact t.among_clockText.append (among_fractionText _)

/-- A scan that takes fields of two digits. -/
def TakesPairs (field : Scan Nat) : Prop :=
  ∀ ds rest, ds.length = 2 → (∀ c ∈ ds, c.isDigit = true) →
    field.run (ds ++ rest) = some (Numeral.value ds, rest)

theorem takesPairs_number : TakesPairs (Scan.number 2 2) := by
  intro ds rest hlength hdigits
  exact Scan.run_number hdigits hlength.ge hlength.le (.inl hlength)

theorem takesPairs_scanField : TakesPairs scanField := by
  intro ds rest hlength hdigits
  change (Date.scanField 2).run (ds ++ rest) = _
  exact Date.run_scanField (by rintro rfl; contradiction) hdigits hlength

/-- A field that is read in pairs of digits reads back what is written with two digits. -/
theorem TakesPairs.run_padded {field : Scan Nat} (h : TakesPairs field) {n : Nat} (hn : n < 100)
    (rest : List Char) : field.run (Numeral.padded 2 n ++ rest) = some (n, rest) := by
  rw [h _ rest (Numeral.length_padded (by decide) hn) fun c hc => Numeral.isDigit_of_mem_padded hc,
    Numeral.value_padded]

/-- Whether a text can follow a time: it prolongs neither its digits nor its fraction. -/
def EndsTime (rest : List Char) : Prop :=
  StartsWithout (fun c => c.isDigit || c == '.') rest

theorem EndsTime.startsWithout_isDigit (h : EndsTime rest) : StartsWithout Char.isDigit rest := by
  intro c hc
  have := h c hc
  simp_all

theorem run_scanFraction_none (h : EndsTime rest) : scanFraction.run rest = some (0, rest) := by
  rw [scanFraction, StateT.run_bind, Scan.run_peek, Option.bind_eq_bind, Option.bind_some]
  split
  next hpoint =>
    have := h '.' hpoint
    contradiction
  next => rfl

theorem run_scanFraction_digits (hne : ds ≠ []) (hdigits : ∀ c ∈ ds, c.isDigit = true)
    (hlength : ds.length ≤ 9) (h : EndsTime rest) :
    scanFraction.run ('.' :: (ds ++ rest)) =
      some (Numeral.value ds * 10 ^ (9 - ds.length), rest) := by
  simp [scanFraction, Scan.run_digits hne hdigits h.startsWithout_isDigit,
    List.take_of_length_le hlength]

theorem run_scanFraction_padded (width n : Nat) (hwidth : 0 < width) (hmost : width ≤ 9)
    (hn : n < 10 ^ width) (h : EndsTime rest) :
    scanFraction.run ('.' :: (Numeral.padded width n ++ rest)) =
      some (n * 10 ^ (9 - width), rest) := by
  have hlength := Numeral.length_padded hwidth hn
  rw [run_scanFraction_digits (Numeral.padded_ne_nil _ _)
    (fun c hc => Numeral.isDigit_of_mem_padded hc) (hlength.le.trans hmost) h, hlength,
    Numeral.value_padded]

theorem run_scanFraction_text {nano : Nat} (hnano : nano < 1000000000) (h : EndsTime rest) :
    scanFraction.run ((fractionText nano).toList ++ rest) = some (nano, rest) := by
  unfold fractionText
  split
  next hzero =>
    rw [hzero]
    exact run_scanFraction_none h
  split
  next hmillis =>
    have hrun := run_scanFraction_padded 3 (nano / 1000000) (by decide) (by decide) (by omega) h
    have hback : nano / 1000000 * 10 ^ (9 - 3) = nano := by omega
    rw [hback] at hrun
    simpa [Numeral.paddedText] using hrun
  split
  next hmicros =>
    have hrun := run_scanFraction_padded 6 (nano / 1000) (by decide) (by decide) (by omega) h
    have hback : nano / 1000 * 10 ^ (9 - 6) = nano := by omega
    rw [hback] at hrun
    simpa [Numeral.paddedText] using hrun
  next =>
    have hrun := run_scanFraction_padded 9 nano (by decide) (by decide) hnano h
    simpa [Numeral.paddedText] using hrun

/-- A time is taken off the front of its text by any scan of its fields. -/
theorem run_scan_text {field : Scan Nat} (hfield : TakesPairs field) (t : TimeOfDay)
    (h : EndsTime rest) :
    (scan field (pure ())).run (t.text.toList ++ rest) = some (t, rest) := by
  have hsecond := t.second_lt
  have hnano := t.nano_lt
  have hfraction := run_scanFraction_text (Nat.mod_lt t.nano (by decide : 0 < 1000000000)) h
  rw [text, String.toList_append, toList_clockText]
  simp [scan, hfield.run_padded, hfraction, ofClock?_parts,
    show t.second / 3600 < 100 by omega, show t.second / 60 % 60 < 100 by omega,
    show t.second % 60 + t.nano / 1000000000 < 100 by omega]

/-- A time of day is read back from its text. -/
theorem read?_text (t : TimeOfDay) : read? t.text.toList = some t := by
  apply Scan.whole?_eq_some
  simpa using run_scan_text takesPairs_scanField t (Text.startsWithout_nil _)

theorem needs_colon_scan {field : Scan Nat} {gap : Scan Unit} (hfield : Scan.LeavesEnd field)
    (hgap : Scan.LeavesEnd gap) : Scan.Needs ':' (scan field gap) :=
  .bind_right hfield fun _ => .bind_right hgap fun _ => .bind_left (.char ':')

theorem leavesEnd_scanField : Scan.LeavesEnd scanField :=
  .bind .blanks fun _ => .number 1 2

/-- A text without a colon is no time of day. -/
theorem read?_eq_none {cs : List Char} (h : ':' ∉ cs) : read? cs = none :=
  (needs_colon_scan leavesEnd_scanField (.pure ())).whole?_eq_none h

end TimeOfDay

/-! ## What the readers of dates need -/

namespace Date

theorem leavesEnd_scanYear : Scan.LeavesEnd scanYear := by
  apply Scan.LeavesEnd.bind .blanks
  intro _
  apply Scan.LeavesEnd.bind .peek
  intro c
  split
  · exact .bind (.char '-') fun _ => .bind .digits fun _ => .pure _
  · exact .bind (.char '+') fun _ => .bind .digits fun _ => .pure _
  · exact .bind (.number 1 4) fun _ => .pure _

theorem leavesEnd_scanField (most : Nat) : Scan.LeavesEnd (scanField most) :=
  .bind .blanks fun _ => .number 1 most

theorem leavesEnd_scan {gap : Scan Unit} (hgap : Scan.LeavesEnd gap) :
    Scan.LeavesEnd (scan gap) :=
  .bind leavesEnd_scanYear fun _ => .bind hgap fun _ => .bind (.char '-') fun _ =>
    .bind (leavesEnd_scanField 2) fun _ => .bind hgap fun _ => .bind (.char '-') fun _ =>
      .bind (leavesEnd_scanField 2) fun _ => .lift _

theorem needs_hyphen_scan {gap : Scan Unit} (hgap : Scan.LeavesEnd gap) :
    Scan.Needs '-' (scan gap) :=
  .bind_right leavesEnd_scanYear fun _ => .bind_right hgap fun _ => .bind_left (.char '-')

/-- A text without a hyphen is no date. -/
theorem read?_eq_none {cs : List Char} (h : '-' ∉ cs) : read? cs = none :=
  (needs_hyphen_scan (.pure ())).whole?_eq_none h

/-- A number is no date: behind its first digits no hyphen follows. -/
theorem read?_number {sign : List Char} (hsign : sign = [] ∨ sign = ['-']) (hne : ds ≠ [])
    (hdigits : ∀ c ∈ ds, c.isDigit = true)
    (hrest : StartsWithout (fun c => c.isDigit || c == '-') rest) :
    read? (sign ++ (ds ++ rest)) = none := by
  have hnondigit : StartsWithout Char.isDigit rest := by
    intro c hc
    have := hrest c hc
    simp_all
  have hyphen {cs : List Char} (h : StartsWithout (· == '-') cs) :
      (Scan.char '-').run cs = none := by
    cases cs with
    | nil => rfl
    | cons c cs => rw [Scan.run_char_cons, if_neg (by simpa using h)]
  have hscan {cs cs' : List Char} {year : Int} (hyear : scanYear.run cs = some (year, cs'))
      (h : StartsWithout (· == '-') cs') : read? cs = none := by
    rw [read?, Scan.whole?, scan, StateT.run_bind, hyear]
    simp [hyphen h]
  have hrest' : StartsWithout (· == '-') rest := by
    intro c hc
    have := hrest c hc
    simp_all
  rcases hsign with rfl | rfl
  · -- A year without a sign takes four digits at most.
    have htake : ds.take 4 ++ (ds.drop 4 ++ rest) = [] ++ (ds ++ rest) := by
      rw [← List.append_assoc, List.take_append_drop, List.nil_append]
    have hmore : StartsWithout (· == '-') (ds.drop 4 ++ rest) := by
      cases hdrop : ds.drop 4 with
      | nil => exact hrest'
      | cons d _ =>
          have hd := hdigits d (List.mem_of_mem_drop (hdrop ▸ List.mem_cons_self))
          rw [List.cons_append, Text.startsWithout_cons]
          exact Text.beq_eq_false_of_isDigit hd (by decide)
    refine hscan (htake ▸ run_scanYear (by simpa using hne)
      (fun c hc => hdigits c (List.mem_of_mem_take hc)) (by simp) ?_) hmore
    by_cases hlength : ds.length ≤ 4
    · rw [List.drop_eq_nil_of_le hlength]
      exact .inr hnondigit
    · exact .inl (by simp; omega)
  · have hyear : scanYear.run ('-' :: (ds ++ rest)) = _ :=
      run_scanYear_signed (.inl rfl) hne hdigits hnondigit
    exact hscan hyear hrest'

end Date

/-! ## Date-times -/

namespace DateTime

variable {cs : List Char}

/-- A date-time is written as its date and its time with a T between them. -/
theorem toList_text (t : DateTime) :
    t.text.toList = t.date.text.toList ++ 'T' :: t.time.text.toList := by
  simp [text]

theorem among_text (t : DateTime) :
    Text.Among ['+', '-', '.', ':', 'T'] t.text.toList := by
  rw [toList_text]
  exact (t.date.among_text.mono (by decide)).append
    (.cons (.inr (by decide)) (t.time.among_text.mono (by decide)))

theorem among_utcText (t : DateTime) :
    Text.Among ['+', '-', '.', ':', 'T'] t.utcText.toList := by
  rw [utcText, String.toList_append]
  exact t.among_text.append (by decide)

/-- A date-time is read back from its text. -/
theorem read?_text (t : DateTime) : read? t.text.toList = some t := by
  have htime := TimeOfDay.run_scan_text TimeOfDay.takesPairs_scanField t.time
    (Text.startsWithout_nil _)
  have hscan : (scan (Scan.char 'T')).whole? t.text.toList = some t := by
    apply Scan.whole?_eq_some
    rw [List.append_nil] at htime
    rw [toList_text]
    simp [scan, Date.run_scan_text, htime]
  rw [read?, hscan]
  rfl

theorem needs_colon_scan {separator : Scan Unit} (h : Scan.LeavesEnd separator) :
    Scan.Needs ':' (scan separator) :=
  .bind_right (Date.leavesEnd_scan (.pure ())) fun _ => .bind_right h fun _ =>
    .bind_left (TimeOfDay.needs_colon_scan TimeOfDay.leavesEnd_scanField (.pure ()))

theorem needs_hyphen_scan (separator : Scan Unit) : Scan.Needs '-' (scan separator) :=
  .bind_left (Date.needs_hyphen_scan (.pure ()))

/-- A text without a colon or without a hyphen is no date-time. -/
theorem read?_eq_none (h : ':' ∉ cs ∨ '-' ∉ cs) : read? cs = none := by
  rcases h with h | h
  · rw [read?, (needs_colon_scan (.char 'T')).whole?_eq_none h,
      (needs_colon_scan .blanks).whole?_eq_none h]
    rfl
  · rw [read?, (needs_hyphen_scan _).whole?_eq_none h, (needs_hyphen_scan _).whole?_eq_none h]
    rfl

/-! ## Instants -/

theorem needs_hyphen_instant : Scan.Needs '-' instant :=
  .bind_right (.number 4 4) fun _ => .bind_left (.char '-')

theorem needs_colon_instant : Scan.Needs ':' instant :=
  .bind_right (.number 4 4) fun _ => .bind_right (.char '-') fun _ =>
    .bind_right (.number 2 2) fun _ => .bind_right (.char '-') fun _ =>
      .bind_right (.number 2 2) fun _ => .bind_right (.lift _) fun _ =>
        .bind_right (.bind (.one _) fun _ => .pure _) fun _ =>
          .bind_left (TimeOfDay.needs_colon_scan (.number 2 2) (.pure ()))

theorem readInstant?_eq_none (h : ':' ∉ cs ∨ '-' ∉ cs) : readInstant? cs = none := by
  rcases h with h | h
  · exact needs_colon_instant.whole?_eq_none h
  · exact needs_hyphen_instant.whole?_eq_none h

theorem shift?_zero (t : DateTime) : t.shift? 0 = some t := by
  have htime : t.time.shift 0 = (t.time, 0) := by
    have hsecond := t.time.second_lt
    apply Prod.ext
    · apply TimeOfDay.ext
      · simp only [TimeOfDay.shift]
        omega
      · rfl
    · simp only [TimeOfDay.shift]
      omega
  rw [shift?, htime]
  simp [Date.addDays?_zero]

/-- In a year of four digits the clock reading of an instant is the text of the date-time, and its
offset follows. -/
theorem run_instant_text (t : DateTime) (hyear : 0 ≤ t.date.civil.year ∧ t.date.civil.year ≤ 9999)
    (h : TimeOfDay.EndsTime rest) :
    instant.run (t.text.toList ++ rest) =
      (do shift? t (-(← scanOffset)) : Scan DateTime).run rest := by
  have hpairs := TimeOfDay.takesPairs_number
  have hmonth (rest : List Char) : (Scan.number 2 2).run
      (Numeral.padded 2 t.date.civil.month ++ rest) = some (t.date.civil.month, rest) := by
    rw [hpairs _ _ t.date.length_padded_month fun c hc => Numeral.isDigit_of_mem_padded hc,
      Numeral.value_padded]
  have hday (rest : List Char) : (Scan.number 2 2).run
      (Numeral.padded 2 t.date.civil.day ++ rest) = some (t.date.civil.day, rest) := by
    rw [hpairs _ _ t.date.length_padded_day fun c hc => Numeral.isDigit_of_mem_padded hc,
      Numeral.value_padded]
  have hyears (rest : List Char) : (Scan.number 4 4).run
      ((Date.yearText t.date.civil.year).toList ++ rest) =
        some (t.date.civil.year.natAbs, rest) := by
    have hlength : (Numeral.padded 4 t.date.civil.year.natAbs).length = 4 :=
      Numeral.length_padded (by decide) (by omega)
    rw [Date.yearText, if_pos hyear, Numeral.paddedText, String.toList_ofList,
      Scan.run_number (fun c hc => Numeral.isDigit_of_mem_padded hc) hlength.ge hlength.le
        (.inl hlength), Numeral.value_padded]
  -- The year, the month and the day are read apart and put together to the date again.
  have hdate : Date.ofCivil? ⟨t.date.civil.year, t.date.civil.month, t.date.civil.day⟩ =
      some t.date := t.date.ofCivil?_civil
  have htime := TimeOfDay.run_scan_text hpairs t.time h
  rw [toList_text, Date.toList_text]
  simp [instant, hyears, hmonth, hday, abs_of_nonneg hyear.1, hdate, htime]

/-- An instant of a year of four digits is read back from its text. -/
theorem readInstant?_utcText (t : DateTime)
    (hyear : 0 ≤ t.date.civil.year ∧ t.date.civil.year ≤ 9999) :
    readInstant? t.utcText.toList = some t := by
  have hoffset : scanOffset.run ("+00:00".toList) = some (0, []) := by decide
  have hends : TimeOfDay.EndsTime "+00:00".toList := Text.startsWithout_cons.mpr (by decide)
  apply Scan.whole?_eq_some
  rw [utcText, String.toList_append, run_instant_text t hyear hends, StateT.run_bind, hoffset]
  simp [shift?_zero]

/-- A local date-time has no offset and is no instant. -/
theorem readInstant?_text (t : DateTime) : readInstant? t.text.toList = none := by
  by_cases hyear : 0 ≤ t.date.civil.year ∧ t.date.civil.year ≤ 9999
  · have hrun := run_instant_text t hyear (Text.startsWithout_nil _)
    rw [List.append_nil] at hrun
    rw [readInstant?, Scan.whole?, hrun]
    rfl
  · -- The year has a sign, and an instant starts with a digit.
    obtain ⟨sign, ds, hsign, htext⟩ := Date.yearText_signed hyear
    rw [readInstant?, Scan.whole?, toList_text, Date.toList_text, htext, instant, StateT.run_bind]
    rcases hsign with rfl | rfl <;> rfl

end DateTime

end Selection
