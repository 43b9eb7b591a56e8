import Mathlib.Data.List.Basic
import Mathlib.Tactic.Common
import Selection.Compile.Sigil
import Selection.Proofs.Except
import Selection.Sample.Criteria

/-! # Sigils and their suffixes

A string can be taken apart into a token in braces and a suffix in more than one way when braces or
colons stand inside. A sigil is read with the longest token; a string that cannot be taken apart, or
that has a line feed, stands for itself. The suffixes agree with each other: the date of a value is
at midnight for all of them, and `null` differs from `time` at midnight only.
-/

namespace Selection.Sigil

/-! ## The longest token -/

/-- What stands behind the closing brace: nothing, or a colon and the suffix. -/
def behind : Option String → String
  | none => ""
  | some suffix => ":" ++ suffix

/-- A string is a token in braces and what stands behind them, neither with a line feed. -/
structure IsSigil (s token : String) (suffix : Option String) : Prop where
  text : s = "\x7b" ++ token ++ "\x7d" ++ behind suffix
  token_line : '\n' ∉ token.toList
  behind_line : '\n' ∉ (behind suffix).toList

/-- Of the ways to take a string apart, the one with the longest token. -/
structure IsLongest (s token : String) (suffix : Option String) : Prop where
  isSigil : IsSigil s token suffix
  longest : ∀ token' suffix', IsSigil s token' suffix' → token'.length ≤ token.length

/-- A split text is its token, a closing brace and what stands behind it. -/
theorem split?_eq_some {cs token : List Char} {suffix : Option (List Char)}
    (h : split? cs = some (token, suffix)) :
    cs = token ++ '\x7d' :: (behind (suffix.map String.ofList)).toList := by
  fun_induction split? cs generalizing token suffix with
  | case1 => contradiction
  | case2 c rest token' suffix' hrest ih =>
      obtain ⟨rfl, rfl⟩ := Prod.mk.inj (Option.some.inj h)
      rw [List.cons_append, ← ih hrest]
  | case3 =>
      obtain ⟨rfl, rfl⟩ := Prod.mk.inj (Option.some.inj h)
      rfl
  | case4 =>
      obtain ⟨rfl, rfl⟩ := Prod.mk.inj (Option.some.inj h)
      simp [behind]
  | case5 => contradiction
  | case6 => contradiction

/-- A character in front of a split text goes into the token. -/
theorem split?_cons {c : Char} {cs token : List Char} {suffix : Option (List Char)}
    (h : split? cs = some (token, suffix)) : split? (c :: cs) = some (c :: token, suffix) := by
  unfold split?
  rw [h]

/-- A text that begins with a closing brace and a legal rest is split. -/
theorem exists_split?_brace (suffix : Option String) :
    ∃ found, split? ('\x7d' :: (behind suffix).toList) = some found := by
  unfold split?
  cases split? (behind suffix).toList with
  | some found => exact ⟨_, rfl⟩
  | none =>
      cases suffix with
      | none => exact ⟨_, rfl⟩
      | some suffix => simp [behind]

/-- Where a text can be cut at a closing brace, it is cut there or at a later one. -/
theorem exists_split? (token : List Char) (suffix : Option String) :
    ∃ token' suffix', split? (token ++ '\x7d' :: (behind suffix).toList) = some (token', suffix') ∧
      token.length ≤ token'.length := by
  induction token with
  | nil =>
      obtain ⟨⟨token', suffix'⟩, hfound⟩ := exists_split?_brace suffix
      exact ⟨token', suffix', hfound, Nat.zero_le _⟩
  | cons c token ih =>
      obtain ⟨token', suffix', hrest, hlength⟩ := ih
      exact ⟨c :: token', suffix', split?_cons hrest, Nat.succ_le_succ hlength⟩

/-- A sigil is an opening brace and, on one line, a token, a closing brace and what stands behind
it. -/
theorem isSigil_iff {s token : String} {suffix : Option String} :
    IsSigil s token suffix ↔
      ∃ cs, s.toList = '\x7b' :: cs ∧ '\n' ∉ cs ∧
        cs = token.toList ++ '\x7d' :: (behind suffix).toList := by
  constructor
  · rintro ⟨rfl, htoken, hbehind⟩
    exact ⟨_, by simp, by simp [htoken, hbehind], rfl⟩
  · rintro ⟨cs, htext, hline, rfl⟩
    simp only [List.mem_append, List.mem_cons, not_or] at hline
    refine ⟨String.toList_injective ?_, hline.1, hline.2.2⟩
    simpa using htext

/-- What is parsed is a sigil. -/
theorem parse?_isSigil {s token : String} {suffix : Option String}
    (h : parse? s = some (token, suffix)) : IsSigil s token suffix := by
  unfold parse? at h
  split at h
  next cs hs =>
    split at h
    next => contradiction
    next hline =>
      obtain ⟨⟨token', suffix'⟩, hfound, h⟩ := Option.map_eq_some_iff.mp h
      obtain ⟨rfl, rfl⟩ := Prod.mk.inj h
      have hcs := split?_eq_some hfound
      refine isSigil_iff.mpr ⟨cs, hs, ?_, ?_⟩
      · simpa using hline
      · simpa using hcs
  next => contradiction

/-- A sigil is parsed, with a token that is no shorter. -/
theorem IsSigil.exists_parse? {s token : String} {suffix : Option String}
    (h : IsSigil s token suffix) :
    ∃ token' suffix', parse? s = some (token', suffix') ∧ token.length ≤ token'.length := by
  obtain ⟨cs, hs, hline, rfl⟩ := isSigil_iff.mp h
  obtain ⟨token', suffix', hfound, hlength⟩ := exists_split? token.toList suffix
  refine ⟨String.ofList token', suffix'.map String.ofList, ?_, ?_⟩
  · unfold parse?
    rw [hs]
    exact (if_neg (by simpa using hline)).trans (by rw [hfound]; rfl)
  · simpa [String.length_toList] using hlength

/-- What stands behind a token tells the suffix. -/
theorem behind_injective {suffix suffix' : Option String} (h : behind suffix = behind suffix') :
    suffix = suffix' := by
  cases suffix <;> cases suffix' <;> simp_all [behind]

/-- A string is taken apart in one way only when the length of the token is known. -/
theorem IsSigil.eq_of_length {s token token' : String} {suffix suffix' : Option String}
    (h : IsSigil s token suffix) (h' : IsSigil s token' suffix')
    (hlength : token.length = token'.length) : token = token' ∧ suffix = suffix' := by
  obtain ⟨cs, hs, -, hcs⟩ := isSigil_iff.mp h
  obtain ⟨cs', hs', -, hcs'⟩ := isSigil_iff.mp h'
  obtain rfl : cs = cs' := (List.cons.inj (hs.symm.trans hs')).2
  rw [← String.length_toList, ← String.length_toList] at hlength
  obtain ⟨htoken, hbehind⟩ := List.append_inj (hcs.symm.trans hcs') hlength
  exact ⟨String.toList_injective htoken,
    behind_injective (String.toList_injective (List.cons.inj hbehind).2)⟩

/-- A sigil is parsed with its longest token. -/
theorem parse?_eq_some_iff {s token : String} {suffix : Option String} :
    parse? s = some (token, suffix) ↔ IsLongest s token suffix := by
  constructor
  · intro h
    refine ⟨parse?_isSigil h, fun other suffix' hother => ?_⟩
    obtain ⟨token', suffix'', hparse, hlength⟩ := hother.exists_parse?
    obtain ⟨rfl, rfl⟩ := Prod.mk.inj (Option.some.inj (h.symm.trans hparse))
    exact hlength
  · rintro ⟨hsigil, hlongest⟩
    obtain ⟨token', suffix', hparse, hlength⟩ := hsigil.exists_parse?
    have hsigil' := parse?_isSigil hparse
    have hsame := Nat.le_antisymm hlength (hlongest _ _ hsigil')
    obtain ⟨rfl, rfl⟩ := hsigil.eq_of_length hsigil' hsame
    exact hparse

/-- A string is not parsed just when it is no sigil. -/
theorem parse?_eq_none_iff {s : String} :
    parse? s = none ↔ ∀ token suffix, ¬ IsSigil s token suffix := by
  constructor
  · intro h token suffix hsigil
    obtain ⟨token', suffix', hparse, -⟩ := hsigil.exists_parse?
    rw [h] at hparse
    contradiction
  · intro h
    cases hparse : parse? s with
    | none => rfl
    | some found => exact absurd (parse?_isSigil hparse) (h found.1 found.2)

theorem resolve_of_parse?_eq_none {env : Environment} {s : String} (h : parse? s = none) :
    resolve env (.string s) = .ok (.string s) := by
  rw [resolve, h]

/-- A sigil stands for the value of its token with the suffix applied. -/
theorem resolve_of_parse?_eq_some {env : Environment} {s name : String} {suffix : Option String}
    (h : parse? s = some (name, suffix)) :
    resolve env (.string s) = (do
      let value ← token env name
      match suffix with
      | none => return value
      | some suffix => applySuffix s suffix value) := by
  rw [resolve]
  split
  next hnone =>
    rw [h] at hnone
    contradiction
  next hsome =>
    obtain ⟨rfl, rfl⟩ := Prod.mk.inj (Option.some.inj (h.symm.trans hsome))
    rfl

theorem Suffix.ofName?_eq_none {name : String}
    (h : Text.lowerAscii name.toList ∉ ["date".toList, "time".toList, "null".toList]) :
    ofName? name = none := by
  simp only [List.mem_cons, List.not_mem_nil, or_false, not_or] at h
  rw [ofName?, if_neg h.1, if_neg h.2.1, if_neg h.2.2]

/-- A suffix that is none of the three is refused behind any value, null too. -/
theorem applySuffix_of_unknown {name : String}
    (h : Text.lowerAscii name.toList ∉ ["date".toList, "time".toList, "null".toList])
    (s : String) (v : Value) : applySuffix s name v = .error (.invalidSigil s name) := by
  rw [applySuffix, Suffix.ofName?_eq_none h]

/-- A string that is a sigil is read with its longest token, and any other value stands for itself.
The sigil gives what its token stands for, with the suffix applied to it. A suffix that is none of
the three, in any case, gives an error. -/
theorem resolve_takes_longest (env : Environment) :
    (∀ v, (∀ s token suffix, v = .string s → ¬ IsSigil s token suffix) → resolve env v = .ok v) ∧
    ∀ s,
      (parse? s = none ↔ ∀ token suffix, ¬ IsSigil s token suffix) ∧
      (∀ token suffix, parse? s = some (token, suffix) ↔ IsLongest s token suffix) ∧
      (∀ token, IsLongest s token none → resolve env (.string s) = Sigil.token env token) ∧
      ∀ token suffix, IsLongest s token (some suffix) →
        resolve env (.string s) = (Sigil.token env token >>= applySuffix s suffix) ∧
          (Text.lowerAscii suffix.toList ∉ ["date".toList, "time".toList, "null".toList] →
            ∃ e, resolve env (.string s) = .error e ∧
              (Sigil.token env token = .error e ∨ e = .invalidSigil s suffix)) := by
  refine ⟨fun v hplain => ?_, fun s => ⟨parse?_eq_none_iff, fun token suffix => parse?_eq_some_iff,
    fun token hlongest => ?_, fun token suffix hlongest => ?_⟩⟩
  · cases v with
    | string s => exact resolve_of_parse?_eq_none (parse?_eq_none_iff.mpr (hplain s · · rfl))
    | _ => rfl
  · rw [resolve_of_parse?_eq_some (parse?_eq_some_iff.mpr hlongest)]
    exact bind_pure _
  · have hresolve : resolve env (.string s) = (Sigil.token env token >>= applySuffix s suffix) :=
      resolve_of_parse?_eq_some (parse?_eq_some_iff.mpr hlongest)
    refine ⟨hresolve, fun hsuffix => ?_⟩
    rw [hresolve]
    cases htoken : Sigil.token env token with
    | error e => exact ⟨e, rfl, .inl rfl⟩
    | ok v => exact ⟨.invalidSigil s suffix, applySuffix_of_unknown hsuffix s v, .inr rfl⟩

/-- Braces and a colon inside belong to the token. -/
theorem inner_braces_belong_to_token :
    IsSigil "\x7ba\x7d:\x7bb\x7d" "a" (some "\x7bb\x7d") ∧
      IsLongest "\x7ba\x7d:\x7bb\x7d" "a\x7d:\x7bb" none ∧
      resolve Sample.office (.string "\x7ba\x7d:\x7bb\x7d") =
        Sigil.token Sample.office "a\x7d:\x7bb" ∧
      resolve Sample.office (.int 3) = .ok (.int 3) ∧
      ∃ e, resolve Sample.office (.string "\x7bNOW\x7d:week") = .error e ∧
        (Sigil.token Sample.office "NOW" = .error e ∨
          e = .invalidSigil "\x7bNOW\x7d:week" "week") := by
  obtain ⟨hplain, hstring⟩ := resolve_takes_longest Sample.office
  obtain ⟨-, hparse, htoken, -⟩ := hstring "\x7ba\x7d:\x7bb\x7d"
  have hlongest := (hparse _ _).mp rfl
  refine ⟨⟨rfl, by decide, by decide⟩, hlongest, htoken _ hlongest, hplain _ nofun, ?_⟩
  · obtain ⟨-, hparse, -, hsuffix⟩ := hstring "\x7bNOW\x7d:week"
    exact (hsuffix _ _ ((hparse _ _).mp rfl)).2 (by decide)

/-! ## The suffixes -/

variable {literal name : String} {suffix : Suffix} {v d : Value}

/-- A suffix leaves a null as it is. -/
theorem applySuffix_null (hname : Suffix.ofName? name = some suffix) :
    applySuffix literal name .null = .ok .null := by
  rw [applySuffix, hname]
  rfl

theorem applySuffix_of_not_null (hname : Suffix.ofName? name = some suffix)
    (hv : v.isNull = false) :
    applySuffix literal name v =
      match suffix.apply? (reading v) with
      | some w => .ok w
      | none => .error (.typeCoercionFailure (reading v).plainText (reading v).dataType literal
          .timestampNaive) := by
  rw [applySuffix, hname]
  exact if_neg (by rw [hv]; exact Bool.false_ne_true)

/-- The dates and the date-times at midnight. -/
inductive IsDay : Value → Prop
  | date (d : Date) : IsDay (.date d)
  | timestamp (d : Date) : IsDay (.timestamp (.ofDate d))
  | timestampNaive (d : Date) : IsDay (.timestampNaive (.ofDate d))

theorem isDay_of_date? (h : date? v = some d) : IsDay d := by
  cases v with
  | date _ =>
      obtain rfl := Option.some.inj h
      exact .date _
  | timestamp _ =>
      obtain rfl := Option.some.inj h
      exact .timestamp _
  | timestampNaive _ =>
      obtain rfl := Option.some.inj h
      exact .timestampNaive _
  | _ => contradiction

theorem IsDay.isNull_eq (h : IsDay v) : v.isNull = false := by
  cases h <;> rfl

theorem IsDay.reading_eq (h : IsDay v) : reading v = v := by
  cases h <;> rfl

theorem IsDay.date?_eq (h : IsDay v) : date? v = some v := by
  cases h <;> rfl

theorem IsDay.time?_eq (h : IsDay v) : time? v = some .midnight := by
  cases h <;> rfl

theorem millisText_midnight : TimeOfDay.midnight.millisText = "00:00:00.000" := by
  decide +kernel

theorem timeValue_midnight : timeValue false .midnight = .string "00:00:00.000" :=
  congrArg Value.string millisText_midnight

/-- A time that is written as midnight is null where it may be. -/
theorem timeValue_nullable (t : TimeOfDay) :
    timeValue true t =
      if timeValue false t = .string "00:00:00.000" then .null else timeValue false t := by
  simp [timeValue]

theorem IsDay.applySuffix_time (h : IsDay v) (hname : Suffix.ofName? name = some .time) :
    applySuffix literal name v = .ok (.string "00:00:00.000") := by
  rw [applySuffix_of_not_null hname h.isNull_eq, h.reading_eq, Suffix.apply?, h.time?_eq]
  exact congrArg Except.ok timeValue_midnight

theorem IsDay.applySuffix_null (h : IsDay v) (hname : Suffix.ofName? name = some .null) :
    applySuffix literal name v = .ok .null := by
  rw [applySuffix_of_not_null hname h.isNull_eq, h.reading_eq, Suffix.apply?, h.time?_eq]
  exact congrArg Except.ok ((timeValue_nullable .midnight).trans (if_pos timeValue_midnight))

theorem IsDay.applySuffix_date (h : IsDay v) (hname : Suffix.ofName? name = some .date) :
    applySuffix literal name v = .ok v := by
  rw [applySuffix_of_not_null hname h.isNull_eq, h.reading_eq, Suffix.apply?, h.date?_eq]

theorem isDay_of_applySuffix_date (hname : Suffix.ofName? name = some .date)
    (hv : v.isNull = false) (h : applySuffix literal name v = .ok d) : IsDay d := by
  rw [applySuffix_of_not_null hname hv, Suffix.apply?] at h
  cases hdate : date? (reading v) with
  | none =>
      rw [hdate] at h
      contradiction
  | some day =>
      rw [hdate] at h
      obtain rfl := Except.ok.inj h
      exact isDay_of_date? hdate

/-- The suffixes `time` and `null` fail alike, and where they succeed `null` gives null instead of
midnight. -/
theorem applySuffix_null_eq_map {time null : String} (htime : Suffix.ofName? time = some .time)
    (hnull : Suffix.ofName? null = some .null) :
    applySuffix literal null v =
      (applySuffix literal time v).map fun w =>
        if w = .string "00:00:00.000" then .null else w := by
  cases hv : v.isNull with
  | true =>
      obtain rfl := Value.eq_null_of_isNull hv
      rw [Sigil.applySuffix_null hnull, Sigil.applySuffix_null htime]
      rfl
  | false =>
      rw [applySuffix_of_not_null hnull hv, applySuffix_of_not_null htime hv, Suffix.apply?,
        Suffix.apply?]
      cases time? (reading v) with
      | none => rfl
      | some t => exact congrArg Except.ok (timeValue_nullable t)

/-- The date of a value is the date of itself, and midnight or null for the other suffixes. The
suffixes `time` and `null` succeed on the same values, fail with the same error, and give the same
but for midnight. -/
theorem suffixes_agree {date time null : String} (hdate : Suffix.ofName? date = some .date)
    (htime : Suffix.ofName? time = some .time) (hnull : Suffix.ofName? null = some .null)
    (literal : String) (v : Value) :
    (∀ d, applySuffix literal date v = .ok d → ∀ other,
      applySuffix other date d = .ok d ∧ applySuffix other null d = .ok .null ∧
        applySuffix other time d = .ok (if v.isNull then .null else .string "00:00:00.000")) ∧
    ((∃ w, applySuffix literal null v = .ok w) ↔ ∃ w, applySuffix literal time v = .ok w) ∧
    (∀ e, applySuffix literal null v = .error e ↔ applySuffix literal time v = .error e) ∧
    ∀ w w', applySuffix literal time v = .ok w → applySuffix literal null v = .ok w' →
      w' = if w = .string "00:00:00.000" then .null else w := by
  constructor
  · intro d hd other
    cases hv : v.isNull with
    | true =>
        obtain rfl := Value.eq_null_of_isNull hv
        obtain rfl := Except.ok.inj ((Sigil.applySuffix_null hdate).symm.trans hd)
        exact ⟨Sigil.applySuffix_null hdate, Sigil.applySuffix_null hnull,
          Sigil.applySuffix_null htime⟩
    | false =>
        have hday := isDay_of_applySuffix_date hdate hv hd
        exact ⟨hday.applySuffix_date hdate, hday.applySuffix_null hnull,
          hday.applySuffix_time htime⟩
  · rw [applySuffix_null_eq_map htime hnull]
    cases applySuffix literal time v with
    | error e => simp [Except.map]
    | ok w => simp [Except.map, eq_comm]

/-- The date of an instant that a string tells, in capitals. -/
theorem seen_on_its_day :
    applySuffix "\x7bseen\x7d:DATE" "DATE" (.string "2024-01-02T23:30:00Z") =
        .ok (.timestamp (.ofDate (Sample.day 2024 1 2))) ∧
      applySuffix "\x7bseen\x7d:null" "null" (.timestamp (.ofDate (Sample.day 2024 1 2))) =
        .ok .null := by
  have hdate : applySuffix "\x7bseen\x7d:DATE" "DATE" (.string "2024-01-02T23:30:00Z") =
      .ok (.timestamp (.ofDate (Sample.day 2024 1 2))) := by
    decide +kernel
  have hnames : Suffix.ofName? "DATE" = some .date ∧ Suffix.ofName? "time" = some .time ∧
      Suffix.ofName? "null" = some .null := by
    decide
  obtain ⟨hday, -⟩ := suffixes_agree hnames.1 hnames.2.1 hnames.2.2 _ _
  exact ⟨hdate, (hday _ hdate _).2.1⟩

end Selection.Sigil
