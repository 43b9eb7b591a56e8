import Selection.Proofs.DurationText
import Selection.Proofs.IntegerSum

/-! # Undefined sums on the wire

An addition that is not defined stays so once the sum is decoded, for a text that cannot be added is
read as the value that it carries. The exception is a total that is a date, a time or a duration: it
has the next text read as a duration if that is possible, though the text may carry a decimal or a
time of day. The decoded sum then goes on with this duration.
-/

namespace Selection

open Value (Agrees)

namespace Value

variable {v w : Value} {s : String} {d : Duration}

/-- The text that carries a value is one of a duration: a decimal that is written whole is taken for
so many days, and a time of day for the time since midnight. -/
inductive TakenFor : Value → Duration → Prop
  | decimal {x : Decimal} {d : Duration} (written_whole : x.WrittenWhole)
      (nanos_eq : (d.nanos : ℚ) = x.number * 86400000000000) : TakenFor (decimal x) d
  | time {t : TimeOfDay} {d : Duration} (not_leap : t.isLeap = false)
      (nanos_eq : d.nanos = t.clock) : TakenFor (time t) d

/-- The text that carries a value is a duration just when the value is taken for it. -/
theorem ofText?_wireText (htext : v.wireText? = some s) (huuid : ∀ u, v ≠ .uuid u)
    (hduration : ∀ d, v ≠ .duration d) : Duration.ofText? s = some d ↔ v.TakenFor d := by
  cases v <;> simp only [wireText?, Option.some.injEq, reduceCtorEq] at htext <;> subst htext
  case decimal x =>
    rw [Duration.ofText?_decimal]
    constructor
    · rintro ⟨hwhole, hnanos⟩
      exact .decimal hwhole hnanos
    · intro htaken
      cases htaken with
      | decimal hwhole hnanos => exact ⟨hwhole, hnanos⟩
  case time t =>
    rw [Duration.ofText?_time]
    constructor
    · rintro ⟨hleap, hnanos⟩
      exact .time hleap hnanos
    · intro htaken
      cases htaken with
      | time hleap hnanos => exact ⟨hleap, hnanos⟩
  case uuid u => exact absurd rfl (huuid u)
  case duration d' => exact absurd rfl (hduration d')
  -- The texts of dates and date-times are refused.
  case date d' => exact iff_of_false (by simp [Duration.ofText?_date]) (by rintro ⟨⟩)
  case timestamp t => exact iff_of_false (by simp [(Duration.ofText?_dateTime t).2]) (by rintro ⟨⟩)
  case timestampNaive t =>
    exact iff_of_false (by simp [(Duration.ofText?_dateTime t).1]) (by rintro ⟨⟩)

/-- The text that carries a value is a decimal only if the value is one. -/
theorem decimal_read?_wireText (htext : v.wireText? = some s) (huuid : ∀ u, v ≠ .uuid u)
    (hdecimal : ∀ x, v ≠ .decimal x) : Decimal.read? s.toList = none := by
  cases v <;> simp only [wireText?, Option.some.injEq, reduceCtorEq] at htext <;> subst htext
  case decimal x => exact absurd rfl (hdecimal x)
  case uuid u => exact absurd rfl (huuid u)
  case date d => exact Decimal.read?_date d
  case timestamp t =>
    refine Decimal.read?_eq_none_of_mem (c := 'T') ?_ (by decide) (by decide)
    simp [DateTime.utcText, DateTime.toList_text]
  case timestampNaive t =>
    refine Decimal.read?_eq_none_of_mem (c := 'T') ?_ (by decide) (by decide)
    simp [DateTime.toList_text]
  case time t =>
    refine Decimal.read?_eq_none_of_mem (c := ':') ?_ (by decide) (by decide)
    simp [TimeOfDay.text, TimeOfDay.toList_clockText]
  case duration d =>
    refine Decimal.read?_eq_none_of_mem (c := 'P') ?_ (by decide) (by decide)
    simp [Duration.iso]

end Value

namespace Sum

variable {t t' v v' w u : Value} {s : String} {l r : DataType} {d : Duration}

/-! ## Reading an operand that cannot be added -/

/-- A text is read as the value that it carries, unless it is taken for a duration. -/
theorem operand_wireText_agrees (hportable : v.Portable) (huuid : ∀ u, v ≠ .uuid u)
    (htext : v.wireText? = some s)
    (htaken : t.dataType.isTemporal = true → ∀ d, ¬v.TakenFor d) :
    (operand (some t) (.string s)).Agrees v := by
  obtain ⟨w, hany, hagrees⟩ := readAny?_wireText hportable huuid htext
  have hother (h : readAgainst? (some t) s = none) : (operand (some t) (.string s)).Agrees v := by
    simpa [operand, h, hany] using hagrees
  -- A text is first read as what goes with the total: a decimal with a number, a duration with a
  -- date, a time or a duration. Where that fails it is read on its own.
  by_cases hnumeric : t.dataType.isNumeric = true
  · have hread : readAgainst? (some t) s = readDecimal? s := if_pos hnumeric
    by_cases hdecimal : ∃ x, v = .decimal x
    · obtain ⟨x, rfl⟩ := hdecimal
      obtain rfl : x.text = s := Option.some.inj htext
      obtain ⟨y, hdecimal, hagrees⟩ := readDecimal?_text x
      simpa [operand, hread, hdecimal] using hagrees
    · apply hother
      rw [hread, readDecimal?, Value.trimmed_wireText htext,
        Value.decimal_read?_wireText htext huuid (not_exists.mp hdecimal), Option.map_none]
  by_cases htemporal : t.dataType.isTemporal = true
  · have hread : readAgainst? (some t) s = readDuration? s := by
      rw [readAgainst?, if_neg hnumeric, if_pos htemporal]
    by_cases hduration : ∃ d, v = .duration d
    · obtain ⟨d, rfl⟩ := hduration
      obtain rfl : d.iso = s := Option.some.inj htext
      simpa [operand, hread, readDuration?, d.ofText?_iso] using Agrees.refl _
    · apply hother
      rw [hread, readDuration?, Option.map_eq_none_iff, Option.eq_none_iff_forall_ne_some]
      intro d hd
      exact htaken htemporal d
        ((Value.ofText?_wireText htext huuid (not_exists.mp hduration)).mp hd)
  · exact hother (by rw [readAgainst?, if_neg hnumeric, if_neg htemporal])

/-- After a date, a time or a duration a text is taken for the duration that it is one of. -/
theorem operand_of_ofText? (htemporal : t.dataType.isTemporal = true)
    (h : Duration.ofText? s = some d) : operand (some t) (.string s) = .duration d := by
  have hnumeric : t.dataType.isNumeric = false := by
    cases t <;> first | contradiction | rfl
  simp [operand, readAgainst?, hnumeric, htemporal, readDuration?, h]

/-- After a temporal total a value that is taken for a duration is read as that. -/
theorem operand_carried_of_takenFor (htemporal : t.dataType.isTemporal = true)
    (h : v.TakenFor d) : operand (some t) v.carried = .duration d := by
  cases h with
  | @decimal x d hwhole hnanos =>
      have hread : Duration.ofText? x.text = some d :=
        (Duration.ofText?_decimal x).mpr ⟨hwhole, hnanos⟩
      exact operand_of_ofText? htemporal hread
  | @time time d hleap hnanos =>
      have hread : Duration.ofText? time.text = some d :=
        (Duration.ofText?_time time).mpr ⟨hleap, hnanos⟩
      exact operand_of_ofText? htemporal hread

/-- After a temporal total a duration is read back. -/
theorem operand_carried_duration (htemporal : t.dataType.isTemporal = true) (d : Duration) :
    operand (some t) (Value.duration d).carried = .duration d :=
  operand_of_ofText? htemporal d.ofText?_iso

/-! ## Additions that are not defined -/

/-- An addition that is not defined tells the types of its operands. -/
theorem dataType_of_add_undefined (h : add t v = .error (.undefinedAddOperation l r)) :
    t.dataType = l ∧ v.dataType = r := by
  unfold add at h
  split at h
  all_goals dsimp only at h
  -- Sums that may not fit are split once more, into the sum and the overflow.
  all_goals try split at h
  all_goals cases h
  all_goals exact ⟨rfl, rfl⟩

theorem decimal?_agrees_eq_none (h : w.Agrees v) (hv : decimal? v = none) : decimal? w = none := by
  cases h with
  | refl => exact hv
  | decimal => contradiction

/-- An addition that is not defined is not for values that agree. -/
theorem add_undefined_agrees (ht : t'.Agrees t) (hv : v'.Agrees v)
    (h : add t v = .error (.undefinedAddOperation l r)) :
    add t' v' = .error (.undefinedAddOperation l r) := by
  obtain ⟨hleft, hright⟩ := dataType_of_add_undefined h
  -- The error names the types of the operands, which values that agree share.
  cases ht with
  | decimal hx =>
      have hnull : v'.isNull = v.isNull := by cases hv <;> rfl
      rw [add_decimal_left] at h ⊢
      rw [hnull]
      by_cases hisNull : v.isNull = true
      · rw [if_pos hisNull] at h
        contradiction
      rw [if_neg hisNull] at h ⊢
      split at h
      next => contradiction
      next hdecimal =>
          rw [decimal?_agrees_eq_none hv hdecimal, hv.dataType_eq, hright, ← hleft]
          rfl
  | refl =>
      cases hv with
      | refl => exact h
      | decimal hy =>
          rw [add_decimal_right] at h ⊢
          by_cases hisNull : t.isNull = true
          · rw [if_pos hisNull] at h
            contradiction
          rw [if_neg hisNull] at h ⊢
          split at h
          next => contradiction
          next => exact h

/-! ## Runs -/

/-- A value that is no text and that JSON keeps for a sum. -/
def Summand (v : Value) : Prop :=
  v.Addable ∧ v.asString? = none

/-- The step of a decoded sum at which an addition was not defined: it is not defined either, unless
a text is taken for a duration. -/
theorem step_undefined (hv : Summand v) (ht : t'.Agrees t)
    (hadd : add t v = .error (.undefinedAddOperation l r))
    (htaken : l.isTemporal = true → ∀ d, ¬v.TakenFor d) :
    step t' v.carried = .error (.undefinedAddOperation l r) := by
  have honWire := hv.1.onWire
  have hplain : operand (some t') v = v := (Operand.plain_of_no_text hv.2).2 (some t')
  rw [step]
  generalize v.carried = u at honWire
  cases honWire with
  | same =>
      rw [hplain]
      exact add_undefined_agrees ht (.refl v) hadd
  | text hportable huuid htext =>
      refine add_undefined_agrees ht (operand_wireText_agrees hportable huuid htext ?_) hadd
      rwa [ht.dataType_eq, (dataType_of_add_undefined hadd).1]

/-- The run of a decoded sum to the operand at which an addition was not defined: it fails there
too, or goes on with the duration that the operand is taken for. -/
theorem foldlM_undefined {vs : List Value} (hvs : ∀ v ∈ vs, Summand v) (ht : t'.Agrees t)
    (h : vs.foldlM add t = .error (.undefinedAddOperation l r)) :
    ∃ before v after total, vs = before ++ v :: after ∧ before.foldlM add t = .ok total ∧
      total.dataType = l ∧ v.dataType = r ∧
      ((l.isTemporal = true → ∀ d, ¬v.TakenFor d) →
        (vs.map Value.carried).foldlM step t' = .error (.undefinedAddOperation l r)) ∧
      ∀ d, l.isTemporal = true → v.TakenFor d → (vs.map Value.carried).foldlM step t' =
        ((before ++ .duration d :: after).map Value.carried).foldlM step t' := by
  induction vs generalizing t t' with
  | nil => contradiction
  | cons v vs ih =>
      obtain ⟨hv, hrest⟩ := List.forall_mem_cons.mp hvs
      rw [List.foldlM_cons] at h
      -- Either the head is the operand that cannot be added, or it is added on both sides and the
      -- totals still agree.
      rcases bind_eq_error_iff.mp h with hadd | ⟨sum, hadd, hfails⟩
      · obtain ⟨hl, hr⟩ := dataType_of_add_undefined hadd
        refine ⟨[], v, vs, t, rfl, rfl, hl, hr, fun htaken => ?_, fun d htemporal htaken => ?_⟩
        · rw [List.map_cons, List.foldlM_cons, step_undefined hv ht hadd htaken]
          rfl
        · have htemporal : t'.dataType.isTemporal = true := by
            rw [ht.dataType_eq, hl, htemporal]
          rw [List.nil_append, List.map_cons, List.map_cons, List.foldlM_cons, List.foldlM_cons,
            step, step, operand_carried_of_takenFor htemporal htaken,
            operand_carried_duration htemporal]
      · have hadd' : add t (operand (some t) v) = .ok sum := by
          rwa [(Operand.plain_of_no_text hv.2).2]
        obtain ⟨sum', hstep, hagrees⟩ := hv.1.onWire.later ht hadd'
        have hstep : step t' v.carried = .ok sum' := hstep
        obtain ⟨before, w, after, total, rfl, htotal, hl, hr, hfails, htaken⟩ :=
          ih hrest hagrees hfails
        refine ⟨v :: before, w, after, total, rfl, ?_, hl, hr, fun h => ?_, fun d htemporal h => ?_⟩
        · rw [List.foldlM_cons, hadd]
          exact htotal
        · rw [List.map_cons, List.foldlM_cons, hstep]
          exact hfails h
        · rw [List.cons_append, List.map_cons, List.map_cons, List.foldlM_cons, List.foldlM_cons,
            hstep]
          exact htaken d htemporal h

end Sum

namespace Operand

variable {c : Criterion} {vs : List Value} {l r : DataType}

/-- What carries a summand is no sigil. -/
theorem plain_carried {v : Value} (h : Sum.Summand v) : Plain v.carried := by
  have honWire := h.1.onWire
  generalize v.carried = u at honWire
  cases honWire with
  | same => exact (plain_of_no_text h.2).1
  | text _ _ htext =>
      rintro s hs
      obtain rfl := Value.string.inj hs
      exact Sigil.parse?_eq_none ((Value.among_wireText htext).not_mem (by decide) (by decide))

/-- The decoded sum adds what JSON gives back, each as what it is read for after the total. -/
theorem SumOf.rightHandSide_carried {v : Value} (h : SumOf c (v :: vs))
    (hvs : ∀ w ∈ v :: vs, Sum.Summand w) (env : Environment) :
    rightHandSide env (some c.carried) =
      (vs.map Value.carried).foldlM Sum.step (Sum.operand none v.carried) := by
  apply h.carried.rightHandSide_eq_foldlM
  intro u (hu : u ∈ (v :: vs).map Value.carried)
  obtain ⟨w, hw, rfl⟩ := List.mem_map.mp hu
  exact plain_carried (hvs w hw)

end Operand

end Selection
