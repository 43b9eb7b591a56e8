import Selection.Proofs.Coercion
import Selection.Proofs.Documents

/-! # Sums survive the wire

An operand of a sum that is carried as a text is read again by what it is added to. A first operand
is read as whatever its text spells, and the readers are tried in an order in which none takes the
text of another type. After a number only a decimal can be added, and after a date, a time or a
duration only a duration, so a later text is read as what it was. Totals of values that agree agree.
-/

namespace Selection

open Value (Agrees)

namespace Sum

variable {v w t : Value} {s : String} {cs extra : List Char}

/-! ## Reading a first operand -/

theorem toUpper_ne_P (h : Text.Among extra cs) (hextra : ∀ c ∈ extra, (c.toUpper == 'P') = false) :
    ∀ c ∈ cs, (c.toUpper == 'P') = false := by
  intro c hc
  rcases h c hc with hdigit | hmem
  · rw [Duration.toUpper_of_isDigit hdigit]
    exact Text.beq_eq_false_of_isDigit hdigit (by decide)
  · exact hextra c hmem

/-- A text without a `P` and without a point before a colon is not surely a duration. -/
theorem isSurelyDuration_eq_false (hP : ∀ c ∈ cs, (c.toUpper == 'P') = false)
    (hpoint : ':' ∉ cs ∨ '.' ∉ cs.takeWhile (· != ':')) : isSurelyDuration cs = false := by
  unfold isSurelyDuration
  generalize hbody : (if (cs.head? == some '-') = true then cs.tail else cs) = body
  have hunsigned : (∀ c ∈ body, (c.toUpper == 'P') = false) ∧
      (':' ∉ body ∨ '.' ∉ body.takeWhile (· != ':')) := by
    subst hbody
    split
    next hminus =>
      obtain ⟨rest, rfl⟩ := List.head?_eq_some_iff.mp (eq_of_beq hminus)
      exact ⟨fun c hc => hP c (List.mem_cons_of_mem _ hc),
        hpoint.imp (fun h hc => h (List.mem_cons_of_mem _ hc))
          fun h hc => h (List.mem_cons_of_mem _ hc)⟩
    next => exact ⟨hP, hpoint⟩
  obtain ⟨hP, hpoint⟩ := hunsigned
  cases body with
  | nil => rfl
  | cons c rest =>
      have hfirst := hP c List.mem_cons_self
      simp only [hfirst, Bool.false_or, Bool.and_eq_false_iff]
      simpa using hpoint

/-- The ISO form of a duration cannot be anything else. -/
theorem isSurelyDuration_iso (d : Duration) : isSurelyDuration d.iso.toList = true := by
  rw [Duration.iso, String.toList_ofList, Duration.sign]
  split <;> rfl

theorem point_not_mem_takeWhile {before after : List Char} (h : '.' ∉ before) :
    '.' ∉ (before ++ ':' :: after).takeWhile (· != ':') := by
  intro hmem
  rw [List.takeWhile_append] at hmem
  split at hmem
  · simp only [List.takeWhile_cons, bne_self_eq_false, Bool.false_eq_true, if_false,
      List.append_nil] at hmem
    exact h hmem
  · exact h (List.takeWhile_subset _ hmem)

/-- Before its first colon a time of day has only the digits of its hour. -/
theorem toList_time_text (t : TimeOfDay) :
    ∃ rest, t.text.toList = Numeral.padded 2 (t.second / 3600) ++ ':' :: rest := by
  rw [TimeOfDay.text, String.toList_append, TimeOfDay.toList_clockText, List.append_assoc]
  exact ⟨_, rfl⟩

/-- No point stands before the first colon of a time of day. -/
theorem point_not_mem_takeWhile_time (t : TimeOfDay) :
    '.' ∉ t.text.toList.takeWhile (· != ':') := by
  obtain ⟨rest, htext⟩ := toList_time_text t
  rw [htext]
  exact point_not_mem_takeWhile ((Numeral.among_padded [] _ _).not_mem (by decide) (by decide))

/-- No point stands before the first colon of a date-time. -/
theorem point_not_mem_takeWhile_dateTime (t : DateTime) (rest : List Char) :
    '.' ∉ (t.text.toList ++ rest).takeWhile (· != ':') := by
  obtain ⟨clock, htext⟩ := toList_time_text t.time
  have hbefore : Text.Among ['+', '-', 'T']
      (t.date.text.toList ++ 'T' :: Numeral.padded 2 (t.time.second / 3600)) :=
    (t.date.among_text.mono (by decide)).append
      (.cons (.inr (by decide)) (Numeral.among_padded _ _ _))
  rw [DateTime.toList_text, htext, List.append_assoc, List.cons_append, List.append_assoc,
    List.cons_append, ← List.cons_append, ← List.append_assoc]
  exact point_not_mem_takeWhile (hbefore.not_mem (by decide) (by decide))

/-- The text of a value spells a value that agrees with it. A uuid is nothing that can be added. -/
theorem readAny?_wireText (hportable : v.Portable) (huuid : ∀ u, v ≠ .uuid u)
    (h : v.wireText? = some s) : ∃ w, readAny? s = some w ∧ w.Agrees v := by
  have htrim := Value.trimmed_wireText h
  rw [readAny?, htrim]
  -- The readers are tried in turn: durations, points of time, times of day, decimals. In each case
  -- those before the right one have to refuse the text.
  cases v <;> simp only [Value.wireText?, Option.some.injEq, reduceCtorEq] at h <;> subst h
  case decimal x =>
    obtain ⟨y, hread, hnumber⟩ := x.read?_text
    have hcolon : ':' ∉ x.text.toList := x.not_mem_text (by decide) (by decide)
    have hduration := isSurelyDuration_eq_false (toUpper_ne_P x.among_text (by decide))
      (.inl hcolon)
    have htemporal : Value.readTemporal? x.text = none :=
      Value.readTemporal?_eq_none (htrim ▸ hcolon) (htrim ▸ x.date_read?_text)
    refine ⟨.decimal y, ?_, .decimal hnumber⟩
    simp [hduration, htemporal, TimeOfDay.read?_eq_none hcolon, readDecimal?, htrim, hread]
  case uuid u => exact absurd rfl (huuid u)
  case date d =>
    have hcolon : ':' ∉ d.text.toList := d.among_text.not_mem (by decide) (by decide)
    have hduration := isSurelyDuration_eq_false (toUpper_ne_P d.among_text (by decide))
      (.inl hcolon)
    refine ⟨.date d, ?_, .refl _⟩
    simp [hduration, Value.readTemporal?_date]
  case timestamp t =>
    have hduration := isSurelyDuration_eq_false (toUpper_ne_P t.among_utcText (by decide))
      (.inr (by
        rw [DateTime.utcText, String.toList_append]
        exact point_not_mem_takeWhile_dateTime t _))
    refine ⟨.timestamp t, ?_, .refl _⟩
    simp [hduration, Value.readTemporal?_timestamp hportable]
  case timestampNaive t =>
    have hduration := isSurelyDuration_eq_false (toUpper_ne_P t.among_text (by decide))
      (.inr (by simpa using point_not_mem_takeWhile_dateTime t []))
    refine ⟨.timestampNaive t, ?_, .refl _⟩
    simp [hduration, Value.readTemporal?_timestampNaive]
  case time t =>
    have hduration := isSurelyDuration_eq_false (toUpper_ne_P t.among_text (by decide))
      (.inr (point_not_mem_takeWhile_time t))
    have hhyphen : '-' ∉ t.text.toList := t.among_text.not_mem (by decide) (by decide)
    have htemporal : Value.readTemporal? t.text = none := by
      simp only [Value.readTemporal?, htrim, DateTime.readInstant?_eq_none (.inr hhyphen),
        DateTime.read?_eq_none (.inr hhyphen), Date.read?_eq_none hhyphen]
      rfl
    refine ⟨.time t, ?_, .refl _⟩
    simp [hduration, htemporal, t.read?_text]
  case duration d =>
    refine ⟨.duration d, ?_, .refl _⟩
    simp [isSurelyDuration_iso, readDuration?, d.ofText?_iso]

/-! ## Reading a later operand -/

/-- The text of a decimal is read as a decimal that agrees with it. -/
theorem readDecimal?_text (x : Decimal) :
    ∃ w, readDecimal? x.text = some w ∧ w.Agrees (.decimal x) := by
  have htrim : Value.trimmed x.text = x.text.toList := Value.trimmed_wireText (v := .decimal x) rfl
  obtain ⟨y, hread, hnumber⟩ := x.read?_text
  exact ⟨.decimal y, by rw [readDecimal?, htrim, hread, Option.map_some], .decimal hnumber⟩

/-- What a number can be added to, of the values that are carried as texts, is a decimal. -/
theorem eq_decimal_of_add_numeric {r : Value} (hnumeric : t.dataType.isNumeric = true)
    (htext : v.wireText? = some s) (hadd : add t v = .ok r) : ∃ x, v = .decimal x := by
  cases v with
  | decimal x => exact ⟨x, rfl⟩
  | int _ | uint _ | float _ | string _ | boolean _ | null => contradiction
  | uuid _ | date _ | timestamp _ | timestampNaive _ | time _ | duration _ =>
      cases t <;> contradiction

/-- Only a duration is added to a total that is temporal. -/
theorem eq_duration_of_add_temporal {r : Value} (htemporal : t.dataType.isTemporal = true)
    (htext : v.wireText? = some s) (hadd : add t v = .ok r) : ∃ d, v = .duration d := by
  cases v with
  | duration d => exact ⟨d, rfl⟩
  | int _ | uint _ | float _ | string _ | boolean _ | null => contradiction
  | decimal _ | uuid _ | date _ | timestamp _ | timestampNaive _ | time _ =>
      cases t <;> contradiction

/-- Nothing that is carried as a text can be added to a boolean, a string or a uuid. -/
theorem not_add_of_other {r : Value} (hnull : t.isNull = false)
    (hnumeric : t.dataType.isNumeric = false) (htemporal : t.dataType.isTemporal = false)
    (htext : v.wireText? = some s) : add t v ≠ .ok r := by
  cases t <;> cases v <;> first | contradiction | nofun

/-- A text after a total is read as a value that agrees with the one that it was written from,
whenever that one can be added to the total. -/
theorem operand_wireText {r : Value} (htotal : w.Agrees t) (hnull : t.isNull = false)
    (htext : v.wireText? = some s) (hadd : add t v = .ok r) :
    (operand (some w) (.string s)).Agrees v := by
  rw [operand, readAgainst?, htotal.dataType_eq]
  by_cases hnumeric : t.dataType.isNumeric = true
  · obtain ⟨x, rfl⟩ := eq_decimal_of_add_numeric hnumeric htext hadd
    obtain rfl : x.text = s := Option.some.inj htext
    obtain ⟨y, hread, hagrees⟩ := readDecimal?_text x
    simpa [hnumeric, hread] using hagrees
  by_cases htemporal : t.dataType.isTemporal = true
  · obtain ⟨d, rfl⟩ := eq_duration_of_add_temporal htemporal htext hadd
    obtain rfl : d.iso = s := Option.some.inj htext
    simpa [hnumeric, htemporal, readDuration?, d.ofText?_iso] using Agrees.refl _
  · exact absurd hadd (not_add_of_other hnull (Bool.eq_false_iff.mpr hnumeric)
      (Bool.eq_false_iff.mpr htemporal) htext)

/-! ## Adding values that agree -/

/-- Values that agree are decimals of one number in a sum. -/
theorem decimal?_agrees {x : Decimal} (h : w.Agrees v) (hv : decimal? v = some x) :
    ∃ y, decimal? w = some y ∧ y.number = x.number := by
  cases h with
  | refl => exact ⟨x, hv, rfl⟩
  | decimal hnumber =>
      obtain rfl := Option.some.inj hv
      exact ⟨_, rfl, hnumber⟩

theorem add_decimal_left (x : Decimal) (v : Value) :
    add (.decimal x) v =
      if v.isNull then .ok .null
      else
        match decimal? v with
        | some y => .ok (.decimal (x.add y))
        | none => .error (.undefinedAddOperation .decimal v.dataType) := by
  cases v with
  | float z =>
      unfold add
      cases decimal? (.float z) <;> rfl
  | _ => rfl

theorem add_decimal_right (t : Value) (y : Decimal) :
    add t (.decimal y) =
      if t.isNull then .ok .null
      else
        match decimal? t with
        | some x => .ok (.decimal (x.add y))
        | none => .error (.undefinedAddOperation t.dataType .decimal) := by
  cases t with
  | float z =>
      unfold add
      cases decimal? (.float z) <;> rfl
  | _ => rfl

/-- Sums of decimals of the same numbers agree. -/
theorem decimal_add_agrees {x x' y y' : Decimal} (hx : x'.number = x.number)
    (hy : y'.number = y.number) : Agrees (.decimal (x'.add y')) (.decimal (x.add y)) :=
  .decimal (by rw [Decimal.number_add, Decimal.number_add, hx, hy])

/-- Sums of values that agree agree. -/
theorem add_agrees {t' v' r : Value} (ht : t'.Agrees t) (hv : v'.Agrees v) (h : add t v = .ok r) :
    ∃ r', add t' v' = .ok r' ∧ r'.Agrees r := by
  -- Only decimals agree without being equal, so a sum is looked into where one of its sides is a
  -- decimal.
  cases ht with
  | decimal hx =>
      have hnull : v'.isNull = v.isNull := by cases hv <;> rfl
      rw [add_decimal_left] at h ⊢
      rw [hnull]
      by_cases hisNull : v.isNull = true
      · rw [if_pos hisNull] at h ⊢
        exact ⟨r, h, .refl r⟩
      rw [if_neg hisNull] at h ⊢
      split at h
      next y hdecimal =>
        obtain ⟨y', hdecimal', hy⟩ := decimal?_agrees hv hdecimal
        obtain rfl := Except.ok.inj h
        exact ⟨_, by rw [hdecimal'], decimal_add_agrees hx hy⟩
      next => contradiction
  | refl =>
      cases hv with
      | refl => exact ⟨r, h, .refl r⟩
      | decimal hy =>
          rw [add_decimal_right] at h ⊢
          by_cases hisNull : t.isNull = true
          · rw [if_pos hisNull] at h ⊢
            exact ⟨r, h, .refl r⟩
          rw [if_neg hisNull] at h ⊢
          split at h
          next x hdecimal =>
            obtain rfl := Except.ok.inj h
            exact ⟨_, rfl, decimal_add_agrees rfl hy⟩
          next => contradiction

theorem add_null_left (v : Value) : add .null v = .ok .null := by
  cases v <;> rfl

/-! ## One more operand -/

/-- A value that is no text is read as it is, whatever the total. -/
theorem operand_of_wireText? (total : Option Value) (h : v.wireText? = some s) :
    operand total v = v := by
  cases v <;> first | contradiction | rfl

theorem operand_congr (h : w.Agrees t) (v : Value) : operand (some w) v = operand (some t) v := by
  cases v with
  | string s => rw [operand, operand, readAgainst?, readAgainst?, h.dataType_eq]
  | _ => rfl

/-- An operand on the wire: itself, or the text of a value that can be added. -/
inductive OnWire : Value → Value → Prop
  | same (v : Value) : OnWire v v
  | text {v : Value} {s : String} (portable : v.Portable) (not_uuid : ∀ u, v ≠ .uuid u)
      (wireText_eq : v.wireText? = some s) : OnWire v (.string s)

variable {u : Value}

/-- What carries a value is read as one that agrees with it, where nothing came before. -/
theorem OnWire.first (h : OnWire v u) : (operand none u).Agrees (operand none v) := by
  cases h with
  | same => exact .refl _
  | text hportable huuid htext =>
      obtain ⟨w, hread, hagrees⟩ := readAny?_wireText hportable huuid htext
      rw [operand_of_wireText? none htext]
      simpa [operand, readAgainst?, hread] using hagrees

/-- The step of a sum: a total that agrees, moved by an operand on the wire, agrees again. -/
theorem OnWire.later {t' r : Value} (h : OnWire v u) (ht : t'.Agrees t)
    (hadd : add t (operand (some t) v) = .ok r) :
    ∃ r', add t' (operand (some t') u) = .ok r' ∧ r'.Agrees r := by
  by_cases hnull : t.isNull = true
  · -- A total of null stays null, whatever is added.
    obtain rfl := Value.eq_null_of_isNull hnull
    cases ht
    rw [add_null_left] at hadd
    exact ⟨.null, add_null_left _, Except.ok.inj hadd ▸ .refl _⟩
  rw [Bool.not_eq_true] at hnull
  cases h with
  | same =>
      rw [operand_congr ht]
      exact add_agrees ht (.refl _) hadd
  | text hportable huuid htext =>
      rw [operand_of_wireText? _ htext] at hadd
      exact add_agrees ht (operand_wireText ht hnull htext hadd) hadd

end Sum

/-! ## Sums of constants -/

namespace Value

/-- A value that a sum may have as an operand and that JSON keeps for it. -/
def Addable : Value → Prop
  | uint n => Int64.maxValue.toInt < n.toNat
  | uuid _ => False
  | v => v.Portable

variable {v : Value}

/-- What can be added is carried by JSON. -/
theorem Addable.onWire (h : v.Addable) : Sum.OnWire v v.carried := by
  have hportable : v.Portable := by
    cases v <;> first | exact h | trivial
  have huuid : ∀ u, v ≠ uuid u := by
    rintro u rfl
    exact h
  obtain ⟨u, hjson, hcarried⟩ := hportable.carried
  obtain rfl := Option.some.inj (hjson.symm.trans v.ofJson?_toJson)
  generalize v.carried = u at hcarried
  cases hcarried with
  | literal => exact .same v
  | @signed n m hm =>
      have hlarge : Int64.maxValue.toInt < n.toNat := h
      exact absurd (hm ▸ m.toInt_le) (Int.not_le.mpr hlarge)
  | text htext => exact .text hportable huuid htext

end Value

namespace Operand

/-- A constant and what its encoding is decoded to. -/
structure Recoded (c d : Criterion) : Prop where
  isConstant : c.operator.isConstant = true
  operator_eq : d.operator = c.operator
  onWire : Sum.OnWire (c.value.getD .null) (d.value.getD .null)

variable {c d : Criterion} {v : Value}

/-- A recoded constant is resolved to what carries its value. -/
theorem Recoded.constant (h : Recoded c d) (env : Environment) (hc : constant env c = .ok v) :
    ∃ u, Operand.constant env d = .ok u ∧ Sum.OnWire v u := by
  rw [Operand.constant, if_pos h.isConstant] at hc
  rw [Operand.constant, h.operator_eq, if_pos h.isConstant]
  have honWire := h.onWire
  generalize c.value.getD .null = v₀ at hc honWire
  generalize d.value.getD .null = u₀ at honWire
  cases honWire with
  | same => exact ⟨v, hc, .same v⟩
  | text hportable huuid htext =>
      have hresolve : Sigil.resolve env v₀ = .ok v₀ := by
        cases v₀ <;> first | contradiction | rfl
      obtain rfl := Except.ok.inj (hresolve.symm.trans hc)
      exact ⟨_, Sigil.resolve_wireText env htext, .text hportable huuid htext⟩

/-- The run of a sum: from totals that agree, operands on the wire lead to totals that agree. -/
theorem total_recoded (env : Environment) {cs ds : List Criterion}
    (h : List.Forall₂ Recoded cs ds) {sum sum' : Option Value} (hsum : Option.Rel Agrees sum' sum)
    (htotal : total env sum cs = .ok v) : ∃ w, total env sum' ds = .ok w ∧ w.Agrees v := by
  induction h generalizing sum sum' with
  | nil =>
      obtain rfl := Except.ok.inj htotal
      refine ⟨_, rfl, ?_⟩
      cases hsum with
      | none => exact .refl _
      | some hagrees => exact hagrees
  | cons hhead _ ih =>
      rw [total, bind_eq_ok_iff] at htotal
      obtain ⟨v₀, hconstant, htotal⟩ := htotal
      obtain ⟨u₀, hconstant', honWire⟩ := hhead.constant env hconstant
      rw [total, hconstant']
      cases hsum with
      | none => exact ih (.some honWire.first) htotal
      | some hagrees =>
          obtain ⟨t, hadd, htotal⟩ := bind_eq_ok_iff.mp htotal
          obtain ⟨t', hadd', hagrees'⟩ := honWire.later hagrees hadd
          obtain ⟨w, hrest, hw⟩ := ih (.some hagrees') htotal
          exact ⟨w, bind_eq_ok_iff.mpr ⟨u₀, rfl, bind_eq_ok_iff.mpr ⟨t', hadd', hrest⟩⟩, hw⟩

theorem recoded_carried (hconstant : c.operator.isConstant = true)
    (haddable : (c.value.getD .null).Addable) : Recoded c c.carried where
  isConstant := hconstant
  operator_eq := c.operator_carried
  onWire := by
    rw [Criterion.value_carried hconstant]
    exact haddable.onWire

end Operand

end Selection
