import Selection.Proofs.Addition
import Selection.Sample.Criteria

/-! # Sums are exact

A sum of constants stands for the sum of what its operands stand for, whatever representations its
total takes on the way: for a number, for a point of time moved by durations in any order, or for a
time of day on the clock. The only way it fails is an overflow. A null among the operands makes the
sum null, if what stands before it can be added.
-/

namespace Selection

/-- The step of a sum: the next operand is added as what it is read for after the total. -/
def Sum.step (t v : Value) : Except CompileError Value :=
  add t (operand (some t) v)

/-! ## Sums of constants -/

namespace Operand

variable {env : Environment} {c : Criterion} {cs : List Criterion} {v t : Value} {vs : List Value}

/-- A criterion is the constant of a value. -/
def ConstantOf (c : Criterion) (v : Value) : Prop :=
  c.operator.isConstant = true ∧ c.value.getD .null = v

/-- A criterion is the sum of constants of some values. -/
structure SumOf (c : Criterion) (vs : List Value) : Prop where
  isSum : c.operator.isSum = true
  parts : List.Forall₂ ConstantOf c.parts vs

/-- The sum of constants of some values. -/
def sumOfConstants (vs : List Value) : Criterion :=
  .group .add (vs.map .constant)

/-- The sum of some constants is a sum of their values. -/
theorem sumOf_sumOfConstants (vs : List Value) : SumOf (sumOfConstants vs) vs where
  isSum := rfl
  parts := by
    change List.Forall₂ ConstantOf (vs.map Criterion.constant) vs
    rw [List.forall₂_map_left_iff, List.forall₂_same]
    exact fun _ _ => ⟨rfl, rfl⟩

/-- A value that is no sigil. -/
def Plain (v : Value) : Prop :=
  ∀ s, v = .string s → Sigil.parse? s = none

/-- A constant that is no sigil has its value. -/
theorem ConstantOf.constant_eq_ok (h : ConstantOf c v) (hplain : Plain v) :
    constant env c = .ok v := by
  obtain ⟨hconstant, rfl⟩ := h
  rw [constant, if_pos hconstant]
  generalize c.value.getD .null = v at hplain
  cases v with
  | string s => rw [Sigil.resolve, hplain s rfl]
  | _ => rfl

/-- The first part of a sum is the total to begin with. -/
theorem total_cons_none (h : ConstantOf c v) (hplain : Plain v) :
    total env none (c :: cs) = total env (some (Sum.operand none v)) cs := by
  rw [total, h.constant_eq_ok hplain]
  rfl

/-- Every further part is read against the total and added to it. -/
theorem total_cons_some (h : ConstantOf c v) (hplain : Plain v) :
    total env (some t) (c :: cs) =
      Sum.add t (Sum.operand (some t) v) >>= fun sum => total env (some sum) cs := by
  rw [total, h.constant_eq_ok hplain]
  rfl

/-- A run of a sum adds every operand as what it is read for after the total before it. -/
theorem total_eq_foldlM (h : List.Forall₂ ConstantOf cs vs) (hvs : ∀ v ∈ vs, Plain v) :
    total env (some t) cs = vs.foldlM Sum.step t := by
  induction h generalizing t with
  | nil => rfl
  | @cons c v cs vs hhead _ ih =>
      have hrest (sum : Value) : total env (some sum) cs = vs.foldlM Sum.step sum :=
        ih fun w hw => hvs w (List.mem_cons_of_mem _ hw)
      rw [total_cons_some hhead (hvs v List.mem_cons_self), funext hrest, List.foldlM_cons]
      rfl

/-- A sum of values that are no sigils is a fold of its steps from the first value on. -/
theorem SumOf.rightHandSide_eq_foldlM (h : SumOf c (v :: vs)) (hvs : ∀ w ∈ v :: vs, Plain w) :
    rightHandSide env (some c) = vs.foldlM Sum.step (Sum.operand none v) := by
  have hparts := h.parts
  rw [rightHandSide, if_pos h.isSum]
  generalize c.parts = cs at hparts
  cases hparts with
  | cons hhead htail =>
      rw [total_cons_none hhead (hvs v List.mem_cons_self)]
      exact total_eq_foldlM htail fun w hw => hvs w (List.mem_cons_of_mem _ hw)

/-- A value that is no text is neither a sigil nor read as another value. -/
theorem plain_of_no_text (h : v.asString? = none) :
    Plain v ∧ ∀ sum, Sum.operand sum v = v := by
  cases v <;> first | contradiction | exact ⟨nofun, fun _ => rfl⟩

/-- Where no value is a text, the steps of a sum are additions. -/
theorem foldlM_step_eq (hvs : ∀ v ∈ vs, v.asString? = none) :
    vs.foldlM Sum.step t = vs.foldlM Sum.add t := by
  induction vs generalizing t with
  | nil => rfl
  | cons v vs ih =>
      have hrest (sum : Value) : vs.foldlM Sum.step sum = vs.foldlM Sum.add sum :=
        ih fun w hw => hvs w (List.mem_cons_of_mem _ hw)
      rw [List.foldlM_cons, List.foldlM_cons, funext hrest, Sum.step,
        (plain_of_no_text (hvs v List.mem_cons_self)).2]

/-- A sum of values that are no texts adds them as they are. -/
theorem SumOf.rightHandSide_eq (h : SumOf c (v :: vs))
    (hvs : ∀ w ∈ v :: vs, w.asString? = none) :
    rightHandSide env (some c) = vs.foldlM Sum.add v := by
  rw [h.rightHandSide_eq_foldlM fun w hw => (plain_of_no_text (hvs w hw)).1,
    (plain_of_no_text (hvs v List.mem_cons_self)).2,
    foldlM_step_eq fun w hw => hvs w (List.mem_cons_of_mem _ hw)]

/-! ## Nulls -/

/-- A sum with a null is null. -/
theorem add_null_right (t : Value) : Sum.add t .null = .ok .null := by
  cases t <;> rfl

/-- A total of null stays null. -/
theorem total_null (h : List.Forall₂ ConstantOf cs vs) (hplain : ∀ v ∈ vs, Plain v) :
    total env (some .null) cs = .ok .null := by
  induction h with
  | nil => rfl
  | cons hhead _ ih =>
      rw [total_cons_some hhead (hplain _ List.mem_cons_self), Sum.add_null_left]
      exact ih fun w hw => hplain w (List.mem_cons_of_mem _ hw)

/-- The operands before the first null. -/
def beforeNull (cs : List Criterion) : List Criterion :=
  cs.takeWhile fun c => !(c.value.getD .null).isNull

/-- The parts before the first null end at it. -/
theorem beforeNull_cons (h : ConstantOf c v) :
    beforeNull (c :: cs) = if v.isNull then [] else c :: beforeNull cs := by
  rw [beforeNull, List.takeWhile_cons, h.2]
  cases v.isNull <;> rfl

/-- A sum with a null is null, unless the operands before the null cannot be added. -/
theorem total_of_null_mem (h : List.Forall₂ ConstantOf cs vs) (hplain : ∀ v ∈ vs, Plain v)
    (hnull : .null ∈ vs) (sum : Option Value) :
    total env sum cs = (total env sum (beforeNull cs)).map fun _ => .null := by
  induction h generalizing sum with
  | nil => contradiction
  | @cons c v cs vs hhead htail ih =>
      have hhere := hplain v List.mem_cons_self
      have hrest : ∀ w ∈ vs, Plain w := fun w hw => hplain w (List.mem_cons_of_mem _ hw)
      rw [beforeNull_cons hhead]
      -- From the first null on the total is null, and nothing added to it fails.
      by_cases hv : v = .null
      · subst hv
        cases sum with
        | none =>
            rw [total_cons_none hhead hhere]
            exact total_null htail hrest
        | some t =>
            have hadd : Sum.add t (Sum.operand (some t) .null) = .ok .null := add_null_right t
            rw [total_cons_some hhead hhere, hadd]
            exact total_null htail hrest
      · have hmem : .null ∈ vs := (List.mem_cons.mp hnull).resolve_left (Ne.symm hv)
        have hisNull : v.isNull = false := by
          cases v <;> first | contradiction | rfl
        rw [hisNull, if_neg Bool.false_ne_true]
        cases sum with
        | none =>
            rw [total_cons_none hhead hhere, total_cons_none hhead hhere]
            exact ih hrest hmem _
        | some t =>
            rw [total_cons_some hhead hhere, total_cons_some hhead hhere]
            cases Sum.add t (Sum.operand (some t) v) with
            | error e => rfl
            | ok sum => exact ih hrest hmem _

/-! ## Exact sums -/

/-- Values that all have a meaning that texts lack are no texts. -/
theorem no_texts_of_forall₂ {A : Type} {meaning? : Value → Option A}
    (hmeaning : ∀ s, meaning? (.string s) = none) {as : List A}
    (h : List.Forall₂ (fun v a => meaning? v = some a) vs as) :
    ∀ v ∈ vs, v.asString? = none := by
  induction h with
  | nil => exact List.forall_mem_nil _
  | @cons v a vs as hhead _ ih =>
      refine List.forall_mem_cons.mpr ⟨?_, ih⟩
      cases v with
      | string s =>
          rw [hmeaning] at hhead
          contradiction
      | _ => rfl

/-- A sum of numbers ends in the exact sum of them, or overflows. -/
theorem SumOf.number (h : SumOf c vs) (hne : vs ≠ []) {qs : List ℚ}
    (hqs : List.Forall₂ (fun v q => v.number? = some q) vs qs) :
    Sum.EndsIn (fun r => r.number? = some qs.sum) (rightHandSide env (some c)) := by
  have hvs := no_texts_of_forall₂ (fun _ => rfl) hqs
  cases hqs with
  | nil => contradiction
  | cons hhead htail =>
      rw [h.rightHandSide_eq hvs, List.sum_cons]
      exact Sum.endsIn_foldlM (fun r q => r.number? = some q) _ Sum.add_numbers hhead htail

theorem no_texts_of_durations {lead : Value} (hlead : lead.asString? = none)
    (ds : List Duration) :
    ∀ v ∈ lead :: ds.map .duration, v.asString? = none := by
  refine List.forall_mem_cons.mpr ⟨hlead, fun v hv => ?_⟩
  obtain ⟨d, -, rfl⟩ := List.mem_map.mp hv
  rfl

/-- Durations move a point of time by their sum, or out of range. -/
theorem SumOf.point {lead : Value} {ds : List Duration} {scale : Scale} {start : Int}
    (h : SumOf c (lead :: ds.map .duration)) (hlead : lead.point? = some (scale, start)) :
    Sum.EndsIn (fun r => r.point? = some (scale, start + (ds.map Duration.nanos).sum))
      (rightHandSide env (some c)) := by
  have htext : lead.asString? = none := by
    cases lead <;> first | contradiction | rfl
  rw [h.rightHandSide_eq (no_texts_of_durations htext ds)]
  refine Sum.endsIn_foldlM (fun r n => r.point? = some (scale, n))
    (fun v n => ∃ d, v = .duration d ∧ d.nanos = n) ?_ hlead ?_
  · rintro t v a b ht ⟨d, rfl, rfl⟩
    exact Sum.add_duration ht d
  · rw [List.forall₂_map_left_iff, List.forall₂_map_right_iff, List.forall₂_same]
    exact fun d _ => ⟨d, rfl, rfl⟩

/-- Durations move a clock by their sum, but for what a leap second hides. -/
theorem SumOf.time {t : TimeOfDay} {ds : List Duration}
    (h : SumOf c (.time t :: ds.map .duration)) :
    ∃ r hidden, rightHandSide env (some c) = .ok (.time r) ∧ t.Hidden r hidden ∧
      r.clock % 86400000000000 =
        (t.clock + (ds.map Duration.nanos).sum - hidden) % 86400000000000 := by
  rw [h.rightHandSide_eq (no_texts_of_durations rfl ds)]
  exact Sum.exists_foldlM_time t ds

/-- A sum of constants is exact. Integers and decimals come to the sum of their numbers, or
overflow. A date, date-time or duration moves by the sum of the durations behind it, whatever their
order, or overflows. A time of day moves by their sum on the clock, but for the second that is
hidden when a leap second is left. A sum with a null is null, or fails as the operands before the
null do. -/
theorem sum_is_exact (env : Environment) {c : Criterion} {vs : List Value} (h : SumOf c vs) :
    (∀ qs, vs ≠ [] → List.Forall₂ (fun v q => v.number? = some q) vs qs →
      Sum.EndsIn (fun r => r.number? = some qs.sum) (rightHandSide env (some c))) ∧
    (∀ lead (ds : List Duration) scale start, vs = lead :: ds.map .duration →
      lead.point? = some (scale, start) →
      Sum.EndsIn (fun r => r.point? = some (scale, start + (ds.map Duration.nanos).sum))
          (rightHandSide env (some c)) ∧
        ∀ (ds' : List Duration) c' r r', ds'.Perm ds → SumOf c' (lead :: ds'.map .duration) →
          rightHandSide env (some c) = .ok r → rightHandSide env (some c') = .ok r' →
            r'.point? = r.point?) ∧
    (∀ t (ds : List Duration), vs = .time t :: ds.map .duration →
      ∃ r hidden, rightHandSide env (some c) = .ok (.time r) ∧ t.Hidden r hidden ∧
        r.clock % 86400000000000 =
            (t.clock + (ds.map Duration.nanos).sum - hidden) % 86400000000000 ∧
          (t.isLeap = false →
            r.clock = (t.clock + (ds.map Duration.nanos).sum) % 86400000000000)) ∧
    ((∀ v ∈ vs, Plain v) → .null ∈ vs →
      rightHandSide env (some c) = (total env none (beforeNull c.parts)).map fun _ => .null) := by
  refine ⟨?_, ?_, ?_, ?_⟩
  · intro qs hne hqs
    exact h.number hne hqs
  · rintro lead ds scale start rfl hlead
    refine ⟨h.point hlead, ?_⟩
    intro ds' c' r r' hperm h' hr hr'
    have hsum : (ds'.map Duration.nanos).sum = (ds.map Duration.nanos).sum :=
      (hperm.map _).sum_eq
    rw [(h.point hlead).of_ok hr, (h'.point hlead).of_ok hr', hsum]
  · rintro t ds rfl
    obtain ⟨r, hidden, hr, hhidden, hclock⟩ := h.time
    refine ⟨r, hidden, hr, hhidden, hclock, fun hleap => ?_⟩
    obtain ⟨rfl, hleft⟩ := hhidden.eq_zero hleap
    rw [← TimeOfDay.clock_mod hleft, hclock, sub_zero]
  · intro hplain hnull
    rw [rightHandSide, if_pos h.isSum]
    exact total_of_null_mem h.parts hplain hnull none

/-- A sum beyond the signed integers and with a fraction, the leap day moved by a day in parts, a
clock past midnight, and a null behind a sum. -/
theorem sample_sums_are_exact :
    (∃ r, rightHandSide Sample.office (some (sumOfConstants
        [.int 9223372036854775807, .uint 1, .decimal ⟨5, 1, by decide, by decide⟩])) = .ok r ∧
      r.number? = some (9223372036854775808 + 1 / 2)) ∧
    (∃ r, rightHandSide Sample.office (some (sumOfConstants
        [.date (Sample.day 2024 2 29), .duration ⟨21600000000000, by decide⟩,
          .duration ⟨64800000000000, by decide⟩])) = .ok r ∧
      r.point? = some (.wall, (DateTime.ofDate (Sample.day 2024 3 1)).nanos)) ∧
    (∃ r, rightHandSide Sample.office (some (sumOfConstants
        [.time (.wrapped 82800 0), .duration ⟨7200000000000, by decide⟩])) = .ok (.time r) ∧
      r.clock = 3600000000000) ∧
    rightHandSide Sample.office (some (sumOfConstants
      [.int 9223372036854775806, .int 1, .null, .int 1])) = .ok .null := by
  refine ⟨⟨_, rfl, ?_⟩, ⟨_, rfl, ?_⟩, ?_, ?_⟩
  · have hhalf : (Value.decimal ⟨5, 1, by decide, by decide⟩).number? = some (1 / 2) := by
      norm_num [Value.number?, Value.exactNumber?, Decimal.number]
    have hexact := (sum_is_exact Sample.office (sumOf_sumOfConstants
      [.int 9223372036854775807, .uint 1, .decimal ⟨5, 1, by decide, by decide⟩])).1
        [9223372036854775807, 1, 1 / 2] (List.cons_ne_nil _ _)
          (.cons (Value.number?_of_integer? rfl) (.cons (Value.number?_of_integer? rfl)
            (.cons hhalf .nil)))
    rw [hexact.of_ok rfl]
    norm_num
  · have hexact := (sum_is_exact Sample.office (sumOf_sumOfConstants _)).2.1
      (.date (Sample.day 2024 2 29)) [⟨21600000000000, by decide⟩, ⟨64800000000000, by decide⟩]
        .wall _ rfl rfl
    rw [hexact.1.of_ok rfl]
    rfl
  · obtain ⟨r, hidden, hr, -, -, hclock⟩ := (sum_is_exact Sample.office
      (sumOf_sumOfConstants _)).2.2.1 (.wrapped 82800 0) [⟨7200000000000, by decide⟩] rfl
    exact ⟨r, hr, (hclock rfl).trans (by decide)⟩
  · have hplain : ∀ v ∈ [.int 9223372036854775806, .int 1, .null, .int 1], Plain v := by
      simp [Plain]
    rw [(sum_is_exact Sample.office (sumOf_sumOfConstants _)).2.2.2 hplain (by decide)]
    rfl

end Operand

end Selection
