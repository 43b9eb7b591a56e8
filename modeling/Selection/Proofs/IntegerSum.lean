import Selection.Proofs.Decoded
import Selection.Proofs.ExactSum

/-! # Sums of integers on the wire

JSON does not tell signed integers from unsigned ones, and an unsigned integer with 63 bits is
decoded as a signed one. The sum of two signed integers has to be a signed one, and the sum of
others may be unsigned. So a sum of integers may overflow once it is decoded where it did not
before: at a step from a total in the signed range by an integer in the signed range to a sum beyond
it. When there is no such step, the sum survives as the same integer, and whenever the decoded sum
succeeds, the sum did so before.
-/

namespace Selection

/-! ## Integers that JSON gives back -/

namespace Value

/-- An integer is carried as the same integer, in its representation that is a literal. -/
theorem integer?_carried {v : Value} {n : Int} (h : v.integer? = some n) :
    v.carried.integer? = some n ∧ v.carried.Literal := by
  cases v with
  | int m =>
      have hliteral : (int m).Literal := trivial
      rw [hliteral.carried_eq]
      exact ⟨h, hliteral⟩
  | uint m =>
      rcases exists_signed_or_unsigned m with ⟨k, hk, hjson⟩ | ⟨hlarge, -⟩
      · have hcarried : (uint m).carried = int k :=
          Option.some.inj ((uint m).ofJson?_toJson.symm.trans hjson)
        rw [hcarried, ← h]
        exact ⟨congrArg some hk, trivial⟩
      · have hliteral : (uint m).Literal := hlarge
        rw [hliteral.carried_eq]
        exact ⟨h, hliteral⟩
  | _ => contradiction

end Value

namespace Sum

variable {t v u w : Value} {a b n : Int} {x y : Except CompileError Value}

/-- Two integers in the signed range have a sum beyond it. -/
def Widens (total n : Int) : Prop :=
  total ≤ Int64.maxValue.toInt ∧ n ≤ Int64.maxValue.toInt ∧ Int64.maxValue.toInt < total + n

/-- No step from a total over some integers leads two integers in the signed range beyond it. -/
def StaysSigned : Int → List Int → Prop
  | _, [] => True
  | total, n :: rest => ¬Widens total n ∧ StaysSigned (total + n) rest

instance (total n : Int) : Decidable (Widens total n) :=
  inferInstanceAs (Decidable (_ ∧ _))

instance decidableStaysSigned : (total : Int) → (ns : List Int) → Decidable (StaysSigned total ns)
  | _, [] => isTrue trivial
  | total, n :: rest =>
    have := decidableStaysSigned (total + n) rest
    inferInstanceAs (Decidable (_ ∧ _))

/-! ## Steps -/

/-- A signed integer is not above the largest one. -/
theorem le_of_signed {m : Int64} (h : (Value.int m).integer? = some n) :
    n ≤ Int64.maxValue.toInt := by
  obtain rfl := Option.some.inj h
  exact m.toInt_le

/-- A sum of two signed integers reaches as far as they do, and any other as far as the unsigned
ones. -/
theorem reach_cases (ht : t.integer? = some a) (hv : v.integer? = some b) :
    (reach t v = Int64.maxValue.toInt ∧ a ≤ Int64.maxValue.toInt ∧ b ≤ Int64.maxValue.toInt) ∨
      reach t v = UInt64.size - 1 := by
  cases t <;> cases v <;> first | contradiction | skip
  case int.int => exact .inl ⟨rfl, le_of_signed ht, le_of_signed hv⟩
  all_goals exact .inr rfl

/-- Of literals the integers tell how far their sum reaches. -/
theorem reach_of_literals (ht : t.integer? = some a) (hv : v.integer? = some b)
    (htl : t.Literal) (hvl : v.Literal) :
    reach t v = if a ≤ Int64.maxValue.toInt ∧ b ≤ Int64.maxValue.toInt then Int64.maxValue.toInt
      else UInt64.size - 1 := by
  cases t <;> cases v <;> first | contradiction | skip
  case int.int => rw [reach, if_pos ⟨le_of_signed ht, le_of_signed hv⟩]
  case int.uint =>
    have hlarge := (literal_uint_iff hv).mp hvl
    rw [if_neg fun h => Int.not_lt.mpr h.2 hlarge]
    rfl
  case uint.int =>
    have hlarge := (literal_uint_iff ht).mp htl
    rw [if_neg fun h => Int.not_lt.mpr h.1 hlarge]
    rfl
  case uint.uint =>
    have hlarge := (literal_uint_iff ht).mp htl
    rw [if_neg fun h => Int.not_lt.mpr h.1 hlarge]
    rfl

/-- Literals have a sum in reach when their integers have one in any representation, and do not
leave the signed range by it. -/
theorem inReach_literals_iff (ht : t.integer? = some a) (hv : v.integer? = some b)
    (hu : u.integer? = some a) (hw : w.integer? = some b) (hul : u.Literal) (hwl : w.Literal) :
    InReach u w (a + b) ↔ InReach t v (a + b) ∧ ¬Widens a b := by
  have hsize : Int64.maxValue.toInt ≤ UInt64.size - 1 := by decide
  rw [InReach, InReach, Widens, reach_of_literals hu hw hul hwl]
  obtain ⟨hreach, ha, hb⟩ | hreach := reach_cases ht hv
  · rw [hreach, if_pos ⟨ha, hb⟩]
    omega
  · rw [hreach]
    split <;> omega

/-! ## Runs -/

/-- What becomes of a sum by decoding: it survives when no step widens, it is lost when one does, or
it overflows before and after. -/
inductive Survival (n : Int) (stays : Prop) (x y : Except CompileError Value) : Prop
  | survives {r r' : Value} (before : x = .ok r) (after : y = .ok r')
      (integer : r.integer? = some n) (integer' : r'.integer? = some n) (stays : stays)
  | lost {r : Value} (before : x = .ok r) (after : Overflows y) (integer : r.integer? = some n)
      (widens : ¬stays)
  | overflows (before : Overflows x) (after : Overflows y)

/-- Integers are added to their sum, or overflow. -/
theorem endsIn_integer {vs : List Value} {ns : List Int} (ht : t.integer? = some a)
    (hvs : List.Forall₂ (fun v n => v.integer? = some n) vs ns) :
    EndsIn (fun r => r.integer? = some (a + ns.sum)) (vs.foldlM add t) := by
  refine endsIn_foldlM (fun r n => r.integer? = some n) _ ?_ ht hvs
  intro t v a b ht hv
  cases add_integers ht hv with
  | sum _ hadd hinteger => exact .inl ⟨_, hadd, hinteger⟩
  | overflow _ hadd => exact .inr ⟨_, _, hadd⟩

/-- The run of a sum before and after decoding, from totals that are one integer. -/
theorem survival_foldlM {vs : List Value} {ns : List Int}
    (hvs : List.Forall₂ (fun v n => v.integer? = some n) vs ns) (ht : t.integer? = some a)
    (hu : u.integer? = some a) (hul : u.Literal) :
    Survival (a + ns.sum) (StaysSigned a ns) (vs.foldlM add t)
      ((vs.map Value.carried).foldlM add u) := by
  induction hvs generalizing t u a with
  | nil =>
      rw [List.sum_nil, add_zero]
      exact .survives rfl rfl ht hu trivial
  | @cons v b vs ns hv hrest ih =>
      obtain ⟨hw, hwl⟩ := Value.integer?_carried hv
      -- After decoding an operand is signed where it fits, and the sum leaves the range exactly
      -- when it widens.
      have hreach := inReach_literals_iff ht hv hu hw hul hwl
      have hbefore := endsIn_integer ht (.cons hv hrest)
      rw [List.foldlM_cons, List.sum_cons, ← add_assoc] at hbefore
      rw [List.map_cons, List.foldlM_cons, List.foldlM_cons, List.sum_cons, ← add_assoc]
      cases add_integers hu hw with
      | sum hin hadd' hinteger' hliteral =>
          obtain ⟨hin, hwidens⟩ := hreach.mp hin
          cases add_integers ht hv with
          | sum _ hadd hinteger =>
              rw [hadd, hadd']
              cases ih hinteger hinteger' (hliteral hul hwl) with
              | survives hx hy hr hr' hstays => exact .survives hx hy hr hr' ⟨hwidens, hstays⟩
              | lost hx hy hr hstays => exact .lost hx hy hr fun h => hstays h.2
              | overflows hx hy => exact .overflows hx hy
          | overflow hout => exact absurd hin hout
      | overflow hout hadd' =>
          -- The decoded run stops here, whatever the rest of the operands is.
          have hafter : Overflows (add u v.carried >>= (vs.map Value.carried).foldlM add) :=
            ⟨_, _, by rw [hadd']; rfl⟩
          cases add_integers ht hv with
          | sum hin hadd =>
              have hwidens : Widens a b := by
                by_contra h
                exact hout (hreach.mpr ⟨hin, h⟩)
              obtain ⟨r, hx, hr⟩ | hx := hbefore
              · exact .lost hx hafter hr fun h => h.1 hwidens
              · exact .overflows hx hafter
          | overflow _ hadd => exact .overflows ⟨_, _, by rw [hadd]; rfl⟩ hafter

/-- Two outcomes are one integer, or both an overflow. -/
def SameInteger (n : Int) (x y : Except CompileError Value) : Prop :=
  (∃ r r', x = .ok r ∧ y = .ok r' ∧ r.integer? = some n ∧ r'.integer? = some n) ∨
    Overflows x ∧ Overflows y

theorem not_overflows_of_ok {r : Value} (h : x = .ok r) : ¬Overflows x := by
  rintro ⟨left, right, hx⟩
  rw [h] at hx
  contradiction

/-- The sum survives just when it overflowed before, or stays among the signed integers. -/
theorem Survival.sameInteger_iff {stays : Prop} (h : Survival n stays x y) :
    SameInteger n x y ↔ Overflows x ∨ stays := by
  cases h with
  | survives hx hy hr hr' hstays =>
      exact iff_of_true (.inl ⟨_, _, hx, hy, hr, hr'⟩) (.inr hstays)
  | lost hx hy hr hwidens =>
      refine iff_of_false ?_ (not_or.mpr ⟨not_overflows_of_ok hx, hwidens⟩)
      rintro (⟨r, r', -, hy', -⟩ | ⟨hx', -⟩)
      · exact not_overflows_of_ok hy' hy
      · exact not_overflows_of_ok hx hx'
  | overflows hx hy => exact iff_of_true (.inr ⟨hx, hy⟩) (.inl hx)

theorem Survival.endsIn {stays : Prop} (h : Survival n stays x y) :
    EndsIn (fun r => r.integer? = some n) x ∧ EndsIn (fun r => r.integer? = some n) y := by
  cases h with
  | survives hx hy hr hr' => exact ⟨.inl ⟨_, hx, hr⟩, .inl ⟨_, hy, hr'⟩⟩
  | lost hx hy hr => exact ⟨.inl ⟨_, hx, hr⟩, .inr hy⟩
  | overflows hx hy => exact ⟨.inr hx, .inr hy⟩

theorem Survival.overflows_of_widens {stays : Prop} (h : Survival n stays x y)
    (hwidens : ¬stays) : Overflows y := by
  cases h with
  | survives _ _ _ _ hstays => exact absurd hstays hwidens
  | lost _ hy => exact hy
  | overflows _ hy => exact hy

theorem Survival.overflows_after {stays : Prop} (h : Survival n stays x y) (hx : Overflows x) :
    Overflows y := by
  cases h with
  | survives hx' => exact absurd hx (not_overflows_of_ok hx')
  | lost _ hy => exact hy
  | overflows _ hy => exact hy

end Sum

/-! ## Sums of constants -/

namespace Operand

variable {env : Environment} {c : Criterion} {vs : List Value} {ns : List Int}

/-- A constant is carried by JSON as what its value is carried as. -/
theorem ConstantOf.carried {v : Value} (h : ConstantOf c v) : ConstantOf c.carried v.carried := by
  obtain ⟨hconstant, rfl⟩ := h
  refine ⟨?_, ?_⟩
  · rwa [c.operator_carried]
  · rw [Criterion.value_carried hconstant, Option.getD_some]

/-- A sum is carried by JSON as the sum of what its values are carried as. -/
theorem SumOf.carried (h : SumOf c vs) : SumOf c.carried (vs.map Value.carried) where
  isSum := by
    rw [c.operator_carried]
    exact h.isSum
  parts := by
    rw [Criterion.parts_carried, List.forall₂_map_left_iff, List.forall₂_map_right_iff]
    exact h.parts.imp fun _ _ hpart => hpart.carried

/-- A sum of no operands. -/
theorem SumOf.rightHandSide_nil (h : SumOf c []) : rightHandSide env (some c) = .ok .null := by
  rw [rightHandSide, if_pos h.isSum, List.forall₂_nil_right_iff.mp h.parts]
  rfl

/-- A sum of integers survives JSON as far as it stays among the signed ones. -/
theorem SumOf.survival (h : SumOf c vs) (env : Environment) (hne : vs ≠ [])
    (hvs : List.Forall₂ (fun v n => v.integer? = some n) vs ns) :
    Sum.Survival ns.sum (Sum.StaysSigned 0 ns) (rightHandSide env (some c))
      (rightHandSide env (some c.carried)) := by
  have hcarried : List.Forall₂ (fun v n => v.integer? = some n) (vs.map Value.carried) ns := by
    rw [List.forall₂_map_left_iff]
    exact hvs.imp fun _ _ hv => (Value.integer?_carried hv).1
  have htexts := no_texts_of_forall₂ (fun _ => rfl) hvs
  have htexts' := no_texts_of_forall₂ (fun _ => rfl) hcarried
  cases hvs with
  | nil => contradiction
  | @cons v n vs ns hv hrest =>
      obtain ⟨hu, hul⟩ := Value.integer?_carried hv
      have hfirst : ¬Sum.Widens 0 n := by
        rintro ⟨-, hle, hlt⟩
        omega
      have hstays : Sum.StaysSigned 0 (n :: ns) ↔ Sum.StaysSigned n ns := by
        rw [Sum.StaysSigned, zero_add, and_iff_right hfirst]
      rw [h.rightHandSide_eq htexts, h.carried.rightHandSide_eq htexts', hstays, List.sum_cons]
      exact Sum.survival_foldlM hrest hv hu hul

/-- A sum of integers is decoded from its encoding as a sum that is the same integer, or overflows
with it, exactly when it overflows before or no step over its integers widens. Both are the exact
sum if they do not overflow, and what overflows before overflows after. -/
theorem integer_sum_on_wire (env : Environment) (hshaped : c.Shaped) (h : SumOf c vs)
    (hvs : List.Forall₂ (fun v n => v.integer? = some n) vs ns) :
    ∃ d, Criterion.ofJson c.toJson = .ok d ∧
      (vs = [] → rightHandSide env (some c) = .ok .null ∧
        rightHandSide env (some d) = .ok .null) ∧
      (vs ≠ [] →
        (Sum.SameInteger ns.sum (rightHandSide env (some c)) (rightHandSide env (some d)) ↔
          Sum.Overflows (rightHandSide env (some c)) ∨ Sum.StaysSigned 0 ns) ∧
        Sum.EndsIn (fun r => r.integer? = some ns.sum) (rightHandSide env (some c)) ∧
        Sum.EndsIn (fun r => r.integer? = some ns.sum) (rightHandSide env (some d)) ∧
        (Sum.Overflows (rightHandSide env (some c)) →
          Sum.Overflows (rightHandSide env (some d)))) := by
  refine ⟨c.carried, hshaped.ofJson_toJson, ?_, ?_⟩
  · rintro rfl
    exact ⟨h.rightHandSide_nil, h.carried.rightHandSide_nil⟩
  · intro hne
    have hsurvival := h.survival env hne hvs
    exact ⟨hsurvival.sameInteger_iff, hsurvival.endsIn.1, hsurvival.endsIn.2,
      hsurvival.overflows_after⟩

theorem shaped_sumOfConstants (vs : List Value) : (sumOfConstants vs).Shaped := by
  refine Criterion.shaped_group rfl fun c hc => ?_
  obtain ⟨v, -, rfl⟩ := List.mem_map.mp hc
  exact Criterion.shaped_constant v

/-- Down to the largest signed integer and up to the largest unsigned one. -/
theorem largest_integers_on_wire :
    ∃ d, Criterion.ofJson (sumOfConstants [.uint 18446744073709551615,
        .int (-9223372036854775808), .uint 9223372036854775808]).toJson = .ok d ∧
      Sum.SameInteger 18446744073709551615
        (rightHandSide Sample.office (some (sumOfConstants [.uint 18446744073709551615,
          .int (-9223372036854775808), .uint 9223372036854775808])))
        (rightHandSide Sample.office (some d)) := by
  have hintegers : List.Forall₂ (fun v n => v.integer? = some n)
      [Value.uint 18446744073709551615, .int (-9223372036854775808), .uint 9223372036854775808]
      [18446744073709551615, -9223372036854775808, 9223372036854775808] :=
    .cons rfl (.cons rfl (.cons rfl .nil))
  obtain ⟨d, hd, -, hsum⟩ := integer_sum_on_wire Sample.office (shaped_sumOfConstants _)
    (sumOf_sumOfConstants _) hintegers
  exact ⟨d, hd, (hsum (List.cons_ne_nil _ _)).1.mpr (.inr (by decide))⟩

/-- An unsigned integer makes the sum an unsigned one, and is decoded as a signed one. -/
theorem unsigned_sum_lost_on_wire :
    ∃ d r, Criterion.ofJson (sumOfConstants [.uint 9223372036854775807, .int 1]).toJson = .ok d ∧
      rightHandSide Sample.office (some (sumOfConstants [.uint 9223372036854775807, .int 1])) =
        .ok r ∧ r = .uint 9223372036854775808 ∧
      Sum.Overflows (rightHandSide Sample.office (some d)) := by
  have hintegers : List.Forall₂ (fun v n => v.integer? = some n)
      [Value.uint 9223372036854775807, .int 1] [9223372036854775807, 1] :=
    .cons rfl (.cons rfl .nil)
  have hsurvival := (sumOf_sumOfConstants _).survival Sample.office (List.cons_ne_nil _ _) hintegers
  refine ⟨_, _, (shaped_sumOfConstants _).ofJson_toJson, rfl, by decide, ?_⟩
  exact hsurvival.overflows_of_widens (by decide)

end Operand

end Selection
