import Selection.Proofs.Decoding
import Selection.Proofs.Documents
import Selection.Proofs.JsonText

/-! # What decoding gives

A criterion that was decoded is settled: its attributes stand where they are used, and JSON keeps
its constants as they are, so that encoding and decoding it once more changes nothing. So is every
criterion that is built from constants of the types that JSON has.
-/

namespace Selection

/-! ## Valid JSON -/

namespace Json

/-- Every number in a value is one that a text can hold. -/
def Valid (j : Json) : Prop :=
  ∀ n, number n ∈ j.within → n.Valid

theorem Valid.item {items : List Json} (h : (array items).Valid) {item : Json}
    (hitem : item ∈ items) : item.Valid :=
  fun n hn => h n (mem_within_array.mpr (.inr ⟨item, hitem, hn⟩))

theorem Valid.member {members : List (String × Json)} (h : (object members).Valid)
    {m : String × Json} (hm : m ∈ members) : m.2.Valid :=
  fun n hn => h n (mem_within_object.mpr (.inr ⟨m, hm, hn⟩))

end Json

namespace Value

variable {v : Value}

/-- An integer of 64 bits that is not signed is a large unsigned one. -/
theorem exists_large_of_ofSigned?_eq_none {n : Int} (hn : (Json.Number.integer n).Valid)
    (h : ofSigned? n = none) : ∃ m, ofUnsigned? n = some m ∧ (uint m).Literal := by
  obtain ⟨hlow, hhigh⟩ := hn
  have hlarge : Int64.maxValue.toInt < n := by
    by_contra hle
    rw [ofSigned?, if_pos ⟨hlow, Int.not_lt.mp hle⟩] at h
    contradiction
  have hpositive : 0 ≤ n := le_trans (by decide) hlarge.le
  refine ⟨.ofNat n.toNat, if_pos ⟨hpositive, hhigh⟩, ?_⟩
  have htoNat : ((UInt64.ofNat n.toNat).toNat : Int) = n := by
    rw [UInt64.toNat_ofNat_of_lt' ((Int.toNat_lt hpositive).mpr hhigh),
      Int.toNat_of_nonneg hpositive]
  rwa [Literal, htoNat]

/-- The value of a valid JSON literal is one that JSON has a literal for. -/
theorem literal_of_ofJson? {j : Json} (hj : j.Valid) (h : ofJson? j = some v) : v.Literal := by
  cases j with
  | null | bool _ | string _ =>
      obtain rfl := Option.some.inj h
      trivial
  | array _ | object _ => contradiction
  | number n =>
      have hvalid := hj n List.mem_cons_self
      cases n with
      | float x =>
          obtain rfl := Option.some.inj h
          exact hvalid
      | integer n =>
          rw [ofJson?] at h
          cases hsigned : ofSigned? n with
          | some m =>
              rw [hsigned] at h
              obtain rfl := Option.some.inj h
              trivial
          | none =>
              obtain ⟨m, hunsigned, hliteral⟩ := exists_large_of_ofSigned?_eq_none hvalid hsigned
              rw [hsigned, hunsigned] at h
              obtain rfl := Option.some.inj h
              exact hliteral

/-- JSON gives a literal back as it is. -/
theorem Literal.carried_eq (h : v.Literal) : v.carried = v := by
  rw [carried, h.ofJson?_toJson, Option.getD_some]

end Value

namespace Criterion

/-! ## Settled criteria -/

/-- A criterion that encoding and decoding leaves as it is. -/
structure Settled (c : Criterion) : Prop where
  shaped : c.Shaped
  carried_eq : c.carried = c

variable {op : Operator} {field : Option String} {right inner : Option Criterion}
  {value : Option Value} {parts : List Criterion}

/-- A criterion is settled when its attributes stand where they are used, its value is a literal if
it is a constant, and the criteria in it are settled. -/
theorem settled_node (hvalue : if op.isConstant then ∃ v ∈ value, v.Literal else value = none)
    (hinner : inner.isSome = true → op.isQuantifier = true)
    (hparts : parts ≠ [] → (op.isAggregate || op.isSum) = true)
    (hrightSettled : ∀ c ∈ right, c.Settled) (hinnerSettled : ∀ c ∈ inner, c.Settled)
    (hpartsSettled : ∀ c ∈ parts, c.Settled) :
    (Criterion.node op field right value inner parts).Settled := by
  have hpresent {c? : Option Criterion} (h : ∀ c ∈ c?, c.Settled) : carriedPresent c? = c? := by
    cases c? with
    | none => rfl
    | some c => rw [carriedPresent, (h c rfl).carried_eq]
  have hall : carriedAll parts = parts := by
    rw [carriedAll_eq]
    exact List.map_congr_left (fun c hc => (hpartsSettled c hc).carried_eq) |>.trans (List.map_id _)
  have hconstant : (if op.isConstant then some (value.getD .null).carried else none) = value := by
    split at hvalue
    next hop =>
      obtain ⟨v, hv, hliteral⟩ := hvalue
      obtain rfl := Option.mem_def.mp hv
      rw [if_pos hop, Option.getD_some, hliteral.carried_eq]
    next hop => rw [if_neg hop, hvalue]
  constructor
  · refine .node (fun hsome => ?_) hinner hparts (fun c hc => (hrightSettled c hc).shaped)
      (fun c hc => (hinnerSettled c hc).shaped) fun c hc => (hpartsSettled c hc).shaped
    -- Only a constant has a value.
    by_contra hop
    rw [if_neg hop] at hvalue
    rw [hvalue] at hsome
    contradiction
  · rw [carried, hpresent hrightSettled, hpresent hinnerSettled, hall, hconstant]

theorem settled_constant {v : Value} (h : v.Literal) : (constant v).Settled :=
  settled_node ⟨v, rfl, h⟩ nofun (absurd rfl) nofun nofun nofun

end Criterion

/-! ## Decoding -/

namespace Document

/-- The literals in a slot are valid. -/
inductive Slot.Valid : Slot → Prop
  | literal {j : Json} (valid : j.Valid) : (Slot.literal j).Valid
  | document {d : Document} (constant : ∀ j ∈ d.constantValue, j.Valid)
      (legacy : ∀ j ∈ d.fieldValue, j.Valid) (right : ∀ s ∈ d.rightHandSide, s.Valid)
      (inner : ∀ s ∈ d.innerCriteria, s.Valid) (parts : ∀ s ∈ d.aggregateList, s.Valid) :
      (Slot.document d).Valid

theorem Slot.Valid.present {s : Slot} (h : s.Valid) : ∀ t ∈ s.present, t.Valid := by
  intro t ht
  unfold Slot.present at ht
  split at ht
  · contradiction
  · obtain rfl := Option.some.inj ht
    exact h

theorem valid_presentOf {j : Json} (h : j.Valid) : ∀ k ∈ presentOf j, k.Valid := by
  intro k hk
  cases j <;> first | contradiction | exact Option.some.inj hk ▸ h

mutual

/-- A valid JSON value is read as a slot whose literals are valid. -/
theorem Slot.valid_of_ofJson? : ∀ {j : Json} {s : Slot}, j.Valid → Slot.ofJson? j = some s → s.Valid
  | .object members, s, hj, hs => by
      obtain ⟨d, hd, rfl⟩ := Option.map_eq_some_iff.mp hs
      exact valid_of_ofMembers? (fun m hm => hj.member hm) hd
  | .array items, s, hj, hs => Option.some.inj hs ▸ .literal hj
  | .null, s, hj, hs => Option.some.inj hs ▸ .literal hj
  | .bool b, s, hj, hs => Option.some.inj hs ▸ .literal hj
  | .number n, s, hj, hs => Option.some.inj hs ▸ .literal hj
  | .string t, s, hj, hs => Option.some.inj hs ▸ .literal hj

theorem valid_of_slots? : ∀ {items : List Json} {slots : List Slot}, (∀ j ∈ items, j.Valid) →
    slots? items = some slots → ∀ s ∈ slots, s.Valid
  | [], slots, _, hslots => by
      obtain rfl := Option.some.inj hslots
      nofun
  | item :: items, slots, hitems, hslots => by
      rw [slots?] at hslots
      obtain ⟨s, hs, hslots⟩ := Option.bind_eq_some_iff.mp hslots
      obtain ⟨rest, hrest, hcons⟩ := Option.bind_eq_some_iff.mp hslots
      obtain rfl := Option.some.inj hcons
      exact List.forall_mem_cons.mpr
        ⟨Slot.valid_of_ofJson? (hitems item List.mem_cons_self) hs,
          valid_of_slots? (fun j hj => hitems j (List.mem_cons_of_mem _ hj)) hrest⟩

theorem valid_of_ofMembers? : ∀ {members : List (String × Json)} {d : Document},
    (∀ m ∈ members, m.2.Valid) → ofMembers? members = some d → (Slot.document d).Valid
  | [], d, _, hd => by
      obtain rfl := Option.some.inj hd
      exact .document nofun nofun nofun nofun nofun
  | (key, value) :: members, d, hmembers, hd => by
      have hvalue : value.Valid := hmembers _ List.mem_cons_self
      rw [ofMembers?] at hd
      obtain ⟨before, hbefore, hd⟩ := Option.bind_eq_some_iff.mp hd
      have hrest := valid_of_ofMembers? (fun m hm => hmembers m (List.mem_cons_of_mem _ hm)) hbefore
      cases hrest with
      | document hconstant hlegacy hright hinner hparts =>
          -- One case for each attribute, and one for any other key.
          split at hd
          · obtain ⟨op, -, hd⟩ := Option.bind_eq_some_iff.mp hd
            exact Option.some.inj hd ▸ .document hconstant hlegacy hright hinner hparts
          · obtain ⟨name, -, hd⟩ := Option.bind_eq_some_iff.mp hd
            exact Option.some.inj hd ▸ .document hconstant hlegacy hright hinner hparts
          · obtain ⟨s, hs, hd⟩ := Option.bind_eq_some_iff.mp hd
            have hs := (Slot.valid_of_ofJson? hvalue hs).present
            exact Option.some.inj hd ▸ .document hconstant hlegacy hs hinner hparts
          · rw [← Option.some.inj hd]
            exact .document (valid_presentOf hvalue) hlegacy hright hinner hparts
          · obtain ⟨s, hs, hd⟩ := Option.bind_eq_some_iff.mp hd
            have hs := (Slot.valid_of_ofJson? hvalue hs).present
            exact Option.some.inj hd ▸ .document hconstant hlegacy hright hs hparts
          · split at hd
            next items =>
              obtain ⟨slots, hslots, hd⟩ := Option.bind_eq_some_iff.mp hd
              have hslots := valid_of_slots? (fun j hj => hvalue.item hj) hslots
              exact Option.some.inj hd ▸ .document hconstant hlegacy hright hinner hslots
            next => contradiction
          · rw [← Option.some.inj hd]
            exact .document hconstant (valid_presentOf hvalue) hright hinner hparts
          · exact Option.some.inj hd ▸ .document hconstant hlegacy hright hinner hparts

end

theorem valid_of_ofJson? {j : Json} {d : Document} (hj : j.Valid) (h : ofJson? j = some d) :
    (Slot.document d).Valid := by
  cases j with
  | object members => exact valid_of_ofMembers? (fun m hm => hj.member hm) h
  | array items =>
      rw [ofJson?] at h
      split at h
      · refine valid_of_ofMembers? (fun m hm => hj.item ?_) h
        exact (List.of_mem_zip hm).2
      · contradiction
  | _ => contradiction

variable {d : Document} {op : Operator} {c : Criterion}

/-- A constant always gets a literal value, and no other operator gets a value. -/
theorem ValueOf.literal_or_none {value : Option Value} (h : d.ValueOf value)
    (hvalid : ∀ j ∈ d.constantValue, j.Valid) (hplace : value ≠ none ↔ d.operator = .constant) :
    if d.operator.isConstant then ∃ v ∈ value, v.Literal else value = none := by
  have hliteral : ∀ v ∈ value, v.Literal := by
    rintro v rfl
    cases h with
    | given hconstant hv => exact Value.literal_of_ofJson? (hvalid _ hconstant) hv
    | null => trivial
  split
  next hop =>
    obtain ⟨v, hv⟩ := Option.ne_none_iff_exists'.mp (hplace.mpr (Operator.isConstant_iff.mp hop))
    exact ⟨v, hv, hliteral v hv⟩
  next hop =>
    by_contra hne
    exact hop (Operator.isConstant_iff.mpr (hplace.mp hne))

/-- A criterion that is decoded from valid literals is settled. -/
theorem Slot.Valid.settled {s : Slot} (hs : s.Valid) : ∀ c, s.toCriterion = .ok c → c.Settled := by
  have hliteral {j : Json} (hj : j.Valid) :
      ∀ c, (Slot.literal j).toCriterion = .ok c → c.Settled := by
    intro c h
    obtain ⟨v, hv, rfl⟩ := toCriterion_literal_eq_ok_iff.mp h
    exact Criterion.settled_constant (Value.literal_of_ofJson? hj hv)
  induction hs with
  | literal valid => exact hliteral valid
  | @document d hconstant hlegacy _ _ _ ihright ihinner ihparts =>
      intro c h
      rw [toCriterion] at h
      obtain ⟨-, -, value, hvalue, right, hright, inner, hinner, parts, hparts, rfl⟩ :=
        toCriterion_eq_ok_iff.mp h
      obtain ⟨hlist, hquantifier, hplace⟩ := places_of_toCriterion h
      apply Criterion.settled_node
      · exact hvalue.literal_or_none hconstant hplace
      · rwa [Option.isSome_iff_ne_none, Operator.isQuantifier_iff]
      · rwa [Bool.or_eq_true, Operator.isSum_iff]
      · exact forall_mem_of_rel hright
          (forall_mem_rightSlot (fun j hj => hliteral (hlegacy j hj)) ihright)
      · exact forall_mem_of_rel hinner ihinner
      · exact forall_mem_of_forall₂ hparts ihparts

end Document

/-- Whatever is decoded from valid JSON is settled. -/
theorem Criterion.settled_of_ofJson {j : Json} {c : Criterion} (hj : j.Valid)
    (h : Criterion.ofJson j = .ok c) : c.Settled := by
  rw [Criterion.ofJson] at h
  split at h
  next d hd =>
    have hslot : (Document.Slot.document d).toCriterion = .ok c := by
      rwa [Document.Slot.toCriterion]
    exact (Document.valid_of_ofJson? hj hd).settled c hslot
  next => contradiction

end Selection
