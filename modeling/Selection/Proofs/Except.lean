import Mathlib.Data.List.Forall2
import Mathlib.Tactic.Common

/-! # Outcomes of steps in a row

A computation that may fail is taken apart by what its steps give: it succeeds exactly when its
first step succeeds and the rest succeeds with that outcome.
-/

namespace Selection

variable {ε α β : Type}

/-- The computation succeeds when its first step does and the rest does with what it gave. -/
theorem bind_eq_ok_iff {x : Except ε α} {f : α → Except ε β} {b : β} :
    x >>= f = .ok b ↔ ∃ a, x = .ok a ∧ f a = .ok b := by
  cases x with
  | error e =>
      constructor
      · intro h
        contradiction
      · rintro ⟨a, h, -⟩
        contradiction
  | ok a =>
      constructor
      · exact fun h => ⟨a, rfl, h⟩
      · rintro ⟨a', h, hf⟩
        rw [Except.ok.inj h]
        exact hf

theorem map_eq_ok_iff {x : Except ε α} {f : α → β} {b : β} :
    x.map f = .ok b ↔ ∃ a, x = .ok a ∧ b = f a := by
  cases x with
  | error e => exact iff_of_false nofun nofun
  | ok a =>
      constructor
      · exact fun h => ⟨a, rfl, (Except.ok.inj h).symm⟩
      · rintro ⟨a', h, rfl⟩
        rw [Except.ok.inj h]
        rfl

theorem mapError_eq_ok_iff {ε' : Type} {x : Except ε α} {f : ε → ε'} {a : α} :
    x.mapError f = .ok a ↔ x = .ok a := by
  cases x <;> simp [Except.mapError]

theorem pure_eq_ok_iff {a b : α} : (pure a : Except ε α) = .ok b ↔ a = b :=
  ⟨Except.ok.inj, congrArg Except.ok⟩

/-- The computation fails when its first step does, or else the rest does with what it gave. -/
theorem bind_eq_error_iff {x : Except ε α} {f : α → Except ε β} {e : ε} :
    x >>= f = .error e ↔ x = .error e ∨ ∃ a, x = .ok a ∧ f a = .error e := by
  cases x with
  | error e' =>
      constructor
      · intro h
        exact .inl (congrArg Except.error (Except.error.inj h))
      · rintro (h | ⟨a, h, -⟩)
        · exact congrArg Except.error (Except.error.inj h)
        · contradiction
  | ok a =>
      constructor
      · exact fun h => .inr ⟨a, rfl, h⟩
      · rintro (h | ⟨a', h, hf⟩)
        · contradiction
        · rw [Except.ok.inj h]
          exact hf

/-! ## Outcomes on each of some items -/

section Outcomes

variable {r r' : α → β → Prop} {a? : Option α} {b? : Option β} {as : List α} {bs : List β}

/-- Every outcome on some items is that of one of the items. -/
theorem exists_of_mem_outcomes (h : List.Forall₂ r as bs) {b : β} (hb : b ∈ bs) :
    ∃ a ∈ as, r a b := by
  induction h with
  | nil => exact absurd hb List.not_mem_nil
  | cons hhead _ ih =>
      rcases List.mem_cons.mp hb with rfl | hmem
      · exact ⟨_, List.mem_cons_self, hhead⟩
      · obtain ⟨a, ha, hr⟩ := ih hmem
        exact ⟨a, List.mem_cons_of_mem _ ha, hr⟩

/-- All of some items have outcomes exactly when each of them has one. -/
theorem exists_forall₂_iff : (∃ bs, List.Forall₂ r as bs) ↔ ∀ a ∈ as, ∃ b, r a b := by
  induction as with
  | nil => exact iff_of_true ⟨[], .nil⟩ nofun
  | cons a as ih =>
      rw [List.forall_mem_cons, ← ih]
      constructor
      · rintro ⟨bs, h⟩
        cases h with
        | cons hr hrest => exact ⟨⟨_, hr⟩, _, hrest⟩
      · rintro ⟨⟨b, hr⟩, bs, hrest⟩
        exact ⟨b :: bs, .cons hr hrest⟩

/-- Something that may be missing has an outcome when it has one where it is there. -/
theorem exists_rel_iff : (∃ b?, Option.Rel r a? b?) ↔ ∀ a ∈ a?, ∃ b, r a b := by
  constructor
  · rintro ⟨b?, h⟩ a ha
    cases h with
    | none => contradiction
    | some hr => exact Option.some.inj ha ▸ ⟨_, hr⟩
  · intro h
    cases a? with
    | none => exact ⟨none, .none⟩
    | some a =>
        obtain ⟨b, hr⟩ := h a rfl
        exact ⟨some b, .some hr⟩

/-- Outcomes of items are outcomes in a weaker sense, too. -/
theorem forall₂_of_forall_mem (h : List.Forall₂ r as bs)
    (himp : ∀ a ∈ as, ∀ b, r a b → r' a b) : List.Forall₂ r' as bs :=
  ((List.forall₂_and_left as bs).mpr ⟨himp, h⟩).imp fun _ _ h => h.1 _ h.2

theorem rel_of_forall_mem (h : Option.Rel r a? b?) (himp : ∀ a ∈ a?, ∀ b, r a b → r' a b) :
    Option.Rel r' a? b? := by
  cases h with
  | none => exact .none
  | some hr => exact .some (himp _ rfl _ hr)

/-- What every outcome on some items has by being an outcome, all of them have. -/
theorem forall_mem_of_forall₂ {p : β → Prop} (h : List.Forall₂ r as bs)
    (hp : ∀ a ∈ as, ∀ b, r a b → p b) : ∀ b ∈ bs, p b := by
  intro b hb
  obtain ⟨a, ha, hr⟩ := exists_of_mem_outcomes h hb
  exact hp a ha b hr

theorem forall_mem_of_rel {p : β → Prop} (h : Option.Rel r a? b?)
    (hp : ∀ a ∈ a?, ∀ b, r a b → p b) : ∀ b ∈ b?, p b := by
  intro b hb
  cases h with
  | none => contradiction
  | some hr => exact Option.some.inj hb ▸ hp _ rfl _ hr

end Outcomes

/-! ## Failures -/

/-- The error of a computation that fails. -/
def failure? : Except ε α → Option ε
  | .ok _ => none
  | .error e => some e

@[simp] theorem failure?_ok (a : α) : failure? (.ok a : Except ε α) = none :=
  rfl

@[simp] theorem failure?_error (e : ε) : failure? (.error e : Except ε α) = some e :=
  rfl

theorem failure?_eq_some_iff {x : Except ε α} {e : ε} : failure? x = some e ↔ x = .error e := by
  cases x <;> simp

/-- A computation that does not fail succeeds. -/
theorem failure?_eq_none_iff {x : Except ε α} : failure? x = none ↔ ∃ a, x = .ok a := by
  cases x <;> simp

/-- A computation fails like its first step when the rest never fails after it. -/
theorem failure?_bind_eq {x : Except ε α} {f : α → Except ε β}
    (h : ∀ a, x = .ok a → ∃ b, f a = .ok b) : failure? (x >>= f) = failure? x := by
  cases x with
  | error e => rfl
  | ok a => exact failure?_eq_none_iff.mpr (h a rfl)

end Selection
