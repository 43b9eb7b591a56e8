import Mathlib.Tactic.Common
import Selection.Record

/-! # Walking a record along a path

A dotted path is walked name by name: all names but the last lead through nested records, and the
last one names a field of the record that the walk ends at. The walk gets stuck exactly when a
nested record on the way is absent. Reading a path is reading that field.
-/

namespace Selection.Record

/-- Names lead from a record through nested records, all of them present, to the record that holds
the field of the last name. -/
inductive Leads : Record → List String → Record → String → Prop
  | here (r : Record) (name : String) : Leads r [name] r name
  | through {r inner holder : Record} {name last : String} {rest : List String}
      (hnested : r.nested? name = some inner) (hrest : Leads inner rest holder last) :
      Leads r (name :: rest) holder last

theorem Leads.getLast?_eq {r holder : Record} {names : List String} {last : String}
    (h : r.Leads names holder last) : names.getLast? = some last := by
  induction h with
  | here => rfl
  | through _ _ ih => rw [List.getLast?_cons, ih]; rfl

/-- A dotted path leads from a record to a field of the record that holds it. -/
def EndsAt (r : Record) (path : String) (holder : Record) (name : String) : Prop :=
  r.Leads (Text.segments path) holder name

/-- What is read along some names is read where they lead. -/
theorem through?_eq_some_iff {α : Type} {read : Record → String → α} {r : Record}
    {names : List String} {x : α} :
    r.through? read names = some x ↔ ∃ holder last, r.Leads names holder last ∧
      read holder last = x := by
  -- The cases are those of the walk: no name, the last name, and a name with more behind it.
  fun_induction through? read r names with
  | case1 =>
      constructor
      · intro h
        contradiction
      · rintro ⟨holder, last, hleads, -⟩
        cases hleads
  | case2 r name =>
      constructor
      · intro h
        exact ⟨r, name, .here r name, Option.some.inj h⟩
      · rintro ⟨holder, last, hleads, rfl⟩
        cases hleads with
        | here => rfl
        | through _ hrest => cases hrest
  | case3 r name rest hne ih =>
      rw [Option.bind_eq_some_iff]
      constructor
      · rintro ⟨inner, hnested, hread⟩
        obtain ⟨holder, last, hleads, hx⟩ := ih inner |>.mp hread
        exact ⟨holder, last, .through hnested hleads, hx⟩
      · rintro ⟨holder, last, hleads, hx⟩
        cases hleads with
        | here => exact absurd rfl hne
        | through hnested hrest => exact ⟨_, hnested, ih _ |>.mpr ⟨holder, last, hrest, hx⟩⟩

/-- A walk is stuck at a name of a record that some names at the front lead to: more names are to
come, and the nested record of this one is absent. -/
def StuckOn (r : Record) (names : List String) : Prop :=
  ∃ front rest holder name, names = front ++ rest ∧ rest ≠ [] ∧ r.Leads front holder name ∧
    holder.nested? name = none

/-- Reading through more names goes through the nested record of the first one. -/
theorem through?_cons {α : Type} {read : Record → String → α} {r : Record} {name : String}
    {names : List String} (hnames : names ≠ []) :
    r.through? read (name :: names) = (r.nested? name).bind (through? read · names) := by
  cases names with
  | nil => contradiction
  | cons => rfl

theorem StuckOn.through {r inner : Record} {name : String} {names : List String}
    (hnested : r.nested? name = some inner) (h : inner.StuckOn names) :
    r.StuckOn (name :: names) := by
  obtain ⟨front, rest, holder, last, rfl, hrest, hleads, habsent⟩ := h
  exact ⟨name :: front, rest, holder, last, rfl, hrest, .through hnested hleads, habsent⟩

theorem Leads.through?_eq_none {α : Type} {read : Record → String → α} {r holder : Record}
    {front rest : List String} {name : String} (h : r.Leads front holder name) (hrest : rest ≠ [])
    (habsent : holder.nested? name = none) : r.through? read (front ++ rest) = none := by
  induction h with
  | here r name =>
      rw [List.singleton_append, through?_cons hrest, habsent]
      rfl
  | through hnested _ ih =>
      rw [List.cons_append, through?_cons (List.append_ne_nil_of_right_ne_nil _ hrest), hnested]
      exact ih habsent

/-- Nothing is read just when a nested record on the way is absent. -/
theorem through?_eq_none_iff {α : Type} {read : Record → String → α} {r : Record}
    {names : List String} (hnames : names ≠ []) :
    r.through? read names = none ↔ r.StuckOn names := by
  constructor
  · intro h
    fun_induction through? read r names with
    | case1 => contradiction
    | case2 => contradiction
    | case3 r name rest hne ih =>
        cases hnested : r.nested? name with
        | none => exact ⟨[name], rest, r, name, rfl, hne, .here r name, hnested⟩
        | some inner =>
            rw [hnested] at h
            exact (ih inner hne h).through hnested
  · rintro ⟨front, rest, holder, name, rfl, hrest, hleads, habsent⟩
    exact hleads.through?_eq_none hrest habsent

/-- A nested record on a dotted path is absent. -/
def LacksRecordOn (r : Record) (path : String) : Prop :=
  r.StuckOn (Text.segments path)

/-- The value of a path is read where the path ends. -/
theorem value?_eq_some_iff {r : Record} {path : String} {v : Value} :
    r.value? path = some v ↔ ∃ holder name, r.EndsAt path holder name ∧ holder.value name = v :=
  through?_eq_some_iff

/-- The elements of a path are read where the path ends. -/
theorem elements?_eq_some_iff {r : Record} {path : String} {elements : List Record} :
    r.elements? path = some elements ↔
      ∃ holder name, r.EndsAt path holder name ∧ holder.collection name = elements :=
  through?_eq_some_iff

/-- A path has no value just when a nested record on it is absent. -/
theorem value?_eq_none_iff {r : Record} {path : String} :
    r.value? path = none ↔ r.LacksRecordOn path :=
  through?_eq_none_iff (Text.segments_ne_nil path)

/-- A path has no elements just when a nested record on it is absent. -/
theorem elements?_eq_none_iff {r : Record} {path : String} :
    r.elements? path = none ↔ r.LacksRecordOn path :=
  through?_eq_none_iff (Text.segments_ne_nil path)

end Selection.Record
