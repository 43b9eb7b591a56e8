import Selection.Compile.Operand
import Selection.Proofs.Except
import Selection.Proofs.Wire
import Selection.Sample.Customers

/-! # Constants survive the wire

A constant that is carried in JSON may come back as a value of another type: a text for what JSON
lacks, a signed integer for a small unsigned one. Against a field of the type that it had it is
converted back, so the field is compared with the same value, a decimal with the same number.
-/

namespace Selection

open Value (Agrees)

variable {v w : Value} {s : String}

namespace Sigil

theorem parse?_eq_none (h : '\x7b' ∉ s.toList) : parse? s = none := by
  unfold parse?
  split
  next rest hs => exact absurd (hs ▸ List.mem_cons_self) h
  next => rfl

/-- The text of a value is no sigil. -/
theorem resolve_wireText (env : Environment) (h : v.wireText? = some s) :
    resolve env (.string s) = .ok (.string s) := by
  have hbrace : '\x7b' ∉ s.toList :=
    (Value.among_wireText h).not_mem (by decide) (by decide)
  simp only [resolve, parse?_eq_none hbrace]

end Sigil

namespace Operand

/-- A value of the type of the field is left as it is. -/
theorem coerce_dataType (field : String) (v : Value) : coerce field v.dataType v = .ok v := by
  rw [coerce, BEq.rfl, Bool.or_true, if_pos rfl]

/-- A value of another type is coerced to what it converts to. -/
theorem coerce_of_convert? (field : String) {type : DataType} (hnull : v.isNull = false)
    (htype : v.dataType ≠ type) (h : v.convert? type = some w) : coerce field type v = .ok w := by
  rw [coerce, hnull, Bool.false_or, if_neg (by simpa using htype), h]

/-- The value a test compares with is coerced once its sigil is resolved. -/
theorem comparand_test (env : Environment) (op : Operator) (name field : String) (type : DataType)
    (v : Value) :
    comparand env (.test op name (.constant v)) field type =
      (do coerce field type (← Sigil.resolve env v)) :=
  rfl

/-- What carries a value of the type of the field is coerced to a value that agrees with it. -/
theorem coerce_carried (field : String) (hportable : v.Portable) {u : Value}
    (h : v.CarriedAs u) : ∃ w, coerce field v.dataType u = .ok w ∧ w.Agrees v := by
  cases h with
  | literal => exact ⟨v, coerce_dataType field v, .refl v⟩
  | @signed n m hm =>
      have hconvert : (Value.int m).convert? .intUnsigned = some (.uint n) := by
        have hunsigned : (Value.int m).toUnsigned? = Value.ofUnsigned? m.toInt := rfl
        rw [Value.convert?, hunsigned, hm, Value.ofUnsigned?_toNat, Option.map_some]
      have htype : DataType.int ≠ .intUnsigned := by decide
      exact ⟨.uint n, coerce_of_convert? field rfl htype hconvert, .refl _⟩
  | text htext =>
      obtain ⟨w, hconvert, hagrees⟩ := Value.convert?_wireText hportable htext
      have htype := Value.dataType_ne_string_of_wireText? htext
      exact ⟨w, coerce_of_convert? field rfl htype.symm hconvert, hagrees⟩

/-- What carries a value is the value itself, or neither of the two is a sigil. -/
theorem resolve_carried (env : Environment) {u : Value} (h : v.CarriedAs u) :
    u = v ∨ Sigil.resolve env v = .ok v ∧ Sigil.resolve env u = .ok u := by
  cases h with
  | literal => exact .inl rfl
  | signed => exact .inr ⟨rfl, rfl⟩
  | text htext =>
      refine .inr ⟨?_, Sigil.resolve_wireText env htext⟩
      cases v <;> first | contradiction | rfl

end Operand

end Selection
