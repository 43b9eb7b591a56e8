import Selection.Compile.Context
import Selection.Proofs.Numeral
import Selection.Proofs.Shape

/-! # Reading a context along a path

A context that was made of a JSON document is read as the document itself: a segment of a path goes
to the member of an object by its key, or to the item of an array by its position, told in decimal
without leading zeros. Nothing else has parts. The path gives the value of the literal that it ends
at, and fails with its first segment that goes nowhere, or with its last one when it ends at an
object or an array.
-/

namespace Selection

/-! ## Walking a document -/

namespace Json

/-- The position that a segment tells: in decimal, without leading zeros. -/
def position? (segment : String) : Option Nat :=
  if segment.toList.head? = some '0' ∧ segment ≠ "0" then none
  else Numeral.read? segment.toList

/-- The part of a document that a segment goes to. -/
def part? : Json → String → Option Json
  | object members, segment => members.lookup segment
  | array items, segment => do items[← position? segment]?
  | _, _ => none

/-- Segments lead from a document to a part inside. -/
inductive Leads : Json → List String → Json → Prop
  | here (j : Json) : Leads j [] j
  | part {j inner stop : Json} {segment : String} {rest : List String}
      (hpart : j.part? segment = some inner) (hrest : Leads inner rest stop) :
      Leads j (segment :: rest) stop

/-- A segment goes nowhere from where those before it lead. -/
def BreaksAt (j : Json) (segments : List String) (segment : String) : Prop :=
  ∃ front rest stop, segments = front ++ segment :: rest ∧ j.Leads front stop ∧
    stop.part? segment = none

/-- The last segment leads to an object or an array. -/
def StaysInside (j : Json) (segments : List String) (segment : String) : Prop :=
  ∃ stop, j.Leads segments stop ∧ ¬ stop.IsScalar ∧ segments.getLast? = some segment

/-- A position is told by its numeral. -/
theorem position?_text (n : Nat) : position? (Numeral.text n) = some n := by
  rw [position?, if_neg]
  · rw [Numeral.text, String.toList_ofList, Numeral.read?_digits]
  · rintro ⟨hzero, hmore⟩
    rw [Numeral.text, String.toList_ofList] at hzero
    by_cases hn : n = 0
    · subst hn
      exact hmore (congrArg String.ofList (Numeral.digits_of_lt (by decide)))
    · exact Numeral.head_digits_ne_zero hn hzero

/-- The segment of a position is its numeral. -/
theorem position?_eq_some_iff {segment : String} {n : Nat} :
    position? segment = some n ↔ segment = Numeral.text n := by
  constructor
  · intro h
    obtain ⟨hzero, hread⟩ := Option.ite_none_left_eq_some.mp h
    obtain ⟨hne, hdigits, rfl⟩ := Numeral.read?_eq_some_iff.mp hread
    rw [Numeral.text, Numeral.digits_value hne hdigits, String.ofList_toList]
    intro hhead
    rw [not_and_not_right.mp hzero hhead]
    rfl
  · rintro rfl
    exact position?_text n

/-- A scalar has no parts. -/
theorem part?_of_isScalar {j : Json} (h : j.IsScalar) (segment : String) :
    j.part? segment = none := by
  cases j with
  | array _ | object _ => contradiction
  | null | bool _ | number _ | string _ => rfl

/-- Segments lead to a part, or the first of them that goes nowhere is met. -/
theorem exists_leads_or_breaksAt (j : Json) (segments : List String) :
    (∃ stop, j.Leads segments stop) ∨ ∃ segment, j.BreaksAt segments segment := by
  induction segments generalizing j with
  | nil => exact .inl ⟨j, .here j⟩
  | cons segment rest ih =>
      cases hpart : j.part? segment with
      | none => exact .inr ⟨segment, [], rest, j, rfl, .here j, hpart⟩
      | some inner =>
          rcases ih inner with ⟨stop, hleads⟩ | ⟨later, front, back, stop, rfl, hleads, hnone⟩
          · exact .inl ⟨stop, .part hpart hleads⟩
          · exact .inr ⟨later, segment :: front, back, stop, rfl, .part hpart hleads, hnone⟩

end Json

/-! ## Walking its context -/

namespace Context

theorem lookup_ofMembers (members : List (String × Json)) (segment : String) :
    (ofMembers members).lookup segment = (members.lookup segment).map ofJson := by
  induction members with
  | nil => rfl
  | cons member rest ih =>
      obtain ⟨key, j⟩ := member
      rw [ofMembers, List.lookup_cons, List.lookup_cons, ih]
      cases segment == key <;> rfl

theorem lookup_ofItems_text (items : List Json) (start n : Nat) :
    (ofItems start items).lookup (Numeral.text (start + n)) = items[n]?.map ofJson := by
  induction items generalizing start n with
  | nil => rfl
  | cons j rest ih =>
      rw [ofItems, List.lookup_cons]
      cases n with
      | zero => simp
      | succ n =>
          have hne : (Numeral.text (start + (n + 1)) == Numeral.text start) = false := by
            apply beq_false_of_ne
            intro h
            have := Numeral.text_injective h
            omega
          rw [hne, List.getElem?_cons_succ, ← ih (start + 1) n, Nat.add_assoc, Nat.add_comm 1 n]

theorem lookup_ofItems_of_not_numeral {segment : String} (h : ∀ n, segment ≠ Numeral.text n)
    (items : List Json) (start : Nat) : (ofItems start items).lookup segment = none := by
  induction items generalizing start with
  | nil => rfl
  | cons j rest ih => rw [ofItems, List.lookup_cons, beq_false_of_ne (h start), ih]

/-- The entry of a name is the context of the item at the position that the name tells. -/
theorem lookup_ofItems (items : List Json) (segment : String) :
    (ofItems 0 items).lookup segment =
      (do items[← Json.position? segment]? : Option Json).map ofJson := by
  cases hposition : Json.position? segment with
  | some n =>
      have hlookup := lookup_ofItems_text items 0 n
      rw [Nat.zero_add, ← Json.position?_eq_some_iff.mp hposition] at hlookup
      exact hlookup
  | none =>
      apply lookup_ofItems_of_not_numeral
      intro n hn
      rw [hn, Json.position?_text] at hposition
      contradiction

/-- A part of the context is the context of the part. -/
theorem lookup?_ofJson (j : Json) (segment : String) :
    (ofJson j).lookup? segment = (j.part? segment).map ofJson := by
  cases j with
  | array items => exact lookup_ofItems items segment
  | object members => exact lookup_ofMembers members segment
  | _ => rfl

/-- The context of a literal is its value. -/
theorem ofJson_of_literal {j : Json} {v : Value} (h : Value.ofJson? j = some v) :
    ofJson j = .value v := by
  cases j with
  | array _ | object _ => contradiction
  | null | bool _ | number _ | string _ =>
      exact congrArg (fun found => value (found.getD .null)) h

variable {j : Json} {path last : String} {segments : List String}

theorem walk_part {part : Json} {segment : String} (h : j.part? segment = some part) :
    (ofJson j).walk path last (segment :: segments) =
      (ofJson part).walk path segment segments := by
  rw [walk, lookup?_ofJson, h]
  rfl

theorem walk_nowhere {segment : String} (h : j.part? segment = none) :
    (ofJson j).walk path last (segment :: segments) =
      .error (.contextLookupFailure path segment) := by
  rw [walk, lookup?_ofJson, h]
  rfl

theorem walk_literal {v : Value} (h : Value.ofJson? j = some v) :
    (ofJson j).walk path last [] = .ok v := by
  rw [ofJson_of_literal h]
  rfl

theorem walk_container (h : ¬ j.IsScalar) :
    (ofJson j).walk path last [] = .error (.contextLookupFailure path last) := by
  cases j with
  | array _ | object _ => rfl
  | null | bool _ | number _ | string _ => exact absurd trivial h

/-- Segments that lead to a literal give its value. -/
theorem walk_leads {leaf : Json} {v : Value} (hleads : j.Leads segments leaf)
    (hleaf : Value.ofJson? leaf = some v) : (ofJson j).walk path last segments = .ok v := by
  induction hleads generalizing last with
  | here j => exact walk_literal hleaf
  | part hpart _ ih =>
      rw [walk_part hpart]
      exact ih hleaf

/-- A segment that goes nowhere is the one that the walk fails with. -/
theorem walk_breaks {front rest : List String} {stop : Json} {segment : String}
    (hleads : j.Leads front stop) (hnone : stop.part? segment = none) :
    (ofJson j).walk path last (front ++ segment :: rest) =
      .error (.contextLookupFailure path segment) := by
  induction hleads generalizing last with
  | here j => exact walk_nowhere hnone
  | part hpart _ ih =>
      rw [List.cons_append, walk_part hpart]
      exact ih hnone

/-- A walk that ends at an object or an array fails with the last segment. -/
theorem walk_stays {stop : Json} (hleads : j.Leads segments stop) (hstop : ¬ stop.IsScalar) :
    (ofJson j).walk path last segments =
      .error (.contextLookupFailure path (segments.getLastD last)) := by
  induction hleads generalizing last with
  | here j => exact walk_container hstop
  | part hpart _ ih =>
      rw [walk_part hpart, List.getLastD_cons]
      exact ih hstop

/-- A path that leads to a literal gives its value. -/
theorem resolve_leads {leaf : Json} {v : Value} (hleads : j.Leads (Text.segments path) leaf)
    (hleaf : Value.ofJson? leaf = some v) : (ofJson j).resolve path = .ok v :=
  walk_leads hleads hleaf

/-- A path fails with its first segment that goes nowhere. -/
theorem resolve_breaks {segment : String} (h : j.BreaksAt (Text.segments path) segment) :
    (ofJson j).resolve path = .error (.contextLookupFailure path segment) := by
  obtain ⟨front, rest, stop, hsegments, hleads, hnone⟩ := h
  rw [resolve, hsegments]
  exact walk_breaks hleads hnone

/-- A path that ends at an object or an array fails with its last segment. -/
theorem resolve_stays {segment : String} (h : j.StaysInside (Text.segments path) segment) :
    (ofJson j).resolve path = .error (.contextLookupFailure path segment) := by
  obtain ⟨stop, hleads, hstop, hlast⟩ := h
  rw [resolve, walk_stays hleads hstop, List.getLastD_eq_getLast?, hlast]
  rfl

/-- A path gives a value, goes nowhere at a segment, or stays inside the document. -/
theorem exists_outcome (j : Json) (path : String) :
    (∃ leaf v, j.Leads (Text.segments path) leaf ∧ Value.ofJson? leaf = some v) ∨
      ∃ segment, j.BreaksAt (Text.segments path) segment ∨
        j.StaysInside (Text.segments path) segment := by
  rcases j.exists_leads_or_breaksAt (Text.segments path) with ⟨stop, hleads⟩ | ⟨segment, hbreaks⟩
  · by_cases hscalar : stop.IsScalar
    · obtain ⟨v, hv⟩ := Value.exists_ofJson?_iff.mpr hscalar
      exact .inl ⟨stop, v, hleads, hv⟩
    · have hlast := List.getLast?_eq_some_getLast (Text.segments_ne_nil path)
      exact .inr ⟨_, .inr ⟨stop, hleads, hscalar, hlast⟩⟩
  · exact .inr ⟨segment, .inl hbreaks⟩

theorem resolve_eq_ok_iff {v : Value} :
    (ofJson j).resolve path = .ok v ↔
      ∃ leaf, j.Leads (Text.segments path) leaf ∧ Value.ofJson? leaf = some v := by
  constructor
  · intro h
    rcases exists_outcome j path with ⟨leaf, w, hleads, hleaf⟩ | ⟨segment, hfails⟩
    · obtain rfl := Except.ok.inj ((resolve_leads hleads hleaf).symm.trans h)
      exact ⟨leaf, hleads, hleaf⟩
    · have herror := hfails.elim resolve_breaks resolve_stays
      rw [h] at herror
      contradiction
  · rintro ⟨leaf, hleads, hleaf⟩
    exact resolve_leads hleads hleaf

theorem resolve_eq_error_iff {e : CompileError} :
    (ofJson j).resolve path = .error e ↔
      ∃ segment, e = .contextLookupFailure path segment ∧
        (j.BreaksAt (Text.segments path) segment ∨ j.StaysInside (Text.segments path) segment) := by
  constructor
  · intro h
    rcases exists_outcome j path with ⟨leaf, w, hleads, hleaf⟩ | ⟨segment, hfails⟩
    · rw [resolve_leads hleads hleaf] at h
      contradiction
    · have herror := hfails.elim resolve_breaks resolve_stays
      exact ⟨segment, Except.error.inj (h.symm.trans herror), hfails⟩
  · rintro ⟨segment, rfl, hfails⟩
    exact hfails.elim resolve_breaks resolve_stays

/-- The context of a document gives the value of the literal that a path ends at. It fails with the
first segment that goes nowhere, and with the last one when the path ends at an object or an array.
Behind a literal no segment goes anywhere. -/
theorem resolve_reads_document (j : Json) (path : String) :
    (∀ v, (ofJson j).resolve path = .ok v ↔
      ∃ leaf, j.Leads (Text.segments path) leaf ∧ Value.ofJson? leaf = some v) ∧
    (∀ e, (ofJson j).resolve path = .error e ↔
      ∃ segment, e = .contextLookupFailure path segment ∧
        (j.BreaksAt (Text.segments path) segment ∨ j.StaysInside (Text.segments path) segment)) ∧
    ∀ front segment rest stop, Text.segments path = front ++ segment :: rest →
      j.Leads front stop → stop.IsScalar →
        (ofJson j).resolve path = .error (.contextLookupFailure path segment) := by
  refine ⟨fun v => resolve_eq_ok_iff, fun e => resolve_eq_error_iff, ?_⟩
  intro front segment rest stop hsegments hleads hscalar
  exact resolve_breaks ⟨front, rest, stop, hsegments, hleads, Json.part?_of_isScalar hscalar _⟩

/-- A document with two limits and no zone. -/
def tenant : Json :=
  .object [("limits", .array [.ofInt 10, .ofInt 20]), ("zone", .null)]

/-- The second limit is at position one, which is not told with a zero in front, and nothing is
behind the zone. -/
theorem tenant_read_by_position :
    (ofJson tenant).resolve "limits.1" = .ok (.int 20) ∧
      (ofJson tenant).resolve "limits.01" = .error (.contextLookupFailure "limits.01" "01") ∧
      tenant.Leads ["zone"] .null ∧ Json.IsScalar .null ∧
      (ofJson tenant).resolve "zone.x" = .error (.contextLookupFailure "zone.x" "x") := by
  have hlimits : tenant.Leads ["limits"] (.array [.ofInt 10, .ofInt 20]) := .part rfl (.here _)
  have hzone : tenant.Leads ["zone"] .null := .part rfl (.here _)
  refine ⟨?_, ?_, hzone, trivial, ?_⟩
  · exact ((resolve_reads_document tenant "limits.1").1 _).mpr
      ⟨.ofInt 20, .part rfl (.part rfl (.here _)), rfl⟩
  · exact ((resolve_reads_document tenant "limits.01").2.1 _).mpr
      ⟨"01", rfl, .inl ⟨["limits"], [], _, rfl, hlimits, rfl⟩⟩
  · exact (resolve_reads_document tenant "zone.x").2.2 ["zone"] "x" [] _ rfl hzone trivial

end Context

end Selection
