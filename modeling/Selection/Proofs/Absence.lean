import Selection.Proofs.Engine

/-! # Absent nested records

A test in memory is false when a nested record on its path is absent, whatever it asks. A query
engine knows no absent records: their columns are null, and a null can satisfy an inequality or the
test for null. So a formula has two readings, which differ in what becomes of such a comparison.
-/

namespace Selection

/-- The value at the end of a dotted path, null when a record on the way is absent. -/
def Record.outerValue (r : Record) (path : String) : Value :=
  (r.value? path).getD .null

/-- The elements of the collection at the end of a dotted path, none when a record on the way is
absent. -/
def Record.outerElements (r : Record) (path : String) : List Record :=
  (r.elements? path).getD []

/-- Where no nested record is absent, the row shows the value that the record has. -/
theorem Record.outerValue_eq {r : Record} {path : String} {v : Value}
    (h : r.value? path = some v) : r.outerValue path = v := by
  rw [outerValue, h, Option.getD_some]

/-- Where no nested record is absent, the rows show the elements that the record has. -/
theorem Record.outerElements_eq {r : Record} {path : String} {elements : List Record}
    (h : r.elements? path = some elements) : r.outerElements path = elements := by
  rw [outerElements, h, Option.getD_some]

namespace Formula

mutual

/-- The reading of a formula where `absent` decides the comparisons of fields in absent nested
records. -/
def holdsWith (absent : Comparison → Value → Bool) (like : String → String → Bool) (r : Record) :
    Formula → Bool
  | compare field op value _ =>
    match r.value? field.path with
    | some actual => op.evaluate actual value
    | none => absent op value
  | any path _ _ _ predicate =>
    (r.outerElements path).any fun e => predicate.holdsWith absent like e
  | and items => allHoldWith absent like r items
  | or items => someHoldsWith absent like r items
  | not item => !item.holdsWith absent like r
  | f => f.holds like r

def allHoldWith (absent : Comparison → Value → Bool) (like : String → String → Bool) (r : Record) :
    List Formula → Bool
  | [] => true
  | item :: rest => item.holdsWith absent like r && allHoldWith absent like r rest

def someHoldsWith (absent : Comparison → Value → Bool) (like : String → String → Bool)
    (r : Record) : List Formula → Bool
  | [] => false
  | item :: rest => item.holdsWith absent like r || someHoldsWith absent like r rest

end

mutual

/-- On a record, `absent` decides the comparisons of fields in absent nested records as comparisons
of nulls. -/
def DecidesNulls (absent : Comparison → Value → Bool) (r : Record) : Formula → Prop
  | compare field op value _ =>
    r.value? field.path = none → absent op value = op.evaluate .null value
  | any path _ link _ predicate =>
    link.isSome = true → ∀ e ∈ r.outerElements path, predicate.DecidesNulls absent e
  | and items | or items => AllDecideNulls absent r items
  | not item => item.DecidesNulls absent r
  | constant _ | text .. | pattern .. => True

def AllDecideNulls (absent : Comparison → Value → Bool) (r : Record) : List Formula → Prop
  | [] => True
  | item :: rest => item.DecidesNulls absent r ∧ AllDecideNulls absent r rest

end

/-- No comparison of a field in an absent nested record of the record would accept a null. -/
def RefusesNulls (r : Record) (f : Formula) : Prop :=
  f.DecidesNulls (fun _ _ => false) r

variable {absent : Comparison → Value → Bool} {like : String → String → Bool} {r : Record}

theorem allHoldWith_eq (items : List Formula) :
    allHoldWith absent like r items = items.all (·.holdsWith absent like r) := by
  induction items with
  | nil => rfl
  | cons item rest ih => rw [allHoldWith, ih, List.all_cons]

theorem someHoldsWith_eq (items : List Formula) :
    someHoldsWith absent like r items = items.any (·.holdsWith absent like r) := by
  induction items with
  | nil => rfl
  | cons item rest ih => rw [someHoldsWith, ih, List.any_cons]

@[simp] theorem holdsWith_and (items : List Formula) :
    (and items).holdsWith absent like r = items.all (·.holdsWith absent like r) :=
  allHoldWith_eq items

@[simp] theorem holdsWith_or (items : List Formula) :
    (or items).holdsWith absent like r = items.any (·.holdsWith absent like r) :=
  someHoldsWith_eq items

/-- Where absent nested records are decided as nulls, a comparison reads the value at the end of its
path, or null. -/
theorem holdsWith_compare {field : FieldRef} {op : Comparison} {value : Value} {lexical : Bool}
    (h : (compare field op value lexical).DecidesNulls absent r) :
    (compare field op value lexical).holdsWith absent like r =
      op.evaluate (r.outerValue field.path) value := by
  rw [holdsWith, Record.outerValue]
  cases hvalue : r.value? field.path with
  | some v => rfl
  | none => exact h hvalue

/-- A text test is false in an absent nested record, as it is of a null. -/
theorem holdsWith_text (field : FieldRef) (test : TextTest) (part : String) :
    (text field test (.string part)).holdsWith absent like r =
      (r.outerValue field.path).asString?.any (test.holds · part) := by
  rw [Record.outerValue]
  cases hvalue : r.value? field.path with
  | none => simp [holdsWith, holds, hvalue, Value.asString?]
  | some v => cases v <;> simp [holdsWith, holds, hvalue, Value.asString?]

/-- A pattern is false in an absent nested record, as it is of a null. -/
theorem holdsWith_pattern (field : FieldRef) (wanted : String) :
    (pattern field (.string wanted)).holdsWith absent like r =
      (r.outerValue field.path).asString?.any (like wanted) := by
  rw [Record.outerValue]
  cases hvalue : r.value? field.path with
  | none => simp [holdsWith, holds, hvalue, Value.asString?]
  | some v => cases v <;> simp [holdsWith, holds, hvalue, Value.asString?]

theorem allDecideNulls_iff {items : List Formula} :
    AllDecideNulls absent r items ↔ ∀ item ∈ items, item.DecidesNulls absent r := by
  induction items with
  | nil => simp [AllDecideNulls]
  | cons item rest ih => simp [AllDecideNulls, ih]

/-- The direct reading is the one where such comparisons are false. -/
theorem holdsWith_false (f : Formula) :
    f.holdsWith (fun _ _ => false) like r = f.holds like r := by
  induction f using Formula.induction generalizing r with
  | any path element link parameters predicate ih =>
      rw [holdsWith, holds, Record.outerElements]
      cases r.elements? path with
      | none => rfl
      | some elements => simp only [Option.getD_some, ih]
  | and items ih =>
      rw [holdsWith_and, holds_and]
      rw [Bool.eq_iff_iff, List.all_eq_true, List.all_eq_true]
      exact forall₂_congr fun item hitem => by rw [ih item hitem]
  | or items ih =>
      rw [holdsWith_or, holds_or]
      rw [Bool.eq_iff_iff, List.any_eq_true, List.any_eq_true]
      exact exists_congr fun item => and_congr_right fun hitem => by rw [ih item hitem]
  | not item ih => rw [holdsWith, ih, holds]
  | _ => rfl

/-- Deciding every comparison as that of a null does so in absent nested records. -/
theorem decidesNulls_null (f : Formula) :
    f.DecidesNulls (fun op value => op.evaluate .null value) r := by
  induction f using Formula.induction generalizing r with
  | compare field op value lexical => exact fun _ => rfl
  | any path element link parameters predicate ih => exact fun _ _ _ => ih
  | and items ih => exact allDecideNulls_iff.mpr fun item hitem => ih item hitem
  | or items ih => exact allDecideNulls_iff.mpr fun item hitem => ih item hitem
  | not item ih => exact ih
  | _ => trivial

end Formula

namespace Sql

variable {ρ : Type} {db : Engine ρ} {scopes : Scopes ρ} {r : Record}

mutual

/-- The rows in scope show the tests of a formula what a record holds, and nulls for what is in its
absent nested records. A value has an order with the constant that it is compared with unless one
of them is null. -/
def Engine.OuterShows (db : Engine ρ) (scopes : Scopes ρ) (r : Record) : Formula → Prop
  | .constant _ => True
  | .compare field _ value _ =>
    db.column scopes (columnOf field) = r.outerValue field.path ∧
      ((r.outerValue field.path).isNull = true ∨ value.isNull = true ∨
        ((r.outerValue field.path).compare? value).isSome)
  | .text field _ _ | .pattern field _ =>
    db.column scopes (columnOf field) = r.outerValue field.path
  | .any path _ link _ predicate =>
    ∀ keys, link = some keys →
      (∀ e ∈ r.outerElements path, ∃ row, db.Belongs scopes path keys row ∧
        db.OuterShows ((path, row) :: scopes) e predicate) ∧
      ∀ row, db.Belongs scopes path keys row →
        ∃ e ∈ r.outerElements path, db.OuterShows ((path, row) :: scopes) e predicate
  | .and items | .or items => db.OuterShowsAll scopes r items
  | .not item => db.OuterShows scopes r item

def Engine.OuterShowsAll (db : Engine ρ) (scopes : Scopes ρ) (r : Record) : List Formula → Prop
  | [] => True
  | item :: rest => db.OuterShows scopes r item ∧ db.OuterShowsAll scopes r rest

end

theorem Engine.outerShowsAll_iff {items : List Formula} :
    db.OuterShowsAll scopes r items ↔ ∀ item ∈ items, db.OuterShows scopes r item := by
  induction items with
  | nil => simp [OuterShowsAll]
  | cons item rest ih => simp [OuterShowsAll, ih]

/-- Rows that show what a record holds show nulls for nothing, and there is nothing for them to
accept. -/
theorem Engine.Shows.outer {f : Formula} (h : db.Shows scopes r f) :
    db.OuterShows scopes r f ∧ f.RefusesNulls r := by
  induction f using Formula.induction generalizing scopes r with
  | constant verdict => exact ⟨trivial, trivial⟩
  | compare field op value lexical =>
      obtain ⟨v, hvalue, hcolumn, hcomparable⟩ := h
      have houter := Record.outerValue_eq hvalue
      refine ⟨⟨houter ▸ hcolumn, houter ▸ hcomparable⟩, fun hnone => ?_⟩
      rw [hvalue] at hnone
      contradiction
  | text field test part =>
      obtain ⟨v, hvalue, hcolumn⟩ := h
      exact ⟨hcolumn.trans (Record.outerValue_eq hvalue).symm, trivial⟩
  | pattern field value =>
      obtain ⟨v, hvalue, hcolumn⟩ := h
      exact ⟨hcolumn.trans (Record.outerValue_eq hvalue).symm, trivial⟩
  | any path element link parameters predicate ih =>
      obtain ⟨elements, helements, hrows⟩ := h
      obtain rfl := Record.outerElements_eq helements
      -- Elements and rows show each other in both directions, and the hypothesis of the induction
      -- is used along each.
      refine ⟨fun keys hkeys => ⟨?_, ?_⟩, ?_⟩
      · intro e he
        obtain ⟨row, hbelongs, hshows⟩ := (hrows keys hkeys).1 e he
        exact ⟨row, hbelongs, (ih hshows).1⟩
      · intro row hbelongs
        obtain ⟨e, he, hshows⟩ := (hrows keys hkeys).2 row hbelongs
        exact ⟨e, he, (ih hshows).1⟩
      · intro hlink e he
        obtain ⟨keys, hkeys⟩ := Option.isSome_iff_exists.mp hlink
        obtain ⟨row, -, hshows⟩ := (hrows keys hkeys).1 e he
        exact (ih hshows).2
  | and items ih =>
      have hitems := showsAll_iff.mp h
      exact ⟨outerShowsAll_iff.mpr fun item hitem => (ih item hitem (hitems item hitem)).1,
        Formula.allDecideNulls_iff.mpr fun item hitem => (ih item hitem (hitems item hitem)).2⟩
  | or items ih =>
      have hitems := showsAll_iff.mp h
      exact ⟨outerShowsAll_iff.mpr fun item hitem => (ih item hitem (hitems item hitem)).1,
        Formula.allDecideNulls_iff.mpr fun item hitem => (ih item hitem (hitems item hitem)).2⟩
  | not item ih => exact ih h

end Sql

end Selection
