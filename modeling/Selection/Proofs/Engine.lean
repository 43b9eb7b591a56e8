import Selection.Proofs.Reading
import Selection.Sql.Lowering

/-! # Filters in three-valued logic

A query engine gives a filter a truth value that may be unknown: a test of a null column is unknown
unless it asks for the null, connectives are those of Kleene, and a sub-query is decided by its rows
that its clause surely accepts. Everything else is the engine's own: which rows a table has, what
they hold, which column a name means among the rows in scope, and how a value that is there
compares.

Which rows are the elements of a collection is a matter of the data: those whose foreign key is the
parent key of the row around them. That the condition on the keys of a sub-query selects these rows
is for the names in it to show.
-/

namespace Selection

/-- Somewhere in a formula about a row of some name, a quantifier ranges over a collection that has
the name of the row right around it. -/
inductive Formula.HasNamesake : Formula → String → Prop
  | here (path element : String) (link : Option Link) (parameters : List String)
      (predicate : Formula) : (any path element link parameters predicate).HasNamesake path
  | inside {name path element : String} {link : Option Link} {parameters : List String}
      {predicate : Formula} (h : predicate.HasNamesake path) :
      (any path element link parameters predicate).HasNamesake name
  | and {name : String} {item : Formula} {items : List Formula} (hitem : item ∈ items)
      (h : item.HasNamesake name) : (and items).HasNamesake name
  | or {name : String} {item : Formula} {items : List Formula} (hitem : item ∈ items)
      (h : item.HasNamesake name) : (or items).HasNamesake name
  | not {name : String} {item : Formula} (h : item.HasNamesake name) : (not item).HasNamesake name

namespace Formula

variable {name : String}

@[simp] theorem not_hasNamesake_constant (verdict : Bool) :
    ¬(constant verdict).HasNamesake name := by
  rintro ⟨⟩

@[simp] theorem not_hasNamesake_compare (field : FieldRef) (op : Comparison) (value : Value)
    (lexical : Bool) : ¬(compare field op value lexical).HasNamesake name := by
  rintro ⟨⟩

@[simp] theorem not_hasNamesake_text (field : FieldRef) (test : TextTest) (part : Value) :
    ¬(text field test part).HasNamesake name := by
  rintro ⟨⟩

@[simp] theorem not_hasNamesake_pattern (field : FieldRef) (value : Value) :
    ¬(pattern field value).HasNamesake name := by
  rintro ⟨⟩

/-- A quantifier has a namesake when its collection is named like the row around it, or its
predicate has one. -/
@[simp] theorem hasNamesake_any_iff {path element : String} {link : Option Link}
    {parameters : List String} {predicate : Formula} :
    (any path element link parameters predicate).HasNamesake name ↔
      path = name ∨ predicate.HasNamesake path := by
  constructor
  · rintro (_ | h)
    · exact .inl rfl
    · exact .inr h
  · rintro (rfl | h)
    · exact .here ..
    · exact .inside h

@[simp] theorem hasNamesake_and_iff {items : List Formula} :
    (and items).HasNamesake name ↔ ∃ item ∈ items, item.HasNamesake name := by
  constructor
  · rintro (_ | _ | ⟨hitem, h⟩)
    exact ⟨_, hitem, h⟩
  · rintro ⟨item, hitem, h⟩
    exact .and hitem h

@[simp] theorem hasNamesake_or_iff {items : List Formula} :
    (or items).HasNamesake name ↔ ∃ item ∈ items, item.HasNamesake name := by
  constructor
  · rintro (_ | _ | _ | ⟨hitem, h⟩)
    exact ⟨_, hitem, h⟩
  · rintro ⟨item, hitem, h⟩
    exact .or hitem h

@[simp] theorem hasNamesake_not_iff {item : Formula} :
    (not item).HasNamesake name ↔ item.HasNamesake name := by
  constructor
  · rintro (_ | _ | _ | _ | h)
    exact h
  · exact .not

end Formula

namespace Sql

/-- A truth value of three-valued logic. -/
inductive Truth where
  | no
  | unknown
  | yes
deriving DecidableEq

namespace Truth

def ofBool (b : Bool) : Truth :=
  if b then yes else no

def not : Truth → Truth
  | no => yes
  | unknown => unknown
  | yes => no

def and : Truth → Truth → Truth
  | no, _ | _, no => no
  | yes, yes => yes
  | _, _ => unknown

def or : Truth → Truth → Truth
  | yes, _ | _, yes => yes
  | no, no => no
  | _, _ => unknown

@[simp] theorem not_ofBool (b : Bool) : (ofBool b).not = ofBool !b := by
  cases b <;> rfl

theorem and_assoc (a b c : Truth) : (a.and b).and c = a.and (b.and c) := by
  cases a <;> cases b <;> cases c <;> rfl

theorem or_assoc (a b c : Truth) : (a.or b).or c = a.or (b.or c) := by
  cases a <;> cases b <;> cases c <;> rfl

@[simp] theorem yes_and (a : Truth) : yes.and a = a := by
  cases a <;> rfl

@[simp] theorem and_yes (a : Truth) : a.and yes = a := by
  cases a <;> rfl

@[simp] theorem no_or (a : Truth) : no.or a = a := by
  cases a <;> rfl

@[simp] theorem or_no (a : Truth) : a.or no = a := by
  cases a <;> rfl

end Truth

/-- The rows in scope under their names, the innermost first. -/
abbrev Scopes (ρ : Type) := List (String × ρ)

/-- What a query engine brings along. -/
structure Engine (ρ : Type) where
  /-- The rows of the table of a sub-query. -/
  rows : String → List ρ
  /-- The value that a row holds under the own name of a column. -/
  cell : ρ → String → Value
  /-- The value of a column as it is named among the rows in scope. -/
  column : Scopes ρ → String → Value
  /-- The truth of a comparison of a value that is not null with the text on the right. -/
  compares : Scopes ρ → Value → String → String → Truth
  /-- Whether a pattern is found in a value that is not null. -/
  finds : Value → String → Bool

variable {ρ : Type}

namespace Engine

def conditionTruth (db : Engine ρ) (scopes : Scopes ρ) (c : Condition) : Truth :=
  let v := db.column scopes c.columnRef
  if c.comparator = "IS" then .ofBool v.isNull
  else if c.comparator = "IS NOT" then .ofBool !v.isNull
  else if v.isNull then .unknown
  else db.compares scopes v c.comparator c.value

mutual

def truth (db : Engine ρ) (scopes : Scopes ρ) : Filter → Truth
  | .leaf c => db.conditionTruth scopes c
  | .patIndex column pattern =>
    let v := db.column scopes column
    if v.isNull then .unknown else .ofBool (db.finds v pattern)
  | .exists table filter =>
    -- Never unknown: a row whose clause is unknown does not count.
    .ofBool <| (db.rows table).any fun row => db.whereTruth ((table, row) :: scopes) filter == .yes
  | .never => .no
  | .not f => (db.truth scopes f).not
  | .and items => db.allTruth scopes items
  | .or items => db.someTruth scopes items

/-- The truth of an optional filter; every row is accepted without one. -/
def whereTruth (db : Engine ρ) (scopes : Scopes ρ) : Option Filter → Truth
  | none => .yes
  | some f => db.truth scopes f

def allTruth (db : Engine ρ) (scopes : Scopes ρ) : List Filter → Truth
  | [] => .yes
  | f :: rest => (db.truth scopes f).and (db.allTruth scopes rest)

def someTruth (db : Engine ρ) (scopes : Scopes ρ) : List Filter → Truth
  | [] => .no
  | f :: rest => (db.truth scopes f).or (db.someTruth scopes rest)

end

variable {db : Engine ρ} {scopes : Scopes ρ}

/-! ## Building filters -/

theorem allTruth_append (fs gs : List Filter) :
    db.allTruth scopes (fs ++ gs) = (db.allTruth scopes fs).and (db.allTruth scopes gs) := by
  induction fs with
  | nil => simp [allTruth]
  | cons f rest ih => rw [List.cons_append, allTruth, ih, allTruth, Truth.and_assoc]

theorem someTruth_append (fs gs : List Filter) :
    db.someTruth scopes (fs ++ gs) = (db.someTruth scopes fs).or (db.someTruth scopes gs) := by
  induction fs with
  | nil => simp [someTruth]
  | cons f rest ih => rw [List.cons_append, someTruth, ih, someTruth, Truth.or_assoc]

/-- A filter is as true as its conjuncts are in conjunction. -/
theorem allTruth_conjuncts (f : Filter) : db.allTruth scopes f.conjuncts = db.truth scopes f := by
  cases f <;> simp [Filter.conjuncts, allTruth, truth]

/-- A filter is as true as its disjuncts are in disjunction. -/
theorem someTruth_disjuncts (f : Filter) : db.someTruth scopes f.disjuncts = db.truth scopes f := by
  cases f <;> simp [Filter.disjuncts, someTruth, truth]

/-- Flattening a conjunction does not change its truth. -/
theorem truth_conj (fs : List Filter) : db.truth scopes (.conj fs) = db.allTruth scopes fs := by
  have hflat : db.allTruth scopes (fs.flatMap Filter.conjuncts) = db.allTruth scopes fs := by
    induction fs with
    | nil => rfl
    | cons f rest ih => rw [List.flatMap_cons, allTruth_append, allTruth_conjuncts, ih, allTruth]
  unfold Filter.conj
  split
  next f hone => rw [← hflat, hone, allTruth, allTruth, Truth.and_yes]
  next => exact hflat

/-- Flattening a disjunction does not change its truth. -/
theorem truth_disj (fs : List Filter) : db.truth scopes (.disj fs) = db.someTruth scopes fs := by
  have hflat : db.someTruth scopes (fs.flatMap Filter.disjuncts) = db.someTruth scopes fs := by
    induction fs with
    | nil => rfl
    | cons f rest ih => rw [List.flatMap_cons, someTruth_append, someTruth_disjuncts, ih, someTruth]
  unfold Filter.disj
  split
  next f hone => rw [← hflat, hone, someTruth, someTruth, Truth.or_no]
  next => exact hflat

/-- The negation of a filter has the negation of its truth. -/
theorem truth_neg (f : Filter) : db.truth scopes f.neg = (db.truth scopes f).not := by
  cases f with
  | not f =>
      rw [Filter.neg, truth]
      cases db.truth scopes f <;> rfl
  | _ => rfl

/-- Whether a filter is surely true. -/
def accepts (db : Engine ρ) (scopes : Scopes ρ) (f : Filter) : Bool :=
  db.truth scopes f == .yes

/-- A filter that is known to be true or false accepts accordingly. -/
theorem accepts_of_truth {f : Filter} {b : Bool} (h : db.truth scopes f = .ofBool b) :
    db.accepts scopes f = b := by
  rw [accepts, h]
  cases b <;> rfl

theorem accepts_conj (fs : List Filter) :
    db.accepts scopes (.conj fs) = fs.all (db.accepts scopes) := by
  rw [accepts, truth_conj]
  induction fs with
  | nil => rfl
  | cons f rest ih =>
      rw [allTruth, List.all_cons, ← ih, accepts]
      cases db.truth scopes f <;> cases db.allTruth scopes rest <;> rfl

theorem accepts_disj (fs : List Filter) :
    db.accepts scopes (.disj fs) = fs.any (db.accepts scopes) := by
  rw [accepts, truth_disj]
  induction fs with
  | nil => rfl
  | cons f rest ih =>
      rw [someTruth, List.any_cons, ← ih, accepts]
      cases db.truth scopes f <;> cases db.someTruth scopes rest <;> rfl

end Engine

/-! ## Tables that show records -/

variable {db : Engine ρ} {scopes : Scopes ρ}

/-- The column that holds a field. -/
def columnOf (field : FieldRef) : String :=
  (condition field "" "").columnRef

@[simp] theorem columnRef_condition (field : FieldRef) (comparator value : String) :
    (condition field comparator value).columnRef = columnOf field := by
  unfold columnOf condition
  split <;> rfl

@[simp] theorem comparator_condition (field : FieldRef) (comparator value : String) :
    (condition field comparator value).comparator = comparator := by
  unfold condition
  split <;> rfl

@[simp] theorem value_condition (field : FieldRef) (comparator value : String) :
    (condition field comparator value).value = value := by
  unfold condition
  split <;> rfl

/-! ## Keys -/

/-- The name of the innermost row. -/
def Scopes.name (scopes : Scopes ρ) : String :=
  (scopes.head?.map Prod.fst).getD ""

/-- The innermost row. -/
def Scopes.row? (scopes : Scopes ρ) : Option ρ :=
  scopes.head?.map Prod.snd

/-- The equality of two keys, unknown when one of them is null. -/
def sameKey (v w : Value) : Truth :=
  if v.isNull || w.isNull then .unknown else .ofBool (Comparison.eq.evaluate v w)

/-- Whether a row of a table belongs to the innermost row in scope: what it holds as foreign key
equals what that row holds as parent key. -/
def Engine.Belongs (db : Engine ρ) (scopes : Scopes ρ) (table : String) (keys : Link) (row : ρ) :
    Prop :=
  row ∈ db.rows table ∧ ∃ owner, scopes.row? = some owner ∧
    sameKey (db.cell row keys.foreignKey) (db.cell owner keys.parentKey) = .yes

/-- The engine finds the keys of a table and of a scope around it where their names point: before
the dot stands a name, and it means the innermost row that has it. -/
structure Engine.ReadsKeys (db : Engine ρ) (scopes : Scopes ρ) (table enclosing : String)
    (keys : Link) : Prop where
  foreign : ∀ row, scopes.lookup table = some row →
    db.column scopes (Condition.columnRef ⟨table, keys.foreignKey, "", ""⟩) =
      db.cell row keys.foreignKey
  parent : ∀ row, scopes.lookup enclosing = some row → ∀ v, v.isNull = false →
    db.compares scopes v "=" (enclosing ++ "." ++ keys.parentKey) =
      sameKey v (db.cell row keys.parentKey)

/-- A null is equal to no key, not even to another null. -/
theorem sameKey_of_isNull {v w : Value} (h : v.isNull = true) : sameKey v w = .unknown := by
  rw [sameKey, h, Bool.true_or, if_pos rfl]

/-- The condition on the keys of a sub-query compares the keys of the rows that its two names
mean. -/
theorem Engine.truth_correlation {table enclosing : String} {keys : Link} {row owner : ρ}
    (hkeys : db.ReadsKeys scopes table enclosing keys) (hrow : scopes.lookup table = some row)
    (howner : scopes.lookup enclosing = some owner) :
    db.truth scopes (correlation table keys enclosing) =
      sameKey (db.cell row keys.foreignKey) (db.cell owner keys.parentKey) := by
  have hcolumn : db.column scopes
      (Condition.columnRef ⟨table, keys.foreignKey, "=", enclosing ++ "." ++ keys.parentKey⟩) =
        db.cell row keys.foreignKey :=
    hkeys.foreign row hrow
  rw [correlation, truth, conditionTruth, hcolumn]
  cases hnull : (db.cell row keys.foreignKey).isNull with
  | true => simp [sameKey_of_isNull hnull]
  | false => simp [hkeys.parent owner howner _ hnull]

/-- In a table of another name than the row around it, the condition on the keys selects the rows
that belong to that row. -/
theorem Engine.accepts_correlation_iff {table name : String} {keys : Link} {row owner : ρ}
    (hname : table ≠ name) (hrow : row ∈ db.rows table)
    (hkeys : db.ReadsKeys ((table, row) :: (name, owner) :: scopes) table name keys) :
    db.accepts ((table, row) :: (name, owner) :: scopes) (correlation table keys name) = true ↔
      db.Belongs ((name, owner) :: scopes) table keys row := by
  have hrow' : List.lookup table ((table, row) :: (name, owner) :: scopes) = some row :=
    List.lookup_cons_self
  -- The name of the table hides no other, so the name on the right means the row around it.
  have howner : List.lookup name ((table, row) :: (name, owner) :: scopes) = some owner := by
    rw [List.lookup_cons, beq_false_of_ne hname.symm, List.lookup_cons_self]
  rw [accepts, truth_correlation hkeys hrow' howner, beq_iff_eq]
  constructor
  · exact fun hsame => ⟨hrow, owner, rfl, hsame⟩
  · rintro ⟨-, owner, ⟨⟩, hsame⟩
    exact hsame

/-- In a table of the same name as the row around it, the condition on the keys compares the row
with itself. -/
theorem Engine.truth_correlation_namesake {name : String} {keys : Link} {row : ρ}
    (hkeys : db.ReadsKeys ((name, row) :: scopes) name name keys) :
    db.truth ((name, row) :: scopes) (correlation name keys name) =
      sameKey (db.cell row keys.foreignKey) (db.cell row keys.parentKey) :=
  truth_correlation hkeys List.lookup_cons_self List.lookup_cons_self

/-! ## Records -/

mutual

/-- Among the rows in scope the engine decides the tests of a formula as they are decided in memory,
each on the value in its own column when that is there. For a quantifier it finds the keys of the
rows it goes through, and decides the predicate on those that belong to the innermost row. -/
def Engine.Decides (db : Engine ρ) (like : String → String → Bool) (scopes : Scopes ρ) :
    Formula → Prop
  | .constant _ => True
  | .compare field _ value _ =>
    let v := db.column scopes (columnOf field)
    v.isNull = false → value.isNull = false → (v.compare? value).isSome → ∀ op,
      db.compares scopes v (comparator op) (literal value) = .ofBool (op.evaluate v value)
  | .text field test value =>
    let v := db.column scopes (columnOf field)
    v.isNull = false → ∀ part, value = .string part →
      db.compares scopes v "LIKE" (Value.quote (likePattern test part)) =
        .ofBool (v.asString?.any (test.holds · part))
  | .pattern field value =>
    let v := db.column scopes (columnOf field)
    v.isNull = false → ∀ wanted, value = .string wanted →
      db.finds v (Value.quote wanted) = v.asString?.any (like wanted)
  | .any path _ link _ predicate =>
    ∀ keys, link = some keys → ∀ row ∈ db.rows path,
      db.ReadsKeys ((path, row) :: scopes) path scopes.name keys ∧
        (db.Belongs scopes path keys row → db.Decides like ((path, row) :: scopes) predicate)
  | .and items | .or items => db.DecidesAll like scopes items
  | .not item => db.Decides like scopes item

def Engine.DecidesAll (db : Engine ρ) (like : String → String → Bool) (scopes : Scopes ρ) :
    List Formula → Prop
  | [] => True
  | item :: rest => db.Decides like scopes item ∧ db.DecidesAll like scopes rest

end

mutual

/-- The rows in scope show the tests of a formula what a record holds: the values of its fields, and
for a quantifier the rows that belong to the innermost one, one or more for each element. Every
nested record that a path crosses is there, and a value has an order with the constant that it is
compared with unless one of them is null. -/
def Engine.Shows (db : Engine ρ) (scopes : Scopes ρ) (r : Record) : Formula → Prop
  | .constant _ => True
  | .compare field _ value _ =>
    ∃ v, r.value? field.path = some v ∧ db.column scopes (columnOf field) = v ∧
      (v.isNull = true ∨ value.isNull = true ∨ (v.compare? value).isSome)
  | .text field _ _ | .pattern field _ =>
    ∃ v, r.value? field.path = some v ∧ db.column scopes (columnOf field) = v
  | .any path _ link _ predicate =>
    ∃ elements, r.elements? path = some elements ∧ ∀ keys, link = some keys →
      (∀ e ∈ elements, ∃ row, db.Belongs scopes path keys row ∧
        db.Shows ((path, row) :: scopes) e predicate) ∧
      ∀ row, db.Belongs scopes path keys row →
        ∃ e ∈ elements, db.Shows ((path, row) :: scopes) e predicate
  | .and items | .or items => db.ShowsAll scopes r items
  | .not item => db.Shows scopes r item

def Engine.ShowsAll (db : Engine ρ) (scopes : Scopes ρ) (r : Record) : List Formula → Prop
  | [] => True
  | item :: rest => db.Shows scopes r item ∧ db.ShowsAll scopes r rest

end

theorem Engine.showsAll_iff {r : Record} {items : List Formula} :
    db.ShowsAll scopes r items ↔ ∀ item ∈ items, db.Shows scopes r item := by
  induction items with
  | nil => simp [ShowsAll]
  | cons item rest ih => simp [ShowsAll, ih]

theorem Engine.decidesAll_iff {like : String → String → Bool} {items : List Formula} :
    db.DecidesAll like scopes items ↔ ∀ item ∈ items, db.Decides like scopes item := by
  induction items with
  | nil => simp [DecidesAll]
  | cons item rest ih => simp [DecidesAll, ih]

end Sql

end Selection
