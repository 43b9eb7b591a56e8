import Selection.Proofs.Engine
import Selection.Sample.Customers

/-! # Engines of records

An engine whose rows are records reads the text of a condition: a name before a dot means the
innermost row that has it, and what stands on the right is a text in quotes, a number or a column.
Two such engines serve as samples: the orders of the shop, and a table of kids of which one is the
kid of another.
-/

namespace Selection.Sample

/-- The value of a column: of the innermost row that has the name before the dot, and of the
innermost row where there is no dot. -/
def columnValue (scopes : Sql.Scopes Record) (column : String) : Value :=
  match Text.cutAtLast '.' column.toList with
  | some (table, column) =>
    ((scopes.lookup (String.ofList table)).map (·.value (String.ofList column))).getD .null
  | none => (scopes.head?.map (·.2.value column)).getD .null

/-- The value on the right of a comparison: a text in quotes, a number, or a column. -/
def rightValue (scopes : Sql.Scopes Record) (text : String) : Value :=
  match text.toList with
  | '\'' :: rest => .string (String.ofList rest.dropLast)
  | cs => ((Decimal.read? cs).map .decimal).getD (columnValue scopes text)

/-- The comparison of a comparator. -/
def comparison? (comparator : String) : Option Comparison :=
  [Comparison.eq, .ne, .lt, .le, .gt, .ge].find? (Sql.comparator · == comparator)

theorem comparison?_comparator (op : Comparison) : comparison? (Sql.comparator op) = some op := by
  cases op <;> decide

/-- An engine whose rows are records, which compares columns with columns, texts and numbers. -/
def recordEngine (tables : String → List Record) : Sql.Engine Record where
  rows := tables
  cell := Record.value
  column := columnValue
  compares scopes v comparator text :=
    let right := rightValue scopes text
    if right.isNull then .unknown
    else .ofBool ((comparison? comparator).any (·.evaluate v right))
  finds _ _ := false

section

variable {tables : String → List Record} {scopes : Sql.Scopes Record}

theorem recordEngine_column : (recordEngine tables).column = columnValue :=
  rfl

/-- A value that is there is compared with a text as with the value that the text is read as. -/
theorem recordEngine_compares {v : Value} {text : String}
    (hright : (rightValue scopes text).isNull = false) (op : Comparison) :
    (recordEngine tables).compares scopes v (Sql.comparator op) text =
      .ofBool (op.evaluate v (rightValue scopes text)) := by
  simp [recordEngine, hright, comparison?_comparator]

/-- A comparison tells no difference between values that have the same order. -/
theorem evaluate_eq_of_compare? {v w w' : Value} (hnull : w.isNull = w'.isNull)
    (horder : v.compare? w = v.compare? w') (op : Comparison) :
    op.evaluate v w = op.evaluate v w' := by
  rw [Comparison.evaluate, Comparison.evaluate, hnull, horder]

/-- A comparison is decided when its literal is read as something that has the same order with the
value of the column as the constant. -/
theorem recordEngine_decides_compare {like : String → String → Bool} {field : FieldRef}
    {op : Comparison} {value : Value} {lexical : Bool}
    (hright : (rightValue scopes (Sql.literal value)).isNull = false)
    (horder : (columnValue scopes (Sql.columnOf field)).compare?
      (rightValue scopes (Sql.literal value)) =
        (columnValue scopes (Sql.columnOf field)).compare? value) :
    (recordEngine tables).Decides like scopes (.compare field op value lexical) := by
  intro hcolumn hvalue _ op
  rw [recordEngine_compares hright, recordEngine_column]
  exact congrArg _ (evaluate_eq_of_compare? (hright.trans hvalue.symm) horder op)

/-- Keys are found where their names point, as long as the name of a column is read as one. -/
theorem recordEngine_readsKeys {table enclosing : String} {keys : Link}
    (hforeign :
      Text.cutAtLast '.' (Sql.Condition.columnRef ⟨table, keys.foreignKey, "", ""⟩).toList =
        some (table.toList, keys.foreignKey.toList))
    (hparent : Text.cutAtLast '.' (enclosing ++ "." ++ keys.parentKey).toList =
      some (enclosing.toList, keys.parentKey.toList))
    (hquote : (enclosing ++ "." ++ keys.parentKey).toList.head? ≠ some '\'')
    (hnumeral : Decimal.read? (enclosing ++ "." ++ keys.parentKey).toList = none) :
    (recordEngine tables).ReadsKeys scopes table enclosing keys := by
  constructor
  · intro row hrow
    simp [recordEngine, columnValue, hforeign, hrow]
  · intro row hrow v hv
    have hright : rightValue scopes (enclosing ++ "." ++ keys.parentKey) =
        row.value keys.parentKey := by
      -- The right side is read as a column, since it starts with no quote and is no numeral.
      unfold rightValue
      split
      next rest htext =>
        rw [htext] at hquote
        exact absurd rfl hquote
      next =>
        rw [hnumeral, columnValue, hparent]
        simp [hrow]
    show _ = Sql.sameKey v (row.value keys.parentKey)
    cases hnull : (row.value keys.parentKey).isNull with
    | true => simp [recordEngine, hright, hnull, Sql.sameKey]
    | false =>
        have hcompares : (recordEngine tables).compares scopes v (Sql.comparator .eq)
            (enclosing ++ "." ++ keys.parentKey) = .ofBool (Comparison.eq.evaluate v _) :=
          recordEngine_compares (hright ▸ hnull) .eq
        rw [hright] at hcompares
        rw [Sql.sameKey, hv, hnull]
        exact hcompares

end

/-! ## The shop -/

/-- An engine for the orders of the shop. -/
def shop : Sql.Engine Record :=
  recordEngine fun table =>
    if table = "orders" then (customers.flatMap (·.orders)).map Order.toRecord else []

/-- Integer keys are equal when the integers are. -/
theorem sameKey_int (m n : Int64) : Sql.sameKey (.int m) (.int n) = .yes ↔ m = n := by
  have hsame : Sql.sameKey (.int m) (.int n) = .ofBool (Ord.compare m n == .eq) := rfl
  rw [hsame]
  by_cases hkey : m = n
  · simp [hkey, Sql.Truth.ofBool]
  · simp [hkey, Sql.Truth.ofBool]

/-- The orders of a customer are those that belong to the row of the customer. -/
theorem shop_belongs_iff {c : Customer} (hc : c ∈ customers) {scopes : Sql.Scopes Record}
    {row : Record} :
    shop.Belongs (("Customer", c.toRecord) :: scopes) "orders" ⟨"customerId", "id"⟩ row ↔
      ∃ o ∈ c.orders, o.toRecord = row := by
  have howned : ∀ c ∈ customers, ∀ o ∈ c.orders, o.customerId = c.id := by
    simp [customers, ada, grace, linus, margaret]
  have hids : ∀ c ∈ customers, ∀ c' ∈ customers, c.id = c'.id → c = c' := by
    simp [customers, ada, grace, linus, margaret]
  have hkey (o : Order) : Sql.sameKey (shop.cell o.toRecord "customerId")
      (shop.cell c.toRecord "id") = .yes ↔ o.customerId = c.id :=
    sameKey_int o.customerId c.id
  constructor
  · rintro ⟨hrow, owner, ⟨⟩, hsame⟩
    obtain ⟨o, ho, rfl⟩ := List.mem_map.mp hrow
    obtain ⟨c', hc', ho⟩ := List.mem_flatMap.mp ho
    have hid : c'.id = c.id := (howned c' hc' o ho).symm.trans ((hkey o).mp hsame)
    exact ⟨o, hids c' hc' c hc hid ▸ ho, rfl⟩
  · rintro ⟨o, ho, rfl⟩
    refine ⟨?_, c.toRecord, rfl, (hkey o).mpr (howned c hc o ho)⟩
    exact List.mem_map.mpr ⟨o, List.mem_flatMap.mpr ⟨c, hc, ho⟩, rfl⟩

/-- The shop finds the keys of the orders of a customer. -/
theorem shop_readsKeys (scopes : Sql.Scopes Record) :
    shop.ReadsKeys scopes "orders" "Customer" ⟨"customerId", "id"⟩ :=
  recordEngine_readsKeys rfl rfl (by decide) (by decide +kernel)

/-! ## A family -/

def grandkid : Record :=
  .mk [("id", .int 3), ("parentId", .int 2), ("i", .int 1)] [] []

def kid : Record :=
  .mk [("id", .int 2), ("parentId", .int 1), ("i", .int 0)] [] [("kids", [grandkid])]

def grandparent : Record :=
  .mk [("id", .int 1), ("i", .int 0)] [] [("kids", [kid])]

/-- An engine with all kids in one table. -/
def family : Sql.Engine Record :=
  recordEngine fun table => if table = "kids" then [kid, grandkid] else []

/-- The kids of a record are those that belong to its row. -/
theorem family_belongs_iff {owner row : Record} (howner : owner = grandparent ∨ owner = kid)
    {name : String} {scopes : Sql.Scopes Record} :
    family.Belongs ((name, owner) :: scopes) "kids" ⟨"parentId", "id"⟩ row ↔
      row ∈ owner.collection "kids" := by
  have hrows : family.rows "kids" = [kid, grandkid] := rfl
  -- Two rows and two owners leave four pairs of keys to compare.
  have hkey (owner row : Record) : family.Belongs ((name, owner) :: scopes) "kids"
      ⟨"parentId", "id"⟩ row ↔ (row = kid ∨ row = grandkid) ∧
        Sql.sameKey (row.value "parentId") (owner.value "id") = .yes := by
    simp only [Sql.Engine.Belongs, hrows, List.mem_cons, List.not_mem_nil, or_false]
    refine and_congr_right fun _ => ⟨?_, fun hsame => ⟨owner, rfl, hsame⟩⟩
    rintro ⟨_, ⟨⟩, hsame⟩
    exact hsame
  have hkid : Sql.sameKey (kid.value "parentId") (grandparent.value "id") = .yes ∧
      Sql.sameKey (kid.value "parentId") (kid.value "id") ≠ .yes := by
    decide +kernel
  have hgrandkid : Sql.sameKey (grandkid.value "parentId") (kid.value "id") = .yes ∧
      Sql.sameKey (grandkid.value "parentId") (grandparent.value "id") ≠ .yes := by
    decide +kernel
  have hcollections : grandparent.collection "kids" = [kid] ∧ kid.collection "kids" = [grandkid] :=
    ⟨rfl, rfl⟩
  rw [hkey]
  rcases howner with rfl | rfl
  · rw [hcollections.1, List.mem_singleton]
    constructor
    · rintro ⟨rfl | rfl, hsame⟩
      · rfl
      · exact absurd hsame hgrandkid.2
    · rintro rfl
      exact ⟨.inl rfl, hkid.1⟩
  · rw [hcollections.2, List.mem_singleton]
    constructor
    · rintro ⟨rfl | rfl, hsame⟩
      · exact absurd hsame hkid.2
      · rfl
    · rintro rfl
      exact ⟨.inr rfl, hgrandkid.1⟩

/-- The family finds the keys of kids, of a wide record or of a kid. -/
theorem family_readsKeys {enclosing : String} (h : enclosing = "Wide" ∨ enclosing = "kids")
    (scopes : Sql.Scopes Record) :
    family.ReadsKeys scopes "kids" enclosing ⟨"parentId", "id"⟩ := by
  rcases h with rfl | rfl
  · exact recordEngine_readsKeys rfl rfl (by decide) (by decide +kernel)
  · exact recordEngine_readsKeys rfl rfl (by decide) (by decide +kernel)

/-- The rows that belong to a record show its kids as soon as each of them shows itself. -/
theorem family_shows {owner : Record} (howner : owner = grandparent ∨ owner = kid) {name : String}
    {scopes : Sql.Scopes Record} {f : Formula}
    (h : ∀ e ∈ owner.collection "kids",
      family.Shows (("kids", e) :: (name, owner) :: scopes) e f) :
    (∀ e ∈ owner.collection "kids", ∃ row,
      family.Belongs ((name, owner) :: scopes) "kids" ⟨"parentId", "id"⟩ row ∧
        family.Shows (("kids", row) :: (name, owner) :: scopes) e f) ∧
    ∀ row, family.Belongs ((name, owner) :: scopes) "kids" ⟨"parentId", "id"⟩ row →
      ∃ e ∈ owner.collection "kids",
        family.Shows (("kids", row) :: (name, owner) :: scopes) e f := by
  constructor
  · intro e he
    exact ⟨e, (family_belongs_iff howner).mpr he, h e he⟩
  · intro row hbelongs
    have hrow := (family_belongs_iff howner).mp hbelongs
    exact ⟨row, hrow, h row hrow⟩

end Selection.Sample
