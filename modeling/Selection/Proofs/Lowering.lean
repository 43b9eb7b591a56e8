import Selection.Proofs.Absence
import Selection.Proofs.Lowered
import Selection.Proofs.RecordEngine

/-! # Filters accept what lambdas hold of

The filter of a lambda is surely true of a row exactly when the lambda holds of the record that the
row shows. Negation does not commute with three-valued truth, so lowering carries the polarity down
to the leaves and lets a negated test accept a null column; a formula and its negation are therefore
followed at once.
-/

namespace Selection

namespace Sql

variable {ρ : Type} {db : Engine ρ} {scopes : Scopes ρ} {field : FieldRef}

/-! ## Leaves -/

/-- Whether a lowered formula accepts the rows in scope. -/
def Lowered.accepts (db : Engine ρ) (scopes : Scopes ρ) : Lowered → Bool
  | constant verdict => verdict
  | filter f => db.accepts scopes f

/-- A test for null tells whether the column is null. -/
theorem accepts_nullTest (isNull : Bool) :
    db.accepts scopes (nullTest field isNull) =
      ((db.column scopes (columnOf field)).isNull == isNull) := by
  apply Engine.accepts_of_truth
  rw [nullTest, Engine.truth, Engine.conditionTruth]
  cases isNull <;> simp

/-- No comparison is written like a test for null. -/
theorem comparator_ne_is (op : Comparison) : comparator op ≠ "IS" ∧ comparator op ≠ "IS NOT" := by
  cases op <;> decide

/-- A comparison is unknown of a null, and else decided by the engine. -/
theorem truth_compareLeaf (op : Comparison) (value : Value) :
    db.truth scopes (compareLeaf field op value) =
      if (db.column scopes (columnOf field)).isNull then .unknown
      else
        db.compares scopes (db.column scopes (columnOf field)) (comparator op) (literal value) := by
  rw [compareLeaf, Engine.truth, Engine.conditionTruth]
  simp [comparator_ne_is op]

/-- Of two values with an order, one comparison holds when its complement does not. -/
theorem evaluate_complement {v w : Value} (hv : v.isNull = false) (hw : w.isNull = false)
    (horder : (v.compare? w).isSome) (op : Comparison) :
    (complement op).evaluate v w = !op.evaluate v w := by
  obtain ⟨o, ho⟩ := Option.isSome_iff_exists.mp horder
  cases op <;> cases o <;> simp [complement, Comparison.evaluate, hv, hw, ho, Comparison.admits]

/-- Of a null and a value that is there, only the inequality holds. -/
theorem evaluate_null {v w : Value} (hv : v.isNull = true) (hw : w.isNull = false)
    (op : Comparison) : op.evaluate v w = (op == .ne) := by
  simp [Comparison.evaluate, hv, hw]

theorem evaluate_ne (v w : Value) : Comparison.ne.evaluate v w = !Comparison.eq.evaluate v w := by
  unfold Comparison.evaluate
  cases v.isNull <;> cases w.isNull <;> simp [Comparison.admits, bne]

/-- A comparison with a constant, either way: it is false on a null column, so its negation accepts
one. -/
theorem accepts_polarized {value v : Value}
    (hcolumn : db.column scopes (columnOf field) = v) (hvalue : value.isNull = false)
    (horder : v.isNull = false → (v.compare? value).isSome)
    (hdecides : v.isNull = false → ∀ op', db.compares scopes v (comparator op') (literal value) =
      .ofBool (op'.evaluate v value)) (op : Comparison) (negated : Bool) :
    db.accepts scopes
        (if negated then .disj [compareLeaf field (complement op) value, nullTest field true]
          else compareLeaf field op value) =
      ((!v.isNull && op.evaluate v value) != negated) := by
  have hleaf (op : Comparison) :
      db.accepts scopes (compareLeaf field op value) = (!v.isNull && op.evaluate v value) := by
    cases hnull : v.isNull with
    | true => simp [Engine.accepts, truth_compareLeaf, hcolumn, hnull]
    | false =>
        apply Engine.accepts_of_truth
        simp [truth_compareLeaf, hcolumn, hnull, hdecides hnull op]
  cases negated with
  | false => simp [hleaf]
  | true =>
      simp only [↓reduceIte, Engine.accepts_disj, List.any_cons, List.any_nil, Bool.or_false, hleaf,
        accepts_nullTest, hcolumn]
      cases hnull : v.isNull with
      | true => rfl
      | false => simp [evaluate_complement hnull hvalue (horder hnull)]

/-- What a comparison lowers to accepts a column just when the comparison, or its negation, holds of
its value. -/
theorem lowerComparison_accepts {op : Comparison} {value v : Value}
    (hcolumn : db.column scopes (columnOf field) = v)
    (hcomparable : v.isNull = true ∨ value.isNull = true ∨ (v.compare? value).isSome)
    (hdecides : v.isNull = false → value.isNull = false → (v.compare? value).isSome → ∀ op',
      db.compares scopes v (comparator op') (literal value) = .ofBool (op'.evaluate v value))
    (negated : Bool) :
    (lowerComparison field op value negated).accepts db scopes =
      (op.evaluate v value != negated) := by
  unfold lowerComparison
  cases hvalue : value.isNull with
  | true =>
      cases hnull : v.isNull <;> cases op <;> cases negated <;>
        simp [Lowered.accepts, accepts_nullTest, hcolumn, hnull, Comparison.evaluate, hvalue]
  | false =>
      -- The order that the engine is asked for exists as soon as no side is null.
      have horder (hnull : v.isNull = false) : (v.compare? value).isSome := by
        rcases hcomparable with h | h | h
        · rw [hnull] at h
          contradiction
        · rw [hvalue] at h
          contradiction
        · exact h
      have hpolarized := accepts_polarized hcolumn hvalue horder
        fun hnull => hdecides hnull hvalue (horder hnull)
      simp only [Bool.false_eq_true, ↓reduceIte, Lowered.accepts]
      by_cases hop : op = .ne
      · -- An inequality is true on a null column, and the negated equality accepts one.
        simp only [hop, ↓reduceIte, hpolarized, evaluate_ne]
        cases hnull : v.isNull with
        | false => simp
        | true =>
            rw [evaluate_null hnull hvalue]
            cases negated <;> rfl
      · simp only [hop, ↓reduceIte, hpolarized]
        cases hnull : v.isNull with
        | false => simp
        | true =>
            rw [evaluate_null hnull hvalue, beq_eq_false_iff_ne.mpr hop]
            rfl

/-- A test that is unknown on a null column, either way. -/
theorem lowerMatch_accepts {test : Filter} {v : Value} {holds : String → Bool}
    (hcolumn : db.column scopes (columnOf field) = v)
    (htest : db.truth scopes test =
      if v.isNull then .unknown else .ofBool (v.asString?.any holds))
    (negated : Bool) :
    (lowerMatch field test negated).accepts db scopes = (v.asString?.any holds != negated) := by
  have hnull (h : v.isNull = true) : v.asString?.any holds = false := by
    cases v <;> first | rfl | contradiction
  cases negated with
  | false =>
      rw [lowerMatch, Lowered.accepts, if_neg Bool.false_ne_true, Engine.accepts]
      cases h : v.isNull with
      | false =>
          rw [htest, h]
          cases v.asString?.any holds <;> rfl
      | true =>
          rw [htest, h, hnull h]
          rfl
  -- Negated, the test of a null is unknown, and the null test beside it accepts the row.
  | true =>
      rw [lowerMatch, Lowered.accepts, if_pos rfl, Engine.accepts_disj]
      simp only [List.any_cons, List.any_nil, Bool.or_false, accepts_nullTest, hcolumn]
      rw [Engine.accepts, Engine.truth_neg, htest]
      cases h : v.isNull with
      | false => cases v.asString?.any holds <;> rfl
      | true =>
          rw [hnull h]
          rfl

/-! ## Chains -/

/-- Filters are joined as all of them or some of them. -/
theorem join_accepts (conjunctive : Bool) (fs : List Filter) :
    (join conjunctive fs).accepts db scopes =
      if conjunctive then fs.all (db.accepts scopes) else fs.any (db.accepts scopes) := by
  cases fs with
  | nil => cases conjunctive <;> rfl
  | cons f rest =>
      cases conjunctive <;>
        simp [join, Lowered.accepts, Engine.accepts_conj, Engine.accepts_disj]

/-- A chain accepts the rows in scope when all or when some of its items do. -/
theorem chained_accepts {conjunctive negated : Bool} {scope : String} {items : List Formula}
    {verdict : Formula → Bool} {low : Lowered}
    (h : Chained conjunctive negated scope items [] low)
    (hitems : ∀ item ∈ items, ∀ low, lower negated scope item = .ok low →
      low.accepts db scopes = verdict item) :
    low.accepts db scopes = if conjunctive then items.all verdict else items.any verdict := by
  cases h with
  | absorbed item hitem hlow =>
      -- The items after an absorbing constant are not looked at.
      have hverdict : verdict item = !conjunctive := (hitems item hitem _ hlow).symm
      cases conjunctive with
      | true => exact (List.all_eq_false.mpr ⟨item, hitem, by simp [hverdict]⟩).symm
      | false => exact (List.any_eq_true.mpr ⟨item, hitem, hverdict⟩).symm
  | joined lows hlows hneutral =>
      rw [List.nil_append, join_accepts]
      induction hlows with
      | nil => rfl
      | @cons item low items lows hlow _ ih =>
          have hrest := ih (fun item hitem => hitems item (List.mem_cons_of_mem _ hitem))
            (fun low hlow => hneutral low (List.mem_cons_of_mem _ hlow))
          have hitem := hitems item List.mem_cons_self low hlow
          cases low with
          | constant fixed =>
              have hfixed : fixed = conjunctive := by
                simpa using hneutral _ List.mem_cons_self
              cases conjunctive <;>
                simp_all [List.filterMap_cons, Lowered.filter?, Lowered.accepts]
          | filter f =>
              have hf : db.accepts scopes f = verdict item := hitem
              cases conjunctive <;> simp_all [Lowered.filter?]

/-! ## Formulas -/

variable {like : String → String → Bool}

/-- A sub-query finds a row when the predicate of its clause accepts some element. -/
theorem truth_subquery {path : String} {keys : Link} {elements : List Record}
    {shown : ρ → Record → Prop} {verdict : Record → Bool} {clause : Filter} {low : Lowered}
    (hclause : ∀ row ∈ db.rows path, db.accepts ((path, row) :: scopes) clause = true ↔
      db.Belongs scopes path keys row ∧ low.accepts db ((path, row) :: scopes) = true)
    (hread : ∀ row, db.Belongs scopes path keys row → ∀ e ∈ elements, shown row e →
      low.accepts db ((path, row) :: scopes) = verdict e)
    (hshown : ∀ e ∈ elements, ∃ row, db.Belongs scopes path keys row ∧ shown row e)
    (hsome : ∀ row, db.Belongs scopes path keys row → ∃ e ∈ elements, shown row e) :
    db.truth scopes (.exists path (some clause)) = .ofBool (elements.any verdict) := by
  rw [Engine.truth]
  apply congrArg
  rw [Bool.eq_iff_iff, List.any_eq_true, List.any_eq_true]
  constructor
  · rintro ⟨row, hrow, haccepts⟩
    obtain ⟨hbelongs, hlow⟩ := (hclause row hrow).mp haccepts
    obtain ⟨e, he, hshows⟩ := hsome row hbelongs
    exact ⟨e, he, (hread row hbelongs e he hshows).symm.trans hlow⟩
  · rintro ⟨e, he, hverdict⟩
    obtain ⟨row, hbelongs, hshows⟩ := hshown e he
    have hlow := (hread row hbelongs e he hshows).trans hverdict
    exact ⟨row, hbelongs.1, (hclause row hbelongs.1).mpr ⟨hbelongs, hlow⟩⟩

/-- The clause of a sub-query accepts the rows that the condition on the keys and the predicate
accept. -/
theorem accepts_clause {keys clause : Filter} {inner : Lowered}
    (hclause : clause? keys inner = some clause) :
    db.accepts scopes clause = (db.accepts scopes keys && inner.accepts db scopes) := by
  rcases inner with (_ | _) | f
  · contradiction
  · obtain rfl := Option.some.inj hclause
    exact (Bool.and_true _).symm
  · obtain rfl := Option.some.inj hclause
    rw [Engine.accepts_conj, List.all_cons, List.all_cons, List.all_nil, Bool.and_true]
    rfl

/-- Where the condition on its keys selects the rows that belong to the row around it, a sub-query
tells whether some element satisfies the predicate. -/
theorem subquery_accepts {path : String} {keys : Link} {elements : List Record}
    {shown : ρ → Record → Prop} {verdict : Record → Bool} {inner : Lowered} {negated : Bool}
    (hkeys : ∀ row ∈ db.rows path,
      db.accepts ((path, row) :: scopes) (correlation path keys scopes.name) = true ↔
        db.Belongs scopes path keys row)
    (hread : ∀ row, db.Belongs scopes path keys row → ∀ e ∈ elements, shown row e →
      inner.accepts db ((path, row) :: scopes) = verdict e)
    (hshown : ∀ e ∈ elements, ∃ row, db.Belongs scopes path keys row ∧ shown row e)
    (hsome : ∀ row, db.Belongs scopes path keys row → ∃ e ∈ elements, shown row e) :
    (subquery negated path (clause? (correlation path keys scopes.name) inner)).accepts db scopes =
      (elements.any verdict != negated) := by
  cases hclause : clause? (correlation path keys scopes.name) inner with
  | none =>
      -- An element that the predicate accepts would have a row that shows it.
      have hnone : elements.any verdict = false := by
        apply List.any_eq_false.mpr
        intro e he
        obtain ⟨row, hbelongs, hrow⟩ := hshown e he
        rw [← hread row hbelongs e he hrow]
        rcases inner with (_ | _) | f
        · exact Bool.false_ne_true
        · contradiction
        · contradiction
      rw [hnone]
      exact (Bool.false_xor negated).symm
  | some clause =>
      have hrows (row : ρ) (hrow : row ∈ db.rows path) :
          db.accepts ((path, row) :: scopes) clause = true ↔
            db.Belongs scopes path keys row ∧ inner.accepts db ((path, row) :: scopes) = true := by
        rw [accepts_clause hclause, Bool.and_eq_true, hkeys row hrow]
      have htruth := truth_subquery hrows hread hshown hsome
      apply Engine.accepts_of_truth
      cases negated with
      | false => simpa using htruth
      | true =>
          rw [if_pos rfl, Engine.truth_neg, htruth, Truth.not_ofBool]
          simp

/-- A text test is unknown of a null, and else holds of the texts that pass it. -/
theorem truth_text {test : TextTest} {part : String} {v : Value}
    (hcolumn : db.column scopes (columnOf field) = v)
    (hdecides : v.isNull = false → db.compares scopes v "LIKE"
      (Value.quote (likePattern test part)) = .ofBool (v.asString?.any (test.holds · part))) :
    db.truth scopes (.leaf (condition field "LIKE" (Value.quote (likePattern test part)))) =
      if v.isNull then .unknown else .ofBool (v.asString?.any (test.holds · part)) := by
  rw [Engine.truth, Engine.conditionTruth]
  cases h : v.isNull with
  | false => simp [hcolumn, h, hdecides h]
  | true => simp [hcolumn, h]

/-- A pattern test is unknown of a null, and else holds of the texts that the pattern matches. -/
theorem truth_pattern {wanted : String} {v : Value}
    (hcolumn : db.column scopes (columnOf field) = v)
    (hdecides : v.isNull = false →
      db.finds v (Value.quote wanted) = v.asString?.any (like wanted)) :
    db.truth scopes (.patIndex (columnOf field) (Value.quote wanted)) =
      if v.isNull then .unknown else .ofBool (v.asString?.any (like wanted)) := by
  rw [Engine.truth]
  cases h : v.isNull with
  | false => simp [hcolumn, h, hdecides h]
  | true => simp [hcolumn, h]

/-- What a formula lowers to accepts the rows in scope just when the formula, or its negation, holds
of the record, where comparisons of fields in absent nested records are decided as those of nulls.
No quantifier may range over a collection that has the name of the row around it. -/
theorem lower_accepts_outer {absent : Comparison → Value → Bool} {f : Formula} {r : Record}
    {negated : Bool} {low : Lowered} {name : String} {owner : ρ}
    (hlow : lower negated name f = .ok low) (hnamesake : ¬f.HasNamesake name)
    (hshows : db.OuterShows ((name, owner) :: scopes) r f) (habsent : f.DecidesNulls absent r)
    (hdecides : db.Decides like ((name, owner) :: scopes) f) :
    low.accepts db ((name, owner) :: scopes) = (f.holdsWith absent like r != negated) := by
  induction f using Formula.induction generalizing scopes name owner r negated low with
  | constant verdict =>
      rw [← Except.ok.inj hlow]
      rfl
  | compare field op value lexical =>
      obtain ⟨hcolumn, hcomparable⟩ := hshows
      simp only [Engine.Decides, hcolumn] at hdecides
      rw [← Except.ok.inj hlow, lowerComparison_accepts hcolumn hcomparable hdecides,
        Formula.holdsWith_compare habsent]
  | text field test part =>
      have hcolumn : db.column ((name, owner) :: scopes) (columnOf field) =
        r.outerValue field.path := hshows
      cases part with
      | string part =>
          simp only [Engine.Decides, hcolumn] at hdecides
          have hleaf := truth_text hcolumn fun hv => hdecides hv part rfl
          rw [← Except.ok.inj hlow, lowerMatch_accepts hcolumn hleaf, Formula.holdsWith_text]
      | _ =>
          -- No text has a part that is no text.
          rw [← Except.ok.inj hlow]
          simp [Formula.holdsWith, Formula.holds, Lowered.accepts]
  | pattern field value =>
      have hcolumn : db.column ((name, owner) :: scopes) (columnOf field) =
        r.outerValue field.path := hshows
      cases value with
      | string wanted =>
          simp only [Engine.Decides, hcolumn] at hdecides
          have hleaf := truth_pattern hcolumn fun hv => hdecides hv wanted rfl
          rw [← Except.ok.inj hlow]
          show (lowerMatch field (.patIndex (columnOf field) _) negated).accepts db _ = _
          rw [lowerMatch_accepts hcolumn hleaf, Formula.holdsWith_pattern]
      | _ =>
          rw [← Except.ok.inj hlow]
          simp [Formula.holdsWith, Formula.holds, Lowered.accepts]
  | any path element link parameters predicate ih =>
      obtain ⟨keys, parameter, inner, rfl, rfl, hinner, rfl⟩ := lower_any_eq_ok_iff.mp hlow
      obtain ⟨hshown, hsome⟩ := hshows keys rfl
      have hname : path ≠ name := by
        rintro rfl
        exact hnamesake (.here ..)
      have hrows (row : ρ) (hrow : row ∈ db.rows path) :
          db.accepts ((path, row) :: (name, owner) :: scopes) (correlation path keys name) = true ↔
            db.Belongs ((name, owner) :: scopes) path keys row :=
        Engine.accepts_correlation_iff hname hrow (hdecides keys rfl row hrow).1
      have hread (row : ρ) (hbelongs : db.Belongs ((name, owner) :: scopes) path keys row)
          (e : Record) (he : e ∈ r.outerElements path)
          (hrow : db.OuterShows ((path, row) :: (name, owner) :: scopes) e predicate) :
          inner.accepts db ((path, row) :: (name, owner) :: scopes) =
            predicate.holdsWith absent like e := by
        have hpredicate := (hdecides keys rfl row hbelongs.1).2 hbelongs
        rw [ih hinner (fun h => hnamesake (.inside h)) hrow (habsent rfl e he) hpredicate]
        exact Bool.xor_false _
      exact (subquery_accepts hrows hread hshown hsome).trans (by rw [Formula.holdsWith])
  | and items ih =>
      have hshow := Engine.outerShowsAll_iff.mp hshows
      have habsents := Formula.allDecideNulls_iff.mp habsent
      have hdecide := Engine.decidesAll_iff.mp hdecides
      rw [Formula.holdsWith_and, chained_accepts (chained_of_ok hlow) fun item hitem _ hlow =>
        ih item hitem hlow (fun h => hnamesake (.and hitem h)) (hshow item hitem)
          (habsents item hitem) (hdecide item hitem)]
      cases negated <;> simp [List.all_eq_not_any_not]
  | or items ih =>
      have hshow := Engine.outerShowsAll_iff.mp hshows
      have habsents := Formula.allDecideNulls_iff.mp habsent
      have hdecide := Engine.decidesAll_iff.mp hdecides
      rw [Formula.holdsWith_or, chained_accepts (chained_of_ok hlow) fun item hitem _ hlow =>
        ih item hitem hlow (fun h => hnamesake (.or hitem h)) (hshow item hitem)
          (habsents item hitem) (hdecide item hitem)]
      cases negated <;> simp [List.all_eq_not_any_not]
  | not item ih =>
      rw [ih hlow (fun h => hnamesake (.not h)) hshows habsent hdecides, Formula.holdsWith]
      cases item.holdsWith absent like r <;> cases negated <;> rfl

/-- What a formula lowers to accepts the rows that show a record just when the formula, or its
negation, holds of it. -/
theorem lower_accepts {f : Formula} {r : Record} {negated : Bool} {low : Lowered} {name : String}
    {owner : ρ} (hlow : lower negated name f = .ok low) (hnamesake : ¬f.HasNamesake name)
    (hshows : db.Shows ((name, owner) :: scopes) r f)
    (hdecides : db.Decides like ((name, owner) :: scopes) f) :
    low.accepts db ((name, owner) :: scopes) = (f.holds like r != negated) := by
  obtain ⟨houter, hrefuses⟩ := hshows.outer
  rw [lower_accepts_outer hlow hnamesake houter hrefuses hdecides, Formula.holdsWith_false]

/-! ## Lambdas -/

/-- The filter is true of a row just when what it comes from accepts the row; no filter is true of
all. -/
theorem whereTruth_toFilter? (low : Lowered) :
    db.whereTruth scopes low.toFilter? = .yes ↔ low.accepts db scopes = true := by
  rcases low with (_ | _) | f
  · simp [Lowered.toFilter?, Lowered.accepts, Engine.whereTruth, Engine.truth]
  · simp [Lowered.toFilter?, Lowered.accepts, Engine.whereTruth]
  · simp [Lowered.toFilter?, Lowered.accepts, Engine.whereTruth, Engine.accepts]

/-- A lambda of one parameter with linked collections has a filter. Unless a collection in it has
the name of the row around it, the filter is true of a row just when the lambda holds of the record
that the row shows. -/
theorem lambda_filter_true_iff {l : Lambda} {name : String} {row : ρ} {r : Record}
    (hparameters : l.parameters = [name]) (hlinked : l.body.Linked)
    (hnamesake : ¬l.body.HasNamesake name) (hshows : db.Shows [(name, row)] r l.body)
    (hdecides : db.Decides like [(name, row)] l.body) :
    ∃ filter, lowerLambda l = .ok filter ∧
      (db.whereTruth [(name, row)] filter = .yes ↔ l.holds like r = true) := by
  obtain ⟨low, hlow⟩ := lower_succeeds hlinked false name
  have haccepts : low.accepts db [(name, row)] = l.holds like r :=
    (lower_accepts hlow hnamesake hshows hdecides).trans (Bool.xor_false _)
  refine ⟨low.toFilter?, (lowerLambda_eq_ok_iff hparameters).mpr ⟨low, hlow, rfl⟩, ?_⟩
  rw [whereTruth_toFilter?, haccepts]

end Sql

/-! ## The filter of a customer -/

namespace Sample

/-- Early customers that are not reached at an address, with a small order that is shipped. -/
def served : Lambda :=
  .ofRecord "Customer" <| .and
    [.not (.compare ⟨"email", .string⟩ .eq (.string "grace@example.com") false),
      .compare ⟨"id", .int⟩ .lt (.int 100) false,
      .any "orders" "Order" (some ⟨"customerId", "id"⟩) ["Order"] <| .and
        [.compare ⟨"status", .string⟩ .eq (.string "shipped") false,
          .compare ⟨"total", .float⟩ .lt (.float (.ofInt 100)) false]]

/-- The row of the only order of Grace shows it. -/
theorem shop_shows_order {o : Order} (ho : o ∈ grace.orders) :
    shop.Shows [("orders", o.toRecord), ("Customer", grace.toRecord)] o.toRecord <| .and
      [.compare ⟨"status", .string⟩ .eq (.string "shipped") false,
        .compare ⟨"total", .float⟩ .lt (.float (.ofInt 100)) false] := by
  obtain rfl := List.mem_singleton.mp ho
  refine ⟨⟨.string "shipped", by decide, by decide, .inr (.inr (by decide))⟩,
    ⟨.float (.ofRatio false 31 2), by decide +kernel, by decide +kernel, .inr (.inr ?_)⟩, trivial⟩
  decide +kernel

/-- The shop decides what is asked of an order of Grace. -/
theorem shop_decides_order (like : String → String → Bool) {o : Order} (ho : o ∈ grace.orders) :
    shop.Decides like [("orders", o.toRecord), ("Customer", grace.toRecord)] <| .and
      [.compare ⟨"status", .string⟩ .eq (.string "shipped") false,
        .compare ⟨"total", .float⟩ .lt (.float (.ofInt 100)) false] := by
  obtain rfl := List.mem_singleton.mp ho
  exact ⟨recordEngine_decides_compare (by decide) (by decide),
    recordEngine_decides_compare (by decide +kernel) (by decide +kernel), trivial⟩

/-- The rows of the shop show Grace's order under her key. -/
theorem shop_shows_grace :
    shop.Shows [("Customer", grace.toRecord)] grace.toRecord served.body := by
  have hgrace : grace ∈ customers := by simp [customers]
  refine ⟨⟨.null, by decide, by decide, .inl rfl⟩,
    ⟨.int 2, by decide, by decide, .inr (.inr (by decide))⟩, ⟨_, rfl, ?_⟩, trivial⟩
  rintro keys ⟨⟩
  constructor
  · intro e he
    obtain ⟨o, ho, rfl⟩ := List.mem_map.mp he
    exact ⟨o.toRecord, (shop_belongs_iff hgrace).mpr ⟨o, ho, rfl⟩, shop_shows_order ho⟩
  · intro row hbelongs
    obtain ⟨o, ho, rfl⟩ := (shop_belongs_iff hgrace).mp hbelongs
    exact ⟨o.toRecord, List.mem_map_of_mem ho, shop_shows_order ho⟩

/-- The shop decides who is served, though a signed integer and a float have one literal there. -/
theorem shop_decides_served (like : String → String → Bool) :
    shop.Decides like [("Customer", grace.toRecord)] served.body := by
  have hemail : shop.Decides like [("Customer", grace.toRecord)]
      (.compare ⟨"email", .string⟩ .eq (.string "grace@example.com") false) :=
    recordEngine_decides_compare (by decide) (by decide)
  refine ⟨hemail, recordEngine_decides_compare (by decide +kernel) (by decide +kernel), ?_,
    trivial⟩
  · rintro keys ⟨⟩ row hrow
    refine ⟨shop_readsKeys _, fun hbelongs => ?_⟩
    obtain ⟨o, ho, rfl⟩ := (shop_belongs_iff (by simp [customers])).mp hbelongs
    exact shop_decides_order like ho

end Sample

/-- Grace has no email address, so the comparison with it is unknown; she is served all the same. -/
theorem Sql.grace_is_served :
    ∃ filter, lowerLambda Sample.served = .ok filter ∧
      Sample.served.holds (fun _ _ => false) Sample.grace.toRecord = true ∧
      Sample.shop.whereTruth [("Customer", Sample.grace.toRecord)] filter = .yes := by
  have hlinked : Sample.served.body.Linked := by
    intro path element link parameters predicate hmem
    simp [Sample.served, Lambda.ofRecord, Formula.subformulas, Formula.allSubformulas] at hmem
    obtain ⟨-, -, rfl, rfl, -⟩ := hmem
    exact ⟨rfl, rfl⟩
  have hnamesake : ¬Sample.served.body.HasNamesake "Customer" := by
    simp [Sample.served, Lambda.ofRecord]
  obtain ⟨filter, hfilter, htrue⟩ := lambda_filter_true_iff rfl hlinked hnamesake
    Sample.shop_shows_grace (Sample.shop_decides_served fun _ _ => false)
  exact ⟨filter, hfilter, by decide +kernel, htrue.mpr (by decide +kernel)⟩

/-! ## Collections in themselves -/

namespace Sample

/-- Wide records with a kid that has a kid of number one. -/
def withGrandkid : Lambda :=
  .ofRecord "Wide" <| .any "kids" "Wide" (some ⟨"parentId", "id"⟩) ["Wide"] <|
    .any "kids" "Wide" (some ⟨"parentId", "id"⟩) ["Wide"] (.compare ⟨"i", .int⟩ .eq (.int 1) false)

end Sample

/-- The rows of the family show the grandparent, but the condition on the keys of the inner
sub-query compares a kid with itself, so the filter rejects what the lambda holds of. -/
theorem Sql.grandkid_is_missed :
    ∃ filter, lowerLambda Sample.withGrandkid = .ok filter ∧ Sample.withGrandkid.body.Linked ∧
      Sample.family.Shows [("Wide", Sample.grandparent)] Sample.grandparent
        Sample.withGrandkid.body ∧
      Sample.family.Decides (fun _ _ => false) [("Wide", Sample.grandparent)]
        Sample.withGrandkid.body ∧
      Sample.withGrandkid.holds (fun _ _ => false) Sample.grandparent = true ∧
      Sample.family.whereTruth [("Wide", Sample.grandparent)] filter = .no := by
  refine ⟨_, rfl, ?_, ?_, ?_, by decide, by decide +kernel⟩
  · intro path element link parameters predicate hmem
    simp [Sample.withGrandkid, Lambda.ofRecord, Formula.subformulas] at hmem
    rcases hmem with ⟨-, -, rfl, rfl, -⟩ | ⟨-, -, rfl, rfl, -⟩ <;> exact ⟨rfl, rfl⟩
  · refine ⟨[Sample.kid], rfl, ?_⟩
    rintro keys ⟨⟩
    refine Sample.family_shows (.inl rfl) fun e he => ?_
    obtain rfl := List.mem_singleton.mp he
    refine ⟨[Sample.grandkid], rfl, ?_⟩
    rintro keys ⟨⟩
    refine Sample.family_shows (.inr rfl) fun e he => ?_
    obtain rfl := List.mem_singleton.mp he
    exact ⟨.int 1, rfl, rfl, .inr (.inr rfl)⟩
  · rintro keys ⟨⟩ row -
    refine ⟨Sample.family_readsKeys (.inl rfl) _, fun hbelongs => ?_⟩
    obtain rfl := List.mem_singleton.mp ((Sample.family_belongs_iff (.inl rfl)).mp hbelongs)
    rintro keys ⟨⟩ row -
    refine ⟨Sample.family_readsKeys (.inr rfl) _, fun hbelongs => ?_⟩
    obtain rfl := List.mem_singleton.mp ((Sample.family_belongs_iff (.inr rfl)).mp hbelongs)
    exact Sample.recordEngine_decides_compare (by decide +kernel) (by decide +kernel)

end Selection
