import Selection.Proofs.Typing

/-! # Delegation and portability

Only a pattern can be left to the query engine, and only in the mode that evaluates none. Then the
test in memory and the lambda are built side by side, yet each decides on its own what becomes of a
pattern when joining folds to a constant: the lambda drops it, and the predicate takes the constant
for its test. So a predicate is delegated exactly when its lambda still has a pattern, and it is
portable exactly when its lambda has neither a pattern nor a collection without a link.
-/

namespace Selection

namespace Formula

/-- A formula tests a pattern, at some depth. -/
def HasPattern (f : Formula) : Prop :=
  ∃ field value, pattern field value ∈ f.subformulas

variable {f g : Formula}

/-! ## Patterns -/

@[simp] theorem not_hasPattern_constant (verdict : Bool) : ¬(constant verdict).HasPattern := by
  simp [HasPattern, subformulas]

@[simp] theorem not_hasPattern_compare (field : FieldRef) (op : Comparison) (value : Value)
    (lexical : Bool) : ¬(compare field op value lexical).HasPattern := by
  simp [HasPattern, subformulas]

@[simp] theorem not_hasPattern_text (field : FieldRef) (test : TextTest) (part : Value) :
    ¬(text field test part).HasPattern := by
  simp [HasPattern, subformulas]

@[simp] theorem hasPattern_pattern (field : FieldRef) (value : Value) :
    (pattern field value).HasPattern :=
  ⟨field, value, self_mem_subformulas _⟩

@[simp] theorem hasPattern_any {path element : String} {link : Option Link}
    {parameters : List String} :
    (any path element link parameters f).HasPattern ↔ f.HasPattern := by
  simp [HasPattern, subformulas]

@[simp] theorem hasPattern_and {items : List Formula} :
    (and items).HasPattern ↔ ∃ item ∈ items, item.HasPattern := by
  simp only [HasPattern, subformulas, List.mem_cons, reduceCtorEq, false_or, mem_allSubformulas]
  grind

@[simp] theorem hasPattern_or {items : List Formula} :
    (or items).HasPattern ↔ ∃ item ∈ items, item.HasPattern := by
  simp only [HasPattern, subformulas, List.mem_cons, reduceCtorEq, false_or, mem_allSubformulas]
  grind

@[simp] theorem hasPattern_not : (not f).HasPattern ↔ f.HasPattern := by
  simp [HasPattern, subformulas]

theorem HasPattern.constant?_eq_none (h : f.HasPattern) : f.constant? = none := by
  cases f with
  | constant verdict => exact absurd h (not_hasPattern_constant verdict)
  | _ => rfl

/-- A conjunction has the patterns of both formulas, unless it is a constant. -/
theorem hasPattern_conj :
    (f.conj g).HasPattern ↔ (f.conj g).constant? = none ∧ (f.HasPattern ∨ g.HasPattern) := by
  apply conj_cases (motive := fun h =>
    h.HasPattern ↔ h.constant? = none ∧ (f.HasPattern ∨ g.HasPattern))
  · rintro rfl
    simpa using HasPattern.constant?_eq_none
  · rintro rfl
    simpa using HasPattern.constant?_eq_none
  · simp [constant?]
  · rintro items rfl -
    simp [constant?, or_and_right, exists_or]
  · simp [constant?]

theorem hasPattern_disj :
    (f.disj g).HasPattern ↔ (f.disj g).constant? = none ∧ (f.HasPattern ∨ g.HasPattern) := by
  apply disj_cases (motive := fun h =>
    h.HasPattern ↔ h.constant? = none ∧ (f.HasPattern ∨ g.HasPattern))
  · rintro rfl
    simpa using HasPattern.constant?_eq_none
  · rintro rfl
    simpa using HasPattern.constant?_eq_none
  · simp [constant?]
  · rintro items rfl -
    simp [constant?, or_and_right, exists_or]
  · simp [constant?]

theorem hasPattern_neg : f.neg.HasPattern ↔ f.HasPattern := by
  cases f <;> simp [neg]

/-! ## Collections without a link -/

theorem hasUnlinked_any {path other element : String} {link : Option Link}
    {parameters : List String} :
    (any other element link parameters f).HasUnlinked path ↔
      (path = other ∧ link = none) ∨ f.HasUnlinked path := by
  simp only [HasUnlinked, subformulas, List.mem_cons, any.injEq]
  grind

theorem hasUnlinked_and {path : String} {items : List Formula} :
    (and items).HasUnlinked path ↔ ∃ item ∈ items, item.HasUnlinked path := by
  simp only [HasUnlinked, subformulas, List.mem_cons, reduceCtorEq, false_or, mem_allSubformulas]
  grind

theorem hasUnlinked_or {path : String} {items : List Formula} :
    (or items).HasUnlinked path ↔ ∃ item ∈ items, item.HasUnlinked path := by
  simp only [HasUnlinked, subformulas, List.mem_cons, reduceCtorEq, false_or, mem_allSubformulas]
  grind

theorem hasUnlinked_not {path : String} : (not f).HasUnlinked path ↔ f.HasUnlinked path := by
  simp [HasUnlinked, subformulas]

/-! ## Portable formulas -/

theorem allPortable_iff {items : List Formula} :
    allPortable items = true ↔ ∀ item ∈ items, item.isPortable = true := by
  induction items with
  | nil => simp [allPortable]
  | cons item rest ih => simp [allPortable, ih]

/-- A formula is portable when it has neither a pattern nor a collection without a link. -/
theorem isPortable_iff :
    f.isPortable = true ↔ ¬f.HasPattern ∧ ∀ path, ¬f.HasUnlinked path := by
  induction f using Formula.induction with
  | constant verdict => simp [isPortable, HasUnlinked, subformulas]
  | compare field op value lexical => simp [isPortable, HasUnlinked, subformulas]
  | text field test part => simp [isPortable, HasUnlinked, subformulas]
  | pattern field value => simp [isPortable]
  | any path element link parameters predicate ih =>
      rw [isPortable, Bool.and_eq_true, ih, Option.isSome_iff_ne_none]
      simp only [hasPattern_any, hasUnlinked_any]
      grind
  | and items ih =>
      rw [isPortable, allPortable_iff]
      simp only [hasPattern_and, hasUnlinked_and]
      grind
  | or items ih =>
      rw [isPortable, allPortable_iff]
      simp only [hasPattern_or, hasUnlinked_or]
      grind
  | not item ih =>
      rw [isPortable, ih]
      simp only [hasPattern_not, hasUnlinked_not]

end Formula

/-! ## Delegated predicates -/

namespace Predicate

/-- Every record is left to the query engine. -/
def IsDelegated (p : Predicate) : Prop :=
  ∀ r, p.evaluate r = .error (.engineDelegated p.lambda.text)

/-- Every record is given a verdict in memory. -/
def IsEvaluated (p : Predicate) : Prop :=
  ∀ r, ∃ verdict, p.evaluate r = .ok verdict

theorem isEvaluated_iff {p : Predicate} : p.IsEvaluated ↔ p.test.isSome = true := by
  constructor
  · intro h
    obtain ⟨verdict, hverdict⟩ := h (.mk [] [] [])
    unfold evaluate at hverdict
    split at hverdict
    next test htest => exact Option.isSome_iff_exists.mpr ⟨test, htest⟩
    next => contradiction
  · intro h r
    obtain ⟨test, htest⟩ := Option.isSome_iff_exists.mp h
    exact ⟨test r, by rw [evaluate, htest]⟩

theorem isDelegated_iff {p : Predicate} : p.IsDelegated ↔ ¬p.IsEvaluated := by
  rw [isEvaluated_iff]
  constructor
  · intro h hsome
    obtain ⟨verdict, hverdict⟩ := isEvaluated_iff.mpr hsome (.mk [] [] [])
    have hfails := h (.mk [] [] [])
    rw [hverdict] at hfails
    contradiction
  · intro h r
    rw [evaluate, Option.not_isSome_iff_eq_none.mp h]

/-- A predicate is tested in memory, unless the mode leaves a pattern that its lambda has to the
query engine. -/
def TestsUnlessPattern (mode : LikeMode) (p : Predicate) : Prop :=
  p.test.isSome = true ↔ (mode = .engineOnly → ¬p.lambda.body.HasPattern)

/-- Folding gives a test to a constant, and keeps what other predicates have. -/
theorem folded_test_isSome (l : Lambda) (test : Option (Record → Bool)) :
    (folded l test).test.isSome = true ↔ (l.body.constant? = none → test.isSome = true) := by
  unfold folded
  split
  next verdict h => simp [h]
  next h => simp [h]

variable {mode : LikeMode} {p q : Predicate}

theorem both_isSome {α β : Type} (f : α → α → β) (a b : Option α) :
    (do let left ← a; let right ← b; return f left right : Option β).isSome = true ↔
      a.isSome = true ∧ b.isSome = true := by
  cases a <;> cases b <;> simp

/-- Joined predicates are tested when both are, and when the lambda folds to a constant. Only then
does the lambda lose their patterns. -/
theorem TestsUnlessPattern.joined {l : Lambda} {test : Option (Record → Bool)}
    (hp : p.TestsUnlessPattern mode) (hq : q.TestsUnlessPattern mode)
    (htest : test.isSome = true ↔ p.test.isSome = true ∧ q.test.isSome = true)
    (hpattern : l.body.HasPattern ↔
      l.body.constant? = none ∧ (p.lambda.body.HasPattern ∨ q.lambda.body.HasPattern)) :
    (folded l test).TestsUnlessPattern mode := by
  unfold TestsUnlessPattern at hp hq ⊢
  rw [folded_test_isSome, folded_lambda, htest, hp, hq, hpattern]
  constructor
  · rintro hboth hmode ⟨hnone, hleft | hright⟩
    · exact (hboth hnone).1 hmode hleft
    · exact (hboth hnone).2 hmode hright
  · intro hneither hnone
    exact ⟨fun hmode hleft => hneither hmode ⟨hnone, .inl hleft⟩,
      fun hmode hright => hneither hmode ⟨hnone, .inr hright⟩⟩

theorem TestsUnlessPattern.and (hp : p.TestsUnlessPattern mode) (hq : q.TestsUnlessPattern mode) :
    (p.and q).TestsUnlessPattern mode :=
  hp.joined hq (both_isSome _ p.test q.test) Formula.hasPattern_conj

theorem TestsUnlessPattern.or (hp : p.TestsUnlessPattern mode) (hq : q.TestsUnlessPattern mode) :
    (p.or q).TestsUnlessPattern mode :=
  hp.joined hq (both_isSome _ p.test q.test) Formula.hasPattern_disj

theorem TestsUnlessPattern.negate (hp : p.TestsUnlessPattern mode) (h : p.negate = .ok q) :
    q.TestsUnlessPattern mode := by
  obtain ⟨l, hl, rfl⟩ := negate_eq_ok h
  obtain ⟨-, rfl⟩ := Lambda.negate_eq_ok hl
  unfold TestsUnlessPattern at hp ⊢
  rw [folded_test_isSome, folded_lambda, Option.isSome_map, hp, Formula.hasPattern_neg]
  constructor
  · intro h hmode hpattern
    exact h (Formula.hasPattern_neg.mpr hpattern).constant?_eq_none hmode hpattern
  · exact fun h _ => h

end Predicate

namespace Compile

variable {ι : Type} {catalog : Catalog ι} {env : Environment} {record : ι} {c : Criterion}
  {p : Predicate}

/-- A test of a field is left to the engine only if it is a pattern. -/
theorem Tested.testsUnlessPattern (h : Tested catalog env record c p) :
    p.TestsUnlessPattern env.settings.like := by
  cases h with
  | comparison op field value _ _ _ =>
      exact ⟨fun _ _ => Formula.not_hasPattern_compare _ _ _ _, fun _ => rfl⟩
  | textTest test field part _ _ _ =>
      exact ⟨fun _ _ => Formula.not_hasPattern_text _ _ _, fun _ => rfl⟩
  | pattern field pattern test _ _ _ htest =>
      show test.isSome = true ↔ (_ → ¬(Formula.pattern field pattern).HasPattern)
      unfold patternTest at htest
      split at htest
      next hmode =>
        obtain rfl := Except.ok.inj htest
        simp [hmode]
      next hmode =>
        obtain ⟨holds, -, htest⟩ := bind_eq_ok_iff.mp htest
        obtain rfl := Except.ok.inj htest
        simp [hmode]
      next hmode =>
        obtain ⟨holds, -, htest⟩ := bind_eq_ok_iff.mp htest
        obtain rfl := Except.ok.inj htest
        simp [hmode]

/-- A compiled predicate has a test unless it has a pattern that is left to the engine. -/
theorem criterion_testsUnlessPattern (h : criterion catalog env record c = .ok p) :
    p.TestsUnlessPattern env.settings.like := by
  apply criterion_invariant (fun _ p => p.TestsUnlessPattern env.settings.like) (h := h)
  · exact fun record verdict => ⟨fun _ _ => Formula.not_hasPattern_constant verdict, fun _ => rfl⟩
  · exact fun record c p hp => hp.testsUnlessPattern
  · intro record path element link p _ hp
    show (Option.map _ p.test).isSome = true ↔
      (_ → ¬(Formula.any path _ link p.lambda.parameters p.lambda.body).HasPattern)
    rw [Option.isSome_map, Formula.hasPattern_any]
    exact hp
  · exact fun record p q hp hq => hp.and hq
  · exact fun record p q hp hq => hp.or hq
  · exact fun record p q hp hnegate => hp.negate hnegate

/-- A compiled predicate is delegated exactly when the mode leaves patterns to the query engine and
its lambda has one, and else it is evaluated. It is portable exactly when its lambda has neither a
pattern nor a collection without a link. Its lambda is lowered unless it has such a collection, and
the failure names one. -/
theorem delegation_and_portability (h : criterion catalog env record c = .ok p) :
    (env.settings.like = .engineOnly → (p.IsDelegated ↔ p.lambda.body.HasPattern) ∧
      (p.IsEvaluated ↔ ¬p.lambda.body.HasPattern)) ∧
    (env.settings.like ≠ .engineOnly → p.IsEvaluated) ∧
    (p.isPortable = true ↔
      ¬p.lambda.body.HasPattern ∧ ∀ path, ¬p.lambda.body.HasUnlinked path) ∧
    ((∀ path, ¬p.lambda.body.HasUnlinked path) →
      ∃ filter, Sql.lowerLambda p.lambda = .ok filter) ∧
    ∀ e, Sql.lowerLambda p.lambda = .error e →
      ∃ path, p.lambda.body.HasUnlinked path ∧ e = .unlinkedCollection path := by
  have htest : p.IsEvaluated ↔ (env.settings.like = .engineOnly → ¬p.lambda.body.HasPattern) :=
    Predicate.isEvaluated_iff.trans (criterion_testsUnlessPattern h)
  have herror (e : Sql.LowerError) (he : Sql.lowerLambda p.lambda = .error e) :
      ∃ path, p.lambda.body.HasUnlinked path ∧ e = .unlinkedCollection path :=
    Sql.lowerLambda_eq_error (criterion_typed h) he
  refine ⟨fun hmode => ?_, fun hmode => htest.mpr fun heq => absurd heq hmode, ?_, ?_, herror⟩
  · rw [Predicate.isDelegated_iff, htest]
    simp [hmode]
  · rw [Predicate.isPortable, Bool.and_eq_true, Lambda.isPortable, Formula.isPortable_iff]
    refine ⟨fun hp => hp.2, fun hp => ⟨?_, hp⟩⟩
    exact (criterion_testsUnlessPattern h).mpr fun _ => hp.1
  · intro hlinked
    cases hlower : Sql.lowerLambda p.lambda with
    | ok filter => exact ⟨filter, rfl⟩
    | error e =>
        obtain ⟨path, hunlinked, -⟩ := herror e hlower
        exact absurd hunlinked (hlinked path)

/-- Readers are left to the query engine for their pattern, but not readers whom nothing satisfies:
there the pattern is folded away. -/
theorem readers_are_delegated :
    ∃ p q, criterion Sample.catalog Sample.office .customer Sample.readers = .ok p ∧
      criterion Sample.catalog Sample.office .customer
        (.group .and [Sample.readers, .bare .isFalse]) = .ok q ∧
      p.IsDelegated ∧ ¬p.isPortable = true ∧ (∃ filter, Sql.lowerLambda p.lambda = .ok filter) ∧
      q.IsEvaluated ∧ q.isPortable = true := by
  obtain ⟨p, link, inner, name, pattern, sku, part, hp, hbody⟩ :
      ∃ p link inner name pattern sku part,
        criterion Sample.catalog Sample.office .customer Sample.readers = .ok p ∧
        p.lambda.body = .or [.pattern name pattern, .any "orders" "Order" (some link) ["Order"]
          (.any "lines" "LineItem" (some inner) ["LineItem"] (.text sku .startsWith part))] :=
    ⟨_, _, _, _, _, _, _, by with_unfolding_all rfl, rfl⟩
  obtain ⟨q, hq, hfalse⟩ : ∃ q, criterion Sample.catalog Sample.office .customer
      (.group .and [Sample.readers, .bare .isFalse]) = .ok q ∧
        q.lambda.body = .constant false :=
    ⟨_, by with_unfolding_all rfl, rfl⟩
  have hpattern : p.lambda.body.HasPattern := by simp [hbody]
  have hlinked (path : String) : ¬p.lambda.body.HasUnlinked path := by
    simp [hbody, Formula.HasUnlinked, Formula.subformulas, Formula.allSubformulas]
  have hnone : ¬q.lambda.body.HasPattern := by simp [hfalse]
  have hportable (path : String) : ¬q.lambda.body.HasUnlinked path := by
    simp [hfalse, Formula.HasUnlinked, Formula.subformulas]
  obtain ⟨hengine, -, hiff, hlowers, -⟩ := delegation_and_portability hp
  obtain ⟨hengine', -, hiff', -, -⟩ := delegation_and_portability hq
  exact ⟨p, q, hp, hq, (hengine rfl).1.mpr hpattern, fun h => (hiff.mp h).1 hpattern,
    hlowers hlinked, (hengine' rfl).2.mpr hnone, hiff'.mpr ⟨hnone, hportable⟩⟩

end Compile

end Selection
