import Selection.Proofs.Compilation
import Selection.Sample.Criteria

/-! # Predicates decide as their lambdas read

A predicate carries a lambda and, unless the query engine alone can decide, a test in memory. The
two are built side by side, by every way of compiling and again by every way of combining, and where
a lambda folds to a constant its test is replaced. They agree all the same: a test decides on every
record as the lambda reads, and a constant lambda has a test.
-/

namespace Selection

/-- Whether a pattern, if it is valid, matches the whole of a text in memory. -/
def Pattern.matchesText (ignoreCase : Bool) (pattern text : String) : Bool :=
  match read pattern.toList with
  | .ok p => p.accepts ignoreCase text.toList
  | .error _ => false

/-- The mode evaluates patterns in memory as `like` tells. The mode that evaluates none of them says
nothing about `like`. -/
def LikeMode.Evaluates (like : String → String → Bool) : LikeMode → Prop
  | engineOnly => True
  | ignoringCase => like = Pattern.matchesText true
  | caseSensitive => like = Pattern.matchesText false

/-- Every mode has a meaning of patterns. -/
theorem LikeMode.exists_evaluates (mode : LikeMode) : ∃ like, mode.Evaluates like := by
  cases mode with
  | engineOnly => exact ⟨fun _ _ => false, trivial⟩
  | ignoringCase => exact ⟨_, rfl⟩
  | caseSensitive => exact ⟨_, rfl⟩

namespace Predicate

/-- A predicate compiled with a mode for patterns, or combined from such predicates. -/
inductive Derived (mode : LikeMode) : Predicate → Prop
  | compiled {ι : Type} {catalog : Catalog ι} {env : Environment} {record : ι} {c : Criterion}
      {p : Predicate} (hmode : env.settings.like = mode)
      (h : Compile.criterion catalog env record c = .ok p) : Derived mode p
  | and {p q : Predicate} (hp : Derived mode p) (hq : Derived mode q) : Derived mode (p.and q)
  | or {p q : Predicate} (hp : Derived mode p) (hq : Derived mode q) : Derived mode (p.or q)
  | negate {p q : Predicate} (hp : Derived mode p) (h : p.negate = .ok q) : Derived mode q

/-- The test of a predicate, if there is one, decides as the lambda reads. -/
def Agrees (mode : LikeMode) (l : Lambda) (test : Option (Record → Bool)) : Prop :=
  ∀ decide, test = some decide → ∀ like, mode.Evaluates like → ∀ r, decide r = l.holds like r

/-- What combining predicates preserves: the test agrees with the lambda, and a constant lambda has
a test. -/
structure Consistent (mode : LikeMode) (p : Predicate) : Prop where
  agrees : Agrees mode p.lambda p.test
  tested : ∀ verdict, p.lambda.body = .constant verdict → p.test.isSome

variable {mode : LikeMode}

/-! ## What one step preserves -/

theorem Consistent.folded {l : Lambda} {test : Option (Record → Bool)} (h : Agrees mode l test) :
    Consistent mode (folded l test) := by
  unfold Predicate.folded
  split
  next verdict hverdict =>
    -- The verdict of the constant takes the place of the test, which may even be missing.
    refine ⟨?_, fun _ _ => rfl⟩
    intro decide hdecide like _ r
    rw [← Option.some.inj hdecide, Lambda.holds, Formula.constant?_eq_some_iff.mp hverdict]
    rfl
  next hnone =>
    refine ⟨h, ?_⟩
    intro verdict hbody
    rw [Formula.constant?_eq_some_iff.mpr hbody] at hnone
    contradiction

theorem Consistent.and {p q : Predicate} (hp : Consistent mode p) (hq : Consistent mode q) :
    Consistent mode (p.and q) := by
  apply Consistent.folded
  intro decide hdecide like hlike r
  obtain ⟨left, hleft, hdecide⟩ := Option.bind_eq_some_iff.mp hdecide
  obtain ⟨right, hright, hdecide⟩ := Option.bind_eq_some_iff.mp hdecide
  rw [← Option.some.inj hdecide]
  show (left r && right r) = _
  rw [Lambda.holds_and, hp.agrees left hleft like hlike r, hq.agrees right hright like hlike r]

theorem Consistent.or {p q : Predicate} (hp : Consistent mode p) (hq : Consistent mode q) :
    Consistent mode (p.or q) := by
  apply Consistent.folded
  intro decide hdecide like hlike r
  obtain ⟨left, hleft, hdecide⟩ := Option.bind_eq_some_iff.mp hdecide
  obtain ⟨right, hright, hdecide⟩ := Option.bind_eq_some_iff.mp hdecide
  rw [← Option.some.inj hdecide]
  show (left r || right r) = _
  rw [Lambda.holds_or, hp.agrees left hleft like hlike r, hq.agrees right hright like hlike r]

theorem Consistent.negate {p q : Predicate} (hp : Consistent mode p) (h : p.negate = .ok q) :
    Consistent mode q := by
  obtain ⟨l, hl, rfl⟩ := negate_eq_ok h
  apply Consistent.folded
  intro decide hdecide like hlike r
  obtain ⟨inner, hinner, rfl⟩ := Option.map_eq_some_iff.mp hdecide
  show (!inner r) = _
  rw [Lambda.holds_negate hl, hp.agrees inner hinner like hlike r]

theorem Consistent.constant (record : String) (verdict : Bool) :
    Consistent mode (constant record verdict) := by
  refine ⟨?_, fun _ _ => rfl⟩
  intro decide hdecide like _ r
  rw [← Option.some.inj hdecide]
  rfl

/-- A quantifier asks the elements that its lambda asks, also when they are reached through nested
records. -/
theorem Consistent.quantifier {record path element : String} {link : Option Link} {p : Predicate}
    (hp : Consistent mode p) : Consistent mode (Compile.quantifier record path element link p) := by
  refine ⟨?_, fun _ h => Formula.noConfusion h⟩
  intro decide hdecide like hlike r
  obtain ⟨inner, hinner, rfl⟩ := Option.map_eq_some_iff.mp hdecide
  -- The test of the elements is the reading as a function, so both ask the same elements alike.
  have hread : inner = fun e => p.lambda.body.holds like e :=
    funext fun e => hp.agrees inner hinner like hlike e
  rw [hread]
  rfl

/-- The test of a text reads the value at the end of its path as the lambda does. -/
theorem textualTest_eq {field : FieldRef} {test : TextTest} {part : Value}
    {like : String → String → Bool} {r : Record} :
    Compile.textualTest field.path (Compile.partHolds test part) r =
      (Formula.text field test part).holds like r := by
  unfold Compile.textualTest
  cases hvalue : r.value? field.path with
  | none => simp [Formula.holds, hvalue]
  | some v => cases v <;> cases part <;> simp [Formula.holds, hvalue, Compile.partHolds]

/-- The test of a pattern that is valid reads the value at the end of its path as the lambda
does. -/
theorem patternTest_eq {field : FieldRef} {pattern : Value} {ignoreCase : Bool}
    {decide : String → Bool} {r : Record}
    (hdecide : Compile.patternHolds ignoreCase pattern = .ok decide) :
    Compile.textualTest field.path decide r =
      (Formula.pattern field pattern).holds (Pattern.matchesText ignoreCase) r := by
  unfold Compile.textualTest
  cases hvalue : r.value? field.path with
  | none => simp [Formula.holds, hvalue]
  | some v =>
      unfold Compile.patternHolds at hdecide
      split at hdecide
      next wanted =>
        split at hdecide
        next p hread =>
          rw [← Except.ok.inj hdecide]
          cases v <;> simp [Formula.holds, hvalue, Pattern.matchesText, hread]
        next => contradiction
      next hnone =>
        rw [← Except.ok.inj hdecide]
        cases v <;> cases pattern <;> first
          | exact absurd rfl (hnone _)
          | simp [Formula.holds, hvalue]

/-- The test of a pattern agrees with the lambda in the meaning of the mode. -/
theorem patternTest_agrees {record : String} {field : FieldRef} {pattern : Value}
    {test : Option (Record → Bool)} (h : Compile.patternTest mode field.path pattern = .ok test) :
    Agrees mode (.ofRecord record (.pattern field pattern)) test := by
  rintro decide rfl like hlike r
  cases mode with
  | engineOnly => cases h
  | ignoringCase =>
      obtain ⟨verdict, hverdict, htest⟩ := bind_eq_ok_iff.mp h
      obtain rfl := Option.some.inj (Except.ok.inj htest)
      obtain rfl := hlike
      exact patternTest_eq hverdict
  | caseSensitive =>
      obtain ⟨verdict, hverdict, htest⟩ := bind_eq_ok_iff.mp h
      obtain rfl := Option.some.inj (Except.ok.inj htest)
      obtain rfl := hlike
      exact patternTest_eq hverdict

/-- The predicate of a test of a field is consistent. -/
theorem Consistent.test {ι : Type} {catalog : Catalog ι} {env : Environment} {record : ι}
    {c : Criterion} {p : Predicate} (h : Compile.Tested catalog env record c p) :
    Consistent env.settings.like p := by
  cases h with
  | comparison op field value _ _ _ =>
      refine ⟨?_, fun _ h => Formula.noConfusion h⟩
      rintro decide ⟨⟩ like _ r
      rfl
  | textTest test field part _ _ _ =>
      refine ⟨?_, fun _ h => Formula.noConfusion h⟩
      rintro decide ⟨⟩ like _ r
      exact textualTest_eq
  | pattern field pattern test _ _ _ htest =>
      refine ⟨?_, fun _ h => Formula.noConfusion h⟩
      exact patternTest_agrees htest

/-! ## What all predicates have -/

/-- Every compiled predicate is consistent. -/
theorem Consistent.compiled {ι : Type} {catalog : Catalog ι} {env : Environment} {record : ι}
    {c : Criterion} {p : Predicate} (h : Compile.criterion catalog env record c = .ok p) :
    Consistent env.settings.like p := by
  apply Compile.criterion_invariant (fun _ p => Consistent env.settings.like p) (h := h)
  · intro record verdict
    exact .constant _ verdict
  · intro record c p hp
    exact .test hp
  · intro record path element link p _ hp
    exact hp.quantifier
  · intro record p q hp hq
    exact hp.and hq
  · intro record p q hp hq
    exact hp.or hq
  · intro record p q hp hnegate
    exact hp.negate hnegate

/-- Every predicate that is derived from compiled ones is consistent. -/
theorem Derived.consistent {p : Predicate} (h : Derived mode p) : Consistent mode p := by
  induction h with
  | compiled hmode h =>
      rw [← hmode]
      exact .compiled h
  | and _ _ ihp ihq => exact ihp.and ihq
  | or _ _ ihp ihq => exact ihp.or ihq
  | negate _ hnegate ih => exact ih.negate hnegate

/-- A predicate that is evaluated in memory gives the reading of its lambda on every record, and one
whose lambda is a constant is evaluated to that constant. -/
theorem Derived.evaluate_eq_reading {p : Predicate} (h : Derived mode p) :
    (∀ test, p.test = some test → ∀ like, mode.Evaluates like →
      ∀ r, p.evaluate r = .ok (p.lambda.holds like r)) ∧
      ∀ verdict, p.lambda.body = .constant verdict →
        p.test.isSome ∧ ∀ r, p.evaluate r = .ok verdict := by
  have hp := h.consistent
  have hevaluate (test : Record → Bool) (htest : p.test = some test)
      (like : String → String → Bool) (hlike : mode.Evaluates like) (r : Record) :
      p.evaluate r = .ok (p.lambda.holds like r) := by
    rw [evaluate, htest]
    exact congrArg Except.ok (hp.agrees test htest like hlike r)
  refine ⟨hevaluate, ?_⟩
  intro verdict hbody
  have hsome := hp.tested verdict hbody
  obtain ⟨test, htest⟩ := Option.isSome_iff_exists.mp hsome
  obtain ⟨like, hlike⟩ := mode.exists_evaluates
  refine ⟨hsome, fun r => ?_⟩
  rw [hevaluate test htest like hlike r, Lambda.holds, hbody]
  rfl

/-- Readers are evaluated in memory, pattern and all, also when negated. With a false verdict the
lambda is a constant, and the predicate is evaluated to it. -/
theorem readers_are_evaluated :
    ∃ p q, Compile.criterion Sample.catalog Sample.archive .customer Sample.readers = .ok p ∧
      p.negate = .ok q ∧
      q.evaluate Sample.grace.toRecord =
        .ok (q.lambda.holds (Pattern.matchesText false) Sample.grace.toRecord) ∧
      (p.and (constant "Customer" false)).evaluate Sample.ada.toRecord = .ok false := by
  obtain ⟨p, hp, q, hq, test, htest, hfalse⟩ :
      ∃ p, Compile.criterion Sample.catalog Sample.archive .customer Sample.readers = .ok p ∧
        ∃ q, p.negate = .ok q ∧ ∃ test, q.test = some test ∧
          (p.and (constant "Customer" false)).lambda.body = .constant false := by
    refine ⟨_, by with_unfolding_all rfl, ?_⟩
    exact ⟨_, rfl, _, rfl, rfl⟩
  have hreaders : Derived .caseSensitive p := .compiled rfl hp
  have hnone : Compile.criterion Sample.catalog Sample.archive .customer (.bare .isFalse) =
      .ok (constant "Customer" false) := rfl
  refine ⟨p, q, hp, hq, ?_, ?_⟩
  · exact (Derived.evaluate_eq_reading (.negate hreaders hq)).1 test htest _ rfl _
  · exact ((Derived.evaluate_eq_reading (.and hreaders (.compiled rfl hnone))).2 false hfalse).2 _

end Predicate

end Selection
