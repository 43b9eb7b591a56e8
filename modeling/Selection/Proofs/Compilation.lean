import Selection.Compile.Basic
import Selection.Proofs.Except
import Selection.Proofs.Reading

/-! # How criteria compile

A successful compilation is taken apart once: by the family of its operator, with everything that
the compiler looked up, and with the predicates of the criteria inside it. An aggregate joins the
predicates of its parts from left to right.
-/

namespace Selection

/-- Induction on criteria, with a hypothesis for every criterion directly inside. -/
theorem Criterion.induction {motive : Criterion → Prop}
    (node : ∀ op field right value inner parts, (∀ c ∈ right, motive c) →
      (∀ c ∈ inner, motive c) → (∀ c ∈ parts, motive c) →
      motive (node op field right value inner parts)) (c : Criterion) : motive c := by
  refine @Criterion.rec motive (fun option => ∀ c ∈ option, motive c)
    (fun parts => ∀ c ∈ parts, motive c) node ?_ ?_ ?_ ?_ c
  · intro c hc
    contradiction
  · intro c hmotive c' hc'
    rw [← Option.mem_some.mp hc']
    exact hmotive
  · intro c hc
    exact absurd hc List.not_mem_nil
  · intro head tail hhead htail c hc
    rcases List.mem_cons.mp hc with rfl | hmem
    · exact hhead
    · exact htail c hmem

/-- The text test of an operator. -/
def Operator.textTest? : Operator → Option TextTest
  | contains => some .contains
  | startsWith => some .startsWith
  | endsWith => some .endsWith
  | _ => none

/-! ## Joining predicates -/

namespace Predicate

@[simp] theorem folded_lambda (l : Lambda) (test : Option (Record → Bool)) :
    (folded l test).lambda = l := by
  unfold folded
  split <;> rfl

@[simp] theorem and_lambda (p q : Predicate) : (p.and q).lambda = p.lambda.and q.lambda :=
  folded_lambda _ _

@[simp] theorem or_lambda (p q : Predicate) : (p.or q).lambda = p.lambda.or q.lambda :=
  folded_lambda _ _

/-- The negation of a predicate has the negation of its lambda and of its test. -/
theorem negate_eq_ok {p q : Predicate} (h : p.negate = .ok q) :
    ∃ l, p.lambda.negate = .ok l ∧ q = folded l (p.test.map fun test r => !test r) := by
  obtain ⟨l, hl, hq⟩ := bind_eq_ok_iff.mp h
  exact ⟨l, hl, (Except.ok.inj hq).symm⟩

end Predicate

/-! ## Compiling -/

namespace Compile

variable {ι : Type}

/-- The predicates of an aggregate's parts joined in their order, starting from the verdict that
changes nothing. -/
def joined (record : String) (conjunctive : Bool) (parts : List Predicate) : Predicate :=
  parts.foldl (if conjunctive then Predicate.and else Predicate.or) (.constant record conjunctive)

/-- The parts of an aggregate compiled in their order, the predicate of each joined to what there is
before it. -/
def joinParts (catalog : Catalog ι) (env : Environment) (record : ι)
    (join : Predicate → Predicate → Predicate) (start : Predicate) (parts : List Criterion) :
    Except CompileError Predicate :=
  parts.foldlM (fun p c => do return join p (← criterion catalog env record c)) start

/-- The verdict of a text test on a string; a part that is no string is nowhere in it. -/
def partHolds (test : TextTest) : Value → String → Bool
  | .string part => (test.holds · part)
  | _ => fun _ => false

/-- A predicate that a test of a field compiles to. -/
inductive Tested (catalog : Catalog ι) (env : Environment) (record : ι) (c : Criterion) :
    Predicate → Prop
  | comparison (op : Comparison) (field : FieldRef) (value : Value)
      (hop : c.operator.comparison? = some op)
      (hfield : scalarField catalog record c = .ok field)
      (hvalue : Operand.comparand env c field.path field.type = .ok value) :
      Tested catalog env record c
        ⟨.ofRecord (catalog record).name
          (.compare field op value (field.type.isTextual && op.isOrdering)),
          some (comparisonTest field.path op value)⟩
  | textTest (test : TextTest) (field : FieldRef) (part : Value)
      (hop : c.operator.textTest? = some test)
      (hfield : textField catalog record c = .ok field)
      (hpart : Operand.comparand env c field.path field.type = .ok part) :
      Tested catalog env record c
        ⟨.ofRecord (catalog record).name (.text field test part),
          some (textualTest field.path (partHolds test part))⟩
  | pattern (field : FieldRef) (pattern : Value) (test : Option (Record → Bool))
      (hop : c.operator = .like)
      (hfield : textField catalog record c = .ok field)
      (hpattern : Operand.comparand env c field.path field.type = .ok pattern)
      (htest : patternTest env.settings.like field.path pattern = .ok test) :
      Tested catalog env record c
        ⟨.ofRecord (catalog record).name (.pattern field pattern), test⟩

/-- A predicate that a criterion compiles to, one way for each family of operators. -/
inductive Compiled (catalog : Catalog ι) (env : Environment) (record : ι) (c : Criterion) :
    Predicate → Prop
  | fixed (verdict : Bool) (hop : c.operator = if verdict then .isTrue else .isFalse) :
      Compiled catalog env record c (.constant (catalog record).name verdict)
  | test (p : Predicate) (hp : Tested catalog env record c p) : Compiled catalog env record c p
  | any (name : String) (inner : Criterion) (element : ι) (link : Option Link) (p : Predicate)
      (hop : c.operator = .any) (hname : c.field = some name) (hinner : c.inner = some inner)
      (hcollection : collectionField catalog record name = .ok (element, link))
      (hp : criterion catalog env element inner = .ok p) :
      Compiled catalog env record c
        (quantifier (catalog record).name name (catalog element).name link p)
  | aggregate (ps : List Predicate) (hop : c.operator.isAggregate = true)
      (hnegated : c.operator.isNegated = false)
      (hps : List.Forall₂ (fun part p => criterion catalog env record part = .ok p) c.parts ps) :
      Compiled catalog env record c (joined (catalog record).name c.operator.isConjunctive ps)
  | negated (ps : List Predicate) (p : Predicate) (hop : c.operator.isAggregate = true)
      (hnegated : c.operator.isNegated = true)
      (hps : List.Forall₂ (fun part p => criterion catalog env record part = .ok p) c.parts ps)
      (hp : (joined (catalog record).name c.operator.isConjunctive ps).negate = .ok p) :
      Compiled catalog env record c p

variable {catalog : Catalog ι} {env : Environment} {record : ι}
  {join : Predicate → Predicate → Predicate}

/-- The first part is compiled and joined before the others are. -/
theorem joinParts_cons (start : Predicate) (c : Criterion) (rest : List Criterion) :
    joinParts catalog env record join start (c :: rest) =
      criterion catalog env record c >>= fun p =>
        joinParts catalog env record join (join start p) rest := by
  rw [joinParts, List.foldlM_cons]
  cases criterion catalog env record c <;> rfl

theorem conjunction_eq_joinParts (start : Predicate) (parts : List Criterion) :
    conjunction catalog env record start parts =
      joinParts catalog env record Predicate.and start parts := by
  induction parts generalizing start with
  | nil => rfl
  | cons c rest ih => simp only [conjunction, joinParts_cons, ih]

theorem disjunction_eq_joinParts (start : Predicate) (parts : List Criterion) :
    disjunction catalog env record start parts =
      joinParts catalog env record Predicate.or start parts := by
  induction parts generalizing start with
  | nil => rfl
  | cons c rest ih => simp only [disjunction, joinParts_cons, ih]

/-- The name of a field that is given is the one that is used. -/
theorem fieldName_eq_ok {op : Operator} {field : Option String} {name : String}
    (h : fieldName op field = .ok name) : field = some name := by
  cases field with
  | none => contradiction
  | some field => exact congrArg some (Except.ok.inj h)

/-- The field of a test is named by the criterion and resolves to a scalar of its type. -/
theorem scalarField_eq_ok {c : Criterion} {field : FieldRef}
    (h : scalarField catalog record c = .ok field) :
    c.field = some field.path ∧ catalog.resolve record field.path = .ok (.scalar field.type) := by
  obtain ⟨name, hname, h⟩ := bind_eq_ok_iff.mp h
  obtain ⟨resolution, hresolve, h⟩ := bind_eq_ok_iff.mp h
  cases resolution with
  | collection => contradiction
  | scalar type =>
      rw [← Except.ok.inj h]
      exact ⟨fieldName_eq_ok hname, hresolve⟩

/-- The field of a text test is a scalar field of a textual type. -/
theorem textField_eq_ok {c : Criterion} {field : FieldRef}
    (h : textField catalog record c = .ok field) :
    scalarField catalog record c = .ok field ∧ field.type.isTextual = true := by
  obtain ⟨found, hfound, h⟩ := bind_eq_ok_iff.mp h
  split at h
  next htext =>
    rw [← Except.ok.inj h]
    exact ⟨hfound, htext⟩
  next => contradiction

/-- The collection of a quantifier is what its path resolves to. -/
theorem collectionField_eq_ok {name : String} {element : ι} {link : Option Link}
    (h : collectionField catalog record name = .ok (element, link)) :
    catalog.resolve record name = .ok (.collection element link) := by
  obtain ⟨resolution, hresolve, h⟩ := bind_eq_ok_iff.mp h
  cases resolution with
  | scalar => contradiction
  | collection found keys =>
      obtain ⟨rfl, rfl⟩ := Prod.mk.inj (Except.ok.inj h)
      exact hresolve

/-- Parts that are joined are compiled each, and joined one after the other. -/
theorem joinParts_eq_ok {start p : Predicate} {parts : List Criterion}
    (h : joinParts catalog env record join start parts = .ok p) :
    ∃ ps, List.Forall₂ (fun c q => criterion catalog env record c = .ok q) parts ps ∧
      p = ps.foldl join start := by
  induction parts generalizing start with
  | nil => exact ⟨[], .nil, (Except.ok.inj h).symm⟩
  | cons c rest ih =>
      rw [joinParts_cons] at h
      obtain ⟨q, hq, hrest⟩ := bind_eq_ok_iff.mp h
      obtain ⟨ps, hps, hp⟩ := ih hrest
      exact ⟨q :: ps, .cons hq hps, hp⟩

/-- A comparison compiles to a predicate that tests its field. -/
theorem comparison_eq_ok {c : Criterion} {p : Predicate}
    (h : comparison catalog env record c = .ok p) : Tested catalog env record c p := by
  unfold comparison at h
  split at h
  next => contradiction
  next op hop =>
    obtain ⟨field, hfield, h⟩ := bind_eq_ok_iff.mp h
    obtain ⟨value, hvalue, h⟩ := bind_eq_ok_iff.mp h
    rw [← Except.ok.inj h]
    exact .comparison op field value hop hfield hvalue

/-- A text test compiles to a predicate that tests its field. -/
theorem textTest_eq_ok {test : TextTest} {c : Criterion} {p : Predicate}
    (hop : c.operator.textTest? = some test)
    (h : textTest catalog env record test c = .ok p) : Tested catalog env record c p := by
  obtain ⟨field, hfield, h⟩ := bind_eq_ok_iff.mp h
  obtain ⟨part, hpart, h⟩ := bind_eq_ok_iff.mp h
  rw [← Except.ok.inj h]
  exact .textTest test field part hop hfield hpart

/-- A pattern test compiles to a predicate that tests its field. -/
theorem patternMatch_eq_ok {c : Criterion} {p : Predicate} (hop : c.operator = .like)
    (h : patternMatch catalog env record c = .ok p) : Tested catalog env record c p := by
  obtain ⟨field, hfield, h⟩ := bind_eq_ok_iff.mp h
  obtain ⟨pattern, hpattern, h⟩ := bind_eq_ok_iff.mp h
  obtain ⟨test, htest, h⟩ := bind_eq_ok_iff.mp h
  rw [← Except.ok.inj h]
  exact .pattern field pattern test hop hfield hpattern htest

/-- Everything that a successful compilation can have done. -/
theorem compiled_of_ok {c : Criterion} {p : Predicate}
    (h : criterion catalog env record c = .ok p) : Compiled catalog env record c p := by
  obtain ⟨op, field, right, value, inner, parts⟩ := c
  cases op with
  | isTrue =>
      rw [← Except.ok.inj h]
      exact .fixed true rfl
  | isFalse =>
      rw [← Except.ok.inj h]
      exact .fixed false rfl
  | contains => exact .test p (textTest_eq_ok rfl h)
  | startsWith => exact .test p (textTest_eq_ok rfl h)
  | endsWith => exact .test p (textTest_eq_ok rfl h)
  | like => exact .test p (patternMatch_eq_ok rfl h)
  -- A quantifier compiles when its field is a collection and the criterion in it compiles for the
  -- elements.
  | any =>
      rw [criterion] at h
      obtain ⟨name, hname, h⟩ := bind_eq_ok_iff.mp h
      cases inner with
      | none => contradiction
      | some inner =>
          obtain ⟨⟨element, link⟩, hcollection, h⟩ := bind_eq_ok_iff.mp h
          obtain ⟨q, hq, h⟩ := bind_eq_ok_iff.mp h
          rw [← Except.ok.inj h]
          exact .any name inner element link q rfl (fieldName_eq_ok hname) rfl hcollection hq
  | and =>
      rw [criterion, conjunction_eq_joinParts] at h
      obtain ⟨ps, hps, rfl⟩ := joinParts_eq_ok h
      exact .aggregate ps rfl rfl hps
  | or =>
      rw [criterion, disjunction_eq_joinParts] at h
      obtain ⟨ps, hps, rfl⟩ := joinParts_eq_ok h
      exact .aggregate ps rfl rfl hps
  -- The negated aggregates compile as the plain ones do and are negated after that.
  | nand =>
      rw [criterion, conjunction_eq_joinParts] at h
      obtain ⟨q, hq, h⟩ := bind_eq_ok_iff.mp h
      obtain ⟨ps, hps, rfl⟩ := joinParts_eq_ok hq
      exact .negated ps p rfl rfl hps h
  | nor =>
      rw [criterion, disjunction_eq_joinParts] at h
      obtain ⟨q, hq, h⟩ := bind_eq_ok_iff.mp h
      obtain ⟨ps, hps, rfl⟩ := joinParts_eq_ok hq
      exact .negated ps p rfl rfl hps h
  | equal => exact .test p (comparison_eq_ok h)
  | notEqual => exact .test p (comparison_eq_ok h)
  | lessThan => exact .test p (comparison_eq_ok h)
  | lessThanOrEqual => exact .test p (comparison_eq_ok h)
  | greaterThan => exact .test p (comparison_eq_ok h)
  | greaterThanOrEqual => exact .test p (comparison_eq_ok h)
  | constant => contradiction
  | add => contradiction

/-! ## Invariants -/

/-- What holds of fixed verdicts and of tests, and is kept by joining, negating and quantifying,
holds of every compiled predicate. -/
theorem criterion_invariant (invariant : ι → Predicate → Prop)
    (hfixed : ∀ record verdict, invariant record (.constant (catalog record).name verdict))
    (htest : ∀ record c p, Tested catalog env record c p → invariant record p)
    (hany : ∀ record path element link p,
      collectionField catalog record path = .ok (element, link) → invariant element p →
      invariant record (quantifier (catalog record).name path (catalog element).name link p))
    (hand : ∀ record p q, invariant record p → invariant record q → invariant record (p.and q))
    (hor : ∀ record p q, invariant record p → invariant record q → invariant record (p.or q))
    (hnegate : ∀ record p q, invariant record p → p.negate = .ok q → invariant record q)
    {c : Criterion} {p : Predicate} (h : criterion catalog env record c = .ok p) :
    invariant record p := by
  -- Joining starts from a fixed verdict, so that an aggregate without parts is covered as well.
  have hjoined (record : ι) (conjunctive : Bool) (ps : List Predicate)
      (hps : ∀ p ∈ ps, invariant record p) :
      invariant record (joined (catalog record).name conjunctive ps) := by
    apply List.foldlRecOn ps _ (hfixed record conjunctive)
    intro p hp q hq
    cases conjunctive with
    | true => exact hand record p q hp (hps q hq)
    | false => exact hor record p q hp (hps q hq)
  induction c using Criterion.induction generalizing record p with
  | node op field right value inner parts _ ihInner ihParts =>
      have hparts (ps : List Predicate)
          (hps : List.Forall₂ (fun c p => criterion catalog env record c = .ok p) parts ps) :
          ∀ p ∈ ps, invariant record p := by
        intro p hp
        obtain ⟨c, hc, hcp⟩ := exists_of_mem_outcomes hps hp
        exact ihParts c hc hcp
      cases compiled_of_ok h with
      | fixed verdict hop => exact hfixed record verdict
      | test p hp => exact htest record _ p hp
      | any path criterion element link q hop hname hinner hcollection hq =>
          exact hany record path element link q hcollection (ihInner criterion hinner hq)
      | aggregate ps hop hnegated hps => exact hjoined record _ ps (hparts ps hps)
      | negated ps p hop hnegated hps hp =>
          exact hnegate record _ p (hjoined record _ ps (hparts ps hps)) hp

/-- A compiled lambda has one parameter, of the record type that it is compiled for. -/
theorem criterion_parameters {c : Criterion} {p : Predicate}
    (h : criterion catalog env record c = .ok p) :
    p.lambda.parameters = [(catalog record).name] := by
  apply criterion_invariant (fun record p => p.lambda.parameters = [(catalog record).name])
    (h := h)
  · intro record verdict
    rfl
  · rintro record c p (_ | _ | _) <;> rfl
  · intro record path element link p _ _
    rfl
  · intro record p q hp _
    rw [Predicate.and_lambda]
    exact hp
  · intro record p q hp _
    rw [Predicate.or_lambda]
    exact hp
  · intro record p q hp hnegate
    obtain ⟨l, hl, rfl⟩ := Predicate.negate_eq_ok hnegate
    obtain ⟨_, rfl⟩ := Lambda.negate_eq_ok hl
    rw [Predicate.folded_lambda]
    exact hp

end Compile

end Selection
