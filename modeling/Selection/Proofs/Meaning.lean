import Mathlib.Data.List.Forall2
import Selection.Proofs.Compilation
import Selection.Proofs.Path
import Selection.Sample.Criteria

/-! # The meaning of criteria

A criterion means a property of records, told by its tree alone: aggregates ask for all or some of
their criteria, a quantifier for an element of a collection, and every other operator for the value
at the end of a path. A path that crosses an absent nested record has no such value. The lambda that
a criterion compiles to reads as that property, whatever patterns match.
-/

namespace Selection

/-- Whether an operator accepts the value of a field with its operand; `like` tells whether a
pattern matches a text. -/
def Operator.admits (like : String → String → Bool) : Operator → Value → Value → Bool
  | .equal, v, w => Comparison.eq.evaluate v w
  | .notEqual, v, w => Comparison.ne.evaluate v w
  | .lessThan, v, w => Comparison.lt.evaluate v w
  | .lessThanOrEqual, v, w => Comparison.le.evaluate v w
  | .greaterThan, v, w => Comparison.gt.evaluate v w
  | .greaterThanOrEqual, v, w => Comparison.ge.evaluate v w
  | .contains, .string s, .string part => TextTest.contains.holds s part
  | .startsWith, .string s, .string part => TextTest.startsWith.holds s part
  | .endsWith, .string s, .string part => TextTest.endsWith.holds s part
  | .like, .string s, .string wanted => like wanted s
  | _, _, _ => false

namespace Criterion

variable {ι : Type}

/-- A test accepts a record when its path leads to a scalar through nested records that are present
and the operator accepts the value there with the operand. -/
def TestAccepts (catalog : Catalog ι) (env : Environment) (like : String → String → Bool)
    (record : ι) (r : Record) (c : Criterion) : Prop :=
  ∃ path type operand holder name,
    c.field = some path ∧ catalog.resolve record path = .ok (.scalar type) ∧
      Operand.comparand env c path type = .ok operand ∧ r.EndsAt path holder name ∧
      c.operator.admits like (holder.value name) operand = true

mutual

/-- A criterion, taken for a record type of a catalog, accepts a record of that type. -/
def Accepts (catalog : Catalog ι) (env : Environment) (like : String → String → Bool) (record : ι)
    (r : Record) : Criterion → Prop
  | node op field right value inner parts =>
    match op with
    | .isTrue => True
    | .isFalse => False
    | .and => AllAccept catalog env like record r parts
    | .or => SomeAccepts catalog env like record r parts
    | .nand => ¬ AllAccept catalog env like record r parts
    | .nor => ¬ SomeAccepts catalog env like record r parts
    | .any =>
      ∃ path element link holder name,
        field = some path ∧ catalog.resolve record path = .ok (.collection element link) ∧
          r.EndsAt path holder name ∧
          ∃ e ∈ holder.collection name, InnerAccepts catalog env like element e inner
    | op => TestAccepts catalog env like record r (node op field right value inner parts)

/-- All of some criteria accept a record. -/
def AllAccept (catalog : Catalog ι) (env : Environment) (like : String → String → Bool)
    (record : ι) (r : Record) : List Criterion → Prop
  | [] => True
  | c :: rest =>
    Accepts catalog env like record r c ∧ AllAccept catalog env like record r rest

/-- One of some criteria accepts a record. -/
def SomeAccepts (catalog : Catalog ι) (env : Environment) (like : String → String → Bool)
    (record : ι) (r : Record) : List Criterion → Prop
  | [] => False
  | c :: rest =>
    Accepts catalog env like record r c ∨ SomeAccepts catalog env like record r rest

/-- The criterion of a quantifier is there and accepts a record. -/
def InnerAccepts (catalog : Catalog ι) (env : Environment) (like : String → String → Bool)
    (record : ι) (r : Record) : Option Criterion → Prop
  | none => False
  | some c => Accepts catalog env like record r c

end

variable {catalog : Catalog ι} {env : Environment} {like : String → String → Bool} {record : ι}
  {r : Record}

theorem accepts_comparison {c : Criterion} {op : Comparison}
    (hop : c.operator.comparison? = some op) :
    Accepts catalog env like record r c ↔ TestAccepts catalog env like record r c := by
  obtain ⟨operator, field, right, value, inner, parts⟩ := c
  cases operator <;> first | contradiction | rfl

theorem accepts_textTest {c : Criterion} {test : TextTest}
    (hop : c.operator.textTest? = some test) :
    Accepts catalog env like record r c ↔ TestAccepts catalog env like record r c := by
  obtain ⟨operator, field, right, value, inner, parts⟩ := c
  cases operator <;> first | contradiction | rfl

theorem accepts_pattern {c : Criterion} (hop : c.operator = .like) :
    Accepts catalog env like record r c ↔ TestAccepts catalog env like record r c := by
  obtain ⟨operator, field, right, value, inner, parts⟩ := c
  cases hop
  rfl

end Criterion

theorem Operator.admits_comparison {like : String → String → Bool} {operator : Operator}
    {op : Comparison} (hop : operator.comparison? = some op) (v w : Value) :
    operator.admits like v w = op.evaluate v w := by
  cases operator <;> first | contradiction | (cases hop; rfl)

theorem Operator.admits_textTest {like : String → String → Bool} {operator : Operator}
    {test : TextTest} (hop : operator.textTest? = some test) (v w : Value) :
    operator.admits like v w =
      match v, w with
      | .string s, .string part => test.holds s part
      | _, _ => false := by
  cases operator <;> first | contradiction | (cases hop; cases v <;> cases w <;> rfl)

/-! ## Lambdas of compiled criteria -/

namespace Compile

variable {ι : Type} {catalog : Catalog ι} {env : Environment} {like : String → String → Bool}
  {record : ι}

theorem foldl_and_holds (start : Predicate) (ps : List Predicate) (r : Record) :
    (ps.foldl Predicate.and start).lambda.holds like r =
      (start.lambda.holds like r && ps.all (·.lambda.holds like r)) := by
  induction ps generalizing start with
  | nil => simp
  | cons p rest ih =>
      rw [List.foldl_cons, ih, Predicate.and_lambda, Lambda.holds_and, List.all_cons,
        Bool.and_assoc]

theorem foldl_or_holds (start : Predicate) (ps : List Predicate) (r : Record) :
    (ps.foldl Predicate.or start).lambda.holds like r =
      (start.lambda.holds like r || ps.any (·.lambda.holds like r)) := by
  induction ps generalizing start with
  | nil => simp
  | cons p rest ih =>
      rw [List.foldl_cons, ih, Predicate.or_lambda, Lambda.holds_or, List.any_cons,
        Bool.or_assoc]

/-- An aggregate reads as all or as some of its parts, of which there may be none. -/
theorem joined_holds (name : String) (conjunctive : Bool) (ps : List Predicate) (r : Record) :
    (joined name conjunctive ps).lambda.holds like r =
      if conjunctive then ps.all (·.lambda.holds like r) else ps.any (·.lambda.holds like r) := by
  cases conjunctive with
  | true => exact foldl_and_holds _ ps r
  | false => exact foldl_or_holds _ ps r

/-- A test reads as asking the operator for the value at the end of its path. -/
theorem testAccepts_iff {c : Criterion} {field : FieldRef} {operand : Value} {r : Record}
    (hfield : scalarField catalog record c = .ok field)
    (hoperand : Operand.comparand env c field.path field.type = .ok operand) :
    c.TestAccepts catalog env like record r ↔
      ∃ v, r.value? field.path = some v ∧ c.operator.admits like v operand = true := by
  obtain ⟨hname, hresolve⟩ := scalarField_eq_ok hfield
  constructor
  · rintro ⟨path, type, operand', holder, name, hpath, htype, hcomparand, hends, hadmits⟩
    obtain rfl : field.path = path := Option.some.inj (hname.symm.trans hpath)
    obtain rfl : field.type = type :=
      Resolution.scalar.inj (Except.ok.inj (hresolve.symm.trans htype))
    obtain rfl : operand = operand' := Except.ok.inj (hoperand.symm.trans hcomparand)
    exact ⟨_, Record.value?_eq_some_iff.mpr ⟨holder, name, hends, rfl⟩, hadmits⟩
  · rintro ⟨v, hvalue, hadmits⟩
    obtain ⟨holder, name, hends, rfl⟩ := Record.value?_eq_some_iff.mp hvalue
    exact ⟨field.path, field.type, operand, holder, name, hname, hresolve, hoperand, hends,
      hadmits⟩

/-- A comparison holds of a record that has a value there which compares so. -/
theorem comparison_holds_iff {field : FieldRef} {op : Comparison} {value : Value} {lexical : Bool}
    {r : Record} :
    (Formula.compare field op value lexical).holds like r = true ↔
      ∃ v, r.value? field.path = some v ∧ op.evaluate v value = true := by
  rw [Formula.holds]
  cases r.value? field.path <;> simp

/-- A text test holds of a record that has a text there which passes it. -/
theorem textTest_holds_iff {field : FieldRef} {test : TextTest} {part : Value} {r : Record} :
    (Formula.text field test part).holds like r = true ↔
      ∃ v, r.value? field.path = some v ∧
        (match v, part with
          | .string s, .string part => test.holds s part
          | _, _ => false) = true := by
  cases hvalue : r.value? field.path with
  | none => simp [Formula.holds, hvalue]
  | some v => cases v <;> cases part <;> simp [Formula.holds, hvalue]

/-- A pattern test holds of a record that has a text there which the pattern matches. -/
theorem pattern_holds_iff {field : FieldRef} {pattern : Value} {r : Record} :
    (Formula.pattern field pattern).holds like r = true ↔
      ∃ v, r.value? field.path = some v ∧ Operator.like.admits like v pattern = true := by
  cases hvalue : r.value? field.path with
  | none => simp [Formula.holds, hvalue]
  | some v => cases v <;> cases pattern <;> simp [Formula.holds, Operator.admits, hvalue]

/-- The predicates of an aggregate's parts are joined as the aggregate asks for the parts. -/
theorem joined_holds_iff {name : String} {conjunctive : Bool} {parts : List Criterion}
    {ps : List Predicate} {r : Record}
    (hparts : List.Forall₂
      (fun c p => p.lambda.holds like r = true ↔ c.Accepts catalog env like record r) parts ps) :
    (joined name conjunctive ps).lambda.holds like r = true ↔
      if conjunctive then Criterion.AllAccept catalog env like record r parts
      else Criterion.SomeAccepts catalog env like record r parts := by
  rw [joined_holds]
  cases conjunctive with
  | true =>
      simp only [↓reduceIte]
      induction hparts with
      | nil => simp [Criterion.AllAccept]
      | cons hhead _ ih => simp [Criterion.AllAccept, hhead, ih]
  | false =>
      simp only [Bool.false_eq_true, ↓reduceIte]
      induction hparts with
      | nil => simp [Criterion.SomeAccepts]
      | cons hhead _ ih => simp [Criterion.SomeAccepts, hhead, ih]

/-- A quantifier holds of a record that has an element there of which its predicate holds. -/
theorem quantifier_holds_iff {name path element : String} {link : Option Link} {p : Predicate}
    {r : Record} :
    (quantifier name path element link p).lambda.holds like r = true ↔
      ∃ holder last, r.EndsAt path holder last ∧
        ∃ e ∈ holder.collection last, p.lambda.holds like e = true := by
  constructor
  · intro h
    cases helements : r.elements? path with
    | none => simp [quantifier, Lambda.holds, Lambda.ofRecord, Formula.holds, helements] at h
    | some elements =>
        obtain ⟨holder, last, hends, rfl⟩ := Record.elements?_eq_some_iff.mp helements
        refine ⟨holder, last, hends, ?_⟩
        simpa [quantifier, Lambda.holds, Lambda.ofRecord, Formula.holds, helements] using h
  · rintro ⟨holder, last, hends, helement⟩
    have helements := Record.elements?_eq_some_iff.mpr ⟨holder, last, hends, rfl⟩
    simpa [quantifier, Lambda.holds, Lambda.ofRecord, Formula.holds, helements] using helement

/-- The predicate of a test of a field holds of the records that the criterion accepts. -/
theorem tested_holds_iff {c : Criterion} {p : Predicate} (h : Tested catalog env record c p)
    (r : Record) : p.lambda.holds like r = true ↔ c.Accepts catalog env like record r := by
  cases h with
  | comparison op field operand hop hfield hoperand =>
      rw [Criterion.accepts_comparison hop, testAccepts_iff hfield hoperand]
      simp only [Operator.admits_comparison hop]
      exact comparison_holds_iff
  | textTest test field part hop hfield hpart =>
      have hscalar := (textField_eq_ok hfield).1
      rw [Criterion.accepts_textTest hop, testAccepts_iff hscalar hpart]
      simp only [Operator.admits_textTest hop]
      exact textTest_holds_iff
  | pattern field pattern test hop hfield hpattern htest =>
      have hscalar := (textField_eq_ok hfield).1
      rw [Criterion.accepts_pattern hop, testAccepts_iff hscalar hpattern, hop]
      exact pattern_holds_iff

/-- A quantifier is accepted as it reads when its inner criterion is, for the element type that its
collection resolves to. -/
theorem quantifier_accepts_iff {path : String} {right : Option Criterion} {value : Option Value}
    {inner : Criterion} {parts : List Criterion} {element : ι} {link : Option Link}
    {p : Predicate} (hcollection : collectionField catalog record path = .ok (element, link))
    (hinner : ∀ e, p.lambda.holds like e = true ↔ inner.Accepts catalog env like element e)
    (r : Record) :
    (quantifier (catalog record).name path (catalog element).name link p).lambda.holds like r =
        true ↔
      (Criterion.node .any (some path) right value (some inner) parts).Accepts catalog env like
        record r := by
  have hresolve := collectionField_eq_ok hcollection
  rw [quantifier_holds_iff]
  constructor
  · rintro ⟨holder, last, hends, e, he, hholds⟩
    exact ⟨path, element, link, holder, last, rfl, hresolve, hends, e, he, (hinner e).mp hholds⟩
  · rintro ⟨path', element', link', holder, last, hpath, hresolve', hends, e, he, haccepts⟩
    -- The path of the criterion and what it resolves to are those that were compiled.
    obtain rfl : path = path' := Option.some.inj hpath
    have hsame := Except.ok.inj (hresolve.symm.trans hresolve')
    obtain ⟨rfl, rfl⟩ := Resolution.collection.inj hsame
    exact ⟨holder, last, hends, e, he, (hinner e).mpr haccepts⟩

/-- A compiled predicate holds of the records that the criterion accepts. -/
theorem criterion_holds_iff {c : Criterion} {p : Predicate}
    (h : criterion catalog env record c = .ok p) (r : Record) :
    p.lambda.holds like r = true ↔ c.Accepts catalog env like record r := by
  induction c using Criterion.induction generalizing record p r with
  | node op field right value inner parts _ ihInner ihParts =>
      -- What the hypothesis says of each part, for the list of predicates that they compile to.
      have hparts (ps : List Predicate)
          (hps : List.Forall₂ (fun c p => criterion catalog env record c = .ok p) parts ps) :
          List.Forall₂ (fun c p => p.lambda.holds like r = true ↔
            c.Accepts catalog env like record r) parts ps :=
        ((List.forall₂_and_left _ _).mpr ⟨@ihParts, hps⟩).imp fun _ _ hpart => hpart.1 hpart.2 r
      cases compiled_of_ok h with
      | fixed verdict hop =>
          cases verdict <;> cases hop <;>
            simp [Lambda.holds, Criterion.Accepts, Predicate.constant, Lambda.ofRecord]
      | test p hp => exact tested_holds_iff hp r
      | any path criterion element link q hop hname hinner hcollection hq =>
          cases hop
          cases hname
          cases hinner
          exact quantifier_accepts_iff hcollection (fun e => ihInner criterion rfl hq e) r
      | aggregate ps hop hnegated hps =>
          cases op <;> first | contradiction | exact joined_holds_iff (hparts ps hps)
      | negated ps p hop hnegated hps hp =>
          obtain ⟨l, hl, rfl⟩ := Predicate.negate_eq_ok hp
          rw [Predicate.folded_lambda, Lambda.holds_negate hl, Bool.not_eq_true',
            ← Bool.not_eq_true, joined_holds_iff (hparts ps hps)]
          cases op <;> first | contradiction | rfl

/-- The lambda of a compiled criterion reads on every record as the criterion means it, and joining
and negating lambdas, with all the folding this does, joins and negates what they mean. -/
theorem compiled_lambda_means_criterion {c : Criterion} {p : Predicate}
    (h : criterion catalog env record c = .ok p) :
    (∀ r, p.lambda.holds like r = true ↔ c.Accepts catalog env like record r) ∧
      ∀ (l m : Lambda) (r : Record),
        (l.and m).holds like r = (l.holds like r && m.holds like r) ∧
          (l.or m).holds like r = (l.holds like r || m.holds like r) ∧
          (l.arity = 1 → ∃ n, l.negate = .ok n ∧ n.holds like r = !l.holds like r) := by
  refine ⟨criterion_holds_iff h, fun l m r => ⟨Lambda.holds_and l m, Lambda.holds_or l m, ?_⟩⟩
  intro harity
  have hnegate : l.negate = .ok ⟨l.parameters, l.body.neg⟩ := if_pos harity
  exact ⟨_, hnegate, Lambda.holds_negate hnegate⟩

/-- Linus has no address and no orders, and is settled. -/
theorem linus_is_settled :
    ∃ p, criterion Sample.catalog Sample.office .customer Sample.settled = .ok p ∧
      p.lambda.holds (fun _ _ => false) Sample.linus.toRecord = true ∧
      Sample.settled.Accepts Sample.catalog Sample.office (fun _ _ => false) .customer
        Sample.linus.toRecord := by
  refine ⟨_, rfl, by decide, ?_⟩
  exact ((compiled_lambda_means_criterion rfl).1 _).mp (by decide)

end Compile

end Selection
