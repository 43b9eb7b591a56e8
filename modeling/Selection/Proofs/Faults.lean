import Selection.Proofs.Compilation

/-! # Where compiling fails

A criterion is compiled before those inside it, and the parts of an aggregate are compiled from left
to right. Every criterion has checks of its own: the field and the operand of a test, the collection
of a quantifier. Compiling fails exactly when one of these checks does, and with the error of the
first criterion in that order whose checks fail.
-/

namespace Selection.Compile

variable {ι : Type}

/-- A criterion, and the record type that it is compiled for. -/
structure Site (ι : Type) where
  record : ι
  criterion : Criterion

/-- The collection of a quantifier that has an inner criterion. -/
def quantified (catalog : Catalog ι) (record : ι) (field : Option String)
    (inner : Option Criterion) : Except CompileError (ι × Option Link) := do
  let name ← fieldName .any field
  match inner with
  | none => throw (.missingInnerCriteria name)
  | some _ => collectionField catalog record name

/-- The error of a criterion's own checks, those of the criteria inside it left aside. -/
def Site.failure? (catalog : Catalog ι) (env : Environment) : Site ι → Option CompileError
  | ⟨record, .node op field right value inner parts⟩ =>
    let c := Criterion.node op field right value inner parts
    match op with
    | .isTrue | .isFalse | .and | .or | .nand | .nor => none
    | .contains => Selection.failure? (textTest catalog env record .contains c)
    | .startsWith => Selection.failure? (textTest catalog env record .startsWith c)
    | .endsWith => Selection.failure? (textTest catalog env record .endsWith c)
    | .like => Selection.failure? (patternMatch catalog env record c)
    | .any => Selection.failure? (quantified catalog record field inner)
    | _ => Selection.failure? (comparison catalog env record c)

mutual

/-- The criteria that are compiled for a criterion, in their order: first itself, then what is
inside it. A quantifier whose collection is not found has nothing inside. -/
def sites (catalog : Catalog ι) (record : ι) : Criterion → List (Site ι)
  | .node op field right value inner parts =>
    ⟨record, .node op field right value inner parts⟩ ::
      match op with
      | .and | .or | .nand | .nor => allSites catalog record parts
      | .any =>
        match inner with
        | none => []
        | some c =>
          match quantified catalog record field (some c) with
          | .ok (element, _) => sites catalog element c
          | .error _ => []
      | _ => []

/-- The criteria that are compiled for some criteria. -/
def allSites (catalog : Catalog ι) (record : ι) : List Criterion → List (Site ι)
  | [] => []
  | c :: rest => sites catalog record c ++ allSites catalog record rest

end

variable {catalog : Catalog ι} {env : Environment} {record : ι}

/-- The parts of an aggregate fail at the first of their sites that fails. -/
theorem failure?_joinParts {join : Predicate → Predicate → Predicate} {parts : List Criterion}
    (hparts : ∀ c ∈ parts, failure? (criterion catalog env record c) =
      (sites catalog record c).findSome? (Site.failure? catalog env)) (start : Predicate) :
    failure? (joinParts catalog env record join start parts) =
      (allSites catalog record parts).findSome? (Site.failure? catalog env) := by
  induction parts generalizing start with
  | nil => rfl
  | cons c rest ih =>
      obtain ⟨hc, hrest⟩ := List.forall_mem_cons.mp hparts
      rw [joinParts_cons, allSites, List.findSome?_append, ← hc]
      cases criterion catalog env record c with
      | ok p => exact ih hrest _
      | error e => rfl

/-- What compiles has one parameter, and so it can be negated. -/
theorem exists_negate {c : Criterion} {p : Predicate}
    (h : criterion catalog env record c = .ok p) : ∃ q, p.negate = .ok q := by
  have harity : p.lambda.arity = 1 := congrArg List.length (criterion_parameters h)
  have hnegate : p.lambda.negate = .ok ⟨p.lambda.parameters, p.lambda.body.neg⟩ := if_pos harity
  exact ⟨_, bind_eq_ok_iff.mpr ⟨_, hnegate, rfl⟩⟩

/-- Compiling a quantifier checks its collection, and then compiles the inner criterion for the
element type of that. -/
theorem failure?_any {field : Option String} {right : Option Criterion} {value : Option Value}
    {c : Criterion} {parts : List Criterion} :
    failure? (criterion catalog env record (.node .any field right value (some c) parts)) =
      match quantified catalog record field (some c) with
      | .ok (element, _) => failure? (criterion catalog env element c)
      | .error e => some e := by
  rw [criterion, quantified]
  cases fieldName .any field with
  | error e => rfl
  | ok name =>
      simp only [bind, Except.bind]
      cases collectionField catalog record name with
      | error e => rfl
      | ok found =>
          show failure? (criterion catalog env found.1 c >>= fun p =>
            .ok (quantifier (catalog record).name name (catalog found.1).name found.2 p)) = _
          exact failure?_bind_eq fun p _ => ⟨_, rfl⟩

/-- Compiling fails with the error of the first criterion whose own checks fail. -/
theorem failure?_criterion (c : Criterion) :
    failure? (criterion catalog env record c) =
      (sites catalog record c).findSome? (Site.failure? catalog env) := by
  induction c using Criterion.induction generalizing record with
  | node op field right value inner parts _ ihInner ihParts =>
      have hparts (c : Criterion) (hc : c ∈ parts) :
          failure? (criterion catalog env record c) =
            (sites catalog record c).findSome? (Site.failure? catalog env) := ihParts c hc
      cases op with
      | isTrue | isFalse => rfl
      | and =>
          rw [criterion, conjunction_eq_joinParts]
          exact failure?_joinParts hparts _
      | or =>
          rw [criterion, disjunction_eq_joinParts]
          exact failure?_joinParts hparts _
      -- Negating what an aggregate compiles to never fails, so no site is added.
      | nand =>
          rw [criterion, failure?_bind_eq, conjunction_eq_joinParts, failure?_joinParts hparts]
          · rfl
          · intro p hp
            have hand : criterion catalog env record (.node .and field right value inner parts) =
                .ok p := hp
            exact exists_negate hand
      | nor =>
          rw [criterion, failure?_bind_eq, disjunction_eq_joinParts, failure?_joinParts hparts]
          · rfl
          · intro p hp
            have hor : criterion catalog env record (.node .or field right value inner parts) =
                .ok p := hp
            exact exists_negate hor
      | any =>
          cases inner with
          | none =>
              refine Eq.trans ?_ List.findSome?_singleton.symm
              rw [criterion]
              cases field <;> rfl
          -- The checks on the collection come before all that can fail in the inner criterion.
          | some c =>
              rw [failure?_any]
              simp only [sites, List.findSome?_cons, Site.failure?]
              cases quantified catalog record field (some c) with
              | error e => rfl
              | ok found => exact ihInner c rfl
      | _ => exact List.findSome?_singleton.symm

/-- Compiling a criterion fails with an error at a site: the checks there fail with the error, and
those of the sites before it do not. -/
def FailsAt (catalog : Catalog ι) (env : Environment) (record : ι) (c : Criterion)
    (before : List (Site ι)) (site : Site ι) (e : CompileError) : Prop :=
  ∃ after, sites catalog record c = before ++ site :: after ∧ site.failure? catalog env = some e ∧
    ∀ earlier ∈ before, earlier.failure? catalog env = none

/-- A criterion fails to compile with the error of its first site that fails. -/
theorem criterion_eq_error_iff {c : Criterion} {e : CompileError} :
    criterion catalog env record c = .error e ↔
      ∃ before site, FailsAt catalog env record c before site e := by
  rw [← failure?_eq_some_iff, failure?_criterion, List.findSome?_eq_some_iff]
  constructor
  · rintro ⟨before, site, after, hsites, hsite, hbefore⟩
    exact ⟨before, site, after, hsites, hsite, hbefore⟩
  · rintro ⟨before, site, after, hsites, hsite, hbefore⟩
    exact ⟨before, site, after, hsites, hsite, hbefore⟩

/-- A criterion compiles when none of its sites fails. -/
theorem criterion_eq_ok_iff {c : Criterion} :
    (∃ p, criterion catalog env record c = .ok p) ↔
      ∀ site ∈ sites catalog record c, site.failure? catalog env = none := by
  rw [← failure?_eq_none_iff, failure?_criterion, List.findSome?_eq_none_iff]

end Selection.Compile
