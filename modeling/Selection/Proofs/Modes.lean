import Selection.Proofs.Dependence
import Selection.Proofs.Faults
import Selection.Sample.Criteria
import Selection.Sql.Lowering

/-! # The evaluation of patterns does not change the query

The mode for pattern tests decides whether a predicate tests patterns in memory, and so whether a
pattern has to be valid. It decides nothing else: the lambda, and with it the query, is the same in
every mode, and so is every error but that of a pattern that is not valid. Such an error may only
hide the errors of what is compiled after it.
-/

namespace Selection

/-- The environment with another mode for pattern tests. -/
def Environment.withLike (env : Environment) (mode : LikeMode) : Environment :=
  { env with settings := { env.settings with like := mode } }

/-- Environments in different modes agree on all tokens. -/
theorem Environment.agreeOn_withLike (env : Environment) (mode mode' : LikeMode)
    (names : List String) : AgreeOn names (env.withLike mode) (env.withLike mode') :=
  fun _ _ => rfl

theorem Operand.comparand_withLike (env : Environment) (mode : LikeMode) (c : Criterion)
    (field : String) (type : DataType) :
    comparand (env.withLike mode) c field type = comparand env c field type :=
  comparand_congr (env.agreeOn_withLike mode env.settings.like _) field type

namespace Compile

variable {ι : Type} {catalog : Catalog ι} {env : Environment} {record : ι} {mode mode' : LikeMode}

/-! ## Lambdas -/

/-- Two computations that both succeed give predicates with one lambda. -/
def SameLambda (x y : Except CompileError Predicate) : Prop :=
  ∀ p q, x = .ok p → y = .ok q → p.lambda = q.lambda

theorem SameLambda.of_eq {x y : Except CompileError Predicate} (h : x = y) : SameLambda x y := by
  rintro p q hp hq
  rw [Except.ok.inj (hp.symm.trans (h.trans hq))]

/-- Outcomes with the same lambda go on to outcomes with the same lambda. -/
theorem SameLambda.bind {x y : Except CompileError Predicate}
    {f g : Predicate → Except CompileError Predicate} (h : SameLambda x y)
    (hrest : ∀ p q, p.lambda = q.lambda → SameLambda (f p) (g q)) :
    SameLambda (x >>= f) (y >>= g) := by
  intro p q hp hq
  obtain ⟨a, ha, hp⟩ := bind_eq_ok_iff.mp hp
  obtain ⟨b, hb, hq⟩ := bind_eq_ok_iff.mp hq
  exact hrest a b (h a b ha hb) p q hp hq

/-- After the same step, the rest decides. -/
theorem SameLambda.after {α : Type} {x : Except CompileError α}
    {f g : α → Except CompileError Predicate} (h : ∀ a, SameLambda (f a) (g a)) :
    SameLambda (x >>= f) (x >>= g) := by
  cases x with
  | error e => exact nofun
  | ok a => exact h a

/-- Predicates with the same lambda have negations with the same lambda. -/
theorem sameLambda_negate {p q : Predicate} (h : p.lambda = q.lambda) :
    SameLambda p.negate q.negate := by
  intro a b ha hb
  obtain ⟨l, hl, rfl⟩ := Predicate.negate_eq_ok ha
  obtain ⟨m, hm, rfl⟩ := Predicate.negate_eq_ok hb
  rw [h, hm] at hl
  rw [Predicate.folded_lambda, Predicate.folded_lambda, Except.ok.inj hl]

/-- A pattern test has the same lambda in every mode. -/
theorem sameLambda_patternMatch (c : Criterion) :
    SameLambda (patternMatch catalog (env.withLike mode) record c)
      (patternMatch catalog (env.withLike mode') record c) := by
  unfold patternMatch
  simp only [Operand.comparand_withLike]
  refine .after fun field => .after fun pattern => ?_
  intro p q hp hq
  obtain ⟨test, -, hp⟩ := bind_eq_ok_iff.mp hp
  obtain ⟨test', -, hq⟩ := bind_eq_ok_iff.mp hq
  rw [← Except.ok.inj hp, ← Except.ok.inj hq]

/-- Parts that have the same lambdas are joined to the same lambda. -/
theorem sameLambda_joinParts {join : Predicate → Predicate → Predicate} {parts : List Criterion}
    (hjoin : ∀ p p' q q', p.lambda = p'.lambda → q.lambda = q'.lambda →
      (join p q).lambda = (join p' q').lambda)
    (hparts : ∀ c ∈ parts, SameLambda (criterion catalog (env.withLike mode) record c)
      (criterion catalog (env.withLike mode') record c))
    {p q : Predicate} (h : p.lambda = q.lambda) :
    SameLambda (joinParts catalog (env.withLike mode) record join p parts)
      (joinParts catalog (env.withLike mode') record join q parts) := by
  induction parts generalizing p q with
  | nil =>
      rintro _ _ ⟨⟩ ⟨⟩
      exact h
  | cons c rest ih =>
      obtain ⟨hc, hrest⟩ := List.forall_mem_cons.mp hparts
      rw [joinParts_cons, joinParts_cons]
      exact hc.bind fun a b hab => ih hrest (hjoin p q a b h hab)

/-- A criterion has the same lambda in every mode. -/
theorem sameLambda_criterion (c : Criterion) :
    SameLambda (criterion catalog (env.withLike mode) record c)
      (criterion catalog (env.withLike mode') record c) := by
  induction c using Criterion.induction generalizing record with
  | node op field right value inner parts _ ihInner ihParts =>
      have hparts (c : Criterion) (hc : c ∈ parts) :
          SameLambda (criterion catalog (env.withLike mode) record c)
            (criterion catalog (env.withLike mode') record c) := ihParts c hc
      have hand (start : Predicate) :
          SameLambda (conjunction catalog (env.withLike mode) record start parts)
            (conjunction catalog (env.withLike mode') record start parts) := by
        simp only [conjunction_eq_joinParts]
        exact sameLambda_joinParts (fun p p' q q' hp hq => by simp [hp, hq]) hparts rfl
      have hor (start : Predicate) :
          SameLambda (disjunction catalog (env.withLike mode) record start parts)
            (disjunction catalog (env.withLike mode') record start parts) := by
        simp only [disjunction_eq_joinParts]
        exact sameLambda_joinParts (fun p p' q q' hp hq => by simp [hp, hq]) hparts rfl
      unfold criterion
      cases op with
      | isTrue | isFalse => exact .of_eq rfl
      | and => exact hand _
      | or => exact hor _
      | nand => exact (hand _).bind fun _ _ => sameLambda_negate
      | nor => exact (hor _).bind fun _ _ => sameLambda_negate
      | contains | startsWith | endsWith =>
          exact .of_eq (textTest_congr (env.agreeOn_withLike mode mode' _) _)
      -- Pattern tests alone depend on the mode, and it is no part of their lambda.
      | like => exact sameLambda_patternMatch _
      | any =>
          refine .after fun name => ?_
          cases inner with
          | none =>
              intro p q hp
              contradiction
          | some c =>
              refine .after fun found => (ihInner c rfl).bind fun p q h => ?_
              rintro _ _ ⟨⟩ ⟨⟩
              simp only [quantifier, h]
      | _ => exact .of_eq (comparison_congr (env.agreeOn_withLike mode mode' _))

/-! ## Failures -/

/-- The error of a pattern that is not valid. -/
def patternFailure? : Value → Option CompileError
  | .string s =>
    match Pattern.read s.toList with
    | .ok _ => none
    | .error fault => some (.invalidPattern s fault.message)
  | _ => none

/-- A pattern fails to be read whether case counts or not. -/
theorem failure?_patternHolds (ignoreCase : Bool) (pattern : Value) :
    failure? (patternHolds ignoreCase pattern) = patternFailure? pattern := by
  cases pattern with
  | string s =>
      simp only [patternHolds, patternFailure?]
      cases Pattern.read s.toList <;> rfl
  | _ => rfl

/-- A pattern test fails for its pattern, unless it is left to the engine. -/
theorem failure?_patternTest (mode : LikeMode) (path : String) (pattern : Value) :
    failure? (patternTest mode path pattern) =
      if mode = .engineOnly then none else patternFailure? pattern := by
  cases mode with
  | engineOnly => rfl
  | ignoringCase | caseSensitive =>
      exact (failure?_bind_eq fun _ _ => ⟨_, rfl⟩).trans (failure?_patternHolds _ pattern)

/-- A pattern test fails where it fails in every mode, and else, when patterns are evaluated, for
its pattern. -/
theorem failure?_patternMatch (c : Criterion) :
    failure? (patternMatch catalog (env.withLike mode) record c) =
      match textField catalog record c with
      | .error e => some e
      | .ok field =>
        match Operand.comparand env c field.path field.type with
        | .error e => some e
        | .ok pattern => if mode = .engineOnly then none else patternFailure? pattern := by
  unfold patternMatch
  simp only [Operand.comparand_withLike]
  cases textField catalog record c with
  | error e => rfl
  | ok field =>
      simp only [bind, Except.bind]
      cases Operand.comparand env c field.path field.type with
      | error e => rfl
      | ok pattern =>
          exact (failure?_bind_eq fun _ _ => ⟨_, rfl⟩).trans (failure?_patternTest mode _ pattern)

/-- A criterion that tests a pattern has an error for a pattern that is not valid. -/
def Site.InvalidPattern (catalog : Catalog ι) (env : Environment) (site : Site ι)
    (e : CompileError) : Prop :=
  site.criterion.operator = .like ∧ ∃ field s fault,
    textField catalog site.record site.criterion = .ok field ∧
      Operand.comparand env site.criterion field.path field.type = .ok (.string s) ∧
      Pattern.read s.toList = .error fault ∧ e = .invalidPattern s fault.message

/-- A pattern fails for a fault in its text. -/
theorem invalidPattern_of_patternFailure? {pattern : Value} {e : CompileError}
    (h : patternFailure? pattern = some e) :
    ∃ s fault, pattern = .string s ∧ Pattern.read s.toList = .error fault ∧
      e = .invalidPattern s fault.message := by
  unfold patternFailure? at h
  split at h
  next s =>
    split at h
    next => contradiction
    next fault hread => exact ⟨s, fault, rfl, hread, (Option.some.inj h).symm⟩
  next => contradiction

/-- The checks of a criterion that tests no pattern do not depend on the mode. -/
theorem Site.failure?_eq_of_ne_like {site : Site ι} (h : site.criterion.operator ≠ .like)
    (env : Environment) (mode mode' : LikeMode) :
    site.failure? catalog (env.withLike mode) = site.failure? catalog (env.withLike mode') := by
  obtain ⟨record, op, field, right, value, inner, parts⟩ := site
  have hagree := env.agreeOn_withLike mode mode'
  cases op with
  | like => exact absurd rfl h
  | contains | startsWith | endsWith =>
      exact congrArg Selection.failure? (textTest_congr (hagree _) _)
  | isTrue | isFalse | and | or | nand | nor | any | constant | add => rfl
  | _ => exact congrArg Selection.failure? (comparison_congr (hagree _))

theorem Site.failure?_like {site : Site ι} (h : site.criterion.operator = .like)
    (env : Environment) (mode : LikeMode) :
    site.failure? catalog (env.withLike mode) =
      Selection.failure?
        (patternMatch catalog (env.withLike mode) site.record site.criterion) := by
  obtain ⟨record, op, field, right, value, inner, parts⟩ := site
  cases h
  rfl

/-- The checks of a criterion fail alike in every mode, unless they fail only for a pattern that is
not valid, and only in the modes that evaluate patterns. -/
theorem Site.failure?_withLike (env : Environment) (mode : LikeMode) (site : Site ι) :
    site.failure? catalog (env.withLike mode) = site.failure? catalog (env.withLike .engineOnly) ∨
      site.failure? catalog (env.withLike .engineOnly) = none ∧
        ∃ e, site.failure? catalog (env.withLike mode) = some e ∧
          site.InvalidPattern catalog env e := by
  by_cases hlike : site.criterion.operator = .like
  · simp only [Site.failure?_like hlike, failure?_patternMatch]
    cases hfield : textField catalog site.record site.criterion with
    | error e => exact .inl rfl
    | ok field =>
        cases hpattern : Operand.comparand env site.criterion field.path field.type with
        | error e => simp [hpattern]
        | ok pattern =>
            cases hfailure : patternFailure? pattern with
            | none => simp [hpattern, hfailure]
            | some e =>
                obtain ⟨s, fault, rfl, hread, he⟩ := invalidPattern_of_patternFailure? hfailure
                by_cases hmode : mode = .engineOnly
                · exact .inl (by simp [hmode])
                · refine .inr
                    ⟨by simp [hpattern], e, by simp [hpattern, hfailure, hmode], hlike, ?_⟩
                  exact ⟨field, s, fault, hfield, hpattern, hread, he⟩
  · exact .inl (Site.failure?_eq_of_ne_like hlike env mode .engineOnly)

/-- The modes that evaluate patterns refuse the same ones. -/
theorem Site.failure?_evaluated (env : Environment) (site : Site ι) :
    site.failure? catalog (env.withLike .ignoringCase) =
      site.failure? catalog (env.withLike .caseSensitive) := by
  by_cases hlike : site.criterion.operator = .like
  · rw [Site.failure?_like hlike, Site.failure?_like hlike, failure?_patternMatch,
      failure?_patternMatch]
    rfl
  · exact Site.failure?_eq_of_ne_like hlike env _ _

/-- An error that is not that of a pattern is an error in every mode. -/
theorem Site.failure?_of_valid {site : Site ι} {e : CompileError}
    (h : site.failure? catalog (env.withLike mode) = some e)
    (hvalid : ¬site.InvalidPattern catalog env e) (mode' : LikeMode) :
    site.failure? catalog (env.withLike mode') = some e := by
  have hengine : site.failure? catalog (env.withLike .engineOnly) = some e := by
    rcases site.failure?_withLike env mode with heq | ⟨-, e', he', hinvalid⟩
    · exact heq.symm.trans h
    · rw [Option.some.inj (he'.symm.trans h)] at hinvalid
      exact absurd hinvalid hvalid
  rcases site.failure?_withLike env mode' with heq | ⟨hnone, -⟩
  · exact heq.trans hengine
  · rw [hnone] at hengine
    contradiction

/-- What fails in one mode and not in another fails for a pattern. -/
theorem Site.invalidPattern_of_failure? {site : Site ι} {e : CompileError}
    (h : site.failure? catalog (env.withLike mode) = some e)
    (hnone : site.failure? catalog (env.withLike mode') = none) :
    site.InvalidPattern catalog env e := by
  by_contra hvalid
  rw [Site.failure?_of_valid h hvalid mode'] at hnone
  contradiction

/-! ## Compiling in several modes -/

/-- What compiles in some mode compiles with patterns left to the engine. -/
theorem criterion_engineOnly {c : Criterion} {p : Predicate}
    (h : criterion catalog (env.withLike mode) record c = .ok p) :
    ∃ q, criterion catalog (env.withLike .engineOnly) record c = .ok q := by
  rw [criterion_eq_ok_iff]
  intro site hsite
  have hnone := criterion_eq_ok_iff.mp ⟨p, h⟩ site hsite
  rcases site.failure?_withLike env mode with heq | ⟨hengine, -⟩
  · exact heq.symm.trans hnone
  · exact hengine

/-- The modes that evaluate patterns fail alike. -/
theorem failure?_evaluated (c : Criterion) :
    failure? (criterion catalog (env.withLike .ignoringCase) record c) =
      failure? (criterion catalog (env.withLike .caseSensitive) record c) := by
  rw [failure?_criterion, failure?_criterion, funext (Site.failure?_evaluated env)]

/-- When compiling fails at a site with an error that is not that of a pattern, it does so in every
mode, or else a pattern before the site is not valid. -/
theorem FailsAt.withLike {c : Criterion} {before : List (Site ι)} {site : Site ι}
    {e : CompileError} (h : FailsAt catalog (env.withLike mode) record c before site e)
    (hvalid : ¬site.InvalidPattern catalog env e) (mode' : LikeMode) :
    FailsAt catalog (env.withLike mode') record c before site e ∨
      ∃ first earlier e', earlier ∈ before ∧ earlier.InvalidPattern catalog env e' ∧
        FailsAt catalog (env.withLike mode') record c first earlier e' := by
  obtain ⟨after, hsites, hsite, hbefore⟩ := h
  cases hfirst : before.findSome? (Site.failure? catalog (env.withLike mode')) with
  | none =>
      have hnone := List.findSome?_eq_none_iff.mp hfirst
      exact .inl ⟨after, hsites, Site.failure?_of_valid hsite hvalid mode', hnone⟩
  | some e' =>
      obtain ⟨first, earlier, others, rfl, hearlier, hnone⟩ := List.findSome?_eq_some_iff.mp hfirst
      have hmem : earlier ∈ first ++ earlier :: others := by simp
      have hinvalid := Site.invalidPattern_of_failure? hearlier (hbefore earlier hmem)
      refine .inr ⟨first, earlier, e', hmem, hinvalid, others ++ site :: after, ?_, hearlier, hnone⟩
      rw [hsites, List.append_assoc, List.cons_append]

/-- The mode for pattern tests does not change what is sent to the query engine. What compiles in
some mode compiles to the same lambda when patterns are left to the engine. What then compiles only
when they are left to it fails for a pattern of the criterion that is not valid. The two modes that
evaluate patterns refuse the same criteria with the same errors, and any error that is not that of a
pattern is the error in every mode, unless a pattern before its site is not valid. -/
theorem mode_keeps_query (catalog : Catalog ι) (env : Environment) (record : ι) (c : Criterion) :
    (∀ mode p, criterion catalog (env.withLike mode) record c = .ok p →
      ∃ q, criterion catalog (env.withLike .engineOnly) record c = .ok q ∧ q.lambda = p.lambda ∧
        Sql.lowerLambda q.lambda = Sql.lowerLambda p.lambda) ∧
    (∀ mode q e, criterion catalog (env.withLike .engineOnly) record c = .ok q →
      criterion catalog (env.withLike mode) record c = .error e →
        ∃ site ∈ sites catalog record c, site.InvalidPattern catalog env e) ∧
    ((∃ p, criterion catalog (env.withLike .ignoringCase) record c = .ok p) ↔
      ∃ p, criterion catalog (env.withLike .caseSensitive) record c = .ok p) ∧
    (∀ e, criterion catalog (env.withLike .ignoringCase) record c = .error e ↔
      criterion catalog (env.withLike .caseSensitive) record c = .error e) ∧
    ∀ mode e, criterion catalog (env.withLike mode) record c = .error e →
      ∃ before site, FailsAt catalog (env.withLike mode) record c before site e ∧
        (site.InvalidPattern catalog env e ∨ ∀ mode',
          criterion catalog (env.withLike mode') record c = .error e ∨
            ∃ earlier ∈ before, ∃ e', earlier.InvalidPattern catalog env e' ∧
              criterion catalog (env.withLike mode') record c = .error e') := by
  refine ⟨?_, ?_, ?_, ?_, ?_⟩
  · intro mode p hp
    obtain ⟨q, hq⟩ := criterion_engineOnly hp
    have hlambda : q.lambda = p.lambda := sameLambda_criterion c q p hq hp
    exact ⟨q, hq, hlambda, congrArg _ hlambda⟩
  · intro mode q e hq he
    obtain ⟨before, site, after, hsites, hsite, -⟩ := criterion_eq_error_iff.mp he
    have hmem : site ∈ sites catalog record c := by simp [hsites]
    have hnone := criterion_eq_ok_iff.mp ⟨q, hq⟩ site hmem
    exact ⟨site, hmem, Site.invalidPattern_of_failure? hsite hnone⟩
  · rw [← failure?_eq_none_iff, ← failure?_eq_none_iff, failure?_evaluated]
  · intro e
    rw [← failure?_eq_some_iff, ← failure?_eq_some_iff, failure?_evaluated]
  · intro mode e he
    obtain ⟨before, site, hfails⟩ := criterion_eq_error_iff.mp he
    refine ⟨before, site, hfails, ?_⟩
    by_cases hinvalid : site.InvalidPattern catalog env e
    · exact .inl hinvalid
    refine .inr fun mode' => ?_
    -- The site may still be hidden by a pattern before it that only the other mode reads.
    rcases hfails.withLike hinvalid mode' with hsame | ⟨first, earlier, e', hmem, hpattern, hother⟩
    · exact .inl (criterion_eq_error_iff.mpr ⟨before, site, hsame⟩)
    · exact .inr ⟨earlier, hmem, e', hpattern, criterion_eq_error_iff.mpr ⟨first, earlier, hother⟩⟩

/-- The query for readers is the same whether their pattern is matched in memory or not. A pattern
that is not closed compiles only when it is left to the query engine, and in the other modes it
hides that customers do not have a field. -/
theorem unclosed_hides_misspelled :
    (∃ p q, criterion Sample.catalog (Sample.office.withLike .ignoringCase) .customer
        Sample.readers = .ok p ∧
      criterion Sample.catalog (Sample.office.withLike .engineOnly) .customer Sample.readers =
        .ok q ∧ q.lambda = p.lambda) ∧
    (∃ site ∈ sites Sample.catalog .customer Sample.unclosed,
      site.InvalidPattern Sample.catalog Sample.office
        (.invalidPattern "[A-" "unterminated character set")) ∧
    criterion Sample.catalog (Sample.office.withLike .engineOnly) .customer
      (.group .and [Sample.unclosed, Sample.misspelled]) =
        .error (.unknownField "Customer" "agee") ∧
    ∃ earlier e', Site.InvalidPattern Sample.catalog Sample.office earlier e' ∧
      criterion Sample.catalog (Sample.office.withLike .ignoringCase) .customer
        (.group .and [Sample.unclosed, Sample.misspelled]) = .error e' := by
  obtain ⟨p, hp⟩ : ∃ p, criterion Sample.catalog (Sample.office.withLike .ignoringCase) .customer
      Sample.readers = .ok p := ⟨_, by with_unfolding_all rfl⟩
  obtain ⟨q, hq⟩ : ∃ q, criterion Sample.catalog (Sample.office.withLike .engineOnly) .customer
      Sample.unclosed = .ok q := ⟨_, by with_unfolding_all rfl⟩
  have hunclosed : criterion Sample.catalog (Sample.office.withLike .ignoringCase) .customer
      Sample.unclosed = .error (.invalidPattern "[A-" "unterminated character set") := by
    with_unfolding_all rfl
  have hboth : criterion Sample.catalog (Sample.office.withLike .ignoringCase) .customer
      (.group .and [Sample.unclosed, Sample.misspelled]) =
        .error (.invalidPattern "[A-" "unterminated character set") := by with_unfolding_all rfl
  have hengine : criterion Sample.catalog (Sample.office.withLike .engineOnly) .customer
      (.group .and [Sample.unclosed, Sample.misspelled]) =
        .error (.unknownField "Customer" "agee") := by with_unfolding_all rfl
  obtain ⟨r, hr, hlambda, -⟩ :=
    (mode_keeps_query Sample.catalog Sample.office .customer Sample.readers).1 _ p hp
  have hsite := (mode_keeps_query Sample.catalog Sample.office .customer Sample.unclosed).2.1 _ q _
    hq hunclosed
  obtain ⟨before, site, -, hcause⟩ := (mode_keeps_query Sample.catalog Sample.office .customer
    (.group .and [Sample.unclosed, Sample.misspelled])).2.2.2.2 _ _ hengine
  refine ⟨⟨p, r, hp, hr, hlambda⟩, hsite, hengine, ?_⟩
  rcases hcause with ⟨-, _, _, _, -, -, -, hpattern⟩ | hmodes
  · contradiction
  · rcases hmodes .ignoringCase with hsame | ⟨earlier, -, e', hinvalid, he'⟩
    · exact CompileError.noConfusion (Except.error.inj (hboth.symm.trans hsame))
    · exact ⟨earlier, e', hinvalid, he'⟩

end Compile

end Selection
