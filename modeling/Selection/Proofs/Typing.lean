import Selection.Proofs.Compilation
import Selection.Proofs.Lowered
import Selection.Sample.Criteria

/-! # Typed lambdas

A lambda is typed for a record type when it has that one parameter and every path in it leads where
it is used: that of a test to a scalar of the type recorded with it, whose values the test compares
with a value of the same type or a null, and that of a quantifier to a collection for whose elements
its predicate is typed. What criteria compile to is typed, whatever types their operands had before.
So no compiled predicate is refused a negation, and only a missing link keeps one from being
lowered.
-/

namespace Selection

/-- Fields of the type can be compared with the value: it is null or of that type. -/
def Value.Fits (v : Value) (type : DataType) : Prop :=
  v.isNull = true ∨ v.dataType = type

variable {ι : Type} {catalog : Catalog ι} {env : Environment} {record : ι}

namespace Formula

/-- A formula is typed for a record type of a catalog. -/
inductive Typed (catalog : Catalog ι) : ι → Formula → Prop
  | constant (record : ι) (verdict : Bool) : Typed catalog record (.constant verdict)
  | compare {record : ι} {field : FieldRef} {op : Comparison} {value : Value} {lexical : Bool}
      (hfield : catalog.resolve record field.path = .ok (.scalar field.type))
      (hvalue : value.Fits field.type)
      (hlexical : lexical = true ↔ op.isOrdering = true ∧ field.type = .string) :
      Typed catalog record (.compare field op value lexical)
  | text {record : ι} {field : FieldRef} {test : TextTest} {part : Value}
      (hfield : catalog.resolve record field.path = .ok (.scalar field.type))
      (htype : field.type = .string) (hpart : part.Fits field.type) :
      Typed catalog record (.text field test part)
  | pattern {record : ι} {field : FieldRef} {value : Value}
      (hfield : catalog.resolve record field.path = .ok (.scalar field.type))
      (htype : field.type = .string) (hvalue : value.Fits field.type) :
      Typed catalog record (.pattern field value)
  | any {record element : ι} {path : String} {link : Option Link} {predicate : Formula}
      (hpath : catalog.resolve record path = .ok (.collection element link))
      (hpredicate : Typed catalog element predicate) :
      Typed catalog record
        (.any path (catalog element).name link [(catalog element).name] predicate)
  | and {record : ι} {items : List Formula} (hitems : ∀ item ∈ items, Typed catalog record item) :
      Typed catalog record (.and items)
  | or {record : ι} {items : List Formula} (hitems : ∀ item ∈ items, Typed catalog record item) :
      Typed catalog record (.or items)
  | not {record : ι} {item : Formula} (hitem : Typed catalog record item) :
      Typed catalog record (.not item)

variable {f g : Formula}

/-- The conjunction of typed formulas is typed. -/
theorem Typed.conj (hf : f.Typed catalog record) (hg : g.Typed catalog record) :
    (f.conj g).Typed catalog record := by
  apply conj_cases f g
  · exact fun _ => hg
  · exact fun _ => hf
  · exact fun _ => .constant record false
  · rintro items rfl -
    cases hf with
    | and hitems =>
        refine .and fun item hitem => ?_
        rcases List.mem_append.mp hitem with hmem | hlast
        · exact hitems item hmem
        · exact List.mem_singleton.mp hlast ▸ hg
  · exact fun _ _ => .and (by simp [hf, hg])

theorem Typed.disj (hf : f.Typed catalog record) (hg : g.Typed catalog record) :
    (f.disj g).Typed catalog record := by
  apply disj_cases f g
  · exact fun _ => hg
  · exact fun _ => hf
  · exact fun _ => .constant record true
  · rintro items rfl -
    cases hf with
    | or hitems =>
        refine .or fun item hitem => ?_
        rcases List.mem_append.mp hitem with hmem | hlast
        · exact hitems item hmem
        · exact List.mem_singleton.mp hlast ▸ hg
  · exact fun _ _ => .or (by simp [hf, hg])

theorem Typed.neg (hf : f.Typed catalog record) : f.neg.Typed catalog record := by
  cases f with
  | constant verdict => exact .constant record _
  | _ => exact .not hf

theorem Typed.of_any {path element : String} {link : Option Link} {parameters : List String}
    (h : (Formula.any path element link parameters f).Typed catalog record) :
    ∃ inner, catalog.resolve record path = .ok (.collection inner link) ∧
      element = (catalog inner).name ∧ parameters = [element] ∧ f.Typed catalog inner := by
  cases h with
  | any hpath hpredicate => exact ⟨_, hpath, rfl, rfl, hpredicate⟩

/-- Every formula inside a typed one is typed for some record type. -/
theorem Typed.subformula (hf : f.Typed catalog record) (hmem : g ∈ f.subformulas) :
    ∃ inner, g.Typed catalog inner := by
  -- The record type changes below a quantifier, so it is found anew in each case.
  induction hf with
  | constant record verdict =>
      obtain rfl := List.mem_singleton.mp hmem
      exact ⟨record, .constant record verdict⟩
  | compare hfield hvalue hlexical =>
      obtain rfl := List.mem_singleton.mp hmem
      exact ⟨_, .compare hfield hvalue hlexical⟩
  | text hfield htype hpart =>
      obtain rfl := List.mem_singleton.mp hmem
      exact ⟨_, .text hfield htype hpart⟩
  | pattern hfield htype hvalue =>
      obtain rfl := List.mem_singleton.mp hmem
      exact ⟨_, .pattern hfield htype hvalue⟩
  | any hpath hpredicate ih =>
      rcases List.mem_cons.mp hmem with rfl | hinside
      · exact ⟨_, .any hpath hpredicate⟩
      · exact ih hinside
  | and hitems ih =>
      rcases List.mem_cons.mp hmem with rfl | hinside
      · exact ⟨_, .and hitems⟩
      · obtain ⟨item, hitem, hinside⟩ := mem_allSubformulas.mp hinside
        exact ih item hitem hinside
  | or hitems ih =>
      rcases List.mem_cons.mp hmem with rfl | hinside
      · exact ⟨_, .or hitems⟩
      · obtain ⟨item, hitem, hinside⟩ := mem_allSubformulas.mp hinside
        exact ih item hitem hinside
  | not hitem ih =>
      rcases List.mem_cons.mp hmem with rfl | hinside
      · exact ⟨_, .not hitem⟩
      · exact ih hinside

/-- The quantifiers of a typed formula have one parameter each. -/
theorem Typed.oneParameter (hf : f.Typed catalog record) : f.OneParameter := by
  intro path element link parameters predicate hmem
  obtain ⟨inner, htyped⟩ := hf.subformula hmem
  cases htyped
  rfl

end Formula

/-- A lambda is typed: its only parameter is the record type and its body is typed for it. -/
structure Lambda.Typed (catalog : Catalog ι) (record : ι) (l : Lambda) : Prop where
  parameters : l.parameters = [(catalog record).name]
  body : l.body.Typed catalog record

/-! ## Operands -/

theorem DataType.isTextual_iff {type : DataType} : type.isTextual = true ↔ type = .string := by
  cases type <;> simp [isTextual]

/-- A temporal conversion gives a value of the type. -/
theorem Value.dataType_of_convertTemporal? {v w : Value} {type : DataType}
    (h : v.convertTemporal? type = some w) : w.dataType = type := by
  unfold convertTemporal? at h
  split at h
  case h_7 =>
    obtain ⟨htype, hself⟩ := Option.ite_none_right_eq_some.mp h
    exact Option.some.inj hself ▸ htype
  case h_1 | h_2 =>
    obtain ⟨d, -, rfl⟩ := Option.map_eq_some_iff.mp h
    rfl
  all_goals exact Option.some.inj h ▸ rfl

/-- Conversion gives a value of the type that was asked for. -/
theorem Value.dataType_of_convert? {v w : Value} {type : DataType}
    (h : v.convert? type = some w) : w.dataType = type := by
  cases type with
  | string => exact Option.some.inj h ▸ rfl
  | null => contradiction
  | date | timestamp | timestampNaive =>
      obtain ⟨temporal, -, h⟩ := Option.bind_eq_some_iff.mp h
      exact dataType_of_convertTemporal? h
  | duration =>
      cases v with
      | string s =>
          obtain ⟨d, -, rfl⟩ := Option.map_eq_some_iff.mp h
          rfl
      | _ => contradiction
  | _ =>
      obtain ⟨x, -, rfl⟩ := Option.map_eq_some_iff.mp h
      rfl

namespace Operand

theorem fits_of_coerce {field : String} {type : DataType} {v w : Value}
    (h : coerce field type v = .ok w) : w.Fits type := by
  unfold coerce at h
  split at h
  next hkept =>
    rw [← Except.ok.inj h]
    simpa [Value.Fits] using hkept
  next =>
    split at h
    next w' hconvert =>
      rw [← Except.ok.inj h]
      exact .inr (Value.dataType_of_convert? hconvert)
    next => contradiction

theorem fits_of_comparand {c : Criterion} {field : String} {type : DataType} {v : Value}
    (h : comparand env c field type = .ok v) : v.Fits type := by
  obtain ⟨w, -, hcoerce⟩ := bind_eq_ok_iff.mp h
  exact fits_of_coerce hcoerce

end Operand

/-! ## Compiled criteria -/

namespace Compile

/-- The lambda of a test of a field is typed. -/
theorem Tested.typed {c : Criterion} {p : Predicate} (h : Tested catalog env record c p) :
    p.lambda.Typed catalog record := by
  cases h with
  | comparison op field value _ hfield hvalue =>
      refine ⟨rfl, .compare (scalarField_eq_ok hfield).2 (Operand.fits_of_comparand hvalue) ?_⟩
      rw [Bool.and_eq_true, DataType.isTextual_iff, and_comm]
  | textTest test field part _ hfield hpart =>
      obtain ⟨hscalar, htext⟩ := textField_eq_ok hfield
      exact ⟨rfl, .text (scalarField_eq_ok hscalar).2 (DataType.isTextual_iff.mp htext)
        (Operand.fits_of_comparand hpart)⟩
  | pattern field pattern test _ hfield hpattern =>
      obtain ⟨hscalar, htext⟩ := textField_eq_ok hfield
      exact ⟨rfl, .pattern (scalarField_eq_ok hscalar).2 (DataType.isTextual_iff.mp htext)
        (Operand.fits_of_comparand hpattern)⟩

/-- A compiled lambda is typed. -/
theorem criterion_typed {c : Criterion} {p : Predicate}
    (h : criterion catalog env record c = .ok p) : p.lambda.Typed catalog record := by
  apply criterion_invariant (fun record p => p.lambda.Typed catalog record) (h := h)
  · exact fun record verdict => ⟨rfl, .constant record verdict⟩
  · exact fun record c p hp => hp.typed
  · intro record path element link p hcollection hp
    refine ⟨rfl, ?_⟩
    show Formula.Typed catalog record (.any path _ link p.lambda.parameters p.lambda.body)
    rw [hp.parameters]
    exact .any (collectionField_eq_ok hcollection) hp.body
  · intro record p q hp hq
    rw [Predicate.and_lambda]
    exact ⟨hp.parameters, hp.body.conj hq.body⟩
  · intro record p q hp hq
    rw [Predicate.or_lambda]
    exact ⟨hp.parameters, hp.body.disj hq.body⟩
  · intro record p q hp hnegate
    obtain ⟨l, hl, rfl⟩ := Predicate.negate_eq_ok hnegate
    obtain ⟨-, rfl⟩ := Lambda.negate_eq_ok hl
    rw [Predicate.folded_lambda]
    exact ⟨hp.parameters, hp.body.neg⟩

end Compile

/-! ## Refusals to negate -/

/-- A computation does not fail by refusing to negate. -/
def NeverRefuses {α : Type} (x : Except CompileError α) : Prop :=
  ∀ n, x ≠ .error (.invalidNegation n)

section NeverRefuses

variable {α β : Type} {x : Except CompileError α} {f : α → Except CompileError β}

theorem neverRefuses_ok (a : α) : NeverRefuses (.ok a) :=
  nofun

theorem neverRefuses_error {e : CompileError} (h : ∀ n, e ≠ .invalidNegation n) :
    NeverRefuses (.error e : Except CompileError α) :=
  fun n hn => h n (Except.error.inj hn)

/-- A computation in steps never refuses a negation when no step does. -/
theorem NeverRefuses.bind (hx : NeverRefuses x) (hf : ∀ a, x = .ok a → NeverRefuses (f a)) :
    NeverRefuses (x >>= f) := by
  intro n h
  rcases bind_eq_error_iff.mp h with hfirst | ⟨a, ha, hrest⟩
  · exact hx n hfirst
  · exact hf a ha n hrest

end NeverRefuses

theorem Catalog.neverRefuses_walk (path : String) (segments : List String) :
    NeverRefuses (catalog.walk path record segments) := by
  induction segments generalizing record with
  | nil => exact nofun
  | cons segment rest ih =>
      unfold walk
      split
      · exact nofun
      · split <;> exact nofun
      next inner _ =>
        split
        · exact nofun
        · intro n h
          cases hwalk : catalog.walk path inner rest with
          | ok found =>
              rw [hwalk] at h
              contradiction
          | error e =>
              rw [hwalk] at h
              exact ih n (hwalk.trans (congrArg Except.error (Except.error.inj h)))
      · split <;> exact nofun

theorem Context.neverRefuses_walk (path last : String) (c : Context) (segments : List String) :
    NeverRefuses (c.walk path last segments) := by
  induction segments generalizing c last with
  | nil => cases c <;> exact nofun
  | cons segment rest ih =>
      rw [walk]
      split
      · exact ih segment _
      · exact nofun

theorem Environment.neverRefuses_lookup (path : String) : NeverRefuses (env.lookup path) := by
  unfold lookup
  split
  · exact Context.neverRefuses_walk path path _ _
  · exact nofun

theorem Sigil.neverRefuses_resolve (v : Value) : NeverRefuses (resolve env v) := by
  have htoken (name : String) : NeverRefuses (token env name) := by
    unfold token
    split
    · exact nofun
    split
    · exact nofun
    split
    · exact nofun
    · exact env.neverRefuses_lookup name
  have hsuffix (literal suffix : String) (v : Value) :
      NeverRefuses (applySuffix literal suffix v) := by
    unfold applySuffix
    split
    · exact nofun
    split
    · exact nofun
    · dsimp only
      split <;> exact nofun
  -- A string that is no sigil stays as it is. The others fail with errors about tokens and suffixes
  -- alone.
  unfold resolve
  split
  · split
    · exact nofun
    next name suffix _ =>
      refine (htoken name).bind fun value _ => ?_
      cases suffix with
      | none => exact nofun
      | some suffix => exact hsuffix _ suffix value
  · exact nofun

theorem Sum.neverRefuses_add (left right : Value) : NeverRefuses (add left right) := by
  fun_cases add left right
  case case1 | case2 | case10 => exact neverRefuses_ok _
  case case3 fitting | case4 fitting | case5 fitting | case6 fitting | case7 fitting |
      case8 fitting | case9 fitting | case11 fitting =>
    have hfitting (sum : Option Value) : NeverRefuses (fitting sum) := by
      cases sum <;> exact nofun
    -- Its value is hidden, or the bound of the integers would be unfolded to numerals.
    clear_value fitting
    exact hfitting _
  all_goals
    split
    · exact neverRefuses_ok _
    · exact neverRefuses_error nofun

namespace Operand

theorem neverRefuses_constant (c : Criterion) : NeverRefuses (constant env c) := by
  unfold constant
  split
  · exact Sigil.neverRefuses_resolve _
  · exact nofun

theorem neverRefuses_total (sum : Option Value) (parts : List Criterion) :
    NeverRefuses (total env sum parts) := by
  induction parts generalizing sum with
  | nil => exact nofun
  | cons c rest ih =>
      refine (neverRefuses_constant c).bind fun v _ => ?_
      cases sum with
      | none => exact ih _
      | some t => exact (Sum.neverRefuses_add t _).bind fun _ _ => ih _

theorem neverRefuses_comparand (c : Criterion) (field : String) (type : DataType) :
    NeverRefuses (comparand env c field type) := by
  have hright (right : Option Criterion) : NeverRefuses (rightHandSide env right) := by
    unfold rightHandSide
    split
    · exact nofun
    · split
      · exact neverRefuses_total _ _
      · exact neverRefuses_constant _
  refine (hright _).bind fun v _ => ?_
  unfold coerce
  split
  · exact nofun
  · split <;> exact nofun

end Operand

namespace Compile

theorem neverRefuses_fieldName (op : Operator) (field : Option String) :
    NeverRefuses (fieldName op field) := by
  cases field <;> exact nofun

theorem neverRefuses_scalarField (c : Criterion) :
    NeverRefuses (scalarField catalog record c) := by
  refine (neverRefuses_fieldName _ _).bind fun name _ => ?_
  refine (Catalog.neverRefuses_walk name _).bind fun resolution _ => ?_
  cases resolution <;> exact nofun

theorem neverRefuses_textField (c : Criterion) : NeverRefuses (textField catalog record c) := by
  refine (neverRefuses_scalarField c).bind fun field _ => ?_
  split <;> exact nofun

theorem neverRefuses_collectionField (name : String) :
    NeverRefuses (collectionField catalog record name) := by
  refine (Catalog.neverRefuses_walk name _).bind fun resolution _ => ?_
  cases resolution <;> exact nofun

theorem neverRefuses_comparison (c : Criterion) :
    NeverRefuses (comparison catalog env record c) := by
  unfold comparison
  split
  · exact nofun
  · refine (neverRefuses_scalarField c).bind fun field _ => ?_
    exact (Operand.neverRefuses_comparand c _ _).bind fun _ _ => nofun

theorem neverRefuses_textTest (test : TextTest) (c : Criterion) :
    NeverRefuses (textTest catalog env record test c) := by
  refine (neverRefuses_textField c).bind fun field _ => ?_
  exact (Operand.neverRefuses_comparand c _ _).bind fun _ _ => nofun

theorem neverRefuses_patternMatch (c : Criterion) :
    NeverRefuses (patternMatch catalog env record c) := by
  have hholds (ignoreCase : Bool) (pattern : Value) :
      NeverRefuses (patternHolds ignoreCase pattern) := by
    unfold patternHolds
    split
    · split <;> exact nofun
    · exact nofun
  refine (neverRefuses_textField c).bind fun field _ => ?_
  refine (Operand.neverRefuses_comparand c _ _).bind fun pattern _ => ?_
  refine NeverRefuses.bind ?_ fun _ _ => nofun
  unfold patternTest
  split
  · exact nofun
  · exact (hholds _ _).bind fun _ _ => nofun
  · exact (hholds _ _).bind fun _ _ => nofun

/-- Predicates of a record type have one parameter, so none is refused its negation. -/
theorem neverRefuses_negate {p : Predicate} (h : p.lambda.Typed catalog record) :
    NeverRefuses p.negate := by
  have harity : p.lambda.arity = 1 := congrArg List.length h.parameters
  refine NeverRefuses.bind ?_ fun _ _ => nofun
  rw [Lambda.negate, if_pos harity]
  exact nofun

/-- Parts are joined without refusing a negation when each of them compiles so. -/
theorem neverRefuses_joinParts {join : Predicate → Predicate → Predicate} {parts : List Criterion}
    (hparts : ∀ c ∈ parts, NeverRefuses (criterion catalog env record c)) (start : Predicate) :
    NeverRefuses (joinParts catalog env record join start parts) := by
  induction parts generalizing start with
  | nil => exact nofun
  | cons c rest ih =>
      obtain ⟨hc, hrest⟩ := List.forall_mem_cons.mp hparts
      rw [joinParts_cons]
      exact hc.bind fun _ _ => ih hrest _

/-- Compiling a criterion never refuses a negation. -/
theorem neverRefuses_criterion (c : Criterion) :
    NeverRefuses (criterion catalog env record c) := by
  induction c using Criterion.induction generalizing record with
  | node op field right value inner parts _ ihInner ihParts =>
      have hpart (c : Criterion) (hc : c ∈ parts) : NeverRefuses (criterion catalog env record c) :=
        ihParts c hc
      have hand : NeverRefuses
          (criterion catalog env record (.node .and field right value inner parts)) := by
        rw [criterion, conjunction_eq_joinParts]
        exact neverRefuses_joinParts hpart _
      have hor : NeverRefuses
          (criterion catalog env record (.node .or field right value inner parts)) := by
        rw [criterion, disjunction_eq_joinParts]
        exact neverRefuses_joinParts hpart _
      unfold criterion
      cases op with
      | isTrue | isFalse => exact neverRefuses_ok _
      | and => exact hand
      | or => exact hor
      -- What is negated is compiled from the aggregate without the negation.
      | nand => exact hand.bind fun p hp => neverRefuses_negate (criterion_typed hp)
      | nor => exact hor.bind fun p hp => neverRefuses_negate (criterion_typed hp)
      | contains | startsWith | endsWith => exact neverRefuses_textTest _ _
      | like => exact neverRefuses_patternMatch _
      | any =>
          refine (neverRefuses_fieldName .any field).bind fun name _ => ?_
          cases inner with
          | none =>
              refine neverRefuses_error fun n hrefused => ?_
              contradiction
          | some inner =>
              refine (neverRefuses_collectionField name).bind fun found _ => ?_
              exact (ihInner inner rfl).bind fun p _ => neverRefuses_ok _
      | _ => exact neverRefuses_comparison _

end Compile

/-- Lowering a typed lambda fails only at a collection in it that has no link. -/
theorem Sql.lowerLambda_eq_error {l : Lambda} (hl : l.Typed catalog record) {e : LowerError}
    (h : lowerLambda l = .error e) :
    ∃ path, l.body.HasUnlinked path ∧ e = .unlinkedCollection path := by
  rw [lowerLambda, hl.parameters] at h
  rcases bind_eq_error_iff.mp h with hscope | ⟨scope, -, h⟩
  · contradiction
  rcases bind_eq_error_iff.mp h with hbody | ⟨low, -, h⟩
  · exact lower_eq_error hl.body.oneParameter hbody
  · contradiction

/-- The lambda of a compiled criterion is typed: in it and in every lambda inside, the one parameter
names the record type, a path leads to a scalar of the type recorded with it or to the collection
recorded with it, and a value is null or of the type of its field. So compiling never refuses to
negate, and lowering never refuses a number of parameters. -/
theorem Compile.compiled_lambda_typed (catalog : Catalog ι) (env : Environment) (record : ι)
    (c : Criterion) :
    (∀ p, criterion catalog env record c = .ok p →
      p.lambda.Typed catalog record ∧ ∀ n, Sql.lowerLambda p.lambda ≠ .error (.multiParameter n)) ∧
      ∀ n, criterion catalog env record c ≠ .error (.invalidNegation n) := by
  refine ⟨fun p hp => ⟨criterion_typed hp, fun n hn => ?_⟩, neverRefuses_criterion c⟩
  obtain ⟨path, -, herror⟩ := Sql.lowerLambda_eq_error (criterion_typed hp) hn
  contradiction

/-- The total of an order is compared with a float, although it was compared with an integer. -/
theorem Compile.large_orders_typed :
    ∃ p value predicate link,
      criterion Sample.catalog Sample.office .customer Sample.largeOrders = .ok p ∧
        p.lambda.body = .any "orders" "Order" link ["Order"] predicate ∧
        predicate = .compare ⟨"total", .float⟩ .gt value false ∧ value.Fits .float ∧
        Sql.lowerLambda p.lambda ≠ .error (.multiParameter 0) := by
  obtain ⟨p, value, predicate, link, hp, hbody, hpredicate⟩ : ∃ p value predicate link,
      criterion Sample.catalog Sample.office .customer Sample.largeOrders = .ok p ∧
        p.lambda.body = .any "orders" "Order" link ["Order"] predicate ∧
        predicate = .compare ⟨"total", .float⟩ .gt value false :=
    ⟨_, _, _, _, by with_unfolding_all rfl, rfl, rfl⟩
  obtain ⟨htyped, hlower⟩ :=
    (compiled_lambda_typed Sample.catalog Sample.office .customer Sample.largeOrders).1 p hp
  have hany := htyped.body
  rw [hbody, hpredicate] at hany
  obtain ⟨element, -, -, -, hcompare⟩ := hany.of_any
  cases hcompare with
  | compare _ hvalue _ => exact ⟨p, value, predicate, link, hp, hbody, hpredicate, hvalue, hlower 0⟩

end Selection
