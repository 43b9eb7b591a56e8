import Mathlib.Data.List.Forall2
import Selection.Proofs.Compilation
import Selection.Sample.Criteria

/-! # What a compilation depends on

A criterion is compiled in an environment. All that it asks the environment for is how pattern tests
are evaluated, and what the tokens stand for that are written in it: in a right-hand side or an
operand of a sum, also inside aggregates and quantifiers. So two environments that agree on these
compile it to the same predicate or fail with the same error. What a token stands for is used as it
is; a string that comes from the context is not read as a sigil once more.
-/

namespace Selection

/-- The token of a value, if it is a string in the form of a sigil. -/
def Sigil.token? : Value → Option String
  | .string s => (parse? s).map (·.1)
  | _ => none

/-- Adds values to a sum, from left to right, each read as what can be added to the total before
it. -/
def Sum.total : Option Value → List Value → Except CompileError Value
  | sum, [] => .ok (sum.getD .null)
  | none, v :: rest => total (some (operand none v)) rest
  | some t, v :: rest => do total (some (← add t (operand (some t) v))) rest

mutual

/-- The tokens that are written in a criterion: in its value if it is a constant, in its parts if it
is an aggregate or a sum, in its inner criterion if it is a quantifier, and in its right-hand side
if it is a test. -/
def Criterion.tokens : Criterion → List String
  | node op _ right value inner parts =>
    match op with
    | .isTrue | .isFalse => []
    | .constant => (value.bind Sigil.token?).toList
    | .and | .or | .nand | .nor | .add => allTokens parts
    | .any => presentTokens inner
    | _ => presentTokens right

/-- The tokens that are written in a criterion that may be missing. -/
def Criterion.presentTokens : Option Criterion → List String
  | none => []
  | some c => c.tokens

/-- The tokens that are written in some criteria. -/
def Criterion.allTokens : List Criterion → List String
  | [] => []
  | c :: rest => c.tokens ++ allTokens rest

end

theorem Criterion.mem_allTokens {parts : List Criterion} {name : String} :
    name ∈ allTokens parts ↔ ∃ c ∈ parts, name ∈ c.tokens := by
  induction parts with
  | nil => simp [allTokens]
  | cons c rest ih => simp [allTokens, ih]

namespace Environment

/-- Two environments give some tokens the same values or the same errors. -/
def AgreeOn (names : List String) (env env' : Environment) : Prop :=
  ∀ name ∈ names, Sigil.token env name = Sigil.token env' name

theorem AgreeOn.mono {names some : List String} {env env' : Environment}
    (h : AgreeOn names env env') (hsubset : some ⊆ names) : AgreeOn some env env' :=
  fun name hname => h name (hsubset hname)

end Environment

variable {env env' : Environment}

/-! ## Operands -/

/-- A value is resolved alike in environments that agree on its token. -/
theorem Sigil.resolve_congr {v : Value} (h : Environment.AgreeOn (token? v).toList env env') :
    resolve env v = resolve env' v := by
  cases v with
  | string s =>
      cases hparse : parse? s with
      | none => simp only [resolve, hparse]
      | some sigil =>
          have htoken : token env sigil.1 = token env' sigil.1 := h _ (by simp [token?, hparse])
          simp only [resolve, hparse, htoken]
  | _ => rfl

namespace Operand

theorem constant_congr {c : Criterion} (h : Environment.AgreeOn c.tokens env env') :
    constant env c = constant env' c := by
  obtain ⟨op, field, right, value, inner, parts⟩ := c
  cases op with
  | constant =>
      apply Sigil.resolve_congr
      cases value with
      | none => exact nofun
      | some v => exact h
  | _ => rfl

theorem total_congr {parts : List Criterion}
    (h : Environment.AgreeOn (Criterion.allTokens parts) env env') (sum : Option Value) :
    total env sum parts = total env' sum parts := by
  induction parts generalizing sum with
  | nil => rfl
  | cons c rest ih =>
      have hc : constant env c = constant env' c :=
        constant_congr (h.mono (List.subset_append_left _ _))
      have hrest := ih (h.mono (List.subset_append_right _ _))
      simp only [total, hc, hrest]

theorem rightHandSide_congr {right : Option Criterion}
    (h : Environment.AgreeOn (Criterion.presentTokens right) env env') :
    rightHandSide env right = rightHandSide env' right := by
  cases right with
  | none => rfl
  | some c =>
      obtain ⟨op, field, right, value, inner, parts⟩ := c
      cases op with
      | add => exact total_congr h none
      | _ => exact constant_congr h

/-- A sum is told by the values of its operands, which are not looked up again. -/
theorem total_eq {parts : List Criterion} {values : List Value}
    (h : List.Forall₂ (fun c v => constant env c = .ok v) parts values) (sum : Option Value) :
    total env sum parts = Sum.total sum values := by
  induction h generalizing sum with
  | nil => rfl
  | cons hhead _ ih =>
      cases sum with
      | none =>
          rw [total, hhead]
          exact ih _
      | some t =>
          rw [total, hhead]
          exact congrArg _ (funext fun v => ih (some v))

/-- A constant in the form of a sigil has the value of its token, or what its suffix makes of
that. -/
theorem constant_sigil {s name : String} {v : Value} (htoken : Sigil.token env name = .ok v) :
    (Sigil.parse? s = some (name, none) → constant env (.constant (.string s)) = .ok v) ∧
      ∀ suffix, Sigil.parse? s = some (name, some suffix) →
        constant env (.constant (.string s)) = Sigil.applySuffix s suffix v := by
  refine ⟨fun hparse => ?_, fun suffix hparse => ?_⟩
  · show Sigil.resolve env (.string s) = _
    simp only [Sigil.resolve, hparse, htoken]
    rfl
  · show Sigil.resolve env (.string s) = _
    simp only [Sigil.resolve, hparse, htoken]
    rfl

theorem comparand_congr {c : Criterion}
    (h : Environment.AgreeOn (Criterion.presentTokens c.rightHandSide) env env') (field : String)
    (type : DataType) : comparand env c field type = comparand env' c field type := by
  unfold comparand
  rw [rightHandSide_congr h]

end Operand

/-! ## Criteria -/

namespace Compile

variable {ι : Type} {catalog : Catalog ι} {record : ι}

theorem comparison_congr {c : Criterion}
    (h : Environment.AgreeOn (Criterion.presentTokens c.rightHandSide) env env') :
    comparison catalog env record c = comparison catalog env' record c := by
  unfold comparison
  simp only [Operand.comparand_congr h]

theorem textTest_congr {c : Criterion}
    (h : Environment.AgreeOn (Criterion.presentTokens c.rightHandSide) env env') (test : TextTest) :
    textTest catalog env record test c = textTest catalog env' record test c := by
  unfold textTest
  simp only [Operand.comparand_congr h]

theorem patternMatch_congr {c : Criterion}
    (h : Environment.AgreeOn (Criterion.presentTokens c.rightHandSide) env env')
    (hlike : env.settings.like = env'.settings.like) :
    patternMatch catalog env record c = patternMatch catalog env' record c := by
  unfold patternMatch
  simp only [Operand.comparand_congr h, hlike]

theorem joinParts_congr {join : Predicate → Predicate → Predicate} {parts : List Criterion}
    (h : ∀ c ∈ parts, criterion catalog env record c = criterion catalog env' record c)
    (start : Predicate) :
    joinParts catalog env record join start parts =
      joinParts catalog env' record join start parts := by
  induction parts generalizing start with
  | nil => rfl
  | cons c rest ih =>
      obtain ⟨hc, hrest⟩ := List.forall_mem_cons.mp h
      simp only [joinParts_cons, hc, ih hrest]

/-- Environments that evaluate patterns alike and agree on the tokens of a criterion compile it
alike. -/
theorem criterion_congr {c : Criterion} (hlike : env.settings.like = env'.settings.like)
    (h : Environment.AgreeOn c.tokens env env') :
    criterion catalog env record c = criterion catalog env' record c := by
  -- The induction is over all record types, since a quantifier compiles its criterion for another
  -- one.
  induction c using Criterion.induction generalizing record with
  | node op field right value inner parts _ ihInner ihParts =>
      have hparts (hall : Environment.AgreeOn (Criterion.allTokens parts) env env') :
          ∀ c ∈ parts, criterion catalog env record c = criterion catalog env' record c := by
        intro c hc
        apply ihParts c hc
        exact hall.mono fun name hname => Criterion.mem_allTokens.mpr ⟨c, hc, hname⟩
      unfold criterion
      cases op with
      | isTrue | isFalse => rfl
      | and | nand => simp only [conjunction_eq_joinParts, joinParts_congr (hparts h)]
      | or | nor => simp only [disjunction_eq_joinParts, joinParts_congr (hparts h)]
      | contains | startsWith | endsWith =>
          apply textTest_congr
          exact h
      | like => exact patternMatch_congr h hlike
      | any =>
          cases inner with
          | none => rfl
          | some inner =>
              have hinner (element : ι) : criterion catalog env element inner =
                  criterion catalog env' element inner := ihInner inner rfl h
              simp only [hinner]
      | constant | add => rfl
      | _ => exact comparison_congr h

/-- Two environments that evaluate patterns alike compile a criterion to the same predicate or fail
with the same error when they agree on the tokens written in it, and so always when none is. What a
token stands for is taken as it is, also when it is a string in the form of a sigil, by a constant
and by a sum. -/
theorem environments_compile_alike (catalog : Catalog ι)
    (hlike : env.settings.like = env'.settings.like) (record : ι) (c : Criterion) :
    (Environment.AgreeOn c.tokens env env' →
      criterion catalog env record c = criterion catalog env' record c) ∧
    (c.tokens = [] → criterion catalog env record c = criterion catalog env' record c) ∧
    (∀ s name v, Sigil.token env name = .ok v →
      (Sigil.parse? s = some (name, none) →
        Operand.constant env (.constant (.string s)) = .ok v) ∧
      ∀ suffix, Sigil.parse? s = some (name, some suffix) →
        Operand.constant env (.constant (.string s)) = Sigil.applySuffix s suffix v) ∧
    ∀ parts values, List.Forall₂ (fun part v => Operand.constant env part = .ok v) parts values →
      Operand.rightHandSide env (some (.group .add parts)) = Sum.total none values := by
  refine ⟨criterion_congr hlike, fun hnone => ?_, ?_, ?_⟩
  · apply criterion_congr hlike
    rw [hnone]
    exact nofun
  · exact fun s name v => Operand.constant_sigil
  · exact fun parts values hparts => Operand.total_eq hparts none

/-- In the morning and in the evening the context gives a name that looks like a sigil. The name is
searched for as it is, although the clock has moved on. -/
theorem name_is_searched_literally :
    Sample.morning.now ≠ Sample.evening.now ∧
      ∃ p link amount, criterion Sample.catalog Sample.morning .customer Sample.wanted = .ok p ∧
        criterion Sample.catalog Sample.evening .customer Sample.wanted = .ok p ∧
        p.lambda.body = .and [.compare ⟨"name", .string⟩ .eq (.string "\x7bNOW\x7d") false,
          .any "orders" "Order" link ["Order"]
            (.compare ⟨"total", .float⟩ .gt amount false)] := by
  have hagree : Environment.AgreeOn Sample.wanted.tokens Sample.morning Sample.evening := by
    intro name hname
    obtain rfl | rfl : name = "who" ∨ name = "limit" := by
      have htokens : Sample.wanted.tokens = ["who", "limit"] := by with_unfolding_all rfl
      simpa [htokens] using hname
    · rfl
    · rfl
  have hlike : Sample.morning.settings.like = Sample.evening.settings.like := rfl
  have halike := (environments_compile_alike Sample.catalog hlike .customer Sample.wanted).1 hagree
  obtain ⟨p, link, amount, hp, hbody⟩ : ∃ p link amount,
      criterion Sample.catalog Sample.morning .customer Sample.wanted = .ok p ∧
        p.lambda.body = .and [.compare ⟨"name", .string⟩ .eq (.string "\x7bNOW\x7d") false,
          .any "orders" "Order" link ["Order"]
            (.compare ⟨"total", .float⟩ .gt amount false)] :=
    ⟨_, _, _, by with_unfolding_all rfl, rfl⟩
  exact ⟨by decide, p, link, amount, hp, halike.symm.trans hp, hbody⟩

end Compile

end Selection
