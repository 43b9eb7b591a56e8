import Selection.Proofs.Compilation
import Selection.Sample.Criteria

/-! # Compiled lambdas are folded

Joining and negating formulas folds the constants among them pair by pair, from the verdict that
changes nothing on. What is left of a constant in the end is the whole body of a lambda, that of a
quantifier's predicate included; no chain and no negation has one inside, and no chain has fewer
than two items. Delegation and lowering find constants by looking at a body alone.
-/

namespace Selection

namespace Formula

/-- The items of a chain are two or more, and none of them is a constant. -/
def TightItems (items : List Formula) : Prop :=
  2 ≤ items.length ∧ ∀ item ∈ items, item.constant? = none

/-- Neither the items of a chain nor what is negated is a constant, and a chain has two items or
more. -/
def Tight : Formula → Prop
  | and items | or items => TightItems items
  | not item => item.constant? = none
  | _ => True

/-- Every formula inside a formula, at any depth and in its quantifiers, is tight. -/
def Folded (f : Formula) : Prop :=
  ∀ g ∈ f.subformulas, g.Tight

variable {f g : Formula}

/-! ## Formulas by their form -/

theorem folded_constant (verdict : Bool) : (constant verdict).Folded := by
  simp [Folded, subformulas, Tight]

theorem folded_compare (field : FieldRef) (op : Comparison) (value : Value) (lexical : Bool) :
    (compare field op value lexical).Folded := by
  simp [Folded, subformulas, Tight]

theorem folded_text (field : FieldRef) (test : TextTest) (part : Value) :
    (text field test part).Folded := by
  simp [Folded, subformulas, Tight]

theorem folded_pattern (field : FieldRef) (value : Value) : (pattern field value).Folded := by
  simp [Folded, subformulas, Tight]

theorem folded_any_iff {path element : String} {link : Option Link} {parameters : List String} :
    (any path element link parameters f).Folded ↔ f.Folded := by
  simp [Folded, subformulas, Tight]

theorem folded_not_iff : (not f).Folded ↔ f.constant? = none ∧ f.Folded := by
  simp [Folded, subformulas, Tight]

theorem folded_allSubformulas_iff {items : List Formula} :
    (∀ g ∈ allSubformulas items, g.Tight) ↔ ∀ item ∈ items, item.Folded := by
  simp only [mem_allSubformulas, Folded]
  exact ⟨fun h item hitem g hg => h g ⟨item, hitem, hg⟩,
    fun h g ⟨item, hitem, hg⟩ => h item hitem g hg⟩

theorem folded_and_iff {items : List Formula} :
    (and items).Folded ↔ TightItems items ∧ ∀ item ∈ items, item.Folded := by
  rw [Folded, subformulas, List.forall_mem_cons, folded_allSubformulas_iff]
  rfl

theorem folded_or_iff {items : List Formula} :
    (or items).Folded ↔ TightItems items ∧ ∀ item ∈ items, item.Folded := by
  rw [Folded, subformulas, List.forall_mem_cons, folded_allSubformulas_iff]
  rfl

/-! ## Joining and negating -/

/-- One more item that is no constant keeps a list tight. -/
theorem TightItems.append {items : List Formula} (h : TightItems items)
    (hnone : g.constant? = none) : TightItems (items ++ [g]) := by
  refine ⟨?_, List.forall_mem_append.mpr ⟨h.2, List.forall_mem_singleton.mpr hnone⟩⟩
  rw [List.length_append]
  exact Nat.le_add_right_of_le h.1

theorem tightItems_pair (hf : f.constant? = none) (hg : g.constant? = none) :
    TightItems [f, g] :=
  ⟨Nat.le_refl 2, by simp [hf, hg]⟩

/-- The conjunction of folded formulas is folded. -/
theorem Folded.conj (hf : f.Folded) (hg : g.Folded) : (f.conj g).Folded := by
  apply conj_cases f g
  · exact fun _ => hg
  · exact fun _ => hf
  · exact fun _ => folded_constant false
  · rintro items rfl hnone
    obtain ⟨htight, hitems⟩ := folded_and_iff.mp hf
    refine folded_and_iff.mpr ⟨htight.append hnone, ?_⟩
    exact List.forall_mem_append.mpr ⟨hitems, List.forall_mem_singleton.mpr hg⟩
  · intro hfNone hgNone
    exact folded_and_iff.mpr ⟨tightItems_pair hfNone hgNone, by simp [hf, hg]⟩

theorem Folded.disj (hf : f.Folded) (hg : g.Folded) : (f.disj g).Folded := by
  apply disj_cases f g
  · exact fun _ => hg
  · exact fun _ => hf
  · exact fun _ => folded_constant true
  · rintro items rfl hnone
    obtain ⟨htight, hitems⟩ := folded_or_iff.mp hf
    refine folded_or_iff.mpr ⟨htight.append hnone, ?_⟩
    exact List.forall_mem_append.mpr ⟨hitems, List.forall_mem_singleton.mpr hg⟩
  · intro hfNone hgNone
    exact folded_or_iff.mpr ⟨tightItems_pair hfNone hgNone, by simp [hf, hg]⟩

theorem Folded.neg (hf : f.Folded) : f.neg.Folded := by
  cases f with
  | constant verdict => exact folded_constant _
  | _ => exact folded_not_iff.mpr ⟨rfl, hf⟩

end Formula

namespace Compile

variable {ι : Type} {catalog : Catalog ι} {env : Environment} {record : ι} {c : Criterion}
  {p : Predicate}

/-- The formula of a test of a field is folded. -/
theorem Tested.folded (h : Tested catalog env record c p) : p.lambda.body.Folded := by
  cases h with
  | comparison => exact Formula.folded_compare _ _ _ _
  | textTest => exact Formula.folded_text _ _ _
  | pattern => exact Formula.folded_pattern _ _

/-- In the lambda of a compiled criterion, and in the predicate of every quantifier in it, a
constant is a whole body or is not there: no chain and no negation has one inside, and every chain
has two items or more. -/
theorem compiled_lambda_folded (h : criterion catalog env record c = .ok p) :
    p.lambda.body.Folded := by
  apply criterion_invariant (fun _ p => p.lambda.body.Folded) (h := h)
  · exact fun record verdict => Formula.folded_constant verdict
  · exact fun record c p hp => hp.folded
  · exact fun record path element link p _ hp => Formula.folded_any_iff.mpr hp
  · intro record p q hp hq
    rw [Predicate.and_lambda]
    exact hp.conj hq
  · intro record p q hp hq
    rw [Predicate.or_lambda]
    exact hp.disj hq
  · intro record p q hp hnegate
    obtain ⟨l, hl, rfl⟩ := Predicate.negate_eq_ok hnegate
    obtain ⟨-, rfl⟩ := Lambda.negate_eq_ok hl
    rw [Predicate.folded_lambda]
    exact hp.neg

/-- Constants in the middle of a negated tree are folded away, and the one that accepts every kid
stays as the whole body of its predicate. -/
theorem constants_are_folded_away :
    ∃ p, criterion Sample.catalog Sample.office .wide
        (.group .nor
          [.group .and [.test .equal "i" (.constant (.int 1)), .bare .isTrue,
              .test .equal "b" (.constant (.boolean true))],
            .bare .isFalse, .any "kids" (.group .or [.bare .isTrue, .bare .isFalse])]) = .ok p ∧
      p.lambda.body = .not (.or
        [.and [.compare ⟨"i", .int⟩ .eq (.int 1) false,
            .compare ⟨"b", .boolean⟩ .eq (.boolean true) false],
          .any "kids" "Wide" (some ⟨"parentId", "id"⟩) ["Wide"] (.constant true)]) ∧
      p.lambda.body.Folded := by
  obtain ⟨p, hcompile, hbody⟩ : ∃ p, criterion Sample.catalog Sample.office .wide
      (.group .nor
        [.group .and [.test .equal "i" (.constant (.int 1)), .bare .isTrue,
            .test .equal "b" (.constant (.boolean true))],
          .bare .isFalse, .any "kids" (.group .or [.bare .isTrue, .bare .isFalse])]) = .ok p ∧
      p.lambda.body = .not (.or
        [.and [.compare ⟨"i", .int⟩ .eq (.int 1) false,
            .compare ⟨"b", .boolean⟩ .eq (.boolean true) false],
          .any "kids" "Wide" (some ⟨"parentId", "id"⟩) ["Wide"] (.constant true)]) :=
    ⟨_, by with_unfolding_all rfl, rfl⟩
  exact ⟨p, hcompile, hbody, compiled_lambda_folded hcompile⟩

end Compile

end Selection
