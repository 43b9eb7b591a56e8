import Selection.Proofs.Delegation
import Selection.Proofs.Evaluation
import Selection.Proofs.Lowering

/-! # Portable predicates on absent nested records

The filter of a portable predicate reads an absent nested record as a row of nulls, while in memory
every comparison with one of its fields is false. The two agree as long as none of these comparisons
accepts a null: an inequality with a value does, and so does an equality with null.
-/

namespace Selection

variable {ρ : Type} {ι : Type} {catalog : Catalog ι} {env : Environment} {record : ι}
  {c : Criterion} {p : Predicate} {like : String → String → Bool}

/-- A portable predicate is evaluated, and without a pattern it does not matter how patterns would
be. -/
theorem Predicate.evaluate_portable (hcompile : Compile.criterion catalog env record c = .ok p)
    (hportable : p.isPortable = true) :
    ∃ like, ∀ r, p.evaluate r = .ok (p.lambda.holds like r) := by
  obtain ⟨hsome, -⟩ := Bool.and_eq_true_iff.mp hportable
  obtain ⟨test, htest⟩ := Option.isSome_iff_exists.mp hsome
  obtain ⟨like, hlike⟩ := env.settings.like.exists_evaluates
  refine ⟨like, fun r => ?_⟩
  rw [evaluate, htest]
  exact congrArg Except.ok ((Consistent.compiled hcompile).agrees test htest like hlike r)

namespace Sql

variable {db : Engine ρ} {scopes : Scopes ρ}

/-- What is decided without patterns is decided with any meaning of patterns. -/
theorem Engine.Decides.of_no_pattern {f : Formula} (h : db.Decides like scopes f)
    (hnone : ¬f.HasPattern) (other : String → String → Bool) : db.Decides other scopes f := by
  induction f using Formula.induction generalizing scopes with
  | pattern field value => exact absurd (Formula.hasPattern_pattern field value) hnone
  | any path element link parameters predicate ih =>
      intro keys hkeys row hrow
      obtain ⟨hreads, hpredicate⟩ := h keys hkeys row hrow
      rw [Formula.hasPattern_any] at hnone
      exact ⟨hreads, fun hbelongs => ih (hpredicate hbelongs) hnone⟩
  | and items ih =>
      rw [Formula.hasPattern_and] at hnone
      exact decidesAll_iff.mpr fun item hitem =>
        ih item hitem (decidesAll_iff.mp h item hitem) fun hpattern => hnone ⟨item, hitem, hpattern⟩
  | or items ih =>
      rw [Formula.hasPattern_or] at hnone
      exact decidesAll_iff.mpr fun item hitem =>
        ih item hitem (decidesAll_iff.mp h item hitem) fun hpattern => hnone ⟨item, hitem, hpattern⟩
  | not item ih => exact ih h (fun hpattern => hnone (Formula.hasPattern_not.mpr hpattern))
  | _ => exact h

end Sql

end Selection
