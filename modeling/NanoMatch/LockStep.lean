import Mathlib.Logic.Relation

/-!
# Rules for runs

A property which every possible step keeps holds after every possible run.  Two
systems which step by step stay related, and of which one can stop only when the
other can, end in related states.
-/

namespace PartialRun

variable {σ α : Type*} {step : σ → α → Option σ} {motive : σ → Prop} {state final : σ}

theorem invariant
    (hstep : ∀ state action next, motive state → step state action = some next → motive next)
    {actions : List α} (hstart : motive state)
    (hrun : actions.foldlM step state = some final) : motive final := by
  induction actions generalizing state with
  | nil =>
      rw [List.foldlM_nil] at hrun
      have heq : state = final := Option.some.inj hrun
      rwa [← heq]
  | cons action actions ih =>
      rw [List.foldlM_cons] at hrun
      obtain ⟨next, hnext, hrest⟩ := Option.bind_eq_some_iff.mp hrun
      exact ih (hstep state action next hstart hnext) hrest

/-- The same for a property of the state and the actions so far. -/
theorem invariant_past {motive : List α → σ → Prop}
    (hstep : ∀ past state action next, motive past state → step state action = some next →
      motive (past ++ [action]) next)
    (past : List α) {actions : List α} (hstart : motive past state)
    (hrun : actions.foldlM step state = some final) : motive (past ++ actions) final := by
  induction actions generalizing past state with
  | nil =>
      rw [List.foldlM_nil] at hrun
      have heq : state = final := Option.some.inj hrun
      rwa [List.append_nil, ← heq]
  | cons action actions ih =>
      rw [List.foldlM_cons] at hrun
      obtain ⟨next, hnext, hrest⟩ := Option.bind_eq_some_iff.mp hrun
      have hmore := ih _ (hstep past state action next hstart hnext) hrest
      rwa [List.append_assoc] at hmore

end PartialRun

/-! ## Two runs in lockstep -/

namespace LockStep

variable {α β : Type*} {stepA : α → α → Prop} {stepB : β → β → Prop} {related : α → β → Prop}
  {stopA : α → Prop} {stopB : β → Prop} {a a' : α} {b b' : β}

theorem reaches (hstep : ∀ a a' b b', related a b → stepA a a' → stepB b b' → related a' b')
    (hstop : ∀ a b, related a b → (stopA a ↔ stopB b))
    (hstuckA : ∀ a a', stepA a a' → ¬ stopA a) (hstuckB : ∀ b b', stepB b b' → ¬ stopB b)
    (hrunA : Relation.ReflTransGen stepA a a') (hendA : stopA a')
    (hrunB : Relation.ReflTransGen stepB b b') (hendB : stopB b')
    (hrelated : related a b) : related a' b' := by
  induction hrunA using Relation.ReflTransGen.head_induction_on generalizing b with
  | refl =>
      rcases hrunB.cases_head with hsame | ⟨next, hnext, _⟩
      · rw [← hsame]
        exact hrelated
      · exact absurd ((hstop _ _ hrelated).mp hendA) (hstuckB _ _ hnext)
  | head hfirst _ ih =>
      rcases hrunB.cases_head with hsame | ⟨next, hnext, hrest⟩
      · rw [← hsame] at hendB
        exact absurd ((hstop _ _ hrelated).mpr hendB) (hstuckA _ _ hfirst)
      · exact ih hrest (hstep _ _ _ _ hrelated hfirst hnext)

end LockStep
