import Mathlib.Init

/-!
# Machines

A `Machine` has states and labelled steps. What holds at its start and is kept by every step holds
in every state it reaches (`Invariant.reachable`); what every step keeps is kept by every run
(`Run.keeps`). `restrict` is the machine with only the steps that meet a condition.
-/

namespace Lib

universe u v

structure Machine (σ : Type u) (ι : Type v) where
  start : σ → Prop
  step : σ → ι → σ → Prop

namespace Machine

variable {σ : Type u} {ι : Type v} {M : Machine σ ι} {s s₁ s' : σ} {labels more : List ι}

/-- The steps of a list of labels, one after the other. -/
inductive Run (M : Machine σ ι) : σ → List ι → σ → Prop where
  | nil (s : σ) : Run M s [] s
  | cons {s s₁ s' : σ} {l : ι} {labels : List ι} (h : M.step s l s₁) (hrest : Run M s₁ labels s') :
      Run M s (l :: labels) s'

def Reachable (M : Machine σ ι) (s : σ) : Prop := ∃ s₀ labels, M.start s₀ ∧ M.Run s₀ labels s

structure Invariant (M : Machine σ ι) (I : σ → Prop) : Prop where
  start : ∀ s, M.start s → I s
  step : ∀ s l s', I s → M.step s l s' → I s'

/-- The steps that meet a condition on the state before and the label. -/
def restrict (M : Machine σ ι) (C : σ → ι → Prop) : Machine σ ι :=
  ⟨M.start, fun s l s' => M.step s l s' ∧ C s l⟩

theorem Run.append (h : M.Run s labels s₁) (h' : M.Run s₁ more s') :
    M.Run s (labels ++ more) s' := by
  induction h with
  | nil => exact h'
  | cons hstep _ ih => exact .cons hstep (ih h')

/-- What every step keeps, a run keeps. -/
theorem Run.keeps {I : σ → Prop} (h : M.Run s labels s')
    (hstep : ∀ s l s', I s → M.step s l s' → I s') (hs : I s) : I s' := by
  induction h with
  | nil => exact hs
  | cons hfirst _ ih => exact ih (hstep _ _ _ hs hfirst)

/-- The run of a machine that computes its steps. -/
theorem Run.of_foldlM {f : σ → ι → Option σ} (hstep : ∀ s l s', f s l = some s' → M.step s l s')
    (h : labels.foldlM f s = some s') : M.Run s labels s' := by
  induction labels generalizing s with
  | nil =>
    obtain rfl := Option.some.inj h
    exact .nil s
  | cons l labels ih =>
    rw [List.foldlM_cons] at h
    obtain ⟨s₁, hfirst, hrest⟩ := Option.bind_eq_some_iff.mp h
    exact .cons (hstep _ _ _ hfirst) (ih hrest)

theorem Run.reachable (h : M.Run s labels s') (hs : M.Reachable s) : M.Reachable s' := by
  obtain ⟨s₀, before, hstart, hrun⟩ := hs
  exact ⟨s₀, before ++ labels, hstart, hrun.append h⟩

theorem Invariant.reachable {I : σ → Prop} (h : M.Invariant I) (hs : M.Reachable s) : I s := by
  obtain ⟨s₀, labels, hstart, hrun⟩ := hs
  exact hrun.keeps h.step (h.start s₀ hstart)

end Machine

end Lib
