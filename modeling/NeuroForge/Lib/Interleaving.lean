/-
  Parties that take turns on a shared store.

  A step of one party reads the shared state and every phase, and changes the shared state
  and its own phase (`step`). An invariant of such a system has three parts (`Holds`): one
  about the shared state, one about a party's phase against it, one about two parties. Of a
  single step, the acting party has to establish its own parts and the phases of the others
  have to be stable (`Holds.step`).
-/
import Mathlib.Logic.Function.Basic
import NeuroForge.Lib.Transition

namespace Interleaving

variable {ι σ φ α : Type*} [DecidableEq ι]

structure System (ι σ φ : Type*) where
  shared : σ
  phase : ι → φ

/-- The step of one party, `next` being what it does. -/
def step (next : System ι σ φ → ι → α → Option (σ × φ)) (s : System ι σ φ) (a : ι × α) :
    Option (System ι σ φ) :=
  (next s a.1 a.2).map fun r => ⟨r.1, Function.update s.phase a.1 r.2⟩

theorem step_eq_some {next : System ι σ φ → ι → α → Option (σ × φ)} {s s' : System ι σ φ}
    {a : ι × α} : step next s a = some s' ↔
      ∃ r, next s a.1 a.2 = some r ∧ s' = ⟨r.1, Function.update s.phase a.1 r.2⟩ := by
  unfold step
  rw [Option.map_eq_some_iff]
  constructor
  · rintro ⟨r, hr, rfl⟩
    exact ⟨r, hr, rfl⟩
  · rintro ⟨r, hr, rfl⟩
    exact ⟨r, hr, rfl⟩

/-- A step changes the shared state and the phase of the party that takes it. -/
theorem step_spec {next : System ι σ φ → ι → α → Option (σ × φ)} {s s' : System ι σ φ}
    {a : ι × α} (h : step next s a = some s') :
    next s a.1 a.2 = some (s'.shared, s'.phase a.1) ∧ ∀ j, j ≠ a.1 → s'.phase j = s.phase j := by
  obtain ⟨r, hr, rfl⟩ := step_eq_some.mp h
  refine ⟨?_, fun j hj => Function.update_of_ne hj _ _⟩
  have hself : Function.update s.phase a.1 r.2 a.1 = r.2 := Function.update_self ..
  rw [hr]
  exact congrArg (fun y => some (r.1, y)) hself.symm

/-- An invariant in its parts. -/
structure Holds (Shared : σ → Prop) (Local : σ → φ → Prop) (Apart : φ → φ → Prop)
    (s : System ι σ φ) : Prop where
  shared : Shared s.shared
  own : ∀ i, Local s.shared (s.phase i)
  apart : ∀ i j, i ≠ j → Apart (s.phase i) (s.phase j)

section Rule

variable {next : System ι σ φ → ι → α → Option (σ × φ)} {Shared : σ → Prop}
  {Local : σ → φ → Prop} {Apart : φ → φ → Prop}

/-- The rule of one step. -/
theorem Holds.step (hsymm : ∀ x y, Apart x y → Apart y x) {s s' : System ι σ φ} {a : ι × α}
    (h : Holds Shared Local Apart s) (hstep : Interleaving.step next s a = some s')
    (hactor : ∀ r, next s a.1 a.2 = some r →
      Shared r.1 ∧ Local r.1 r.2 ∧ ∀ j, j ≠ a.1 → Apart r.2 (s.phase j))
    (hothers : ∀ r, next s a.1 a.2 = some r → ∀ j, j ≠ a.1 → Local r.1 (s.phase j)) :
    Holds Shared Local Apart s' := by
  obtain ⟨r, hr, rfl⟩ := step_eq_some.mp hstep
  obtain ⟨hshared, hown, hapart⟩ := hactor r hr
  refine ⟨hshared, fun i => ?_, fun i j hij => ?_⟩
  · by_cases hi : i = a.1
    · subst hi
      simpa using hown
    · simpa [Function.update_of_ne hi] using hothers r hr i hi
  · by_cases hi : i = a.1
    · subst hi
      have hj : j ≠ a.1 := fun hj => hij hj.symm
      simpa [Function.update_of_ne hj] using hapart j hj
    · by_cases hj : j = a.1
      · subst hj
        simpa [Function.update_of_ne hi] using hsymm _ _ (hapart i hi)
      · simpa [Function.update_of_ne hi, Function.update_of_ne hj] using h.apart i j hij

end Rule

end Interleaving
