/-
  An exclusive try-lock and who holds it.

  A party's phase says whether it holds the lock (`holds`); the lock itself names its holder,
  if any. `Owned` says that the two agree, from which at most one party holds it. A step of
  one party that leaves the lock alone, takes it when it is free or drops it keeps `Owned`.
-/
import Mathlib.Logic.Function.Basic

namespace AdvisoryLock

variable {ι φ : Type*} {holds : φ → Bool} {holder holder' : Option ι} {phase : ι → φ}

/-- Exactly the holder is in a phase that holds the lock. -/
def Owned (holds : φ → Bool) (holder : Option ι) (phase : ι → φ) : Prop :=
  ∀ i, holds (phase i) = true ↔ holder = some i

theorem owned_start {x : φ} (hx : holds x = false) : Owned holds none fun _ : ι => x := by
  intro i
  rw [hx]
  simp

theorem Owned.exclusive (h : Owned holds holder phase) {i j : ι} (hi : holds (phase i) = true)
    (hj : holds (phase j) = true) : i = j :=
  Option.some.inj (((h i).mp hi).symm.trans ((h j).mp hj))

/-- What a step of party `i` from phase `x` to phase `y` does with the lock. -/
inductive Uses (holds : φ → Bool) (i : ι) (holder : Option ι) (x y : φ) : Option ι → Prop where
  | keeps (h : holds y = holds x) : Uses holds i holder x y holder
  | takes (hfree : holder = none) (h : holds y = true) : Uses holds i holder x y (some i)
  | drops (hx : holds x = true) (hy : holds y = false) : Uses holds i holder x y none

theorem Owned.step [DecidableEq ι] (h : Owned holds holder phase) {i : ι} {y : φ}
    (huses : Uses holds i holder (phase i) y holder') :
    Owned holds holder' (Function.update phase i y) := by
  intro j
  by_cases hj : j = i
  · subst hj
    rw [Function.update_self]
    cases huses with
    | keeps hsame => rw [hsame]; exact h j
    | takes _ hy => simp [hy]
    | drops _ hy => simp [hy]
  · rw [Function.update_of_ne hj]
    cases huses with
    | keeps _ => exact h j
    | takes hfree _ =>
        rw [h j, hfree]
        simp [Ne.symm hj]
    | drops hx _ =>
        rw [h j, (h i).mp hx]
        simp [Ne.symm hj]

end AdvisoryLock
