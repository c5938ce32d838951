/-
  Token buckets.

  A bucket holds `capacity` tokens at most and gains `rate` of them a unit of time. `refill`
  is what a wait makes of its tokens: two waits one after the other are one wait
  (`refill_refill`), a full bucket stays full (`refill_full`), and one that waits
  `capacity / rate` is full whatever it held before (`refill_of_long`), so that nothing is
  lost by forgetting what it held. A wait adds `rate` tokens a unit at most (`refill_le_add`).
-/
import Mathlib.Algebra.Order.Field.Basic
import Mathlib.Tactic.Linarith
import Mathlib.Tactic.Ring

namespace TokenBucket

variable {K : Type*} [Field K] [LinearOrder K] [IsStrictOrderedRing K]
variable {capacity rate tokens : K}

/-- The tokens of a bucket after a wait. -/
def refill (capacity rate tokens elapsed : K) : K := min capacity (tokens + elapsed * rate)

omit [IsStrictOrderedRing K] in
theorem refill_le_capacity (elapsed : K) : refill capacity rate tokens elapsed ≤ capacity :=
  min_le_left _ _

omit [IsStrictOrderedRing K] in
theorem refill_le_add (elapsed : K) :
    refill capacity rate tokens elapsed ≤ tokens + rate * elapsed := by
  rw [mul_comm rate]
  exact min_le_right _ _

omit [IsStrictOrderedRing K] in
theorem refill_zero (h : tokens ≤ capacity) : refill capacity rate tokens 0 = tokens := by
  unfold refill
  rw [zero_mul, add_zero, min_eq_right h]

theorem le_refill (hrate : 0 ≤ rate) {elapsed : K} (helapsed : 0 ≤ elapsed)
    (h : tokens ≤ capacity) : tokens ≤ refill capacity rate tokens elapsed := by
  have hgain : 0 ≤ elapsed * rate := mul_nonneg helapsed hrate
  exact le_min h (by linarith)

theorem refill_nonneg (hrate : 0 ≤ rate) (hcapacity : 0 ≤ capacity) {elapsed : K}
    (helapsed : 0 ≤ elapsed) (h : 0 ≤ tokens) : 0 ≤ refill capacity rate tokens elapsed := by
  have hgain : 0 ≤ elapsed * rate := mul_nonneg helapsed hrate
  exact le_min hcapacity (by linarith)

theorem refill_full (hrate : 0 ≤ rate) {elapsed : K} (helapsed : 0 ≤ elapsed) :
    refill capacity rate capacity elapsed = capacity :=
  le_antisymm (refill_le_capacity elapsed) (le_refill hrate helapsed le_rfl)

/-- Two waits are one. -/
theorem refill_refill (hrate : 0 ≤ rate) (first : K) {second : K} (hsecond : 0 ≤ second) :
    refill capacity rate (refill capacity rate tokens first) second =
      refill capacity rate tokens (first + second) := by
  have hgain : 0 ≤ second * rate := mul_nonneg hsecond hrate
  have hfull : capacity ≤ capacity + second * rate := by linarith
  have hsum : tokens + (first + second) * rate = tokens + first * rate + second * rate := by
    ring
  unfold refill
  rw [hsum, min_add, ← min_assoc, min_eq_left hfull]

/-- A bucket that waits long enough is full. -/
theorem refill_of_long (hrate : 0 < rate) {elapsed : K} (hlong : capacity / rate ≤ elapsed)
    (h : 0 ≤ tokens) : refill capacity rate tokens elapsed = capacity := by
  have hgain : capacity ≤ elapsed * rate := (div_le_iff₀ hrate).mp hlong
  exact min_eq_left (by linarith)

end TokenBucket
