/-
  Samples of rationals: means, resampling by index, order statistics.

  Two samples are compared pointwise (`List.Forall₂ (· ≤ ·)`). The mean, a resample by
  fixed indices and every order statistic are monotone for that order, so a percentile
  bootstrap whose indices do not depend on the values is monotone too.
-/
import Mathlib.Algebra.Order.BigOperators.Group.List
import Mathlib.Algebra.Order.Field.Rat
import Mathlib.Data.List.Sort
import Mathlib.Data.Rat.Floor
import Mathlib.Tactic.GCongr
import Mathlib.Tactic.Linarith
import Mathlib.Tactic.Positivity

namespace Sample

/-- The mean; zero for the empty sample. -/
def mean (xs : List ℚ) : ℚ := xs.sum / xs.length

/-- The values at the given positions. -/
def resample (xs : List ℚ) (idx : List ℕ) : List ℚ := idx.map fun i => xs.getD i 0

/-- `xs` lies below `ys`, value by value. -/
abbrev Below (xs ys : List ℚ) : Prop := List.Forall₂ (· ≤ ·) xs ys

theorem below_map {α β : Type*} {f : α → ℚ} {g : β → ℚ} {l : List α} {l' : List β}
    (h : List.Forall₂ (fun a b => f a ≤ g b) l l') : Below (l.map f) (l'.map g) := by
  induction h with
  | nil => exact .nil
  | cons hab _ ih => exact .cons hab ih

theorem mean_mono {xs ys : List ℚ} (h : Below xs ys) : mean xs ≤ mean ys := by
  unfold mean
  rw [h.length_eq]
  have hsum : xs.sum ≤ ys.sum := List.Forall₂.sum_le_sum h
  gcongr

theorem sum_zipWith_sub {xs ys : List ℚ} (h : xs.length = ys.length) :
    (xs.zipWith (· - ·) ys).sum = xs.sum - ys.sum := by
  induction xs generalizing ys with
  | nil => rw [List.length_eq_zero_iff.mp h.symm, List.zipWith_nil_left, List.sum_nil, sub_zero]
  | cons x xs ih =>
      cases ys with
      | nil => cases h
      | cons y ys =>
          rw [List.zipWith_cons_cons, List.sum_cons, List.sum_cons, List.sum_cons,
            ih (Nat.succ.inj h)]
          ring

/-- The mean of paired differences is the difference of the means. -/
theorem mean_zipWith_sub {xs ys : List ℚ} (h : xs.length = ys.length) :
    mean (xs.zipWith (· - ·) ys) = mean xs - mean ys := by
  unfold mean
  rw [sum_zipWith_sub h, List.length_zipWith, h, min_self, sub_div]

theorem getD_mono {xs ys : List ℚ} (h : Below xs ys) (i : ℕ) (d : ℚ) :
    xs.getD i d ≤ ys.getD i d := by
  induction h generalizing i with
  | nil => exact le_rfl
  | cons hxy _ ih =>
      cases i with
      | zero => simpa using hxy
      | succ i => simpa using ih i

theorem resample_mono {xs ys : List ℚ} (h : Below xs ys) (idx : List ℕ) :
    Below (resample xs idx) (resample ys idx) := by
  induction idx with
  | nil => exact .nil
  | cons i idx ih => exact .cons (getD_mono h i 0) ih

/-- Values that grow by a factor from each to every later one have grown by its power at the
    end. -/
theorem pow_mul_le_of_pairwise {α : Type*} {f : α → ℚ} {r : ℚ} (hr : 0 ≤ r) {a : α} {l : List α}
    (h : (a :: l).Pairwise fun x y => r * f x ≤ f y) {z : α}
    (hz : (a :: l).getLast? = some z) : r ^ l.length * f a ≤ f z := by
  induction l using List.reverseRecOn generalizing z with
  | nil =>
      rw [List.getLast?_singleton] at hz
      rw [List.length_nil, pow_zero, one_mul, Option.some.inj hz]
  | append_singleton l b ih =>
      rw [← List.cons_append] at h hz
      obtain ⟨hinit, -, hlast⟩ := List.pairwise_append.mp h
      obtain rfl : b = z := by
        rw [List.getLast?_concat] at hz
        exact Option.some.inj hz
      obtain ⟨y, hy⟩ : ∃ y, (a :: l).getLast? = some y :=
        ⟨_, List.getLast?_eq_some_getLast (List.cons_ne_nil a l)⟩
      have hgrown := ih hinit hy
      have hstep := hlast y (List.mem_of_getLast? hy) b (List.mem_singleton_self b)
      calc r ^ (l ++ [b]).length * f a = r * (r ^ l.length * f a) := by
            rw [List.length_append, List.length_singleton, pow_succ']
            ring
        _ ≤ r * f y := mul_le_mul_of_nonneg_left hgrown hr
        _ ≤ f b := hstep

/-! ## Order statistics -/

/-- The sample in increasing order. -/
def sorted (xs : List ℚ) : List ℚ := xs.insertionSort (· ≤ ·)

/-- Inserting the larger value into the larger sorted sample keeps the samples ordered. -/
theorem orderedInsert_mono {a b : ℚ} {xs ys : List ℚ} (hab : a ≤ b) (h : Below xs ys)
    (hx : xs.Pairwise (· ≤ ·)) (hy : ys.Pairwise (· ≤ ·)) :
    Below (xs.orderedInsert (· ≤ ·) a) (ys.orderedInsert (· ≤ ·) b) := by
  induction h generalizing a b with
  | nil => simpa using hab
  | @cons x y xs ys hxy hrest ih =>
      have hx' := List.pairwise_cons.mp hx
      have hy' := List.pairwise_cons.mp hy
      rw [List.orderedInsert_cons, List.orderedInsert_cons]
      by_cases hax : a ≤ x
      · by_cases hby : b ≤ y
        · rw [if_pos hax, if_pos hby]
          exact .cons hab (.cons hxy hrest)
        · -- `a` goes first on the left, `y` on the right; `x` now meets the insertion of `b`
          rw [if_pos hax, if_neg hby]
          have hself : xs.orderedInsert (· ≤ ·) x = x :: xs := by
            cases xs with
            | nil => rfl
            | cons z zs => rw [List.orderedInsert_cons, if_pos (hx'.1 z List.mem_cons_self)]
          rw [← hself]
          exact .cons (hax.trans hxy) (ih (by linarith) hx'.2 hy'.2)
      · by_cases hby : b ≤ y
        · rw [if_neg hax, if_pos hby]
          have hself : ys.orderedInsert (· ≤ ·) y = y :: ys := by
            cases ys with
            | nil => rfl
            | cons z zs => rw [List.orderedInsert_cons, if_pos (hy'.1 z List.mem_cons_self)]
          rw [← hself]
          exact .cons (by linarith) (ih (by linarith) hx'.2 hy'.2)
        · rw [if_neg hax, if_neg hby]
          exact .cons hxy (ih hab hx'.2 hy'.2)

theorem sorted_mono {xs ys : List ℚ} (h : Below xs ys) : Below (sorted xs) (sorted ys) := by
  unfold sorted
  induction h with
  | nil => exact .nil
  | cons hxy _ ih =>
      rw [List.insertionSort_cons, List.insertionSort_cons]
      exact orderedInsert_mono hxy ih (List.pairwise_insertionSort _ _)
        (List.pairwise_insertionSort _ _)

/-- The quantile at `q`, interpolated linearly between the two nearest order statistics. -/
def linearQuantile (xs : List ℚ) (q : ℚ) : ℚ :=
  let s := sorted xs
  let h := q * (xs.length - 1)
  let i := min ⌊h⌋.toNat (xs.length - 1)
  let w := max 0 (min 1 (h - i))
  (1 - w) * s.getD i 0 + w * s.getD (min (i + 1) (xs.length - 1)) 0

theorem linearQuantile_mono {xs ys : List ℚ} (h : Below xs ys) (q : ℚ) :
    linearQuantile xs q ≤ linearQuantile ys q := by
  unfold linearQuantile
  simp only [← h.length_eq]
  have hs := sorted_mono h
  have hw0 : ∀ t : ℚ, 0 ≤ max 0 (min 1 t) := fun t => le_max_left _ _
  have hw1 : ∀ t : ℚ, 0 ≤ 1 - max 0 (min 1 t) := by
    intro t
    have : max 0 (min 1 t) ≤ (1 : ℚ) := max_le zero_le_one (min_le_left _ _)
    linarith
  exact add_le_add (mul_le_mul_of_nonneg_left (getD_mono hs _ 0) (hw1 _))
    (mul_le_mul_of_nonneg_left (getD_mono hs _ 0) (hw0 _))

end Sample
