/-
  `evaluation/statistics.py`: the paired bootstrap comparison.

  Numbers are exact rationals. What is taken from numpy is the record `Numpy`: the indices
  a seeded generator draws (a function of the seed and the sizes only), the quantile and
  the sample standard deviation. Everything else is computed as the source computes it.

  `compare_improvement_mono`: the verdict LIKELY_IMPROVEMENT is monotone in the
  candidate's scores, for every quantile that is monotone in the sample.
-/
import Mathlib.Algebra.Order.AbsoluteValue.Basic
import NeuroForge.Lib.Rounding
import NeuroForge.Lib.Sample

namespace NeuroForge

open Rounding Sample

/-- The numpy functions the statistics call. -/
structure Numpy where
  /-- `rng.choice(xs, size=n)` called `rows` times on `default_rng(seed)`, as positions. -/
  choiceRows : (seed : ℤ) → (rows n : ℕ) → List (List ℕ)
  /-- `rng.choice(xs, size=(rows, n))` on `default_rng(seed)`, as positions. -/
  choiceMatrix : (seed : ℤ) → (rows n : ℕ) → List (List ℕ)
  /-- `np.quantile(xs, q)`. -/
  quantile : List ℚ → ℚ → ℚ
  /-- `xs.std(ddof=1)`. -/
  std : List ℚ → ℚ

/-- A larger sample has larger quantiles. -/
def Numpy.QuantileMonotone (np : Numpy) : Prop :=
  ∀ xs ys q, Below xs ys → np.quantile xs q ≤ np.quantile ys q

inductive Conclusion where
  | likelyImprovement | likelyRegression | inconclusive
  deriving DecidableEq, Repr

def Conclusion.value : Conclusion → String
  | .likelyImprovement => "LIKELY_IMPROVEMENT"
  | .likelyRegression => "LIKELY_REGRESSION"
  | .inconclusive => "INCONCLUSIVE"

structure ComparisonResult where
  meanDiff : ℚ
  relativeDiff : ℚ
  ciLow : ℚ
  ciHigh : ℚ
  effectSize : ℚ
  confidence : ℚ
  conclusion : Conclusion
  deriving DecidableEq

def ComparisonResult.summary (c : ComparisonResult) : String :=
  let pct := c.relativeDiff * 100
  (if 0 ≤ pct then "+" else "") ++ fixed 1 pct ++ "% (" ++ percent 0 c.confidence ++
    " CI [" ++ fixedSigned 1 (c.ciLow * 100) ++ "%, " ++ fixedSigned 1 (c.ciHigh * 100) ++
    "%]) -> " ++ c.conclusion.value

def bootstrapCi (np : Numpy) (diffs : List ℚ) (confidence : ℚ) (seed : ℤ)
    (nResamples : ℕ := 5000) : ℚ × ℚ :=
  let means := (np.choiceRows seed nResamples diffs.length).map fun idx =>
    mean (resample diffs idx)
  let alpha := 1 - confidence
  (np.quantile means (alpha / 2), np.quantile means (1 - alpha / 2))

inductive Side where
  | upper | lower
  deriving DecidableEq, Repr

def bootstrapMeanBound (np : Numpy) (values : List ℚ) (side : Side) (confidence : ℚ)
    (seed : ℤ) (nResamples : ℕ := 2000) : ℚ :=
  let means := (np.choiceMatrix seed nResamples values.length).map fun idx =>
    mean (resample values idx)
  np.quantile means (if side = .upper then confidence else 1 - confidence)

/-- The mean a relative difference is taken against; a zero mean counts as 1e-9. -/
def baselineMean (baselineScores : List ℚ) : ℚ :=
  if mean baselineScores = 0 then 1 / 10 ^ 9 else mean baselineScores

def compare (np : Numpy) (baselineScores candidateScores : List ℚ)
    (minRelativeImprovement confidence : ℚ) (seed : ℤ) : Except String ComparisonResult :=
  if baselineScores.length ≠ candidateScores.length then
    .error "baseline and candidate score lists must be the same length (paired)"
  else if baselineScores.length < 2 then
    .error "need at least 2 paired samples for a statistical comparison"
  else
    let diffs := candidateScores.zipWith (· - ·) baselineScores
    let meanDiff := mean diffs
    let base := |baselineMean baselineScores|
    let relativeDiff := meanDiff / base
    let pooledStd := np.std diffs
    let effectSize := if 1 / 10 ^ 9 < pooledStd then meanDiff / pooledStd else 0
    let ci := bootstrapCi np diffs confidence seed
    let ciLowRel := ci.1 / base
    let ciHighRel := ci.2 / base
    let conclusion : Conclusion :=
      if 0 < ciLowRel ∧ minRelativeImprovement ≤ relativeDiff then .likelyImprovement
      else if ciHighRel < 0 ∧ relativeDiff ≤ -minRelativeImprovement then .likelyRegression
      else .inconclusive
    .ok {
      meanDiff := roundTo 6 meanDiff
      relativeDiff := roundTo 6 relativeDiff
      ciLow := roundTo 6 ciLowRel
      ciHigh := roundTo 6 ciHighRel
      effectSize := roundTo 4 effectSize
      confidence := confidence
      conclusion := conclusion }

/-! ## Monotonicity -/

theorem baselineMean_abs_pos (scores : List ℚ) : 0 < |baselineMean scores| := by
  unfold baselineMean
  split_ifs with h
  · positivity
  · exact abs_pos.mpr h

theorem resampleMeans_mono {xs ys : List ℚ} (h : Below xs ys) (rows : List (List ℕ)) :
    Below (rows.map fun idx => mean (resample xs idx))
      (rows.map fun idx => mean (resample ys idx)) := by
  induction rows with
  | nil => exact .nil
  | cons idx rows ih => exact .cons (mean_mono (resample_mono h idx)) ih

theorem bootstrapCi_low_mono {np : Numpy} (hq : np.QuantileMonotone) {xs ys : List ℚ}
    (h : Below xs ys) (confidence : ℚ) (seed : ℤ) (n : ℕ) :
    (bootstrapCi np xs confidence seed n).1 ≤ (bootstrapCi np ys confidence seed n).1 := by
  unfold bootstrapCi
  dsimp only
  rw [h.length_eq]
  exact hq _ _ _ (resampleMeans_mono h _)

theorem bootstrapMeanBound_mono {np : Numpy} (hq : np.QuantileMonotone) {xs ys : List ℚ}
    (h : Below xs ys) (side : Side) (confidence : ℚ) (seed : ℤ) (n : ℕ) :
    bootstrapMeanBound np xs side confidence seed n ≤
      bootstrapMeanBound np ys side confidence seed n := by
  unfold bootstrapMeanBound
  dsimp only
  rw [h.length_eq]
  exact hq _ _ _ (resampleMeans_mono h _)

theorem diffs_mono {xs ys : List ℚ} (h : Below xs ys) (base : List ℚ) :
    Below (xs.zipWith (· - ·) base) (ys.zipWith (· - ·) base) := by
  induction h generalizing base with
  | nil => exact .nil
  | cons hxy _ ih =>
      cases base with
      | nil => exact .nil
      | cons b base => exact .cons (sub_le_sub_right hxy b) (ih base)

/-- When `compare` says LIKELY_IMPROVEMENT. -/
theorem compare_improvement_iff {np : Numpy} {b c : List ℚ} {m conf : ℚ} {seed : ℤ}
    {r : ComparisonResult} (h : compare np b c m conf seed = .ok r) :
    r.conclusion = .likelyImprovement ↔
      0 < (bootstrapCi np (c.zipWith (· - ·) b) conf seed).1 / |baselineMean b| ∧
        m ≤ mean (c.zipWith (· - ·) b) / |baselineMean b| := by
  unfold compare at h
  split_ifs at h with h1 h2
  cases h
  dsimp only
  constructor
  · intro hc
    by_contra hn
    rw [if_neg hn] at hc
    split_ifs at hc
  · exact fun hc => if_pos hc

theorem compare_confidence {np : Numpy} {b c : List ℚ} {m conf : ℚ} {seed : ℤ}
    {r : ComparisonResult} (h : compare np b c m conf seed = .ok r) : r.confidence = conf := by
  unfold compare at h
  split_ifs at h
  cases h
  rfl

/-- Whether `compare` answers at all depends on the lengths only. -/
theorem compare_ok_of_length {np : Numpy} {b c c' : List ℚ} {m conf : ℚ} {seed : ℤ}
    {r : ComparisonResult} (h : compare np b c m conf seed = .ok r)
    (hlen : c.length = c'.length) : ∃ r', compare np b c' m conf seed = .ok r' := by
  unfold compare at h ⊢
  rw [hlen] at h
  split_ifs at h ⊢
  exact ⟨_, rfl⟩

/-- Better candidate scores keep the verdict LIKELY_IMPROVEMENT. -/
theorem compare_improvement_mono {np : Numpy} (hq : np.QuantileMonotone) {b c c' : List ℚ}
    {m conf : ℚ} {seed : ℤ} {r r' : ComparisonResult} (hcc : Below c c')
    (h : compare np b c m conf seed = .ok r) (h' : compare np b c' m conf seed = .ok r')
    (himp : r.conclusion = .likelyImprovement) : r'.conclusion = .likelyImprovement := by
  rw [compare_improvement_iff h] at himp
  rw [compare_improvement_iff h']
  have hpos := baselineMean_abs_pos b
  have hd := diffs_mono hcc b
  have hci := bootstrapCi_low_mono hq hd conf seed 5000
  have hmean := mean_mono hd
  exact ⟨himp.1.trans_le (by gcongr), himp.2.trans (by gcongr)⟩

end NeuroForge
