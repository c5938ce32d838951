/-
  What an approval has measured.

  A comparison that confirms an improvement has found the candidate's mean above the
  baseline's by the least relative improvement, whatever the resamples were (`compare_gains`).
  The holdout measurement compares quality scores, and the gates want its conclusion where
  they require significance, so an approval rests on such a gain.
-/
import NeuroForge.Promotion.Holdout

namespace NeuroForge

open Fallible Sample

/-- The improvement that `min_relative_improvement` asks for, on a sample. -/
def Gains (margin : ℚ) (worse better : List ℚ) : Prop :=
  mean worse + margin * |baselineMean worse| ≤ mean better

theorem Gains.trans {margin : ℚ} (hmargin : 0 ≤ margin) {a b c : List ℚ}
    (hab : Gains margin a b) (hbc : Gains margin b c) : Gains margin a c := by
  have hpos := mul_nonneg hmargin (abs_nonneg (baselineMean b))
  unfold Gains at hab hbc ⊢
  linarith

theorem Gains.mul_mean_le {margin : ℚ} (hmargin : 0 ≤ margin) {worse better : List ℚ}
    (h : Gains margin worse better) : (1 + margin) * mean worse ≤ mean better := by
  have hbase : mean worse ≤ |baselineMean worse| := by
    unfold baselineMean
    split_ifs with hzero
    · rw [hzero]
      positivity
    · exact le_abs_self _
  have hgain := mul_le_mul_of_nonneg_left hbase hmargin
  unfold Gains at h
  linarith

/-- A comparison that confirms an improvement has found the least one. -/
theorem compare_gains {np : Numpy} {b c : List ℚ} {margin conf : ℚ} {seed : ℤ}
    {r : ComparisonResult} (h : compare np b c margin conf seed = .ok r)
    (himproves : r.conclusion = .likelyImprovement) : Gains margin b c := by
  obtain ⟨-, hmargin⟩ := (compare_improvement_iff h).mp himproves
  have hlength : b.length = c.length := by
    unfold compare at h
    split_ifs at h with hne
    exact not_not.mp hne
  rw [mean_zipWith_sub hlength.symm, le_div_iff₀ (baselineMean_abs_pos b)] at hmargin
  unfold Gains
  linarith

/-- The quality scores of a configuration on the holdout split. -/
def qualityScores (evaluate : Evaluator) (dataset : DatasetVersion) (content : GenomeContent) :
    List ℚ :=
  metricValues "quality" ((dataset.challenges.filter (·.split = .holdout)).map (evaluate content))

theorem evaluateOnHoldout_gains {np : Numpy} {digest : GenomeDigest} {evaluate : Evaluator}
    {baseline candidate : SystemGenome} {dataset : DatasetVersion} {conf margin : ℚ} {seed : ℤ}
    {e : HoldoutEvidence} (h : evaluateOnHoldout np digest evaluate baseline candidate dataset conf
      margin seed = .ok e) (himproves : e.comparison.conclusion = .likelyImprovement) :
    Gains margin (qualityScores evaluate dataset baseline.content)
      (qualityScores evaluate dataset candidate.content) := by
  rw [evaluateOnHoldout_eq] at h
  obtain ⟨-, cmp, bagg, cagg, hcompare, -, -, rfl⟩ := evidenceFromResults_ok h
  exact compare_gains hcompare himproves

/-- An approval where significance is required rests on a confirmed improvement. -/
theorem improvement_of_approved {e : HoldoutEvidence} {hash : String}
    {gates : PromotionGateConfig} {constraints : SafetyConstraints}
    (hrequired : gates.requireStatisticallySignificantImprovement = true)
    (h : (decideFromEvidence e hash gates constraints).approved = true) :
    e.comparison.conclusion = .likelyImprovement := by
  have happroved : (evaluatePromotion
      (aggregateFromMetrics "baseline" e.baselineMetrics e.nHoldout)
      (aggregateFromMetrics hash e.candidateMetrics e.nHoldout) e.comparison gates constraints
      (some e.safety)).approved = true := h
  obtain ⟨-, hsignificance, -⟩ := (evaluatePromotion_approved_iff ..).mp happroved
  exact ((significanceReasons_nil_iff _ _).mp hsignificance hrequired).1

end NeuroForge
