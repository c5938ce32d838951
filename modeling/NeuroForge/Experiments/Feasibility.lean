/-
  What a search says about a candidate against what the promotion gates say.

  The search measures candidates against its own limits (`searchGates`, `searchSafety`),
  which are the promotion gates tightened by a margin and clamped to `[0, 1]`. Tightening
  is an order on limits (`SafetyConstraints.Tightens`, `PromotionGateConfig.Tightens`), so
  what clears the search's limits clears the promotion's: `search_feasibility_refines_gates`.

  `recommend` is a second procedure over the same evidence. It asks for the safety verdict,
  a likely improvement and the metric gates, but not for the confidence the gates require.
  `recommend_sound_iff`: its recommendation to promote is one the gates follow on every
  outcome exactly for the configs whose confidence reaches the required one.
-/
import NeuroForge.Experiments.Engine

namespace NeuroForge

open Fallible

variable {ρ : Type}

namespace ExperimentEngine

/-! ## The limits of the search -/

theorem searchGates_tightens (e : ExperimentEngine ρ) :
    e.searchGates.Tightens e.config.promotionGates where
  minQuality := le_min e.config.promotionGates.minQuality.2.2
    (le_add_of_nonneg_right e.config.searchQualityMargin.2.1)
  maxCostIncrease := le_rfl
  maxLatencyIncrease := le_rfl

theorem searchSafety_tightens (e : ExperimentEngine ρ) :
    e.searchSafety.Tightens e.config.safetyConstraints :=
  e.config.safetyConstraints.tightened_tightens e.config.searchSafetyMargin

/-- A candidate scored feasible has no finding under the limits of the search. -/
theorem scoreCandidate_feasible {e : ExperimentEngine ρ} {setup : SearchSetup}
    {genome : SystemGenome} {fitness cost : ℚ}
    (h : e.scoreCandidate setup genome = .ok (fitness, true, cost)) :
    ∃ agg, aggregate (e.evaluateCandidate genome setup.challenges).1
        (setup.challenges.map (·.category)) = .ok agg ∧
      metricGateFindings setup.baselineAgg agg e.searchGates e.searchSafety none = [] := by
  unfold scoreCandidate at h
  obtain ⟨agg, hagg, h⟩ := bind_eq_ok.mp h
  refine ⟨agg, hagg, ?_⟩
  have hfeasible := congrArg (fun r => r.2.1) (pure_eq_ok.mp h)
  simp only [Bool.and_eq_true, decide_eq_true_eq] at hfeasible
  exact (totalMagnitude_eq_zero_iff ..).mp hfeasible.1

/-- Every finding weighs something and nothing weighs nothing; what clears the limits of
    the search clears the gates, and so does every candidate it scores as feasible. -/
theorem search_feasibility_refines_gates (e : ExperimentEngine ρ) (b c : AggregateMetrics)
    (gates : PromotionGateConfig) (constraints : SafetyConstraints)
    (estimate : Option SafetyEstimate) :
    (∀ f ∈ metricGateFindings b c gates constraints estimate, 0 < f.magnitude) ∧
    (metricGateFindings b c gates constraints estimate = [] ↔
      totalMagnitude (metricGateFindings b c gates constraints estimate) = 0) ∧
    (metricGateFindings b c e.searchGates e.searchSafety estimate = [] →
      metricGateFindings b c e.config.promotionGates e.config.safetyConstraints estimate =
        []) ∧
    (∀ setup genome fitness cost,
      e.scoreCandidate setup genome = .ok (fitness, true, cost) →
      ∃ agg, aggregate (e.evaluateCandidate genome setup.challenges).1
          (setup.challenges.map (·.category)) = .ok agg ∧
        metricGateFindings setup.baselineAgg agg e.config.promotionGates
          e.config.safetyConstraints none = []) := by
  have hrefines : ∀ {b c : AggregateMetrics} {estimate : Option SafetyEstimate},
      metricGateFindings b c e.searchGates e.searchSafety estimate = [] →
      metricGateFindings b c e.config.promotionGates e.config.safetyConstraints estimate =
        [] :=
    metricGateFindings_nil_of_tightens e.searchGates_tightens e.searchSafety_tightens
  refine ⟨fun f hf => metricGateFindings_pos hf, (totalMagnitude_eq_zero_iff ..).symm,
    hrefines, ?_⟩
  intro setup genome fitness cost h
  obtain ⟨agg, hagg, hnil⟩ := scoreCandidate_feasible h
  exact ⟨agg, hagg, hrefines hnil⟩

/-! ## The recommendation -/

/-- The answer of `_recommend` that speaks for a candidate. -/
def promoteToCanary : String :=
  "PROMOTE TO CANARY — statistically significant improvement on validation set"

theorem append_ne_promoteToCanary (details : String) :
    "DO NOT PROMOTE — safety constraint violated: " ++ details ≠ promoteToCanary ∧
      "DO NOT PROMOTE — promotion gate not met: " ++ details ≠ promoteToCanary := by
  constructor
  · intro h
    have := congrArg String.toList h
    simp [promoteToCanary] at this
  · intro h
    have := congrArg String.toList h
    simp [promoteToCanary] at this

/-- The safety verdict is asked for first, but the metric gates hold it too. -/
theorem recommend_eq_promote_iff (e : ExperimentEngine ρ) (cmp : ComparisonResult)
    (b c : AggregateMetrics) (s : SafetyEstimate) :
    e.recommend cmp b c s = promoteToCanary ↔
      cmp.conclusion = .likelyImprovement ∧
        metricGateFindings b c e.config.promotionGates e.config.safetyConstraints (some s) =
          [] := by
  unfold recommend
  by_cases hsafe : s.check e.config.safetyConstraints = []
  · simp only [hsafe, ne_eq, not_true_eq_false, if_false]
    cases hconclusion : cmp.conclusion with
    | likelyImprovement =>
        by_cases hnil : metricGateFindings b c e.config.promotionGates
            e.config.safetyConstraints (some s) = []
        · simp [hnil, promoteToCanary]
        · simp only [hnil, not_false_eq_true, if_true, and_false, iff_false]
          exact (append_ne_promoteToCanary _).2
    | likelyRegression => simp [promoteToCanary]
    | inconclusive => simp [promoteToCanary]
  · have hfindings : metricGateFindings b c e.config.promotionGates
        e.config.safetyConstraints (some s) ≠ [] := fun hnil =>
      hsafe ((metricGateFindings_nil_iff ..).mp hnil).1
    simp only [hsafe, ne_eq, not_false_eq_true, if_true, hfindings, and_false, iff_false]
    exact (append_ne_promoteToCanary _).1

/-- The gates that the recommendation leaves out: significance, where it is required, at the
    confidence that is required. -/
theorem approved_iff_of_recommend {e : ExperimentEngine ρ} {cmp : ComparisonResult}
    {b c : AggregateMetrics} {s : SafetyEstimate}
    (hconf : cmp.confidence = e.config.confidence)
    (h : e.recommend cmp b c s = promoteToCanary) :
    (evaluatePromotion b c cmp e.config.promotionGates e.config.safetyConstraints
        (some s)).approved = true ↔
      e.config.promotionGates.requireStatisticallySignificantImprovement = false ∨
        e.config.promotionGates.minConfidence ≤ e.config.confidence := by
  obtain ⟨himproved, hnil⟩ := (e.recommend_eq_promote_iff cmp b c s).mp h
  rw [approved_iff_findings, hconf]
  simp only [hnil, himproved, true_and]

/-- What `_finalize` recommends rests on the evidence it returns. -/
theorem finalize_evidence {e : ExperimentEngine ρ} {p : Progress ρ} {clock : ℚ≥0}
    {r : ExperimentResult} (h : e.finalize p clock = .ok r) :
    ∃ b c, r.baselineMetrics = b.asDict ∧ r.bestMetrics = c.asDict ∧
      r.comparison.confidence = e.config.confidence ∧
      r.recommendation = e.recommend r.comparison b c r.validationSafety := by
  unfold finalize at h
  obtain ⟨b, -, h⟩ := bind_eq_ok.mp h
  obtain ⟨c, -, h⟩ := bind_eq_ok.mp h
  obtain ⟨cmp, hcmp, h⟩ := bind_eq_ok.mp h
  cases h
  exact ⟨b, c, rfl, rfl, compare_confidence hcmp, rfl⟩

/-- On every outcome of a comparison at the config's confidence, a recommendation to promote
    is one the gates follow. -/
def RecommendationSound (e : ExperimentEngine ρ) : Prop :=
  ∀ (cmp : ComparisonResult) (b c : AggregateMetrics) (s : SafetyEstimate),
    cmp.confidence = e.config.confidence → e.recommend cmp b c s = promoteToCanary →
    (evaluatePromotion b c cmp e.config.promotionGates e.config.safetyConstraints
      (some s)).approved = true

/-- A flawless candidate: full quality and safety, at no cost and without delay. -/
def flawlessMetrics : AggregateMetrics where
  genomeHash := "app@v2"
  nEvaluations := 2
  metrics := [("quality", 1)]

def costlyMetrics : AggregateMetrics where
  genomeHash := "app@v1"
  nEvaluations := 2
  metrics := [("quality", 7 / 10)]
  costUsd := 1
  latencyMs := 1

def flawlessSafety (confidence : ℚ) : SafetyEstimate where
  n := 2
  confidence := confidence
  hasPolicyMetric := false
  policyViolationRate := 0
  policyViolationUpper := 0
  safetyScore := 1
  safetyScoreLower := 1

def clearImprovement (confidence : ℚ) : ComparisonResult where
  meanDiff := 3 / 10
  relativeDiff := 3 / 7
  ciLow := 3 / 7
  ciHigh := 3 / 7
  effectSize := 0
  confidence := confidence
  conclusion := .likelyImprovement

/-- No limits are so strict that a flawless candidate fails one. -/
theorem recommend_flawless (e : ExperimentEngine ρ) (confidence : ℚ) :
    e.recommend (clearImprovement confidence) costlyMetrics flawlessMetrics
      (flawlessSafety confidence) = promoteToCanary := by
  rw [recommend_eq_promote_iff, metricGateFindings_nil_iff, SafetyEstimate.check_nil_iff]
  have hgrowth : ∀ limit : RatIn (-99 / 100) 100,
      fractionalIncrease 1 0 ≤ (limit : ℚ) := fun limit =>
    calc fractionalIncrease 1 0 = -1 := by norm_num [fractionalIncrease]
      _ ≤ -99 / 100 := by norm_num
      _ ≤ (limit : ℚ) := limit.2.1
  exact ⟨rfl, ⟨e.config.safetyConstraints.minSafetyScore.2.2, nofun⟩,
    e.config.promotionGates.minQuality.2.2, hgrowth _, hgrowth _⟩

/-- Where the engine recommends promotion, the gates agree exactly if the config's confidence
    reaches the one they require; so the recommendation is sound for exactly these configs. -/
theorem recommend_sound_iff (e : ExperimentEngine ρ) :
    (∀ (cmp : ComparisonResult) (b c : AggregateMetrics) (s : SafetyEstimate),
      cmp.confidence = e.config.confidence → e.recommend cmp b c s = promoteToCanary →
      ((evaluatePromotion b c cmp e.config.promotionGates e.config.safetyConstraints
          (some s)).approved = true ↔
        e.config.promotionGates.requireStatisticallySignificantImprovement = false ∨
          e.config.promotionGates.minConfidence ≤ e.config.confidence)) ∧
    (e.RecommendationSound ↔
      e.config.promotionGates.requireStatisticallySignificantImprovement = false ∨
        e.config.promotionGates.minConfidence ≤ e.config.confidence) := by
  refine ⟨fun cmp b c s hconf h => approved_iff_of_recommend hconf h, ?_⟩
  constructor
  · intro hsound
    have happroved := hsound (clearImprovement e.config.confidence) costlyMetrics
      flawlessMetrics (flawlessSafety e.config.confidence) rfl (e.recommend_flawless _)
    exact (approved_iff_of_recommend rfl (e.recommend_flawless _)).mp happroved
  · intro hreached cmp b c s hconf h
    exact (approved_iff_of_recommend hconf h).mpr hreached

/-- Gates overridden for one experiment to ask for 99% confidence; the comparison is still
    run at 95%. -/
def demandingGates : PromotionGateConfig :=
  { PromotionGateConfig.defaults with minConfidence := ⟨99 / 100, by norm_num⟩ }

def demandingEngine : ExperimentEngine ℕ :=
  { exampleEngine with
    config := { exampleConfig with promotionGates := demandingGates } }

theorem demandingEngine_unsound :
    demandingEngine.recommend (clearImprovement (19 / 20)) costlyMetrics flawlessMetrics
        (flawlessSafety (19 / 20)) = promoteToCanary ∧
      (clearImprovement (19 / 20)).confidence = demandingEngine.config.confidence ∧
      (evaluatePromotion costlyMetrics flawlessMetrics (clearImprovement (19 / 20))
        demandingEngine.config.promotionGates demandingEngine.config.safetyConstraints
        (some (flawlessSafety (19 / 20)))).nextStatus = .rejected ∧
      ¬ demandingEngine.RecommendationSound := by
  have hrecommended := recommend_flawless demandingEngine (19 / 20)
  have hrejected : (evaluatePromotion costlyMetrics flawlessMetrics
      (clearImprovement (19 / 20)) demandingEngine.config.promotionGates
      demandingEngine.config.safetyConstraints
      (some (flawlessSafety (19 / 20)))).approved ≠ true := by
    intro happroved
    have hreached := (approved_iff_of_recommend rfl hrecommended).mp happroved
    norm_num [demandingEngine, demandingGates, exampleEngine, exampleConfig,
      PromotionGateConfig.defaults] at hreached
  refine ⟨hrecommended, rfl, ?_, fun h => hrejected (h _ _ _ _ rfl hrecommended)⟩
  unfold evaluatePromotion at hrejected ⊢
  exact if_neg hrejected

end ExperimentEngine

end NeuroForge
