/-
  `promotion/gates.py`: the promotion gates and the decision they make.

  `evaluatePromotion_approved_iff` is the spec of the decision: no metric finding, the
  significance requirement met, and the regression guard not triggered.
-/
import NeuroForge.Promotion.Safety

namespace NeuroForge

open Rounding

structure PromotionGateConfig where
  minQuality : RatIn 0 1 := ⟨31 / 50, by norm_num⟩
  minConfidence : RatIn (1 / 2) (999 / 1000) := ⟨19 / 20, by norm_num⟩
  maxCostIncrease : RatIn (-99 / 100) 100 := ⟨1 / 10, by norm_num⟩
  maxLatencyIncrease : RatIn (-99 / 100) 100 := ⟨3 / 20, by norm_num⟩
  requireStatisticallySignificantImprovement : Bool := true
  deriving DecidableEq

def PromotionGateConfig.defaults : PromotionGateConfig := {}

structure PromotionDecision where
  approved : Bool
  nextStatus : PromotionStatus
  reasons : List String
  evidence : List String := []
  deriving DecidableEq

structure GateFinding where
  reason : String
  magnitude : ℚ
  deriving DecidableEq

/-- Growth relative to the baseline; a free baseline counts any cost as doubled. -/
def fractionalIncrease (baseline candidate : ℚ) : ℚ :=
  if baseline ≤ 0 then (if candidate ≤ 0 then 0 else 1)
  else (candidate - baseline) / baseline

/-- What the regression guard tolerates: twice a positive limit, 0 for a negative one. -/
def guardLimit (gateLimit : ℚ) : ℚ := gateLimit + |gateLimit|

/-- Every metric gate the candidate fails. With a safety estimate the safety verdict is
    taken at its bounds, without one on the aggregate. -/
def metricGateFindings (baseline candidate : AggregateMetrics) (gates : PromotionGateConfig)
    (constraints : SafetyConstraints) (estimate : Option SafetyEstimate) :
    List GateFinding :=
  let violations := match estimate with
    | some e => e.check constraints
    | none => checkSafety candidate.asDict constraints
  let magnitude := match estimate with
    | some e => e.violationMagnitude constraints
    | none => violationMagnitude candidate.asDict constraints
  let quality := Dict.getD candidate.metrics "quality" 0
  let costIncrease := fractionalIncrease baseline.costUsd candidate.costUsd
  let latencyIncrease := fractionalIncrease baseline.latencyMs candidate.latencyMs
  violations.map (fun v => ⟨"SAFETY VIOLATION: " ++ v, magnitude / violations.length⟩) ++
  (if quality < gates.minQuality then
    [⟨"quality " ++ fixed 4 quality ++ " below minimum " ++ fixed 4 gates.minQuality,
      gates.minQuality - quality⟩]
  else []) ++
  (if gates.maxCostIncrease < costIncrease then
    [⟨"cost increased " ++ fixed 1 (costIncrease * 100) ++ "% > allowed " ++
      fixed 1 (gates.maxCostIncrease * 100) ++ "%", costIncrease - gates.maxCostIncrease⟩]
  else []) ++
  (if gates.maxLatencyIncrease < latencyIncrease then
    [⟨"latency increased " ++ fixed 1 (latencyIncrease * 100) ++ "% > allowed " ++
      fixed 1 (gates.maxLatencyIncrease * 100) ++ "%",
      latencyIncrease - gates.maxLatencyIncrease⟩]
  else [])

/-- The reasons the significance requirement gives. -/
def significanceReasons (comparison : ComparisonResult) (gates : PromotionGateConfig) :
    List String :=
  if gates.requireStatisticallySignificantImprovement then
    (if comparison.conclusion ≠ .likelyImprovement then
      ["statistical comparison did not confirm improvement: " ++ comparison.conclusion.value]
    else []) ++
    (if comparison.confidence < gates.minConfidence then
      ["statistical comparison was run at " ++ percent 0 comparison.confidence ++
        " confidence, below the required " ++ percent 0 gates.minConfidence]
    else [])
  else []

/-- A quality gain paired with a disproportionate loss elsewhere. -/
def regressionGuard (baseline candidate : AggregateMetrics) (gates : PromotionGateConfig) :
    List String :=
  let costIncrease := fractionalIncrease baseline.costUsd candidate.costUsd
  let latencyIncrease := fractionalIncrease baseline.latencyMs candidate.latencyMs
  if 0 < Dict.getD candidate.metrics "quality" 0 - Dict.getD baseline.metrics "quality" 0 ∧
      (guardLimit gates.maxCostIncrease < costIncrease ∨
        guardLimit gates.maxLatencyIncrease < latencyIncrease) then
    ["regression guard: quality gain does not justify the disproportionate " ++
      "cost/latency increase"]
  else []

def evaluatePromotion (baseline candidate : AggregateMetrics) (comparison : ComparisonResult)
    (gates : PromotionGateConfig) (constraints : SafetyConstraints)
    (estimate : Option SafetyEstimate) : PromotionDecision :=
  let reasons :=
    (metricGateFindings baseline candidate gates constraints estimate).map (·.reason) ++
      significanceReasons comparison gates ++ regressionGuard baseline candidate gates
  let costIncrease := fractionalIncrease baseline.costUsd candidate.costUsd
  let latencyIncrease := fractionalIncrease baseline.latencyMs candidate.latencyMs
  { approved := reasons.isEmpty
    nextStatus := if reasons.isEmpty then .approved else .rejected
    reasons := if reasons.isEmpty then ["all promotion gates passed"] else reasons
    evidence :=
      ["quality " ++ comparison.summary,
        "cost " ++ fixedSigned 1 (costIncrease * 100) ++ "% (limit +" ++
          fixed 0 (gates.maxCostIncrease * 100) ++ "%), latency " ++
          fixedSigned 1 (latencyIncrease * 100) ++ "% (limit +" ++
          fixed 0 (gates.maxLatencyIncrease * 100) ++ "%)"] ++
      (match estimate with
        | some e => e.evidence constraints
        | none => []) }

/-! ## The decision -/

theorem evaluatePromotion_approved_iff (b c : AggregateMetrics) (cmp : ComparisonResult)
    (gates : PromotionGateConfig) (constraints : SafetyConstraints)
    (estimate : Option SafetyEstimate) :
    (evaluatePromotion b c cmp gates constraints estimate).approved = true ↔
      metricGateFindings b c gates constraints estimate = [] ∧
        significanceReasons cmp gates = [] ∧ regressionGuard b c gates = [] := by
  unfold evaluatePromotion
  simp only [List.isEmpty_iff, List.append_eq_nil_iff, List.map_eq_nil_iff, and_assoc]

/-- The safety verdict the metric gates take: at the bounds of an estimate, else on the
    aggregate. -/
def safetyViolations (candidate : AggregateMetrics) (constraints : SafetyConstraints) :
    Option SafetyEstimate → List String
  | some e => e.check constraints
  | none => checkSafety candidate.asDict constraints

/-- The metric gates: the safety verdict, the quality floor and the two growth caps. -/
theorem metricGateFindings_eq_nil_iff (b c : AggregateMetrics) (gates : PromotionGateConfig)
    (constraints : SafetyConstraints) (estimate : Option SafetyEstimate) :
    metricGateFindings b c gates constraints estimate = [] ↔
      safetyViolations c constraints estimate = [] ∧
      gates.minQuality ≤ Dict.getD c.metrics "quality" 0 ∧
      fractionalIncrease b.costUsd c.costUsd ≤ gates.maxCostIncrease ∧
      fractionalIncrease b.latencyMs c.latencyMs ≤ gates.maxLatencyIncrease := by
  unfold metricGateFindings safetyViolations
  simp only [List.append_eq_nil_iff, List.map_eq_nil_iff, ite_eq_right_iff,
    List.cons_ne_nil, imp_false, not_lt, and_assoc]

theorem metricGateFindings_nil_iff (b c : AggregateMetrics) (gates : PromotionGateConfig)
    (constraints : SafetyConstraints) (e : SafetyEstimate) :
    metricGateFindings b c gates constraints (some e) = [] ↔
      e.check constraints = [] ∧
      gates.minQuality ≤ Dict.getD c.metrics "quality" 0 ∧
      fractionalIncrease b.costUsd c.costUsd ≤ gates.maxCostIncrease ∧
      fractionalIncrease b.latencyMs c.latencyMs ≤ gates.maxLatencyIncrease :=
  metricGateFindings_eq_nil_iff b c gates constraints (some e)

theorem significanceReasons_nil_iff (cmp : ComparisonResult) (gates : PromotionGateConfig) :
    significanceReasons cmp gates = [] ↔
      (gates.requireStatisticallySignificantImprovement = true →
        cmp.conclusion = .likelyImprovement ∧ gates.minConfidence ≤ cmp.confidence) := by
  unfold significanceReasons
  by_cases hreq : gates.requireStatisticallySignificantImprovement = true
  · simp only [hreq, if_true, List.append_eq_nil_iff, ite_eq_right_iff, List.cons_ne_nil,
      imp_false, not_not, not_lt, forall_const]
  · simp [hreq]

theorem fractionalIncrease_mono (b : ℚ) {c c' : ℚ} (h : c ≤ c') :
    fractionalIncrease b c ≤ fractionalIncrease b c' := by
  unfold fractionalIncrease
  split_ifs with hb hc hc' hc'
  · exact le_rfl
  · exact zero_le_one
  · exact absurd (h.trans hc') hc
  · exact le_rfl
  · have hpos : 0 < b := not_le.mp hb
    gcongr

theorem le_guardLimit (l : ℚ) : l ≤ guardLimit l :=
  le_add_of_nonneg_right (abs_nonneg l)

/-- A candidate inside both growth caps is inside the wider guard limits. -/
theorem regressionGuard_nil_of_gates {b c : AggregateMetrics} {gates : PromotionGateConfig}
    (hcost : fractionalIncrease b.costUsd c.costUsd ≤ gates.maxCostIncrease)
    (hlat : fractionalIncrease b.latencyMs c.latencyMs ≤ gates.maxLatencyIncrease) :
    regressionGuard b c gates = [] := by
  unfold regressionGuard
  refine if_neg ?_
  rintro ⟨-, h | h⟩
  · exact absurd (hcost.trans (le_guardLimit _)) (not_le.mpr h)
  · exact absurd (hlat.trans (le_guardLimit _)) (not_le.mpr h)

/-! ## Magnitudes -/

/-- The violations of a failed verdict share its magnitude evenly; each share is positive. -/
theorem share_pos {violations : List String} {magnitude : ℚ} (hnonneg : 0 ≤ magnitude)
    (hzero : magnitude = 0 ↔ violations = []) {v : String} (hv : v ∈ violations) :
    0 < magnitude / violations.length := by
  have hne : violations ≠ [] := List.ne_nil_of_mem hv
  have hlen : 0 < violations.length := List.length_pos_of_mem hv
  have hmag : 0 < magnitude := lt_of_le_of_ne hnonneg fun h => hne (hzero.mp h.symm)
  positivity

/-- A finding says how far outside the limit the candidate is. -/
theorem metricGateFindings_pos {b c : AggregateMetrics} {gates : PromotionGateConfig}
    {constraints : SafetyConstraints} {estimate : Option SafetyEstimate} {f : GateFinding}
    (hf : f ∈ metricGateFindings b c gates constraints estimate) : 0 < f.magnitude := by
  unfold metricGateFindings at hf
  simp only [List.mem_append] at hf
  rcases hf with ((hsafety | hquality) | hcost) | hlatency
  · obtain ⟨v, hv, rfl⟩ := List.mem_map.mp hsafety
    cases estimate with
    | some e =>
        exact share_pos (e.violationMagnitude_nonneg constraints)
          (e.violationMagnitude_eq_zero_iff constraints) hv
    | none =>
        exact share_pos (violationMagnitude_nonneg c.asDict constraints)
          (violationMagnitude_eq_zero_iff c.asDict constraints) hv
  · split_ifs at hquality with h
    · rw [List.mem_singleton.mp hquality]
      exact sub_pos.mpr h
    · cases hquality
  · split_ifs at hcost with h
    · rw [List.mem_singleton.mp hcost]
      exact sub_pos.mpr h
    · cases hcost
  · split_ifs at hlatency with h
    · rw [List.mem_singleton.mp hlatency]
      exact sub_pos.mpr h
    · cases hlatency

/-- How far outside all its limits a candidate is: what the search is shaped by. -/
def totalMagnitude (findings : List GateFinding) : ℚ := (findings.map (·.magnitude)).sum

theorem totalMagnitude_eq_zero_iff (b c : AggregateMetrics) (gates : PromotionGateConfig)
    (constraints : SafetyConstraints) (estimate : Option SafetyEstimate) :
    totalMagnitude (metricGateFindings b c gates constraints estimate) = 0 ↔
      metricGateFindings b c gates constraints estimate = [] := by
  constructor
  · intro hsum
    by_contra hne
    refine absurd hsum (ne_of_gt (List.sum_pos _ ?_ fun h => hne (List.map_eq_nil_iff.mp h)))
    intro magnitude hmagnitude
    obtain ⟨f, hf, rfl⟩ := List.mem_map.mp hmagnitude
    exact metricGateFindings_pos hf
  · intro hnil
    rw [hnil]
    rfl

/-! ## Stricter gates -/

/-- Metric gates that refuse at least what `g'` refuses. -/
structure PromotionGateConfig.Tightens (g g' : PromotionGateConfig) : Prop where
  minQuality : (g'.minQuality : ℚ) ≤ g.minQuality
  maxCostIncrease : (g.maxCostIncrease : ℚ) ≤ g'.maxCostIncrease
  maxLatencyIncrease : (g.maxLatencyIncrease : ℚ) ≤ g'.maxLatencyIncrease

theorem safetyViolations_nil_of_tightens {candidate : AggregateMetrics}
    {constraints constraints' : SafetyConstraints} {estimate : Option SafetyEstimate}
    (h : constraints.Tightens constraints')
    (hnil : safetyViolations candidate constraints estimate = []) :
    safetyViolations candidate constraints' estimate = [] := by
  cases estimate with
  | some e => exact SafetyEstimate.check_nil_of_tightens h hnil
  | none => exact checkSafety_nil_of_tightens h hnil

/-- Tighter limits never let more through. -/
theorem metricGateFindings_nil_of_tightens {b c : AggregateMetrics}
    {gates gates' : PromotionGateConfig} {constraints constraints' : SafetyConstraints}
    {estimate : Option SafetyEstimate} (hg : gates.Tightens gates')
    (hc : constraints.Tightens constraints')
    (hnil : metricGateFindings b c gates constraints estimate = []) :
    metricGateFindings b c gates' constraints' estimate = [] := by
  rw [metricGateFindings_eq_nil_iff] at hnil ⊢
  obtain ⟨hsafety, hquality, hcost, hlatency⟩ := hnil
  exact ⟨safetyViolations_nil_of_tightens hc hsafety, hg.minQuality.trans hquality,
    hcost.trans hg.maxCostIncrease, hlatency.trans hg.maxLatencyIncrease⟩

/-! ## The acceptance set -/

/-- The guard's limits are never under the gates': growth the gates allow never arms it. -/
theorem regressionGuard_nil_of_findings_nil {b c : AggregateMetrics}
    {gates : PromotionGateConfig} {constraints : SafetyConstraints}
    {estimate : Option SafetyEstimate}
    (hnil : metricGateFindings b c gates constraints estimate = []) :
    regressionGuard b c gates = [] := by
  obtain ⟨-, -, hcost, hlatency⟩ := (metricGateFindings_eq_nil_iff ..).mp hnil
  exact regressionGuard_nil_of_gates hcost hlatency

theorem approved_iff_findings (b c : AggregateMetrics) (cmp : ComparisonResult)
    (gates : PromotionGateConfig) (constraints : SafetyConstraints)
    (estimate : Option SafetyEstimate) :
    (evaluatePromotion b c cmp gates constraints estimate).approved = true ↔
      metricGateFindings b c gates constraints estimate = [] ∧
        (gates.requireStatisticallySignificantImprovement = false ∨
          cmp.conclusion = .likelyImprovement ∧ gates.minConfidence ≤ cmp.confidence) := by
  rw [evaluatePromotion_approved_iff, significanceReasons_nil_iff, ← Bool.not_eq_true,
    ← imp_iff_not_or]
  constructor
  · rintro ⟨hfindings, hsig, -⟩
    exact ⟨hfindings, hsig⟩
  · rintro ⟨hfindings, hsig⟩
    exact ⟨hfindings, hsig, regressionGuard_nil_of_findings_nil hfindings⟩

theorem evaluatePromotion_nextStatus (b c : AggregateMetrics) (cmp : ComparisonResult)
    (gates : PromotionGateConfig) (constraints : SafetyConstraints)
    (estimate : Option SafetyEstimate) :
    (evaluatePromotion b c cmp gates constraints estimate).nextStatus =
      if (evaluatePromotion b c cmp gates constraints estimate).approved then .approved
      else .rejected := rfl

/-- What is accepted: no metric finding, and significance at the required confidence where
    it is required. The regression guard refuses nothing that clears both growth caps. -/
theorem evaluatePromotion_accepts_iff (b c : AggregateMetrics) (cmp : ComparisonResult)
    (gates : PromotionGateConfig) (constraints : SafetyConstraints)
    (estimate : Option SafetyEstimate) :
    ((evaluatePromotion b c cmp gates constraints estimate).approved = true ↔
      metricGateFindings b c gates constraints estimate = [] ∧
        (gates.requireStatisticallySignificantImprovement = false ∨
          cmp.conclusion = .likelyImprovement ∧ gates.minConfidence ≤ cmp.confidence)) ∧
    (fractionalIncrease b.costUsd c.costUsd ≤ gates.maxCostIncrease ∧
        fractionalIncrease b.latencyMs c.latencyMs ≤ gates.maxLatencyIncrease →
      regressionGuard b c gates = []) ∧
    ((evaluatePromotion b c cmp gates constraints estimate).nextStatus =
      if (evaluatePromotion b c cmp gates constraints estimate).approved then .approved
      else .rejected) :=
  ⟨approved_iff_findings b c cmp gates constraints estimate,
    fun h => regressionGuard_nil_of_gates h.1 h.2,
    evaluatePromotion_nextStatus b c cmp gates constraints estimate⟩

end NeuroForge
