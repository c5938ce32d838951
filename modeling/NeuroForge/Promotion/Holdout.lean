/-
  `promotion/holdout.py`: the holdout measurement and the decision taken from it.

  `evaluateOnHoldout` is the guard, the evaluation of both genomes on the holdout split
  and `evidenceFromResults`, the rest of the source function as a function of the result
  lists. `comparison` is kept as the record that `asdict` and `ComparisonResult(**fields)`
  turn into a dictionary and back.

  `decideFromEvidence_mono`: pointwise better candidate results keep an approval.
-/
import NeuroForge.Datasets.Holdout
import NeuroForge.Lib.Fallible
import NeuroForge.Promotion.Gates

namespace NeuroForge

open Fallible Rounding Sample

structure HoldoutEvidence where
  datasetId : String
  datasetVersion : ℕ
  baselineHash : String := ""
  nHoldout : ℕ
  baselineMetrics : Dict String ℚ
  candidateMetrics : Dict String ℚ
  comparison : ComparisonResult
  safety : SafetyEstimate
  deriving DecidableEq

def aggregateOnlyKeys : List String := ["cost_usd", "latency_ms", "failure_rate"]

def minHoldoutChallenges : ℕ := 10

/-- The values of one metric, from the results that report it. -/
def reportedValues (key : String) (results : List EvaluationResult) : List ℚ :=
  results.filterMap fun r => Dict.get? r.metrics key

/-- Per-challenge results regrouped as metric name to one value per challenge. -/
def perChallengeMetrics (results : List EvaluationResult) : Dict String (List ℚ) :=
  (metricKeys results).map fun key => (key, reportedValues key results)

/-- `evaluate_on_holdout` as a function of the holdout challenges and both result lists. -/
def evidenceFromResults (np : Numpy) (dataset : DatasetVersion) (baselineHash : String)
    (challenges : List Challenge) (baselineResults candidateResults : List EvaluationResult)
    (confidence minRelativeImprovement : ℚ) (seed : ℤ) : Except String HoldoutEvidence := do
  if challenges.length < minHoldoutChallenges then
    throw (s!"dataset '{dataset.datasetId}' v{dataset.version} has only " ++
      s!"{challenges.length} holdout challenges (need >= {minHoldoutChallenges}) — " ++
      "seed a larger dataset before promoting")
  let categories := challenges.map (·.category)
  let comparison ← compare np (metricValues "quality" baselineResults)
    (metricValues "quality" candidateResults) minRelativeImprovement confidence seed
  let baselineAgg ← aggregate baselineResults categories
  let candidateAgg ← aggregate candidateResults categories
  return {
    datasetId := dataset.datasetId
    datasetVersion := dataset.version
    baselineHash := baselineHash
    nHoldout := challenges.length
    baselineMetrics := baselineAgg.asDict
    candidateMetrics := candidateAgg.asDict
    comparison := comparison
    safety := estimateSafety np (perChallengeMetrics candidateResults) confidence seed }

def evaluateOnHoldout (np : Numpy) (digest : GenomeDigest) (evaluate : Evaluator)
    (baseline candidate : SystemGenome) (dataset : DatasetVersion)
    (confidence minRelativeImprovement : ℚ) (seed : ℤ) : Except String HoldoutEvidence := do
  let guard : HoldoutGuard := { allChallenges := dataset.challenges }
  let (challenges, _) ← guard.evaluateHoldout (candidate.hash digest)
  evidenceFromResults np dataset (baseline.hash digest) challenges
    (challenges.map (evaluate baseline.content)) (challenges.map (evaluate candidate.content))
    confidence minRelativeImprovement seed

/-- The inverse of `asDict`. -/
def aggregateFromMetrics (genomeHash : String) (metrics : Dict String ℚ) (n : ℕ) :
    AggregateMetrics where
  genomeHash := genomeHash
  nEvaluations := n
  metrics := metrics.filter fun e => e.1 ∉ aggregateOnlyKeys
  costUsd := Dict.getD metrics "cost_usd" 0
  latencyMs := Dict.getD metrics "latency_ms" 0
  failureRate := Dict.getD metrics "failure_rate" 0

def decideFromEvidence (evidence : HoldoutEvidence) (candidateHash : String)
    (gates : PromotionGateConfig) (constraints : SafetyConstraints) : PromotionDecision :=
  let decision := evaluatePromotion
    (aggregateFromMetrics "baseline" evidence.baselineMetrics evidence.nHoldout)
    (aggregateFromMetrics candidateHash evidence.candidateMetrics evidence.nHoldout)
    evidence.comparison gates constraints (some evidence.safety)
  { decision with
    evidence := (s!"holdout split of {evidence.datasetId} v{evidence.datasetVersion}, " ++
      s!"n={evidence.nHoldout} (untouched by search and by the experiment's own validation)")
      :: decision.evidence }

/-- A decision's next status is APPROVED or REJECTED, as it is approved or not. -/
theorem decideFromEvidence_nextStatus (evidence : HoldoutEvidence) (candidateHash : String)
    (gates : PromotionGateConfig) (constraints : SafetyConstraints) :
    (decideFromEvidence evidence candidateHash gates constraints).nextStatus =
      if (decideFromEvidence evidence candidateHash gates constraints).approved then .approved
      else .rejected := by
  unfold decideFromEvidence
  dsimp only
  exact evaluatePromotion_nextStatus _ _ _ _ _ _

/-- The parts of a successful `evidenceFromResults`. -/
theorem evidenceFromResults_ok {np : Numpy} {dataset : DatasetVersion} {bh : String}
    {cs : List Challenge} {brs crs : List EvaluationResult} {conf m : ℚ} {seed : ℤ}
    {e : HoldoutEvidence}
    (h : evidenceFromResults np dataset bh cs brs crs conf m seed = .ok e) :
    minHoldoutChallenges ≤ cs.length ∧ ∃ cmp bagg cagg,
      compare np (metricValues "quality" brs) (metricValues "quality" crs) m conf seed =
        .ok cmp ∧
      aggregate brs (cs.map (·.category)) = .ok bagg ∧
      aggregate crs (cs.map (·.category)) = .ok cagg ∧
      e = { datasetId := dataset.datasetId, datasetVersion := dataset.version,
            baselineHash := bh, nHoldout := cs.length, baselineMetrics := bagg.asDict,
            candidateMetrics := cagg.asDict, comparison := cmp,
            safety := estimateSafety np (perChallengeMetrics crs) conf seed } := by
  unfold evidenceFromResults at h
  by_cases hn : cs.length < minHoldoutChallenges
  · rw [if_pos hn] at h
    cases h
  · rw [if_neg hn] at h
    obtain ⟨cmp, hcmp, h⟩ := bind_eq_ok.mp h
    obtain ⟨bagg, hb, h⟩ := bind_eq_ok.mp h
    obtain ⟨cagg, hc, h⟩ := bind_eq_ok.mp h
    exact ⟨not_lt.mp hn, cmp, bagg, cagg, hcmp, hb, hc, (pure_eq_ok.mp h).symm⟩

/-- A measurement is `evidenceFromResults` on the holdout split. -/
theorem evaluateOnHoldout_eq (np : Numpy) (digest : GenomeDigest) (evaluate : Evaluator)
    (baseline candidate : SystemGenome) (dataset : DatasetVersion) (conf m : ℚ) (seed : ℤ) :
    evaluateOnHoldout np digest evaluate baseline candidate dataset conf m seed =
      evidenceFromResults np dataset (baseline.hash digest)
        (dataset.challenges.filter (·.split = .holdout))
        ((dataset.challenges.filter (·.split = .holdout)).map (evaluate baseline.content))
        ((dataset.challenges.filter (·.split = .holdout)).map (evaluate candidate.content))
        conf m seed := by
  simp only [evaluateOnHoldout, HoldoutGuard.evaluateHoldout, List.not_mem_nil, if_false]
  rfl

/-- The evidence names the baseline and the dataset version it was measured with. -/
theorem evaluateOnHoldout_ok {np : Numpy} {digest : GenomeDigest} {evaluate : Evaluator}
    {baseline candidate : SystemGenome} {dataset : DatasetVersion} {conf m : ℚ} {seed : ℤ}
    {e : HoldoutEvidence}
    (h : evaluateOnHoldout np digest evaluate baseline candidate dataset conf m seed = .ok e) :
    e.baselineHash = baseline.hash digest ∧ e.datasetId = dataset.datasetId ∧
      e.datasetVersion = dataset.version := by
  rw [evaluateOnHoldout_eq] at h
  obtain ⟨-, _, _, _, -, -, -, rfl⟩ := evidenceFromResults_ok h
  exact ⟨rfl, rfl, rfl⟩

/-! ## Monotonicity in the candidate -/

/-- `r'` reports the metrics `r` reports and is at least as good on every gated one. -/
structure EvaluationResult.AtLeast (r r' : EvaluationResult) : Prop where
  sameNames : ∀ key, key ∈ Dict.keys r.metrics ↔ key ∈ Dict.keys r'.metrics
  quality : Dict.getD r.metrics "quality" 0 ≤ Dict.getD r'.metrics "quality" 0
  safety : Dict.getD r.metrics "safety_score" 0 ≤ Dict.getD r'.metrics "safety_score" 0
  compliance :
    Dict.getD r.metrics "policy_compliance" 0 ≤ Dict.getD r'.metrics "policy_compliance" 0
  cost : r'.costUsd ≤ r.costUsd
  latency : r'.latencyMs ≤ r.latencyMs

/-- Result lists compared challenge by challenge. -/
abbrev ResultsAtLeast (rs rs' : List EvaluationResult) : Prop :=
  List.Forall₂ EvaluationResult.AtLeast rs rs'

/-- A metric both results report or both lack. -/
theorem reportedValues_mono {key : String} {rs rs' : List EvaluationResult}
    (h : List.Forall₂ (fun r r' : EvaluationResult =>
      (key ∈ Dict.keys r.metrics ↔ key ∈ Dict.keys r'.metrics) ∧
        Dict.getD r.metrics key 0 ≤ Dict.getD r'.metrics key 0) rs rs') :
    Below (reportedValues key rs) (reportedValues key rs') := by
  unfold reportedValues
  induction h with
  | nil => exact .nil
  | @cons r r' rs rs' hr _ ih =>
      obtain ⟨hnames, hle⟩ := hr
      unfold Dict.getD at hle
      cases hg : Dict.get? r.metrics key with
      | none =>
          have hg' : Dict.get? r'.metrics key = none :=
            Dict.get?_eq_none.mpr fun hk => Dict.get?_eq_none.mp hg (hnames.mpr hk)
          simpa [List.filterMap_cons, hg, hg'] using ih
      | some v =>
          have hk : key ∈ Dict.keys r'.metrics := by
            by_contra hn
            exact absurd (Dict.get?_eq_none.mpr fun hk => hn (hnames.mp hk)) (by simp [hg])
          obtain ⟨v', hg'⟩ : ∃ v', Dict.get? r'.metrics key = some v' := by
            cases hg' : Dict.get? r'.metrics key with
            | none => exact absurd hk (Dict.get?_eq_none.mp hg')
            | some v' => exact ⟨v', rfl⟩
          rw [List.filterMap_cons, List.filterMap_cons, hg, hg']
          exact .cons (by simpa [hg, hg'] using hle) ih

theorem getD_perChallengeMetrics (key : String) (results : List EvaluationResult) :
    Dict.getD (perChallengeMetrics results) key [] = reportedValues key results := by
  rw [Dict.getD, perChallengeMetrics, Dict.get?_tabulate]
  split_ifs with hk
  · rfl
  · symm
    refine List.filterMap_eq_nil_iff.mpr fun r hr => ?_
    exact Dict.get?_eq_none.mpr fun hm => hk (mem_metricKeys.mpr ⟨r, hr, hm⟩)

/-! What the gates read back from the stored metrics -/

theorem aggregateFromMetrics_quality (hash : String) (a : AggregateMetrics) (n : ℕ) :
    Dict.getD (aggregateFromMetrics hash a.asDict n).metrics "quality" 0 =
      Dict.getD a.metrics "quality" 0 := by
  unfold Dict.getD aggregateFromMetrics AggregateMetrics.asDict
  dsimp only
  rw [Dict.get?_filter_key (fun k => decide (k ∉ aggregateOnlyKeys)) _ (by decide),
    Dict.get?_set_of_ne _ _ (by decide), Dict.get?_set_of_ne _ _ (by decide),
    Dict.get?_set_of_ne _ _ (by decide)]

theorem aggregateFromMetrics_costUsd (hash : String) (a : AggregateMetrics) (n : ℕ) :
    (aggregateFromMetrics hash a.asDict n).costUsd = a.costUsd := by
  unfold aggregateFromMetrics AggregateMetrics.asDict Dict.getD
  dsimp only
  rw [Dict.get?_set_of_ne _ _ (by decide), Dict.get?_set_of_ne _ _ (by decide),
    Dict.get?_set_self]
  rfl

theorem aggregateFromMetrics_latencyMs (hash : String) (a : AggregateMetrics) (n : ℕ) :
    (aggregateFromMetrics hash a.asDict n).latencyMs = a.latencyMs := by
  unfold aggregateFromMetrics AggregateMetrics.asDict Dict.getD
  dsimp only
  rw [Dict.get?_set_of_ne _ _ (by decide), Dict.get?_set_self]
  rfl

theorem evidenceFromResults_of_parts {np : Numpy} {dataset : DatasetVersion} {bh : String}
    {cs : List Challenge} {brs crs : List EvaluationResult} {conf m : ℚ} {seed : ℤ}
    {cmp : ComparisonResult} {bagg cagg : AggregateMetrics}
    (hn : minHoldoutChallenges ≤ cs.length)
    (hcmp : compare np (metricValues "quality" brs) (metricValues "quality" crs) m conf seed =
      .ok cmp)
    (hb : aggregate brs (cs.map (·.category)) = .ok bagg)
    (hc : aggregate crs (cs.map (·.category)) = .ok cagg) :
    evidenceFromResults np dataset bh cs brs crs conf m seed =
      .ok { datasetId := dataset.datasetId, datasetVersion := dataset.version,
            baselineHash := bh, nHoldout := cs.length, baselineMetrics := bagg.asDict,
            candidateMetrics := cagg.asDict, comparison := cmp,
            safety := estimateSafety np (perChallengeMetrics crs) conf seed } := by
  unfold evidenceFromResults
  rw [if_neg (not_lt.mpr hn)]
  simp only [hcmp, hb, hc, ok_bind]
  rfl

/-- What decides: the safety bounds, the quality floor, the two growth caps and the
    significance requirement. The regression guard adds nothing to the caps. -/
theorem decideFromEvidence_approved_iff {e : HoldoutEvidence} {bagg cagg : AggregateMetrics}
    (hb : e.baselineMetrics = bagg.asDict) (hc : e.candidateMetrics = cagg.asDict)
    (hash : String) (gates : PromotionGateConfig) (constraints : SafetyConstraints) :
    (decideFromEvidence e hash gates constraints).approved = true ↔
      e.safety.check constraints = [] ∧
      gates.minQuality ≤ Dict.getD cagg.metrics "quality" 0 ∧
      fractionalIncrease bagg.costUsd cagg.costUsd ≤ gates.maxCostIncrease ∧
      fractionalIncrease bagg.latencyMs cagg.latencyMs ≤ gates.maxLatencyIncrease ∧
      significanceReasons e.comparison gates = [] := by
  have hdec : (decideFromEvidence e hash gates constraints).approved =
      (evaluatePromotion (aggregateFromMetrics "baseline" e.baselineMetrics e.nHoldout)
        (aggregateFromMetrics hash e.candidateMetrics e.nHoldout) e.comparison gates
        constraints (some e.safety)).approved := by
    simp only [decideFromEvidence]
  rw [hdec, evaluatePromotion_approved_iff, metricGateFindings_nil_iff, hb, hc,
    aggregateFromMetrics_quality, aggregateFromMetrics_costUsd, aggregateFromMetrics_costUsd,
    aggregateFromMetrics_latencyMs, aggregateFromMetrics_latencyMs]
  constructor
  · rintro ⟨⟨hsafe, hqual, hcost, hlat⟩, hsig, -⟩
    exact ⟨hsafe, hqual, hcost, hlat, hsig⟩
  · rintro ⟨hsafe, hqual, hcost, hlat, hsig⟩
    refine ⟨⟨hsafe, hqual, hcost, hlat⟩, hsig, regressionGuard_nil_of_gates ?_ ?_⟩
    · rwa [aggregateFromMetrics_costUsd, aggregateFromMetrics_costUsd]
    · rwa [aggregateFromMetrics_latencyMs, aggregateFromMetrics_latencyMs]

/-- The gates read better numbers off better results. -/
theorem metricGates_mono {rs rs' : List EvaluationResult} {cats : List String}
    {agg agg' : AggregateMetrics} (h : ResultsAtLeast rs rs')
    (ha : aggregate rs cats = .ok agg) (ha' : aggregate rs' cats = .ok agg') :
    Dict.getD agg.metrics "quality" 0 ≤ Dict.getD agg'.metrics "quality" 0 ∧
      agg'.costUsd ≤ agg.costUsd ∧ agg'.latencyMs ≤ agg.latencyMs := by
  refine ⟨?_, ?_, ?_⟩
  · rw [getD_aggregate_metrics ha, getD_aggregate_metrics ha']
    exact roundTo_mono 4 (mean_mono (below_map (h.imp fun _ _ hr => hr.quality)))
  · rw [(aggregate_ok ha).2.1, (aggregate_ok ha').2.1]
    exact roundTo_mono 6 (mean_mono (below_map (h.flip.imp fun _ _ hr => hr.cost)))
  · rw [(aggregate_ok ha).2.2, (aggregate_ok ha').2.2]
    exact roundTo_mono 2 (mean_mono (below_map (h.flip.imp fun _ _ hr => hr.latency)))

section Example

/-- A generator that draws every position once, with the linear quantile. On samples whose
    values are all equal it answers what any generator and quantile answer. -/
def exampleNumpy : Numpy where
  choiceRows _ rows n := List.replicate rows (List.range n)
  choiceMatrix _ rows n := List.replicate rows (List.range n)
  quantile := linearQuantile
  std _ := 0

def exampleChallenge (i : ℕ) : Challenge where
  challengeId := s!"fs-1-{i}"
  category := "policy_faq"
  difficulty := ⟨3 / 10, by norm_num⟩
  input := "What is your policy on returns?"
  expectedBehavior := "Cite the relevant policy clause accurately."
  split := .holdout

def exampleDataset : DatasetVersion where
  datasetId := "app-dataset"
  version := 1
  source := "seed"
  challenges := (List.range 10).map exampleChallenge
  difficultyScore := 1 / 4

/-- The same quality on every challenge, at a fixed cost and latency. -/
def exampleResults (genomeHash : String) (quality : ℚ) : List EvaluationResult :=
  exampleDataset.challenges.map fun c =>
    { challengeId := c.challengeId, genomeHash := genomeHash, metrics := [("quality", quality)],
      costUsd := 1 / 100, latencyMs := 500, failed := false }

def exampleGates : PromotionGateConfig :=
  { PromotionGateConfig.defaults with requireStatisticallySignificantImprovement := false }

theorem exampleResults_atLeast (genomeHash : String) {q q' : ℚ} (h : q ≤ q') :
    ResultsAtLeast (exampleResults genomeHash q) (exampleResults genomeHash q') := by
  unfold exampleResults ResultsAtLeast
  refine List.forall₂_map_left_iff.mpr (List.forall₂_map_right_iff.mpr ?_)
  refine List.forall₂_same.mpr fun c _ => ⟨fun _ => Iff.rfl, h, le_rfl, le_rfl, le_rfl, le_rfl⟩

end Example

/-- **The promotion decision is monotone in the candidate.** Fix the baseline results, the
    holdout challenges, the seed, the confidence, the gates and the constraints. If the
    measurement of one candidate is approved, the measurement of every candidate that
    reports the same metrics and is at least as good on every challenge succeeds and is
    approved. Of numpy only `QuantileMonotone` is used; that the drawn positions depend on
    the seed and the length alone is the type of `choiceRows` and `choiceMatrix`. -/
theorem decideFromEvidence_mono (np : Numpy) (hq : np.QuantileMonotone)
    (dataset : DatasetVersion) (baselineHash hash hash' : String)
    (challenges : List Challenge) (brs crs crs' : List EvaluationResult)
    (conf m : ℚ) (seed : ℤ) (gates : PromotionGateConfig) (constraints : SafetyConstraints)
    (e : HoldoutEvidence) (hbetter : ResultsAtLeast crs crs')
    (he : evidenceFromResults np dataset baselineHash challenges brs crs conf m seed = .ok e)
    (happ : (decideFromEvidence e hash gates constraints).approved = true) :
    ∃ e', evidenceFromResults np dataset baselineHash challenges brs crs' conf m seed =
        .ok e' ∧ (decideFromEvidence e' hash' gates constraints).approved = true := by
  obtain ⟨hn, cmp, bagg, cagg, hcmp, hb, hc, rfl⟩ := evidenceFromResults_ok he
  have hscores : Below (metricValues "quality" crs) (metricValues "quality" crs') :=
    below_map (hbetter.imp fun _ _ hr => hr.quality)
  obtain ⟨cmp', hcmp'⟩ := compare_ok_of_length hcmp hscores.length_eq
  obtain ⟨cagg', hc'⟩ : ∃ a, aggregate crs' (challenges.map (·.category)) = .ok a := by
    cases hbetter with
    | nil => exact ⟨_, hc⟩
    | cons _ _ => exact ⟨_, rfl⟩
  refine ⟨_, evidenceFromResults_of_parts hn hcmp' hb hc', ?_⟩
  rw [decideFromEvidence_approved_iff rfl rfl] at happ ⊢
  obtain ⟨hsafe, hqual, hcost, hlat, hsig⟩ := happ
  obtain ⟨hqual', hcost', hlat'⟩ := metricGates_mono hbetter hc hc'
  refine ⟨?_, hqual.trans hqual', (fractionalIncrease_mono _ hcost').trans hcost,
    (fractionalIncrease_mono _ hlat').trans hlat, ?_⟩
  · refine SafetyEstimate.check_nil_mono (estimateSafety_atLeast hq conf seed ?_ ?_) hsafe
    · rw [getD_perChallengeMetrics, getD_perChallengeMetrics]
      exact reportedValues_mono (hbetter.imp fun _ _ hr => ⟨hr.sameNames _, hr.safety⟩)
    · rw [getD_perChallengeMetrics, getD_perChallengeMetrics]
      exact reportedValues_mono (hbetter.imp fun _ _ hr => ⟨hr.sameNames _, hr.compliance⟩)
  · rw [significanceReasons_nil_iff] at hsig ⊢
    intro hreq
    obtain ⟨himp, hconf⟩ := hsig hreq
    refine ⟨compare_improvement_mono hq hscores hcmp hcmp' himp, ?_⟩
    rw [compare_confidence hcmp] at hconf
    rwa [compare_confidence hcmp']

/-- The hypotheses are met by ten challenges of quality 0.7, then 0.8, against 0.5. -/
theorem decideFromEvidence_mono_quality :
    ∃ e', evidenceFromResults exampleNumpy exampleDataset "base" exampleDataset.challenges
        (exampleResults "base" (1 / 2)) (exampleResults "cand" (4 / 5)) (19 / 20) (1 / 50) 42 =
        .ok e' ∧
      (decideFromEvidence e' "cand" exampleGates .defaults).approved = true :=
  decideFromEvidence_mono exampleNumpy (fun _ _ q h => linearQuantile_mono h q)
    exampleDataset "base" "cand" "cand" exampleDataset.challenges
    (exampleResults "base" (1 / 2)) (exampleResults "cand" (7 / 10)) _ (19 / 20) (1 / 50) 42
    exampleGates .defaults _
    (exampleResults_atLeast "cand" (by norm_num)) rfl (by decide +kernel)

end NeuroForge
