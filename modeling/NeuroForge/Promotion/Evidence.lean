/-
  The stored form of the holdout evidence (`promotion/holdout.py`, the JSON column of
  `HoldoutEvaluationRecord`) and the decision taken from it.

  `StoredEvidence` is `HoldoutEvidence` as the source keeps it, with the comparison as a
  dictionary of its fields; `StoredEvidence.codec` is its dump and its validation, a codec of
  JSON values. `StoredEvidence.decide` is `decide_from_evidence` down to the enum and the
  record it rebuilds; on evidence the program stored it is `decideFromEvidence`
  (`decide_stored`), the function the review is modelled with.

  Of the aggregates a decision at safety bounds reads the quality, the cost and the latency
  (`evaluatePromotion_congr`); these three survive the flattening into one dictionary.
-/
import NeuroForge.Lib.Json
import NeuroForge.Promotion.Holdout

namespace NeuroForge

open Fallible

/-! ## The comparison as a dictionary -/

/-- `Conclusion(value)`; `none` where the source raises. -/
def Conclusion.parse (value : String) : Option Conclusion :=
  [Conclusion.likelyImprovement, .likelyRegression, .inconclusive].find? (·.value = value)

theorem Conclusion.parse_value (c : Conclusion) : Conclusion.parse c.value = some c := by
  cases c <;> decide

/-- `asdict(comparison)` with the conclusion as its text. -/
def ComparisonResult.fields (c : ComparisonResult) : Dict String Json :=
  [("mean_diff", .float c.meanDiff), ("relative_diff", .float c.relativeDiff),
    ("ci_low", .float c.ciLow), ("ci_high", .float c.ciHigh),
    ("effect_size", .float c.effectSize), ("confidence", .float c.confidence),
    ("conclusion", .str c.conclusion.value)]

def comparisonFieldNames : List String :=
  ["mean_diff", "relative_diff", "ci_low", "ci_high", "effect_size", "confidence",
    "conclusion"]

/-- `Conclusion(fields["conclusion"])`, then `ComparisonResult(**fields)`: every field, and no
    other. -/
def ComparisonResult.ofFields (fields : Dict String Json) : Option ComparisonResult := do
  let value ← (Json.Codec.str.field fields "conclusion").toOption
  let conclusion ← Conclusion.parse value
  guard (∀ name ∈ Dict.keys fields, name ∈ comparisonFieldNames)
  let number := fun name => (Json.Codec.float.field fields name).toOption
  return {
    meanDiff := ← number "mean_diff"
    relativeDiff := ← number "relative_diff"
    ciLow := ← number "ci_low"
    ciHigh := ← number "ci_high"
    effectSize := ← number "effect_size"
    confidence := ← number "confidence"
    conclusion := conclusion }

theorem ComparisonResult.ofFields_fields (c : ComparisonResult) :
    ComparisonResult.ofFields c.fields = some c := by
  unfold ComparisonResult.ofFields
  have hvalue : Json.Codec.str.field c.fields "conclusion" = .ok c.conclusion.value := rfl
  have hnames : ∀ name ∈ Dict.keys c.fields, name ∈ comparisonFieldNames := fun _ h => h
  rw [hvalue]
  simp only [Except.toOption, Option.bind_eq_bind, Option.bind_some, c.conclusion.parse_value,
    guard, if_pos hnames]
  rfl

/-! ## The evidence as JSON -/

def SafetyEstimate.codec : Json.Codec SafetyEstimate where
  encode e := .obj [("n", Json.Codec.nat.encode e.n),
    ("confidence", Json.Codec.float.encode e.confidence),
    ("has_policy_metric", Json.Codec.bool.encode e.hasPolicyMetric),
    ("policy_violation_rate", Json.Codec.float.encode e.policyViolationRate),
    ("policy_violation_upper", Json.Codec.float.encode e.policyViolationUpper),
    ("safety_score", Json.Codec.float.encode e.safetyScore),
    ("safety_score_lower", Json.Codec.float.encode e.safetyScoreLower)]
  decode j := do
    let fields ← Json.Codec.fieldsOf j
    return {
      n := ← Json.Codec.nat.field fields "n"
      confidence := ← Json.Codec.float.field fields "confidence"
      hasPolicyMetric := ← Json.Codec.bool.field fields "has_policy_metric"
      policyViolationRate := ← Json.Codec.float.field fields "policy_violation_rate"
      policyViolationUpper := ← Json.Codec.float.field fields "policy_violation_upper"
      safetyScore := ← Json.Codec.float.field fields "safety_score"
      safetyScoreLower := ← Json.Codec.float.field fields "safety_score_lower" }
  roundtrip _ := rfl

/-- `HoldoutEvidence` with the comparison as the dictionary it is stored as. -/
structure StoredEvidence where
  datasetId : String
  datasetVersion : ℕ
  baselineHash : String := ""
  nHoldout : ℕ
  baselineMetrics : Dict String ℚ
  candidateMetrics : Dict String ℚ
  comparison : Dict String Json
  safety : SafetyEstimate

/-- What `evaluate_on_holdout` builds of its measurement. -/
def HoldoutEvidence.stored (e : HoldoutEvidence) : StoredEvidence where
  datasetId := e.datasetId
  datasetVersion := e.datasetVersion
  baselineHash := e.baselineHash
  nHoldout := e.nHoldout
  baselineMetrics := e.baselineMetrics
  candidateMetrics := e.candidateMetrics
  comparison := e.comparison.fields
  safety := e.safety

namespace StoredEvidence

/-- `model_dump(mode="json")`. -/
def encode (e : StoredEvidence) : Json :=
  .obj [("dataset_id", Json.Codec.str.encode e.datasetId),
    ("dataset_version", Json.Codec.nat.encode e.datasetVersion),
    ("baseline_hash", Json.Codec.str.encode e.baselineHash),
    ("n_holdout", Json.Codec.nat.encode e.nHoldout),
    ("baseline_metrics", Json.Codec.float.dict.encode e.baselineMetrics),
    ("candidate_metrics", Json.Codec.float.dict.encode e.candidateMetrics),
    ("comparison", Json.Codec.any.dict.encode e.comparison),
    ("safety", SafetyEstimate.codec.encode e.safety)]

/-- `model_validate`. -/
def decode (j : Json) : Except Json.Misfit StoredEvidence := do
  let fields ← Json.Codec.fieldsOf j
  return {
    datasetId := ← Json.Codec.str.field fields "dataset_id"
    datasetVersion := ← Json.Codec.nat.field fields "dataset_version"
    baselineHash := ← Json.Codec.str.fieldD fields "baseline_hash" ""
    nHoldout := ← Json.Codec.nat.field fields "n_holdout"
    baselineMetrics := ← Json.Codec.float.dict.field fields "baseline_metrics"
    candidateMetrics := ← Json.Codec.float.dict.field fields "candidate_metrics"
    comparison := ← Json.Codec.any.dict.field fields "comparison"
    safety := ← SafetyEstimate.codec.field fields "safety" }

theorem decode_encode (e : StoredEvidence) : decode e.encode = .ok e := by
  have hfields : Json.Codec.fieldsOf e.encode = .ok [("dataset_id", .str e.datasetId),
      ("dataset_version", .int e.datasetVersion), ("baseline_hash", .str e.baselineHash),
      ("n_holdout", .int e.nHoldout),
      ("baseline_metrics", Json.Codec.float.dict.encode e.baselineMetrics),
      ("candidate_metrics", Json.Codec.float.dict.encode e.candidateMetrics),
      ("comparison", Json.Codec.any.dict.encode e.comparison),
      ("safety", SafetyEstimate.codec.encode e.safety)] := rfl
  unfold decode
  rw [hfields, ok_bind, Json.Codec.str.field_encode (a := e.datasetId) rfl, ok_bind,
    Json.Codec.nat.field_encode (a := e.datasetVersion) rfl, ok_bind,
    Json.Codec.str.fieldD_encode (a := e.baselineHash) "" rfl, ok_bind,
    Json.Codec.nat.field_encode (a := e.nHoldout) rfl, ok_bind,
    Json.Codec.float.dict.field_encode (a := e.baselineMetrics) rfl, ok_bind,
    Json.Codec.float.dict.field_encode (a := e.candidateMetrics) rfl, ok_bind,
    Json.Codec.any.dict.field_encode (a := e.comparison) rfl, ok_bind,
    SafetyEstimate.codec.field_encode (a := e.safety) rfl, ok_bind]
  rfl

/-- The JSON column: what `save_holdout_evaluation` writes and a review reads. -/
def codec : Json.Codec StoredEvidence := ⟨encode, decode, decode_encode⟩

/-- `decide_from_evidence`; `none` where the stored comparison is none. -/
def decide (e : StoredEvidence) (candidateHash : String) (gates : PromotionGateConfig)
    (constraints : SafetyConstraints) : Option PromotionDecision := do
  let comparison ← ComparisonResult.ofFields e.comparison
  let decision := evaluatePromotion
    (aggregateFromMetrics "baseline" e.baselineMetrics e.nHoldout)
    (aggregateFromMetrics candidateHash e.candidateMetrics e.nHoldout)
    comparison gates constraints (some e.safety)
  return { decision with
    evidence := (s!"holdout split of {e.datasetId} v{e.datasetVersion}, " ++
      s!"n={e.nHoldout} (untouched by search and by the experiment's own validation)")
      :: decision.evidence }

end StoredEvidence

/-- Deciding from the stored form is deciding from the evidence. -/
theorem decide_stored (e : HoldoutEvidence) (hash : String) (gates : PromotionGateConfig)
    (constraints : SafetyConstraints) :
    e.stored.decide hash gates constraints =
      some (decideFromEvidence e hash gates constraints) := by
  have hcomparison : ComparisonResult.ofFields e.stored.comparison = some e.comparison :=
    e.comparison.ofFields_fields
  unfold StoredEvidence.decide
  rw [hcomparison]
  rfl

/-! ## What a decision reads of the aggregates -/

/-- The numbers of an aggregate that the gates read at safety bounds. -/
structure SameReadings (a a' : AggregateMetrics) : Prop where
  quality : Dict.getD a.metrics "quality" 0 = Dict.getD a'.metrics "quality" 0
  costUsd : a.costUsd = a'.costUsd
  latencyMs : a.latencyMs = a'.latencyMs

/-- An aggregate rebuilt from its dictionary reads as the aggregate. -/
theorem sameReadings_aggregateFromMetrics (hash : String) (a : AggregateMetrics) (n : ℕ) :
    SameReadings (aggregateFromMetrics hash a.asDict n) a where
  quality := aggregateFromMetrics_quality hash a n
  costUsd := aggregateFromMetrics_costUsd hash a n
  latencyMs := aggregateFromMetrics_latencyMs hash a n

theorem evaluatePromotion_congr {b b' c c' : AggregateMetrics} (hb : SameReadings b b')
    (hc : SameReadings c c') (cmp : ComparisonResult) (gates : PromotionGateConfig)
    (constraints : SafetyConstraints) (e : SafetyEstimate) :
    evaluatePromotion b c cmp gates constraints (some e) =
      evaluatePromotion b' c' cmp gates constraints (some e) := by
  unfold evaluatePromotion metricGateFindings regressionGuard
  simp only [hb.quality, hb.costUsd, hb.latencyMs, hc.quality, hc.costUsd, hc.latencyMs]

/-- The verdict of a decision: what of it the caller acts on. -/
structure SameVerdict (d d' : PromotionDecision) : Prop where
  approved : d.approved = d'.approved
  nextStatus : d.nextStatus = d'.nextStatus
  reasons : d.reasons = d'.reasons

theorem decideFromEvidence_verdict (e : HoldoutEvidence) (hash : String)
    (gates : PromotionGateConfig) (constraints : SafetyConstraints) :
    SameVerdict (decideFromEvidence e hash gates constraints)
      (evaluatePromotion (aggregateFromMetrics "baseline" e.baselineMetrics e.nHoldout)
        (aggregateFromMetrics hash e.candidateMetrics e.nHoldout) e.comparison gates
        constraints (some e.safety)) := by
  unfold decideFromEvidence
  constructor
  all_goals dsimp only

/-- The decision from evidence that holds two aggregates' dictionaries is theirs. -/
theorem decideFromEvidence_measured {e : HoldoutEvidence} {bagg cagg : AggregateMetrics}
    (hb : e.baselineMetrics = bagg.asDict) (hc : e.candidateMetrics = cagg.asDict)
    (hash : String) (gates : PromotionGateConfig) (constraints : SafetyConstraints) :
    SameVerdict (decideFromEvidence e hash gates constraints)
      (evaluatePromotion bagg cagg e.comparison gates constraints (some e.safety)) := by
  have hverdict := decideFromEvidence_verdict e hash gates constraints
  rw [hb, hc, evaluatePromotion_congr
    (sameReadings_aggregateFromMetrics "baseline" bagg e.nHoldout)
    (sameReadings_aggregateFromMetrics hash cagg e.nHoldout)] at hverdict
  exact hverdict

/-- **Stored evidence decides as the measurement does.** For all result lists whose
    measurement succeeds, under all gates and constraints, the evidence survives its JSON
    column and the decision from it approves, and gives the status and the reasons, as the
    decision from the aggregates, the comparison and the safety estimate themselves. -/
theorem decide_after_roundtrip (np : Numpy) (dataset : DatasetVersion) (baselineHash : String)
    (challenges : List Challenge) (brs crs : List EvaluationResult) (conf m : ℚ) (seed : ℤ)
    (e : HoldoutEvidence)
    (h : evidenceFromResults np dataset baselineHash challenges brs crs conf m seed = .ok e) :
    ∃ loaded cmp bagg cagg,
      StoredEvidence.codec.decode (StoredEvidence.codec.encode e.stored) = .ok loaded ∧
      compare np (metricValues "quality" brs) (metricValues "quality" crs) m conf seed =
        .ok cmp ∧
      aggregate brs (challenges.map (·.category)) = .ok bagg ∧
      aggregate crs (challenges.map (·.category)) = .ok cagg ∧
      ∀ hash gates constraints, ∃ decision,
        loaded.decide hash gates constraints = some decision ∧
        SameVerdict decision (evaluatePromotion bagg cagg cmp gates constraints
          (some (estimateSafety np (perChallengeMetrics crs) conf seed))) := by
  obtain ⟨-, cmp, bagg, cagg, hcmp, hb, hc, rfl⟩ := evidenceFromResults_ok h
  refine ⟨_, cmp, bagg, cagg, StoredEvidence.codec.roundtrip _, hcmp, hb, hc, ?_⟩
  intro hash gates constraints
  exact ⟨_, decide_stored _ hash gates constraints,
    decideFromEvidence_measured rfl rfl hash gates constraints⟩

/-- The evidence of ten challenges of quality 0.7 against 0.5. -/
theorem decide_after_roundtrip_quality :
    ∃ loaded, (∃ e, evidenceFromResults exampleNumpy exampleDataset "base"
          exampleDataset.challenges (exampleResults "base" (1 / 2))
          (exampleResults "cand" (7 / 10)) (19 / 20) (1 / 50) 42 = .ok e ∧
        StoredEvidence.codec.decode (StoredEvidence.codec.encode e.stored) = .ok loaded) ∧
      ∃ decision, loaded.decide "cand" exampleGates .defaults = some decision := by
  obtain ⟨e, he⟩ : ∃ e, evidenceFromResults exampleNumpy exampleDataset "base"
      exampleDataset.challenges (exampleResults "base" (1 / 2))
      (exampleResults "cand" (7 / 10)) (19 / 20) (1 / 50) 42 = .ok e := ⟨_, rfl⟩
  obtain ⟨loaded, _, _, _, hloaded, -, -, -, hdecides⟩ := decide_after_roundtrip exampleNumpy
    exampleDataset "base" exampleDataset.challenges (exampleResults "base" (1 / 2))
    (exampleResults "cand" (7 / 10)) (19 / 20) (1 / 50) 42 e he
  obtain ⟨decision, hdecision, -⟩ := hdecides "cand" exampleGates .defaults
  exact ⟨loaded, ⟨e, he, hloaded⟩, decision, hdecision⟩

end NeuroForge
