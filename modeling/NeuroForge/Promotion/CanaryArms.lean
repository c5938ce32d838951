/-
  `simulate_canary` of `promotion/canary.py`: two arms of traffic, and a verdict on them.

  A request goes to the candidate by a hash of the candidate and the request's own id. So the
  order of the traffic plays no part, in the arms or in the verdict (`canary_order_irrelevant`),
  and a canary that is widened keeps the requests it had (`canary_ramp`). One that passes
  bounds the candidate's means on its own arm, by the constraints and by the baseline's means
  on the other (`canary_pass_bounds`).
-/
import NeuroForge.Domains.Provider
import NeuroForge.Evaluation.Aggregate
import NeuroForge.Promotion.Safety

namespace NeuroForge

open Rounding Sample

variable {ρ : Type}

structure CanaryResult where
  baselineMetrics : AggregateMetrics
  candidateMetrics : AggregateMetrics
  trafficSplit : ℚ
  nBaselineRequests : ℕ
  nCandidateRequests : ℕ
  rollbackTriggered : Bool
  reasons : List String
  deriving DecidableEq

def routesToCandidate (r : StableRandom ρ) (candidateHash : String) (fraction : ℚ)
    (c : Challenge) : Bool :=
  decide (r.stableUnitInterval [.str "canary-route", .str candidateHash, .str c.challengeId] <
    fraction)

def maxQualityRegressionDefault : ℚ := 1 / 20

/-- What speaks for a rollback. -/
def canaryReasons (baselineAgg candidateAgg : AggregateMetrics) (constraints : SafetyConstraints)
    (maxQualityRegression : ℚ) : List String :=
  let qualityDrop := Dict.getD baselineAgg.metrics "quality" 0 -
    Dict.getD candidateAgg.metrics "quality" 0
  checkSafety candidateAgg.asDict constraints ++
  (if maxQualityRegression < qualityDrop then
    ["candidate quality regressed by " ++ fixed 3 qualityDrop ++ " (> allowed " ++
      fixed 3 maxQualityRegression ++ ") during canary"]
  else []) ++
  (if baselineAgg.failureRate + 3 / 20 < candidateAgg.failureRate then
    ["candidate failure_rate " ++ fixed 3 candidateAgg.failureRate ++ " far exceeds baseline " ++
      fixed 3 baselineAgg.failureRate ++ " during canary"]
  else [])

/-- The arms are evaluated and aggregated on their own; an empty one is a `ValueError`. -/
def simulateCanary (r : StableRandom ρ) (digest : GenomeDigest) (evaluator : Evaluator)
    (baseline candidate : SystemGenome) (traffic : List Challenge) (fraction : ℚ)
    (constraints : SafetyConstraints) (maxQualityRegression : ℚ) : Except String CanaryResult := do
  let (toCandidate, toBaseline) :=
    traffic.partition (routesToCandidate r (candidate.hash digest) fraction)
  if toBaseline.isEmpty || toCandidate.isEmpty then
    throw "canary traffic sample too small to produce both arms — increase traffic size"
  let baselineAgg ← aggregate (toBaseline.map (evaluator baseline.content))
    (toBaseline.map (·.category))
  let candidateAgg ← aggregate (toCandidate.map (evaluator candidate.content))
    (toCandidate.map (·.category))
  let reasons := canaryReasons baselineAgg candidateAgg constraints maxQualityRegression
  return {
    baselineMetrics := baselineAgg
    candidateMetrics := candidateAgg
    trafficSplit := fraction
    nBaselineRequests := toBaseline.length
    nCandidateRequests := toCandidate.length
    rollbackTriggered := !reasons.isEmpty
    reasons := if reasons.isEmpty then ["canary within safety and regression thresholds"]
      else reasons }

/-! ## Aggregates of reordered results -/

theorem mean_perm {xs ys : List ℚ} (h : xs.Perm ys) : mean xs = mean ys := by
  rw [mean, mean, h.sum_eq, h.length_eq]

theorem sorted_dedup_perm {xs ys : List String} (h : xs.Perm ys) :
    xs.dedup.insertionSort (· ≤ ·) = ys.dedup.insertionSort (· ≤ ·) :=
  ((List.perm_insertionSort _ _).trans (h.dedup.trans
    (List.perm_insertionSort _ _).symm)).eq_of_pairwise' (List.pairwise_insertionSort _ _)
      (List.pairwise_insertionSort _ _)

section
variable {f : Challenge → EvaluationResult} {cs cs' : List Challenge} (h : cs.Perm cs')
include h

theorem metricKeys_perm : metricKeys (cs.map f) = metricKeys (cs'.map f) :=
  sorted_dedup_perm ((h.map f).flatMap_right _)

theorem mean_metricValues_perm (key : String) :
    mean (metricValues key (cs.map f)) = mean (metricValues key (cs'.map f)) :=
  mean_perm ((h.map f).map _)

theorem perCategory_perm : perCategory (cs.map f) (cs.map (·.category)) =
    perCategory (cs'.map f) (cs'.map (·.category)) := by
  have hpairs : ∀ cs : List Challenge, (cs.map f).zip (cs.map (·.category)) =
      cs.map fun c => (f c, c.category) := fun _ => List.zip_map'
  unfold perCategory
  rw [sorted_dedup_perm (h.map _), hpairs, hpairs]
  refine List.map_congr_left fun category _ => ?_
  have hchosen := (((h.map fun c => (f c, c.category)).filter
    fun p => p.2 = category).map Prod.fst)
  have hmean := mean_perm (hchosen.map fun r => Dict.getD r.metrics "quality" 0)
  exact congrArg (fun q => (category, roundTo 4 q)) hmean

/-- The order of the challenges plays no part in an aggregate. -/
theorem aggregate_perm {hash : String} (hhash : ∀ c, (f c).genomeHash = hash) :
    aggregate (cs.map f) (cs.map (·.category)) =
      aggregate (cs'.map f) (cs'.map (·.category)) := by
  cases cs with
  | nil => rw [← h.nil_eq]
  | cons c rest =>
      cases cs' with
      | nil => exact absurd h.eq_nil (List.cons_ne_nil _ _)
      | cons c' rest' =>
          have hkeys := metricKeys_perm (f := f) h
          have hmeans := mean_metricValues_perm (f := f) h
          have hcategories := perCategory_perm (f := f) h
          have hlength := (h.map f).length_eq
          have hnumber : ∀ g : EvaluationResult → ℚ,
              mean ((f c :: rest.map f).map g) = mean ((f c' :: rest'.map f).map g) :=
            fun g => mean_perm ((h.map f).map g)
          have hfirst : (f c).genomeHash = (f c').genomeHash := (hhash c).trans (hhash c').symm
          simp only [List.map_cons] at hkeys hmeans hcategories hlength ⊢
          simp only [aggregate, hkeys, hmeans, hcategories, hlength, hnumber, hfirst]

end

/-! ## The canary -/

section
variable (r : StableRandom ρ) (digest : GenomeDigest) (evaluator : Evaluator)
  (baseline candidate : SystemGenome) (constraints : SafetyConstraints)
  (maxQualityRegression : ℚ)

/-- The requests the candidate answers. -/
def candidateArm (traffic : List Challenge) (fraction : ℚ) : List Challenge :=
  traffic.filter (routesToCandidate r (candidate.hash digest) fraction)

def baselineArm (traffic : List Challenge) (fraction : ℚ) : List Challenge :=
  traffic.filter (fun c => !routesToCandidate r (candidate.hash digest) fraction c)

theorem simulateCanary_arms (traffic : List Challenge) (fraction : ℚ) :
    traffic.partition (routesToCandidate r (candidate.hash digest) fraction) =
      (candidateArm r digest candidate traffic fraction,
        baselineArm r digest candidate traffic fraction) :=
  List.partition_eq_filter_filter

/-- What a verdict says of the arms. -/
structure CanaryResult.Compares (traffic : List Challenge) (fraction : ℚ)
    (result : CanaryResult) : Prop where
  baseline_arm : baselineArm r digest candidate traffic fraction ≠ []
  candidate_arm : candidateArm r digest candidate traffic fraction ≠ []
  baseline_metrics : aggregate
    ((baselineArm r digest candidate traffic fraction).map (evaluator baseline.content))
    ((baselineArm r digest candidate traffic fraction).map (·.category)) =
      .ok result.baselineMetrics
  candidate_metrics : aggregate
    ((candidateArm r digest candidate traffic fraction).map (evaluator candidate.content))
    ((candidateArm r digest candidate traffic fraction).map (·.category)) =
      .ok result.candidateMetrics
  baseline_requests :
    result.nBaselineRequests = (baselineArm r digest candidate traffic fraction).length
  candidate_requests :
    result.nCandidateRequests = (candidateArm r digest candidate traffic fraction).length
  verdict : result.rollbackTriggered = !(canaryReasons result.baselineMetrics
    result.candidateMetrics constraints maxQualityRegression).isEmpty

theorem exists_aggregate {results : List EvaluationResult} (h : results ≠ [])
    (categories : List String) : ∃ a, aggregate results categories = .ok a := by
  obtain ⟨first, rest, rfl⟩ := List.exists_cons_of_ne_nil h
  exact ⟨_, rfl⟩

variable {r digest evaluator baseline candidate constraints maxQualityRegression} in
theorem simulateCanary_compares {traffic : List Challenge} {fraction : ℚ}
    {result : CanaryResult}
    (h : simulateCanary r digest evaluator baseline candidate traffic fraction constraints
      maxQualityRegression = .ok result) :
    result.Compares r digest evaluator baseline candidate constraints maxQualityRegression
      traffic fraction := by
  unfold simulateCanary at h
  rw [simulateCanary_arms] at h
  dsimp only at h
  split at h
  · cases h
  · rename_i hne
    rw [Bool.or_eq_true, not_or, List.isEmpty_iff, List.isEmpty_iff] at hne
    obtain ⟨baselineAgg, hbaseline, h⟩ := Fallible.bind_eq_ok.mp h
    obtain ⟨candidateAgg, hcandidate, h⟩ := Fallible.bind_eq_ok.mp h
    cases h
    exact ⟨hne.1, hne.2, hbaseline, hcandidate, rfl, rfl, rfl⟩

/-- There is a verdict where neither arm is empty. -/
theorem exists_simulateCanary {traffic : List Challenge} {fraction : ℚ}
    (hbaseline : baselineArm r digest candidate traffic fraction ≠ [])
    (hcandidate : candidateArm r digest candidate traffic fraction ≠ []) :
    ∃ result, simulateCanary r digest evaluator baseline candidate traffic fraction
      constraints maxQualityRegression = .ok result := by
  have hexists : ∀ (f : Challenge → EvaluationResult) {arm : List Challenge}, arm ≠ [] →
      ∃ a, aggregate (arm.map f) (arm.map (·.category)) = .ok a :=
    fun _ _ harm => exists_aggregate (mt List.map_eq_nil_iff.mp harm) _
  obtain ⟨baselineAgg, hb⟩ := hexists (evaluator baseline.content) hbaseline
  obtain ⟨candidateAgg, hc⟩ := hexists (evaluator candidate.content) hcandidate
  unfold simulateCanary
  rw [simulateCanary_arms]
  dsimp only
  rw [if_neg (by simp [hbaseline, hcandidate]), hb, hc]
  exact ⟨_, rfl⟩

/-- **The order of the requests plays no part** in the verdict of a canary. -/
theorem canary_order_irrelevant {hashOf : GenomeContent → String}
    (hhash : ∀ content c, (evaluator content c).genomeHash = hashOf content)
    {traffic traffic' : List Challenge} (h : traffic.Perm traffic') (fraction : ℚ) :
    simulateCanary r digest evaluator baseline candidate traffic fraction constraints
        maxQualityRegression =
      simulateCanary r digest evaluator baseline candidate traffic' fraction constraints
        maxQualityRegression := by
  have hbaseline : (baselineArm r digest candidate traffic fraction).Perm
      (baselineArm r digest candidate traffic' fraction) := h.filter _
  have hcandidate : (candidateArm r digest candidate traffic fraction).Perm
      (candidateArm r digest candidate traffic' fraction) := h.filter _
  unfold simulateCanary
  rw [simulateCanary_arms, simulateCanary_arms]
  dsimp only
  rw [aggregate_perm hbaseline (hhash baseline.content),
    aggregate_perm hcandidate (hhash candidate.content), hbaseline.length_eq,
    hcandidate.length_eq, hbaseline.isEmpty_eq, hcandidate.isEmpty_eq]

theorem candidateArm_sublist (traffic : List Challenge) {f f' : ℚ} (h : f ≤ f') :
    (candidateArm r digest candidate traffic f).Sublist
      (candidateArm r digest candidate traffic f') :=
  List.monotone_filter_right traffic fun c hc => by
    unfold routesToCandidate at hc ⊢
    exact decide_eq_true ((of_decide_eq_true hc).trans_le h)

theorem baselineArm_sublist (traffic : List Challenge) {f f' : ℚ} (h : f ≤ f') :
    (baselineArm r digest candidate traffic f').Sublist
      (baselineArm r digest candidate traffic f) :=
  List.monotone_filter_right traffic fun c hc => by
    unfold routesToCandidate at hc ⊢
    rw [Bool.not_eq_true', decide_eq_false_iff_not, not_lt] at hc ⊢
    exact h.trans hc

/-- **Widening a canary only moves requests to the candidate.** Between two fractions with a
    verdict there is one at every fraction, and the arm of the candidate keeps all requests it
    had; each request is answered by one of the two arms. -/
theorem canary_ramp {traffic : List Challenge} {f₁ f f₂ : ℚ} {result₁ result₂ : CanaryResult}
    (h₁ : f₁ ≤ f) (h₂ : f ≤ f₂)
    (ok₁ : simulateCanary r digest evaluator baseline candidate traffic f₁ constraints
      maxQualityRegression = .ok result₁)
    (ok₂ : simulateCanary r digest evaluator baseline candidate traffic f₂ constraints
      maxQualityRegression = .ok result₂) :
    ∃ result, simulateCanary r digest evaluator baseline candidate traffic f constraints
        maxQualityRegression = .ok result ∧
      (candidateArm r digest candidate traffic f₁).Sublist
        (candidateArm r digest candidate traffic f) ∧
      (candidateArm r digest candidate traffic f).Sublist
        (candidateArm r digest candidate traffic f₂) ∧
      result₁.nCandidateRequests ≤ result.nCandidateRequests ∧
      result.nCandidateRequests ≤ result₂.nCandidateRequests ∧
      result.nCandidateRequests + result.nBaselineRequests = traffic.length := by
  have hlower := candidateArm_sublist r digest candidate traffic h₁
  have hupper := candidateArm_sublist r digest candidate traffic h₂
  have hkept := baselineArm_sublist r digest candidate traffic h₂
  have hc₁ := simulateCanary_compares ok₁
  have hc₂ := simulateCanary_compares ok₂
  obtain ⟨result, hresult⟩ := exists_simulateCanary r digest evaluator baseline candidate
    constraints maxQualityRegression
    (fun hnil => hc₂.baseline_arm (List.sublist_nil.mp (hnil ▸ hkept)))
    (fun hnil => hc₁.candidate_arm (List.sublist_nil.mp (hnil ▸ hlower)))
  have hc := simulateCanary_compares hresult
  refine ⟨result, hresult, hlower, hupper, ?_, ?_, ?_⟩
  · rw [hc₁.candidate_requests, hc.candidate_requests]
    exact hlower.length_le
  · rw [hc.candidate_requests, hc₂.candidate_requests]
    exact hupper.length_le
  · rw [hc.candidate_requests, hc.baseline_requests]
    exact (List.length_eq_length_filter_add _).symm

/-! ## What a passed canary says -/

theorem canaryReasons_nil_iff (baselineAgg candidateAgg : AggregateMetrics) :
    canaryReasons baselineAgg candidateAgg constraints maxQualityRegression = [] ↔
      checkSafety candidateAgg.asDict constraints = [] ∧
      Dict.getD baselineAgg.metrics "quality" 0 - Dict.getD candidateAgg.metrics "quality" 0 ≤
        maxQualityRegression ∧
      candidateAgg.failureRate ≤ baselineAgg.failureRate + 3 / 20 := by
  unfold canaryReasons
  simp only [List.append_eq_nil_iff, ite_eq_right_iff, List.cons_ne_nil, imp_false, not_lt,
    and_assoc]

/-- The mean of a metric over an arm, as the results report it. -/
def armMean (arm : List Challenge) (content : GenomeContent) (key : String) : ℚ :=
  mean (metricValues key (arm.map (evaluator content)))

def armFailures (arm : List Challenge) (content : GenomeContent) : ℚ :=
  mean ((arm.map (evaluator content)).map fun x => if x.failed then 1 else 0)

section
variable {results : List EvaluationResult} {categories : List String} {a : AggregateMetrics}
  (h : aggregate results categories = .ok a)
include h

theorem abs_aggregate_metric (key : String) :
    |Dict.getD a.metrics key 0 - mean (metricValues key results)| ≤ 1 / 20000 := by
  have hround := abs_roundTo_sub_le 4 (mean (metricValues key results))
  rw [getD_aggregate_metrics h key]
  norm_num at hround ⊢
  exact hround

theorem abs_aggregate_failureRate :
    |a.failureRate - mean (results.map fun x => if x.failed then 1 else 0)| ≤ 1 / 20000 := by
  have hround := abs_roundTo_sub_le 4 (mean (results.map fun x => if x.failed then 1 else 0))
  have hrate : a.failureRate =
      roundTo 4 (mean (results.map fun x => if x.failed then 1 else 0)) := by
    cases results with
    | nil => cases h
    | cons first rest =>
        cases h
        rfl
  rw [hrate]
  norm_num at hround ⊢
  exact hround

/-- A reported metric is the one the aggregate checks. -/
theorem getD_asDict {key : String} (hkey : key ∈ metricKeys results)
    (hcost : key ≠ "cost_usd") (hlatency : key ≠ "latency_ms") (hfailure : key ≠ "failure_rate")
    (default : ℚ) : Dict.getD a.asDict key default = Dict.getD a.metrics key 0 := by
  unfold Dict.getD
  rw [get?_asDict hcost hlatency hfailure, (aggregate_ok h).1, Dict.get?_tabulate, if_pos hkey]
  rfl

end

/-- **A canary that passes bounds the true means.** Up to the rounding of the aggregates the
    quality on the candidate's arm is within the allowed regression of the baseline's, its share
    of failures within 0.15, and its safety, where any result reports one, at the minimum. -/
theorem canary_pass_bounds {traffic : List Challenge} {fraction : ℚ} {result : CanaryResult}
    (h : simulateCanary r digest evaluator baseline candidate traffic fraction constraints
      maxQualityRegression = .ok result) (hpass : result.rollbackTriggered = false) :
    armMean evaluator (baselineArm r digest candidate traffic fraction) baseline.content
        "quality" - maxQualityRegression - 1 / 10000 ≤
      armMean evaluator (candidateArm r digest candidate traffic fraction) candidate.content
        "quality" ∧
    armFailures evaluator (candidateArm r digest candidate traffic fraction)
        candidate.content ≤
      armFailures evaluator (baselineArm r digest candidate traffic fraction)
        baseline.content + 3 / 20 + 1 / 10000 ∧
    ((∃ c ∈ candidateArm r digest candidate traffic fraction,
        "safety_score" ∈ Dict.keys (evaluator candidate.content c).metrics) →
      constraints.minSafetyScore - 1 / 20000 ≤
        armMean evaluator (candidateArm r digest candidate traffic fraction)
          candidate.content "safety_score") := by
  have hc := simulateCanary_compares h
  have hnil : canaryReasons result.baselineMetrics result.candidateMetrics constraints
      maxQualityRegression = [] := by
    have hverdict := hc.verdict
    rw [hpass, eq_comm, Bool.not_eq_false', List.isEmpty_iff] at hverdict
    exact hverdict
  obtain ⟨hsafety, hquality, hfailures⟩ := (canaryReasons_nil_iff _ _ _ _).mp hnil
  refine ⟨?_, ?_, ?_⟩
  · have hb := abs_le.mp (abs_aggregate_metric hc.baseline_metrics "quality")
    have hcand := abs_le.mp (abs_aggregate_metric hc.candidate_metrics "quality")
    unfold armMean
    linarith
  · have hb := abs_le.mp (abs_aggregate_failureRate hc.baseline_metrics)
    have hcand := abs_le.mp (abs_aggregate_failureRate hc.candidate_metrics)
    unfold armFailures
    linarith
  · rintro ⟨c, hmem, hreported⟩
    have hkey : "safety_score" ∈ metricKeys
        ((candidateArm r digest candidate traffic fraction).map (evaluator candidate.content)) :=
      mem_metricKeys.mpr ⟨_, List.mem_map_of_mem hmem, hreported⟩
    have hmin := ((checkSafety_nil_iff _ _).mp hsafety).1
    rw [getD_asDict hc.candidate_metrics hkey (by decide) (by decide) (by decide) 1] at hmin
    have hcand := abs_le.mp (abs_aggregate_metric hc.candidate_metrics "safety_score")
    unfold armMean
    linarith

end

section Example

/-- A request is routed by the length of its id. -/
def routingRandom : StableRandom ℕ :=
  { MockLLMProvider.exampleStableRandom with
    rng :=
      { seeded := Int.toNat
        random := fun s => (if s = 0 then 0 else 1 / 2, s + 1)
        randbelow := fun n h s => (⟨s % n, Nat.mod_lt _ h⟩, s + 1)
        positions := fun _ _ h s => (Fin.castLEEmb h, s + 1) }
    lawful := fun s => by
      dsimp only
      split_ifs <;> norm_num
    stableRng := fun parts => match parts with
      | [_, _, .str challengeId] => challengeId.length % 2
      | _ => 0 }

theorem half_between : (0 : ℚ) ≤ 1 / 2 ∧ (1 / 2 : ℚ) ≤ 1 := by norm_num

def canaryRequest (challengeId : String) : Challenge where
  challengeId := challengeId
  category := "order_status"
  difficulty := ⟨1 / 2, half_between⟩
  input := ""
  expectedBehavior := ""

def canaryEvaluator : Evaluator := fun _ c =>
  { challengeId := c.challengeId, genomeHash := "app", metrics := [("safety_score", 9 / 10)]
    costUsd := 1 / 100, latencyMs := 500, failed := false }

def canaryGenome : SystemGenome := { systemId := "app", version := 1 }

def canaryTraffic : List Challenge := [canaryRequest "r", canaryRequest "rr"]

def twoArms (traffic : List Challenge) (fraction : ℚ) : Except String CanaryResult :=
  simulateCanary routingRandom (fun content => content.systemId) canaryEvaluator canaryGenome
    canaryGenome traffic fraction .defaults maxQualityRegressionDefault

/-- A canary needs a request for either arm. -/
theorem exists_twoArms {fraction : ℚ}
    (hbaseline : baselineArm routingRandom (fun content => content.systemId) canaryGenome
      canaryTraffic fraction ≠ [])
    (hcandidate : candidateArm routingRandom (fun content => content.systemId) canaryGenome
      canaryTraffic fraction ≠ []) :
    ∃ result, twoArms canaryTraffic fraction = .ok result :=
  exists_simulateCanary _ _ _ _ _ _ _ hbaseline hcandidate

end Example

theorem canary_order_irrelevant_reversed :
    twoArms canaryTraffic (1 / 10) = twoArms canaryTraffic.reverse (1 / 10) := by
  have hhash : ∀ content c,
      (canaryEvaluator content c).genomeHash = Function.const GenomeContent "app" content :=
    fun _ _ => rfl
  exact canary_order_irrelevant routingRandom (fun content => content.systemId) canaryEvaluator
    canaryGenome canaryGenome .defaults maxQualityRegressionDefault hhash
    (List.reverse_perm canaryTraffic).symm (1 / 10)

theorem canary_ramp_quarter : ∃ result,
    twoArms canaryTraffic (1 / 4) = .ok result ∧
      result.nCandidateRequests + result.nBaselineRequests = 2 := by
  obtain ⟨result₁, ok₁⟩ := exists_twoArms (show baselineArm _ _ _ _ (1 / 10) ≠ [] by
    decide +kernel) (by decide +kernel)
  obtain ⟨result₂, ok₂⟩ := exists_twoArms (show baselineArm _ _ _ _ (2 / 5) ≠ [] by
    decide +kernel) (by decide +kernel)
  obtain ⟨result, hresult, -, -, -, -, hall⟩ := canary_ramp routingRandom
    (fun content => content.systemId) canaryEvaluator canaryGenome canaryGenome .defaults
    maxQualityRegressionDefault (show (1 : ℚ) / 10 ≤ 1 / 4 by norm_num)
    (show (1 : ℚ) / 4 ≤ 2 / 5 by norm_num) ok₁ ok₂
  exact ⟨result, hresult, hall⟩

theorem canary_pass_bounds_example :
    17 / 20 - 1 / 20000 ≤ armMean canaryEvaluator
      (candidateArm routingRandom (fun content => content.systemId) canaryGenome canaryTraffic
        (1 / 10)) canaryGenome.content "safety_score" := by
  obtain ⟨result, ok⟩ := exists_twoArms (show baselineArm _ _ _ _ (1 / 10) ≠ [] by
    decide +kernel) (by decide +kernel)
  have hverdict : (twoArms canaryTraffic (1 / 10)).toOption.map (·.rollbackTriggered) =
      some false := by decide +kernel
  rw [ok] at hverdict
  exact (canary_pass_bounds routingRandom (fun content => content.systemId) canaryEvaluator
    canaryGenome canaryGenome .defaults maxQualityRegressionDefault ok
    (Option.some.inj hverdict)).2.2 ⟨canaryRequest "rr", by decide +kernel, by decide +kernel⟩

end NeuroForge
