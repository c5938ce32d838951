/-
  `evaluation/aggregate.py`: per-challenge results to per-genome metrics.

  `getD_aggregate_metrics` says what an aggregated metric reads, whether or not a result
  reports it: the mean of the per-result values, absent ones counting 0, to 4 decimals.
-/
import NeuroForge.Domains.Base
import NeuroForge.Lib.Rounding
import NeuroForge.Lib.Sample

namespace NeuroForge

open Rounding Sample

structure AggregateMetrics where
  genomeHash : String
  nEvaluations : ℕ
  metrics : Dict String ℚ := []
  costUsd : ℚ := 0
  latencyMs : ℚ := 0
  failureRate : ℚ := 0
  perCategoryQuality : Dict String ℚ := []
  deriving DecidableEq

/-- The metrics with cost, latency and failure rate among them. -/
def AggregateMetrics.asDict (a : AggregateMetrics) : Dict String ℚ :=
  Dict.set (Dict.set (Dict.set a.metrics "cost_usd" a.costUsd) "latency_ms" a.latencyMs)
    "failure_rate" a.failureRate

/-- The metric names any of the results reports, sorted. -/
def metricKeys (results : List EvaluationResult) : List String :=
  ((results.flatMap fun r => Dict.keys r.metrics).dedup).insertionSort (· ≤ ·)

/-- One metric over all results; a result that lacks it counts 0. -/
def metricValues (key : String) (results : List EvaluationResult) : List ℚ :=
  results.map fun r => Dict.getD r.metrics key 0

def perCategory (results : List EvaluationResult) (categories : List String) :
    Dict String ℚ :=
  (categories.dedup.insertionSort (· ≤ ·)).map fun cat =>
    (cat, roundTo 4 (mean (metricValues "quality"
      (((results.zip categories).filter fun p => p.2 = cat).map Prod.fst))))

def aggregate (results : List EvaluationResult) (categories : List String) :
    Except String AggregateMetrics :=
  match results with
  | [] => .error "cannot aggregate zero evaluation results"
  | r :: _ => .ok {
      genomeHash := r.genomeHash
      nEvaluations := results.length
      metrics := (metricKeys results).map fun key =>
        (key, roundTo 4 (mean (metricValues key results)))
      costUsd := roundTo 6 (mean (results.map (·.costUsd)))
      latencyMs := roundTo 2 (mean (results.map (·.latencyMs)))
      failureRate := roundTo 4 (mean (results.map fun r => if r.failed then 1 else 0))
      perCategoryQuality := perCategory results categories }

/-- Cost, latency and failure rate are added to the metrics. -/
theorem get?_asDict {agg : AggregateMetrics} {key : String} (hcost : key ≠ "cost_usd")
    (hlatency : key ≠ "latency_ms") (hfailure : key ≠ "failure_rate") :
    Dict.get? agg.asDict key = Dict.get? agg.metrics key := by
  rw [AggregateMetrics.asDict, Dict.get?_set_of_ne _ _ hfailure, Dict.get?_set_of_ne _ _ hlatency,
    Dict.get?_set_of_ne _ _ hcost]

theorem mem_metricKeys {results : List EvaluationResult} {key : String} :
    key ∈ metricKeys results ↔ ∃ r ∈ results, key ∈ Dict.keys r.metrics := by
  simp [metricKeys]

/-- The fields of an aggregate, whatever the first result. -/
theorem aggregate_ok {results : List EvaluationResult} {categories : List String}
    {a : AggregateMetrics} (h : aggregate results categories = .ok a) :
    a.metrics = ((metricKeys results).map fun key =>
        (key, roundTo 4 (mean (metricValues key results)))) ∧
      a.costUsd = roundTo 6 (mean (results.map (·.costUsd))) ∧
      a.latencyMs = roundTo 2 (mean (results.map (·.latencyMs))) := by
  cases results with
  | nil => cases h
  | cons r rs =>
      cases h
      exact ⟨rfl, rfl, rfl⟩

/-- A metric nobody reports is a sample of zeros. -/
theorem mean_metricValues_of_not_mem {results : List EvaluationResult} {key : String}
    (h : key ∉ metricKeys results) : mean (metricValues key results) = 0 := by
  have hzero : metricValues key results = results.map fun _ => (0 : ℚ) := by
    refine List.map_congr_left fun r hr => ?_
    have hnone : Dict.get? r.metrics key = none :=
      Dict.get?_eq_none.mpr fun hk => h (mem_metricKeys.mpr ⟨r, hr, hk⟩)
    simp [Dict.getD, hnone]
  simp [hzero, mean]

theorem getD_aggregate_metrics {results : List EvaluationResult} {categories : List String}
    {a : AggregateMetrics} (h : aggregate results categories = .ok a) (key : String) :
    Dict.getD a.metrics key 0 = roundTo 4 (mean (metricValues key results)) := by
  rw [Dict.getD, (aggregate_ok h).1, Dict.get?_tabulate]
  split_ifs with hk
  · rfl
  · rw [mean_metricValues_of_not_mem hk]
    simp

end NeuroForge
