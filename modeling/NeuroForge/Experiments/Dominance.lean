/-
  Search fitness respects dominance.

  A candidate is measured against a yardstick: baseline, gates, safety constraints, penalty,
  scales and weights. Its constraint violation is the sum of four excesses over a limit, each
  cut off at 0 (`violation_eq`), and each falls as the metrics get better, the one for a free
  baseline too. Its base fitness is a rounded sum of goodnesses with non-negative weights,
  each of which rises (`goodness_mono`). Dividing something larger and not negative by
  something smaller gives something larger, and feasible before infeasible keeps the order of
  the pairs the engine compares.

  Better on every metric is what `_dominates` first requires, so its dominance implies it.
-/
import Mathlib.Data.Prod.Lex
import NeuroForge.Evaluation.Pareto
import NeuroForge.Experiments.Selection

namespace NeuroForge

open Fallible Rounding

/-- The directions of `DEFAULT_OBJECTIVES`. -/
def defaultDirections : Dict String Direction :=
  defaultObjectives.objectives.map fun e => (e.1, e.2.direction)

/-- Every metric of `metrics` is at least as good as in `metrics'`, and both report it. -/
def AtLeastAsGood (directions : Dict String Direction) (metrics metrics' : Dict String ℚ) :
    Prop :=
  ∀ e ∈ directions, ∃ x ∈ Dict.get? metrics e.1, ∃ y ∈ Dict.get? metrics' e.1,
    e.2.AtLeastAsGood x y

/-- What the candidates of a search are measured against. -/
structure Yardstick where
  baseline : AggregateMetrics
  gates : PromotionGateConfig
  constraints : SafetyConstraints
  penalty : ℚ≥0
  scales : Dict String ℚ
  scalesPositive : ∀ e ∈ scales, 0 < e.2
  objectives : ObjectiveSpec
  defaultDirection :
    ∀ e ∈ objectives.objectives, (e.1, e.2.direction) ∈ defaultDirections

namespace Yardstick

variable (y : Yardstick)

/-- `violation` of `_run`. -/
def violation (agg : AggregateMetrics) : ℚ :=
  totalMagnitude (metricGateFindings y.baseline agg y.gates y.constraints none)

def feasible (agg : AggregateMetrics) (timedOut : Bool) : Bool :=
  decide (y.violation agg = 0) && !timedOut

/-- `fitness` of `_run`. -/
def fitness (agg : AggregateMetrics) (timedOut : Bool) : ℚ :=
  if timedOut then 0
  else y.objectives.score agg.asDict y.scales / (1 + y.penalty * y.violation agg)

/-- What candidates are compared by. -/
def rank (agg : AggregateMetrics) (timedOut : Bool) : Bool ×ₗ ℚ :=
  toLex (y.feasible agg timedOut, y.fitness agg timedOut)

end Yardstick

/-! ## Metrics -/

theorem AggregateMetrics.get?_asDict (a : AggregateMetrics) {name : String}
    (hcost : name ≠ "cost_usd") (hlatency : name ≠ "latency_ms")
    (hfailure : name ≠ "failure_rate") :
    Dict.get? a.asDict name = Dict.get? a.metrics name := by
  unfold AggregateMetrics.asDict
  rw [Dict.get?_set_of_ne _ _ hfailure, Dict.get?_set_of_ne _ _ hlatency,
    Dict.get?_set_of_ne _ _ hcost]

theorem AggregateMetrics.get?_asDict_costUsd (a : AggregateMetrics) :
    Dict.get? a.asDict "cost_usd" = some a.costUsd := by
  unfold AggregateMetrics.asDict
  rw [Dict.get?_set_of_ne _ _ (by decide), Dict.get?_set_of_ne _ _ (by decide),
    Dict.get?_set_self]

theorem AggregateMetrics.get?_asDict_latencyMs (a : AggregateMetrics) :
    Dict.get? a.asDict "latency_ms" = some a.latencyMs := by
  unfold AggregateMetrics.asDict
  rw [Dict.get?_set_of_ne _ _ (by decide), Dict.get?_set_self]

section
variable {directions : Dict String Direction} {metrics metrics' : Dict String ℚ}

/-- What is read of a metric, with whatever default, is at least as good. -/
theorem AtLeastAsGood.getD (h : AtLeastAsGood directions metrics metrics') {name : String}
    {direction : Direction} (hmem : (name, direction) ∈ directions) (d d' : ℚ) :
    direction.AtLeastAsGood (Dict.getD metrics name d) (Dict.getD metrics' name d') := by
  obtain ⟨x, hx, y, hy, hgood⟩ := h (name, direction) hmem
  have hx : Dict.get? metrics name = some x := hx
  have hy : Dict.get? metrics' name = some y := hy
  unfold Dict.getD
  rw [hx, hy]
  exact hgood

/-- The loop of `_dominates` only answers `True` where it found every metric as good. -/
theorem atLeastAsGood_of_dominatesFrom {found : Bool}
    (h : dominatesFrom metrics metrics' directions found = .ok true) :
    AtLeastAsGood directions metrics metrics' := by
  induction directions generalizing found with
  | nil => exact fun e he => absurd he List.not_mem_nil
  | cons e directions ih =>
      obtain ⟨key, direction⟩ := e
      unfold dominatesFrom at h
      obtain ⟨x, hx, h⟩ := bind_eq_ok.mp h
      obtain ⟨y, hy, h⟩ := bind_eq_ok.mp h
      rw [Direction.compare_eq] at h
      by_cases hgood : direction.AtLeastAsGood x y
      · simp only [hgood, decide_true, Bool.not_true, Bool.false_eq_true, if_false] at h
        intro e he
        rcases List.mem_cons.mp he with rfl | he
        · exact ⟨x, get?_of_metricOf hx, y, get?_of_metricOf hy, hgood⟩
        · exact ih h e he
      · simp [hgood] at h

end

/-! ## The parts of a score -/

namespace Yardstick

variable (y : Yardstick) {a b : AggregateMetrics}

/-- An excess over a limit, entered only where the limit is passed. -/
theorem sum_magnitude_ite (p : Prop) [Decidable p] (f : GateFinding) :
    totalMagnitude (if p then [f] else []) = if p then f.magnitude else 0 := by
  unfold totalMagnitude
  split_ifs <;> simp

/-- The safety findings share the magnitude, so that together they make it up again. -/
theorem totalMagnitude_safety (metrics : Dict String ℚ) (c : SafetyConstraints) :
    totalMagnitude ((checkSafety metrics c).map fun v => ⟨"SAFETY VIOLATION: " ++ v,
      violationMagnitude metrics c / (checkSafety metrics c).length⟩) =
      violationMagnitude metrics c := by
  unfold totalMagnitude
  rw [List.map_map]
  by_cases hnil : checkSafety metrics c = []
  · rw [(violationMagnitude_eq_zero_iff metrics c).mpr hnil, hnil]
    rfl
  · have hlen : ((checkSafety metrics c).length : ℚ) ≠ 0 :=
      Nat.cast_ne_zero.mpr fun h => hnil (List.length_eq_zero_iff.mp h)
    show ((checkSafety metrics c).map fun _ =>
      violationMagnitude metrics c / (checkSafety metrics c).length).sum = _
    rw [List.map_const', List.sum_replicate, nsmul_eq_mul, mul_div_cancel₀ _ hlen]

theorem ite_sub_eq_max (limit x : ℚ) : (if limit < x then x - limit else 0) = max 0 (x - limit) := by
  split_ifs with h
  · exact (max_eq_right (sub_nonneg.mpr h.le)).symm
  · exact (max_eq_left (sub_nonpos.mpr (not_lt.mp h))).symm

/-- The violation of a candidate: four excesses, each cut off at 0. -/
theorem violation_eq (agg : AggregateMetrics) :
    y.violation agg = violationMagnitude agg.asDict y.constraints +
      max 0 (y.gates.minQuality - Dict.getD agg.metrics "quality" 0) +
      max 0 (fractionalIncrease y.baseline.costUsd agg.costUsd - y.gates.maxCostIncrease) +
      max 0 (fractionalIncrease y.baseline.latencyMs agg.latencyMs -
        y.gates.maxLatencyIncrease) := by
  have happend : ∀ fs gs : List GateFinding,
      totalMagnitude (fs ++ gs) = totalMagnitude fs + totalMagnitude gs := by
    intro fs gs
    unfold totalMagnitude
    rw [List.map_append, List.sum_append]
  unfold violation metricGateFindings
  simp only [happend, sum_magnitude_ite, totalMagnitude_safety, ite_sub_eq_max]

theorem violation_nonneg (agg : AggregateMetrics) : 0 ≤ y.violation agg := by
  rw [violation_eq]
  have hsafety := violationMagnitude_nonneg agg.asDict y.constraints
  positivity

/-- Better metrics are never further outside the limits. -/
theorem violation_anti (h : AtLeastAsGood defaultDirections a.asDict b.asDict) :
    y.violation a ≤ y.violation b := by
  have hsafety : Dict.getD b.asDict "safety_score" 1 ≤ Dict.getD a.asDict "safety_score" 1 :=
    h.getD (show ("safety_score", Direction.maximize) ∈ defaultDirections by decide) 1 1
  have hpolicy :
      Dict.getD b.asDict "policy_compliance" 1 ≤ Dict.getD a.asDict "policy_compliance" 1 :=
    h.getD (show ("policy_compliance", Direction.maximize) ∈ defaultDirections by decide) 1 1
  have hquality : Dict.getD b.asDict "quality" 0 ≤ Dict.getD a.asDict "quality" 0 :=
    h.getD (show ("quality", Direction.maximize) ∈ defaultDirections by decide) 0 0
  have hcost : Dict.getD a.asDict "cost_usd" 0 ≤ Dict.getD b.asDict "cost_usd" 0 :=
    h.getD (show ("cost_usd", Direction.minimize) ∈ defaultDirections by decide) 0 0
  have hlatency : Dict.getD a.asDict "latency_ms" 0 ≤ Dict.getD b.asDict "latency_ms" 0 :=
    h.getD (show ("latency_ms", Direction.minimize) ∈ defaultDirections by decide) 0 0
  unfold Dict.getD at hquality hcost hlatency
  rw [a.get?_asDict (by decide) (by decide) (by decide),
    b.get?_asDict (by decide) (by decide) (by decide)] at hquality
  rw [a.get?_asDict_costUsd, b.get?_asDict_costUsd] at hcost
  rw [a.get?_asDict_latencyMs, b.get?_asDict_latencyMs] at hlatency
  have hcost' := fractionalIncrease_mono y.baseline.costUsd hcost
  have hlatency' := fractionalIncrease_mono y.baseline.latencyMs hlatency
  simp only [Option.getD_some] at hcost' hlatency'
  rw [violation_eq, violation_eq]
  unfold violationMagnitude Dict.getD at *
  gcongr

end Yardstick

/-! ## Goodness -/

/-- Feasible before infeasible, then by fitness. -/
theorem toLex_mono {feasible feasible' : Bool} {fitness fitness' : ℚ}
    (hfeasible : feasible' = true → feasible = true) (hfitness : fitness' ≤ fitness) :
    toLex (feasible', fitness') ≤ toLex (feasible, fitness) := by
  rw [Prod.Lex.toLex_le_toLex]
  cases feasible' with
  | true => exact Or.inr ⟨(hfeasible rfl).symm, hfitness⟩
  | false =>
      cases feasible with
      | true => exact Or.inl Bool.false_lt_true
      | false => exact Or.inr ⟨rfl, hfitness⟩

/-- A larger score over a smaller violation. -/
theorem shaped_mono {score score' penalty violation violation' : ℚ} (hnonneg : 0 ≤ score')
    (hscore : score' ≤ score) (hpenalty : 0 ≤ penalty) (hpos : 0 ≤ violation)
    (hviolation : violation ≤ violation') :
    score' / (1 + penalty * violation') ≤ score / (1 + penalty * violation) := by
  have hdivisor : 0 < 1 + penalty * violation := by positivity
  calc score' / (1 + penalty * violation') ≤ score' / (1 + penalty * violation) := by gcongr
    _ ≤ score / (1 + penalty * violation) := by gcongr

/-- Metrics of the kind an evaluation reports: none negative, and what is quality-like at
    most 1. -/
def InRange (metrics : Dict String ℚ) : Prop :=
  ∀ e ∈ defaultDirections, ∀ v ∈ Dict.get? metrics e.1,
    0 ≤ v ∧ (e.1 ∈ qualityLike → v ≤ 1)

instance (metrics : Dict String ℚ) : Decidable (InRange metrics) :=
  inferInstanceAs (Decidable (∀ e ∈ defaultDirections, ∀ v ∈ Dict.get? metrics e.1, _))

theorem InRange.getD_nonneg {metrics : Dict String ℚ} (h : InRange metrics)
    {e : String × Direction} (he : e ∈ defaultDirections) : 0 ≤ Dict.getD metrics e.1 0 := by
  unfold Dict.getD
  cases hget : Dict.get? metrics e.1 with
  | none => exact le_rfl
  | some v => exact (h e he v hget).1

/-- A scale that is not given counts as 1. -/
theorem getD_scale_pos {scales : Dict String ℚ} (h : ∀ e ∈ scales, 0 < e.2) (name : String) :
    0 < Dict.getD scales name 1 := by
  unfold Dict.getD
  cases hget : Dict.get? scales name with
  | none => exact one_pos
  | some v => exact h _ (Dict.mem_of_get? hget)

section
variable {metrics metrics' scales : Dict String ℚ} {name : String} {direction : Direction}

theorem goodness_mono (hscales : ∀ e ∈ scales, 0 < e.2)
    (h : direction.AtLeastAsGood (Dict.getD metrics name 0) (Dict.getD metrics' name 0)) :
    goodness metrics' scales name direction ≤ goodness metrics scales name direction := by
  have hscale := getD_scale_pos hscales name
  unfold goodness
  dsimp only
  rw [if_neg hscale.ne']
  split_ifs with hquality
  · cases direction with
    | maximize => exact h
    | minimize => exact sub_le_sub_left h 1
  · cases direction with
    | maximize =>
        have h : Dict.getD metrics' name 0 ≤ Dict.getD metrics name 0 := h
        dsimp only
        gcongr
    | minimize =>
        have h : Dict.getD metrics name 0 ≤ Dict.getD metrics' name 0 := h
        dsimp only
        gcongr

/-- With the default direction of its metric a goodness is never negative. -/
theorem goodness_nonneg (hrange : InRange metrics) (hmem : (name, direction) ∈ defaultDirections) :
    0 ≤ goodness metrics scales name direction := by
  have hkinds : ∀ e ∈ defaultDirections, e.1 ∈ qualityLike ↔ e.2 = .maximize := by decide
  have hkind := hkinds _ hmem
  unfold goodness
  dsimp only
  cases direction with
  | maximize =>
      rw [if_pos (hkind.mpr rfl)]
      exact InRange.getD_nonneg (e := (name, .maximize)) hrange hmem
  | minimize =>
      have hnot : name ∉ qualityLike := fun h => Direction.noConfusion (hkind.mp h)
      rw [if_neg hnot]
      exact sub_nonneg.mpr (min_le_left _ _)

end

namespace Yardstick

variable (y : Yardstick) {a b : AggregateMetrics}

/-- The scales that are used where none are given are positive too. -/
theorem usedScales_pos : ∀ e ∈ (if y.scales.isEmpty then
    [("cost_usd", (1 / 20 : ℚ)), ("latency_ms", 3000), ("failure_rate", 1)] else y.scales),
    0 < e.2 := by
  split_ifs
  · intro e he
    simp only [List.mem_cons, List.not_mem_nil, or_false] at he
    rcases he with rfl | rfl | rfl <;> norm_num
  · exact y.scalesPositive

theorem score_mono (h : AtLeastAsGood defaultDirections a.asDict b.asDict) :
    y.objectives.score b.asDict y.scales ≤ y.objectives.score a.asDict y.scales := by
  unfold ObjectiveSpec.score
  refine roundTo_mono 6 (List.sum_le_sum fun e he => ?_)
  refine mul_le_mul_of_nonneg_left ?_ e.2.weight.2.1
  exact goodness_mono y.usedScales_pos (h.getD (y.defaultDirection e he) 0 0)

theorem score_nonneg (h : InRange a.asDict) : 0 ≤ y.objectives.score a.asDict y.scales := by
  unfold ObjectiveSpec.score
  refine roundTo_nonneg 6 (List.sum_nonneg fun x hx => ?_)
  obtain ⟨e, he, rfl⟩ := List.mem_map.mp hx
  exact mul_nonneg e.2.weight.2.1 (goodness_nonneg h (y.defaultDirection e he))

theorem fitness_mono (hb : InRange b.asDict)
    (h : AtLeastAsGood defaultDirections a.asDict b.asDict) (timedOut : Bool) :
    y.fitness b timedOut ≤ y.fitness a timedOut := by
  unfold fitness
  split_ifs
  · exact le_rfl
  · exact shaped_mono (y.score_nonneg hb) (y.score_mono h) (NNRat.cast_nonneg y.penalty)
      (y.violation_nonneg a) (y.violation_anti h)

theorem feasible_mono (h : AtLeastAsGood defaultDirections a.asDict b.asDict) {timedOut : Bool}
    (hb : y.feasible b timedOut = true) : y.feasible a timedOut = true := by
  unfold feasible at hb ⊢
  rw [Bool.and_eq_true, decide_eq_true_iff] at hb ⊢
  have hle := y.violation_anti h
  rw [hb.1] at hle
  exact ⟨le_antisymm hle (y.violation_nonneg a), hb.2⟩

theorem rank_mono (hb : InRange b.asDict)
    (h : AtLeastAsGood defaultDirections a.asDict b.asDict) (timedOut : Bool) :
    y.rank b timedOut ≤ y.rank a timedOut :=
  toLex_mono (y.feasible_mono h) (y.fitness_mono hb h timedOut)

/-- **Dominance.** A candidate that is at least as good on every metric, or that `_dominates`
    the other, has no larger violation, no smaller fitness and no smaller rank. -/
theorem respects_dominance (a b : AggregateMetrics) (timedOut : Bool)
    (hb : InRange b.asDict)
    (h : AtLeastAsGood defaultDirections a.asDict b.asDict ∨
      dominates a.asDict b.asDict defaultDirections = .ok true) :
    y.violation a ≤ y.violation b ∧ y.fitness b timedOut ≤ y.fitness a timedOut ∧
      y.rank b timedOut ≤ y.rank a timedOut := by
  have hgood : AtLeastAsGood defaultDirections a.asDict b.asDict :=
    h.elim id atLeastAsGood_of_dominatesFrom
  exact ⟨y.violation_anti hgood, y.fitness_mono hb hgood timedOut,
    y.rank_mono hb hgood timedOut⟩

/-- A free baseline, against which any cost counts as doubled. -/
def freeBaseline : Yardstick where
  baseline := { genomeHash := "baseline", nEvaluations := 1 }
  gates := PromotionGateConfig.defaults
  constraints := SafetyConstraints.defaults
  penalty := 5
  scales := [("cost_usd", 1 / 10), ("latency_ms", 100)]
  scalesPositive := by decide +kernel
  objectives := defaultObjectives
  defaultDirection := by decide

def cheapCandidate : AggregateMetrics where
  genomeHash := "cheap"
  nEvaluations := 1
  metrics := [("quality", 7 / 10), ("task_success", 1), ("policy_compliance", 9 / 10),
    ("safety_score", 9 / 10)]

/-- The same answers, at a cost. -/
def dearCandidate : AggregateMetrics := { cheapCandidate with costUsd := 1 / 20 }

theorem respects_dominance_free :
    freeBaseline.violation cheapCandidate ≤ freeBaseline.violation dearCandidate ∧
      freeBaseline.fitness dearCandidate false ≤ freeBaseline.fitness cheapCandidate false ∧
      freeBaseline.rank dearCandidate false ≤ freeBaseline.rank cheapCandidate false := by
  have hrange : InRange dearCandidate.asDict := by decide +kernel
  have hdominates : dominates cheapCandidate.asDict dearCandidate.asDict defaultDirections =
      .ok true := by
    decide +kernel
  exact respects_dominance freeBaseline cheapCandidate dearCandidate false hrange
    (Or.inr hdominates)

end Yardstick

/-! ## The engine -/

namespace ExperimentEngine

variable {ρ : Type} (e : ExperimentEngine ρ)

theorem objectiveScales_pos (baselineAgg : AggregateMetrics) :
    ∀ x ∈ objectiveScales baselineAgg, 0 < x.2 := by
  intro x hx
  unfold objectiveScales at hx
  simp only [List.mem_cons, List.not_mem_nil, or_false] at hx
  rcases hx with rfl | rfl | rfl
  · exact lt_max_of_lt_right (by norm_num)
  · exact lt_max_of_lt_right (by norm_num)
  · exact one_pos

/-- What `_run` measures its candidates against. -/
def yardstick (setup : SearchSetup)
    (h : ∀ x ∈ e.config.objectives.objectives, (x.1, x.2.direction) ∈ defaultDirections) :
    Yardstick where
  baseline := setup.baselineAgg
  gates := e.searchGates
  constraints := e.searchSafety
  penalty := e.config.constraintPenalty
  scales := objectiveScales setup.baselineAgg
  scalesPositive := objectiveScales_pos setup.baselineAgg
  objectives := e.config.objectives
  defaultDirection := h

/-- A score is what the yardstick says of the aggregated results. -/
theorem scoreResults_eq {setup : SearchSetup}
    (h : ∀ x ∈ e.config.objectives.objectives, (x.1, x.2.direction) ∈ defaultDirections)
    {generation : ℕ} {genome : SystemGenome} {results : List EvaluationResult}
    {timedOut : Bool} {s : Scored}
    (hs : e.scoreResults setup generation genome results timedOut = .ok s) :
    ∃ agg : AggregateMetrics, s.metrics = agg.asDict ∧
      s.violation = (e.yardstick setup h).violation agg ∧
      s.rank = (e.yardstick setup h).rank agg timedOut := by
  obtain ⟨agg, -, hret⟩ := bind_eq_ok.mp hs
  have hs := Except.ok.inj hret
  have hviolation : s.violation = (e.yardstick setup h).violation agg := by
    rw [← hs]
    simp only [Yardstick.violation, yardstick]
  have hfitness : s.fitness = (e.yardstick setup h).fitness agg timedOut := by
    rw [← hs]
    simp only [Yardstick.fitness, Yardstick.violation, yardstick]
  have htimedOut : s.timedOut = timedOut := by
    rw [← hs]
  refine ⟨agg, by rw [← hs], hviolation, ?_⟩
  unfold Scored.rank Scored.feasible Yardstick.rank Yardstick.feasible
  rw [hviolation, hfitness, htimedOut]

/-- Scores of one search rank as their metrics dominate. -/
theorem rank_le_of_atLeastAsGood {setup : SearchSetup}
    (h : ∀ x ∈ e.config.objectives.objectives, (x.1, x.2.direction) ∈ defaultDirections)
    {generation generation' : ℕ} {genome genome' : SystemGenome}
    {results results' : List EvaluationResult} {timedOut : Bool} {s s' : Scored}
    (hs : e.scoreResults setup generation genome results timedOut = .ok s)
    (hs' : e.scoreResults setup generation' genome' results' timedOut = .ok s')
    (hrange : InRange s'.metrics)
    (hgood : AtLeastAsGood defaultDirections s.metrics s'.metrics) : s'.rank ≤ s.rank := by
  obtain ⟨a, hmetrics, -, hrank⟩ := e.scoreResults_eq h hs
  obtain ⟨b, hmetrics', -, hrank'⟩ := e.scoreResults_eq h hs'
  rw [hmetrics, hmetrics'] at hgood
  rw [hmetrics'] at hrange
  rw [hrank, hrank']
  exact (e.yardstick setup h).rank_mono hrange hgood timedOut

end ExperimentEngine

end NeuroForge
