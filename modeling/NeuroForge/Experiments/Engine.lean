/-
  `experiments/engine.py`: one run of an experiment, as a step machine.

  A process starts (`start`: load, replay, guards), goes round the loop, stops and
  finalizes; it may die at any moment (`crash`), and a user may raise the cancel flag.
  What survives a process is the disk: the checkpoint last saved and the flag. Each step
  of the machine contains at most one save, at its end.

  Events, log output and the run lock are left out: one process runs at a time. A clock
  reading is an input of the step that takes it. Cost, quality and fitness are exact
  rationals.
-/
import NeuroForge.Datasets.Holdout
import NeuroForge.Evaluation.Objectives
import NeuroForge.Experiments.Checkpoint
import NeuroForge.Optimization.Replay
import NeuroForge.Promotion.Holdout

namespace NeuroForge

open Fallible

def defaultSearchSafetyMargin : RatIn 0 (1 / 5) := ⟨3 / 100, by norm_num⟩

def defaultSearchQualityMargin : RatIn 0 (1 / 5) := ⟨1 / 50, by norm_num⟩

def defaultConstraintPenalty : ℚ≥0 := 10

structure ExperimentConfig where
  experimentId : String
  domainName : String
  providerName : String := "mock"
  searchStrategy : String := "evolutionary"
  searchSpace : SearchSpace
  objectives : ObjectiveSpec := defaultObjectives
  budget : ExperimentBudget := .defaults
  batchSize : ℕ := 8
  maxBatches : ℕ := 15
  seed : ℤ := 42
  safetyConstraints : SafetyConstraints := .defaults
  promotionGates : PromotionGateConfig := .defaults
  mutationPolicy : MutationPolicy := {}
  minRelativeImprovement : ℚ := 1 / 50
  confidence : ℚ := 19 / 20
  evaluationTimeoutSeconds : Option ℚ := none
  datasetId : Option String := none
  firstCandidateVersion : Option ℕ := none
  baselineHash : Option String := none
  searchSafetyMargin : RatIn 0 (1 / 5) := defaultSearchSafetyMargin
  searchQualityMargin : RatIn 0 (1 / 5) := defaultSearchQualityMargin
  constraintPenalty : ℚ≥0 := defaultConstraintPenalty

/-- What an `ExperimentEngine` is built from, and the code it calls. `timesOut` says
    whether evaluating a genome on some challenges exceeds the configured timeout. -/
structure ExperimentEngine (ρ : Type) where
  config : ExperimentConfig
  baselineGenome : SystemGenome
  datasetVersion : DatasetVersion
  evaluator : Evaluator
  timesOut : GenomeContent → List Challenge → Bool
  runtime : Runtime ρ
  numpy : Numpy
  genomeDigest : GenomeDigest
  datasetDigest : DatasetDigest

structure ExperimentResult where
  experimentId : String
  status : RunStatus
  stopReason : String
  generationsCompleted : ℕ
  candidatesEvaluated : ℕ
  baselineGenome : SystemGenome
  bestGenome : SystemGenome
  baselineMetrics : Dict String ℚ
  bestMetrics : Dict String ℚ
  comparison : ComparisonResult
  budgetUtilization : Dict String ℚ
  fitnessHistory : List ℚ
  recommendation : String
  datasetId : String
  datasetVersion : ℕ
  selectedFeasible : Bool
  validationSafety : SafetyEstimate
  deriving DecidableEq

/-- What the search is scored against, computed once per process. -/
structure SearchSetup where
  challenges : List Challenge
  baselineAgg : AggregateMetrics
  deriving DecidableEq

/-- The best candidate so far, feasible ones first. -/
structure Incumbent where
  genome : SystemGenome
  fitness : WithBot ℚ
  feasible : Bool
  deriving DecidableEq

/-- `(feasible, fitness) > (best_feasible, best_fitness)`. -/
def Incumbent.consider (best : Incumbent) (genome : SystemGenome) (fitness : ℚ)
    (feasible : Bool) : Incumbent :=
  if (feasible = true ∧ best.feasible = false) ∨
      (feasible = best.feasible ∧ best.fitness < (fitness : WithBot ℚ)) then
    ⟨genome, fitness, feasible⟩
  else best

/-- `_changed`: a search point's value against the baseline's. -/
def changed (old new : Value) : Bool := !old.pyEq new

/-- A schema error as the exception the run ends with. -/
def raiseField {α : Type} : Except FieldError α → Except String α
  | .ok a => .ok a
  | .error e => .error s!"{e.loc}: {e.msg}"

variable {ρ : Type}

namespace ExperimentEngine

variable (e : ExperimentEngine ρ)

def holdoutGuard : HoldoutGuard := { allChallenges := e.datasetVersion.challenges }

def getStrategy : Except String (SearchStrategy ρ) := do
  let name ← strategyName e.config.searchStrategy
  return NeuroForge.getStrategy e.runtime name e.config.searchSpace e.config.seed
    (some e.config.batchSize)

/-! ## Candidates -/

/-- The proposed genome of one search point. -/
def deriveCandidate (point : Point) (version generationIndex : ℕ) :
    Except String SystemGenome := do
  let records ← point.filterMapM fun (field : String × Value) => do
    let old ← raiseField (getFieldByPath e.baselineGenome.config field.1)
    return if changed old field.2 then
        some ⟨e.config.searchStrategy ++ ".propose", field.1, old, field.2,
          "Proposed by " ++ e.config.searchStrategy ++ " search to optimize the configured " ++
            "multi-objective fitness function."⟩
      else none
  raiseField (e.baselineGenome.derive e.genomeDigest records point version
    (e.baselineGenome.generation + 1 + generationIndex))

/-- The fields of a point that the mutation policy does not let a search touch. -/
def disallowedFields (point : Point) : List String :=
  (Dict.keys point).filter fun f => !e.config.mutationPolicy.isAllowed f

/-- Every point of a batch keeps to the mutation policy. -/
def checkPolicy (points : List Point) : Except String Unit :=
  match (points.map e.disallowedFields).find? (!·.isEmpty) with
  | some disallowed =>
      .error ("search space touches fields outside the mutation policy allow-list: [" ++
        ", ".intercalate (disallowed.map fun f => "'" ++ f ++ "'") ++ "]")
  | none => .ok ()

/-- The genomes of a batch, numbered from `nextVersion`. -/
def deriveBatch (generationIndex : ℕ) : List Point → ℕ → Except String (List SystemGenome)
  | [], _ => .ok []
  | point :: points, nextVersion => do
      let genome ← e.deriveCandidate point nextVersion generationIndex
      let genomes ← deriveBatch generationIndex points (nextVersion + 1)
      return genome :: genomes

/-- `_evaluate_candidate`: a timeout is a hard failure on every challenge. -/
def evaluateCandidate (genome : SystemGenome) (challenges : List Challenge) :
    List EvaluationResult × Bool :=
  match e.config.evaluationTimeoutSeconds with
  | none => (challenges.map (e.evaluator genome.content), false)
  | some timeout =>
      if e.timesOut genome.content challenges then
        (challenges.map fun c =>
          { challengeId := c.challengeId, genomeHash := genome.hash e.genomeDigest
            metrics := [("quality", 0)], costUsd := 0, latencyMs := timeout * 1000
            failed := true, notes := "evaluator timeout" }, true)
      else (challenges.map (e.evaluator genome.content), false)

def objectiveScales (baselineAgg : AggregateMetrics) : Dict String ℚ :=
  [("cost_usd", max (2 * baselineAgg.costUsd) (1 / 10 ^ 9)),
    ("latency_ms", max (2 * baselineAgg.latencyMs) (1 / 10 ^ 6)), ("failure_rate", 1)]

/-- The promotion gates with the quality floor raised by the search margin. -/
def searchGates : PromotionGateConfig :=
  { e.config.promotionGates with
    minQuality := ⟨min 1 (e.config.promotionGates.minQuality + e.config.searchQualityMargin),
      le_min zero_le_one
        (add_nonneg e.config.promotionGates.minQuality.2.1 e.config.searchQualityMargin.2.1),
      min_le_left _ _⟩ }

def searchSafety : SafetyConstraints :=
  e.config.safetyConstraints.tightened e.config.searchSafetyMargin

/-- The fitness of a candidate, whether it is feasible, and what its evaluation cost. -/
def scoreCandidate (setup : SearchSetup) (genome : SystemGenome) :
    Except String (ℚ × Bool × ℚ) := do
  let (results, timedOut) := e.evaluateCandidate genome setup.challenges
  let agg ← aggregate results (setup.challenges.map (·.category))
  let violation := ((metricGateFindings setup.baselineAgg agg e.searchGates e.searchSafety
    none).map (·.magnitude)).sum
  let feasible := decide (violation = 0) && !timedOut
  let baseFitness := e.config.objectives.score agg.asDict (objectiveScales setup.baselineAgg)
  let fitness := if timedOut then 0
    else baseFitness / (1 + e.config.constraintPenalty * violation)
  return (fitness, feasible, (results.map (·.costUsd)).sum)

/-- The evaluation loop of one generation. -/
def evaluateBatch (setup : SearchSetup) : List SystemGenome → Incumbent → BudgetUse →
    Except String (List ℚ × Incumbent × BudgetUse)
  | [], best, use => .ok ([], best, use)
  | genome :: genomes, best, use => do
      let (fitness, feasible, cost) ← e.scoreCandidate setup genome
      let (rest, best, use) ← evaluateBatch setup genomes
        (best.consider genome fitness feasible)
        (use.record 1 setup.challenges.length cost)
      return (fitness :: rest, best, use)

/-- One generation: what is asked, derived, evaluated and told. `none` where the strategy
    has no more points. -/
def generation (setup : SearchSetup) (strategy : SearchStrategy ρ) (best : Incumbent)
    (use : BudgetUse) (nextVersion generationIndex : ℕ) :
    Except String (Option (TellBatch × SearchStrategy ρ × Incumbent × BudgetUse)) := do
  let remaining := e.config.budget.maxCandidates - use.candidatesUsed
  let (points, strategy) ← strategy.ask e.runtime (min e.config.batchSize remaining)
  if points.isEmpty then return none
  e.checkPolicy points
  let genomes ← e.deriveBatch generationIndex points nextVersion
  let (fitness, best, use) ← e.evaluateBatch setup genomes best use
  let observations := (points.zip fitness).map fun p => (⟨p.1, p.2⟩ : Observation)
  let strategy ← strategy.tell e.runtime observations
  return some (⟨points, fitness⟩, strategy, best, use)

/-! ## One process -/

/-- The local variables of `_run` inside its loop. -/
structure Progress (ρ : Type) where
  setup : SearchSetup
  ckpt : ExperimentCheckpoint
  strategy : SearchStrategy ρ
  tracker : BudgetTracker
  best : Incumbent
  nextVersion : ℕ
  generationIndex : ℕ

/-- Search challenges and the baseline's metrics on them. -/
def searchSetup : Except String SearchSetup := do
  let searchChallenges := e.holdoutGuard.searchSet
  let nValidation := e.holdoutGuard.validationSet.length
  if searchChallenges.isEmpty || nValidation < 2 then
    .error (s!"dataset '{e.datasetVersion.datasetId}' v{e.datasetVersion.version} has " ++
      s!"{searchChallenges.length} train and {nValidation} validation challenges; " ++
      "need >= 1 train and >= 2 validation — seed a larger dataset")
  let agg ← aggregate (searchChallenges.map (e.evaluator e.baselineGenome.content))
    (searchChallenges.map (·.category))
  return ⟨searchChallenges, agg⟩

def freshCheckpoint : ExperimentCheckpoint where
  experimentId := e.config.experimentId
  strategyName := e.config.searchStrategy
  seed := e.config.seed
  datasetVersionHash := e.datasetVersion.hash e.datasetDigest
  datasetVersion := e.datasetVersion.version
  bestGenome := some e.baselineGenome

/-- A loaded checkpoint is that of a running experiment again. -/
def asRunning (c : ExperimentCheckpoint) : ExperimentCheckpoint :=
  if c.status = .running then c else { c with status := .running, stopReason := "" }

/-- The checkpoint a process works on. -/
def loadCheckpoint (disk : Option ExperimentCheckpoint) : ExperimentCheckpoint :=
  match disk with
  | none => e.freshCheckpoint
  | some c => asRunning c

def firstVersion : ℕ := e.config.firstCandidateVersion.getD (e.baselineGenome.version + 1)

/-- A resumed search must keep the dataset version it started on. -/
def checkDataset (resuming : Bool) (ckpt : ExperimentCheckpoint) : Except String Unit :=
  if resuming ∧ ckpt.datasetVersion ≠ 0 ∧ ckpt.datasetVersion ≠ e.datasetVersion.version then
    .error (s!"experiment '{e.config.experimentId}' was started on dataset " ++
      s!"'{e.datasetVersion.datasetId}' v{ckpt.datasetVersion} but is being resumed on " ++
      s!"v{e.datasetVersion.version}; resume against v{ckpt.datasetVersion}")
  else .ok ()

/-- The strategy a checkpoint's rounds lead to. -/
def replayStrategy (tellBatches : List TellBatch) : Except String (SearchStrategy ρ) := do
  let fresh ← e.getStrategy
  let batches ← tellBatches.mapM TellBatch.observations
  replay e.runtime fresh batches

/-- `_run` up to its loop. -/
def load (disk : Option ExperimentCheckpoint) : Except String (Progress ρ) := do
  let ckpt := e.loadCheckpoint disk
  e.checkDataset disk.isSome ckpt
  let strategy ← e.replayStrategy ckpt.tellBatches
  let setup ← e.searchSetup
  return {
    setup := setup
    ckpt := ckpt
    strategy := strategy
    tracker := .fromState ckpt.budgetState
    best := ⟨ckpt.bestGenome.getD e.baselineGenome, ckpt.bestFitness, ckpt.bestFeasible⟩
    nextVersion := e.firstVersion + ckpt.candidatesCompleted
    generationIndex := ckpt.generationsCompleted }

/-- How one turn of the loop ends. -/
inductive Turn (ρ : Type) where
  | stop (reason : String)
  | saved (p : Progress ρ)
  | raised (message : String)

/-- One turn of the loop, up to and with the save of its checkpoint. `checked` and
    `recorded` are the clock at the budget check and at the save. -/
def turn (cancelFlag : Bool) (checked recorded : ℚ≥0) (p : Progress ρ) : Turn ρ :=
  if cancelFlag then .stop "cancelled by user"
  else
    match p.tracker.exhausted e.config.budget checked with
    | some reason => .stop reason
    | none =>
        if e.config.maxBatches ≤ p.generationIndex then .stop "max_batches reached"
        else
          match e.generation p.setup p.strategy p.best p.tracker.use p.nextVersion
              p.generationIndex with
          | .error message => .raised message
          | .ok none => .stop "search space exhausted"
          | .ok (some (batch, strategy, best, use)) =>
              let tracker := { p.tracker with use := use }
              .saved { p with
                strategy := strategy
                tracker := tracker
                best := best
                nextVersion := p.nextVersion + batch.points.length
                generationIndex := p.generationIndex + 1
                ckpt := { p.ckpt with
                  tellBatches := p.ckpt.tellBatches ++ [batch]
                  budgetState := tracker.toState recorded
                  bestGenome := some best.genome
                  bestFitness := best.fitness
                  bestFeasible := best.feasible } }

/-- The reason to stop after a generation: a plateau with a feasible incumbent. -/
def converged (strategy : SearchStrategy ρ) (best : Incumbent) :
    Except String (Option String) := do
  let convergence ← strategy.convergence
  return if convergence.converged && best.feasible then some convergence.reason else none

/-- The checkpoint of a run that stopped. -/
def closeCheckpoint (ckpt : ExperimentCheckpoint) (reason : String) : ExperimentCheckpoint :=
  { ckpt with
    status := if reason = "cancelled by user" then .cancelled else .completed
    stopReason := reason }

def recommend (comparison : ComparisonResult) (baselineAgg bestAgg : AggregateMetrics)
    (safety : SafetyEstimate) : String :=
  let violations := safety.check e.config.safetyConstraints
  if violations ≠ [] then
    "DO NOT PROMOTE — safety constraint violated: " ++ String.intercalate "; " violations
  else
    match comparison.conclusion with
    | .likelyImprovement =>
        let findings := metricGateFindings baselineAgg bestAgg e.config.promotionGates
          e.config.safetyConstraints (some safety)
        if findings ≠ [] then
          "DO NOT PROMOTE — promotion gate not met: " ++
            String.intercalate "; " (findings.map (·.reason))
        else "PROMOTE TO CANARY — statistically significant improvement on validation set"
    | .likelyRegression => "REJECT — candidate regressed relative to baseline"
    | .inconclusive =>
        "INCONCLUSIVE — insufficient evidence of improvement, keep searching or gather " ++
          "more data"

/-- `_finalize`: the comparison on the validation split. -/
def finalize (p : Progress ρ) (clock : ℚ≥0) : Except String ExperimentResult := do
  let valChallenges := e.holdoutGuard.validationSet
  let baselineResults := valChallenges.map (e.evaluator e.baselineGenome.content)
  let bestResults := valChallenges.map (e.evaluator p.best.genome.content)
  let categories := valChallenges.map (·.category)
  let baselineAgg ← aggregate baselineResults categories
  let bestAgg ← aggregate bestResults categories
  let comparison ← compare e.numpy (metricValues "quality" baselineResults)
    (metricValues "quality" bestResults) e.config.minRelativeImprovement e.config.confidence
    e.config.seed
  let safety := estimateSafety e.numpy (perChallengeMetrics bestResults) e.config.confidence
    e.config.seed
  return {
    experimentId := e.config.experimentId
    status := p.ckpt.status
    stopReason := p.ckpt.stopReason
    generationsCompleted := p.ckpt.generationsCompleted
    candidatesEvaluated := p.ckpt.candidatesCompleted
    baselineGenome := e.baselineGenome
    bestGenome := p.best.genome
    baselineMetrics := baselineAgg.asDict
    bestMetrics := bestAgg.asDict
    comparison := comparison
    budgetUtilization := p.tracker.utilization e.config.budget clock
    fitnessHistory := p.ckpt.tellBatches.flatMap (·.fitness)
    recommendation := e.recommend comparison baselineAgg bestAgg safety
    datasetId := e.datasetVersion.datasetId
    datasetVersion := e.datasetVersion.version
    selectedFeasible := p.best.feasible
    validationSafety := safety }

/-! ## The machine -/

/-- Where the process is. `saved` is between the save of a generation and the convergence
    check, `stopped` between the last save and the result. -/
inductive Phase (ρ : Type) where
  | idle
  | looping (p : Progress ρ)
  | saved (p : Progress ρ)
  | stopping (p : Progress ρ) (reason : String)
  | stopped (p : Progress ρ)
  | returned (result : ExperimentResult)
  | raised (message : String)

/-- The disk and the process. -/
structure State (ρ : Type) where
  disk : Option ExperimentCheckpoint := none
  cancelFlag : Bool := false
  phase : Phase ρ := .idle

inductive Action where
  /-- A process starts and enters the loop. -/
  | start
  /-- One turn of the loop. -/
  | turn (checked recorded : ℚ≥0)
  | checkConvergence
  /-- The checkpoint of the finished search is saved. -/
  | stop
  | finalize (clock : ℚ≥0)
  /-- The process is gone. -/
  | crash
  /-- The user asks for the run to be cancelled. -/
  | cancel
  deriving DecidableEq

/-- An action of the process itself. -/
abbrev Action.isOwn (a : Action) : Prop := a ≠ .crash ∧ a ≠ .cancel

/-- One step of the machine; `none` where the action is not the process's next one. -/
def step (s : State ρ) : Action → Option (State ρ)
  | .start =>
      match s.phase with
      | .idle =>
          -- a loaded checkpoint is saved as running again before anything can fail
          some { s with
            disk := s.disk.map fun _ => e.loadCheckpoint s.disk
            phase := match e.load s.disk with
              | .ok p => .looping p
              | .error message => .raised message }
      | _ => none
  | .turn checked recorded =>
      match s.phase with
      | .looping p =>
          match e.turn s.cancelFlag checked recorded p with
          | .stop reason => some { s with cancelFlag := false, phase := .stopping p reason }
          | .saved p' => some { s with disk := some p'.ckpt, phase := .saved p' }
          | .raised message => some { s with phase := .raised message }
      | _ => none
  | .checkConvergence =>
      match s.phase with
      | .saved p =>
          match converged p.strategy p.best with
          | .ok (some reason) => some { s with phase := .stopping p reason }
          | .ok none => some { s with phase := .looping p }
          | .error message => some { s with phase := .raised message }
      | _ => none
  | .stop =>
      match s.phase with
      | .stopping p reason =>
          let ckpt := closeCheckpoint p.ckpt reason
          -- a cancel that came too late would cancel the next run
          some { disk := some ckpt
                 cancelFlag := if reason = "cancelled by user" then s.cancelFlag else false
                 phase := .stopped { p with ckpt := ckpt } }
      | _ => none
  | .finalize clock =>
      match s.phase with
      | .stopped p =>
          some { s with phase := match e.finalize p clock with
            | .ok result => .returned result
            | .error message => .raised message }
      | _ => none
  | .crash => some { s with phase := .idle }
  | .cancel => some { s with cancelFlag := true }

/-! ## What a step does -/

theorem length_deriveBatch {e : ExperimentEngine ρ} {g : ℕ} {points : List Point}
    {version : ℕ} {genomes : List SystemGenome}
    (h : e.deriveBatch g points version = .ok genomes) : genomes.length = points.length := by
  induction points generalizing version genomes with
  | nil =>
      cases h
      rfl
  | cons point points ih =>
      obtain ⟨genome, -, h⟩ := bind_eq_ok.mp h
      obtain ⟨rest, hrest, h⟩ := bind_eq_ok.mp h
      cases h
      rw [List.length_cons, List.length_cons, ih hrest]

theorem length_evaluateBatch {e : ExperimentEngine ρ} {setup : SearchSetup}
    {genomes : List SystemGenome} {best best' : Incumbent} {use use' : BudgetUse}
    {fitness : List ℚ}
    (h : e.evaluateBatch setup genomes best use = .ok (fitness, best', use')) :
    fitness.length = genomes.length := by
  induction genomes generalizing best use fitness with
  | nil =>
      cases h
      rfl
  | cons genome genomes ih =>
      obtain ⟨⟨f, feasible, cost⟩, -, h⟩ := bind_eq_ok.mp h
      obtain ⟨⟨rest, b, u⟩, hrest, h⟩ := bind_eq_ok.mp h
      cases h
      rw [List.length_cons, List.length_cons, ih hrest]

/-- Every candidate is recorded, one at a time. -/
theorem evaluateBatch_use {e : ExperimentEngine ρ} {setup : SearchSetup}
    {genomes : List SystemGenome} {best best' : Incumbent} {use use' : BudgetUse}
    {fitness : List ℚ}
    (h : e.evaluateBatch setup genomes best use = .ok (fitness, best', use')) :
    use'.candidatesUsed = use.candidatesUsed + genomes.length := by
  induction genomes generalizing best use fitness with
  | nil =>
      cases h
      rfl
  | cons genome genomes ih =>
      obtain ⟨⟨f, feasible, cost⟩, -, h⟩ := bind_eq_ok.mp h
      obtain ⟨⟨rest, b, u⟩, hrest, h⟩ := bind_eq_ok.mp h
      cases h
      have hih := ih hrest
      simp only [BudgetUse.record] at hih
      rw [hih, List.length_cons]
      omega

/-- The incumbent after a batch is the one before it or a genome of the batch. -/
theorem evaluateBatch_best {e : ExperimentEngine ρ} {setup : SearchSetup}
    {genomes : List SystemGenome} {best best' : Incumbent} {use use' : BudgetUse}
    {fitness : List ℚ}
    (h : e.evaluateBatch setup genomes best use = .ok (fitness, best', use')) :
    best'.genome = best.genome ∨ best'.genome ∈ genomes := by
  induction genomes generalizing best use fitness with
  | nil =>
      cases h
      exact .inl rfl
  | cons genome genomes ih =>
      obtain ⟨⟨f, feasible, cost⟩, -, h⟩ := bind_eq_ok.mp h
      obtain ⟨⟨rest, b, u⟩, hrest, h⟩ := bind_eq_ok.mp h
      cases h
      rcases ih hrest with hsame | hmem
      · rw [hsame]
        unfold Incumbent.consider
        split_ifs
        · exact .inr List.mem_cons_self
        · exact .inl rfl
      · exact .inr (List.mem_cons_of_mem genome hmem)

/-- A candidate is one of the baseline's application, with the number it was derived with. -/
theorem deriveCandidate_ok {e : ExperimentEngine ρ} {point : Point} {version index : ℕ}
    {g : SystemGenome} (h : e.deriveCandidate point version index = .ok g) :
    g.systemId = e.baselineGenome.systemId ∧ g.version = version ∧ g.status = .generated := by
  obtain ⟨records, -, h⟩ := bind_eq_ok.mp h
  unfold raiseField at h
  split at h
  · rename_i child hchild
    rw [← Except.ok.inj h]
    obtain ⟨hsystem, hversion, -, -, hstatus⟩ := SystemGenome.derive_ok hchild
    exact ⟨hsystem, hversion, hstatus⟩
  · cases h

/-- The candidates of a batch are numbered one after the other. -/
theorem deriveBatch_versions {e : ExperimentEngine ρ} {index : ℕ} {points : List Point}
    {version : ℕ} {genomes : List SystemGenome}
    (h : e.deriveBatch index points version = .ok genomes) :
    genomes.map (·.version) = List.range' version points.length := by
  induction points generalizing version genomes with
  | nil =>
      cases h
      rfl
  | cons point points ih =>
      obtain ⟨genome, hgenome, h⟩ := bind_eq_ok.mp h
      obtain ⟨rest, hrest, h⟩ := bind_eq_ok.mp h
      cases h
      rw [List.map_cons, (deriveCandidate_ok hgenome).2.1, ih hrest, List.length_cons,
        List.range'_succ]

theorem deriveBatch_new {e : ExperimentEngine ρ} {index : ℕ} {points : List Point}
    {version : ℕ} {genomes : List SystemGenome}
    (h : e.deriveBatch index points version = .ok genomes) :
    ∀ g ∈ genomes, g.systemId = e.baselineGenome.systemId ∧ g.status = .generated := by
  induction points generalizing version genomes with
  | nil =>
      cases h
      simp
  | cons point points ih =>
      obtain ⟨genome, hgenome, h⟩ := bind_eq_ok.mp h
      obtain ⟨rest, hrest, h⟩ := bind_eq_ok.mp h
      cases h
      intro g hg
      rcases List.mem_cons.mp hg with rfl | hg
      · obtain ⟨hsystem, -, hstatus⟩ := deriveCandidate_ok hgenome
        exact ⟨hsystem, hstatus⟩
      · exact ih hrest g hg

/-- The parts of a generation that is told. -/
theorem generation_steps {e : ExperimentEngine ρ} {setup : SearchSetup}
    {strategy strategy' : SearchStrategy ρ} {best best' : Incumbent} {use use' : BudgetUse}
    {version index : ℕ} {batch : TellBatch}
    (h : e.generation setup strategy best use version index =
      .ok (some (batch, strategy', best', use'))) :
    ∃ asked genomes,
      strategy.ask e.runtime (min e.config.batchSize
        (e.config.budget.maxCandidates - use.candidatesUsed)) = .ok (batch.points, asked) ∧
      batch.points ≠ [] ∧
      e.deriveBatch index batch.points version = .ok genomes ∧
      e.evaluateBatch setup genomes best use = .ok (batch.fitness, best', use') ∧
      asked.tell e.runtime ((batch.points.zip batch.fitness).map fun p => ⟨p.1, p.2⟩) =
        .ok strategy' := by
  obtain ⟨⟨points, asked⟩, hask, h⟩ := bind_eq_ok.mp h
  by_cases hempty : points.isEmpty = true
  · simp only [hempty, if_true] at h
    cases h
  · simp only [hempty, Bool.false_eq_true, if_false] at h
    obtain ⟨-, -, h⟩ := bind_eq_ok.mp h
    obtain ⟨genomes, hgenomes, h⟩ := bind_eq_ok.mp h
    obtain ⟨⟨fitness, b, u⟩, heval, h⟩ := bind_eq_ok.mp h
    obtain ⟨told, htell, h⟩ := bind_eq_ok.mp h
    cases h
    exact ⟨asked, genomes, hask, by simpa using hempty, hgenomes, heval, htell⟩

/-- A process that comes into its loop has its variables from the checkpoint. -/
theorem load_ok {e : ExperimentEngine ρ} {disk : Option ExperimentCheckpoint} {p : Progress ρ}
    (h : e.load disk = .ok p) :
    p.ckpt = e.loadCheckpoint disk ∧
      p.tracker = .fromState (e.loadCheckpoint disk).budgetState ∧
      p.best.genome = (e.loadCheckpoint disk).bestGenome.getD e.baselineGenome ∧
      p.nextVersion = e.firstVersion + (e.loadCheckpoint disk).candidatesCompleted ∧
      p.generationIndex = (e.loadCheckpoint disk).generationsCompleted := by
  obtain ⟨-, -, h⟩ := bind_eq_ok.mp h
  obtain ⟨strategy, -, h⟩ := bind_eq_ok.mp h
  obtain ⟨setup, -, h⟩ := bind_eq_ok.mp h
  rw [pure_eq_ok] at h
  subst h
  exact ⟨rfl, rfl, rfl, rfl, rfl⟩

/-- A turn that saves has found no limit reached and told a generation. -/
theorem turn_saved {e : ExperimentEngine ρ} {flag : Bool} {checked recorded : ℚ≥0}
    {p p' : Progress ρ} (h : e.turn flag checked recorded p = .saved p') :
    p.tracker.exhausted e.config.budget checked = none ∧
      p.generationIndex < e.config.maxBatches ∧
      ∃ batch, e.generation p.setup p.strategy p.best p.tracker.use p.nextVersion
          p.generationIndex = .ok (some (batch, p'.strategy, p'.best, p'.tracker.use)) ∧
        p'.nextVersion = p.nextVersion + batch.points.length ∧
        p'.generationIndex = p.generationIndex + 1 ∧
        p'.ckpt = { p.ckpt with
          tellBatches := p.ckpt.tellBatches ++ [batch]
          budgetState := p'.tracker.toState recorded
          bestGenome := some p'.best.genome
          bestFitness := p'.best.fitness
          bestFeasible := p'.best.feasible } := by
  unfold turn at h
  split at h
  · cases h
  · split at h
    · cases h
    · rename_i hexhausted
      split at h
      · cases h
      · rename_i hbatches
        split at h
        · cases h
        · cases h
        · rename_i batch strategy best use hgen
          cases h
          exact ⟨hexhausted, not_le.mp hbatches, batch, hgen, rfl, rfl, rfl⟩

/-- Everything a step can do. -/
inductive Did (e : ExperimentEngine ρ) : State ρ → Action → State ρ → Prop where
  | started {disk flag p} (hload : e.load disk = .ok p) :
      Did e ⟨disk, flag, .idle⟩ .start
        ⟨disk.map fun _ => e.loadCheckpoint disk, flag, .looping p⟩
  | notStarted {disk flag message} (hload : e.load disk = .error message) :
      Did e ⟨disk, flag, .idle⟩ .start
        ⟨disk.map fun _ => e.loadCheckpoint disk, flag, .raised message⟩
  | leftLoop {disk flag p checked recorded reason}
      (hturn : e.turn flag checked recorded p = .stop reason) :
      Did e ⟨disk, flag, .looping p⟩ (.turn checked recorded) ⟨disk, false, .stopping p reason⟩
  | saved {disk flag p checked recorded p'}
      (hturn : e.turn flag checked recorded p = .saved p') :
      Did e ⟨disk, flag, .looping p⟩ (.turn checked recorded) ⟨some p'.ckpt, flag, .saved p'⟩
  | turnRaised {disk flag p checked recorded message}
      (hturn : e.turn flag checked recorded p = .raised message) :
      Did e ⟨disk, flag, .looping p⟩ (.turn checked recorded) ⟨disk, flag, .raised message⟩
  | wentOn {disk flag p} (hconverged : converged p.strategy p.best = .ok none) :
      Did e ⟨disk, flag, .saved p⟩ .checkConvergence ⟨disk, flag, .looping p⟩
  | hasConverged {disk flag p reason}
      (hconverged : converged p.strategy p.best = .ok (some reason)) :
      Did e ⟨disk, flag, .saved p⟩ .checkConvergence ⟨disk, flag, .stopping p reason⟩
  | checkRaised {disk flag p message}
      (hconverged : converged p.strategy p.best = .error message) :
      Did e ⟨disk, flag, .saved p⟩ .checkConvergence ⟨disk, flag, .raised message⟩
  | closed {disk flag p reason} :
      Did e ⟨disk, flag, .stopping p reason⟩ .stop
        ⟨some (closeCheckpoint p.ckpt reason),
          if reason = "cancelled by user" then flag else false,
          .stopped { p with ckpt := closeCheckpoint p.ckpt reason }⟩
  | finalized {disk flag p clock result} (hfinal : e.finalize p clock = .ok result) :
      Did e ⟨disk, flag, .stopped p⟩ (.finalize clock) ⟨disk, flag, .returned result⟩
  | finalizeRaised {disk flag p clock message} (hfinal : e.finalize p clock = .error message) :
      Did e ⟨disk, flag, .stopped p⟩ (.finalize clock) ⟨disk, flag, .raised message⟩
  | crashed {s : State ρ} : Did e s .crash { s with phase := .idle }
  | cancelled {s : State ρ} : Did e s .cancel { s with cancelFlag := true }

theorem step_did {e : ExperimentEngine ρ} {s s' : State ρ} {a : Action}
    (h : e.step s a = some s') : Did e s a s' := by
  obtain ⟨disk, flag, phase⟩ := s
  unfold step at h
  split at h
  · dsimp only at h
    split at h
    · rw [← Option.some.inj h]
      cases hload : e.load disk with
      | ok p => exact .started hload
      | error message => exact .notStarted hload
    · cases h
  · dsimp only at h
    split at h
    · split at h
      · rename_i hturn
        rw [← Option.some.inj h]
        exact .leftLoop hturn
      · rename_i hturn
        rw [← Option.some.inj h]
        exact .saved hturn
      · rename_i hturn
        rw [← Option.some.inj h]
        exact .turnRaised hturn
    · cases h
  · dsimp only at h
    split at h
    · split at h
      · rename_i hconverged
        rw [← Option.some.inj h]
        exact .hasConverged hconverged
      · rename_i hconverged
        rw [← Option.some.inj h]
        exact .wentOn hconverged
      · rename_i hconverged
        rw [← Option.some.inj h]
        exact .checkRaised hconverged
    · cases h
  · dsimp only at h
    split at h
    · rw [← Option.some.inj h]
      exact .closed
    · cases h
  · dsimp only at h
    split at h
    · rename_i p
      rw [← Option.some.inj h]
      cases hfinal : e.finalize p _ with
      | ok result => exact .finalized hfinal
      | error message => exact .finalizeRaised hfinal
    · cases h
  · rw [← Option.some.inj h]
    exact .crashed
  · rw [← Option.some.inj h]
    exact .cancelled

/-- With two validation challenges the final comparison always comes about. -/
theorem finalize_ok {e : ExperimentEngine ρ} (h : 2 ≤ e.holdoutGuard.validationSet.length)
    (p : Progress ρ) (clock : ℚ≥0) : ∃ r, e.finalize p clock = .ok r := by
  have hagg : ∀ content : GenomeContent, ∃ a, aggregate
      (e.holdoutGuard.validationSet.map (e.evaluator content))
      (e.holdoutGuard.validationSet.map (·.category)) = .ok a := by
    intro content
    cases hv : e.holdoutGuard.validationSet with
    | nil => rw [hv] at h; simp at h
    | cons c cs => exact ⟨_, rfl⟩
  obtain ⟨a, ha⟩ := hagg e.baselineGenome.content
  obtain ⟨b, hb⟩ := hagg p.best.genome.content
  have hcmp : ∃ c, compare e.numpy
      (metricValues "quality" (e.holdoutGuard.validationSet.map
        (e.evaluator e.baselineGenome.content)))
      (metricValues "quality" (e.holdoutGuard.validationSet.map
        (e.evaluator p.best.genome.content))) e.config.minRelativeImprovement
      e.config.confidence e.config.seed = .ok c := by
    unfold compare
    have hpairs : ¬ (metricValues "quality" (e.holdoutGuard.validationSet.map
        (e.evaluator e.baselineGenome.content))).length < 2 := by
      simp only [metricValues, List.length_map]
      omega
    rw [if_neg (by simp [metricValues]), if_neg hpairs]
    exact ⟨_, rfl⟩
  obtain ⟨c, hc⟩ := hcmp
  unfold finalize
  simp only [ha, hb, hc, ok_bind]
  exact ⟨_, rfl⟩

/-- What a result reports of the search. -/
theorem finalize_result {e : ExperimentEngine ρ} {p : Progress ρ} {clock : ℚ≥0}
    {r : ExperimentResult} (h : e.finalize p clock = .ok r) :
    r.baselineGenome = e.baselineGenome ∧
      r.status = p.ckpt.status ∧ r.stopReason = p.ckpt.stopReason ∧
      r.generationsCompleted = p.ckpt.generationsCompleted ∧
      r.candidatesEvaluated = p.ckpt.candidatesCompleted ∧
      r.bestGenome = p.best.genome ∧
      r.budgetUtilization = p.tracker.utilization e.config.budget clock ∧
      r.fitnessHistory = p.ckpt.tellBatches.flatMap (·.fitness) ∧
      r.selectedFeasible = p.best.feasible := by
  unfold finalize at h
  obtain ⟨a, -, h⟩ := bind_eq_ok.mp h
  obtain ⟨b, -, h⟩ := bind_eq_ok.mp h
  obtain ⟨c, -, h⟩ := bind_eq_ok.mp h
  cases h
  exact ⟨rfl, rfl, rfl, rfl, rfl, rfl, rfl, rfl, rfl⟩

section Example

def exampleConfig : ExperimentConfig where
  experimentId := "exp-1"
  domainName := "forgesupport"
  searchStrategy := "random"
  searchSpace := exampleSpace
  batchSize := 1

/-- Every genome answers every challenge equally well, at the same cost and latency. -/
def exampleEvaluator : Evaluator := fun _ c =>
  { challengeId := c.challengeId, genomeHash := "", metrics := [("quality", 7 / 10)]
    costUsd := 1 / 100, latencyMs := 500, failed := false }

def exampleSplits (splits : List Split) : DatasetVersion where
  datasetId := "app-dataset"
  version := 1
  source := "seed"
  challenges := splits.map fun split => { exampleChallenge 0 with split := split }
  difficultyScore := 1 / 4

def exampleEngine : ExperimentEngine ℕ where
  config := exampleConfig
  baselineGenome := { systemId := "app", version := 1 }
  datasetVersion := exampleSplits [.train, .validation, .validation]
  evaluator := exampleEvaluator
  timesOut _ _ := false
  runtime := countingRuntime
  numpy := exampleNumpy
  genomeDigest _ := "app@v1"
  datasetDigest id _ challenges := s!"{id}-{challenges.length}"

end Example

end ExperimentEngine

end NeuroForge
