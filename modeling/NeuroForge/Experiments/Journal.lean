/-
  The engine at the grain of its event log.

  `Engine` takes a generation as one step. Here each candidate is derived, evaluated and
  logged in a step of its own, the generation is told and then saved, and the process may
  die between any two of these; what stays is the disk and the log. What an evaluation
  gives is an input of its step (`EvaluationOutcome`): the results, a timeout or an
  exception, so that the same candidate may fare differently when a lost generation is
  evaluated again.

  The log is the list of events a reader gets back; how it survives a process killed in the
  middle of a line is the matter of `Events`. An event's experiment id and its timestamp are
  left out.
-/
import NeuroForge.Experiments.Life

namespace NeuroForge

open Fallible Transition

variable {ρ : Type}

/-! ## Events -/

/-- The payload of a `CandidateEvaluated` event. -/
structure CandidateEvaluated where
  genomeHash : String
  version : ℕ
  generation : ℕ
  fitness : ℚ
  metrics : Dict String ℚ
  timedOut : Bool
  feasible : Bool
  constraintViolation : ℚ
  deriving DecidableEq

/-- The events of an engine, with their payloads. -/
inductive EngineEvent where
  | experimentCreated (baselineGenome strategy datasetVersionHash : String) (seed : ℤ)
  | candidateGenerated (genomeHash : String) (version : ℕ) (point : Point)
  | candidateEvaluated (payload : CandidateEvaluated)
  | generationCompleted (generation : ℕ) (meanFitness : ℚ) (bestFitness : WithBot ℚ)
  | experimentStopped (reason : String)
  deriving DecidableEq

def EngineEvent.evaluated? : EngineEvent → Option CandidateEvaluated
  | .candidateEvaluated payload => some payload
  | _ => none

/-- `EventLog.of_type("CandidateEvaluated")`. -/
def evaluations (log : List EngineEvent) : List CandidateEvaluated :=
  log.filterMap (·.evaluated?)

/-- The candidates endpoint's view of the log: the last evaluation of each version. -/
def latestByVersion (log : List EngineEvent) : Dict ℕ CandidateEvaluated :=
  Dict.ofEntries ((evaluations log).map fun payload => (payload.version, payload))

theorem latestByVersion_quiet (log : List EngineEvent) {events : List EngineEvent}
    (h : evaluations events = []) : latestByVersion (log ++ events) = latestByVersion log := by
  unfold latestByVersion
  rw [evaluations, List.filterMap_append, ← evaluations, ← evaluations, h, List.append_nil]

theorem latestByVersion_evaluated (log : List EngineEvent) (payload : CandidateEvaluated)
    (version : ℕ) :
    Dict.get? (latestByVersion (log ++ [.candidateEvaluated payload])) version =
      if version = payload.version then some payload
      else Dict.get? (latestByVersion log) version := by
  unfold latestByVersion
  rw [evaluations, List.filterMap_append, ← evaluations]
  simp only [List.filterMap_cons, EngineEvent.evaluated?, List.filterMap_nil, List.map_append,
    List.map_cons, List.map_nil]
  exact Dict.get?_ofEntries_concat _ _ version

/-! ## One evaluation -/

/-- What evaluating a candidate on the search challenges comes to. -/
inductive EvaluationOutcome where
  | answered (results : List EvaluationResult)
  | timedOut
  | raised (message : String)

/-- An evaluated candidate. -/
structure Scored where
  genome : SystemGenome
  generation : ℕ
  fitness : ℚ
  metrics : Dict String ℚ
  timedOut : Bool
  violation : ℚ
  cost : ℚ

/-- `violation == 0.0 and not timed_out` -/
def Scored.feasible (s : Scored) : Bool := decide (s.violation = 0) && !s.timedOut

def Scored.payload (s : Scored) (digest : GenomeDigest) : CandidateEvaluated where
  genomeHash := s.genome.hash digest
  version := s.genome.version
  generation := s.generation
  fitness := s.fitness
  metrics := s.metrics
  timedOut := s.timedOut
  feasible := s.feasible
  constraintViolation := Rounding.roundTo 6 s.violation

namespace ExperimentEngine

variable (e : ExperimentEngine ρ)

/-- The results of a candidate that timed out. -/
def worstResults (genome : SystemGenome) (challenges : List Challenge) (timeout : ℚ) :
    List EvaluationResult :=
  challenges.map fun c =>
    { challengeId := c.challengeId, genomeHash := genome.hash e.genomeDigest
      metrics := [("quality", 0)], costUsd := 0, latencyMs := timeout * 1000
      failed := true, notes := "evaluator timeout" }

/-- The score of a candidate with these results. -/
def scoreResults (setup : SearchSetup) (generation : ℕ) (genome : SystemGenome)
    (results : List EvaluationResult) (timedOut : Bool) : Except String Scored := do
  let agg ← aggregate results (setup.challenges.map (·.category))
  let violation := totalMagnitude
    (metricGateFindings setup.baselineAgg agg e.searchGates e.searchSafety none)
  let baseFitness := e.config.objectives.score agg.asDict (objectiveScales setup.baselineAgg)
  return {
    genome := genome
    generation := generation
    fitness := if timedOut then 0
      else baseFitness / (1 + e.config.constraintPenalty * violation)
    metrics := agg.asDict
    timedOut := timedOut
    violation := violation
    cost := (results.map (·.costUsd)).sum }

/-- The score an outcome gives; a timeout takes a timeout that is configured. -/
def scoreOutcome (setup : SearchSetup) (generation : ℕ) (genome : SystemGenome) :
    EvaluationOutcome → Option (Except String Scored)
  | .answered results => some (e.scoreResults setup generation genome results false)
  | .timedOut => e.config.evaluationTimeoutSeconds.map fun timeout =>
      e.scoreResults setup generation genome
        (e.worstResults genome setup.challenges timeout) true
  | .raised message => some (.error message)

/-! ## The machine -/

/-- A generation under way: its points, the strategy that was asked for them, the candidates
    derived so far and those evaluated so far. -/
structure Round (ρ : Type) where
  points : List Point
  strategy : SearchStrategy ρ
  genomes : List SystemGenome := []
  scored : List Scored := []

/-- What is asked for the next generation; `none` where the search space is exhausted. -/
def openRound (p : Progress ρ) : Except String (Option (Round ρ)) := do
  let remaining := e.config.budget.maxCandidates - p.tracker.use.candidatesUsed
  let (points, strategy) ← p.strategy.ask e.runtime (min e.config.batchSize remaining)
  if points.isEmpty then return none
  e.checkPolicy points
  return some { points := points, strategy := strategy }

/-- The reason to leave the loop before another generation. -/
def leaveReason (cancelFlag : Bool) (checked : ℚ≥0) (p : Progress ρ) : Option String :=
  if cancelFlag then some "cancelled by user"
  else
    match p.tracker.exhausted e.config.budget checked with
    | some reason => some reason
    | none => if e.config.maxBatches ≤ p.generationIndex then some "max_batches reached"
        else none

/-- The incumbent after the candidates of a round. -/
def Round.best (r : Round ρ) (best : Incumbent) : Incumbent :=
  r.scored.foldl (fun b s => b.consider s.genome s.fitness s.feasible) best

def Round.use (r : Round ρ) (setup : SearchSetup) (use : BudgetUse) : BudgetUse :=
  r.scored.foldl (fun u s => u.record 1 setup.challenges.length s.cost) use

def Round.batch (r : Round ρ) : TellBatch := ⟨r.points, r.scored.map (·.fitness)⟩

def Round.observations (r : Round ρ) : List Observation :=
  (r.points.zip (r.scored.map (·.fitness))).map fun o => ⟨o.1, o.2⟩

/-- The local variables of `_run` when a told generation is saved. -/
def closeRound (p : Progress ρ) (r : Round ρ) (recorded : ℚ≥0) : Progress ρ :=
  let best := r.best p.best
  let tracker := { p.tracker with use := r.use p.setup p.tracker.use }
  { p with
    strategy := r.strategy
    tracker := tracker
    best := best
    nextVersion := p.nextVersion + r.points.length
    generationIndex := p.generationIndex + 1
    ckpt := { p.ckpt with
      tellBatches := p.ckpt.tellBatches ++ [r.batch]
      budgetState := tracker.toState recorded
      bestGenome := some best.genome
      bestFitness := best.fitness
      bestFeasible := best.feasible } }

/-- Where the process is. -/
inductive Stage (ρ : Type) where
  | idle
  | looping (p : Progress ρ)
  | generating (p : Progress ρ) (r : Round ρ)
  | evaluating (p : Progress ρ) (r : Round ρ)
  /-- told and logged as completed, not yet saved -/
  | told (p : Progress ρ) (r : Round ρ)
  | saved (p : Progress ρ)
  | stopping (p : Progress ρ) (reason : String)
  | stopped (p : Progress ρ)
  | returned (result : ExperimentResult)
  | raised (message : String)

/-- The disk, the log and the process. For the statements only, it keeps the scores of the
    candidates whose generations were saved. -/
structure Journal (ρ : Type) where
  disk : Option ExperimentCheckpoint := none
  cancelFlag : Bool := false
  log : List EngineEvent := []
  stage : Stage ρ := .idle
  recorded : List Scored := []

inductive JournalAction where
  /-- a process starts and enters the loop -/
  | start
  /-- the top of the loop, up to the points of a generation -/
  | ask (checked : ℚ≥0)
  /-- the next candidate is derived; after the last, evaluation begins -/
  | derive
  | evaluate (outcome : EvaluationOutcome)
  /-- the generation is told to the strategy -/
  | tell
  | save (recorded : ℚ≥0)
  | checkConvergence
  | stop
  | finalize (clock : ℚ≥0)
  | crash
  | cancel

def createdEvent : EngineEvent :=
  .experimentCreated
    (s!"{e.baselineGenome.systemId}@v{e.baselineGenome.version}#" ++
      String.ofList ((e.baselineGenome.hash e.genomeDigest).toList.take 8))
    e.config.searchStrategy (e.datasetVersion.hash e.datasetDigest) e.config.seed

def generatedEvent (genome : SystemGenome) (point : Point) : EngineEvent :=
  .candidateGenerated (genome.hash e.genomeDigest) genome.version point

def completedEvent (p : Progress ρ) (r : Round ρ) : EngineEvent :=
  .generationCompleted (p.generationIndex + 1) (Sample.mean (r.scored.map (·.fitness)))
    (r.best p.best).fitness

/-- One step of the machine; `none` where the action is not the process's next one. -/
def write (j : Journal ρ) : JournalAction → Option (Journal ρ)
  | .start =>
      match j.stage with
      | .idle =>
          some { j with
            disk := j.disk.map fun _ => e.loadCheckpoint j.disk
            log := if j.disk.isNone then j.log ++ [e.createdEvent] else j.log
            stage := match e.load j.disk with
              | .ok p => .looping p
              | .error message => .raised message }
      | _ => none
  | .ask checked =>
      match j.stage with
      | .looping p =>
          match e.leaveReason j.cancelFlag checked p with
          | some reason => some { j with cancelFlag := false, stage := .stopping p reason }
          | none =>
              match e.openRound p with
              | .error message => some { j with stage := .raised message }
              | .ok none =>
                  some { j with cancelFlag := false, stage := .stopping p "search space exhausted" }
              | .ok (some r) => some { j with stage := .generating p r }
      | _ => none
  | .derive =>
      match j.stage with
      | .generating p r =>
          match r.points[r.genomes.length]? with
          | none => some { j with stage := .evaluating p r }
          | some point =>
              match e.deriveCandidate point (p.nextVersion + r.genomes.length)
                  p.generationIndex with
              | .error message => some { j with stage := .raised message }
              | .ok genome => some { j with
                  log := j.log ++ [e.generatedEvent genome point]
                  stage := .generating p { r with genomes := r.genomes ++ [genome] } }
      | _ => none
  | .evaluate outcome =>
      match j.stage with
      | .evaluating p r =>
          match r.genomes[r.scored.length]? with
          | none => none
          | some genome =>
              match e.scoreOutcome p.setup p.generationIndex genome outcome with
              | none => none
              | some (.error message) => some { j with stage := .raised message }
              | some (.ok s) => some { j with
                  log := j.log ++ [.candidateEvaluated (s.payload e.genomeDigest)]
                  stage := .evaluating p { r with scored := r.scored ++ [s] } }
      | _ => none
  | .tell =>
      match j.stage with
      | .evaluating p r =>
          if r.scored.length = r.genomes.length then
            match r.strategy.tell e.runtime r.observations with
            | .error message => some { j with stage := .raised message }
            | .ok strategy => some { j with
                log := j.log ++ [completedEvent p r]
                stage := .told p { r with strategy := strategy } }
          else none
      | _ => none
  | .save recorded =>
      match j.stage with
      | .told p r => some { j with
          disk := some (closeRound p r recorded).ckpt
          stage := .saved (closeRound p r recorded)
          recorded := j.recorded ++ r.scored }
      | _ => none
  | .checkConvergence =>
      match j.stage with
      | .saved p =>
          match converged p.strategy p.best with
          | .ok (some reason) => some { j with stage := .stopping p reason }
          | .ok none => some { j with stage := .looping p }
          | .error message => some { j with stage := .raised message }
      | _ => none
  | .stop =>
      match j.stage with
      | .stopping p reason =>
          let ckpt := closeCheckpoint p.ckpt reason
          some { j with
            disk := some ckpt
            cancelFlag := if reason = "cancelled by user" then j.cancelFlag else false
            stage := .stopped { p with ckpt := ckpt } }
      | _ => none
  | .finalize clock =>
      match j.stage with
      | .stopped p => some { j with
          log := j.log ++ [.experimentStopped p.ckpt.stopReason]
          stage := match e.finalize p clock with
            | .ok result => .returned result
            | .error message => .raised message }
      | _ => none
  | .crash => some { j with stage := .idle }
  | .cancel => some { j with cancelFlag := true }

/-! ## What a step does -/

/-- The log after a process has started. -/
def openLog (disk : Option ExperimentCheckpoint) (log : List EngineEvent) :
    List EngineEvent :=
  if disk.isNone then log ++ [e.createdEvent] else log

/-- Everything a step can do. A step that raises leaves disk and log as they are, but for
    the first and the last of a process. -/
inductive Wrote (e : ExperimentEngine ρ) :
    Journal ρ → JournalAction → Journal ρ → Prop where
  | started {disk flag log rs p} (hload : e.load disk = .ok p) :
      Wrote e ⟨disk, flag, log, .idle, rs⟩ .start
        ⟨disk.map fun _ => e.loadCheckpoint disk, flag, e.openLog disk log, .looping p, rs⟩
  | notStarted {disk flag log rs message} (hload : e.load disk = .error message) :
      Wrote e ⟨disk, flag, log, .idle, rs⟩ .start
        ⟨disk.map fun _ => e.loadCheckpoint disk, flag, e.openLog disk log, .raised message, rs⟩
  | leftLoop {disk flag log rs p checked reason} :
      Wrote e ⟨disk, flag, log, .looping p, rs⟩ (.ask checked)
        ⟨disk, false, log, .stopping p reason, rs⟩
  | asked {disk flag log rs p checked r} (hopen : e.openRound p = .ok (some r)) :
      Wrote e ⟨disk, flag, log, .looping p, rs⟩ (.ask checked)
        ⟨disk, flag, log, .generating p r, rs⟩
  | derived {disk flag log rs p r point genome}
      (hpoint : r.points[r.genomes.length]? = some point)
      (hderive : e.deriveCandidate point (p.nextVersion + r.genomes.length)
        p.generationIndex = .ok genome) :
      Wrote e ⟨disk, flag, log, .generating p r, rs⟩ .derive
        ⟨disk, flag, log ++ [e.generatedEvent genome point],
          .generating p { r with genomes := r.genomes ++ [genome] }, rs⟩
  | derivedAll {disk flag log rs p r} (hall : r.points[r.genomes.length]? = none) :
      Wrote e ⟨disk, flag, log, .generating p r, rs⟩ .derive
        ⟨disk, flag, log, .evaluating p r, rs⟩
  | evaluated {disk flag log rs p r outcome genome s}
      (hgenome : r.genomes[r.scored.length]? = some genome)
      (hscore : e.scoreOutcome p.setup p.generationIndex genome outcome = some (.ok s)) :
      Wrote e ⟨disk, flag, log, .evaluating p r, rs⟩ (.evaluate outcome)
        ⟨disk, flag, log ++ [.candidateEvaluated (s.payload e.genomeDigest)],
          .evaluating p { r with scored := r.scored ++ [s] }, rs⟩
  | told {disk flag log rs p r strategy} (hall : r.scored.length = r.genomes.length)
      (htell : r.strategy.tell e.runtime r.observations = .ok strategy) :
      Wrote e ⟨disk, flag, log, .evaluating p r, rs⟩ .tell
        ⟨disk, flag, log ++ [completedEvent p r], .told p { r with strategy := strategy }, rs⟩
  | saved {disk flag log rs p r recorded} :
      Wrote e ⟨disk, flag, log, .told p r, rs⟩ (.save recorded)
        ⟨some (closeRound p r recorded).ckpt, flag, log, .saved (closeRound p r recorded),
          rs ++ r.scored⟩
  | wentOn {disk flag log rs p} (hconverged : converged p.strategy p.best = .ok none) :
      Wrote e ⟨disk, flag, log, .saved p, rs⟩ .checkConvergence
        ⟨disk, flag, log, .looping p, rs⟩
  | hasConverged {disk flag log rs p reason}
      (hconverged : converged p.strategy p.best = .ok (some reason)) :
      Wrote e ⟨disk, flag, log, .saved p, rs⟩ .checkConvergence
        ⟨disk, flag, log, .stopping p reason, rs⟩
  | closed {disk flag log rs p reason} :
      Wrote e ⟨disk, flag, log, .stopping p reason, rs⟩ .stop
        ⟨some (closeCheckpoint p.ckpt reason),
          if reason = "cancelled by user" then flag else false, log,
          .stopped { p with ckpt := closeCheckpoint p.ckpt reason }, rs⟩
  | finalized {disk flag log rs p clock result} (hfinal : e.finalize p clock = .ok result) :
      Wrote e ⟨disk, flag, log, .stopped p, rs⟩ (.finalize clock)
        ⟨disk, flag, log ++ [.experimentStopped p.ckpt.stopReason], .returned result, rs⟩
  | finalizeRaised {disk flag log rs p clock message}
      (hfinal : e.finalize p clock = .error message) :
      Wrote e ⟨disk, flag, log, .stopped p, rs⟩ (.finalize clock)
        ⟨disk, flag, log ++ [.experimentStopped p.ckpt.stopReason], .raised message, rs⟩
  | stepRaised {j : Journal ρ} {a message} : Wrote e j a { j with stage := .raised message }
  | crashed {j : Journal ρ} : Wrote e j .crash { j with stage := .idle }
  | cancelled {j : Journal ρ} : Wrote e j .cancel { j with cancelFlag := true }

variable {e}

theorem write_wrote {j j' : Journal ρ} {a : JournalAction} (h : e.write j a = some j') :
    Wrote e j a j' := by
  obtain ⟨disk, flag, log, stage, rs⟩ := j
  unfold write at h
  split at h
  · dsimp only at h
    split at h
    · rw [← Option.some.inj h]
      cases hload : e.load disk with
      | ok p => exact .started hload
      | error message => exact .notStarted hload
    · cases h
  · dsimp only at h
    split at h
    · split at h
      · rw [← Option.some.inj h]
        exact .leftLoop
      · split at h
        · rw [← Option.some.inj h]
          exact .stepRaised
        · rw [← Option.some.inj h]
          exact .leftLoop
        · rename_i hopen
          rw [← Option.some.inj h]
          exact .asked hopen
    · cases h
  · dsimp only at h
    split at h
    · split at h
      · rename_i hall
        rw [← Option.some.inj h]
        exact .derivedAll hall
      · rename_i hpoint
        split at h
        · rw [← Option.some.inj h]
          exact .stepRaised
        · rename_i hderive
          rw [← Option.some.inj h]
          exact .derived hpoint hderive
    · cases h
  · dsimp only at h
    split at h
    · split at h
      · cases h
      · rename_i hgenome
        split at h
        · cases h
        · rw [← Option.some.inj h]
          exact .stepRaised
        · rename_i hscore
          rw [← Option.some.inj h]
          exact .evaluated hgenome hscore
    · cases h
  · dsimp only at h
    split at h
    · split_ifs at h with hall
      split at h
      · rw [← Option.some.inj h]
        exact .stepRaised
      · rename_i htell
        rw [← Option.some.inj h]
        exact .told hall htell
    · cases h
  · dsimp only at h
    split at h
    · rw [← Option.some.inj h]
      exact .saved
    · cases h
  · dsimp only at h
    split at h
    · split at h
      · rename_i hconverged
        rw [← Option.some.inj h]
        exact .hasConverged hconverged
      · rename_i hconverged
        rw [← Option.some.inj h]
        exact .wentOn hconverged
      · rw [← Option.some.inj h]
        exact .stepRaised
    · cases h
  · dsimp only at h
    split at h
    · rw [← Option.some.inj h]
      exact .closed
    · cases h
  · dsimp only at h
    split at h
    · rename_i p
      rw [← Option.some.inj h]
      cases hfinal : e.finalize p _ with
      | ok result => exact .finalized hfinal
      | error message => exact .finalizeRaised hfinal
    · cases h
  · rw [← Option.some.inj h]
    exact .crashed
  · rw [← Option.some.inj h]
    exact .cancelled

/-- A round opens with nothing derived. -/
theorem openRound_ok {p : Progress ρ} {r : Round ρ} (h : e.openRound p = .ok (some r)) :
    r.genomes = [] ∧ r.scored = [] := by
  obtain ⟨⟨points, strategy⟩, -, h⟩ := bind_eq_ok.mp h
  by_cases hempty : points.isEmpty = true
  · simp only [hempty, if_true] at h
    cases h
  · simp only [hempty, Bool.false_eq_true, if_false] at h
    obtain ⟨-, -, h⟩ := bind_eq_ok.mp h
    cases h
    exact ⟨rfl, rfl⟩

end ExperimentEngine

/-! ## Lives -/

open ExperimentEngine

/-- An experiment with its journal. -/
structure Chronicle (ρ : Type) where
  engine : ExperimentEngine ρ
  journal : Journal ρ := {}

inductive ChronicleEvent where
  | act (a : JournalAction)
  /-- the next process finds another version of the dataset and other code -/
  | setUp (dataset : DatasetVersion) (evaluator : Evaluator)
  /-- the limits are set anew; `max_batches` is never lowered -/
  | resume (maxCandidates : ℕ) (hpos : 1 ≤ maxCandidates) (batches : ℕ)

/-- No process is at work. -/
def ExperimentEngine.Stage.atRest : Stage ρ → Bool
  | .idle | .returned _ | .raised _ => true
  | _ => false

def Chronicle.next (c : Chronicle ρ) : ChronicleEvent → Option (Chronicle ρ)
  | .act a => (c.engine.write c.journal a).map fun j => { c with journal := j }
  | .setUp dataset evaluator =>
      if c.journal.stage.atRest then
        some {
          engine := { c.engine with datasetVersion := dataset, evaluator := evaluator }
          journal := { c.journal with stage := .idle } }
      else none
  | .resume maxCandidates hpos batches =>
      if c.journal.stage.atRest then
        some {
          engine := { c.engine with
            config := c.engine.config.withLimits maxCandidates hpos batches }
          journal := { c.journal with stage := .idle } }
      else none

/-- An engine that is set up again derives the candidates it did. -/
structure ExperimentEngine.SameCandidates (e e' : ExperimentEngine ρ) : Prop where
  derive : e'.deriveCandidate = e.deriveCandidate
  firstVersion : e'.firstVersion = e.firstVersion
  digest : e'.genomeDigest = e.genomeDigest
  baseline : e'.baselineGenome = e.baselineGenome

/-- What an event does: the process writes, or another one takes over. -/
inductive Chronicle.Moved (c : Chronicle ρ) : Chronicle ρ → Prop
  | wrote {a : JournalAction} {j : Journal ρ} (hwrite : c.engine.write c.journal a = some j) :
      Moved c { c with journal := j }
  | tookOver {e' : ExperimentEngine ρ} (hsame : c.engine.SameCandidates e') :
      Moved c ⟨e', { c.journal with stage := .idle }⟩

theorem Chronicle.next_moved {c c' : Chronicle ρ} {event : ChronicleEvent}
    (h : c.next event = some c') : c.Moved c' := by
  cases event with
  | act a =>
      obtain ⟨j, hwrite, rfl⟩ := Option.map_eq_some_iff.mp h
      exact .wrote hwrite
  | setUp dataset evaluator =>
      unfold Chronicle.next at h
      dsimp only at h
      split_ifs at h
      rw [← Option.some.inj h]
      exact .tookOver ⟨rfl, rfl, rfl, rfl⟩
  | resume maxCandidates hpos batches =>
      unfold Chronicle.next at h
      dsimp only at h
      split_ifs at h
      rw [← Option.some.inj h]
      exact .tookOver ⟨rfl, rfl, rfl, rfl⟩

end NeuroForge
