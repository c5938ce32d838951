/-
  `run()` up to its first generation, with everything that can raise on the way.

  The run lock, the dataset check, the size of the splits, the baseline evaluation, the
  mutation policy and the evaluation of the candidates each may end a run. A run whose loop
  is left at its first turn saves its outcome and goes on to `_finalize`, whose evaluations
  may end it as well. `openRun` has all this in the order of the source, with what is on disk
  when the exception leaves `run()`. A domain that raises is a function `Faults` beside the
  evaluator; with no faults and a free lock an opening is a run of the machine
  (`openRun_raised_steps`).

  A resumed checkpoint is saved as running before any of the checks but the lock
  (`loadCheckpoint`). So a run that is refused before its loop is left keeps the checkpoint
  exactly if there is nothing to rewrite; one that has left its loop, if the outcome it saves
  is the one that was stored: `refused_run_keeps_checkpoint_iff`.
-/
import NeuroForge.Experiments.Engine
import NeuroForge.Lib.Transition

namespace NeuroForge

open Fallible Transition

/-- What `domain.evaluate` raises on a genome and a challenge, if anything. -/
abbrev Faults := GenomeContent → Challenge → Option String

/-- An exception that ends `run()`. -/
inductive RunError where
  | experimentAlreadyRunning (message : String)
  | datasetChanged (message : String)
  | datasetTooSmall (message : String)
  | evaluation (message : String)
  | other (message : String)
  deriving DecidableEq

def RunError.message : RunError → String
  | .experimentAlreadyRunning message => message
  | .datasetChanged message => message
  | .datasetTooSmall message => message
  | .evaluation message => message
  | .other message => message

variable {ρ : Type}

namespace ExperimentEngine

variable (e : ExperimentEngine ρ)

/-- The first exception of a list of evaluations. -/
def evaluationFault (faults : Faults) (content : GenomeContent) (challenges : List Challenge) :
    Option String :=
  challenges.findSome? (faults content)

/-- A candidate that timed out is never asked for its results, nor for its exception. -/
def candidateFault (faults : Faults) (setup : SearchSetup) (genome : SystemGenome) :
    Option String :=
  if (e.evaluateCandidate genome setup.challenges).2 then none
  else evaluationFault faults genome.content setup.challenges

/-- The candidates of the next generation, where asking, the policy and the schema let it
    come to them. -/
def proposed (p : Progress ρ) : Except String (List SystemGenome) := do
  let remaining := e.config.budget.maxCandidates - p.tracker.use.candidatesUsed
  let (points, _) ← p.strategy.ask e.runtime (min e.config.batchSize remaining)
  e.checkPolicy points
  e.deriveBatch p.generationIndex points p.nextVersion

def generationFault (faults : Faults) (p : Progress ρ) : Option String :=
  match e.proposed p with
  | .ok genomes => genomes.findSome? (e.candidateFault faults p.setup)
  | .error _ => none

/-- `_run` up to its loop. -/
def openSearch (faults : Faults) (disk : Option ExperimentCheckpoint) :
    Except RunError (Progress ρ) := do
  let ckpt := e.loadCheckpoint disk
  (e.checkDataset disk.isSome ckpt).mapError .datasetChanged
  let strategy ← (e.replayStrategy ckpt.tellBatches).mapError .other
  let setup ← e.searchSetup.mapError .datasetTooSmall
  match evaluationFault faults e.baselineGenome.content setup.challenges with
  | some message => .error (.evaluation message)
  | none =>
      return {
        setup := setup
        ckpt := ckpt
        strategy := strategy
        tracker := .fromState ckpt.budgetState
        best := ⟨ckpt.bestGenome.getD e.baselineGenome, ckpt.bestFitness, ckpt.bestFeasible⟩
        nextVersion := e.firstVersion + ckpt.candidatesCompleted
        generationIndex := ckpt.generationsCompleted }

/-- How the first turn of the loop ends. -/
inductive FirstTurn (ρ : Type) where
  | raised (error : RunError)
  | leftLoop (reason : String)
  | completed (p : Progress ρ)

/-- The first turn of the loop. -/
def firstTurn (faults : Faults) (cancelFlag : Bool) (checked recorded : ℚ≥0)
    (p : Progress ρ) : FirstTurn ρ :=
  match e.turn cancelFlag checked recorded p with
  | .stop reason => .leftLoop reason
  | .raised message =>
      match e.generationFault faults p with
      | some fault => .raised (.evaluation fault)
      | none => .raised (.other message)
  | .saved p' =>
      match e.generationFault faults p with
      | some fault => .raised (.evaluation fault)
      | none => .completed p'

/-- How a run opens. -/
inductive Opening (ρ : Type) where
  | raised (error : RunError)
  | returned (result : ExperimentResult)
  | completed (p : Progress ρ)

/-- The exception of the evaluations on the validation split: the baseline's come first. -/
def finalFault (faults : Faults) (best : SystemGenome) : Option String :=
  (evaluationFault faults e.baselineGenome.content e.holdoutGuard.validationSet).or
    (evaluationFault faults best.content e.holdoutGuard.validationSet)

/-- `_finalize` of a run that has left its loop. -/
def finalizeOpening (faults : Faults) (p : Progress ρ) (clock : ℚ≥0) : Opening ρ :=
  match e.finalFault faults p.best.genome with
  | some message => .raised (.evaluation message)
  | none =>
      match e.finalize p clock with
      | .error message => .raised (.other message)
      | .ok result => .returned result

/-- `run()` until it raises, returns or has its first generation saved, and the checkpoint on
    disk then. -/
def openRun (lockHeld : Bool) (faults : Faults) (cancelFlag : Bool)
    (checked recorded clock : ℚ≥0) (disk : Option ExperimentCheckpoint) :
    Option ExperimentCheckpoint × Opening ρ :=
  if lockHeld then
    (disk, .raised (.experimentAlreadyRunning
      s!"experiment '{e.config.experimentId}' is already running"))
  else
    -- saved as running again before anything can fail
    let loaded := disk.map fun _ => e.loadCheckpoint disk
    match e.openSearch faults disk with
    | .error error => (loaded, .raised error)
    | .ok p =>
        match e.firstTurn faults cancelFlag checked recorded p with
        | .raised error => (loaded, .raised error)
        | .completed p' => (some p'.ckpt, .completed p')
        | .leftLoop reason =>
            -- the outcome is saved before `_finalize` evaluates anything
            let ckpt := closeCheckpoint p.ckpt reason
            (some ckpt, e.finalizeOpening faults { p with ckpt := ckpt } clock)

/-- Why the loop is left before anything is evaluated in it, if it is: a request to cancel, a
    budget that is used up, enough generations, or a strategy that has no points left. -/
def leavesLoop (cancelFlag : Bool) (checked : ℚ≥0) (p : Progress ρ) : Option String :=
  if cancelFlag then some "cancelled by user"
  else
    match p.tracker.exhausted e.config.budget checked with
    | some reason => some reason
    | none =>
        if e.config.maxBatches ≤ p.generationIndex then some "max_batches reached"
        else
          match p.strategy.ask e.runtime
              (min e.config.batchSize (e.config.budget.maxCandidates -
                p.tracker.use.candidatesUsed)) with
          | .ok ([], _) => some "search space exhausted"
          | _ => none

/-- Why a run that passes all checks leaves its loop at once, if it does. -/
def leftAtOnce (faults : Faults) (cancelFlag : Bool) (checked : ℚ≥0)
    (disk : Option ExperimentCheckpoint) : Option String :=
  match e.openSearch faults disk with
  | .error _ => none
  | .ok p => e.leavesLoop cancelFlag checked p

variable {e}

/-! ## The machine's openings -/

theorem evaluationFault_without_faults (content : GenomeContent) (challenges : List Challenge) :
    evaluationFault (fun _ _ => none) content challenges = none :=
  List.findSome?_eq_none_iff.mpr fun _ _ => rfl

theorem openSearch_without_faults (disk : Option ExperimentCheckpoint) :
    (e.openSearch (fun _ _ => none) disk).mapError RunError.message = e.load disk := by
  unfold openSearch load
  simp only [evaluationFault_without_faults]
  cases e.checkDataset disk.isSome (e.loadCheckpoint disk) with
  | error message => rfl
  | ok _ =>
      cases e.replayStrategy (e.loadCheckpoint disk).tellBatches with
      | error message => rfl
      | ok strategy =>
          cases e.searchSetup with
          | error message => rfl
          | ok setup => rfl

theorem generationFault_without_faults (p : Progress ρ) :
    e.generationFault (fun _ _ => none) p = none := by
  unfold generationFault
  split
  · refine List.findSome?_eq_none_iff.mpr fun genome _ => ?_
    unfold candidateFault
    split_ifs
    · rfl
    · exact evaluationFault_without_faults _ _
  · rfl

theorem finalFault_without_faults (best : SystemGenome) :
    e.finalFault (fun _ _ => none) best = none := by
  rw [finalFault, evaluationFault_without_faults, evaluationFault_without_faults]
  rfl

/-- A search that is left at its first turn and cannot be finalized, in steps of the machine. -/
theorem finalizeOpening_raised_steps {flag : Bool} {checked recorded clock : ℚ≥0}
    {disk : Option ExperimentCheckpoint} {p : Progress ρ} {reason : String} {error : RunError}
    (hturn : e.turn flag checked recorded p = .stop reason)
    (h : e.finalizeOpening (fun _ _ => none) { p with ckpt := closeCheckpoint p.ckpt reason }
      clock = .raised error) :
    run e.step ⟨disk, flag, .looping p⟩ [.turn checked recorded, .stop, .finalize clock] =
      some ⟨some (closeCheckpoint p.ckpt reason), false, .raised error.message⟩ := by
  have hleft : e.step ⟨disk, flag, .looping p⟩ (.turn checked recorded) =
      some ⟨disk, false, .stopping p reason⟩ := by
    simp only [step, hturn]
  have hstop : e.step ⟨disk, false, .stopping p reason⟩ .stop =
      some ⟨some (closeCheckpoint p.ckpt reason), false,
        .stopped { p with ckpt := closeCheckpoint p.ckpt reason }⟩ := by
    simp only [step, ite_self]
  have hfinal : e.finalize { p with ckpt := closeCheckpoint p.ckpt reason } clock =
      .error error.message := by
    unfold finalizeOpening at h
    rw [finalFault_without_faults] at h
    dsimp only at h
    split at h
    · rename_i message hmessage
      cases h
      exact hmessage
    · cases h
  rw [run_cons, hleft, Option.bind_some, run_cons, hstop, Option.bind_some, run_cons]
  simp only [step, hfinal]
  rfl

/-- Where the domain raises nothing and the lock is free, a run that raises is a run of the
    machine that does, with the same checkpoint left behind. -/
theorem openRun_raised_steps {flag : Bool} {checked recorded clock : ℚ≥0}
    {disk disk' : Option ExperimentCheckpoint} {error : RunError}
    (h : e.openRun false (fun _ _ => none) flag checked recorded clock disk =
      (disk', .raised error)) :
    ∃ actions flag', run e.step ⟨disk, flag, .idle⟩ actions =
      some ⟨disk', flag', .raised error.message⟩ := by
  have hload := openSearch_without_faults (e := e) disk
  unfold openRun at h
  simp only [Bool.false_eq_true, if_false] at h
  cases hopen : e.openSearch (fun _ _ => none) disk with
  | error err =>
      rw [hopen] at h hload
      cases h
      have hstart : e.step ⟨disk, flag, .idle⟩ .start =
          some ⟨disk.map fun _ => e.loadCheckpoint disk, flag, .raised error.message⟩ := by
        simp only [step, ← hload]
        rfl
      exact ⟨[.start], flag, by rw [run_cons, hstart]; rfl⟩
  | ok p =>
      rw [hopen] at h hload
      have hstart : e.step ⟨disk, flag, .idle⟩ .start =
          some ⟨disk.map fun _ => e.loadCheckpoint disk, flag, .looping p⟩ := by
        simp only [step, ← hload]
        rfl
      unfold firstTurn at h
      simp only [generationFault_without_faults] at h
      cases hturn : e.turn flag checked recorded p with
      | stop reason =>
          rw [hturn] at h
          obtain ⟨rfl, hraised⟩ := Prod.mk.inj h
          refine ⟨[.start, .turn checked recorded, .stop, .finalize clock], false, ?_⟩
          rw [run_cons, hstart, Option.bind_some]
          exact finalizeOpening_raised_steps hturn hraised
      | saved p' =>
          rw [hturn] at h
          cases h
      | raised message =>
          rw [hturn] at h
          cases h
          have hraised : e.step
              ⟨disk.map fun _ => e.loadCheckpoint disk, flag, .looping p⟩
              (.turn checked recorded) =
              some ⟨disk.map fun _ => e.loadCheckpoint disk, flag, .raised message⟩ := by
            simp only [step, hturn]
          refine ⟨[.start, .turn checked recorded], flag, ?_⟩
          rw [run_cons, hstart, Option.bind_some, run_cons, hraised]
          rfl

/-! ## What a refused run leaves behind -/

theorem asRunning_eq_self_iff (c : ExperimentCheckpoint) :
    asRunning c = c ↔ c.status = .running := by
  unfold asRunning
  split_ifs with h
  · exact ⟨fun _ => h, fun _ => rfl⟩
  · exact ⟨fun heq => (congrArg (·.status) heq).symm, fun hrunning => absurd hrunning h⟩

theorem openSearch_ckpt {faults : Faults} {disk : Option ExperimentCheckpoint} {p : Progress ρ}
    (h : e.openSearch faults disk = .ok p) : p.ckpt = e.loadCheckpoint disk := by
  unfold openSearch at h
  obtain ⟨_, -, h⟩ := bind_eq_ok.mp h
  obtain ⟨strategy, -, h⟩ := bind_eq_ok.mp h
  obtain ⟨setup, -, h⟩ := bind_eq_ok.mp h
  split at h
  · cases h
  · cases h
    rfl

/-- The first turn leaves the loop for the reason there is, if there is one. -/
theorem turn_stop_iff {flag : Bool} {checked recorded : ℚ≥0} {p : Progress ρ}
    {reason : String} : e.turn flag checked recorded p = .stop reason ↔
      e.leavesLoop flag checked p = some reason := by
  unfold turn leavesLoop generation
  cases flag with
  | true => simp
  | false =>
      simp only [Bool.false_eq_true, if_false]
      cases p.tracker.exhausted e.config.budget checked with
      | some other => simp
      | none =>
          dsimp only
          by_cases hmax : e.config.maxBatches ≤ p.generationIndex
          · simp [hmax]
          · rw [if_neg hmax, if_neg hmax]
            cases hask : p.strategy.ask e.runtime (min e.config.batchSize
                (e.config.budget.maxCandidates - p.tracker.use.candidatesUsed)) with
            | error message => exact iff_of_false (fun h => by cases h) (fun h => by cases h)
            | ok asked =>
                obtain ⟨points, strategy⟩ := asked
                cases points with
                | nil => exact ⟨fun h => by cases h; rfl, fun h => by cases h; rfl⟩
                | cons point points =>
                    rw [ok_bind]
                    simp only [List.isEmpty_cons, Bool.false_eq_true, if_false]
                    split
                    · simp
                    · rename_i hnone
                      -- something was asked, so something is told
                      obtain ⟨_, -, hnone⟩ := bind_eq_ok.mp hnone
                      obtain ⟨_, -, hnone⟩ := bind_eq_ok.mp hnone
                      obtain ⟨_, -, hnone⟩ := bind_eq_ok.mp hnone
                      obtain ⟨_, -, hnone⟩ := bind_eq_ok.mp hnone
                      cases hnone
                    · simp

theorem firstTurn_raised {faults : Faults} {flag : Bool} {checked recorded : ℚ≥0}
    {p : Progress ρ} {error : RunError}
    (h : e.firstTurn faults flag checked recorded p = .raised error) :
    e.leavesLoop flag checked p = none := by
  by_contra hleaves
  obtain ⟨reason, hreason⟩ := Option.ne_none_iff_exists'.mp hleaves
  unfold firstTurn at h
  rw [turn_stop_iff.mpr hreason] at h
  cases h

theorem firstTurn_leftLoop {faults : Faults} {flag : Bool} {checked recorded : ℚ≥0}
    {p : Progress ρ} {reason : String}
    (h : e.firstTurn faults flag checked recorded p = .leftLoop reason) :
    e.leavesLoop flag checked p = some reason := by
  unfold firstTurn at h
  split at h
  · rename_i hturn
    cases h
    exact turn_stop_iff.mp hturn
  · split at h <;> cases h
  · split at h <;> cases h

/-- What a run that raises has saved: nothing if the lock is held, else the checkpoint as that
    of a running search, and over it the outcome if the loop was left. -/
theorem openRun_raised_disk {lockHeld : Bool} {faults : Faults} {flag : Bool}
    {checked recorded clock : ℚ≥0} {disk disk' : Option ExperimentCheckpoint}
    {error : RunError}
    (h : e.openRun lockHeld faults flag checked recorded clock disk =
      (disk', .raised error)) :
    disk' = if lockHeld then disk else
      match e.leftAtOnce faults flag checked disk with
      | none => disk.map fun c => asRunning c
      | some reason => some (closeCheckpoint (e.loadCheckpoint disk) reason) := by
  have hloaded : (disk.map fun _ => e.loadCheckpoint disk) = disk.map fun c => asRunning c := by
    cases disk with
    | none => rfl
    | some c => rfl
  unfold openRun at h
  cases lockHeld with
  | true =>
      simp only [if_true] at h
      exact (congrArg Prod.fst h).symm
  | false =>
      simp only [Bool.false_eq_true, if_false] at h ⊢
      rw [← hloaded]
      unfold leftAtOnce
      cases hopen : e.openSearch faults disk with
      | error error' =>
          rw [hopen] at h
          exact (congrArg Prod.fst h).symm
      | ok p =>
          rw [hopen] at h
          dsimp only at h ⊢
          cases hturn : e.firstTurn faults flag checked recorded p with
          | raised error' =>
              rw [hturn] at h
              rw [firstTurn_raised hturn]
              exact (congrArg Prod.fst h).symm
          | completed p' =>
              rw [hturn] at h
              cases h
          | leftLoop reason =>
              rw [hturn] at h
              rw [firstTurn_leftLoop hturn, ← openSearch_ckpt hopen]
              exact (congrArg Prod.fst h).symm

/-- The status of a search that was left for this reason. -/
def closedStatus (reason : String) : RunStatus :=
  if reason = "cancelled by user" then .cancelled else .completed

/-- A checkpoint that is loaded and closed again is the same if that was its outcome. -/
theorem closed_again_iff (disk : Option ExperimentCheckpoint) (reason : String) :
    some (closeCheckpoint (e.loadCheckpoint disk) reason) = disk ↔
      ∃ c ∈ disk, c.status = closedStatus reason ∧ c.stopReason = reason := by
  cases disk with
  | none => simp
  | some c =>
      have hclosed : closeCheckpoint (e.loadCheckpoint (some c)) reason =
          { c with status := closedStatus reason, stopReason := reason } := by
        unfold closeCheckpoint loadCheckpoint asRunning closedStatus
        dsimp only
        split_ifs <;> rfl
      rw [hclosed, Option.some.injEq]
      constructor
      · intro hsame
        exact ⟨c, rfl, (congrArg (·.status) hsame).symm, (congrArg (·.stopReason) hsame).symm⟩
      · rintro ⟨c', ⟨rfl⟩, hstatus, hreason⟩
        rw [← hstatus, ← hreason]

/-- A run that raises before it completes a generation leaves the checkpoint as it was
    exactly if it got no further than the lock; or its loop is not left at once, and nothing
    was stored or the checkpoint of a running search; or its loop is left at once, and that
    outcome was stored already. -/
theorem refused_run_keeps_checkpoint_iff (e : ExperimentEngine ρ) (lockHeld : Bool)
    (faults : Faults) (flag : Bool) (checked recorded clock : ℚ≥0)
    (disk disk' : Option ExperimentCheckpoint) (error : RunError)
    (h : e.openRun lockHeld faults flag checked recorded clock disk =
      (disk', .raised error)) :
    disk' = disk ↔ lockHeld = true ∨
      match e.leftAtOnce faults flag checked disk with
      | none => ∀ c ∈ disk, c.status = .running
      | some reason => ∃ c ∈ disk, c.status = closedStatus reason ∧ c.stopReason = reason := by
  rw [openRun_raised_disk h]
  cases lockHeld with
  | true => simp
  | false =>
      simp only [Bool.false_eq_true, if_false, false_or]
      cases e.leftAtOnce faults flag checked disk with
      | some reason => exact closed_again_iff disk reason
      | none =>
          cases disk with
          | none => simp
          | some c => simp [asRunning_eq_self_iff]

/-! ## A finished experiment that is refused -/

/-- The first version's checkpoint, finished. -/
def finishedCheckpoint : ExperimentCheckpoint :=
  { exampleEngine.freshCheckpoint with
    status := .completed
    stopReason := "max_batches reached" }

/-- The same experiment after its dataset evolved. -/
def evolvedEngine : ExperimentEngine ℕ :=
  { exampleEngine with
    datasetVersion := { exampleSplits [.train, .validation, .validation] with version := 2 } }

/-- `DatasetChanged` is raised, and the finished experiment now reads as running. -/
theorem evolvedEngine_refused :
    (∃ message, (evolvedEngine.openRun false (fun _ _ => none) false 0 0 0
      (some finishedCheckpoint)).2 = .raised (.datasetChanged message)) ∧
    (evolvedEngine.openRun false (fun _ _ => none) false 0 0 0 (some finishedCheckpoint)).1 =
      some { finishedCheckpoint with status := .running, stopReason := "" } ∧
    (evolvedEngine.openRun false (fun _ _ => none) false 0 0 0 (some finishedCheckpoint)).1 ≠
      some finishedCheckpoint := by
  refine ⟨⟨_, rfl⟩, rfl, ?_⟩
  intro h
  have hstatus := congrArg (fun c => c.map (·.status)) h
  exact absurd hstatus (by decide)

/-- A run refused while its checkpoint is that of a running search. -/
theorem refused_run_keeps_checkpoint_iff_running :
    ∃ disk' error, evolvedEngine.openRun false (fun _ _ => none) false 0 0 0
        (some exampleEngine.freshCheckpoint) = (disk', .raised error) ∧
      disk' = some exampleEngine.freshCheckpoint := by
  refine ⟨_, _, rfl, ?_⟩
  exact (refused_run_keeps_checkpoint_iff evolvedEngine false (fun _ _ => none) false 0 0 0
    (some exampleEngine.freshCheckpoint) _ _ rfl).mpr (.inr fun c hc => by cases hc; rfl)

end ExperimentEngine

end NeuroForge
