/-
  Holdout noninterference of the experiment engine.

  Two engines that differ in the dataset version alone take the same steps in lockstep, as
  long as the two versions agree on id, number, train and validation challenges: the
  holdout shows in nothing but the recorded dataset hash. `step_replaceDataset` is the
  lockstep for one action, whatever it is (crashes, restarts and cancels included), and
  `Transition.run_map` makes it the lockstep of whole runs.

  Where the validation challenges differ too, the search still goes the same way; only the
  final comparison may come out differently (`step_sameSearch`).
-/
import NeuroForge.Experiments.Engine
import NeuroForge.Lib.Transition

namespace NeuroForge

open Fallible Transition

/-! ## Versions that a search cannot tell apart -/

/-- The same version as a search reads it, the validation challenges left open. -/
structure SameTrain (d d' : DatasetVersion) : Prop where
  datasetId : d'.datasetId = d.datasetId
  version : d'.version = d.version
  train : d'.challenges.filter (·.split = .train) = d.challenges.filter (·.split = .train)

/-- The same version up to its holdout challenges. -/
structure SameUpToHoldout (d d' : DatasetVersion) : Prop extends SameTrain d d' where
  validation :
    d'.challenges.filter (·.split = .validation) = d.challenges.filter (·.split = .validation)

namespace ExperimentEngine

variable {ρ : Type}

/-- The same experiment on another dataset version. -/
def replaceDataset (e : ExperimentEngine ρ) (d : DatasetVersion) : ExperimentEngine ρ :=
  { e with datasetVersion := d }

/-- A checkpoint with another dataset hash recorded in it. -/
def setHash (h : String) (c : ExperimentCheckpoint) : ExperimentCheckpoint :=
  { c with datasetVersionHash := h }

def Progress.setHash (h : String) (p : Progress ρ) : Progress ρ :=
  { p with ckpt := ExperimentEngine.setHash h p.ckpt }

def Phase.setHash (h : String) : Phase ρ → Phase ρ
  | .looping p => .looping (p.setHash h)
  | .saved p => .saved (p.setHash h)
  | .stopping p reason => .stopping (p.setHash h) reason
  | .stopped p => .stopped (p.setHash h)
  | phase => phase

/-- A state with another dataset hash recorded everywhere. -/
def State.setHash (h : String) (s : State ρ) : State ρ where
  disk := s.disk.map (ExperimentEngine.setHash h)
  cancelFlag := s.cancelFlag
  phase := s.phase.setHash h

def Turn.setHash (h : String) : Turn ρ → Turn ρ
  | .saved p => .saved (p.setHash h)
  | t => t

variable (e : ExperimentEngine ρ) {d : DatasetVersion}

/-! ## What reads the dataset -/

theorem asRunning_setHash (h : String) (c : ExperimentCheckpoint) :
    asRunning (setHash h c) = setHash h (asRunning c) := by
  unfold asRunning
  by_cases hrun : c.status = .running
  · have hrun' : (setHash h c).status = .running := hrun
    rw [if_pos hrun, if_pos hrun']
  · have hrun' : (setHash h c).status ≠ .running := hrun
    rw [if_neg hrun, if_neg hrun']
    rfl

theorem loadCheckpoint_setHash (hver : d.version = e.datasetVersion.version)
    (disk : Option ExperimentCheckpoint) :
    (e.replaceDataset d).loadCheckpoint (disk.map (setHash (d.hash e.datasetDigest))) =
      setHash (d.hash e.datasetDigest) (e.loadCheckpoint disk) := by
  cases disk with
  | none =>
      unfold loadCheckpoint freshCheckpoint setHash replaceDataset
      rw [hver]
      rfl
  | some c => exact asRunning_setHash _ c

theorem load_setHash (hid : d.datasetId = e.datasetVersion.datasetId)
    (hver : d.version = e.datasetVersion.version)
    (hsetup : (e.replaceDataset d).searchSetup = e.searchSetup)
    (disk : Option ExperimentCheckpoint) :
    (e.replaceDataset d).load (disk.map (setHash (d.hash e.datasetDigest))) =
      (e.load disk).map (Progress.setHash (d.hash e.datasetDigest)) := by
  have hsome : (disk.map (setHash (d.hash e.datasetDigest))).isSome = disk.isSome :=
    Option.isSome_map
  have hcheck : ∀ resuming c, (e.replaceDataset d).checkDataset resuming
      (setHash (d.hash e.datasetDigest) c) = e.checkDataset resuming c := by
    intro resuming c
    unfold checkDataset
    simp only [replaceDataset, hid, hver]
    rfl
  have hreplay : (e.replaceDataset d).replayStrategy = e.replayStrategy := rfl
  unfold load
  rw [loadCheckpoint_setHash e hver, hsome]
  dsimp only
  rw [hcheck, hreplay, hsetup]
  cases e.checkDataset disk.isSome (e.loadCheckpoint disk) with
  | error m => rfl
  | ok _ =>
      change (e.replayStrategy (e.loadCheckpoint disk).tellBatches >>= _) = _
      cases e.replayStrategy (e.loadCheckpoint disk).tellBatches with
      | error m => rfl
      | ok strategy => cases e.searchSetup <;> rfl

theorem deriveBatch_replaceDataset (generationIndex : ℕ) (points : List Point)
    (nextVersion : ℕ) :
    (e.replaceDataset d).deriveBatch generationIndex points nextVersion =
      e.deriveBatch generationIndex points nextVersion := by
  induction points generalizing nextVersion with
  | nil => rfl
  | cons point points ih =>
      rw [deriveBatch, deriveBatch, ih]
      rfl

theorem evaluateBatch_replaceDataset (setup : SearchSetup) (genomes : List SystemGenome)
    (best : Incumbent) (use : BudgetUse) :
    (e.replaceDataset d).evaluateBatch setup genomes best use =
      e.evaluateBatch setup genomes best use := by
  have hscore : (e.replaceDataset d).scoreCandidate = e.scoreCandidate := rfl
  induction genomes generalizing best use with
  | nil => rfl
  | cons genome genomes ih =>
      rw [evaluateBatch, evaluateBatch, hscore]
      simp only [ih]

/-- A generation reads the search setup, not the dataset. -/
theorem generation_replaceDataset (setup : SearchSetup) (strategy : SearchStrategy ρ)
    (best : Incumbent) (use : BudgetUse) (nextVersion generationIndex : ℕ) :
    (e.replaceDataset d).generation setup strategy best use nextVersion generationIndex =
      e.generation setup strategy best use nextVersion generationIndex := by
  unfold generation
  simp only [deriveBatch_replaceDataset, evaluateBatch_replaceDataset]
  rfl

/-- A turn of the loop reads no dataset at all. -/
theorem turn_setHash (h : String) (cancelFlag : Bool) (checked recorded : ℚ≥0)
    (p : Progress ρ) :
    (e.replaceDataset d).turn cancelFlag checked recorded (p.setHash h) =
      (e.turn cancelFlag checked recorded p).setHash h := by
  have hconfig : (e.replaceDataset d).config = e.config := rfl
  unfold turn
  simp only [generation_replaceDataset, hconfig, Progress.setHash]
  cases cancelFlag with
  | true => rfl
  | false =>
      simp only [Bool.false_eq_true, if_false]
      cases p.tracker.exhausted e.config.budget checked with
      | some reason => rfl
      | none =>
          dsimp only
          by_cases hmax : e.config.maxBatches ≤ p.generationIndex
          · rw [if_pos hmax, if_pos hmax]
            rfl
          · rw [if_neg hmax, if_neg hmax]
            cases e.generation p.setup p.strategy p.best p.tracker.use p.nextVersion
                p.generationIndex with
            | error m => rfl
            | ok r =>
                cases r with
                | none => rfl
                | some g => rfl

theorem searchSetup_replaceDataset (h : SameUpToHoldout e.datasetVersion d) :
    (e.replaceDataset d).searchSetup = e.searchSetup := by
  unfold searchSetup holdoutGuard HoldoutGuard.searchSet HoldoutGuard.validationSet
  simp only [replaceDataset, h.train, h.validation, h.datasetId, h.version]

theorem finalize_setHash (h : SameUpToHoldout e.datasetVersion d) (hash : String)
    (p : Progress ρ) (clock : ℚ≥0) :
    (e.replaceDataset d).finalize (p.setHash hash) clock = e.finalize p clock := by
  unfold finalize holdoutGuard HoldoutGuard.validationSet
  simp only [replaceDataset, h.validation, h.datasetId, h.version]
  rfl

/-- The lockstep of one action. -/
theorem step_replaceDataset (h : SameUpToHoldout e.datasetVersion d) (s : State ρ)
    (a : Action) :
    (e.replaceDataset d).step (s.setHash (d.hash e.datasetDigest)) a =
      (e.step s a).map (State.setHash (d.hash e.datasetDigest)) := by
  obtain ⟨disk, flag, phase⟩ := s
  have hload := load_setHash e h.datasetId h.version (searchSetup_replaceDataset e h) disk
  have hck := loadCheckpoint_setHash e h.version disk
  cases a with
  | start =>
      cases phase with
      | idle =>
          unfold step State.setHash
          simp only [Phase.setHash, hload, hck, Option.map_map, Option.map_some]
          cases hl : e.load disk <;> cases disk <;> rfl
      | _ => rfl
  | turn checked recorded =>
      cases phase with
      | looping p =>
          unfold step State.setHash
          simp only [Phase.setHash, turn_setHash]
          cases e.turn flag checked recorded p <;> rfl
      | _ => rfl
  | checkConvergence =>
      cases phase with
      | saved p =>
          unfold step State.setHash
          simp only [Phase.setHash, Progress.setHash]
          cases converged p.strategy p.best with
          | error m => rfl
          | ok r => cases r <;> rfl
      | _ => rfl
  | stop =>
      cases phase with
      | stopping p reason => rfl
      | _ => rfl
  | finalize clock =>
      cases phase with
      | stopped p =>
          unfold step State.setHash
          simp only [Phase.setHash, finalize_setHash e h]
          cases e.finalize p clock <;> rfl
      | _ => rfl
  | crash => rfl
  | cancel => rfl

/-- The lockstep of whole runs, from any state of the disk. -/
theorem run_replaceDataset (h : SameUpToHoldout e.datasetVersion d) (s : State ρ)
    (as : List Action) :
    run (e.replaceDataset d).step (s.setHash (d.hash e.datasetDigest)) as =
      (run e.step s as).map (State.setHash (d.hash e.datasetDigest)) :=
  run_map _ (step_replaceDataset e h) s as

/-! ## Other validation challenges -/

/-- Two results that report the same search: all that is not computed from the validation
    challenges. -/
structure SameSelection (r r' : ExperimentResult) : Prop where
  status : r'.status = r.status
  stopReason : r'.stopReason = r.stopReason
  generations : r'.generationsCompleted = r.generationsCompleted
  candidates : r'.candidatesEvaluated = r.candidatesEvaluated
  bestGenome : r'.bestGenome = r.bestGenome
  budget : r'.budgetUtilization = r.budgetUtilization
  fitness : r'.fitnessHistory = r.fitnessHistory
  feasible : r'.selectedFeasible = r.selectedFeasible

/-- Two processes at the same point of the same search. -/
inductive SamePhase (h : String) : Phase ρ → Phase ρ → Prop where
  | search (phase : Phase ρ) : SamePhase h phase (phase.setHash h)
  | raised (m m' : String) : SamePhase h (.raised m) (.raised m')
  | returned {r r' : ExperimentResult} (hr : SameSelection r r') :
      SamePhase h (.returned r) (.returned r')

/-- Two states at the same point of the same search: equal checkpoints up to the recorded
    hash, and equal phases up to the final comparison. -/
structure SameSearch (h : String) (s t : State ρ) : Prop where
  disk : t.disk = s.disk.map (setHash h)
  cancelFlag : t.cancelFlag = s.cancelFlag
  phase : SamePhase h s.phase t.phase

/-- The guard on the splits passes or fails alike; where it passes the setup is the same. -/
theorem searchSetup_sameTrain (h : SameTrain e.datasetVersion d)
    (hv : 2 ≤ e.holdoutGuard.validationSet.length)
    (hv' : 2 ≤ (e.replaceDataset d).holdoutGuard.validationSet.length) :
    (e.replaceDataset d).searchSetup = e.searchSetup ∨
      (∃ m, e.searchSetup = .error m) ∧ ∃ m, (e.replaceDataset d).searchSetup = .error m := by
  have htrain : (e.replaceDataset d).holdoutGuard.searchSet = e.holdoutGuard.searchSet :=
    h.train
  unfold searchSetup
  rw [htrain]
  by_cases hempty : e.holdoutGuard.searchSet.isEmpty = true
  · right
    simp only [hempty, Bool.true_or, if_true]
    exact ⟨⟨_, rfl⟩, _, rfl⟩
  · left
    have hlt : decide (e.holdoutGuard.validationSet.length < 2) = false :=
      decide_eq_false (by omega)
    have hlt' : decide ((e.replaceDataset d).holdoutGuard.validationSet.length < 2) =
        false :=
      decide_eq_false (by omega)
    simp only [hempty, hlt, hlt', Bool.or_false, Bool.false_eq_true, if_false]
    rfl

theorem finalize_sameSelection (hv : 2 ≤ e.holdoutGuard.validationSet.length)
    (hv' : 2 ≤ (e.replaceDataset d).holdoutGuard.validationSet.length) (hash : String)
    (p : Progress ρ) (clock : ℚ≥0) :
    ∃ r r', e.finalize p clock = .ok r ∧
      (e.replaceDataset d).finalize (p.setHash hash) clock = .ok r' ∧
      SameSelection r r' := by
  obtain ⟨r, hr⟩ := finalize_ok hv p clock
  obtain ⟨r', hr'⟩ := finalize_ok hv' (p.setHash hash) clock
  obtain ⟨-, h1, h2, h3, h4, h5, h6, h7, h8⟩ := finalize_result hr
  obtain ⟨-, h1', h2', h3', h4', h5', h6', h7', h8'⟩ := finalize_result hr'
  exact ⟨r, r', hr, hr', h1'.trans h1.symm, h2'.trans h2.symm, h3'.trans h3.symm,
    h4'.trans h4.symm, h5'.trans h5.symm, h6'.trans h6.symm, h7'.trans h7.symm,
    h8'.trans h8.symm⟩

/-- Without a search setup no process gets into its loop. -/
theorem load_error {e : ExperimentEngine ρ} {m : String} (h : e.searchSetup = .error m)
    (disk : Option ExperimentCheckpoint) : ∃ m', e.load disk = .error m' := by
  cases hl : e.load disk with
  | error m' => exact ⟨m', rfl⟩
  | ok p =>
      obtain ⟨-, -, hl⟩ := bind_eq_ok.mp hl
      obtain ⟨strategy, -, hl⟩ := bind_eq_ok.mp hl
      obtain ⟨setup, hsetup, -⟩ := bind_eq_ok.mp hl
      rw [h] at hsetup
      cases hsetup

theorem load_sameTrain (h : SameTrain e.datasetVersion d)
    (hv : 2 ≤ e.holdoutGuard.validationSet.length)
    (hv' : 2 ≤ (e.replaceDataset d).holdoutGuard.validationSet.length)
    (disk : Option ExperimentCheckpoint) :
    SamePhase (d.hash e.datasetDigest)
      (match e.load disk with
        | .ok p => .looping p
        | .error message => .raised message)
      (match (e.replaceDataset d).load (disk.map (setHash (d.hash e.datasetDigest))) with
        | .ok p => .looping p
        | .error message => .raised message) := by
  rcases searchSetup_sameTrain e h hv hv' with hset | ⟨⟨m, hm⟩, m', hm'⟩
  · rw [load_setHash e h.datasetId h.version hset]
    cases e.load disk with
    | ok p => exact .search (.looping p)
    | error m => exact .raised m m
  · obtain ⟨n, hn⟩ := load_error hm disk
    obtain ⟨n', hn'⟩ := load_error hm' (disk.map (setHash (d.hash e.datasetDigest)))
    rw [hn, hn']
    exact .raised n n'

/-- The lockstep of one action when the validation challenges differ. -/
theorem step_sameSearch (h : SameTrain e.datasetVersion d)
    (hv : 2 ≤ e.holdoutGuard.validationSet.length)
    (hv' : 2 ≤ (e.replaceDataset d).holdoutGuard.validationSet.length) (s t : State ρ)
    (a : Action) (hst : SameSearch (d.hash e.datasetDigest) s t) :
    Option.Rel (SameSearch (d.hash e.datasetDigest)) (e.step s a)
      ((e.replaceDataset d).step t a) := by
  obtain ⟨disk, flag, phase⟩ := s
  obtain ⟨disk', flag', phase'⟩ := t
  obtain ⟨hdisk, hflag, hphase⟩ := hst
  dsimp only at hdisk hflag hphase
  rw [hdisk, hflag]
  cases hphase with
  | raised m m' =>
      cases a with
      | crash => exact .some ⟨rfl, rfl, .search .idle⟩
      | cancel => exact .some ⟨rfl, rfl, .raised m m'⟩
      | _ => exact .none
  | returned hr =>
      cases a with
      | crash => exact .some ⟨rfl, rfl, .search .idle⟩
      | cancel => exact .some ⟨rfl, rfl, .returned hr⟩
      | _ => exact .none
  | search phase =>
      cases a with
      | crash => exact .some ⟨rfl, rfl, .search .idle⟩
      | cancel => exact .some ⟨rfl, rfl, .search phase⟩
      | start =>
          cases phase with
          | idle =>
              refine .some ⟨?_, rfl, load_sameTrain e h hv hv' disk⟩
              have hck := loadCheckpoint_setHash e h.version disk
              cases disk with
              | none => rfl
              | some c => exact congrArg some hck
          | _ => exact .none
      | turn checked recorded =>
          cases phase with
          | looping p =>
              unfold step
              simp only [Phase.setHash, turn_setHash]
              cases e.turn flag checked recorded p with
              | stop reason => exact .some ⟨rfl, rfl, .search (.stopping p reason)⟩
              | saved p' => exact .some ⟨rfl, rfl, .search (.saved p')⟩
              | raised m => exact .some ⟨rfl, rfl, .raised m m⟩
          | _ => exact .none
      | checkConvergence =>
          cases phase with
          | saved p =>
              unfold step
              simp only [Phase.setHash, Progress.setHash]
              cases converged p.strategy p.best with
              | error m => exact .some ⟨rfl, rfl, .raised m m⟩
              | ok r =>
                  cases r with
                  | some reason => exact .some ⟨rfl, rfl, .search (.stopping p reason)⟩
                  | none => exact .some ⟨rfl, rfl, .search (.looping p)⟩
          | _ => exact .none
      | stop =>
          cases phase with
          | stopping p reason => exact .some ⟨rfl, rfl, .search (.stopped _)⟩
          | _ => exact .none
      | finalize clock =>
          cases phase with
          | stopped p =>
              obtain ⟨r, r', hr, hr', hsel⟩ :=
                finalize_sameSelection e hv hv' (d.hash e.datasetDigest) p clock
              unfold step
              simp only [Phase.setHash, hr, hr']
              exact .some ⟨rfl, rfl, .returned hsel⟩
          | _ => exact .none

end ExperimentEngine

open ExperimentEngine

/-- **Holdout noninterference.** On two dataset versions with the same id, number and train
    challenges, and through any sequence of actions (turns, crashes, restarts, cancels):
    * if the validation challenges agree too, every state of the one run is the state of
      the other with only the recorded dataset hash replaced: checkpoint, phase and result
      are identical, whatever the holdouts are;
    * if both have at least two validation challenges, the two runs are at the same point
      of the same search: the checkpoints are identical up to the hash, and what a result
      says of the search (selected genome, fitness, stop reason, budget) is identical. -/
theorem holdout_noninterference {ρ : Type} (e : ExperimentEngine ρ) (d : DatasetVersion)
    (h : SameTrain e.datasetVersion d) (as : List Action) :
    (e.holdoutGuard.validationSet = (e.replaceDataset d).holdoutGuard.validationSet →
      run (e.replaceDataset d).step {} as =
        (run e.step {} as).map (State.setHash (d.hash e.datasetDigest))) ∧
    (2 ≤ e.holdoutGuard.validationSet.length →
      2 ≤ (e.replaceDataset d).holdoutGuard.validationSet.length →
      Option.Rel (SameSearch (d.hash e.datasetDigest)) (run e.step {} as)
        (run (e.replaceDataset d).step {} as)) := by
  constructor
  · intro hval
    exact run_replaceDataset e ⟨h, hval.symm⟩ {} as
  · intro hv hv'
    exact run_simulation (step_sameSearch e h hv hv') as ⟨rfl, rfl, .search .idle⟩

section Example

/-- Four rounds, the process dying after the first one. -/
def resumedOnce : List Action :=
  [.start, .turn 0 0, .crash, .start, .turn 0 0, .checkConvergence, .turn 0 0,
    .checkConvergence, .turn 0 0, .checkConvergence, .stop, .finalize 0]

/-- Two holdout challenges, one before and one after the train challenge. -/
def twoHoldouts : DatasetVersion :=
  exampleSplits [.holdout, .train, .holdout, .validation, .validation]

end Example

/-- The resumed run ends after its four generations, with the two holdouts as without. -/
theorem holdout_noninterference_two_holdouts :
    ((run exampleEngine.step {} resumedOnce).bind State.disk).map
      ExperimentCheckpoint.generationsCompleted = some 4 ∧
    run (exampleEngine.replaceDataset twoHoldouts).step {} resumedOnce =
      (run exampleEngine.step {} resumedOnce).map (State.setHash "app-dataset-5") ∧
    Option.Rel (SameSearch "app-dataset-5") (run exampleEngine.step {} resumedOnce)
      (run (exampleEngine.replaceDataset twoHoldouts).step {} resumedOnce) := by
  have h := holdout_noninterference exampleEngine twoHoldouts ⟨rfl, rfl, rfl⟩ resumedOnce
  have hhash : twoHoldouts.hash exampleEngine.datasetDigest = "app-dataset-5" := by
    decide
  rw [hhash] at h
  exact ⟨by decide +kernel, h.1 rfl, h.2 (by decide) (by decide)⟩

end NeuroForge
