/-
  `experiments/runner.py`: a stored experiment is run and its result stored.

  `startRun` is what the runner reads before the engine starts, `finishRun` and `markFailed`
  what it writes after. The engine comes in by what a result of it can be: `ResultOf`
  names the baseline and the dataset version it ran with and a best genome that is the
  baseline or a freshly derived candidate. `returned_resultOf` proves this of every result
  the engine returns, over any number of crashes and resumptions.
-/
import NeuroForge.Experiments.Engine
import NeuroForge.Lib.Transition
import NeuroForge.Promotion.Lifecycle

namespace NeuroForge

open Fallible Database

/-! ## What an engine can return -/

/-- The baseline itself, or a candidate no status has been given to yet. -/
def OwnGenome (baseline g : SystemGenome) : Prop :=
  g.systemId = baseline.systemId ∧ (g.content = baseline.content ∨ g.status = .generated)

instance (baseline g : SystemGenome) : Decidable (OwnGenome baseline g) :=
  inferInstanceAs (Decidable (_ ∧ (_ ∨ _)))

structure ResultOf (baseline : SystemGenome) (dataset : DatasetVersion)
    (result : ExperimentResult) : Prop where
  sameBaseline : result.baselineGenome = baseline
  datasetId : result.datasetId = dataset.datasetId
  datasetVersion : result.datasetVersion = dataset.version
  best : OwnGenome baseline result.bestGenome

instance (baseline : SystemGenome) (dataset : DatasetVersion) (result : ExperimentResult) :
    Decidable (ResultOf baseline dataset result) :=
  decidable_of_iff (result.baselineGenome = baseline ∧ result.datasetId = dataset.datasetId ∧
      result.datasetVersion = dataset.version ∧ OwnGenome baseline result.bestGenome)
    ⟨fun h => ⟨h.1, h.2.1, h.2.2.1, h.2.2.2⟩, fun h => ⟨h.1, h.2, h.3, h.4⟩⟩

namespace ExperimentEngine

variable {ρ : Type} {e : ExperimentEngine ρ}

theorem ownGenome_baseline : OwnGenome e.baselineGenome e.baselineGenome := ⟨rfl, .inl rfl⟩

theorem generation_own {setup : SearchSetup} {strategy strategy' : SearchStrategy ρ}
    {best best' : Incumbent} {use use' : BudgetUse} {version index : ℕ} {batch : TellBatch}
    (h : e.generation setup strategy best use version index =
      .ok (some (batch, strategy', best', use')))
    (hbest : OwnGenome e.baselineGenome best.genome) :
    OwnGenome e.baselineGenome best'.genome := by
  obtain ⟨asked, genomes, -, -, hgenomes, heval, -⟩ := generation_steps h
  rcases evaluateBatch_best heval with hsame | hmem
  · rw [hsame]
    exact hbest
  · obtain ⟨hsystem, hstatus⟩ := deriveBatch_new hgenomes _ hmem
    exact ⟨hsystem, .inr hstatus⟩

/-- The best genome of a checkpoint is the baseline's content or a candidate. -/
def OwnCheckpoint (baseline : SystemGenome) (c : ExperimentCheckpoint) : Prop :=
  ∀ g, c.bestGenome = some g → OwnGenome baseline g

structure OwnProgress (e : ExperimentEngine ρ) (p : Progress ρ) : Prop where
  ckpt : OwnCheckpoint e.baselineGenome p.ckpt
  best : OwnGenome e.baselineGenome p.best.genome

/-- Nothing a process holds or has saved is another experiment's genome. -/
structure OwnState (e : ExperimentEngine ρ) (s : State ρ) : Prop where
  disk : ∀ c, s.disk = some c → OwnCheckpoint e.baselineGenome c
  phase : match s.phase with
    | .idle | .raised _ => True
    | .looping p | .saved p | .stopping p _ | .stopped p => OwnProgress e p
    | .returned result => ResultOf e.baselineGenome e.datasetVersion result

theorem asRunning_bestGenome (c : ExperimentCheckpoint) :
    (asRunning c).bestGenome = c.bestGenome := by
  unfold asRunning
  split_ifs <;> rfl

theorem loadCheckpoint_own {disk : Option ExperimentCheckpoint}
    (h : ∀ c, disk = some c → OwnCheckpoint e.baselineGenome c) :
    OwnCheckpoint e.baselineGenome (e.loadCheckpoint disk) := by
  intro g hg
  rcases disk with _ | c
  · rw [← Option.some.inj hg]
    exact ownGenome_baseline
  · exact h c rfl g (by rw [← asRunning_bestGenome]; exact hg)

theorem load_own {disk : Option ExperimentCheckpoint} {p : Progress ρ}
    (h : ∀ c, disk = some c → OwnCheckpoint e.baselineGenome c)
    (hload : e.load disk = .ok p) : OwnProgress e p := by
  obtain ⟨hckpt, -, hbest, -, -⟩ := load_ok hload
  have hown := loadCheckpoint_own h
  rw [← hckpt] at hown hbest
  refine ⟨hown, ?_⟩
  rw [hbest]
  rcases hg : p.ckpt.bestGenome with _ | g
  · exact ownGenome_baseline
  · exact hown g hg

theorem turn_own {flag : Bool} {checked recorded : ℚ≥0} {p p' : Progress ρ}
    (h : OwnProgress e p) (hturn : e.turn flag checked recorded p = .saved p') :
    OwnProgress e p' := by
  obtain ⟨-, -, batch, hgen, -, -, hckpt⟩ := turn_saved hturn
  have hbest := generation_own hgen h.best
  refine ⟨fun g hg => ?_, hbest⟩
  rw [hckpt] at hg
  rw [← Option.some.inj hg]
  exact hbest

theorem finalize_own {p : Progress ρ} {clock : ℚ≥0} {result : ExperimentResult}
    (h : OwnProgress e p) (hfin : e.finalize p clock = .ok result) :
    ResultOf e.baselineGenome e.datasetVersion result := by
  obtain ⟨a, -, hfin⟩ := bind_eq_ok.mp hfin
  obtain ⟨b, -, hfin⟩ := bind_eq_ok.mp hfin
  obtain ⟨c, -, hfin⟩ := bind_eq_ok.mp hfin
  rw [pure_eq_ok] at hfin
  subst hfin
  exact ⟨rfl, rfl, rfl, h.best⟩

theorem step_own {s s' : State ρ} {a : Action} (h : OwnState e s)
    (hstep : e.step s a = some s') : OwnState e s' := by
  obtain ⟨hdisk, hphase⟩ := h
  have hsaved : ∀ {c : ExperimentCheckpoint}, OwnCheckpoint e.baselineGenome c →
      ∀ c', some c = some c' → OwnCheckpoint e.baselineGenome c' := by
    intro c hc c' hc'
    rw [← Option.some.inj hc']
    exact hc
  have hloaded : ∀ {disk : Option ExperimentCheckpoint},
      (∀ c, disk = some c → OwnCheckpoint e.baselineGenome c) →
      ∀ c, (disk.map fun _ => e.loadCheckpoint disk) = some c →
        OwnCheckpoint e.baselineGenome c := by
    intro disk hdisk c hc
    obtain ⟨_, -, rfl⟩ := Option.map_eq_some_iff.mp hc
    exact loadCheckpoint_own hdisk
  cases step_did hstep with
  | started hload => exact ⟨hloaded hdisk, load_own hdisk hload⟩
  | notStarted => exact ⟨hloaded hdisk, trivial⟩
  | saved hturn =>
      have hown := turn_own hphase hturn
      exact ⟨hsaved hown.ckpt, hown⟩
  | closed => exact ⟨hsaved hphase.ckpt, hphase.ckpt, hphase.best⟩
  | finalized hfinal => exact ⟨hdisk, finalize_own hphase hfinal⟩
  | leftLoop | wentOn | hasConverged | cancelled => exact ⟨hdisk, hphase⟩
  | turnRaised | checkRaised | finalizeRaised | crashed => exact ⟨hdisk, trivial⟩

/-- Whatever happens to the process, a result it returns is one of this experiment. -/
theorem returned_resultOf {s s' : State ρ} {actions : List Action} {result : ExperimentResult}
    (hdisk : ∀ c, s.disk = some c → OwnCheckpoint e.baselineGenome c) (hidle : s.phase = .idle)
    (hrun : Transition.run e.step s actions = some s') (hres : s'.phase = .returned result) :
    ResultOf e.baselineGenome e.datasetVersion result := by
  have hown : OwnState e s := ⟨hdisk, by rw [hidle]; trivial⟩
  have hown' := Transition.run_invariant (fun _ _ _ => step_own) hown hrun
  have hphase := hown'.phase
  rw [hres] at hphase
  exact hphase

end ExperimentEngine

/-! ## The runner -/

inductive RunnerError where
  | unknownExperiment (message : String)
  | runnerError (message : String)
  | engineError (message : String)
  deriving DecidableEq, Repr

/-- What a run has read before the engine starts. -/
structure RunInput where
  applicationId : String
  config : ExperimentConfig
  baseline : SystemGenome
  dataset : DatasetVersion

/-- The genome the search starts from: the one recorded, or the application's v1. -/
def baselineForRun (db : Database) (applicationId : String) (config : ExperimentConfig) :
    Option SystemGenome :=
  match nonEmpty config.baselineHash with
  | some hash => db.getGenome hash
  | none => (originalBaseline db applicationId).map (·.data)

/-- The latest version of the experiment's dataset, or the one its checkpoint started on. -/
def datasetForRun (db : Database) (applicationId : String) (config : ExperimentConfig)
    (checkpoint : Option ExperimentCheckpoint) : Option DatasetVersion :=
  let datasetId := (nonEmpty config.datasetId).getD (applicationId ++ "-dataset")
  let version := (checkpoint.map (·.datasetVersion)).getD 0
  if version ≠ 0 then db.getDatasetVersion datasetId version
  else db.latestDatasetVersion datasetId

def RunStatus.recorded : RunStatus → ExperimentStatus
  | .running => .running
  | .completed => .completed
  | .cancelled => .cancelled

/-- The first session of a run: its experiment, and the baseline and dataset it finds. -/
def loadRun (db : Database) (experimentId : String) : Except RunnerError ExperimentRecord :=
  match db.getExperiment experimentId with
  | some record => .ok record
  | none => .error (.unknownExperiment s!"unknown experiment '{experimentId}'")

def startRun (db : Database) (record : ExperimentRecord)
    (checkpoint : Option ExperimentCheckpoint) : Except RunnerError RunInput :=
  match baselineForRun db record.applicationId record.config,
      datasetForRun db record.applicationId record.config checkpoint with
  | some baseline, some dataset => .ok {
      applicationId := record.applicationId
      config := record.config
      baseline := baseline
      dataset := dataset }
  | _, _ => .error (.runnerError "experiment is missing its baseline genome or dataset")

def markExperiment (db : Database) (applicationId : String) (config : ExperimentConfig)
    (status : ExperimentStatus) : Database :=
  db.saveExperiment applicationId config none status

/-- The last session of a run: the best genome and the result are stored. -/
def finishRun (digest : GenomeDigest) (db : Database) (input : RunInput)
    (result : ExperimentResult) : Database :=
  (db.saveGenome digest result.bestGenome).saveExperiment input.applicationId input.config
    (some result) result.status.recorded

theorem startRun_ok {db : Database} {record : ExperimentRecord}
    {checkpoint : Option ExperimentCheckpoint} {input : RunInput}
    (h : startRun db record checkpoint = .ok input) :
    input.applicationId = record.applicationId ∧ input.config = record.config ∧
      baselineForRun db record.applicationId record.config = some input.baseline ∧
      datasetForRun db record.applicationId record.config checkpoint = some input.dataset := by
  unfold startRun at h
  split at h
  · rename_i baseline dataset hb hd
    rw [← Except.ok.inj h]
    exact ⟨rfl, rfl, hb, hd⟩
  · cases h

end NeuroForge
