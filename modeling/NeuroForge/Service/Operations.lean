/-
  `cli/main.py` and `experiments/runner.py`: everything that is done to the experiments of a
  platform, one operation after another.

  A request is served, a stored experiment is run, or it is resumed: `experiment_resume` sets
  its limits anew, unless the numbers of its candidates would clash, and then runs it, which
  is an operation of its own here. A run is the steps its process takes, as far as it comes:
  it may end with a crash, and the next run starts from the checkpoint on disk. So every
  moment of a run is the end of a shorter one.
-/
import NeuroForge.Experiments.Life
import NeuroForge.Service.Requests

namespace NeuroForge

open Fallible Database

variable {ρ : Type}

/-- What the processes of a platform run with. -/
structure Host (ρ : Type) where
  platform : Platform
  runtime : Runtime ρ
  datasetDigest : DatasetDigest
  timesOut : GenomeContent → List Challenge → Bool

/-- `ExperimentEngine(config, baseline, dataset, ..)` -/
def Host.setUp (host : Host ρ) (input : RunInput) : Except String (ExperimentEngine ρ) := do
  let evaluator ← host.platform.evaluator input.config.domainName input.config.providerName
  return {
    config := input.config
    baselineGenome := input.baseline
    datasetVersion := input.dataset
    evaluator := evaluator
    timesOut := host.timesOut
    runtime := host.runtime
    numpy := host.platform.numpy
    genomeDigest := host.platform.genomeDigest
    datasetDigest := host.datasetDigest }

/-- The database and the checkpoint of every experiment. For the statements only, the
    candidates of every experiment's saved generations are kept. -/
structure World where
  db : Database := {}
  disk : String → Option ExperimentCheckpoint := fun _ => none
  recorded : String → List SystemGenome := fun _ => []

/-- What a process leaves in the database, where it has come to. -/
def afterRun (digest : GenomeDigest) (db : Database) (input : RunInput) :
    ExperimentEngine.Phase ρ → Database
  | .returned result => finishRun digest db input result
  | .raised _ => markExperiment db input.applicationId input.config .failed
  | _ => db

/-- `run_recorded_experiment` -/
def runRecorded (host : Host ρ) (w : World) (experimentId : String)
    (actions : List ExperimentEngine.Action) : Option World :=
  match loadRun w.db experimentId with
  | .error _ => some w
  | .ok record =>
      match startRun w.db record (w.disk experimentId) with
      | .error _ => some
          { w with db := markExperiment w.db record.applicationId record.config .failed }
      | .ok input =>
          match host.setUp input with
          | .error _ => some
              { w with db := markExperiment w.db input.applicationId input.config .failed }
          | .ok engine =>
              (Transition.run Life.next
                ⟨engine, { disk := w.disk experimentId }, w.recorded experimentId⟩
                (actions.map .act)).map fun l =>
                  { db := afterRun host.platform.genomeDigest
                      (markExperiment w.db input.applicationId input.config .running) input
                      l.state.phase
                    disk := Function.update w.disk experimentId l.state.disk
                    recorded := Function.update w.recorded experimentId l.recorded }

/-- The configuration `experiment_resume` saves; the batches are rounded up. -/
def resumedConfig (config : ExperimentConfig) (ckpt : Option ExperimentCheckpoint)
    (extraCandidates : ℕ) (hextra : 1 ≤ extraCandidates) : ExperimentConfig :=
  config.withLimits (recordedCandidates ckpt + extraCandidates)
    (hextra.trans (Nat.le_add_left _ _))
    (recordedGenerations ckpt + (extraCandidates + (config.batchSize - 1)) / config.batchSize)

/-- The experiment whose numbers a resumed one would reuse. -/
def resumeClash (db : Database) (record : ExperimentRecord) (config : ExperimentConfig) :
    Option String :=
  match config.firstCandidateVersion with
  | some first => db.candidateVersionClash record.experimentId record.applicationId first
      config.budget.maxCandidates
  | none => none

/-- `experiment_resume`, up to the run. -/
def resumeExperiment (w : World) (experimentId : String) (extraCandidates : ℕ)
    (hextra : 1 ≤ extraCandidates) : World :=
  match w.db.getExperiment experimentId with
  | none => w
  | some record =>
      let config := resumedConfig record.config (w.disk experimentId) extraCandidates hextra
      match resumeClash w.db record config with
      | some _ => w
      | none => { w with db := markExperiment w.db record.applicationId config .running }

inductive Operation where
  /-- a request other than a run -/
  | serve (t : Timed)
  | run (experimentId : String) (actions : List ExperimentEngine.Action)
  | resume (experimentId : String) (extraCandidates : ℕ)

def operate (host : Host ρ) (w : World) : Operation → Option World
  | .serve t =>
      match t.request with
      | .runExperiment _ _ _ => none
      | _ => some { w with db := (serve host.platform w.db t).2 }
  | .run experimentId actions => runRecorded host w experimentId actions
  | .resume experimentId extraCandidates =>
      if hextra : 1 ≤ extraCandidates then
        some (resumeExperiment w experimentId extraCandidates hextra)
      else none

/-- What an operation does to the world, case by case. -/
inductive Operated (host : Host ρ) (w : World) : Operation → World → Prop
  | served {t : Timed}
      (hrequest : ∀ id checkpoint answer, t.request ≠ .runExperiment id checkpoint answer) :
      Operated host w (.serve t) { w with db := (serve host.platform w.db t).2 }
  /-- nothing to run or to resume, or numbers that clash -/
  | refused (operation : Operation) : Operated host w operation w
  /-- a run that does not come to its engine -/
  | failed {experimentId : String} {actions : List ExperimentEngine.Action}
      {record : ExperimentRecord} (hload : loadRun w.db experimentId = .ok record) :
      Operated host w (.run experimentId actions)
        { w with db := markExperiment w.db record.applicationId record.config .failed }
  | ran {experimentId : String} {actions : List ExperimentEngine.Action}
      {record : ExperimentRecord} {input : RunInput} {engine : ExperimentEngine ρ} {l : Life ρ}
      (hload : loadRun w.db experimentId = .ok record)
      (hstart : startRun w.db record (w.disk experimentId) = .ok input)
      (hsetUp : host.setUp input = .ok engine)
      (hacts : Transition.run Life.next
        ⟨engine, { disk := w.disk experimentId }, w.recorded experimentId⟩
        (actions.map .act) = some l) :
      Operated host w (.run experimentId actions)
        { db := afterRun host.platform.genomeDigest
            (markExperiment w.db input.applicationId input.config .running) input l.state.phase
          disk := Function.update w.disk experimentId l.state.disk
          recorded := Function.update w.recorded experimentId l.recorded }
  | resumed {experimentId : String} {extraCandidates : ℕ} {record : ExperimentRecord}
      {config : ExperimentConfig} (hextra : 1 ≤ extraCandidates)
      (hget : w.db.getExperiment experimentId = some record)
      (hconfig : config =
        resumedConfig record.config (w.disk experimentId) extraCandidates hextra)
      (hclash : resumeClash w.db record config = none) :
      Operated host w (.resume experimentId extraCandidates)
        { w with db := markExperiment w.db record.applicationId config .running }

theorem operate_did {host : Host ρ} {w w' : World} {operation : Operation}
    (h : operate host w operation = some w') : Operated host w operation w' := by
  cases operation with
  | serve t =>
      unfold operate at h
      dsimp only at h
      split at h
      · cases h
      · rename_i hrequest
        rw [← Option.some.inj h]
        exact .served hrequest
  | run experimentId actions =>
      change runRecorded host w experimentId actions = some w' at h
      unfold runRecorded at h
      split at h
      · rw [← Option.some.inj h]
        exact .refused _
      · rename_i record hload
        split at h
        · rw [← Option.some.inj h]
          exact .failed hload
        · rename_i input hstart
          split at h
          · obtain ⟨hid, hconfig, -⟩ := startRun_ok hstart
            rw [← Option.some.inj h, hid, hconfig]
            exact .failed hload
          · rename_i engine hsetUp
            obtain ⟨l, hacts, rfl⟩ := Option.map_eq_some_iff.mp h
            exact .ran hload hstart hsetUp hacts
  | resume experimentId extraCandidates =>
      unfold operate at h
      dsimp only at h
      split_ifs at h with hextra
      rw [← Option.some.inj h]
      unfold resumeExperiment
      split
      · exact .refused _
      · rename_i record hget
        dsimp only
        split
        · exact .refused _
        · rename_i hclash
          exact .resumed hextra hget rfl hclash

end NeuroForge
