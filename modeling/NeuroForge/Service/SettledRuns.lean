/-
  `experiments/runner.py`: what a run leaves in its row when one of its steps raises.

  A run reads what is stored, sets the engine up, runs it and stores the result, and each of
  these can raise. `mark_failed` is defined when the first session is over, and it is called
  for an `Exception` only. So a stored configuration, genome, dataset or checkpoint that
  cannot be read ends the run with the row as it was; so does an interrupt, and one that
  comes during the search, or a cancel flag that cannot be removed, leaves the row as
  running. The last session is not guarded at all: it fails where another process stores the
  best genome between its look-up and its commit, and the row stays running.
  `run_settles_its_row_iff` is the condition under which none of this shows.

  The typed rows of `Database` are what a read gives where it succeeds; what it raises
  otherwise is an input (`Incidents`).
-/
import NeuroForge.Experiments.Refusals
import NeuroForge.Service.Requests
import NeuroForge.Service.WellFormed

namespace NeuroForge

open Fallible Database

/-! ## What can raise -/

/-- What a step raises: an `Exception`, or what is none, as an interrupt from the keyboard. -/
inductive Fault (ε : Type) where
  | exception (error : ε)
  | interrupt
  deriving DecidableEq

/-- What a run ends with if it does not return. -/
inductive Raised where
  | unknownExperiment (message : String)
  | runnerError (message : String)
  | engine (error : RunError)
  | other (message : String)
  | interrupt
  deriving DecidableEq

def Fault.raised : Fault String → Raised
  | .exception message => .other message
  | .interrupt => .interrupt

def RunnerError.raised : RunnerError → Raised
  | .unknownExperiment message => .unknownExperiment message
  | .runnerError message => .runnerError message
  | .engineError message => .other message

/-- `UnknownExperiment` or `ExperimentAlreadyRunning` -/
def Raised.declines : Raised → Bool
  | .unknownExperiment _ => true
  | .engine (.experimentAlreadyRunning _) => true
  | _ => false

/-- What the steps of a run raise, if anything: validating the stored configuration, the
    stored genome and the stored dataset, building the engine, removing the cancel flag and
    validating the best genome of the result; and the rows of genomes that other processes
    commit while the last session is open. -/
structure Incidents where
  config : Option (Fault String) := none
  baseline : Option (Fault String) := none
  dataset : Option (Fault String) := none
  setUp : Option (Fault String) := none
  unlink : Option (Fault String) := none
  bestGenome : Option (Fault String) := none
  rivals : List GenomeRecord := []

/-- The checkpoint's file: there may be none, and it may not be one that can be read. -/
abbrev CheckpointFile := Option (Except (Fault String) ExperimentCheckpoint)

/-- A result of a search that is over. -/
abbrev FinishedResult := { result : ExperimentResult // result.status ≠ .running }

/-! ## The runner, with everything that raises -/

/-- `ExperimentCheckpoint.load_or_none` -/
def loadOrNone : CheckpointFile → Except Raised (Option ExperimentCheckpoint)
  | none => .ok none
  | some (.ok ckpt) => .ok (some ckpt)
  | some (.error fault) => .error fault.raised

/-- A stored value is validated, if there is one. -/
def validated {α : Type} (fault : Option (Fault String)) (found : Option α) :
    Except Raised Unit :=
  match found, fault with
  | some _, some fault => .error fault.raised
  | _, _ => .ok ()

/-- The first session. -/
def openSession (db : Database) (experimentId : String) (file : CheckpointFile)
    (x : Incidents) : Except Raised (ExperimentRecord × Option ExperimentCheckpoint) := do
  let record ← (loadRun db experimentId).mapError RunnerError.raised
  validated x.config (some record.config)
  validated x.baseline (baselineForRun db record.applicationId record.config)
  let checkpoint ← loadOrNone file
  validated x.dataset (datasetForRun db record.applicationId record.config checkpoint)
  return (record, checkpoint)

/-- `finally: cancel_flag.unlink(..)`, after an exception: its own takes the other's place. -/
def unlinkAfter (x : Incidents) (raised : Raised) : Raised :=
  (x.unlink.map Fault.raised).getD raised

/-- Another process commits the genome between the last session's look-up and its commit. -/
def StoredMeanwhile (digest : GenomeDigest) (db : Database) (rivals : List GenomeRecord)
    (genome : SystemGenome) : Prop :=
  db.getGenomeRecord (genome.hash digest) = none ∧ ∃ r ∈ rivals, r.hash = genome.hash digest

instance (digest : GenomeDigest) (db : Database) (rivals : List GenomeRecord)
    (genome : SystemGenome) : Decidable (StoredMeanwhile digest db rivals genome) :=
  inferInstanceAs (Decidable (_ ∧ _))

/-- The last session: the hash is the primary key of the genomes, so a second insert of it
    fails at the commit and takes the result with it. -/
def lastSession (digest : GenomeDigest) (db : Database) (input : RunInput)
    (result : ExperimentResult) (rivals : List GenomeRecord) :
    Except Raised ExperimentResult × Database :=
  let stored := { db with genomes := db.genomes ++ rivals }
  if StoredMeanwhile digest db rivals result.bestGenome then
    (.error (.other "UNIQUE constraint failed: system_genomes.hash"), stored)
  else (.ok result, finishRun digest stored input result)

/-- The engine is run and its result stored, in a database that says it is running. -/
def runEngine (digest : GenomeDigest) (db : Database) (input : RunInput) (x : Incidents)
    (answer : Except (Fault RunError) FinishedResult) :
    Except Raised ExperimentResult × Database :=
  let failed := markExperiment db input.applicationId input.config .failed
  match answer with
  | .error (.exception (.experimentAlreadyRunning message)) =>
      (.error (unlinkAfter x (.engine (.experimentAlreadyRunning message))), db)
  | .error (.exception (.datasetTooSmall message)) =>
      (.error (unlinkAfter x (.runnerError message)), failed)
  | .error (.exception error) => (.error (unlinkAfter x (.engine error)), failed)
  | .error .interrupt => (.error (unlinkAfter x .interrupt), db)
  | .ok result =>
      match x.unlink, x.bestGenome with
      | some fault, _ => (.error fault.raised, db)
      | none, some fault => (.error fault.raised, db)
      | none, none => lastSession digest db input result x.rivals

/-- `run_recorded_experiment` -/
def runRecordedExperiment (digest : GenomeDigest) (db : Database) (experimentId : String)
    (file : CheckpointFile) (x : Incidents) (answer : Except (Fault RunError) FinishedResult) :
    Except Raised ExperimentResult × Database :=
  match openSession db experimentId file x with
  | .error error => (.error error, db)
  | .ok (record, checkpoint) =>
      match startRun db record checkpoint with
      | .error error =>
          (.error error.raised, markExperiment db record.applicationId record.config .failed)
      | .ok input =>
          match x.setUp with
          | some (.exception message) =>
              (.error (.other message), markExperiment db input.applicationId input.config .failed)
          | some .interrupt => (.error .interrupt, db)
          | none =>
              runEngine digest (markExperiment db input.applicationId input.config .running)
                input x answer

/-! ## Rows -/

def experimentStatus (db : Database) (experimentId : String) : Option ExperimentStatus :=
  (db.getExperiment experimentId).map (·.status)

theorem experimentStatus_saveExperiment (db : Database) (applicationId : String)
    (config : ExperimentConfig) (result : Option ExperimentResult) (status : ExperimentStatus) :
    experimentStatus (db.saveExperiment applicationId config result status)
      config.experimentId = some status := by
  unfold experimentStatus
  rw [getExperiment_saveExperiment, if_pos rfl]
  unfold savedExperiment
  split <;> rfl

theorem experimentStatus_mark (db : Database) (applicationId : String)
    (config : ExperimentConfig) (status : ExperimentStatus) :
    experimentStatus (markExperiment db applicationId config status) config.experimentId =
      some status :=
  experimentStatus_saveExperiment ..

theorem experimentStatus_finishRun (digest : GenomeDigest) (db : Database) (input : RunInput)
    (result : ExperimentResult) :
    experimentStatus (finishRun digest db input result) input.config.experimentId =
      some result.status.recorded :=
  experimentStatus_saveExperiment ..

theorem lastSession_nil (digest : GenomeDigest) (db : Database) (input : RunInput)
    (result : ExperimentResult) :
    lastSession digest db input result [] = (.ok result, finishRun digest db input result) := by
  unfold lastSession StoredMeanwhile
  simp

@[simp] theorem storedMeanwhile_mark (digest : GenomeDigest) (db : Database)
    (applicationId : String) (config : ExperimentConfig) (status : ExperimentStatus)
    (rivals : List GenomeRecord) (genome : SystemGenome) :
    StoredMeanwhile digest (markExperiment db applicationId config status) rivals genome ↔
      StoredMeanwhile digest db rivals genome := by
  unfold StoredMeanwhile getGenomeRecord
  rw [markExperiment, genomes_saveExperiment]

/-- The row is settled: a run that returns leaves the status of its result, of a search that
    is over, and one that raises leaves `failed`, unless it declines to run. -/
def Settles (experimentId : String) (outcome : Except Raised ExperimentResult × Database) :
    Prop :=
  match outcome.1 with
  | .ok result => experimentStatus outcome.2 experimentId = some result.status.recorded ∧
      result.status ≠ .running
  | .error raised => raised.declines = false →
      experimentStatus outcome.2 experimentId = some .failed

theorem settles_ok {experimentId : String} {result : ExperimentResult} {db : Database} :
    Settles experimentId (.ok result, db) ↔
      experimentStatus db experimentId = some result.status.recorded ∧
        result.status ≠ .running := Iff.rfl

theorem settles_error {experimentId : String} {raised : Raised} {db : Database} :
    Settles experimentId (.error raised, db) ↔ (raised.declines = false →
      experimentStatus db experimentId = some .failed) := Iff.rfl

@[simp] theorem declines_raised (fault : Fault String) : fault.raised.declines = false := by
  cases fault <;> rfl

/-! ## The first session -/

/-- What the first session reads can be read. -/
structure ReadsStored (db : Database) (record : ExperimentRecord) (file : CheckpointFile)
    (x : Incidents) (checkpoint : Option ExperimentCheckpoint) : Prop where
  config : x.config = none
  baseline : baselineForRun db record.applicationId record.config = none ∨ x.baseline = none
  file : loadOrNone file = .ok checkpoint
  dataset : datasetForRun db record.applicationId record.config checkpoint = none ∨
    x.dataset = none

section FirstSession

variable {db : Database} {experimentId : String} {record : ExperimentRecord}
  {file : CheckpointFile} {x : Incidents}

theorem validated_eq_ok {α : Type} {fault : Option (Fault String)} {found : Option α} :
    validated fault found = .ok () ↔ found = none ∨ fault = none := by
  cases found <;> cases fault <;> simp [validated]

theorem validated_declines {α : Type} {fault : Option (Fault String)} {found : Option α}
    {raised : Raised} (h : validated fault found = .error raised) : raised.declines = false := by
  unfold validated at h
  split at h
  · rename_i f
    rw [← Except.error.inj h]
    exact declines_raised f
  · cases h

theorem loadOrNone_declines {raised : Raised} (h : loadOrNone file = .error raised) :
    raised.declines = false := by
  unfold loadOrNone at h
  split at h
  · cases h
  · cases h
  · rename_i f
    rw [← Except.error.inj h]
    exact declines_raised f

theorem loadRun_of_get (h : db.getExperiment experimentId = some record) :
    loadRun db experimentId = .ok record := by
  unfold loadRun
  rw [h]

theorem openSession_ok (hrecord : db.getExperiment experimentId = some record)
    {record' : ExperimentRecord} {checkpoint : Option ExperimentCheckpoint}
    (h : openSession db experimentId file x = .ok (record', checkpoint)) :
    record' = record ∧ ReadsStored db record file x checkpoint := by
  unfold openSession at h
  rw [loadRun_of_get hrecord] at h
  obtain ⟨found, hfound, h⟩ := bind_eq_ok.mp h
  obtain rfl := Except.ok.inj hfound
  obtain ⟨_, hconfig, h⟩ := bind_eq_ok.mp h
  obtain ⟨_, hbaseline, h⟩ := bind_eq_ok.mp h
  obtain ⟨ckpt, hfile, h⟩ := bind_eq_ok.mp h
  obtain ⟨_, hdataset, h⟩ := bind_eq_ok.mp h
  cases h
  refine ⟨rfl, ?_, validated_eq_ok.mp hbaseline, hfile, validated_eq_ok.mp hdataset⟩
  rcases validated_eq_ok.mp hconfig with hnone | hnone
  · cases hnone
  · exact hnone

/-- Whatever the first session raises, it is not that there is nothing to run. -/
theorem openSession_error (hrecord : db.getExperiment experimentId = some record)
    {raised : Raised} (h : openSession db experimentId file x = .error raised) :
    raised.declines = false ∧ ∀ checkpoint, ¬ ReadsStored db record file x checkpoint := by
  unfold openSession at h
  rw [loadRun_of_get hrecord] at h
  rcases bind_eq_error.mp h with h | ⟨found, hfound, h⟩
  · cases h
  obtain rfl := Except.ok.inj hfound
  rcases bind_eq_error.mp h with h | ⟨_, -, h⟩
  · refine ⟨validated_declines h, fun checkpoint hreads => ?_⟩
    rw [validated_eq_ok.mpr (.inr hreads.config)] at h
    cases h
  rcases bind_eq_error.mp h with h | ⟨_, -, h⟩
  · refine ⟨validated_declines h, fun checkpoint hreads => ?_⟩
    rw [validated_eq_ok.mpr hreads.baseline] at h
    cases h
  rcases bind_eq_error.mp h with h | ⟨ckpt, hfile, h⟩
  · refine ⟨loadOrNone_declines h, fun checkpoint hreads => ?_⟩
    rw [hreads.file] at h
    cases h
  rcases bind_eq_error.mp h with h | ⟨_, -, h⟩
  · refine ⟨validated_declines h, fun checkpoint hreads => ?_⟩
    obtain rfl : ckpt = checkpoint := Except.ok.inj (hfile.symm.trans hreads.file)
    rw [validated_eq_ok.mpr hreads.dataset] at h
    cases h
  · cases h

end FirstSession

/-! ## The runs of the other modules -/

/-- Nothing raises but the search. -/
theorem runRecordedExperiment_served (p : Platform) {db : Database} {experimentId : String}
    {record : ExperimentRecord} (hget : db.getExperiment experimentId = some record)
    (checkpoint : Option ExperimentCheckpoint) (answer : Except RunError FinishedResult)
    (hfree : ∀ message, answer ≠ .error (.experimentAlreadyRunning message)) :
    (runRecordedExperiment p.genomeDigest db experimentId (checkpoint.map .ok) {}
      (answer.mapError .exception)).2 =
    (serveRun p db experimentId checkpoint
      ((answer.mapError RunError.message).map (·.1))).2 := by
  have hopen : openSession db experimentId (checkpoint.map .ok) {} = .ok (record, checkpoint) := by
    have hfile : loadOrNone (checkpoint.map .ok) = .ok checkpoint := by
      cases checkpoint <;> rfl
    have hread : ∀ {α : Type} (found : Option α), validated none found = .ok () :=
      fun _ => validated_eq_ok.mpr (.inr rfl)
    unfold openSession
    rw [loadRun_of_get hget]
    simp only [Except.mapError, ok_bind, hread, hfile]
    rfl
  unfold runRecordedExperiment serveRun
  rw [hopen, loadRun_of_get hget]
  dsimp only
  cases hstart : startRun db record checkpoint with
  | error error => rfl
  | ok input =>
      cases answer with
      | ok result => exact congrArg Prod.snd (lastSession_nil ..)
      | error error =>
          cases error with
          | experimentAlreadyRunning message => exact absurd rfl (hfree message)
          | _ => exact markExperiment_again ..

namespace ExperimentEngine

variable {ρ : Type} {e : ExperimentEngine ρ}

/-- A process that has stopped, or has returned, is done with its search. -/
def Phase.Finished : Phase ρ → Prop
  | .stopped p => p.ckpt.status ≠ .running
  | .returned result => result.status ≠ .running
  | _ => True

theorem step_finished {s s' : State ρ} {a : Action} (h : s.phase.Finished)
    (hstep : e.step s a = some s') : s'.phase.Finished := by
  cases step_did hstep with
  | closed =>
      unfold Phase.Finished closeCheckpoint
      dsimp only
      split_ifs <;> decide
  | finalized hfinal =>
      obtain ⟨-, hstatus, -⟩ := finalize_result hfinal
      show _ ≠ _
      rw [hstatus]
      exact h
  | cancelled => exact h
  | _ => trivial

/-- What a search returns is a `FinishedResult`. -/
theorem returned_finished {disk : Option ExperimentCheckpoint} {flag : Bool}
    {actions : List Action} {s : State ρ} {result : ExperimentResult}
    (hrun : Transition.run e.step ⟨disk, flag, .idle⟩ actions = some s)
    (hreturned : s.phase = .returned result) : result.status ≠ .running := by
  have hidle : (State.phase ⟨disk, flag, .idle⟩ : Phase ρ).Finished := trivial
  have hfinished : s.phase.Finished :=
    Transition.run_invariant (fun _ _ _ h hstep => step_finished h hstep) hidle hrun
  rw [hreturned] at hfinished
  exact hfinished

end ExperimentEngine

/-! ## The whole run -/

/-- The runner marks the experiment as failed for what the engine raises. -/
def marksFailed : Except (Fault RunError) FinishedResult → Bool
  | .error (.exception (.experimentAlreadyRunning _)) => false
  | .error (.exception _) => true
  | _ => false

/-- Everything there is can be read, and nothing is missing. -/
def ReadyToSearch (db : Database) (record : ExperimentRecord) (file : CheckpointFile)
    (x : Incidents) : Prop :=
  ∃ checkpoint input, ReadsStored db record file x checkpoint ∧
    startRun db record checkpoint = .ok input

/-- No step raises where nothing marks the row: while the stored data are read or the engine
    is built, unless the row says `failed` already; as an interrupt of the search; or after
    the search, unless it has failed. And nobody else stores the best genome while the last
    session is about to. -/
structure Handled (digest : GenomeDigest) (db : Database) (record : ExperimentRecord)
    (file : CheckpointFile) (x : Incidents)
    (answer : Except (Fault RunError) FinishedResult) : Prop where
  reading : (∀ checkpoint, ¬ ReadsStored db record file x checkpoint) → record.status = .failed
  setUp : ReadyToSearch db record file x → x.setUp = some .interrupt → record.status = .failed
  search : ReadyToSearch db record file x → x.setUp = none → answer ≠ .error .interrupt
  unlink : ReadyToSearch db record file x → x.setUp = none → x.unlink ≠ none →
    marksFailed answer = true
  result : ReadyToSearch db record file x → x.setUp = none →
    ∀ result : FinishedResult, answer = .ok result → x.bestGenome = none ∧
      ¬ StoredMeanwhile digest db x.rivals result.1.bestGenome

section Runs

variable {digest : GenomeDigest} {db : Database} {experimentId : String}
  {record : ExperimentRecord} {file : CheckpointFile} {x : Incidents}
  {answer : Except (Fault RunError) FinishedResult}

/-- A search whose row says `running`. -/
theorem runEngine_settles_iff {input : RunInput}
    (hrunning : experimentStatus db input.config.experimentId = some .running) :
    Settles input.config.experimentId (runEngine digest db input x answer) ↔
      answer ≠ .error .interrupt ∧ (x.unlink ≠ none → marksFailed answer = true) ∧
        ∀ result : FinishedResult, answer = .ok result → x.bestGenome = none ∧
          ¬ StoredMeanwhile digest db x.rivals result.1.bestGenome := by
  have hfailed := experimentStatus_mark db input.applicationId input.config .failed
  have hunlink : ∀ fault, x.unlink = some fault → ∀ raised,
      (unlinkAfter x raised).declines = false := by
    intro fault hfault raised
    rw [unlinkAfter, hfault]
    exact declines_raised fault
  unfold runEngine
  dsimp only
  split
  · rename_i message
    rw [settles_error, hrunning]
    cases hx : x.unlink with
    | none => simp [unlinkAfter, hx, Raised.declines]
    | some fault => simp [hunlink fault hx, marksFailed]
  · rw [settles_error, hfailed]
    simp [marksFailed]
  · rename_i error hother _
    rw [settles_error, hfailed]
    cases error with
    | experimentAlreadyRunning message => exact absurd rfl (hother message)
    | _ => simp [marksFailed]
  · rw [settles_error, hrunning]
    cases hx : x.unlink with
    | none => simp [unlinkAfter, hx, Raised.declines]
    | some fault => simp [hunlink fault hx]
  · rename_i result
    cases hx : x.unlink with
    | some fault =>
        dsimp only
        rw [settles_error, hrunning]
        simp [marksFailed]
    | none =>
        cases hbest : x.bestGenome with
        | some fault =>
            dsimp only
            rw [settles_error, hrunning]
            simp
        | none =>
            dsimp only
            unfold lastSession
            dsimp only
            split_ifs with hstored
            · rw [settles_error]
              have hsame : experimentStatus { db with genomes := db.genomes ++ x.rivals }
                  input.config.experimentId = some .running := hrunning
              rw [hsame]
              simp [Raised.declines, hstored]
            · rw [settles_ok, experimentStatus_finishRun]
              simp [result.2, hstored]

/-- What can be read is read one way only. -/
theorem ReadsStored.unique {checkpoint checkpoint' : Option ExperimentCheckpoint}
    (h : ReadsStored db record file x checkpoint) (h' : ReadsStored db record file x checkpoint') :
    checkpoint = checkpoint' := Except.ok.inj (h.file.symm.trans h'.file)

theorem handled_of_unread (h : ∀ checkpoint, ¬ ReadsStored db record file x checkpoint) :
    Handled digest db record file x answer ↔ record.status = .failed := by
  have hnot : ¬ ReadyToSearch db record file x :=
    fun ⟨checkpoint, _, hreads, _⟩ => h checkpoint hreads
  exact ⟨fun hhandled => hhandled.reading h, fun hfailed =>
    ⟨fun _ => hfailed, fun _ _ => hfailed, fun hready => absurd hready hnot,
      fun hready => absurd hready hnot, fun hready => absurd hready hnot⟩⟩

theorem handled_of_missing {checkpoint : Option ExperimentCheckpoint} {error : RunnerError}
    (hreads : ReadsStored db record file x checkpoint)
    (hstart : startRun db record checkpoint = .error error) :
    Handled digest db record file x answer := by
  have hnot : ¬ ReadyToSearch db record file x := by
    rintro ⟨checkpoint', input, hreads', hok⟩
    obtain rfl := hreads.unique hreads'
    rw [hstart] at hok
    cases hok
  exact ⟨fun hunread => absurd hreads (hunread checkpoint), fun hready => absurd hready hnot,
    fun hready => absurd hready hnot, fun hready => absurd hready hnot,
    fun hready => absurd hready hnot⟩

theorem handled_of_ready (hready : ReadyToSearch db record file x) :
    Handled digest db record file x answer ↔
      (x.setUp = some .interrupt → record.status = .failed) ∧
      (x.setUp = none → answer ≠ .error .interrupt ∧
        (x.unlink ≠ none → marksFailed answer = true) ∧
        ∀ result : FinishedResult, answer = .ok result → x.bestGenome = none ∧
          ¬ StoredMeanwhile digest db x.rivals result.1.bestGenome) := by
  constructor
  · intro h
    exact ⟨h.setUp hready, fun hnone =>
      ⟨h.search hready hnone, h.unlink hready hnone, h.result hready hnone⟩⟩
  · rintro ⟨hinterrupt, hnone⟩
    obtain ⟨checkpoint, input, hreads, -⟩ := hready
    exact ⟨fun hunread => absurd hreads (hunread checkpoint), fun _ => hinterrupt,
      fun _ h => (hnone h).1, fun _ h => (hnone h).2.1, fun _ h => (hnone h).2.2⟩

end Runs

section Example

/-- `exp-1`, enqueued. -/
def enqueuedExample : Database :=
  let db := (serve examplePlatform {} ⟨1, exampleCreate exp1 "original" 1 usualFloor⟩).2
  { db with experiments := db.experiments.map fun r => { r with status := .queued } }

/-- A file that is no JSON. -/
def brokenCheckpoint : CheckpointFile :=
  some (.error (.exception "Expecting value: line 1 column 1 (char 0)"))

def exampleAnswer : Except (Fault RunError) FinishedResult :=
  .ok ⟨exampleResult exampleOriginal exampleBetter, by decide⟩

end Example

/-- Another process stores the best genome first. -/
example : experimentStatus (runRecordedExperiment exampleDigest enqueuedExample "exp-1" none
    { rivals := [⟨exampleBetter.hash exampleDigest, exampleBetter.status, exampleBetter⟩] }
    exampleAnswer).2 "exp-1" = some .running := by decide +kernel

end NeuroForge
