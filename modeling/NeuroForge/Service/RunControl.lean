/-
  One experiment under control of many processes: its row, its run lock and its cancel flag.

  `run_recorded_experiment` saves the row as running, takes the lock for the time of the
  engine's run, unlinks the flag and records the result; the API's background pool unlinks
  the flag once more. A cancel is accepted on a status that was read and creates the flag
  later. A status that is read as running for too long is tested by taking the lock, and
  the row is set to failed at the end of the request. Each of these accesses is a step of its
  own, of any client, and a process may die at any of them.

  Whether the reading process has accepted a run itself (`_ACTIVE_RUNS`) is part of a read.
  Which result a run ends with, and when, is open; the shutdown of the API, which raises the
  flag itself, is left out. For the statements only, the state counts the runs that have
  ended and keeps what was accepted and what was committed.
-/
import NeuroForge.Db.Models
import NeuroForge.Lib.AdvisoryLock
import NeuroForge.Lib.Interleaving

namespace NeuroForge

namespace RunControl

open Interleaving

/-! ## The shared state -/

/-- The row, the files and the lock of an experiment. Times are in microseconds. -/
structure State (ι : Type) where
  now : ℕ := 0
  status : ExperimentStatus := .created
  updatedAt : ℕ := 0
  lockFile : Bool := false
  /-- who holds the `flock` -/
  lockedBy : Option ι := none
  /-- whether the cancel flag is on disk -/
  flag : Bool := false
  /-- how many runs have ended -/
  ended : ℕ := 0
  /-- for every accepted cancel, how many runs had ended by then -/
  accepted : List ℕ := []
  /-- the cancels, so numbered, that the flag on disk was created for -/
  flagFor : List ℕ := []
  /-- the runs that ended as cancelled, each numbered by the runs that ended before it -/
  cancelled : List ℕ := []
  /-- the status of the last result, until there is another attempt or an enqueue -/
  committed : Option ExperimentStatus := none

namespace State

variable {ι : Type} (s : State ι)

/-- `save_experiment` by an attempt or an enqueue; the row is only written if that changes it. -/
def save (status : ExperimentStatus) : State ι :=
  { s with
    status := status
    updatedAt := if status = s.status then s.updatedAt else s.now
    committed := none }

/-- A request that has set the status it loaded to failed commits. -/
def commitFailed : State ι := { s with status := .failed, updatedAt := s.now }

/-- `save_experiment` with the result of a run. -/
def saveResult (status : ExperimentStatus) : State ι :=
  { s with status := status, updatedAt := s.now, committed := some status }

def touchFlag (run : ℕ) : State ι := { s with flag := true, flagFor := run :: s.flagFor }

def unlinkFlag : State ι := { s with flag := false, flagFor := [] }

def take (i : ι) : State ι := { s with lockedBy := some i }

def drop : State ι := { s with lockedBy := none }

/-- A run ends: its lock is released, by itself or by its process dying. -/
def endRun : State ι := { s with lockedBy := none, ended := s.ended + 1 }

def accept : State ι := { s with accepted := s.ended :: s.accepted }

end State

/-! ## Phases -/

/-- Where a run is that holds the lock. -/
inductive Stage where
  /-- in the loop -/
  | searching
  /-- has found the flag and is about to unlink it -/
  | caught
  /-- has left the loop for another reason and is about to unlink the flag -/
  | leaving
  | finalizing (cancelled : Bool)
  /-- an exception is on its way out -/
  | raising
  deriving DecidableEq

/-- The stop reason will be `"cancelled by user"`. -/
def Stage.cancelled : Stage → Bool
  | .caught => true
  | .finalizing cancelled => cancelled
  | _ => false

/-- How `engine.run()` came back. -/
inductive Outcome where
  | answered (status : ExperimentStatus)
  | raised
  /-- `ExperimentAlreadyRunning` -/
  | refused
  deriving DecidableEq

/-- What the lock is tested for. -/
inductive Purpose where
  /-- to report a status -/
  | report
  /-- to accept a cancel -/
  | cancel
  /-- only to know: before a start or a resume -/
  | ask
  deriving DecidableEq

inductive Phase where
  | idle
  /-- an attempt, in the background pool of the API or not, has read the row -/
  | loaded (background : Bool)
  /-- it has saved the row as running -/
  | saved (background : Bool)
  /-- it has opened the lock file -/
  | opened (background : Bool)
  /-- it holds the lock; `run` runs have ended before -/
  | critical (background : Bool) (run : ℕ) (stage : Stage)
  /-- the engine has raised, the row is not marked yet -/
  | failing (background : Bool)
  /-- before the `finally` of `run_recorded_experiment` -/
  | cleaning (background : Bool) (outcome : Outcome)
  | recording (background : Bool) (status : ExperimentStatus)
  /-- before the `finally` of `_run_in_background` -/
  | withdrawing (outcome : Outcome)
  /-- the lock is to be tested: does its file exist? -/
  | checking (purpose : Purpose)
  | trying (purpose : Purpose)
  /-- the test has got the lock -/
  | testing (purpose : Purpose)
  /-- the session has set the status to failed -/
  | verdict
  /-- a cancel is accepted after `run` runs, its flag not created yet -/
  | accepted (run : ℕ)
  /-- the row is saved as queued, the job not pushed -/
  | enqueued (previous : ExperimentStatus)
  deriving DecidableEq

/-! ## Moves -/

inductive AttemptMove where
  /-- `run_recorded_experiment` reads the row -/
  | begin (background : Bool)
  /-- there is no baseline or dataset, or the engine cannot be set up -/
  | giveUp
  | save
  | openLock
  | lock
  /-- `cancel_flag.exists()` at the head of the loop -/
  | check
  /-- the loop ends for another reason -/
  | leave
  /-- the engine unlinks the flag -/
  | unlink
  /-- something in the engine raises -/
  | raise
  | release
  | markFailed
  /-- the `finally` of `run_recorded_experiment` -/
  | cleanUp
  | record
  /-- the `finally` of `_run_in_background` -/
  | withdraw
  deriving DecidableEq

inductive RequestMove where
  /-- a request reads the row; `activeHere` if its process has accepted a run itself -/
  | read (purpose : Purpose) (activeHere : Bool)
  /-- `run_lock_is_held` for its own sake -/
  | ask
  | lockExists
  | tryLock
  | unlock
  | commitVerdict
  /-- `experiment cancel` reads the row -/
  | cancelCli
  | touch
  | enqueue
  /-- the job is pushed -/
  | pushed
  | pushFailed
  deriving DecidableEq

inductive Move where
  | attempt (move : AttemptMove)
  | request (move : RequestMove)
  | wait (microseconds : ℕ)
  /-- the process dies -/
  | crash
  deriving DecidableEq

/-- `_STALE_RUN_SECONDS` -/
def staleRun : ℕ := 15 * 10 ^ 6

/-- `_reported_status`, as far as it comes without testing the lock. -/
def reportedStatus (activeHere : Bool) (status : ExperimentStatus) (age : ℕ) :
    Option ExperimentStatus :=
  if activeHere then some (if status = .running then status else .queued)
  else if status = .running ∧ staleRun < age then none
  else some status

/-- A status on which a cancel is accepted. -/
def Cancellable (status : ExperimentStatus) : Prop := status = .running ∨ status = .queued

instance (status : ExperimentStatus) : Decidable (Cancellable status) := by
  unfold Cancellable
  infer_instance

section Steps

variable {ι : Type}

/-- After an attempt has come back, its background task has a clean-up of its own. -/
def afterAttempt (background : Bool) (outcome : Outcome) : Phase :=
  if background then .withdrawing outcome else .idle

/-- The steps of `run_recorded_experiment`, `ExperimentEngine.run` and `_run_in_background`. -/
def attemptNext (s : State ι) (i : ι) : AttemptMove → Phase → Option (State ι × Phase)
  | .begin background, .idle => some ({ s with committed := none }, .loaded background)
  | .giveUp, .loaded background => some (s.save .failed, afterAttempt background .raised)
  | .save, .loaded background => some (s.save .running, .saved background)
  | .openLock, .saved background => some ({ s with lockFile := true }, .opened background)
  | .lock, .opened background =>
      match s.lockedBy with
      | none => some (s.take i, .critical background s.ended .searching)
      | some _ => some (s, .cleaning background .refused)
  | .check, .critical background run .searching =>
      some (s, .critical background run (if s.flag then .caught else .searching))
  | .leave, .critical background run .searching => some (s, .critical background run .leaving)
  | .unlink, .critical background run .caught =>
      some (s.unlinkFlag, .critical background run (.finalizing true))
  | .unlink, .critical background run .leaving =>
      some (s.unlinkFlag, .critical background run (.finalizing false))
  | .raise, .critical background run _ => some (s, .critical background run .raising)
  | .release, .critical background run (.finalizing true) =>
      some ({ s.endRun with cancelled := run :: s.cancelled },
        .cleaning background (.answered .cancelled))
  | .release, .critical background _ (.finalizing false) =>
      some (s.endRun, .cleaning background (.answered .completed))
  | .release, .critical background _ .raising => some (s.endRun, .failing background)
  | .markFailed, .failing background => some (s.save .failed, .cleaning background .raised)
  | .cleanUp, .cleaning background (.answered status) =>
      some (s.unlinkFlag, .recording background status)
  | .cleanUp, .cleaning background outcome =>
      some (s.unlinkFlag, afterAttempt background outcome)
  | .record, .recording background status =>
      some (s.saveResult status, afterAttempt background (.answered status))
  | .withdraw, .withdrawing _ => some (s.unlinkFlag, .idle)
  | _, _ => none

/-- A cancel is accepted or refused on a status. -/
def answerCancel (s : State ι) (status : ExperimentStatus) : State ι × Phase :=
  if Cancellable status then (s.accept, .accepted s.ended) else (s, .idle)

/-- What a request does with the answer of `run_lock_is_held`. A cancel that finds a dead run
    is refused, which rolls its session back. -/
def answerHeld (s : State ι) (held : Bool) : Purpose → State ι × Phase
  | .report => (s, if held then .idle else .verdict)
  | .cancel => answerCancel s (if held then .running else .failed)
  | .ask => (s, .idle)

/-- The steps of the other requests. -/
def requestNext (s : State ι) (i : ι) : RequestMove → Phase → Option (State ι × Phase)
  | .read purpose activeHere, .idle =>
      match reportedStatus activeHere s.status (s.now - s.updatedAt), purpose with
      | none, purpose => some (s, .checking purpose)
      | some status, .cancel => some (answerCancel s status)
      | some _, _ => some (s, .idle)
  | .ask, .idle => some (s, .checking .ask)
  | .lockExists, .checking purpose =>
      if s.lockFile then some (s, .trying purpose) else some (answerHeld s false purpose)
  | .tryLock, .trying purpose =>
      match s.lockedBy with
      | none => some (s.take i, .testing purpose)
      | some _ => some (answerHeld s true purpose)
  | .unlock, .testing purpose => some (answerHeld s.drop false purpose)
  | .commitVerdict, .verdict => some (s.commitFailed, .idle)
  | .cancelCli, .idle => some (answerCancel s s.status)
  | .touch, .accepted run => some (s.touchFlag run, .idle)
  | .enqueue, .idle => some (s.save .queued, .enqueued s.status)
  | .pushed, .enqueued _ => some (s, .idle)
  | .pushFailed, .enqueued previous => some (s.save previous, .idle)
  | _, _ => none

/-- The lock of a process that dies is dropped; if it was a run, the run has ended. -/
def crashNext (s : State ι) : Phase → Option (State ι × Phase)
  | .idle => none
  | .critical _ _ _ => some (s.endRun, .idle)
  | .testing _ => some (s.drop, .idle)
  | _ => some (s, .idle)

abbrev Clients (ι : Type) := System ι (State ι) Phase

def next (s : Clients ι) (i : ι) : Move → Option (State ι × Phase)
  | .attempt move => attemptNext s.shared i move (s.phase i)
  | .request move => requestNext s.shared i move (s.phase i)
  | .wait microseconds => some ({ s.shared with now := s.shared.now + microseconds }, s.phase i)
  | .crash => crashNext s.shared (s.phase i)

def step [DecidableEq ι] : Clients ι → ι × Move → Option (Clients ι) := Interleaving.step next

/-- The experiment has been created, nobody has asked for anything yet. -/
def start : Clients ι := ⟨{}, fun _ => .idle⟩

end Steps

/-! ## What a step does -/

/-- Everything a step of client `i` can do. -/
inductive Did {ι : Type} (s : State ι) (i : ι) : Move → Phase → State ι → Phase → Prop where
  | begin (background) : Did s i (.attempt (.begin background)) .idle
      { s with committed := none } (.loaded background)
  | giveUp (background) : Did s i (.attempt .giveUp) (.loaded background) (s.save .failed)
      (afterAttempt background .raised)
  | save (background) : Did s i (.attempt .save) (.loaded background) (s.save .running)
      (.saved background)
  | openLock (background) : Did s i (.attempt .openLock) (.saved background)
      { s with lockFile := true } (.opened background)
  | lock (background) (hfree : s.lockedBy = none) : Did s i (.attempt .lock)
      (.opened background) (s.take i) (.critical background s.ended .searching)
  | refused (background) (hheld : s.lockedBy ≠ none) : Did s i (.attempt .lock)
      (.opened background) s (.cleaning background .refused)
  | goesOn (background run) : Did s i (.attempt .check) (.critical background run .searching) s
      (.critical background run .searching)
  | caught (background run) (hflag : s.flag = true) : Did s i (.attempt .check)
      (.critical background run .searching) s (.critical background run .caught)
  | leave (background run) : Did s i (.attempt .leave) (.critical background run .searching) s
      (.critical background run .leaving)
  | unlinkCaught (background run) : Did s i (.attempt .unlink)
      (.critical background run .caught) s.unlinkFlag
      (.critical background run (.finalizing true))
  | unlinkLeaving (background run) : Did s i (.attempt .unlink)
      (.critical background run .leaving) s.unlinkFlag
      (.critical background run (.finalizing false))
  | raise (background run stage) : Did s i (.attempt .raise) (.critical background run stage) s
      (.critical background run .raising)
  | releaseCancelled (background run) : Did s i (.attempt .release)
      (.critical background run (.finalizing true))
      { s.endRun with cancelled := run :: s.cancelled }
      (.cleaning background (.answered .cancelled))
  | releaseCompleted (background run) : Did s i (.attempt .release)
      (.critical background run (.finalizing false)) s.endRun
      (.cleaning background (.answered .completed))
  | releaseRaising (background run) : Did s i (.attempt .release)
      (.critical background run .raising) s.endRun (.failing background)
  | markFailed (background) : Did s i (.attempt .markFailed) (.failing background)
      (s.save .failed) (.cleaning background .raised)
  | cleanAnswered (background status) : Did s i (.attempt .cleanUp)
      (.cleaning background (.answered status)) s.unlinkFlag (.recording background status)
  | cleanOther (background outcome) (hother : ∀ status, outcome ≠ .answered status) :
      Did s i (.attempt .cleanUp) (.cleaning background outcome) s.unlinkFlag
        (afterAttempt background outcome)
  | record (background status) : Did s i (.attempt .record) (.recording background status)
      (s.saveResult status) (afterAttempt background (.answered status))
  | withdraw (outcome) : Did s i (.attempt .withdraw) (.withdrawing outcome) s.unlinkFlag .idle
  | readRow (purpose activeHere) : Did s i (.request (.read purpose activeHere)) .idle s .idle
  | readStale (purpose activeHere) : Did s i (.request (.read purpose activeHere)) .idle s
      (.checking purpose)
  | accept (activeHere) : Did s i (.request (.read .cancel activeHere)) .idle s.accept
      (.accepted s.ended)
  | ask : Did s i (.request .ask) .idle s (.checking .ask)
  | acceptCli : Did s i (.request .cancelCli) .idle s.accept (.accepted s.ended)
  | refuseCli : Did s i (.request .cancelCli) .idle s .idle
  | noFile (purpose y) (hy : y = .idle ∨ y = .verdict) : Did s i (.request .lockExists)
      (.checking purpose) s y
  | fileExists (purpose) : Did s i (.request .lockExists) (.checking purpose) s (.trying purpose)
  | tryHeld (purpose) (hheld : s.lockedBy ≠ none) : Did s i (.request .tryLock)
      (.trying purpose) s .idle
  | acceptHeld (hheld : s.lockedBy ≠ none) : Did s i (.request .tryLock) (.trying .cancel)
      s.accept (.accepted s.ended)
  | tryFree (purpose) (hfree : s.lockedBy = none) : Did s i (.request .tryLock)
      (.trying purpose) (s.take i) (.testing purpose)
  | unlock (purpose y) (hy : y = .idle ∨ y = .verdict) : Did s i (.request .unlock)
      (.testing purpose) s.drop y
  | commitVerdict : Did s i (.request .commitVerdict) .verdict s.commitFailed .idle
  | touch (run) : Did s i (.request .touch) (.accepted run) (s.touchFlag run) .idle
  | enqueue : Did s i (.request .enqueue) .idle (s.save .queued) (.enqueued s.status)
  | pushed (previous) : Did s i (.request .pushed) (.enqueued previous) s .idle
  | pushFailed (previous) : Did s i (.request .pushFailed) (.enqueued previous)
      (s.save previous) .idle
  | wait (microseconds x) : Did s i (.wait microseconds) x
      { s with now := s.now + microseconds } x
  | crashRun (background run stage) : Did s i .crash (.critical background run stage) s.endRun
      .idle
  | crashTest (purpose) : Did s i .crash (.testing purpose) s.drop .idle
  | crash (x) (hcritical : ∀ background run stage, x ≠ .critical background run stage)
      (htesting : ∀ purpose, x ≠ .testing purpose) : Did s i .crash x s .idle

section Inversion

variable {ι : Type} {s : State ι} {i : ι} {x : Phase} {r : State ι × Phase}

theorem attemptNext_did {move : AttemptMove} (h : attemptNext s i move x = some r) :
    Did s i (.attempt move) x r.1 r.2 := by
  unfold attemptNext at h
  split at h
  case h_5 background =>
    -- the lock is tried
    split at h
    · rename_i hfree
      rw [← Option.some.inj h]
      exact .lock _ hfree
    · rename_i hheld
      rw [← Option.some.inj h]
      exact .refused _ (by rw [hheld]; exact Option.some_ne_none _)
  case h_6 background run =>
    -- the flag is looked for
    rw [← Option.some.inj h]
    rcases hflag : s.flag with _ | _
    · exact .goesOn _ _
    · exact .caught _ _ hflag
  case h_16 hother =>
    -- the attempt was refused or has raised
    rw [← Option.some.inj h]
    exact .cleanOther _ _ fun status heq => hother status heq
  case h_19 => exact absurd h (by simp)
  all_goals
    rw [← Option.some.inj h]
    constructor

theorem answerCancel_cases (s : State ι) (status : ExperimentStatus) :
    answerCancel s status = (s.accept, .accepted s.ended) ∨ answerCancel s status = (s, .idle) := by
  unfold answerCancel
  split
  · exact .inl rfl
  · exact .inr rfl

/-- An answer `False` accepts nothing. -/
theorem answerHeld_false (s : State ι) (purpose : Purpose) :
    ∃ y, answerHeld s false purpose = (s, y) ∧ (y = .idle ∨ y = .verdict) := by
  cases purpose with
  | report => exact ⟨_, rfl, .inr rfl⟩
  | cancel => exact ⟨_, rfl, .inl rfl⟩
  | ask => exact ⟨_, rfl, .inl rfl⟩

theorem requestNext_did {move : RequestMove} (h : requestNext s i move x = some r) :
    Did s i (.request move) x r.1 r.2 := by
  unfold requestNext at h
  split at h
  · -- a status is read
    split at h
    · rw [← Option.some.inj h]
      exact .readStale _ _
    · rename_i status _
      rw [← Option.some.inj h]
      rcases answerCancel_cases s status with heq | heq
      · rw [heq]
        exact .accept _
      · rw [heq]
        exact .readRow _ _
    · rw [← Option.some.inj h]
      exact .readRow _ _
  · rw [← Option.some.inj h]
    exact .ask
  · -- the lock file is looked for
    rename_i purpose
    split_ifs at h
    · rw [← Option.some.inj h]
      exact .fileExists _
    · obtain ⟨y, heq, hy⟩ := answerHeld_false s purpose
      rw [← Option.some.inj h, heq]
      exact .noFile _ _ hy
  · -- the lock is tried
    rename_i purpose
    split at h
    · rename_i hfree
      rw [← Option.some.inj h]
      exact .tryFree _ hfree
    · rename_i holder hheld
      have hne : s.lockedBy ≠ none := by
        rw [hheld]
        exact Option.some_ne_none holder
      rw [← Option.some.inj h]
      cases purpose with
      | report => exact .tryHeld _ hne
      | cancel => exact .acceptHeld hne
      | ask => exact .tryHeld _ hne
  · -- the lock is released
    rename_i purpose
    obtain ⟨y, heq, hy⟩ := answerHeld_false s.drop purpose
    rw [← Option.some.inj h, heq]
    exact .unlock _ _ hy
  · rw [← Option.some.inj h]
    exact .commitVerdict
  · rw [← Option.some.inj h]
    rcases answerCancel_cases s s.status with heq | heq
    · rw [heq]
      exact .acceptCli
    · rw [heq]
      exact .refuseCli
  · rw [← Option.some.inj h]
    exact .touch _
  · rw [← Option.some.inj h]
    exact .enqueue
  · rw [← Option.some.inj h]
    exact .pushed _
  · rw [← Option.some.inj h]
    exact .pushFailed _
  · cases h

theorem crashNext_did (h : crashNext s x = some r) : Did s i .crash x r.1 r.2 := by
  unfold crashNext at h
  split at h
  · cases h
  · rw [← Option.some.inj h]
    exact .crashRun _ _ _
  · rw [← Option.some.inj h]
    exact .crashTest _
  · rename_i hidle hcritical htesting
    rw [← Option.some.inj h]
    exact .crash _ hcritical htesting

theorem next_did {s : Clients ι} {move : Move} (h : next s i move = some r) :
    Did s.shared i move (s.phase i) r.1 r.2 := by
  cases move with
  | attempt move => exact attemptNext_did h
  | request move => exact requestNext_did h
  | crash => exact crashNext_did h
  | wait microseconds =>
      rw [← Option.some.inj h]
      exact .wait _ _

/-- A step is something its client does, and leaves the phases of the others alone. -/
theorem step_did [DecidableEq ι] {s s' : Clients ι} {a : ι × Move}
    (h : RunControl.step s a = some s') :
    Did s.shared a.1 a.2 (s.phase a.1) s'.shared (s'.phase a.1) ∧
      ∀ j, j ≠ a.1 → s'.phase j = s.phase j := by
  obtain ⟨hnext, hothers⟩ := step_spec h
  exact ⟨next_did hnext, hothers⟩

theorem afterAttempt_cases (background : Bool) (outcome : Outcome) :
    afterAttempt background outcome = .idle ∨
      afterAttempt background outcome = .withdrawing outcome := by
  cases background with
  | false => exact .inl rfl
  | true => exact .inr rfl

end Inversion

/-! ## The lock -/

def Phase.inCritical : Phase → Bool
  | .critical _ _ _ => true
  | _ => false

def Phase.holdsLock : Phase → Bool
  | .critical _ _ _ => true
  | .testing _ => true
  | _ => false

section Lock

open AdvisoryLock

variable {ι : Type} {i : ι} {x y : Phase}

@[simp] theorem holdsLock_afterAttempt (background : Bool) (outcome : Outcome) :
    (afterAttempt background outcome).holdsLock = false := by
  cases background <;> rfl

theorem holdsLock_of_answer (hy : y = .idle ∨ y = .verdict) : y.holdsLock = false := by
  rcases hy with rfl | rfl <;> rfl

/-- What a step does with the lock. -/
theorem Did.uses {s t : State ι} {move : Move} (h : Did s i move x t y) :
    Uses Phase.holdsLock i s.lockedBy x y t.lockedBy := by
  cases h with
  | lock background hfree => exact .takes hfree rfl
  | tryFree purpose hfree => exact .takes hfree rfl
  | releaseCancelled => exact .drops rfl rfl
  | releaseCompleted => exact .drops rfl rfl
  | releaseRaising => exact .drops rfl rfl
  | unlock purpose y hy => exact .drops rfl (holdsLock_of_answer hy)
  | crashRun => exact .drops rfl rfl
  | crashTest => exact .drops rfl rfl
  | giveUp background => exact .keeps (holdsLock_afterAttempt _ _)
  | cleanOther background outcome => exact .keeps (holdsLock_afterAttempt _ _)
  | record background status => exact .keeps (holdsLock_afterAttempt _ _)
  | noFile purpose y hy => exact .keeps (holdsLock_of_answer hy)
  | crash x hcritical htesting =>
      refine .keeps ?_
      cases x with
      | critical background run stage => exact absurd rfl (hcritical background run stage)
      | testing purpose => exact absurd rfl (htesting purpose)
      | _ => rfl
  | _ => exact .keeps rfl

/-- Exactly the holder of the lock is in a phase that holds it. -/
def LockOwned (s : Clients ι) : Prop := Owned Phase.holdsLock s.shared.lockedBy s.phase

theorem lockOwned_start : LockOwned (start : Clients ι) := owned_start rfl

theorem LockOwned.step [DecidableEq ι] {s s' : Clients ι} {a : ι × Move} (h : LockOwned s)
    (hstep : RunControl.step s a = some s') : LockOwned s' := by
  obtain ⟨r, hr, rfl⟩ := step_eq_some.mp hstep
  exact Owned.step h (next_did hr).uses

theorem lockOwned_of_run [DecidableEq ι] {as : List (ι × Move)} {s : Clients ι}
    (h : Transition.run RunControl.step start as = some s) : LockOwned s :=
  Transition.run_invariant (fun _ _ _ hs hstep => hs.step hstep) lockOwned_start h

theorem holdsLock_of_inCritical (h : x.inCritical = true) : x.holdsLock = true := by
  cases x with
  | critical background run stage => rfl
  | _ => cases h

end Lock

end RunControl

end NeuroForge
