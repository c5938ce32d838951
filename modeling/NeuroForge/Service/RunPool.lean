/-
  The runs that one API process starts in the background.

  `POST …/start` reserves a place in `_ACTIVE_RUNS`, looks at the row, and submits the run to
  a pool of two threads; a thread gives the place back in the `finally` of
  `_run_in_background`, and `_stop_background_runs` those of the runs that never got a
  thread. The sections under `_ACTIVE_LOCK` are steps; the one that submits and then records
  the future is two, because the threads and the shutdown of the pool do not wait for the lock.
  All requests, threads and the shutdown interleave in any way.

  The flags that the shutdown and the threads touch are not part of this: they belong to the
  model of one experiment under many processes.
-/
import NeuroForge.Db.Models
import NeuroForge.Lib.Dict
import NeuroForge.Lib.Fifo
import NeuroForge.Lib.Transition

namespace NeuroForge

namespace RunPool

/-- `_MAX_ACTIVE_RUNS` -/
def maxActiveRuns : ℕ := 6

/-- `max_workers` of `_RUN_POOL` -/
def maxWorkers : ℕ := 2

/-- Where `start_experiment_endpoint` is. -/
inductive RequestPhase where
  | idle
  /-- has a place, has not looked at the row -/
  | reserved
  | admitted
  /-- has submitted the run and still holds the lock -/
  | recording
  /-- will give the place back and answer with this status -/
  | refusing (code : ℕ)
  | refused (code : ℕ)
  /-- has answered 202 -/
  | accepted
  deriving DecidableEq

/-- The future of a submitted run. -/
inductive FuturePhase where
  | none
  | pending
  | running
  /-- the run is over, the `finally` is ahead -/
  | ending
  /-- has given its place back, the flag is to be unlinked -/
  | cleaning
  | done
  | cancelled
  /-- cancelled, and its place was given back by the shutdown -/
  | withdrawn
  deriving DecidableEq

inductive StopPhase where
  | serving
  /-- the pool is shut down -/
  | stopping
  /-- the places of cancelled runs have been given back -/
  | swept
  deriving DecidableEq

structure State (ι : Type) where
  /-- `_ACTIVE_RUNS` -/
  active : List String
  /-- `_SUBMITTED`: the future of an experiment is known by the request that submitted it -/
  submitted : Dict String ι
  /-- the request that keeps `_ACTIVE_LOCK` from one step to the next -/
  lockedBy : Option ι
  /-- the work queue of the pool -/
  queue : Fifo ι
  /-- what the threads are at -/
  busy : List ι
  stop : StopPhase
  request : ι → RequestPhase
  future : ι → FuturePhase

inductive Action (ι : Type) where
  /-- the first section of a start -/
  | reserve (i : ι)
  /-- the row, and whether a run lock is held -/
  | check (i : ι) (row : Option ExperimentStatus) (lockHeld : Bool)
  /-- the database or the lock file raise -/
  | checkRaises (i : ι)
  | submit (i : ι)
  | record (i : ι)
  /-- the `except` of a start -/
  | giveBack (i : ι)
  /-- a free thread takes what is first in the queue -/
  | take
  /-- `run_recorded_experiment` returns or raises -/
  | finish (i : ι)
  /-- the `finally` of `_run_in_background` -/
  | release (i : ι)
  | clean (i : ι)
  /-- `_RUN_POOL.shutdown(wait=False, cancel_futures=True)` -/
  | shutdown
  /-- the section of `_stop_background_runs` -/
  | sweep

/-- Why a start is refused after a look at the row. -/
def startRefusal (row : Option ExperimentStatus) (lockHeld : Bool) : Option ℕ :=
  match row with
  | none => some 404
  | some status => if status = .running ∧ lockHeld then some 409 else none

namespace State

variable {ι : Type} [DecidableEq ι] (s : State ι)

def start : State ι := ⟨[], [], none, Fifo.empty, [], .serving, fun _ => .idle, fun _ => .none⟩

def ask (i : ι) (phase : RequestPhase) : State ι :=
  { s with request := Function.update s.request i phase }

def become (i : ι) (phase : FuturePhase) : State ι :=
  { s with future := Function.update s.future i phase }

/-- The place of an experiment is given back. -/
def discard (id : String) : State ι := { s with active := s.active.filter fun k => k ≠ id }

end State

section Steps

variable {ι : Type} [DecidableEq ι] (target : ι → String)

/-- One step, request `i` naming the experiment `target i`. -/
def step (s : State ι) : Action ι → Option (State ι)
  | .reserve i =>
      if s.request i = .idle ∧ s.lockedBy = none then
        some (if target i ∈ s.active then s.ask i (.refused 409)
          else if maxActiveRuns ≤ s.active.length then s.ask i (.refused 429)
          else { s.ask i .reserved with active := target i :: s.active })
      else none
  | .check i row lockHeld =>
      if s.request i = .reserved then
        some (s.ask i (((startRefusal row lockHeld).map RequestPhase.refusing).getD .admitted))
      else none
  | .checkRaises i =>
      if s.request i = .reserved then some (s.ask i (.refusing 500)) else none
  | .submit i =>
      if s.request i = .admitted ∧ s.lockedBy = none then
        -- a pool that is shut down raises, which releases the lock
        some (if s.stop = .serving then
            { (s.ask i .recording).become i .pending with
              lockedBy := some i
              queue := s.queue.push i }
          else s.ask i (.refusing 500))
      else none
  | .record i =>
      if s.request i = .recording then
        some { s.ask i .accepted with
          lockedBy := none
          submitted := Dict.set s.submitted (target i) i }
      else none
  | .giveBack i =>
      match s.request i with
      | .refusing code =>
          if s.lockedBy = none then some ((s.ask i (.refused code)).discard (target i)) else none
      | _ => none
  | .take =>
      if s.busy.length < maxWorkers then
        s.queue.handOut.map fun r =>
          { s.become r.1 .running with queue := r.2, busy := r.1 :: s.busy }
      else none
  | .finish i => if s.future i = .running then some (s.become i .ending) else none
  | .release i =>
      if s.future i = .ending ∧ s.lockedBy = none then
        some { (s.become i .cleaning).discard (target i) with
          submitted := s.submitted.filter fun e => e.1 ≠ target i }
      else none
  | .clean i =>
      if s.future i = .cleaning then
        some { s.become i .done with busy := s.busy.filter fun j => j ≠ i }
      else none
  | .shutdown =>
      if s.stop = .serving then
        some { s with
          stop := .stopping
          queue := s.queue.drain
          future := fun i => if i ∈ s.queue.waiting then .cancelled else s.future i }
      else none
  | .sweep =>
      if s.stop = .stopping ∧ s.lockedBy = none then
        some { s with
          stop := .swept
          active := s.active.filter fun id =>
            !s.submitted.any fun e => e.1 = id ∧ s.future e.2 = .cancelled
          submitted := s.submitted.filter fun e => s.future e.2 ≠ .cancelled
          future := fun i =>
            if s.future i = .cancelled ∧ s.submitted.any (fun e => e.2 = i) then .withdrawn
            else s.future i }
      else none

/-! ## What a step does -/

/-- Everything a step can do. -/
inductive Did (s : State ι) : State ι → Prop where
  | refused (i code) (hidle : s.request i = .idle) :
      Did s (s.ask i (.refused code))
  | reserved (i) (hidle : s.request i = .idle) (hfree : target i ∉ s.active)
      (hroom : s.active.length < maxActiveRuns) :
      Did s { s.ask i .reserved with active := target i :: s.active }
  | checked (i phase) (hreserved : s.request i = .reserved ∨ s.request i = .admitted)
      (hphase : phase = .admitted ∨ ∃ code, phase = .refusing code) :
      Did s (s.ask i phase)
  | submitted (i) (hadmitted : s.request i = .admitted) (hlock : s.lockedBy = none)
      (hserving : s.stop = .serving) :
      Did s { (s.ask i .recording).become i .pending with
        lockedBy := some i
        queue := s.queue.push i }
  | recorded (i) (hrecording : s.request i = .recording) :
      Did s { s.ask i .accepted with
        lockedBy := none
        submitted := Dict.set s.submitted (target i) i }
  | gaveBack (i code) (hrefusing : s.request i = .refusing code) :
      Did s ((s.ask i (.refused code)).discard (target i))
  | took (i queue) (hroom : s.busy.length < maxWorkers)
      (hqueue : s.queue.handOut = some (i, queue)) :
      Did s { s.become i .running with queue := queue, busy := i :: s.busy }
  | finished (i) (hrunning : s.future i = .running) : Did s (s.become i .ending)
  | released (i) (hending : s.future i = .ending) (hlock : s.lockedBy = none) :
      Did s { (s.become i .cleaning).discard (target i) with
        submitted := s.submitted.filter fun e => e.1 ≠ target i }
  | cleaned (i) (hcleaning : s.future i = .cleaning) :
      Did s { s.become i .done with busy := s.busy.filter fun j => j ≠ i }
  | shutDown (hserving : s.stop = .serving) :
      Did s { s with
        stop := .stopping
        queue := s.queue.drain
        future := fun i => if i ∈ s.queue.waiting then .cancelled else s.future i }
  | swept (hstopping : s.stop = .stopping) (hlock : s.lockedBy = none) :
      Did s { s with
        stop := .swept
        active := s.active.filter fun id =>
          !s.submitted.any fun e => e.1 = id ∧ s.future e.2 = .cancelled
        submitted := s.submitted.filter fun e => s.future e.2 ≠ .cancelled
        future := fun i =>
          if s.future i = .cancelled ∧ s.submitted.any (fun e => e.2 = i) then .withdrawn
          else s.future i }

end Steps

section Inversion

variable {ι : Type} [DecidableEq ι] {target : ι → String} {s s' : State ι} {a : Action ι}

theorem step_did (h : step target s a = some s') : Did target s s' := by
  cases a with
  | reserve i =>
      simp only [step] at h
      split at h
      · rename_i hidle
        rw [← Option.some.inj h]
        split_ifs with hmem hfull
        · exact .refused i 409 hidle.1
        · exact .refused i 429 hidle.1
        · exact .reserved i hidle.1 hmem (by omega)
      · cases h
  | check i row lockHeld =>
      simp only [step] at h
      split at h
      · rename_i hreserved
        rw [← Option.some.inj h]
        refine .checked i _ (.inl hreserved) ?_
        cases hrefusal : startRefusal row lockHeld with
        | none => exact .inl rfl
        | some code => exact .inr ⟨code, rfl⟩
      · cases h
  | checkRaises i =>
      simp only [step] at h
      split at h
      · rename_i hreserved
        rw [← Option.some.inj h]
        exact .checked i _ (.inl hreserved) (.inr ⟨500, rfl⟩)
      · cases h
  | submit i =>
      simp only [step] at h
      split at h
      · rename_i hadmitted
        rw [← Option.some.inj h]
        split_ifs with hserving
        · exact .submitted i hadmitted.1 hadmitted.2 hserving
        · exact .checked i _ (.inr hadmitted.1) (.inr ⟨500, rfl⟩)
      · cases h
  | record i =>
      simp only [step] at h
      split at h
      · rename_i hrecording
        rw [← Option.some.inj h]
        exact .recorded i hrecording
      · cases h
  | giveBack i =>
      simp only [step] at h
      split at h
      · rename_i code hrefusing
        split at h
        · rw [← Option.some.inj h]
          exact .gaveBack i code hrefusing
        · cases h
      · cases h
  | take =>
      simp only [step] at h
      split at h
      · rename_i hroom
        obtain ⟨⟨i, queue⟩, hqueue, hs'⟩ := Option.map_eq_some_iff.mp h
        rw [← hs']
        exact .took i queue hroom hqueue
      · cases h
  | finish i =>
      simp only [step] at h
      split at h
      · rename_i hrunning
        rw [← Option.some.inj h]
        exact .finished i hrunning
      · cases h
  | release i =>
      simp only [step] at h
      split at h
      · rename_i hending
        rw [← Option.some.inj h]
        exact .released i hending.1 hending.2
      · cases h
  | clean i =>
      simp only [step] at h
      split at h
      · rename_i hcleaning
        rw [← Option.some.inj h]
        exact .cleaned i hcleaning
      · cases h
  | shutdown =>
      simp only [step] at h
      split at h
      · rename_i hserving
        rw [← Option.some.inj h]
        exact .shutDown hserving
      · cases h
  | sweep =>
      simp only [step] at h
      split at h
      · rename_i hstopping
        rw [← Option.some.inj h]
        exact .swept hstopping.1 hstopping.2
      · cases h

end Inversion

end RunPool

end NeuroForge
