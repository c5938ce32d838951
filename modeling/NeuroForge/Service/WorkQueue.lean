/-
  The work queue: `enqueue_experiment_endpoint`, Redis, and `scripts/worker.py`.

  A request reads the row, saves it as queued and pushes the id with `RPUSH`; a push that
  fails makes it save the status it had read. A worker takes an id with `BLPOP` and runs the
  experiment; what `run_one` logs ends the work on the id, and so does the death of a
  process. Every one of these accesses is a step, of any number of requests and workers, on
  any experiments; other runs and requests may write any status but queued in between.

  A row that says queued is owed (`queued_is_owed`): its id waits, or a process is at it, or
  one gave it up. Only a push that fails for a row that was queued before breaks this: it
  saves that status for a job which may be done by then (`restores_queued`).
-/
import Mathlib.Data.Fintype.Basic
import NeuroForge.Experiments.Runner
import NeuroForge.Lib.Fifo
import NeuroForge.Lib.Interleaving

namespace NeuroForge

namespace WorkQueue

open Interleaving

structure Store (κ : Type) where
  /-- the status column -/
  status : κ → Option ExperimentStatus
  /-- the list at `QUEUE_KEY` -/
  queue : Fifo κ := Fifo.empty
  /-- the ids a process gave up or died with before it had written the row -/
  abandoned : List κ := []

/-- What a request or a worker is at. -/
inductive Phase (κ : Type) where
  | idle
  /-- the session of the request has read the row -/
  | marking (id : κ) (previous : ExperimentStatus)
  /-- it is committed, the push is ahead -/
  | pushing (id : κ) (previous : ExperimentStatus)
  /-- the push has raised a `RedisError` -/
  | restoring (id : κ) (previous : ExperimentStatus)
  /-- the worker has an id -/
  | taken (id : κ)
  /-- `run_recorded_experiment` has what the run needs -/
  | loaded (id : κ)
  /-- the row is to be marked as failed -/
  | failing (id : κ)
  /-- the row is saved as running -/
  | running (id : κ)
  | saving (id : κ) (status : RunStatus)

/-- What the first part of `run_recorded_experiment` comes to. -/
inductive Loading where
  | ready
  /-- the baseline or the dataset is missing, or the engine cannot be set up -/
  | unrunnable
  /-- `UnknownExperiment` -/
  | unknown
  /-- the stored configuration or the checkpoint does not parse -/
  | raised

/-- How `engine.run()` came back. -/
inductive Outcome where
  | returned (status : RunStatus)
  | alreadyRunning
  | raised

inductive Move (κ : Type) where
  | read (id : κ)
  | commit
  /-- `RPUSH`, which may not reach Redis -/
  | push (reached : Bool)
  | restore
  /-- `BLPOP` -/
  | take
  | load (loading : Loading)
  | saveRunning
  | run (outcome : Outcome)
  | markFailed
  | save
  | die
  /-- another run or request writes a status of its own -/
  | write (id : κ) (status : ExperimentStatus)

/-- The id that the process is the one to answer for. -/
def Phase.answersFor {κ : Type} : Phase κ → Option κ
  | .pushing id _ | .restoring id _ | .taken id | .loaded id | .failing id => some id
  | .idle | .marking _ _ | .running _ | .saving _ _ => none

variable {ι κ : Type} [DecidableEq ι] [DecidableEq κ]

namespace Store

def setStatus (s : Store κ) (id : κ) (status : ExperimentStatus) : Store κ :=
  { s with status := Function.update s.status id (some status) }

def abandon (s : Store κ) (id : Option κ) : Store κ :=
  { s with abandoned := s.abandoned ++ id.toList }

end Store

/-- What one process does next. -/
def next (s : System ι (Store κ) (Phase κ)) (i : ι) : Move κ → Option (Store κ × Phase κ)
  | .read id =>
      match s.phase i with
      | .idle => (s.shared.status id).map fun previous => (s.shared, .marking id previous)
      | _ => none
  | .commit =>
      match s.phase i with
      | .marking id previous => some (s.shared.setStatus id .queued, .pushing id previous)
      | _ => none
  | .push reached =>
      match s.phase i with
      | .pushing id previous =>
          if reached then some ({ s.shared with queue := s.shared.queue.push id }, .idle)
          else some (s.shared, .restoring id previous)
      | _ => none
  | .restore =>
      match s.phase i with
      | .restoring id previous => some (s.shared.setStatus id previous, .idle)
      | _ => none
  | .take =>
      match s.phase i with
      | .idle => s.shared.queue.handOut.map fun r =>
          ({ s.shared with queue := r.2 }, .taken r.1)
      | _ => none
  | .load loading =>
      match s.phase i with
      | .taken id =>
          match loading with
          | .ready => some (s.shared, .loaded id)
          | .unrunnable => some (s.shared, .failing id)
          | .unknown => if s.shared.status id = none then some (s.shared, .idle) else none
          | .raised => some (s.shared.abandon (some id), .idle)
      | _ => none
  | .saveRunning =>
      match s.phase i with
      | .loaded id => some (s.shared.setStatus id .running, .running id)
      | _ => none
  | .run outcome =>
      match s.phase i with
      | .running id =>
          match outcome with
          | .returned status => some (s.shared, .saving id status)
          | .alreadyRunning => some (s.shared, .idle)
          | .raised => some (s.shared, .failing id)
      | _ => none
  | .markFailed =>
      match s.phase i with
      | .failing id => some (s.shared.setStatus id .failed, .idle)
      | _ => none
  | .save =>
      match s.phase i with
      | .saving id status => some (s.shared.setStatus id status.recorded, .idle)
      | _ => none
  | .die => some (s.shared.abandon (s.phase i).answersFor, .idle)
  | .write id status =>
      match s.phase i with
      | .idle => if status = .queued then none else some (s.shared.setStatus id status, .idle)
      | _ => none

abbrev Processes (ι κ : Type) := System ι (Store κ) (Phase κ)

def start (status : κ → Option ExperimentStatus) : Processes ι κ := ⟨{ status }, fun _ => .idle⟩

/-! ## What a step does -/

/-- Everything a step can do to the store, and to the phase `x` of the process. -/
inductive Did (s : Store κ) (x : Phase κ) : Move κ → Store κ → Phase κ → Prop
  | read {id : κ} {previous : ExperimentStatus} (hx : x = .idle) :
      Did s x (.read id) s (.marking id previous)
  | committed {id : κ} {previous : ExperimentStatus} (hx : x = .marking id previous) :
      Did s x .commit (s.setStatus id .queued) (.pushing id previous)
  | pushed {id : κ} {previous : ExperimentStatus} (hx : x = .pushing id previous) :
      Did s x (.push true) { s with queue := s.queue.push id } .idle
  | pushFailed {id : κ} {previous : ExperimentStatus} (hx : x = .pushing id previous) :
      Did s x (.push false) s (.restoring id previous)
  | restored {id : κ} {previous : ExperimentStatus} (hx : x = .restoring id previous) :
      Did s x .restore (s.setStatus id previous) .idle
  | took {id : κ} {queue : Fifo κ} (hx : x = .idle) (hqueue : s.queue.handOut = some (id, queue)) :
      Did s x .take { s with queue } (.taken id)
  /-- the row is not written yet -/
  | loaded {id : κ} {loading : Loading} {y : Phase κ} (hx : x = .taken id)
      (hy : y = .loaded id ∨ y = .failing id) : Did s x (.load loading) s y
  | unknown {id : κ} (hx : x = .taken id) (hrow : s.status id = none) :
      Did s x (.load .unknown) s .idle
  | gaveUp {id : κ} (hx : x = .taken id) : Did s x (.load .raised) (s.abandon (some id)) .idle
  /-- the row is written, with a status other than queued -/
  | wrote {id : κ} {status : ExperimentStatus} {move : Move κ} {y : Phase κ}
      (hx : x.answersFor = some id ∨ x.answersFor = none) (hstatus : status ≠ .queued)
      (hy : y = .running id ∨ y = .idle) : Did s x move (s.setStatus id status) y
  /-- the engine has come back -/
  | ran {id : κ} {outcome : Outcome} {y : Phase κ} (hx : x = .running id)
      (hy : y = .idle ∨ y = .failing id ∨ ∃ status, y = .saving id status) :
      Did s x (.run outcome) s y
  | died : Did s x .die (s.abandon x.answersFor) .idle

theorem recorded_ne_queued (status : RunStatus) : status.recorded ≠ .queued := by
  cases status <;> decide

omit [DecidableEq ι] in
theorem next_did {s : Processes ι κ} {i : ι} {move : Move κ} {t : Store κ} {y : Phase κ}
    (h : next s i move = some (t, y)) : Did s.shared (s.phase i) move t y := by
  unfold next at h
  generalize hx : s.phase i = x at h ⊢
  cases move with
  | read id =>
      cases x with
      | idle =>
          obtain ⟨previous, -, h⟩ := Option.map_eq_some_iff.mp h
          cases h
          exact .read rfl
      | _ => cases h
  | commit =>
      cases x with
      | marking id previous =>
          cases h
          exact .committed rfl
      | _ => cases h
  | push reached =>
      cases x with
      | pushing id previous =>
          cases reached with
          | true =>
              cases h
              exact .pushed rfl
          | false =>
              cases h
              exact .pushFailed rfl
      | _ => cases h
  | restore =>
      cases x with
      | restoring id previous =>
          cases h
          exact .restored rfl
      | _ => cases h
  | take =>
      cases x with
      | idle =>
          obtain ⟨⟨id, queue⟩, hqueue, h⟩ := Option.map_eq_some_iff.mp h
          cases h
          exact .took rfl hqueue
      | _ => cases h
  | load loading =>
      cases x with
      | taken id =>
          cases loading with
          | ready =>
              cases h
              exact .loaded rfl (.inl rfl)
          | unrunnable =>
              cases h
              exact .loaded rfl (.inr rfl)
          | unknown =>
              dsimp only at h
              split_ifs at h with hrow
              cases h
              exact .unknown rfl hrow
          | raised =>
              cases h
              exact .gaveUp rfl
      | _ => cases h
  | saveRunning =>
      cases x with
      | loaded id =>
          cases h
          exact .wrote (.inl rfl) (by decide) (.inl rfl)
      | _ => cases h
  | run outcome =>
      cases x with
      | running id =>
          cases outcome with
          | returned status =>
              cases h
              exact .ran rfl (.inr (.inr ⟨status, rfl⟩))
          | alreadyRunning =>
              cases h
              exact .ran rfl (.inl rfl)
          | raised =>
              cases h
              exact .ran rfl (.inr (.inl rfl))
      | _ => cases h
  | markFailed =>
      cases x with
      | failing id =>
          cases h
          exact .wrote (.inl rfl) (by decide) (.inr rfl)
      | _ => cases h
  | save =>
      cases x with
      | saving id status =>
          cases h
          exact .wrote (.inr rfl) (recorded_ne_queued status) (.inr rfl)
      | _ => cases h
  | die =>
      cases h
      exact .died
  | write id status =>
      cases x with
      | idle =>
          dsimp only at h
          split_ifs at h with hstatus
          cases h
          exact .wrote (.inr rfl) hstatus (.inr rfl)
      | _ => cases h

/-! ## Who answers for a queued row -/

/-- The id waits, a process is at it, or one has given it up. -/
def Owed (s : Processes ι κ) (id : κ) : Prop :=
  id ∈ s.shared.queue.waiting ∨ (∃ i, (s.phase i).answersFor = some id) ∨
    id ∈ s.shared.abandoned

/-- The statuses that are restored are not queued. -/
def RestoresOther (s : Processes ι κ) : Prop :=
  ∀ i id previous, s.phase i = .restoring id previous → previous ≠ .queued

structure Inv (s : Processes ι κ) : Prop where
  owed : ∀ id, s.shared.status id = some .queued → Owed s id
  restores : RestoresOther s
  /-- what was pushed has been taken, in this order, or waits -/
  inOrder : s.shared.queue.pushed = s.shared.queue.handedOut ++ s.shared.queue.waiting

/-- A push that fails is for a row that was not queued before. -/
def FailsFresh (s : Processes ι κ) (a : ι × Move κ) : Prop :=
  match a.2, s.phase a.1 with
  | .push false, .pushing _ previous => previous ≠ .queued
  | _, _ => True

instance (s : Processes ι κ) (a : ι × Move κ) : Decidable (FailsFresh s a) := by
  unfold FailsFresh
  split <;> infer_instance

section Steps

variable {s : Processes ι κ} {i : ι} {t : Store κ} {y : Phase κ} {id : κ}

omit [DecidableEq κ] in
/-- An id stays owed where what waited waits or was taken, and the process hands it on. -/
theorem Owed.step (h : Owed s id)
    (hwait : ∀ k ∈ s.shared.queue.waiting, k ∈ t.queue.waiting ∨ y.answersFor = some k)
    (hgave : s.shared.abandoned ⊆ t.abandoned)
    (hown : (s.phase i).answersFor = some id →
      y.answersFor = some id ∨ id ∈ t.queue.waiting ∨ id ∈ t.abandoned) :
    Owed ⟨t, Function.update s.phase i y⟩ id := by
  have hacts : y.answersFor = some id → Owed ⟨t, Function.update s.phase i y⟩ id := by
    intro hy
    refine .inr (.inl ⟨i, ?_⟩)
    dsimp only
    rw [Function.update_self]
    exact hy
  rcases h with hwaits | ⟨j, hj⟩ | hgone
  · rcases hwait id hwaits with hstill | hy
    · exact .inl hstill
    · exact hacts hy
  · by_cases hij : j = i
    · subst hij
      rcases hown hj with hy | hw | ha
      · exact hacts hy
      · exact .inl hw
      · exact .inr (.inr ha)
    · refine .inr (.inl ⟨j, ?_⟩)
      dsimp only
      rw [Function.update_of_ne hij]
      exact hj
  · exact .inr (.inr (hgave hgone))

omit [DecidableEq ι] in
/-- A row that a write leaves queued was queued before, or is the one that is written. -/
theorem status_setStatus {k : κ} {status : ExperimentStatus}
    (h : (s.shared.setStatus k status).status id = some .queued) :
    (id = k ∧ status = .queued) ∨ (id ≠ k ∧ s.shared.status id = some .queued) := by
  unfold Store.setStatus at h
  dsimp only at h
  by_cases hk : id = k
  · subst hk
    rw [Function.update_self] at h
    exact .inl ⟨rfl, Option.some.inj h⟩
  · rw [Function.update_of_ne hk] at h
    exact .inr ⟨hk, h⟩

theorem Did.owed {move : Move κ} (hdid : Did s.shared (s.phase i) move t y)
    (howed : ∀ id, s.shared.status id = some .queued → Owed s id)
    (hrestores : RestoresOther s) (hqueued : t.status id = some .queued) :
    Owed ⟨t, Function.update s.phase i y⟩ id := by
  have hsame : ∀ k ∈ s.shared.queue.waiting,
      k ∈ s.shared.queue.waiting ∨ y.answersFor = some k := fun k hk => .inl hk
  cases hdid with
  | read hx =>
      refine (howed id hqueued).step hsame (List.Subset.refl _) fun hown => ?_
      rw [hx] at hown
      cases hown
  | @committed k previous hx =>
      rcases status_setStatus hqueued with ⟨rfl, -⟩ | ⟨-, hbefore⟩
      · -- the request itself answers for what it marks
        refine .inr (.inl ⟨i, ?_⟩)
        dsimp only
        rw [Function.update_self]
        rfl
      · refine (howed id hbefore).step hsame (List.Subset.refl _) fun hown => ?_
        rw [hx] at hown
        cases hown
  | @pushed k previous hx =>
      refine (howed id hqueued).step (fun k hk => .inl (List.mem_append_left _ hk))
        (List.Subset.refl _) fun hown => ?_
      rw [hx] at hown
      cases hown
      exact .inr (.inl (List.mem_append_right _ (List.mem_singleton.mpr rfl)))
  | pushFailed hx =>
      refine (howed id hqueued).step hsame (List.Subset.refl _) fun hown => ?_
      rw [hx] at hown
      exact .inl hown
  | @restored k previous hx =>
      rcases status_setStatus hqueued with ⟨rfl, hprevious⟩ | ⟨hne, hbefore⟩
      · exact absurd hprevious (hrestores i _ _ hx)
      · refine (howed id hbefore).step hsame (List.Subset.refl _) fun hown => ?_
        rw [hx] at hown
        cases hown
        exact absurd rfl hne
  | took hx hqueue =>
      obtain ⟨hwaiting, -⟩ := Fifo.handOut_eq_some hqueue
      refine (howed id hqueued).step (fun k hk => ?_) (List.Subset.refl _) fun hown => ?_
      · rw [hwaiting] at hk
        rcases List.mem_cons.mp hk with rfl | hrest
        · exact .inr rfl
        · exact .inl hrest
      · rw [hx] at hown
        cases hown
  | loaded hx hy =>
      refine (howed id hqueued).step hsame (List.Subset.refl _) fun hown => ?_
      rw [hx] at hown
      rcases hy with rfl | rfl
      · exact .inl hown
      · exact .inl hown
  | unknown hx hrow =>
      refine (howed id hqueued).step hsame (List.Subset.refl _) fun hown => ?_
      rw [hx] at hown
      cases hown
      rw [hrow] at hqueued
      cases hqueued
  | @gaveUp k hx =>
      refine (howed id hqueued).step hsame (List.subset_append_left _ _) fun hown => ?_
      rw [hx] at hown
      cases hown
      exact .inr (.inr (List.mem_append_right _ (List.mem_singleton.mpr rfl)))
  | @wrote k status _ _ hx hstatus hy =>
      rcases status_setStatus hqueued with ⟨-, hwritten⟩ | ⟨hne, hbefore⟩
      · exact absurd hwritten hstatus
      · refine (howed id hbefore).step hsame (List.Subset.refl _) fun hown => ?_
        rcases hx with hx | hx
        · rw [hx] at hown
          exact absurd (Option.some.inj hown).symm hne
        · rw [hx] at hown
          cases hown
  | ran hx hy =>
      refine (howed id hqueued).step hsame (List.Subset.refl _) fun hown => ?_
      rw [hx] at hown
      cases hown
  | died =>
      refine (howed id hqueued).step hsame (List.subset_append_left _ _) fun hown => ?_
      refine .inr (.inr (List.mem_append_right _ ?_))
      rw [hown]
      exact List.mem_singleton.mpr rfl

theorem Did.restores {move : Move κ} (hdid : Did s.shared (s.phase i) move t y)
    (h : RestoresOther s) (hfresh : FailsFresh s (i, move)) :
    RestoresOther (⟨t, Function.update s.phase i y⟩ : Processes ι κ) := by
  intro j k previous hj
  dsimp only at hj
  by_cases hji : j = i
  · subst hji
    rw [Function.update_self] at hj
    cases hdid with
    | pushFailed hx =>
        cases hj
        unfold FailsFresh at hfresh
        rw [hx] at hfresh
        exact hfresh
    | loaded hx hy =>
        rcases hy with rfl | rfl
        · cases hj
        · cases hj
    | wrote hx hstatus hy =>
        rcases hy with rfl | rfl
        · cases hj
        · cases hj
    | ran hx hy =>
        rcases hy with rfl | rfl | ⟨status, rfl⟩
        · cases hj
        · cases hj
        · cases hj
    | _ => cases hj
  · rw [Function.update_of_ne hji] at hj
    exact h j k previous hj

omit [DecidableEq ι] in
theorem Did.inOrder {move : Move κ} (hdid : Did s.shared (s.phase i) move t y)
    (h : s.shared.queue.pushed = s.shared.queue.handedOut ++ s.shared.queue.waiting) :
    t.queue.pushed = t.queue.handedOut ++ t.queue.waiting := by
  cases hdid with
  | @pushed k previous hx =>
      dsimp only
      rw [Fifo.pushed_push, Fifo.handedOut_push, Fifo.waiting_push, h, List.append_assoc]
  | took hx hqueue =>
      obtain ⟨hwaiting, hpushed, hhanded, -⟩ := Fifo.handOut_eq_some hqueue
      dsimp only
      rw [hpushed, hhanded, h, hwaiting, List.append_assoc]
      rfl
  | _ => exact h

end Steps

theorem Inv.step {s s' : Processes ι κ} {a : ι × Move κ} (h : Inv s) (hfresh : FailsFresh s a)
    (hstep : Interleaving.step next s a = some s') : Inv s' := by
  obtain ⟨r, hr, rfl⟩ := step_eq_some.mp hstep
  have hdid := next_did hr
  exact ⟨fun _ => hdid.owed h.owed h.restores, hdid.restores h.restores hfresh,
    hdid.inOrder h.inOrder⟩

/-- **A queued row is owed.** However requests, workers, other runs and deaths interleave, on
    any experiments: if no push fails for a row that was queued before, a row says queued only
    while its id waits or a process is at it that will write the row, or after one has died
    with the id or given it up. What was pushed is taken once, in its order. -/
theorem queued_is_owed {status : κ → Option ExperimentStatus}
    (hstatus : ∀ id, status id ≠ some .queued) {as : List (ι × Move κ)} {s : Processes ι κ}
    (hrun : Transition.run (Interleaving.step next) (start status) as = some s)
    (hfresh : Transition.Guarded (Interleaving.step next) FailsFresh
      (start status : Processes ι κ) as) :
    (∀ id, s.shared.status id = some .queued → Owed s id) ∧
      s.shared.queue.pushed = s.shared.queue.handedOut ++ s.shared.queue.waiting := by
  have hstart : Inv (start status : Processes ι κ) := by
    refine ⟨fun id hid => absurd hid (hstatus id), fun i id previous hphase => ?_, rfl⟩
    cases hphase
  have hinv := Transition.run_invariant_of_guarded
    (fun s a s' hs ha hstep => hs.step ha hstep) hstart hfresh hrun
  exact ⟨hinv.owed, hinv.inOrder⟩

section Example

/-- One experiment, which a request has created. -/
def oneExperiment (id : String) : Option ExperimentStatus :=
  if id = "exp-1" then some .created else none

/-- The two requests and the worker of the examples. -/
inductive Party where
  | first
  | second
  | worker
  deriving DecidableEq

instance : Fintype Party where
  elems := {.first, .second, .worker}
  complete party := by cases party <;> decide

/-- Two requests enqueue the experiment; a worker runs it for the first, and dies with the
    second. -/
def enqueuedTwice : List (Party × Move String) :=
  [(.first, .read "exp-1"), (.first, .commit), (.second, .read "exp-1"), (.first, .push true),
    (.second, .commit), (.worker, .take), (.worker, .load .ready), (.worker, .saveRunning),
    (.second, .push true), (.worker, .run (.returned .completed)), (.worker, .save),
    (.worker, .take), (.worker, .die)]

/-- The push of the second request fails, and the worker is done before the status is restored. -/
def restoredLate : List (Party × Move String) :=
  [(.first, .read "exp-1"), (.first, .commit), (.second, .read "exp-1"), (.first, .push true),
    (.second, .commit), (.second, .push false), (.worker, .take), (.worker, .load .ready),
    (.worker, .saveRunning), (.worker, .run (.returned .completed)), (.worker, .save),
    (.second, .restore)]

end Example

instance (s : Processes Party String) (id : String) : Decidable (Owed s id) :=
  inferInstanceAs (Decidable (_ ∨ _ ∨ _))

theorem queued_is_owed_enqueuedTwice : ∃ s : Processes Party String,
    Transition.run (Interleaving.step next) (start oneExperiment) enqueuedTwice = some s ∧
      s.shared.queue.pushed = ["exp-1", "exp-1"] ∧
      ∀ id, s.shared.status id = some .queued → Owed s id := by
  have hrun : ((Transition.run (Interleaving.step next) (start oneExperiment : Processes Party _)
      enqueuedTwice).map fun s => s.shared.queue.pushed) = some ["exp-1", "exp-1"] := by
    decide +kernel
  obtain ⟨s, hs, hpushed⟩ := Option.map_eq_some_iff.mp hrun
  have hstatus : ∀ id, oneExperiment id ≠ some .queued := by
    intro id
    unfold oneExperiment
    split_ifs <;> decide
  exact ⟨s, hs, hpushed, (queued_is_owed hstatus hs (by decide +kernel)).1⟩

/-- A row that is restored to queued after its job is done is owed by nobody. -/
theorem restores_queued : ((Transition.run (Interleaving.step next)
    (start oneExperiment : Processes Party _) restoredLate).map fun s =>
      (s.shared.status "exp-1", decide (Owed s "exp-1"))) = some (some .queued, false) := by
  decide +kernel

end WorkQueue

end NeuroForge
