/-
  Crashes and restarts of an experiment.

  `Search` is a search without its bookkeeping: no clock, no file, no version counter.
  `settle` is what the uninterrupted run does after a generation (check convergence, then
  go round the loop), `advance` what a process does that has just started (go round the
  loop). A process tracks such a search (`Tracks`), and a checkpoint restores one
  (`Restores`): the turn of a process is `advance` on what it tracks (`turn_advance`), and
  a restarted process tracks what the checkpoint restores (`load_tracks`).

  So a run with crashes follows the chain of `settle` as long as, where a process dies,
  `settle` and `advance` agree on the saved search (`step_onTrack`). They disagree when
  the saved generation is one the run would have stopped after by convergence: the check
  is made once, by the process that saved it.
-/
import NeuroForge.Experiments.Engine
import NeuroForge.Lib.Transition

namespace NeuroForge

open Fallible Transition

namespace ExperimentEngine

variable {ρ : Type}

/-! ## The search a process carries out -/

structure Search (ρ : Type) where
  strategy : SearchStrategy ρ
  tellBatches : List TellBatch
  best : Incumbent
  use : BudgetUse

inductive Advance (ρ : Type) where
  | stop (reason : String)
  | next (v : Search ρ)
  | raised (message : String)

def candidateCount (batches : List TellBatch) : ℕ := (batches.map (·.points.length)).sum

/-- One turn of the loop. -/
def advance (e : ExperimentEngine ρ) (setup : SearchSetup) (v : Search ρ) : Advance ρ :=
  match v.use.exhausted e.config.budget with
  | some reason => .stop reason
  | none =>
      if e.config.maxBatches ≤ v.tellBatches.length then .stop "max_batches reached"
      else
        match e.generation setup v.strategy v.best v.use
            (e.firstVersion + candidateCount v.tellBatches) v.tellBatches.length with
        | .error message => .raised message
        | .ok none => .stop "search space exhausted"
        | .ok (some (batch, strategy, best, use)) =>
            .next ⟨strategy, v.tellBatches ++ [batch], best, use⟩

/-- What the run does that is not interrupted: the convergence check, then the turn. -/
def settle (e : ExperimentEngine ρ) (setup : SearchSetup) (v : Search ρ) : Advance ρ :=
  match converged v.strategy v.best with
  | .error message => .raised message
  | .ok (some reason) => .stop reason
  | .ok none => advance e setup v

/-- One generation of the run that is not interrupted. -/
def Next (e : ExperimentEngine ρ) (setup : SearchSetup) (v v' : Search ρ) : Prop :=
  settle e setup v = .next v'

theorem next_rightUnique (e : ExperimentEngine ρ) (setup : SearchSetup) :
    Relator.RightUnique (Next e setup) := by
  intro v v₁ v₂ h₁ h₂
  have h : (Advance.next v₁ : Advance ρ) = .next v₂ := h₁.symm.trans h₂
  injection h

/-- A search that does not go on is the last of its chain. -/
theorem last_of_settle {e : ExperimentEngine ρ} {setup : SearchSetup} {v₀ v w : Search ρ}
    (hv : Relation.ReflTransGen (Next e setup) v₀ v)
    (hw : Relation.ReflTransGen (Next e setup) v₀ w)
    (hstopv : ∀ x, settle e setup v ≠ .next x) (hstopw : ∀ x, settle e setup w ≠ .next x) :
    v = w := by
  have h := reaches_terminal (next_rightUnique e setup) hv hw hstopw
  rcases Relation.ReflTransGen.cases_head h with heq | ⟨x, hx, -⟩
  · exact heq
  · exact absurd hx (hstopv x)

/-! ## What a generation leaves behind -/

/-- A generation asked for its points and told a fitness for each of them. -/
theorem generation_ok {e : ExperimentEngine ρ} {setup : SearchSetup}
    {strategy strategy' : SearchStrategy ρ} {best best' : Incumbent} {use use' : BudgetUse}
    {version index : ℕ} {batch : TellBatch}
    (h : e.generation setup strategy best use version index =
      .ok (some (batch, strategy', best', use'))) :
    ∃ n asked observations, strategy.ask e.runtime n = .ok (batch.points, asked) ∧
      batch.observations = .ok observations ∧
      observations.map (·.point) = batch.points ∧
      asked.tell e.runtime observations = .ok strategy' := by
  obtain ⟨asked, genomes, hask, -, hgenomes, heval, htell⟩ := generation_steps h
  have hlen : batch.points.length = batch.fitness.length :=
    ((length_evaluateBatch heval).trans (length_deriveBatch hgenomes)).symm
  refine ⟨_, asked, _, hask, if_pos hlen, ?_, htell⟩
  rw [List.map_map]
  exact List.map_fst_zip (le_of_eq hlen)

theorem replayStrategy_concat {e : ExperimentEngine ρ} {batches : List TellBatch}
    {batch : TellBatch} {strategy asked strategy' : SearchStrategy ρ} {n : ℕ}
    {observations : List Observation} (h : e.replayStrategy batches = .ok strategy)
    (hask : strategy.ask e.runtime n = .ok (batch.points, asked))
    (hobs : batch.observations = .ok observations)
    (hpoints : observations.map (·.point) = batch.points)
    (htell : asked.tell e.runtime observations = .ok strategy') :
    e.replayStrategy (batches ++ [batch]) = .ok strategy' := by
  obtain ⟨fresh, hfresh, h⟩ := bind_eq_ok.mp h
  obtain ⟨told, htold, h⟩ := bind_eq_ok.mp h
  have hround := replayRound_of_live hask hpoints htell
  unfold replay at h
  unfold replayStrategy
  simp only [hfresh, ok_bind, List.mapM_append, htold, List.mapM_cons, List.mapM_nil, hobs,
    pure_bind, replay, List.foldlM_append, h, List.foldlM_cons, hround, List.foldlM_nil]
  rfl

/-! ## Checkpoints and processes -/

/-- A process that loads `c` continues the search `v`, with time left. -/
structure Restores (e : ExperimentEngine ρ) (c : ExperimentCheckpoint) (v : Search ρ) :
    Prop where
  tellBatches : c.tellBatches = v.tellBatches
  strategy : e.replayStrategy c.tellBatches = .ok v.strategy
  best : (⟨c.bestGenome.getD e.baselineGenome, c.bestFitness, c.bestFeasible⟩ : Incumbent) =
    v.best
  use : (BudgetTracker.fromState c.budgetState).use = v.use
  version : c.datasetVersion = e.datasetVersion.version
  time : (BudgetTracker.fromState c.budgetState).priorElapsedMinutes <
    e.config.budget.maxDurationMinutes

/-- The search a process carries out. -/
def Progress.search (p : Progress ρ) : Search ρ :=
  ⟨p.strategy, p.ckpt.tellBatches, p.best, p.tracker.use⟩

/-- The variables of a process agree with each other and with its checkpoint. -/
structure Tracks (e : ExperimentEngine ρ) (setup : SearchSetup) (p : Progress ρ) : Prop where
  setup : p.setup = setup
  restores : Restores e p.ckpt p.search
  nextVersion : p.nextVersion = e.firstVersion + candidateCount p.ckpt.tellBatches
  generationIndex : p.generationIndex = p.ckpt.tellBatches.length
  time : p.tracker.priorElapsedMinutes < e.config.budget.maxDurationMinutes

/-- The status of a checkpoint plays no part in what it restores. -/
theorem Restores.withStatus {e : ExperimentEngine ρ} {c : ExperimentCheckpoint} {v : Search ρ}
    (h : Restores e c v) (status : RunStatus) (reason : String) :
    Restores e { c with status := status, stopReason := reason } v :=
  ⟨h.tellBatches, h.strategy, h.best, h.use, h.version, h.time⟩

theorem Restores.asRunning {e : ExperimentEngine ρ} {c : ExperimentCheckpoint} {v : Search ρ}
    (h : Restores e c v) : Restores e (asRunning c) v := by
  unfold ExperimentEngine.asRunning
  split_ifs
  · exact h
  · exact h.withStatus _ _

/-- A process that starts tracks the search its checkpoint restores. -/
theorem load_tracks {e : ExperimentEngine ρ} {setup : SearchSetup}
    (hsetup : e.searchSetup = .ok setup) {disk : Option ExperimentCheckpoint} {v : Search ρ}
    (h : Restores e (e.loadCheckpoint disk) v) :
    ∃ p, e.load disk = .ok p ∧ p.search = v ∧ Tracks e setup p := by
  have hcheck : e.checkDataset disk.isSome (e.loadCheckpoint disk) = .ok () :=
    if_neg fun hc => hc.2.2 h.version
  refine ⟨{
    setup := setup
    ckpt := e.loadCheckpoint disk
    strategy := v.strategy
    tracker := .fromState (e.loadCheckpoint disk).budgetState
    best := v.best
    nextVersion := e.firstVersion + (e.loadCheckpoint disk).candidatesCompleted
    generationIndex := (e.loadCheckpoint disk).generationsCompleted },
    ?_, ?_, ⟨rfl, ?_, rfl, rfl, h.time⟩⟩
  · unfold load
    simp only [hcheck, h.strategy, hsetup, ok_bind, h.best]
    rfl
  · unfold Progress.search
    simp only [h.tellBatches, h.use]
  · exact ⟨rfl, h.strategy, h.best, rfl, h.version, h.time⟩

/-- The turn of a process is the turn of the search it tracks, while the time limit does
    not bind. -/
theorem turn_advance {e : ExperimentEngine ρ} {setup : SearchSetup} {p : Progress ρ}
    (h : Tracks e setup p) {checked recorded : ℚ≥0}
    (hchecked : p.tracker.elapsedMinutes checked < e.config.budget.maxDurationMinutes)
    (hrecorded : p.tracker.elapsedMinutes recorded < e.config.budget.maxDurationMinutes) :
    match advance e setup p.search with
    | .stop reason => e.turn false checked recorded p = .stop reason
    | .raised message => e.turn false checked recorded p = .raised message
    | .next v => ∃ p', e.turn false checked recorded p = .saved p' ∧ Tracks e setup p' ∧
        p'.search = v := by
  have hexh := BudgetTracker.exhausted_of_elapsed_lt hchecked
  unfold advance turn
  rw [hexh]
  simp only [Bool.false_eq_true, if_false, Progress.search, h.setup, h.nextVersion,
    h.generationIndex]
  cases p.tracker.use.exhausted e.config.budget with
  | some reason => rfl
  | none =>
      dsimp only
      by_cases hmax : e.config.maxBatches ≤ p.ckpt.tellBatches.length
      · simp only [hmax, if_true]
      · simp only [hmax, if_false]
        cases hgen : e.generation setup p.strategy p.best p.tracker.use
            (e.firstVersion + candidateCount p.ckpt.tellBatches)
            p.ckpt.tellBatches.length with
        | error m => rfl
        | ok r =>
            rcases r with _ | ⟨batch, strategy, best, use⟩
            · rfl
            · obtain ⟨n, asked, observations, hask, hobs, hpoints, htell⟩ :=
                generation_ok hgen
              have hrep := replayStrategy_concat h.restores.strategy hask hobs hpoints htell
              refine ⟨_, rfl, ⟨rfl, ⟨rfl, hrep, rfl, ?_, h.restores.version, ?_⟩, ?_, ?_,
                h.time⟩, rfl⟩
              · rw [BudgetTracker.fromState_toState]
                rfl
              · rw [BudgetTracker.fromState_toState]
                exact hrecorded
              · simp [candidateCount, Nat.add_assoc]
              · simp

/-! ## The invariant of a run -/

/-- What a run ends with. -/
structure Outcome where
  tellBatches : List TellBatch
  bestGenome : SystemGenome
  bestFitness : WithBot ℚ
  bestFeasible : Bool
  candidateCount : ℕ
  stopReason : String
  deriving DecidableEq

/-- The outcome of a run that has returned: its checkpoint and its result. -/
def State.outcome (s : State ρ) : Option Outcome :=
  match s.phase, s.disk with
  | .returned r, some c => some ⟨c.tellBatches, r.bestGenome, c.bestFitness, c.bestFeasible,
      r.candidatesEvaluated, r.stopReason⟩
  | _, _ => none

def Search.outcome (v : Search ρ) (reason : String) : Outcome :=
  ⟨v.tellBatches, v.best.genome, v.best.fitness, v.best.feasible,
    candidateCount v.tellBatches, reason⟩

/-- The search of a run that starts. -/
def initialSearch (e : ExperimentEngine ρ) (fresh : SearchStrategy ρ) : Search ρ :=
  ⟨fresh, [], ⟨e.baselineGenome, ⊥, false⟩, {}⟩

/-- How the phase relates to the search `v` that the disk restores. -/
def At (e : ExperimentEngine ρ) (setup : SearchSetup) (v : Search ρ) (s : State ρ) : Prop :=
  match s.phase with
  | .idle => settle e setup v = advance e setup v
  | .looping p =>
      Tracks e setup p ∧ p.search = v ∧ settle e setup v = advance e setup v
  | .saved p => Tracks e setup p ∧ p.search = v
  | .stopping p reason => Tracks e setup p ∧ p.search = v ∧ settle e setup v = .stop reason
  | .stopped p => Tracks e setup p ∧ p.search = v ∧ s.disk = some p.ckpt ∧
      settle e setup v = .stop p.ckpt.stopReason
  | .returned _ => ∃ reason, settle e setup v = .stop reason ∧
      s.outcome = some (v.outcome reason)
  | .raised _ => ∃ message, settle e setup v = .raised message

/-- The state is one of the chain from `v₀`: the disk restores a search of the chain, and
    the process is where `At` says. -/
structure OnTrack (e : ExperimentEngine ρ) (setup : SearchSetup) (v₀ : Search ρ)
    (s : State ρ) : Prop where
  notCancelled : s.cancelFlag = false
  tracked : ∃ v, Relation.ReflTransGen (Next e setup) v₀ v ∧
    Restores e (e.loadCheckpoint s.disk) v ∧ At e setup v s

/-- The time limit does not bind in the step `a`. -/
def NotBinding (e : ExperimentEngine ρ) (s : State ρ) (a : Action) : Prop :=
  match a, s.phase with
  | .turn checked recorded, .looping p =>
      p.tracker.elapsedMinutes checked < e.config.budget.maxDurationMinutes ∧
        p.tracker.elapsedMinutes recorded < e.config.budget.maxDurationMinutes
  | _, _ => True

instance (e : ExperimentEngine ρ) (s : State ρ) (a : Action) :
    Decidable (NotBinding e s a) := by
  unfold NotBinding
  split <;> infer_instance

theorem validation_of_searchSetup {e : ExperimentEngine ρ} {setup : SearchSetup}
    (h : e.searchSetup = .ok setup) : 2 ≤ e.holdoutGuard.validationSet.length := by
  by_contra hlt
  have hlt' : decide (e.holdoutGuard.validationSet.length < 2) = true := by
    simpa using hlt
  unfold searchSetup at h
  simp only [hlt', Bool.or_true, if_true] at h
  cases h

/-- The last save of a run leaves the search it restores as it was. -/
theorem tracks_closed {e : ExperimentEngine ρ} {setup : SearchSetup} {p : Progress ρ}
    (h : Tracks e setup p) (reason : String) :
    Tracks e setup { p with ckpt := closeCheckpoint p.ckpt reason } :=
  ⟨h.setup, h.restores.withStatus _ _, h.nextVersion, h.generationIndex, h.time⟩

/-- A result read off a tracked search is the search's outcome. -/
theorem outcome_of_tracks {e : ExperimentEngine ρ} {setup : SearchSetup} {p : Progress ρ}
    (h : Tracks e setup p) {clock : ℚ≥0} {r : ExperimentResult}
    (hr : e.finalize p clock = .ok r) (flag : Bool) :
    (⟨some p.ckpt, flag, .returned r⟩ : State ρ).outcome =
      some (p.search.outcome p.ckpt.stopReason) := by
  obtain ⟨-, -, hreason, -, hcount, hgenome, -⟩ := finalize_result hr
  have hbest := h.restores.best
  have hfit : p.ckpt.bestFitness = p.best.fitness := congrArg Incumbent.fitness hbest
  have hfeas : p.ckpt.bestFeasible = p.best.feasible := congrArg Incumbent.feasible hbest
  unfold State.outcome Search.outcome Progress.search
  simp only [hreason, hcount, hgenome, hfit, hfeas]
  rfl

/-- `settle` on a tracked search, by what the process's own check says. -/
theorem settle_search (e : ExperimentEngine ρ) (setup : SearchSetup) (p : Progress ρ) :
    settle e setup p.search = match converged p.strategy p.best with
      | .error message => .raised message
      | .ok (some reason) => .stop reason
      | .ok none => advance e setup p.search := rfl

/-- A turn of the loop does what `settle` says of the search. -/
theorem settle_turn {e : ExperimentEngine ρ} {setup : SearchSetup} {p : Progress ρ}
    {checked recorded : ℚ≥0} {v : Search ρ} (htracks : Tracks e setup p) (hsearch : p.search = v)
    (hsettle : settle e setup v = advance e setup v)
    (hbind : p.tracker.elapsedMinutes checked < e.config.budget.maxDurationMinutes ∧
      p.tracker.elapsedMinutes recorded < e.config.budget.maxDurationMinutes) :
    match e.turn false checked recorded p with
    | .stop reason => settle e setup v = .stop reason
    | .raised message => settle e setup v = .raised message
    | .saved p' => settle e setup v = .next p'.search ∧ Tracks e setup p' := by
  have hturn := turn_advance htracks hbind.1 hbind.2
  rw [hsearch, ← hsettle] at hturn
  cases hadv : settle e setup v with
  | stop reason =>
      rw [hadv] at hturn
      rw [hturn]
  | raised message =>
      rw [hadv] at hturn
      rw [hturn]
  | next w =>
      rw [hadv] at hturn
      obtain ⟨p', hp', htracks', rfl⟩ := hturn
      rw [hp']
      exact ⟨rfl, htracks'⟩

/-- One step keeps a run on its track, if a crash happens only where a new process goes on
    as the old one would have. -/
theorem step_onTrack {e : ExperimentEngine ρ} {setup : SearchSetup} {v₀ : Search ρ}
    (hsetup : e.searchSetup = .ok setup) {s s' : State ρ} {a : Action}
    (h : OnTrack e setup v₀ s) (hbind : NotBinding e s a) (hcancel : a ≠ .cancel)
    (hcrash : a = .crash → ∀ v, Relation.ReflTransGen (Next e setup) v₀ v →
      Restores e (e.loadCheckpoint s.disk) v → settle e setup v = advance e setup v)
    (hstep : e.step s a = some s') : OnTrack e setup v₀ s' := by
  obtain ⟨hflag, v, hreach, hrestores, hat⟩ := h
  cases step_did hstep with
  | cancelled => exact absurd rfl hcancel
  | crashed => exact ⟨hflag, v, hreach, hrestores, hcrash rfl v hreach hrestores⟩
  | started hload =>
      rename_i disk flag p
      obtain ⟨p', hload', hsearch, htracks⟩ := load_tracks hsetup hrestores
      rw [hload] at hload'
      obtain rfl := Except.ok.inj hload'
      refine ⟨hflag, v, hreach, ?_, htracks, hsearch, hat⟩
      cases disk with
      | none => exact hrestores
      | some c => exact hrestores.asRunning
  | notStarted hload =>
      obtain ⟨p', hload', -⟩ := load_tracks hsetup hrestores
      rw [hload] at hload'
      cases hload'
  | leftLoop hturn =>
      obtain ⟨htracks, hsearch, hsettle⟩ := hat
      dsimp only at hflag
      subst hflag
      have hsettled := settle_turn htracks hsearch hsettle hbind
      rw [hturn] at hsettled
      exact ⟨rfl, v, hreach, hrestores, htracks, hsearch, hsettled⟩
  | turnRaised hturn =>
      obtain ⟨htracks, hsearch, hsettle⟩ := hat
      dsimp only at hflag
      subst hflag
      have hsettled := settle_turn htracks hsearch hsettle hbind
      rw [hturn] at hsettled
      exact ⟨rfl, v, hreach, hrestores, _, hsettled⟩
  | saved hturn =>
      obtain ⟨htracks, hsearch, hsettle⟩ := hat
      dsimp only at hflag
      subst hflag
      have hsettled := settle_turn htracks hsearch hsettle hbind
      rw [hturn] at hsettled
      obtain ⟨hnext, htracks'⟩ := hsettled
      exact ⟨rfl, _, hreach.tail hnext, htracks'.restores.asRunning, htracks', rfl⟩
  | wentOn hconverged =>
      rename_i disk flag p
      obtain ⟨htracks, hsearch⟩ := hat
      have hsettled := settle_search e setup p
      rw [hsearch, hconverged] at hsettled
      exact ⟨hflag, v, hreach, hrestores, htracks, hsearch, hsettled⟩
  | hasConverged hconverged =>
      rename_i disk flag p reason
      obtain ⟨htracks, hsearch⟩ := hat
      have hsettled := settle_search e setup p
      rw [hsearch, hconverged] at hsettled
      exact ⟨hflag, v, hreach, hrestores, htracks, hsearch, hsettled⟩
  | checkRaised hconverged =>
      rename_i disk flag p message
      obtain ⟨htracks, hsearch⟩ := hat
      have hsettled := settle_search e setup p
      rw [hsearch, hconverged] at hsettled
      exact ⟨hflag, v, hreach, hrestores, _, hsettled⟩
  | closed =>
      rename_i disk flag p reason
      obtain ⟨htracks, hsearch, hsettle⟩ := hat
      dsimp only at hflag
      subst hflag
      have htracks' := tracks_closed htracks reason
      refine ⟨by simp, v, hreach, ?_, htracks', hsearch, rfl, hsettle⟩
      rw [← hsearch]
      exact htracks'.restores.asRunning
  | finalized hfinal =>
      obtain ⟨htracks, hsearch, hdisk, hsettle⟩ := hat
      dsimp only at hdisk
      refine ⟨hflag, v, hreach, hrestores, _, hsettle, ?_⟩
      rw [hdisk, ← hsearch]
      exact outcome_of_tracks htracks hfinal _
  | finalizeRaised hfinal =>
      rename_i disk flag p clock message
      obtain ⟨r, hr⟩ := finalize_ok (validation_of_searchSetup hsetup) p clock
      rw [hr] at hfinal
      cases hfinal

/-! ## Every run on the track can be completed -/

/-- From `s` the process, left alone, returns with the outcome `o`. -/
def Completes (e : ExperimentEngine ρ) (s : State ρ) (o : Outcome) : Prop :=
  ∃ as t, (∀ a ∈ as, Action.isOwn a) ∧ run e.step s as = some t ∧ t.outcome = some o

theorem Completes.step {e : ExperimentEngine ρ} {s s' : State ρ} {a : Action} {o : Outcome}
    (ha : Action.isOwn a) (hstep : e.step s a = some s') (h : Completes e s' o) :
    Completes e s o := by
  obtain ⟨as, t, hown, hrun, ht⟩ := h
  refine ⟨a :: as, t, ?_, ?_, ht⟩
  · intro b hb
    rcases List.mem_cons.mp hb with rfl | hb
    · exact ha
    · exact hown b hb
  · rw [run_cons, hstep]
    exact hrun

theorem completes_stopped {e : ExperimentEngine ρ} {setup : SearchSetup}
    (hsetup : e.searchSetup = .ok setup) {p : Progress ρ} (htracks : Tracks e setup p)
    (flag : Bool) :
    Completes e ⟨some p.ckpt, flag, .stopped p⟩ (p.search.outcome p.ckpt.stopReason) := by
  obtain ⟨r, hr⟩ := finalize_ok (validation_of_searchSetup hsetup) p 0
  refine ⟨[.finalize 0], ⟨some p.ckpt, flag, .returned r⟩, ?_, ?_,
    outcome_of_tracks htracks hr flag⟩
  · intro a ha
    rw [List.mem_singleton.mp ha]
    exact ⟨by simp, by simp⟩
  · rw [run_cons]
    unfold ExperimentEngine.step
    simp only [hr]
    rfl

theorem completes_stopping {e : ExperimentEngine ρ} {setup : SearchSetup}
    (hsetup : e.searchSetup = .ok setup) {p : Progress ρ} (htracks : Tracks e setup p)
    (disk : Option ExperimentCheckpoint) (flag : Bool) (reason : String) :
    Completes e ⟨disk, flag, .stopping p reason⟩ (p.search.outcome reason) :=
  Completes.step (a := .stop) ⟨by simp, by simp⟩ rfl
    (completes_stopped hsetup (tracks_closed htracks reason) _)

/-- From the convergence check, given how it goes on inside the loop. -/
theorem completes_saved {e : ExperimentEngine ρ} {setup : SearchSetup}
    (hsetup : e.searchSetup = .ok setup) {w : Search ρ} {reason : String} {p : Progress ρ}
    (hchain : Relation.ReflTransGen (Next e setup) p.search w)
    (hstop : settle e setup w = .stop reason) (htracks : Tracks e setup p)
    (disk : Option ExperimentCheckpoint)
    (hloop : settle e setup p.search = advance e setup p.search →
      Completes e ⟨disk, false, .looping p⟩ (w.outcome reason)) :
    Completes e ⟨disk, false, .saved p⟩ (w.outcome reason) := by
  -- a generation the run stops after is the last of the chain
  have hend : (∀ x, settle e setup p.search ≠ .next x) → p.search = w := fun hx =>
    last_of_settle .refl hchain hx (by simp [hstop])
  have hsettle := settle_search e setup p
  cases hconv : converged p.strategy p.best with
  | error message =>
      rw [hconv] at hsettle
      rw [hend (by simp [hsettle]), hstop] at hsettle
      cases hsettle
  | ok r =>
      rw [hconv] at hsettle
      cases r with
      | none =>
          have hcheck : e.step ⟨disk, false, .saved p⟩ .checkConvergence =
              some ⟨disk, false, .looping p⟩ := by
            unfold ExperimentEngine.step
            simp only [hconv]
          exact Completes.step ⟨by simp, by simp⟩ hcheck (hloop hsettle)
      | some reason' =>
          have heq := hend (by simp [hsettle])
          rw [heq, hstop] at hsettle
          cases hsettle
          have hcheck : e.step ⟨disk, false, .saved p⟩ .checkConvergence =
              some ⟨disk, false, .stopping p reason⟩ := by
            unfold ExperimentEngine.step
            simp only [hconv]
          rw [← heq]
          exact Completes.step ⟨by simp, by simp⟩ hcheck
            (completes_stopping hsetup htracks _ _ reason)

/-- From inside the loop: the induction is on the rest of the chain. -/
theorem completes_looping {e : ExperimentEngine ρ} {setup : SearchSetup}
    (hsetup : e.searchSetup = .ok setup) {v w : Search ρ} {reason : String}
    (hchain : Relation.ReflTransGen (Next e setup) v w)
    (hstop : settle e setup w = .stop reason) :
    ∀ (p : Progress ρ) (disk : Option ExperimentCheckpoint), Tracks e setup p →
      p.search = v → settle e setup v = advance e setup v →
      Completes e ⟨disk, false, .looping p⟩ (w.outcome reason) := by
  have hlast : ∀ x, settle e setup w ≠ .next x := by simp [hstop]
  have hclock : ∀ p : Progress ρ, Tracks e setup p →
      p.tracker.elapsedMinutes 0 < e.config.budget.maxDurationMinutes := by
    intro p hp
    simpa [BudgetTracker.elapsedMinutes] using hp.time
  induction hchain using Relation.ReflTransGen.head_induction_on with
  | refl =>
      intro p disk htracks hsearch hsettle
      have hturn := turn_advance htracks (hclock p htracks) (hclock p htracks)
      rw [hsearch, ← hsettle, hstop] at hturn
      have hstep : e.step ⟨disk, false, .looping p⟩ (.turn 0 0) =
          some ⟨disk, false, .stopping p reason⟩ := by
        unfold ExperimentEngine.step
        simp only [hturn]
      rw [← hsearch]
      exact Completes.step ⟨by simp, by simp⟩ hstep
        (completes_stopping hsetup htracks disk false reason)
  | head hnext hrest ih =>
      rename_i v v'
      intro p disk htracks hsearch hsettle
      have hturn := turn_advance htracks (hclock p htracks) (hclock p htracks)
      rw [hsearch, ← hsettle, show settle e setup v = .next v' from hnext] at hturn
      obtain ⟨p', hp', htracks', hsearch'⟩ := hturn
      have hstep : e.step ⟨disk, false, .looping p⟩ (.turn 0 0) =
          some ⟨some p'.ckpt, false, .saved p'⟩ := by
        unfold ExperimentEngine.step
        simp only [hp']
      refine Completes.step ⟨by simp, by simp⟩ hstep ?_
      rw [← hsearch'] at hrest ih
      exact completes_saved hsetup hrest hstop htracks' _ (ih p' (some p'.ckpt) htracks' rfl)

/-- From every state on the track the process, left alone, returns with the outcome of the
    chain. -/
theorem completes_of_onTrack {e : ExperimentEngine ρ} {setup : SearchSetup}
    (hsetup : e.searchSetup = .ok setup) {v₀ w : Search ρ} {reason : String}
    (hw : Relation.ReflTransGen (Next e setup) v₀ w)
    (hstop : settle e setup w = .stop reason) {s : State ρ} (h : OnTrack e setup v₀ s) :
    Completes e s (w.outcome reason) := by
  obtain ⟨disk, flag, phase⟩ := s
  obtain ⟨hflag, v, hreach, hrestores, hat⟩ := h
  dsimp only at hflag hrestores
  subst hflag
  have hlast : ∀ x, settle e setup w ≠ .next x := by simp [hstop]
  have hchain := reaches_terminal (next_rightUnique e setup) hreach hw hlast
  have hend : (∀ x, settle e setup v ≠ .next x) → v = w := fun hx =>
    last_of_settle hreach hw hx hlast
  cases phase with
  | idle =>
      obtain ⟨p, hload, hsearch, htracks⟩ := load_tracks hsetup hrestores
      have hstart : e.step ⟨disk, false, .idle⟩ .start =
          some ⟨disk.map fun _ => e.loadCheckpoint disk, false, .looping p⟩ := by
        unfold ExperimentEngine.step
        simp only [hload]
      exact Completes.step ⟨by simp, by simp⟩ hstart
        (completes_looping hsetup hchain hstop p _ htracks hsearch hat)
  | looping p =>
      obtain ⟨htracks, hsearch, hsettle⟩ := hat
      exact completes_looping hsetup hchain hstop p disk htracks hsearch hsettle
  | saved p =>
      obtain ⟨htracks, hsearch⟩ := hat
      rw [← hsearch] at hchain
      exact completes_saved hsetup hchain hstop htracks disk
        (completes_looping hsetup hchain hstop p disk htracks rfl)
  | stopping p reason' =>
      obtain ⟨htracks, hsearch, hsettle⟩ := hat
      have heq := hend (by simp [hsettle])
      rw [heq, hstop] at hsettle
      cases hsettle
      rw [← heq, ← hsearch]
      exact completes_stopping hsetup htracks disk false reason
  | stopped p =>
      obtain ⟨htracks, hsearch, hdisk, hsettle⟩ := hat
      have heq := hend (by simp [hsettle])
      rw [heq, hstop] at hsettle
      injection hsettle with hreason
      dsimp only at hdisk
      rw [hdisk, ← heq, ← hsearch, hreason]
      exact completes_stopped hsetup htracks false
  | returned r =>
      obtain ⟨reason', hsettle, hout⟩ := hat
      have heq := hend (by simp [hsettle])
      rw [heq, hstop] at hsettle
      cases hsettle
      rw [← heq]
      exact ⟨[], _, by simp, rfl, hout⟩
  | raised message =>
      obtain ⟨message', hsettle⟩ := hat
      rw [hend (by simp [hsettle]), hstop] at hsettle
      cases hsettle

/-! ## Where a crash changes the outcome -/

/-- A process that starts goes on as the one did that saved its checkpoint: the run was not
    about to stop by convergence, or it was an exhausted grid, of which a new process finds
    nothing left while neither the budget nor the batches are used up. -/
def ResumeSafe (e : ExperimentEngine ρ) (p : Progress ρ) : Prop :=
  match converged p.strategy p.best with
  | .ok (some _) => e.config.searchStrategy = "grid" ∧
      p.tracker.use.exhausted e.config.budget = none ∧ p.generationIndex < e.config.maxBatches
  | _ => True

instance (e : ExperimentEngine ρ) (p : Progress ρ) : Decidable (ResumeSafe e p) := by
  unfold ResumeSafe
  split <;> infer_instance

/-- A crash strikes only where the checkpoint on disk can be resumed safely. -/
def CrashSafe (e : ExperimentEngine ρ) (s : State ρ) (a : Action) : Prop :=
  match a, e.load s.disk with
  | .crash, .ok p => ResumeSafe e p
  | _, _ => True

instance (e : ExperimentEngine ρ) (s : State ρ) (a : Action) : Decidable (CrashSafe e s a) := by
  unfold CrashSafe
  split <;> infer_instance

/-- The grid walk has as many points left as its cursor says. -/
def GridAligned (g : GridSearchStrategy) : Prop := g.cursor + g.points.length = g.total

theorem gridAligned_fresh (space : SearchSpace) : GridAligned (.fresh space) := by
  have h := SearchSpace.length_iterGrid space 4
  simpa [GridAligned, GridSearchStrategy.fresh] using h

theorem gridAligned_ask {g : GridSearchStrategy} (h : GridAligned g) (n : ℕ) :
    GridAligned (g.ask n).2 := by
  unfold GridAligned at h ⊢
  simp only [GridSearchStrategy.ask, List.length_take, List.length_drop]
  omega

/-- A replayed grid is a grid, and aligned. -/
theorem replay_grid {rt : Runtime ρ} {history : List (List Observation)}
    {g : GridSearchStrategy} {s : SearchStrategy ρ} (h : GridAligned g)
    (hr : replay rt (.grid g) history = .ok s) : ∃ g', s = .grid g' ∧ GridAligned g' := by
  induction history generalizing g with
  | nil =>
      cases hr
      exact ⟨g, rfl, h⟩
  | cons batch rest ih =>
      have hround : replayRound rt (.grid g) batch =
          .ok (.grid ((g.ask batch.length).2.tell batch)) := rfl
      rw [replay_cons hround] at hr
      exact ih (g := (g.ask batch.length).2.tell batch) (gridAligned_ask h batch.length) hr

/-- A grid that has converged has no point left to ask for. -/
theorem generation_grid_exhausted {e : ExperimentEngine ρ} {setup : SearchSetup}
    {g : GridSearchStrategy} (h : GridAligned g) (hex : g.exhausted = true)
    (best : Incumbent) (use : BudgetUse) (version index : ℕ) :
    e.generation setup (.grid g) best use version index = .ok none := by
  have hnil : g.points = [] := by
    have hcursor : g.total ≤ g.cursor := by simpa [GridSearchStrategy.exhausted] using hex
    unfold GridAligned at h
    exact List.length_eq_zero_iff.mp (by omega)
  unfold generation
  simp [SearchStrategy.ask, GridSearchStrategy.ask, hnil, ok_bind]

theorem converged_grid {g : GridSearchStrategy} {best : Incumbent} {reason : String}
    (h : converged (ρ := ρ) (.grid g) best = .ok (some reason)) :
    g.exhausted = true ∧ reason = "search space exhausted" := by
  unfold converged at h
  simp only [SearchStrategy.convergence, GridSearchStrategy.convergence, ok_bind,
    pure_eq_ok] at h
  split_ifs at h with hc hex
  · exact ⟨hex, (Option.some.inj h).symm⟩
  · simp [hex] at hc

/-- Where it is safe, the new process does what the old one would have done. -/
theorem settle_eq_advance {e : ExperimentEngine ρ} {setup : SearchSetup} {p : Progress ρ}
    (htracks : Tracks e setup p) (hsafe : ResumeSafe e p)
    (hraise : ∀ message, settle e setup p.search ≠ .raised message) :
    settle e setup p.search = advance e setup p.search := by
  have hsettle := settle_search e setup p
  cases hconv : converged p.strategy p.best with
  | error message =>
      rw [hconv] at hsettle
      exact absurd hsettle (hraise message)
  | ok r =>
      rw [hconv] at hsettle
      cases r with
      | none => exact hsettle
      | some reason =>
          unfold ResumeSafe at hsafe
          rw [hconv] at hsafe
          obtain ⟨hgrid, hbudget, hbatches⟩ := hsafe
          -- the strategy is the grid, and it is aligned
          have hname : e.getStrategy = .ok (.grid (.fresh e.config.searchSpace)) := by
            unfold getStrategy
            rw [hgrid]
            rfl
          have hrep := htracks.restores.strategy
          unfold replayStrategy at hrep
          rw [hname, ok_bind] at hrep
          obtain ⟨batches, -, hrep⟩ := bind_eq_ok.mp hrep
          obtain ⟨g, hg, haligned⟩ := replay_grid (gridAligned_fresh _) hrep
          have hg' : p.strategy = .grid g := hg
          rw [hg'] at hconv
          obtain ⟨hex, hreason⟩ := converged_grid hconv
          rw [htracks.generationIndex] at hbatches
          rw [hsettle, hreason]
          unfold advance Progress.search
          simp only [hbudget, not_le.mpr hbatches, if_false, hg',
            generation_grid_exhausted haligned hex]

/-! ## Resumption -/

/-- A process that came into its loop had a strategy and a search setup. -/
def Started (e : ExperimentEngine ρ) (s : State ρ) : Prop :=
  match s.phase with
  | .idle => True
  | .raised _ => True
  | _ => (∃ setup, e.searchSetup = .ok setup) ∧ ∃ fresh, e.getStrategy = .ok fresh

theorem started_of_load {e : ExperimentEngine ρ} {disk : Option ExperimentCheckpoint}
    {p : Progress ρ} (h : e.load disk = .ok p) :
    (∃ setup, e.searchSetup = .ok setup) ∧ ∃ fresh, e.getStrategy = .ok fresh := by
  obtain ⟨-, -, h⟩ := bind_eq_ok.mp h
  obtain ⟨strategy, hstrategy, h⟩ := bind_eq_ok.mp h
  obtain ⟨setup, hsetup, -⟩ := bind_eq_ok.mp h
  obtain ⟨fresh, hfresh, -⟩ := bind_eq_ok.mp hstrategy
  exact ⟨⟨setup, hsetup⟩, fresh, hfresh⟩

theorem step_started {e : ExperimentEngine ρ} {s s' : State ρ} {a : Action}
    (h : Started e s) (hstep : e.step s a = some s') : Started e s' := by
  cases step_did hstep with
  | started hload => exact started_of_load hload
  | notStarted | turnRaised | checkRaised | finalizeRaised | crashed => trivial
  | leftLoop | saved | wentOn | hasConverged | closed | finalized | cancelled => exact h

/-- A fresh strategy answers `convergence()`. -/
theorem convergence_fresh {e : ExperimentEngine ρ} {fresh : SearchStrategy ρ}
    (h : e.getStrategy = .ok fresh) : ∃ c, fresh.convergence = .ok c := by
  obtain ⟨name, -, h⟩ := bind_eq_ok.mp h
  cases h
  cases name with
  | evolutionary =>
      unfold NeuroForge.getStrategy
      cases e.config.batchSize <;> exact ⟨_, rfl⟩
  | _ => exact ⟨_, rfl⟩

/-- Before anything has run, the empty disk restores the initial search. -/
theorem onTrack_initial {e : ExperimentEngine ρ} {setup : SearchSetup}
    {fresh : SearchStrategy ρ} (hfresh : e.getStrategy = .ok fresh)
    (htime : 0 < e.config.budget.maxDurationMinutes) :
    OnTrack e setup (initialSearch e fresh) {} := by
  obtain ⟨c, hc⟩ := convergence_fresh hfresh
  have hrestores : Restores e e.freshCheckpoint (initialSearch e fresh) := by
    refine ⟨rfl, ?_, rfl, ?_, rfl, ?_⟩
    · unfold replayStrategy
      rw [hfresh]
      rfl
    · rw [show e.freshCheckpoint.budgetState = [] from rfl, BudgetTracker.fromState_nil]
      rfl
    · rw [show e.freshCheckpoint.budgetState = [] from rfl, BudgetTracker.fromState_nil]
      exact htime
  have hsettle : settle e setup (initialSearch e fresh) =
      advance e setup (initialSearch e fresh) := by
    unfold settle converged initialSearch
    simp only [hc, ok_bind, Bool.and_false, Bool.false_eq_true, if_false]
    rfl
  exact ⟨rfl, _, .refl, hrestores, hsettle⟩

/-- The outcome of a run on the track is that of a search the chain stops at. -/
theorem outcome_of_onTrack {e : ExperimentEngine ρ} {setup : SearchSetup} {v₀ : Search ρ}
    {s : State ρ} {o : Outcome} (h : OnTrack e setup v₀ s) (ho : s.outcome = some o) :
    ∃ v reason, Relation.ReflTransGen (Next e setup) v₀ v ∧
      settle e setup v = .stop reason ∧ o = v.outcome reason := by
  obtain ⟨disk, flag, phase⟩ := s
  obtain ⟨-, v, hreach, -, hat⟩ := h
  cases phase with
  | returned r =>
      obtain ⟨reason, hsettle, hout⟩ := hat
      rw [hout] at ho
      exact ⟨v, reason, hreach, hsettle, (Option.some.inj ho).symm⟩
  | _ => cases ho

end ExperimentEngine

open ExperimentEngine

/-- **Crash-resume equivalence, where it holds.** Take a run that is never interrupted and
    returns, and a run in which the process dies any number of times, each time with a
    checkpoint on disk that is safe to resume. Then the second run can only return with
    the outcome of the first (rounds, selected genome, fitness, feasibility, count and
    stop reason), and from wherever it is, the process left alone does return with it. -/
theorem crash_resume {ρ : Type} (e : ExperimentEngine ρ)
    (htime : 0 < e.config.budget.maxDurationMinutes) (as bs : List Action) (u s : State ρ)
    (o : Outcome) (hown : ∀ a ∈ as, Action.isOwn a)
    (has : Guarded e.step (NotBinding e) {} as) (hu : run e.step {} as = some u)
    (ho : u.outcome = some o)
    (hbs : Guarded e.step (fun s a => NotBinding e s a ∧ a ≠ .cancel ∧ CrashSafe e s a) {} bs)
    (hs : run e.step {} bs = some s) :
    (∀ o', s.outcome = some o' → o' = o) ∧ Completes e s o := by
  have hstarted : Started e u :=
    run_invariant (fun _ _ _ => step_started) (s := {}) trivial hu
  have hreturned : ∃ r, u.phase = .returned r := by
    obtain ⟨disk, flag, phase⟩ := u
    cases phase with
    | returned r => exact ⟨r, rfl⟩
    | _ => cases ho
  obtain ⟨r, hr⟩ := hreturned
  unfold Started at hstarted
  rw [hr] at hstarted
  obtain ⟨⟨setup, hsetup⟩, fresh, hfresh⟩ := hstarted
  have hinit : OnTrack e setup (initialSearch e fresh) {} := onTrack_initial hfresh htime
  -- the run that is not interrupted ends at the end `w` of the chain
  have htrack : OnTrack e setup (initialSearch e fresh) u := by
    exact run_invariant_of_guarded
      (fun s a s' h hok hstep => step_onTrack hsetup h hok.1 hok.2.2
        (fun hc => absurd hc hok.2.1) hstep) hinit (has.and_mem hown) hu
  obtain ⟨w, reason, hw, hstop, rfl⟩ := outcome_of_onTrack htrack ho
  have hlast : ∀ x, settle e setup w ≠ .next x := by simp [hstop]
  -- the interrupted run follows the same chain
  have htrack' : OnTrack e setup (initialSearch e fresh) s := by
    refine run_invariant_of_guarded (fun s a s' h hok hstep => ?_) hinit hbs hs
    refine step_onTrack hsetup h hok.1 hok.2.1 (fun hc v hv hrestores => ?_) hstep
    obtain ⟨p, hload, rfl, htracks⟩ := load_tracks hsetup hrestores
    have hsafe := hok.2.2
    unfold CrashSafe at hsafe
    rw [hc, hload] at hsafe
    refine settle_eq_advance htracks hsafe fun message hm => ?_
    have heq := last_of_settle hv hw (by simp [hm]) hlast
    rw [heq, hstop] at hm
    cases hm
  refine ⟨fun o' ho' => ?_, completes_of_onTrack hsetup hw hstop htrack'⟩
  obtain ⟨v, reason', hv, hstop', rfl⟩ := outcome_of_onTrack htrack' ho'
  have heq := last_of_settle hv hw (by simp [hstop']) hlast
  rw [heq, hstop] at hstop'
  cases hstop'
  rw [heq]

section Example

/-- `n` generations, each with its convergence check. -/
def generations (n : ℕ) : List Action :=
  (List.replicate n [.turn 0 0, .checkConvergence]).flatten

/-- Four rounds of equal fitness are a plateau. -/
def uninterrupted : List Action := .start :: generations 4 ++ [.stop, .finalize 0]

/-- The process dies between the fourth save and the check that would have ended the run;
    its successor goes on for a fifth round. -/
def interrupted : List Action :=
  .start :: generations 3 ++ [.turn 0 0, .crash, .start] ++ generations 1 ++
    [.stop, .finalize 0]

end Example

/-- A crash right after the save of the last generation changes the outcome: a fifth round
    is evaluated and recorded. -/
theorem crash_resume_fails :
    (∀ a ∈ uninterrupted, Action.isOwn a) ∧ .cancel ∉ interrupted ∧
    Guarded exampleEngine.step (NotBinding exampleEngine) {} uninterrupted ∧
    Guarded exampleEngine.step (NotBinding exampleEngine) {} interrupted ∧
    ((run exampleEngine.step {} uninterrupted).bind State.outcome).map
      (fun o => (o.tellBatches.length, o.candidateCount, o.stopReason)) =
      some (4, 4, "fitness plateau detected across rounds") ∧
    ((run exampleEngine.step {} interrupted).bind State.outcome).map
      (fun o => (o.tellBatches.length, o.candidateCount, o.stopReason)) =
      some (5, 5, "fitness plateau detected across rounds") := by
  decide +kernel

/-- Two crashes early in the same run, one of them between a save and its check. -/
theorem crash_resume_early :
    ∃ u s o, run exampleEngine.step {} uninterrupted = some u ∧ u.outcome = some o ∧
      run exampleEngine.step {} [.start, .crash, .start, .turn 0 0, .crash] = some s ∧
      Completes exampleEngine s o := by
  obtain ⟨u, hu⟩ : ∃ u, run exampleEngine.step {} uninterrupted = some u :=
    Option.isSome_iff_exists.mp (by decide +kernel)
  obtain ⟨o, ho⟩ : ∃ o, u.outcome = some o := by
    have h : ((run exampleEngine.step {} uninterrupted).bind State.outcome).isSome = true := by
      decide +kernel
    rw [hu] at h
    exact Option.isSome_iff_exists.mp h
  obtain ⟨s, hs⟩ : ∃ s, run exampleEngine.step {}
      [.start, .crash, .start, .turn 0 0, .crash] = some s :=
    Option.isSome_iff_exists.mp (by decide +kernel)
  exact ⟨u, s, o, hu, ho, hs, (crash_resume exampleEngine (by decide +kernel) uninterrupted
    [.start, .crash, .start, .turn 0 0, .crash] u s o (by decide) (by decide +kernel) hu ho
    (by decide +kernel) hs).2⟩

end NeuroForge
