/-
  The engine's machine is the journal's, looked at when it saves.

  A turn of the loop is one step of `Engine` and a run of `Journal`: the candidates are
  derived one by one (`run_derive`), evaluated one by one with the outcome the evaluator and
  the timeout give (`run_evaluate`), told and saved. `step_written` matches every step of
  the engine so, and `run_written` every run, with the same disk and the same process.
-/
import NeuroForge.Experiments.Journal

namespace NeuroForge

open Fallible Transition

variable {ρ : Type}

namespace ExperimentEngine

variable (e : ExperimentEngine ρ)

/-! ## One candidate -/

/-- What evaluating a candidate comes to with the engine's own evaluator and timeout. -/
def outcomeOf (setup : SearchSetup) (genome : SystemGenome) : EvaluationOutcome :=
  let (results, timedOut) := e.evaluateCandidate genome setup.challenges
  if timedOut then .timedOut else .answered results

variable {e}

theorem scoreOutcome_outcomeOf (setup : SearchSetup) (index : ℕ) (genome : SystemGenome) :
    e.scoreOutcome setup index genome (e.outcomeOf setup genome) =
      some (e.scoreResults setup index genome (e.evaluateCandidate genome setup.challenges).1
        (e.evaluateCandidate genome setup.challenges).2) := by
  unfold outcomeOf evaluateCandidate
  cases htimeout : e.config.evaluationTimeoutSeconds with
  | none => rfl
  | some timeout =>
      by_cases hout : e.timesOut genome.content setup.challenges = true
      · simp only [hout, if_true, scoreOutcome, htimeout, Option.map_some]
        rfl
      · simp only [hout, Bool.false_eq_true, if_false, scoreOutcome]

/-- A candidate's score, as the engine's evaluation loop has it. -/
theorem scoreCandidate_eq (setup : SearchSetup) (index : ℕ) (genome : SystemGenome) :
    e.scoreCandidate setup genome =
      (e.scoreResults setup index genome (e.evaluateCandidate genome setup.challenges).1
        (e.evaluateCandidate genome setup.challenges).2).map
        fun s => (s.fitness, s.feasible, s.cost) := by
  unfold scoreCandidate scoreResults
  dsimp only
  cases aggregate (e.evaluateCandidate genome setup.challenges).1
      (setup.challenges.map (·.category)) with
  | error message => rfl
  | ok agg =>
      simp only [ok_bind, totalMagnitude, Scored.feasible, Except.map, pure, Except.pure]

/-- The scores of a batch, one candidate after the other. -/
def scoreBatch (e : ExperimentEngine ρ) (setup : SearchSetup) (index : ℕ) :
    List SystemGenome → Except String (List Scored)
  | [] => .ok []
  | genome :: genomes => do
      let s ← e.scoreResults setup index genome (e.evaluateCandidate genome setup.challenges).1
        (e.evaluateCandidate genome setup.challenges).2
      let rest ← scoreBatch e setup index genomes
      return s :: rest

theorem evaluateBatch_eq (setup : SearchSetup) (index : ℕ) (genomes : List SystemGenome)
    (best : Incumbent) (use : BudgetUse) :
    e.evaluateBatch setup genomes best use =
      (e.scoreBatch setup index genomes).map fun scored =>
        (scored.map (·.fitness),
          scored.foldl (fun b s => b.consider s.genome s.fitness s.feasible) best,
          scored.foldl (fun u s => u.record 1 setup.challenges.length s.cost) use) := by
  induction genomes generalizing best use with
  | nil => rfl
  | cons genome genomes ih =>
      unfold evaluateBatch scoreBatch
      rw [scoreCandidate_eq setup index genome]
      cases hs : e.scoreResults setup index genome
          (e.evaluateCandidate genome setup.challenges).1
          (e.evaluateCandidate genome setup.challenges).2 with
      | error message => rfl
      | ok s =>
          obtain rfl : s.genome = genome := by
            obtain ⟨agg, -, hs⟩ := bind_eq_ok.mp hs
            obtain rfl := Except.ok.inj hs
            rfl
          simp only [Except.map, ok_bind, ih]
          cases e.scoreBatch setup index genomes with
          | error message => rfl
          | ok rest => rfl

/-! ## One generation -/

/-- Where the process is after it derived the rest of a batch. -/
def derivedStage (p : Progress ρ) (r : Round ρ) : Except String (List SystemGenome) → Stage ρ
  | .ok genomes => .evaluating p { r with genomes := r.genomes ++ genomes }
  | .error message => .raised message

/-- The points still to come are derived one after the other; where one is refused, the
    process raises. -/
theorem run_derive {p : Progress ρ} {r : Round ρ} {rest : List Point}
    (hrest : r.points.drop r.genomes.length = rest) (disk : Option ExperimentCheckpoint)
    (flag : Bool) (log : List EngineEvent) (rs : List Scored) :
    ∃ as log', run e.write ⟨disk, flag, log, .generating p r, rs⟩ as =
      some ⟨disk, flag, log', derivedStage p r (e.deriveBatch p.generationIndex rest
        (p.nextVersion + r.genomes.length)), rs⟩ := by
  induction rest generalizing r log with
  | nil =>
      have hnone : r.points[r.genomes.length]? = none :=
        List.getElem?_eq_none_iff.mpr (List.drop_eq_nil_iff.mp hrest)
      refine ⟨[.derive], log, ?_⟩
      simp only [run_cons, write, hnone, Option.bind_some, run_nil, deriveBatch, derivedStage,
        List.append_nil]
  | cons point rest ih =>
      have hsome : r.points[r.genomes.length]? = some point := by
        rw [← List.head?_drop, hrest]
        rfl
      unfold deriveBatch
      cases hderive : e.deriveCandidate point (p.nextVersion + r.genomes.length)
          p.generationIndex with
      | error message =>
          refine ⟨[.derive], log, ?_⟩
          simp only [run_cons, write, hsome, hderive, Option.bind_some, run_nil]
          rfl
      | ok genome =>
          have hnext : ({ r with genomes := r.genomes ++ [genome] } : Round ρ).points.drop
              (r.genomes ++ [genome]).length = rest := by
            rw [List.length_append, List.length_singleton, ← List.drop_drop, hrest]
            rfl
          obtain ⟨as, log', hrun⟩ := ih (r := { r with genomes := r.genomes ++ [genome] })
            hnext (log ++ [e.generatedEvent genome point])
          refine ⟨.derive :: as, log', ?_⟩
          simp only [run_cons, write, hsome, hderive, Option.bind_some, hrun, ok_bind,
            List.length_append, List.length_singleton, Nat.add_assoc]
          cases e.deriveBatch p.generationIndex rest
              (p.nextVersion + (r.genomes.length + 1)) with
          | error message => rfl
          | ok genomes =>
              simp only [derivedStage, List.append_assoc]
              rfl

/-- Where the process is after it evaluated the rest of a batch. -/
def evaluatedStage (p : Progress ρ) (r : Round ρ) : Except String (List Scored) → Stage ρ
  | .ok scored => .evaluating p { r with scored := r.scored ++ scored }
  | .error message => .raised message

/-- The candidates still to come are evaluated one after the other. -/
theorem run_evaluate {p : Progress ρ} {r : Round ρ} {rest : List SystemGenome}
    (hrest : r.genomes.drop r.scored.length = rest) (disk : Option ExperimentCheckpoint)
    (flag : Bool) (log : List EngineEvent) (rs : List Scored) :
    ∃ as log', run e.write ⟨disk, flag, log, .evaluating p r, rs⟩ as =
      some ⟨disk, flag, log',
        evaluatedStage p r (e.scoreBatch p.setup p.generationIndex rest), rs⟩ := by
  induction rest generalizing r log with
  | nil =>
      refine ⟨[], log, ?_⟩
      simp only [run_nil, scoreBatch, evaluatedStage, List.append_nil]
  | cons genome rest ih =>
      have hsome : r.genomes[r.scored.length]? = some genome := by
        rw [← List.head?_drop, hrest]
        rfl
      have hscore := scoreOutcome_outcomeOf (e := e) p.setup p.generationIndex genome
      unfold scoreBatch
      cases hs : e.scoreResults p.setup p.generationIndex genome
          (e.evaluateCandidate genome p.setup.challenges).1
          (e.evaluateCandidate genome p.setup.challenges).2 with
      | error message =>
          rw [hs] at hscore
          refine ⟨[.evaluate (e.outcomeOf p.setup genome)], log, ?_⟩
          simp only [run_cons, write, hsome, hscore, Option.bind_some, run_nil]
          rfl
      | ok s =>
          rw [hs] at hscore
          have hnext : ({ r with scored := r.scored ++ [s] } : Round ρ).genomes.drop
              (r.scored ++ [s]).length = rest := by
            rw [List.length_append, List.length_singleton, ← List.drop_drop, hrest]
            rfl
          obtain ⟨as, log', hrun⟩ := ih (r := { r with scored := r.scored ++ [s] })
            hnext (log ++ [.candidateEvaluated (s.payload e.genomeDigest)])
          refine ⟨.evaluate (e.outcomeOf p.setup genome) :: as, log', ?_⟩
          simp only [run_cons, write, hsome, hscore, Option.bind_some, hrun, ok_bind]
          cases e.scoreBatch p.setup p.generationIndex rest with
          | error message => rfl
          | ok scored =>
              simp only [evaluatedStage, List.append_assoc]
              rfl

/-- What is told of a round whose points are asked. -/
def finishRound (e : ExperimentEngine ρ) (p : Progress ρ) (r : Round ρ) :
    Except String (Option (TellBatch × SearchStrategy ρ × Incumbent × BudgetUse)) := do
  let genomes ← e.deriveBatch p.generationIndex r.points p.nextVersion
  let scored ← e.scoreBatch p.setup p.generationIndex genomes
  let r := { r with genomes := genomes, scored := scored }
  let strategy ← r.strategy.tell e.runtime r.observations
  return some (r.batch, strategy, r.best p.best, r.use p.setup p.tracker.use)

def finishOpened (e : ExperimentEngine ρ) (p : Progress ρ) : Option (Round ρ) →
    Except String (Option (TellBatch × SearchStrategy ρ × Incumbent × BudgetUse))
  | none => .ok none
  | some r => e.finishRound p r

theorem generation_eq (p : Progress ρ) :
    e.generation p.setup p.strategy p.best p.tracker.use p.nextVersion p.generationIndex =
      e.openRound p >>= e.finishOpened p := by
  unfold generation openRound
  dsimp only
  cases p.strategy.ask e.runtime (min e.config.batchSize
      (e.config.budget.maxCandidates - p.tracker.use.candidatesUsed)) with
  | error message => rfl
  | ok asked =>
      obtain ⟨points, strategy⟩ := asked
      simp only [ok_bind]
      by_cases hempty : points.isEmpty = true
      · simp only [hempty, if_true]
        rfl
      · simp only [hempty, Bool.false_eq_true, if_false]
        cases e.checkPolicy points with
        | error message => rfl
        | ok _ =>
            show _ = e.finishRound p { points := points, strategy := strategy }
            unfold finishRound
            simp only [ok_bind]
            cases e.deriveBatch p.generationIndex points p.nextVersion with
            | error message => rfl
            | ok genomes =>
                simp only [ok_bind, evaluateBatch_eq p.setup p.generationIndex]
                cases e.scoreBatch p.setup p.generationIndex genomes with
                | error message => rfl
                | ok scored => rfl

theorem length_scoreBatch {setup : SearchSetup} {index : ℕ} {genomes : List SystemGenome}
    {scored : List Scored} (h : e.scoreBatch setup index genomes = .ok scored) :
    scored.length = genomes.length := by
  induction genomes generalizing scored with
  | nil =>
      obtain rfl := Except.ok.inj h
      rfl
  | cons genome genomes ih =>
      obtain ⟨s, -, h⟩ := bind_eq_ok.mp h
      obtain ⟨rest, hrest, h⟩ := bind_eq_ok.mp h
      obtain rfl := Except.ok.inj h
      rw [List.length_cons, List.length_cons, ih hrest]

/-! ## One turn -/

/-- The journal where a turn of the loop has come to its end. -/
def Turned (disk : Option ExperimentCheckpoint) (flag : Bool) (p : Progress ρ) :
    Turn ρ → Journal ρ → Prop
  | .stop reason, j => j.disk = disk ∧ j.cancelFlag = false ∧ j.stage = .stopping p reason
  | .saved p', j => j.disk = some p'.ckpt ∧ j.cancelFlag = flag ∧ j.stage = .saved p'
  | .raised message, j => j.disk = disk ∧ j.cancelFlag = flag ∧ j.stage = .raised message

/-- What comes of a generation, as a turn. -/
def generationTurn (p : Progress ρ) (recorded : ℚ≥0) :
    Except String (Option (TellBatch × SearchStrategy ρ × Incumbent × BudgetUse)) → Turn ρ
  | .error message => .raised message
  | .ok none => .stop "search space exhausted"
  | .ok (some (batch, strategy, best, use)) =>
      let tracker := { p.tracker with use := use }
      .saved { p with
        strategy := strategy
        tracker := tracker
        best := best
        nextVersion := p.nextVersion + batch.points.length
        generationIndex := p.generationIndex + 1
        ckpt := { p.ckpt with
          tellBatches := p.ckpt.tellBatches ++ [batch]
          budgetState := tracker.toState recorded
          bestGenome := some best.genome
          bestFitness := best.fitness
          bestFeasible := best.feasible } }

theorem turn_eq_stop {flag : Bool} {checked recorded : ℚ≥0} {p : Progress ρ} {reason : String}
    (h : e.leaveReason flag checked p = some reason) :
    e.turn flag checked recorded p = .stop reason := by
  unfold leaveReason at h
  unfold turn
  cases flag with
  | true =>
      simp only [if_true] at h ⊢
      rw [Option.some.inj h]
  | false =>
      simp only [Bool.false_eq_true, if_false] at h ⊢
      cases hexhausted : p.tracker.exhausted e.config.budget checked with
      | some limit =>
          rw [hexhausted] at h
          rw [Option.some.inj h]
      | none =>
          rw [hexhausted] at h
          by_cases hbatches : e.config.maxBatches ≤ p.generationIndex
          · rw [if_pos hbatches] at h
            simp only [if_pos hbatches]
            rw [Option.some.inj h]
          · rw [if_neg hbatches] at h
            cases h

theorem turn_eq_generation {flag : Bool} {checked recorded : ℚ≥0} {p : Progress ρ}
    (h : e.leaveReason flag checked p = none) :
    e.turn flag checked recorded p =
      generationTurn p recorded (e.openRound p >>= e.finishOpened p) := by
  rw [← generation_eq]
  unfold leaveReason at h
  unfold turn
  cases flag with
  | true => cases h
  | false =>
      simp only [Bool.false_eq_true, if_false] at h ⊢
      cases hexhausted : p.tracker.exhausted e.config.budget checked with
      | some limit =>
          rw [hexhausted] at h
          cases h
      | none =>
          rw [hexhausted] at h
          by_cases hbatches : e.config.maxBatches ≤ p.generationIndex
          · rw [if_pos hbatches] at h
            cases h
          · simp only [if_neg hbatches]
            rcases e.generation p.setup p.strategy p.best p.tracker.use p.nextVersion
              p.generationIndex with message | _ | ⟨batch, strategy, best, use⟩ <;> rfl

/-- A round whose candidates are all evaluated is told and saved. -/
theorem run_tell {p : Progress ρ} {r : Round ρ} (hall : r.scored.length = r.genomes.length)
    (disk : Option ExperimentCheckpoint) (flag : Bool) (log : List EngineEvent)
    (rs : List Scored) (recorded : ℚ≥0) :
    ∃ as j, run e.write ⟨disk, flag, log, .evaluating p r, rs⟩ as = some j ∧
      Turned disk flag p (generationTurn p recorded (do
        let strategy ← r.strategy.tell e.runtime r.observations
        return some (r.batch, strategy, r.best p.best, r.use p.setup p.tracker.use))) j := by
  cases htell : r.strategy.tell e.runtime r.observations with
  | error message =>
      refine ⟨[.tell], ⟨disk, flag, log, .raised message, rs⟩, ?_, rfl, rfl, rfl⟩
      simp only [run_cons, write, hall, if_true, htell, Option.bind_some, run_nil]
  | ok strategy =>
      refine ⟨[.tell, .save recorded], ⟨some (closeRound p { r with strategy := strategy }
        recorded).ckpt, flag, log ++ [completedEvent p r],
          .saved (closeRound p { r with strategy := strategy } recorded), rs ++ r.scored⟩,
        ?_, rfl, rfl, rfl⟩
      simp only [run_cons, write, hall, if_true, htell, Option.bind_some, run_nil]

/-- A round that is asked runs to its end. -/
theorem run_round {p : Progress ρ} {r : Round ρ} (hgenomes : r.genomes = [])
    (hscored : r.scored = []) (disk : Option ExperimentCheckpoint) (flag : Bool)
    (log : List EngineEvent) (rs : List Scored) (recorded : ℚ≥0) :
    ∃ as j, run e.write ⟨disk, flag, log, .generating p r, rs⟩ as = some j ∧
      Turned disk flag p (generationTurn p recorded (e.finishRound p r)) j := by
  have hpoints : r.points.drop r.genomes.length = r.points := by
    rw [hgenomes]
    rfl
  obtain ⟨as₁, log₁, hderive⟩ := run_derive (e := e) hpoints disk flag log rs
  rw [hgenomes, List.length_nil, Nat.add_zero] at hderive
  unfold finishRound
  cases hbatch : e.deriveBatch p.generationIndex r.points p.nextVersion with
  | error message =>
      rw [hbatch] at hderive
      exact ⟨as₁, _, hderive, rfl, rfl, rfl⟩
  | ok genomes =>
      rw [hbatch] at hderive
      have hrest : ({ r with genomes := r.genomes ++ genomes } : Round ρ).genomes.drop
          r.scored.length = genomes := by
        simp [hgenomes, hscored]
      obtain ⟨as₂, log₂, hevaluate⟩ := run_evaluate (e := e) (p := p)
        (r := { r with genomes := r.genomes ++ genomes }) hrest disk flag log₁ rs
      have hboth := (run_append e.write ⟨disk, flag, log, .generating p r, rs⟩ as₁ as₂).trans
        ((congrArg (Option.bind · _) hderive).trans hevaluate)
      simp only [ok_bind]
      cases hscores : e.scoreBatch p.setup p.generationIndex genomes with
      | error message =>
          rw [hscores] at hboth
          exact ⟨as₁ ++ as₂, _, hboth, rfl, rfl, rfl⟩
      | ok scored =>
          have hlength : scored.length = genomes.length := length_scoreBatch hscores
          rw [hscores] at hboth
          simp only [evaluatedStage, hgenomes, hscored, List.nil_append] at hboth
          have hlast := run_tell (e := e) (p := p)
            (r := { r with genomes := genomes, scored := scored }) hlength disk flag log₂ rs
            recorded
          obtain ⟨as₃, j, htell, hturned⟩ := hlast
          refine ⟨as₁ ++ as₂ ++ as₃, j, ?_, hturned⟩
          rw [run_append, hboth]
          exact htell

/-- A turn of the loop, step by step. -/
theorem run_turn (p : Progress ρ) (disk : Option ExperimentCheckpoint) (flag : Bool)
    (log : List EngineEvent) (rs : List Scored) (checked recorded : ℚ≥0) :
    ∃ as j, run e.write ⟨disk, flag, log, .looping p, rs⟩ as = some j ∧
      Turned disk flag p (e.turn flag checked recorded p) j := by
  cases hleave : e.leaveReason flag checked p with
  | some reason =>
      rw [turn_eq_stop hleave]
      refine ⟨[.ask checked], ⟨disk, false, log, .stopping p reason, rs⟩, ?_, rfl, rfl, rfl⟩
      simp only [run_cons, write, hleave, Option.bind_some, run_nil]
  | none =>
      rw [turn_eq_generation hleave]
      cases hopen : e.openRound p with
      | error message =>
          refine ⟨[.ask checked], ⟨disk, flag, log, .raised message, rs⟩, ?_, rfl, rfl, rfl⟩
          simp only [run_cons, write, hleave, hopen, Option.bind_some, run_nil]
      | ok opened =>
          cases opened with
          | none =>
              refine ⟨[.ask checked],
                ⟨disk, false, log, .stopping p "search space exhausted", rs⟩, ?_, rfl, rfl, rfl⟩
              simp only [run_cons, write, hleave, hopen, Option.bind_some, run_nil]
          | some r =>
              obtain ⟨hgenomes, hscored⟩ := openRound_ok hopen
              obtain ⟨as, j, hround, hturned⟩ :=
                run_round (e := e) (p := p) hgenomes hscored disk flag log rs recorded
              refine ⟨.ask checked :: as, j, ?_, hturned⟩
              simp only [run_cons, write, hleave, hopen, Option.bind_some]
              exact hround

/-! ## The machines -/

def Phase.toStage : Phase ρ → Stage ρ
  | .idle => .idle
  | .looping p => .looping p
  | .saved p => .saved p
  | .stopping p reason => .stopping p reason
  | .stopped p => .stopped p
  | .returned result => .returned result
  | .raised message => .raised message

/-- The engine and its journal have the same disk and the same process. -/
structure Agrees (s : State ρ) (j : Journal ρ) : Prop where
  disk : j.disk = s.disk
  cancelFlag : j.cancelFlag = s.cancelFlag
  stage : j.stage = s.phase.toStage

/-- Every step of the engine is a run of its journal. -/
theorem step_written {s s' : State ρ} {j : Journal ρ} {a : Action} (h : Agrees s j)
    (hstep : e.step s a = some s') :
    ∃ as j', run e.write j as = some j' ∧ Agrees s' j' := by
  obtain ⟨_, _, phase⟩ := s
  obtain ⟨disk, flag, log, _, rs⟩ := j
  obtain ⟨hdisk, hflag, hstage⟩ := h
  dsimp only at hdisk hflag hstage
  subst hdisk hflag hstage
  unfold step at hstep
  split at hstep
  · dsimp only at hstep
    split at hstep
    · rw [← Option.some.inj hstep]
      cases hload : e.load disk with
      | ok p => exact ⟨[.start], _, rfl, rfl, rfl, by simp only [hload]; rfl⟩
      | error message => exact ⟨[.start], _, rfl, rfl, rfl, by simp only [hload]; rfl⟩
    · cases hstep
  · dsimp only at hstep
    split at hstep
    · rename_i checked recorded _ p
      obtain ⟨as, j, hrun, hturned⟩ :=
        run_turn (e := e) p disk flag log rs checked recorded
      refine ⟨as, j, hrun, ?_⟩
      split at hstep <;> rename_i hturn <;> rw [hturn] at hturned <;>
        rw [← Option.some.inj hstep] <;> exact ⟨hturned.1, hturned.2.1, hturned.2.2⟩
    · cases hstep
  · dsimp only at hstep
    split at hstep
    · rename_i p
      refine ⟨[.checkConvergence], ?_⟩
      simp only [run_cons, write, Phase.toStage, run_nil]
      cases hconverged : converged p.strategy p.best with
      | error message =>
          rw [hconverged] at hstep
          rw [← Option.some.inj hstep]
          exact ⟨_, rfl, rfl, rfl, rfl⟩
      | ok reason =>
          rw [hconverged] at hstep
          cases reason with
          | none =>
              rw [← Option.some.inj hstep]
              exact ⟨_, rfl, rfl, rfl, rfl⟩
          | some reason =>
              rw [← Option.some.inj hstep]
              exact ⟨_, rfl, rfl, rfl, rfl⟩
    · cases hstep
  · dsimp only at hstep
    split at hstep
    · rw [← Option.some.inj hstep]
      exact ⟨[.stop], _, rfl, rfl, rfl, rfl⟩
    · cases hstep
  · dsimp only at hstep
    split at hstep
    · rename_i clock _ p
      rw [← Option.some.inj hstep]
      refine ⟨[.finalize clock], _, rfl, rfl, rfl, ?_⟩
      dsimp only
      cases e.finalize p clock with
      | ok result => rfl
      | error message => rfl
    · cases hstep
  · rw [← Option.some.inj hstep]
    exact ⟨[.crash], _, rfl, rfl, rfl, rfl⟩
  · rw [← Option.some.inj hstep]
    exact ⟨[.cancel], _, rfl, rfl, rfl, rfl⟩

theorem run_written {s s' : State ρ} {j : Journal ρ} {as : List Action} (h : Agrees s j)
    (hrun : run e.step s as = some s') :
    ∃ bs j', run e.write j bs = some j' ∧ Agrees s' j' :=
  run_implements (fun _ _ _ _ hagrees hstep => step_written hagrees hstep) h hrun

end ExperimentEngine

end NeuroForge
