/-
  Feasible first, over a whole life.

  The engine keeps a running best: a candidate replaces it if it is feasible and the best is
  not, or as feasible and strictly fitter. Within a generation the best lives in the process
  only; the checkpoint has it from the save on, together with the generation's rounds. So a
  lost generation is lost for the best as it is for the record, and what the checkpoint has
  is the first of the recorded candidates that are maximal for (feasible, fitness)
  (`IsSelection`), or the baseline with the fitness no candidate has. `write_selects` is one
  step of this.
-/
import Mathlib.Data.Prod.Lex
import NeuroForge.Experiments.Story
import NeuroForge.Lib.Json

namespace NeuroForge

open Fallible Transition ExperimentEngine

variable {ρ : Type}

/-! ## The first of the best -/

/-- What candidates are compared by. -/
def Scored.rank (s : Scored) : Bool ×ₗ ℚ := toLex (s.feasible, s.fitness)

/-- No candidate before `s` is as good, and none after it is better. -/
def FirstBest (scores : List Scored) (s : Scored) : Prop :=
  ∃ before after, scores = before ++ s :: after ∧ (∀ t ∈ before, t.rank < s.rank) ∧
    ∀ t ∈ after, t.rank ≤ s.rank

theorem FirstBest.mem {scores : List Scored} {s : Scored} (h : FirstBest scores s) :
    s ∈ scores := by
  obtain ⟨before, after, rfl, -, -⟩ := h
  simp

theorem FirstBest.rank_le {scores : List Scored} {s : Scored} (h : FirstBest scores s) :
    ∀ t ∈ scores, t.rank ≤ s.rank := by
  obtain ⟨before, after, rfl, hbefore, hafter⟩ := h
  intro t ht
  rcases List.mem_append.mp ht with ht | ht
  · exact (hbefore t ht).le
  · rcases List.mem_cons.mp ht with rfl | ht
    · exact le_rfl
    · exact hafter t ht

theorem FirstBest.kept {scores : List Scored} {s t : Scored} (h : FirstBest scores s)
    (hle : t.rank ≤ s.rank) : FirstBest (scores ++ [t]) s := by
  obtain ⟨before, after, rfl, hbefore, hafter⟩ := h
  refine ⟨before, after ++ [t], by simp, hbefore, ?_⟩
  intro u hu
  rcases List.mem_append.mp hu with hu | hu
  · exact hafter u hu
  · obtain rfl := List.mem_singleton.mp hu
    exact hle

theorem firstBest_concat {scores : List Scored} {t : Scored}
    (h : ∀ s ∈ scores, s.rank < t.rank) : FirstBest (scores ++ [t]) t :=
  ⟨scores, [], rfl, h, by simp⟩

/-- The best of the scores as the engine holds it. -/
def Scored.incumbent (s : Scored) : Incumbent := ⟨s.genome, s.fitness, s.feasible⟩

/-- Before the first candidate. -/
def noBest (baseline : SystemGenome) : Incumbent := ⟨baseline, ⊥, false⟩

/-- The baseline where there are no scores, else the first of the best. -/
def IsSelection (baseline : SystemGenome) (scores : List Scored) (best : Incumbent) : Prop :=
  scores = [] ∧ best = noBest baseline ∨ ∃ s, FirstBest scores s ∧ best = s.incumbent

theorem isSelection_nil (baseline : SystemGenome) : IsSelection baseline [] (noBest baseline) :=
  .inl ⟨rfl, rfl⟩

/-- Any candidate is better than none. -/
theorem consider_noBest (baseline : SystemGenome) (t : Scored) :
    (noBest baseline).consider t.genome t.fitness t.feasible = t.incumbent := by
  unfold Incumbent.consider
  refine if_pos ?_
  cases htf : t.feasible with
  | true => exact .inl ⟨rfl, rfl⟩
  | false => exact .inr ⟨rfl, WithBot.bot_lt_coe _⟩

/-- The engine's comparison is that of the ranks. -/
theorem consider_incumbent (s t : Scored) :
    s.incumbent.consider t.genome t.fitness t.feasible =
      if s.rank < t.rank then t.incumbent else s.incumbent := by
  have hiff : (t.feasible = true ∧ s.incumbent.feasible = false) ∨
      (t.feasible = s.incumbent.feasible ∧ s.incumbent.fitness < (t.fitness : WithBot ℚ)) ↔
      s.rank < t.rank := by
    unfold Scored.rank Scored.incumbent
    rw [Prod.Lex.toLex_lt_toLex, Bool.lt_iff, WithBot.coe_lt_coe]
    constructor
    · rintro (⟨ht, hs⟩ | ⟨hsame, hlt⟩)
      · exact .inl ⟨hs, ht⟩
      · exact .inr ⟨hsame.symm, hlt⟩
    · rintro (⟨hs, ht⟩ | ⟨hsame, hlt⟩)
      · exact .inl ⟨ht, hs⟩
      · exact .inr ⟨hsame.symm, hlt⟩
  unfold Incumbent.consider
  by_cases hlt : s.rank < t.rank
  · rw [if_pos (hiff.mpr hlt), if_pos hlt]
    rfl
  · rw [if_neg (fun h => hlt (hiff.mp h)), if_neg hlt]

/-- One more candidate. -/
theorem IsSelection.consider {baseline : SystemGenome} {scores : List Scored} {best : Incumbent}
    (h : IsSelection baseline scores best) (t : Scored) :
    IsSelection baseline (scores ++ [t]) (best.consider t.genome t.fitness t.feasible) := by
  rcases h with ⟨rfl, rfl⟩ | ⟨s, hs, rfl⟩
  · rw [consider_noBest]
    exact .inr ⟨t, firstBest_concat (by simp), rfl⟩
  · rw [consider_incumbent]
    by_cases hlt : s.rank < t.rank
    · rw [if_pos hlt]
      exact .inr ⟨t, firstBest_concat fun u hu => (hs.rank_le u hu).trans_lt hlt, rfl⟩
    · rw [if_neg hlt]
      exact .inr ⟨s, hs.kept (not_lt.mp hlt), rfl⟩

/-- The candidates of a generation. -/
theorem IsSelection.foldl {baseline : SystemGenome} {scores : List Scored} {best : Incumbent}
    (h : IsSelection baseline scores best) (news : List Scored) :
    IsSelection baseline (scores ++ news)
      (news.foldl (fun b s => b.consider s.genome s.fitness s.feasible) best) := by
  induction news generalizing scores best with
  | nil =>
      rw [List.append_nil]
      exact h
  | cons t news ih =>
      have hrest := ih (h.consider t)
      rw [List.append_assoc] at hrest
      exact hrest

theorem Scored.feasible_iff (s : Scored) :
    s.feasible = true ↔ s.violation = 0 ∧ s.timedOut = false := by
  simp [Scored.feasible]

/-- The best is feasible as soon as any candidate is. -/
theorem IsSelection.feasible_iff {baseline : SystemGenome} {scores : List Scored}
    {best : Incumbent} (h : IsSelection baseline scores best) :
    best.feasible = true ↔ ∃ s ∈ scores, s.violation = 0 ∧ s.timedOut = false := by
  simp only [← Scored.feasible_iff]
  rcases h with ⟨rfl, rfl⟩ | ⟨s, hs, rfl⟩
  · simp [noBest]
  · constructor
    · intro hfeasible
      exact ⟨s, hs.mem, hfeasible⟩
    · rintro ⟨t, ht, hfeasible⟩
      have hle : t.feasible ≤ s.feasible :=
        (Prod.Lex.monotone_fst_ofLex (hs.rank_le t ht))
      rw [hfeasible] at hle
      exact Bool.eq_true_of_true_le hle

theorem IsSelection.feasible_mem {baseline : SystemGenome} {scores : List Scored}
    {best : Incumbent} (h : IsSelection baseline scores best) (hfeasible : best.feasible = true) :
    ∃ s ∈ scores, s.violation = 0 ∧ s.timedOut = false ∧ best.genome = s.genome := by
  rcases h with ⟨rfl, rfl⟩ | ⟨s, hs, rfl⟩
  · cases hfeasible
  · obtain ⟨hviolation, htimedOut⟩ := s.feasible_iff.mp hfeasible
    exact ⟨s, hs.mem, hviolation, htimedOut, rfl⟩

/-! ## The file -/

/-- `best_fitness` in the checkpoint's file: where there is none, it is written as `null` and
    `null` is read back as none. -/
def bestFitnessCodec : Json.Codec (WithBot ℚ) where
  encode
    | ⊥ => .null
    | (q : ℚ) => .float q
  decode
    | .null => .ok ⊥
    | j => (Json.Codec.float.decode j).map (↑)
  roundtrip fitness := by
    cases fitness with
    | bot => rfl
    | coe q => rfl

/-- The checkpoint names this best, and so does its file. -/
structure ExperimentCheckpoint.Names (ckpt : ExperimentCheckpoint) (best : Incumbent) :
    Prop where
  genome : ckpt.bestGenome = some best.genome
  fitness : ckpt.bestFitness = best.fitness
  feasible : ckpt.bestFeasible = best.feasible

namespace ExperimentEngine

variable {e : ExperimentEngine ρ}

/-! ## What the process and the checkpoint hold -/

/-- The process's best is the selection among the scores, and its checkpoint names it. -/
structure Chooses (e : ExperimentEngine ρ) (scores : List Scored) (p : Progress ρ) : Prop where
  selection : IsSelection e.baselineGenome scores p.best
  names : p.ckpt.Names p.best

/-- The result is that of the selection. -/
def Chosen (e : ExperimentEngine ρ) (scores : List Scored) (result : ExperimentResult) : Prop :=
  ∃ best, IsSelection e.baselineGenome scores best ∧ result.bestGenome = best.genome ∧
    result.selectedFeasible = best.feasible

def Stage.Chooses (e : ExperimentEngine ρ) (scores : List Scored) : Stage ρ → Prop
  | .idle | .raised _ => True
  | .looping p | .generating p _ | .evaluating p _ | .told p _ | .saved p | .stopping p _
  | .stopped p => ExperimentEngine.Chooses e scores p
  | .returned result => Chosen e scores result

/-- What the next process would load is the selection among the scores on record. -/
structure Selects (e : ExperimentEngine ρ) (j : Journal ρ) : Prop where
  loaded : ∃ best, IsSelection e.baselineGenome j.recorded best ∧
    (e.loadCheckpoint j.disk).Names best
  stage : j.stage.Chooses e j.recorded

theorem names_asRunning {c : ExperimentCheckpoint} {best : Incumbent} :
    (asRunning c).Names best ↔ c.Names best := by
  unfold asRunning
  split_ifs
  · exact Iff.rfl
  · exact ⟨fun h => ⟨h.1, h.2, h.3⟩, fun h => ⟨h.1, h.2, h.3⟩⟩

theorem names_resaved {disk : Option ExperimentCheckpoint} {best : Incumbent} :
    (e.loadCheckpoint (disk.map fun _ => e.loadCheckpoint disk)).Names best ↔
      (e.loadCheckpoint disk).Names best := by
  cases disk with
  | none => exact Iff.rfl
  | some c => exact names_asRunning

theorem names_fresh : (e.freshCheckpoint).Names (noBest e.baselineGenome) := ⟨rfl, rfl, rfl⟩

/-- A process begins with the best of the checkpoint. -/
theorem load_names {disk : Option ExperimentCheckpoint} {p : Progress ρ} {best : Incumbent}
    (hload : e.load disk = .ok p) (hnames : (e.loadCheckpoint disk).Names best) :
    p.best = best ∧ p.ckpt.Names best := by
  obtain ⟨-, -, hload⟩ := bind_eq_ok.mp hload
  obtain ⟨strategy, -, hload⟩ := bind_eq_ok.mp hload
  obtain ⟨setup, -, hload⟩ := bind_eq_ok.mp hload
  rw [pure_eq_ok] at hload
  subst hload
  refine ⟨?_, hnames⟩
  dsimp only
  rw [hnames.genome, hnames.fitness, hnames.feasible]
  rfl

theorem Chooses.closeRound {scores : List Scored} {p : Progress ρ} {r : Round ρ}
    (h : Chooses e scores p) (recorded : ℚ≥0) :
    Chooses e (scores ++ r.scored) (closeRound p r recorded) :=
  ⟨h.selection.foldl r.scored, rfl, rfl, rfl⟩

theorem Chooses.closeCheckpoint {scores : List Scored} {p : Progress ρ}
    (h : Chooses e scores p) (reason : String) :
    Chooses e scores { p with ckpt := closeCheckpoint p.ckpt reason } :=
  ⟨h.selection, h.names.genome, h.names.fitness, h.names.feasible⟩

/-- What a process holds, the next one loads. -/
theorem Chooses.loaded {scores : List Scored} {p : Progress ρ} (h : Chooses e scores p) :
    ∃ best, IsSelection e.baselineGenome scores best ∧
      (e.loadCheckpoint (some p.ckpt)).Names best :=
  ⟨p.best, h.selection, names_asRunning.mpr h.names⟩

theorem write_selects {j j' : Journal ρ} {a : JournalAction} (h : Selects e j)
    (hwrite : e.write j a = some j') : Selects e j' := by
  obtain ⟨best, hselection, hnames⟩ := h.loaded
  have hstage := h.stage
  cases write_wrote hwrite with
  | started hload =>
      obtain ⟨rfl, hckpt⟩ := load_names hload hnames
      exact ⟨⟨_, hselection, names_resaved.mpr hnames⟩, hselection, hckpt⟩
  | notStarted => exact ⟨⟨best, hselection, names_resaved.mpr hnames⟩, trivial⟩
  | leftLoop | asked | derived | derivedAll | evaluated | told | wentOn | hasConverged =>
      exact ⟨h.loaded, hstage⟩
  | @saved disk flag log rs p r recorded =>
      have hchooses := Chooses.closeRound (r := r) hstage recorded
      exact ⟨hchooses.loaded, hchooses⟩
  | @closed disk flag log rs p reason =>
      have hchooses := Chooses.closeCheckpoint hstage reason
      exact ⟨hchooses.loaded, hchooses⟩
  | finalized hfinal =>
      obtain ⟨-, -, -, -, -, hbest, -, -, hfeasible⟩ := finalize_result hfinal
      exact ⟨h.loaded, _, hstage.selection, hbest, hfeasible⟩
  | finalizeRaised | stepRaised | crashed => exact ⟨h.loaded, trivial⟩
  | cancelled => exact ⟨h.loaded, hstage⟩

/-- The selection does not depend on the limits, the dataset or the code that evaluates. -/
theorem Selects.between {j : Journal ρ} (h : Selects e j) {e' : ExperimentEngine ρ}
    (hsame : e.SameCandidates e') : Selects e' { j with stage := .idle } := by
  obtain ⟨best, hselection, hnames⟩ := h.loaded
  refine ⟨⟨best, ?_, ?_⟩, trivial⟩
  · rw [hsame.baseline]
    exact hselection
  · revert hnames
    cases j.disk with
    | none =>
        intro hnames
        refine ⟨?_, hnames.fitness, hnames.feasible⟩
        rw [← hnames.genome]
        exact congrArg some hsame.baseline
    | some c => exact id

/-- A search does not end as converged without a feasible best. -/
theorem converged_feasible {strategy : SearchStrategy ρ} {best : Incumbent} {reason : String}
    (h : converged strategy best = .ok (some reason)) : best.feasible = true := by
  obtain ⟨convergence, -, h⟩ := bind_eq_ok.mp h
  rw [pure_eq_ok] at h
  split_ifs at h with hboth
  exact (Bool.and_eq_true_iff.mp hboth).2

end ExperimentEngine

/-! ## The whole life -/

/-- What a chronicle keeps of the engine `e` it began with. -/
structure Chronicle.Selects (e : ExperimentEngine ρ) (c : Chronicle ρ) : Prop where
  selects : ExperimentEngine.Selects c.engine c.journal
  baseline : c.engine.baselineGenome = e.baselineGenome

theorem Chronicle.Selects.next {e : ExperimentEngine ρ} {c c' : Chronicle ρ}
    {event : ChronicleEvent} (h : c.Selects e) (hnext : c.next event = some c') :
    c'.Selects e := by
  cases Chronicle.next_moved hnext with
  | wrote hwrite => exact ⟨write_selects h.selects hwrite, h.baseline⟩
  | tookOver hsame => exact ⟨h.selects.between hsame, hsame.baseline.trans h.baseline⟩

theorem Chronicle.selects {e : ExperimentEngine ρ} {events : List ChronicleEvent}
    {c : Chronicle ρ} (hrun : run Chronicle.next ⟨e, {}⟩ events = some c) : c.Selects e := by
  have hstart : Chronicle.Selects e ⟨e, {}⟩ :=
    ⟨⟨⟨_, isSelection_nil e.baselineGenome, names_fresh⟩, trivial⟩, rfl⟩
  exact run_invariant (fun _ _ _ h hnext => h.next hnext) hstart hrun

/-- A process that stops as converged has a feasible best. -/
theorem checkConvergence_stops {e : ExperimentEngine ρ} {j j' : Journal ρ} {p : Progress ρ}
    {reason : String} (hwrite : e.write j .checkConvergence = some j')
    (hstage : j'.stage = .stopping p reason) : j.stage = .saved p ∧ p.best.feasible = true := by
  cases hwrote : write_wrote hwrite with
  | hasConverged hconverged =>
      obtain ⟨rfl, rfl⟩ : _ = p ∧ _ = reason := by simpa using hstage
      exact ⟨rfl, converged_feasible hconverged⟩
  | wentOn => cases hstage
  | stepRaised => cases hstage

/-- **Feasible first.** Whatever runs, crashes, cancels and resumes have come about: the
    checkpoint and its file name the first of the recorded candidates that are maximal for
    (feasible, fitness), or the baseline if there are none; a result is feasible exactly if a
    recorded candidate met the limits and did not time out, and its genome is then such a
    candidate; and no search ends as converged before there is one. -/
theorem checkpoint_names_the_first_best (e : ExperimentEngine ρ) (events : List ChronicleEvent)
    (c : Chronicle ρ) (hrun : run Chronicle.next ⟨e, {}⟩ events = some c) :
    RecordedAs c.engine (diskBatches c.journal.disk) c.journal.recorded ∧
    (∀ ckpt, c.journal.disk = some ckpt → ∃ best,
      IsSelection e.baselineGenome c.journal.recorded best ∧ ckpt.Names best ∧
      bestFitnessCodec.decode (bestFitnessCodec.encode ckpt.bestFitness) = .ok best.fitness ∧
      (ckpt.bestFeasible = true ↔
        ∃ s ∈ c.journal.recorded, s.violation = 0 ∧ s.timedOut = false)) ∧
    (∀ result, c.journal.stage = .returned result →
      (result.selectedFeasible = true ↔
        ∃ s ∈ c.journal.recorded, s.violation = 0 ∧ s.timedOut = false) ∧
      (result.selectedFeasible = true → ∃ s ∈ c.journal.recorded,
        s.violation = 0 ∧ s.timedOut = false ∧ result.bestGenome = s.genome)) ∧
    (∀ c' p reason, c.next (.act .checkConvergence) = some c' →
      c'.journal.stage = .stopping p reason →
      ∃ s ∈ c.journal.recorded, s.violation = 0 ∧ s.timedOut = false) := by
  obtain ⟨hselects, hbaseline⟩ := Chronicle.selects hrun
  obtain ⟨hloaded, hstage⟩ := hselects
  refine ⟨(Chronicle.tells hrun).story.recorded, ?_, ?_, ?_⟩
  · intro ckpt hdisk
    obtain ⟨best, hselection, hnames⟩ := hloaded
    rw [hdisk] at hnames
    rw [hbaseline] at hselection
    have hckpt : ckpt.Names best := names_asRunning.mp hnames
    refine ⟨best, hselection, hckpt, ?_, ?_⟩
    · rw [bestFitnessCodec.roundtrip, hckpt.fitness]
    · rw [hckpt.feasible]
      exact hselection.feasible_iff
  · intro result hreturned
    rw [hreturned] at hstage
    obtain ⟨best, hselection, hgenome, hfeasible⟩ := hstage
    rw [hgenome, hfeasible]
    exact ⟨hselection.feasible_iff, hselection.feasible_mem⟩
  · intro c' p reason hnext hstopping
    obtain ⟨j, hwrite, rfl⟩ := Option.map_eq_some_iff.mp hnext
    obtain ⟨hsaved, hfeasible⟩ := checkConvergence_stops hwrite hstopping
    rw [hsaved] at hstage
    exact hstage.selection.feasible_iff.mp hfeasible

/-- After a timeout and a crash the checkpoint names the one candidate on record,
    which is not feasible and has no fitness to speak of. -/
theorem checkpoint_names_the_first_best_timedOut : ∃ c ckpt,
    run Chronicle.next ⟨impatientEngine, {}⟩ exampleChronicle = some c ∧
    c.journal.disk = some ckpt ∧ c.journal.recorded.map (·.timedOut) = [true] ∧
    ckpt.bestFeasible = false ∧ ckpt.bestFitness = (0 : ℚ) := by
  have hfacts : (run Chronicle.next ⟨impatientEngine, {}⟩ exampleChronicle).map (fun c =>
      decide (c.journal.disk.isSome = true ∧ c.journal.recorded.map (·.timedOut) = [true] ∧
        c.journal.recorded.map (·.fitness) = [0])) = some true := by
    decide +kernel
  obtain ⟨c, hc, hfacts⟩ := Option.map_eq_some_iff.mp hfacts
  obtain ⟨hsome, htimedOut, hfitness⟩ := of_decide_eq_true hfacts
  obtain ⟨ckpt, hckpt⟩ := Option.isSome_iff_exists.mp hsome
  obtain ⟨-, hbest, -⟩ := checkpoint_names_the_first_best impatientEngine exampleChronicle c hc
  obtain ⟨best, hselection, hnames, -, hiff⟩ := hbest ckpt hckpt
  obtain ⟨s, hs, hout⟩ := List.map_eq_singleton_iff.mp htimedOut
  rw [hs] at hfitness hselection hiff
  refine ⟨c, ckpt, hc, hckpt, htimedOut, ?_, ?_⟩
  · rw [← Bool.not_eq_true, hiff]
    rintro ⟨t, ht, -, hintime⟩
    obtain rfl := List.mem_singleton.mp ht
    rw [hout] at hintime
    cases hintime
  · rw [hnames.fitness]
    rcases hselection with ⟨hnil, -⟩ | ⟨t, ht, rfl⟩
    · cases hnil
    · obtain rfl := List.mem_singleton.mp ht.mem
      exact congrArg _ (List.head_eq_of_cons_eq hfitness)

end NeuroForge
