/-
  Why the prompt has to be a search dimension of the research domain.

  A run whose candidates are all infeasible never has a feasible incumbent, whatever the order
  of its turns, crashes and restarts, and so never stops by convergence (`never_feasible`). That
  is the case for the research domain wherever the baseline prompt asks for no citations and
  the prompt is not searched (`research_never_feasible`): the safety score on questions without
  evidence is then the same for every candidate.
-/
import NeuroForge.Domains.Evaluation
import NeuroForge.Experiments.Feasibility
import NeuroForge.Experiments.NeverRaises

namespace NeuroForge

open Fallible Transition Rounding Sample

variable {ρ : Type}

namespace ExperimentEngine

/-! ## Runs without a feasible candidate -/

structure Progress.Infeasible (e : ExperimentEngine ρ) (p : Progress ρ) : Prop where
  best : p.best.feasible = false
  ckpt : p.ckpt.bestFeasible = false
  setup : p.setup.challenges = e.holdoutGuard.searchSet

def Phase.Infeasible (e : ExperimentEngine ρ) : Phase ρ → Prop
  | .idle => True
  | .looping p | .saved p | .stopping p _ | .stopped p => p.Infeasible e
  | .returned result => result.selectedFeasible = false
  | .raised _ => True

/-- No incumbent is feasible, on disk or in the process. -/
structure Infeasible (e : ExperimentEngine ρ) (s : State ρ) : Prop where
  disk : ∀ ckpt, s.disk = some ckpt → ckpt.bestFeasible = false
  phase : s.phase.Infeasible e

section
variable {e : ExperimentEngine ρ} {P : Point → Prop} {G : SystemGenome → Prop}

theorem searchSetup_challenges {setup : SearchSetup} (h : e.searchSetup = .ok setup) :
    setup.challenges = e.holdoutGuard.searchSet := by
  unfold searchSetup at h
  dsimp only at h
  split at h
  · cases h
  · obtain ⟨agg, -, h⟩ := bind_eq_ok.mp h
    cases h
    rfl

theorem infeasible_loadCheckpoint {disk : Option ExperimentCheckpoint}
    (hdisk : ∀ ckpt, disk = some ckpt → ckpt.bestFeasible = false) :
    (e.loadCheckpoint disk).bestFeasible = false := by
  cases disk with
  | none => rfl
  | some ckpt =>
      unfold loadCheckpoint asRunning
      dsimp only
      split_ifs
      · exact hdisk ckpt rfl
      · exact hdisk ckpt rfl

theorem infeasible_load {disk : Option ExperimentCheckpoint} {p : Progress ρ}
    (hdisk : ∀ ckpt, disk = some ckpt → ckpt.bestFeasible = false) (h : e.load disk = .ok p) :
    p.Infeasible e := by
  have hloaded := infeasible_loadCheckpoint (e := e) hdisk
  obtain ⟨-, -, h⟩ := bind_eq_ok.mp h
  obtain ⟨strategy, -, h⟩ := bind_eq_ok.mp h
  obtain ⟨setup, hsetup, h⟩ := bind_eq_ok.mp h
  cases h
  exact ⟨hloaded, hloaded, searchSetup_challenges hsetup⟩

/-- An incumbent stays infeasible among infeasible candidates. -/
theorem infeasible_evaluateBatch {setup : SearchSetup} {genomes : List SystemGenome}
    (hall : ∀ g ∈ genomes, ∀ fitness cost, e.scoreCandidate setup g ≠ .ok (fitness, true, cost))
    {best best' : Incumbent} {use use' : BudgetUse} {fitness : List ℚ}
    (hbest : best.feasible = false)
    (h : e.evaluateBatch setup genomes best use = .ok (fitness, best', use')) :
    best'.feasible = false := by
  induction genomes generalizing best use fitness with
  | nil =>
      cases h
      exact hbest
  | cons genome genomes ih =>
      obtain ⟨hgenome, hrest⟩ := List.forall_mem_cons.mp hall
      obtain ⟨⟨f, feasible, cost⟩, hscore, h⟩ := bind_eq_ok.mp h
      obtain ⟨⟨rest, b, u⟩, hevaluated, h⟩ := bind_eq_ok.mp h
      cases h
      have hfeasible : feasible = false := by
        cases feasible with
        | false => rfl
        | true => exact absurd hscore (hgenome f cost)
      refine ih hrest ?_ hevaluated
      unfold Incumbent.consider
      split_ifs
      · exact hfeasible
      · exact hbest

theorem infeasible_turn (hw : Workable e P G)
    (hG : ∀ g, G g → ∀ setup : SearchSetup, setup.challenges = e.holdoutGuard.searchSet →
      ∀ fitness cost, e.scoreCandidate setup g ≠ .ok (fitness, true, cost))
    {p p' : Progress ρ} (hfine : p.Fine e P G) (hp : p.Infeasible e) {flag : Bool}
    {checked recorded : ℚ≥0} (h : e.turn flag checked recorded p = .saved p') :
    p'.Infeasible e := by
  obtain ⟨-, -, batch, hgeneration, -, -, hckpt⟩ := turn_saved h
  obtain ⟨asked, genomes, hask, -, hgenomes, hevaluated, -⟩ := generation_steps hgeneration
  obtain ⟨points, asked', hask', -, hpoints⟩ := ask_unfailing hw.points hfine.strategy
    (min e.config.batchSize (e.config.budget.maxCandidates - p.tracker.use.candidatesUsed))
  cases hask.symm.trans hask'
  obtain ⟨genomes', hgenomes', hderived⟩ :=
    deriveBatch_unfailing hw p.generationIndex hpoints p.nextVersion
  cases hgenomes.symm.trans hgenomes'
  have hbest : p'.best.feasible = false :=
    infeasible_evaluateBatch (fun g hg => hG g (hderived g hg) p.setup hp.setup) hp.best
      hevaluated
  refine ⟨hbest, ?_, ?_⟩
  · rw [hckpt]
    exact hbest
  · rw [turn_setup h]
    exact hp.setup

theorem infeasible_step (hw : Workable e P G)
    (hG : ∀ g, G g → ∀ setup : SearchSetup, setup.challenges = e.holdoutGuard.searchSet →
      ∀ fitness cost, e.scoreCandidate setup g ≠ .ok (fitness, true, cost))
    {s s' : State ρ} {a : Action} (hfine : Fine e P G s) (hs : Infeasible e s)
    (h : e.step s a = some s') : Infeasible e s' := by
  obtain ⟨hdisk, hphase⟩ := hs
  cases step_did h with
  | @started disk flag p hload =>
      refine ⟨fun ckpt hckpt => ?_, infeasible_load hdisk hload⟩
      obtain ⟨c, -, rfl⟩ := Option.map_eq_some_iff.mp hckpt
      exact infeasible_loadCheckpoint hdisk
  | @notStarted disk flag message hload =>
      refine ⟨fun ckpt hckpt => ?_, trivial⟩
      obtain ⟨c, -, rfl⟩ := Option.map_eq_some_iff.mp hckpt
      exact infeasible_loadCheckpoint hdisk
  | leftLoop hturn => exact ⟨hdisk, hphase⟩
  | @saved disk flag p checked recorded p' hturn =>
      have hp' := infeasible_turn hw hG hfine.phase hphase hturn
      refine ⟨fun ckpt hckpt => ?_, hp'⟩
      cases hckpt
      exact hp'.ckpt
  | turnRaised hturn => exact ⟨hdisk, trivial⟩
  | wentOn hconverged => exact ⟨hdisk, hphase⟩
  | hasConverged hconverged => exact ⟨hdisk, hphase⟩
  | checkRaised hconverged => exact ⟨hdisk, trivial⟩
  | @closed disk flag p reason =>
      refine ⟨fun ckpt hckpt => ?_, hphase.best, hphase.ckpt, hphase.setup⟩
      cases hckpt
      exact hphase.ckpt
  | finalized hfinal =>
      refine ⟨hdisk, ?_⟩
      show _ = false
      rw [(finalize_result hfinal).2.2.2.2.2.2.2.2]
      exact hphase.best
  | finalizeRaised hfinal => exact ⟨hdisk, trivial⟩
  | crashed => exact ⟨hdisk, trivial⟩
  | cancelled => exact ⟨hdisk, hphase⟩

/-- **No feasible candidate, no feasible result.** Where no candidate clears the limits of the
    search, no run has a feasible incumbent at any time, and after every generation it goes on:
    it ends by a limit, by a cancel or with the space exhausted. -/
theorem never_feasible (hw : Workable e P G)
    (hG : ∀ g, G g → ∀ setup : SearchSetup, setup.challenges = e.holdoutGuard.searchSet →
      ∀ fitness cost, e.scoreCandidate setup g ≠ .ok (fitness, true, cost))
    {as : List Action} {s : State ρ} (hr : run e.step {} as = some s) : Infeasible e s := by
  have hstep : ∀ (s : State ρ) (a : Action) (s' : State ρ), Fine e P G s ∧ Infeasible e s →
      e.step s a = some s' → Fine e P G s' ∧ Infeasible e s' :=
    fun s a s' hs h => ⟨fine_step hw hs.1 h, infeasible_step hw hG hs.1 hs.2 h⟩
  have hinitial : Fine e P G ({} : State ρ) ∧ Infeasible e ({} : State ρ) := by
    refine ⟨⟨fun ckpt hckpt => ?_, trivial⟩, fun ckpt hckpt => ?_, trivial⟩
    · cases hckpt
    · cases hckpt
  exact (run_invariant hstep hinitial hr).2

theorem goes_on_of_infeasible {p : Progress ρ} (hfine : p.Fine e P G)
    (hp : p.best.feasible = false) : converged p.strategy p.best = .ok none := by
  obtain ⟨state, hstate⟩ := convergence_unfailing hfine.strategy
  unfold converged
  rw [hstate, ok_bind, hp, Bool.and_false]
  rfl

end

/-! ## The research domain -/

theorem sum_ite_eq {α : Type} (p : α → Prop) [DecidablePred p] (a b : ℚ) (xs : List α) :
    (xs.map fun x => if p x then a else b).sum =
      xs.length * b - (xs.filter p).length * (b - a) := by
  induction xs with
  | nil => simp
  | cons x xs ih =>
      rw [List.map_cons, List.sum_cons, ih]
      by_cases hx : p x
      · simp only [hx, if_true, List.filter_cons, decide_true, List.length_cons]
        push_cast
        ring
      · simp only [hx, if_false, List.filter_cons, decide_false, List.length_cons,
          Bool.false_eq_true]
        push_cast
        ring

/-- The questions without evidence. -/
def withoutEvidence (challenges : List Challenge) : List Challenge :=
  challenges.filter fun c => c.category = "no_evidence_available"

section
variable {r : StableRandom ρ} {digest : GenomeDigest} {provider : LLMProvider}

theorem get?_research_safety {content : GenomeContent}
    (hcites : ResearchAgent.cites content.config = false) (c : Challenge) :
    Dict.get? (ResearchAgent.evaluate r digest provider content c).metrics "safety_score" =
      some (if c.category = "no_evidence_available" then 1 / 2 else 19 / 20) := by
  have hguard : ResearchAgent.hallucinationGuard content.config = 0 := by
    rw [ResearchAgent.hallucinationGuard, hcites]
    rfl
  refine (ResearchAgent.metrics_safety content c _ _).1.trans ?_
  rw [hguard]
  norm_num

/-- The averaged safety score of a genome whose prompt asks for no citations. -/
theorem research_safety_score (content : GenomeContent)
    (hcites : ResearchAgent.cites content.config = false) {challenges : List Challenge}
    {categories : List String} {agg : AggregateMetrics}
    (hagg : aggregate (challenges.map (ResearchAgent.evaluate r digest provider content))
      categories = .ok agg) :
    Dict.getD agg.asDict "safety_score" 1 = roundTo 4 ((challenges.length * (19 / 20) -
      (withoutEvidence challenges).length * (9 / 20)) / challenges.length) := by
  have hne : challenges ≠ [] := by
    rintro rfl
    cases hagg
  obtain ⟨c, hc⟩ := List.exists_mem_of_ne_nil challenges hne
  have hkey : "safety_score" ∈
      metricKeys (challenges.map (ResearchAgent.evaluate r digest provider content)) := by
    refine mem_metricKeys.mpr ⟨_, List.mem_map_of_mem hc, ?_⟩
    by_contra hnot
    have hnone := Dict.get?_eq_none.mpr hnot
    rw [get?_research_safety hcites] at hnone
    cases hnone
  have hvalues : metricValues "safety_score"
      (challenges.map (ResearchAgent.evaluate r digest provider content)) =
      challenges.map fun c => if c.category = "no_evidence_available" then 1 / 2 else 19 / 20 := by
    rw [metricValues, List.map_map]
    refine List.map_congr_left fun c _ => ?_
    show Dict.getD _ "safety_score" 0 = _
    rw [Dict.getD, get?_research_safety hcites]
    rfl
  rw [Dict.getD, get?_asDict (by decide) (by decide) (by decide), (aggregate_ok hagg).1,
    Dict.get?_tabulate, if_pos hkey, hvalues, mean, sum_ite_eq, List.length_map]
  norm_num [withoutEvidence]

end

/-- With `k` of `n` questions without evidence, seven of thirty at least. -/
theorem score_below {n k : ℕ} (hn : 0 < n) (hshare : 7 * n ≤ 30 * k) :
    roundTo 4 ((n * (19 / 20) - k * (9 / 20)) / n) < 17 / 20 := by
  have hpos : (0 : ℚ) < n := by exact_mod_cast hn
  have hshare' : (7 : ℚ) * n ≤ 30 * k := by exact_mod_cast hshare
  have hmean : (n * (19 / 20) - k * (9 / 20)) / n ≤ (169 / 200 : ℚ) := by
    rw [div_le_iff₀ hpos]
    linarith
  have hrounded : roundTo 4 (169 / 200 : ℚ) = 169 / 200 := by decide +kernel
  calc roundTo 4 ((n * (19 / 20) - k * (9 / 20)) / n)
      ≤ roundTo 4 (169 / 200) := roundTo_mono 4 hmean
    _ = 169 / 200 := hrounded
    _ < 17 / 20 := by norm_num

/-- A feasible candidate was not timed out. -/
theorem results_of_feasible {e : ExperimentEngine ρ} {setup : SearchSetup}
    {genome : SystemGenome} {fitness cost : ℚ}
    (h : e.scoreCandidate setup genome = .ok (fitness, true, cost)) :
    (e.evaluateCandidate genome setup.challenges).1 =
      setup.challenges.map (e.evaluator genome.content) := by
  unfold scoreCandidate at h
  obtain ⟨agg, -, h⟩ := bind_eq_ok.mp h
  have hfeasible := congrArg (fun r => r.2.1) (pure_eq_ok.mp h)
  simp only [Bool.and_eq_true, Bool.not_eq_true'] at hfeasible
  have hintime := hfeasible.2
  unfold evaluateCandidate at hintime ⊢
  split at hintime
  · rfl
  · split_ifs at hintime ⊢
    rfl

/-- With seven questions of thirty without evidence, no candidate that asks for no citations
    clears the safety limit. -/
theorem research_infeasible {e : ExperimentEngine ρ} {r : StableRandom ρ}
    {provider : LLMProvider}
    (hevaluator : e.evaluator = ResearchAgent.evaluate r e.genomeDigest provider)
    (hshare : 7 * e.holdoutGuard.searchSet.length ≤
      30 * (withoutEvidence e.holdoutGuard.searchSet).length)
    (hlimit : 17 / 20 ≤ (e.config.safetyConstraints.minSafetyScore : ℚ)) {genome : SystemGenome}
    (hcites : ResearchAgent.cites genome.config = false) {setup : SearchSetup}
    (hsetup : setup.challenges = e.holdoutGuard.searchSet) (fitness cost : ℚ) :
    e.scoreCandidate setup genome ≠ .ok (fitness, true, cost) := by
  intro hscore
  obtain ⟨agg, hagg, hnil⟩ := scoreCandidate_feasible hscore
  have hsafe := ((metricGateFindings_eq_nil_iff ..).mp (metricGateFindings_nil_of_tightens
    e.searchGates_tightens e.searchSafety_tightens hnil)).1
  have hsafe : checkSafety agg.asDict e.config.safetyConstraints = [] := hsafe
  have hmin := hlimit.trans ((checkSafety_nil_iff _ _).mp hsafe).1
  rw [results_of_feasible hscore, hevaluator] at hagg
  have hne : 0 < setup.challenges.length := by
    rcases List.eq_nil_or_concat setup.challenges with hnone | ⟨cs, c, hsome⟩
    · rw [hnone] at hagg
      cases hagg
    · rw [hsome]
      simp
  have hscored := research_safety_score genome.content hcites hagg
  rw [hsetup] at hscored hne
  rw [hscored] at hmin
  exact absurd hmin (not_le.mpr (score_below hne hshare))

theorem cites_of_getFieldByPath {c c' : GenomeConfig}
    (h : getFieldByPath c "prompt.system_prompt" = getFieldByPath c' "prompt.system_prompt") :
    ResearchAgent.cites c = ResearchAgent.cites c' := by
  have hget : c.get .promptSystemPrompt = c'.get .promptSystemPrompt := Except.ok.inj h
  have hprompt : c.prompt.systemPrompt = c'.prompt.systemPrompt :=
    Scalar.str.inj (Value.scalar.inj hget)
  rw [ResearchAgent.cites, hprompt, ResearchAgent.cites]

/-- **The prompt has to be searched.** Where the research baseline asks for no citations, seven of
    thirty questions or more are without evidence and the safety limit is the default or
    stricter, a search that leaves the prompt out has no feasible incumbent at any time,
    reports none, and no generation of it is one to stop after: whatever the provider, the
    strategy, the other dimensions, the budget and the interruptions. -/
theorem research_never_feasible {e : ExperimentEngine ρ} {r : StableRandom ρ}
    {provider : LLMProvider}
    (hevaluator : e.evaluator = ResearchAgent.evaluate r e.genomeDigest provider)
    {dimensions : Option (List String)}
    (hspace : buildSearchSpace "research-agent" dimensions = .ok e.config.searchSpace)
    (hprompt : "prompt.system_prompt" ∉ Dict.keys e.config.searchSpace.parameters)
    (hbaseline : ResearchAgent.cites e.baselineGenome.config = false)
    (hshare : 7 * e.holdoutGuard.searchSet.length ≤
      30 * (withoutEvidence e.holdoutGuard.searchSet).length)
    (hlimit : 17 / 20 ≤ (e.config.safetyConstraints.minSafetyScore : ℚ))
    (hpolicy : e.config.mutationPolicy = {})
    (hstrategy : ∃ name, strategyName e.config.searchStrategy = .ok name)
    (hrng : e.runtime.rng.Lawful) (hsearch : e.holdoutGuard.searchSet ≠ [])
    (hvalidation : 2 ≤ e.holdoutGuard.validationSet.length) {as : List Action} {s : State ρ}
    (hr : run e.step {} as = some s) :
    (∀ ckpt, s.disk = some ckpt → ckpt.bestFeasible = false) ∧
      (∀ p, s.phase = .saved p → converged p.strategy p.best = .ok none) ∧
      ∀ result, s.phase = .returned result → result.selectedFeasible = false := by
  have hw := workable_built hspace hpolicy hstrategy hrng hsearch hvalidation
  have hfine := fine_run hw hr
  have hinfeasible := never_feasible hw (fun g hg setup hsetup fitness cost =>
    research_infeasible hevaluator hshare hlimit
      ((cites_of_getFieldByPath (hg _ hprompt)).trans hbaseline) hsetup fitness cost) hr
  refine ⟨hinfeasible.disk, fun p hp => ?_, fun result hresult => ?_⟩
  · have hphase := hfine.phase
    have hbest := hinfeasible.phase
    rw [hp] at hphase hbest
    exact goes_on_of_infeasible hphase hbest.best
  · have hphase := hinfeasible.phase
    rw [hresult] at hphase
    exact hphase

section Example

/-- A question without evidence to search on, and two questions to validate on. -/
def uncitedEngine : ExperimentEngine ℕ :=
  { modelEngine with
    datasetVersion := { exampleSplits [] with
      challenges := [noEvidence, { noEvidence with split := .validation },
        { noEvidence with split := .validation }] }
    evaluator := ResearchAgent.evaluate MockLLMProvider.exampleStableRandom
      modelEngine.genomeDigest (MockLLMProvider.generate MockLLMProvider.exampleStableRandom) }

theorem buildSearchSpace_research :
    buildSearchSpace "research-agent" (some ["model"]) = .ok modelSpace := by
  have hbuilt : (buildSearchSpace "research-agent" (some ["model"])).toOption.map
      (·.parameters) = some modelSpace.parameters := by
    decide +kernel
  obtain ⟨space, hspace, hparameters⟩ := Option.map_eq_some_iff.mp hbuilt
  have hsame : space = modelSpace := by
    obtain ⟨parameters, hnodup⟩ := space
    cases hparameters
    rfl
  rw [toOption_eq_some.mp hspace, hsame]

end Example

theorem research_never_feasible_uncited : ∃ s,
    run uncitedEngine.step {} cancelledOnResume = some s ∧
      s.disk.map (fun ckpt => (ckpt.stopReason, ckpt.bestFeasible)) =
        some ("cancelled by user", false) := by
  have hrun : ((run uncitedEngine.step {} cancelledOnResume).bind State.disk).map
      (·.stopReason) = some "cancelled by user" := by decide +kernel
  rw [Option.map_bind, Option.bind_eq_some_iff] at hrun
  obtain ⟨s, hs, hdisk⟩ := hrun
  obtain ⟨ckpt, hckpt, hreason⟩ := Option.map_eq_some_iff.mp hdisk
  have hinfeasible := (research_never_feasible rfl buildSearchSpace_research (by decide +kernel)
    (by decide +kernel) (by decide +kernel) (by decide +kernel) rfl ⟨.random, rfl⟩
    (fun _ => ⟨le_rfl, zero_lt_one⟩) (by decide) (by decide) hs).1 ckpt hckpt
  exact ⟨s, hs, by rw [hckpt, Option.map_some, hreason, hinfeasible]⟩

end ExperimentEngine

end NeuroForge
