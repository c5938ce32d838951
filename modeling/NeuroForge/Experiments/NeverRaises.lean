/-
  Runs of an experiment that end in a result or go on, but never raise.

  `Workable` is what an engine needs for that: a known strategy, a space whose points (`P`) make
  candidates (`G`) within the mutation policy, something to search on and something to validate
  on. Progress (`load_unfailing`, `generation_unfailing`) and what is kept of the variables of a
  process and of its checkpoint (`Progress.Fine`, `Restorable`) are shown together, step by
  step; crashes, restarts and cancel requests may come at any moment. The engines over the
  spaces that a user can choose are workable (`workable_built`).
-/
import NeuroForge.Experiments.Spaces
import NeuroForge.Lib.Transition

namespace NeuroForge

open Fallible Transition

variable {ρ : Type}

namespace ExperimentEngine

structure Workable (e : ExperimentEngine ρ) (P : Point → Prop) (G : SystemGenome → Prop) :
    Prop where
  strategy : ∃ name, strategyName e.config.searchStrategy = .ok name
  space : e.config.searchSpace.parameters ≠ []
  points : PointInvariant e.runtime.rng e.config.searchSpace P
  allowed : ∀ p, P p → e.disallowedFields p = []
  baseline : G e.baselineGenome
  derives : ∀ p, P p → ∀ version index, ∃ child,
    e.deriveCandidate p version index = .ok child ∧ G child
  search : e.holdoutGuard.searchSet ≠ []
  validation : 2 ≤ e.holdoutGuard.validationSet.length

/-- A checkpoint from which the run can go on. -/
structure Restorable (e : ExperimentEngine ρ) (P : Point → Prop) (G : SystemGenome → Prop)
    (ckpt : ExperimentCheckpoint) : Prop where
  dataset : ckpt.datasetVersion = e.datasetVersion.version
  told : ∀ b ∈ ckpt.tellBatches, b.points ≠ [] ∧ b.points.length = b.fitness.length
  points : ∀ b ∈ ckpt.tellBatches, ∀ p ∈ b.points, P p
  best : ∀ g, ckpt.bestGenome = some g → G g

/-- The variables of a process in its loop. -/
structure Progress.Fine (e : ExperimentEngine ρ) (P : Point → Prop) (G : SystemGenome → Prop)
    (p : Progress ρ) : Prop where
  ckpt : Restorable e P G p.ckpt
  strategy : p.strategy.Sane e.config.searchSpace P
  setup : p.setup.challenges ≠ []
  best : G p.best.genome

def Phase.Fine (e : ExperimentEngine ρ) (P : Point → Prop) (G : SystemGenome → Prop) :
    Phase ρ → Prop
  | .idle => True
  | .looping p | .saved p | .stopping p _ | .stopped p => p.Fine e P G
  | .returned result => G result.bestGenome
  | .raised _ => False

structure Fine (e : ExperimentEngine ρ) (P : Point → Prop) (G : SystemGenome → Prop)
    (s : State ρ) : Prop where
  disk : ∀ ckpt, s.disk = some ckpt → Restorable e P G ckpt
  phase : s.phase.Fine e P G

section
variable {e : ExperimentEngine ρ} {P : Point → Prop} {G : SystemGenome → Prop}

/-! ## Loading -/

theorem restorable_loadCheckpoint (hw : Workable e P G) {disk : Option ExperimentCheckpoint}
    (h : ∀ ckpt, disk = some ckpt → Restorable e P G ckpt) :
    Restorable e P G (e.loadCheckpoint disk) := by
  cases disk with
  | none =>
      have hnone : ∀ b : TellBatch, b ∉ (e.loadCheckpoint none).tellBatches :=
        fun _ => List.not_mem_nil
      refine ⟨rfl, fun b hb => absurd hb (hnone b), fun b hb => absurd hb (hnone b), ?_⟩
      intro g hg
      cases hg
      exact hw.baseline
  | some ckpt =>
      obtain ⟨hdataset, htold, hpoints, hbest⟩ := h ckpt rfl
      unfold loadCheckpoint asRunning
      dsimp only
      split_ifs
      · exact ⟨hdataset, htold, hpoints, hbest⟩
      · exact ⟨hdataset, htold, hpoints, hbest⟩

theorem observations_ne_nil {points : List Point} {fitness : List ℚ} (hne : points ≠ [])
    (hlen : points.length = fitness.length) :
    (points.zip fitness).map (fun x => (⟨x.1, x.2⟩ : Observation)) ≠ [] := by
  have hpos : 0 < points.length := List.length_pos_iff.mpr hne
  rw [Ne, ← List.length_eq_zero_iff, List.length_map, List.length_zip]
  omega

theorem observations_point {points : List Point} {fitness : List ℚ} (h : ∀ p ∈ points, P p) :
    ∀ o ∈ (points.zip fitness).map (fun x => (⟨x.1, x.2⟩ : Observation)), P o.point := by
  intro o ho
  obtain ⟨x, hx, rfl⟩ := List.mem_map.mp ho
  exact h x.1 (List.of_mem_zip hx).1

theorem replayStrategy_unfailing (hw : Workable e P G) {ckpt : ExperimentCheckpoint}
    (hckpt : Restorable e P G ckpt) :
    ∃ strategy, e.replayStrategy ckpt.tellBatches = .ok strategy ∧
      strategy.Sane e.config.searchSpace P := by
  obtain ⟨name, hname⟩ := hw.strategy
  have hget : e.getStrategy = .ok (NeuroForge.getStrategy e.runtime name e.config.searchSpace
      e.config.seed (some e.config.batchSize)) := bind_eq_ok.mpr ⟨name, hname, rfl⟩
  have hobservations : ∀ b ∈ ckpt.tellBatches, b.observations =
      .ok ((b.points.zip b.fitness).map fun x => (⟨x.1, x.2⟩ : Observation)) :=
    fun b hb => if_pos (hckpt.told b hb).2
  have hmapped := mapM_eq_ok hobservations
  have hne : ∀ round ∈ ckpt.tellBatches.map fun b =>
      (b.points.zip b.fitness).map fun x => (⟨x.1, x.2⟩ : Observation), round ≠ [] := by
    intro round hround
    obtain ⟨b, hb, rfl⟩ := List.mem_map.mp hround
    obtain ⟨hne, hlen⟩ := hckpt.told b hb
    exact observations_ne_nil hne hlen
  have htold : ∀ round ∈ ckpt.tellBatches.map fun b =>
      (b.points.zip b.fitness).map fun x => (⟨x.1, x.2⟩ : Observation),
      ∀ o ∈ round, P o.point := by
    intro round hround o ho
    obtain ⟨b, hb, rfl⟩ := List.mem_map.mp hround
    exact observations_point (hckpt.points b hb) o ho
  obtain ⟨strategy, hreplay, hsane⟩ := replay_unfailing hw.points hw.space
    (sane_fresh hw.points name e.config.seed (some e.config.batchSize)) hne htold
  exact ⟨strategy, bind_eq_ok.mpr ⟨_, hget, bind_eq_ok.mpr ⟨_, hmapped, hreplay⟩⟩, hsane⟩

theorem searchSetup_unfailing (hw : Workable e P G) :
    ∃ setup, e.searchSetup = .ok setup ∧ setup.challenges ≠ [] := by
  obtain ⟨agg, hagg⟩ : ∃ agg, aggregate
      (e.holdoutGuard.searchSet.map (e.evaluator e.baselineGenome.content))
      (e.holdoutGuard.searchSet.map (·.category)) = .ok agg := by
    have hne := hw.search
    cases hsearch : e.holdoutGuard.searchSet with
    | nil => exact absurd hsearch hne
    | cons c cs => exact ⟨_, rfl⟩
  have hsome : e.holdoutGuard.searchSet.isEmpty = false := by simpa using hw.search
  have henough : ¬ e.holdoutGuard.validationSet.length < 2 := by
    have hvalidation := hw.validation
    omega
  refine ⟨⟨e.holdoutGuard.searchSet, agg⟩, ?_, hw.search⟩
  unfold searchSetup
  simp only [hsome, henough, decide_false, Bool.or_false, Bool.false_eq_true, if_false, hagg]
  rfl

theorem load_unfailing (hw : Workable e P G) {disk : Option ExperimentCheckpoint}
    (h : ∀ ckpt, disk = some ckpt → Restorable e P G ckpt) :
    ∃ p, e.load disk = .ok p ∧ p.Fine e P G := by
  have hckpt := restorable_loadCheckpoint hw h
  have hdataset : e.checkDataset disk.isSome (e.loadCheckpoint disk) = .ok () :=
    if_neg fun hmoved => hmoved.2.2 hckpt.dataset
  obtain ⟨strategy, hstrategy, hsane⟩ := replayStrategy_unfailing hw hckpt
  obtain ⟨setup, hsetup, hchallenges⟩ := searchSetup_unfailing hw
  refine ⟨_, bind_eq_ok.mpr ⟨(), hdataset, bind_eq_ok.mpr ⟨strategy, hstrategy,
    bind_eq_ok.mpr ⟨setup, hsetup, rfl⟩⟩⟩, hckpt, hsane, hchallenges, ?_⟩
  dsimp only
  cases hbest : (e.loadCheckpoint disk).bestGenome with
  | none => exact hw.baseline
  | some g => exact hckpt.best g hbest

/-! ## One generation -/

theorem checkPolicy_ok (hw : Workable e P G) {points : List Point} (hpoints : ∀ p ∈ points, P p) :
    e.checkPolicy points = .ok () := by
  have hnone : (points.map e.disallowedFields).find? (!·.isEmpty) = none := by
    rw [List.find?_eq_none]
    intro fields hfields
    obtain ⟨p, hp, rfl⟩ := List.mem_map.mp hfields
    rw [hw.allowed p (hpoints p hp)]
    decide
  unfold checkPolicy
  rw [hnone]

theorem deriveBatch_unfailing (hw : Workable e P G) (index : ℕ) {points : List Point}
    (hpoints : ∀ p ∈ points, P p) (version : ℕ) :
    ∃ genomes, e.deriveBatch index points version = .ok genomes ∧ ∀ g ∈ genomes, G g := by
  induction points generalizing version with
  | nil => exact ⟨[], rfl, fun g hg => absurd hg List.not_mem_nil⟩
  | cons p points ih =>
      obtain ⟨hp, hrest⟩ := List.forall_mem_cons.mp hpoints
      obtain ⟨child, hchild, hG⟩ := hw.derives p hp version index
      obtain ⟨genomes, hgenomes, hall⟩ := ih hrest (version + 1)
      exact ⟨child :: genomes,
        bind_eq_ok.mpr ⟨child, hchild, bind_eq_ok.mpr ⟨genomes, hgenomes, rfl⟩⟩,
        List.forall_mem_cons.mpr ⟨hG, hall⟩⟩

theorem scoreCandidate_unfailing {setup : SearchSetup} (hsetup : setup.challenges ≠ [])
    (genome : SystemGenome) : ∃ score, e.scoreCandidate setup genome = .ok score := by
  have hresults : (e.evaluateCandidate genome setup.challenges).1 ≠ [] := by
    unfold evaluateCandidate
    split
    · simpa using hsetup
    · split_ifs
      · simpa using hsetup
      · simpa using hsetup
  obtain ⟨agg, hagg⟩ : ∃ agg, aggregate (e.evaluateCandidate genome setup.challenges).1
      (setup.challenges.map (·.category)) = .ok agg := by
    cases hr : (e.evaluateCandidate genome setup.challenges).1 with
    | nil => exact absurd hr hresults
    | cons r rs => exact ⟨_, rfl⟩
  exact ⟨_, bind_eq_ok.mpr ⟨agg, hagg, rfl⟩⟩

theorem evaluateBatch_unfailing {setup : SearchSetup} (hsetup : setup.challenges ≠ [])
    (genomes : List SystemGenome) (best : Incumbent) (use : BudgetUse) :
    ∃ fitness best' use', e.evaluateBatch setup genomes best use = .ok (fitness, best', use') := by
  induction genomes generalizing best use with
  | nil => exact ⟨[], best, use, rfl⟩
  | cons genome genomes ih =>
      obtain ⟨⟨fitness, feasible, cost⟩, hscore⟩ := scoreCandidate_unfailing hsetup genome
      obtain ⟨rest, best', use', hrest⟩ := ih (best.consider genome fitness feasible)
        (use.record 1 setup.challenges.length cost)
      exact ⟨fitness :: rest, best', use',
        bind_eq_ok.mpr ⟨_, hscore, bind_eq_ok.mpr ⟨_, hrest, rfl⟩⟩⟩

/-- A generation has no more points to ask for, or is told all it asked for. -/
theorem generation_unfailing (hw : Workable e P G) {p : Progress ρ} (hp : p.Fine e P G)
    (use : BudgetUse) (version index : ℕ) :
    e.generation p.setup p.strategy p.best use version index = .ok none ∨
      ∃ batch strategy best use', e.generation p.setup p.strategy p.best use version index =
          .ok (some (batch, strategy, best, use')) ∧
        strategy.Sane e.config.searchSpace P ∧ G best.genome ∧
        (batch.points ≠ [] ∧ batch.points.length = batch.fitness.length) ∧
        ∀ x ∈ batch.points, P x := by
  obtain ⟨points, asked, hask, hasked, hpoints⟩ := ask_unfailing hw.points hp.strategy
    (min e.config.batchSize (e.config.budget.maxCandidates - use.candidatesUsed))
  unfold generation
  simp only [hask, ok_bind]
  by_cases hempty : points = []
  · left
    rw [hempty]
    rfl
  · right
    obtain ⟨genomes, hgenomes, hderived⟩ := deriveBatch_unfailing hw index hpoints version
    obtain ⟨fitness, best, use', hevaluated⟩ :=
      evaluateBatch_unfailing (e := e) hp.setup genomes p.best use
    have hlen : points.length = fitness.length := by
      rw [length_evaluateBatch hevaluated, length_deriveBatch hgenomes]
    obtain ⟨told, htell, hsane⟩ := tell_unfailing hw.points hw.space hasked
      (observations_ne_nil hempty hlen) (observations_point hpoints)
    have hG : G best.genome := by
      rcases evaluateBatch_best hevaluated with hsame | hmem
      · rw [hsame]
        exact hp.best
      · exact hderived _ hmem
    have hsome : points.isEmpty = false := by simpa using hempty
    refine ⟨⟨points, fitness⟩, told, best, use', ?_, hsane, hG, ⟨hempty, hlen⟩, hpoints⟩
    simp only [hsome, Bool.false_eq_true, if_false, checkPolicy_ok hw hpoints, hgenomes,
      hevaluated, htell, ok_bind]
    rfl

/-! ## Steps and runs -/

theorem turn_ne_raised (hw : Workable e P G) {p : Progress ρ} (hp : p.Fine e P G) (flag : Bool)
    (checked recorded : ℚ≥0) (message : String) :
    e.turn flag checked recorded p ≠ .raised message := by
  have hgeneration := generation_unfailing hw hp p.tracker.use p.nextVersion p.generationIndex
  unfold turn
  split
  · exact nofun
  · split
    · exact nofun
    · split
      · exact nofun
      · rcases hgeneration with hnone | ⟨batch, strategy, best, use, hsome, -⟩
        · rw [hnone]
          exact nofun
        · rw [hsome]
          exact nofun

theorem turn_setup {p p' : Progress ρ} {flag : Bool} {checked recorded : ℚ≥0}
    (h : e.turn flag checked recorded p = .saved p') : p'.setup = p.setup := by
  unfold turn at h
  split at h
  · cases h
  · split at h
    · cases h
    · split at h
      · cases h
      · split at h
        · cases h
        · cases h
        · cases h
          rfl

theorem turn_fine (hw : Workable e P G) {p p' : Progress ρ} (hp : p.Fine e P G) {flag : Bool}
    {checked recorded : ℚ≥0} (h : e.turn flag checked recorded p = .saved p') :
    p'.Fine e P G := by
  obtain ⟨-, -, batch, hsome, -, -, hckpt⟩ := turn_saved h
  rcases generation_unfailing hw hp p.tracker.use p.nextVersion p.generationIndex with
    hnone | ⟨batch', strategy, best, use, hsome', hsane, hbest, htold, hpoints⟩
  · cases hsome.symm.trans hnone
  · cases hsome.symm.trans hsome'
    have hmem : ∀ b ∈ p'.ckpt.tellBatches, b ∈ p.ckpt.tellBatches ∨ b = batch := by
      intro b hb
      rw [hckpt] at hb
      simpa using hb
    refine ⟨⟨?_, fun b hb => ?_, fun b hb => ?_, ?_⟩, hsane, ?_, hbest⟩
    · rw [hckpt]
      exact hp.ckpt.dataset
    · rcases hmem b hb with hold | rfl
      · exact hp.ckpt.told b hold
      · exact htold
    · rcases hmem b hb with hold | rfl
      · exact hp.ckpt.points b hold
      · exact hpoints
    · intro g hg
      rw [hckpt] at hg
      cases hg
      exact hbest
    · rw [turn_setup h]
      exact hp.setup

theorem restorable_close {ckpt : ExperimentCheckpoint} (h : Restorable e P G ckpt)
    (reason : String) : Restorable e P G (closeCheckpoint ckpt reason) :=
  ⟨h.dataset, h.told, h.points, h.best⟩

/-- A step keeps what the next one needs. -/
theorem fine_step (hw : Workable e P G) {s s' : State ρ} {a : Action} (hs : Fine e P G s)
    (h : e.step s a = some s') : Fine e P G s' := by
  obtain ⟨hdisk, hphase⟩ := hs
  cases step_did h with
  | @started disk flag p hload =>
      obtain ⟨p', hload', hp'⟩ := load_unfailing hw hdisk
      obtain rfl : p' = p := Except.ok.inj (hload'.symm.trans hload)
      refine ⟨fun ckpt hckpt => ?_, hp'⟩
      obtain ⟨c, -, rfl⟩ := Option.map_eq_some_iff.mp hckpt
      exact restorable_loadCheckpoint hw hdisk
  | @notStarted disk flag message hload =>
      obtain ⟨p', hload', -⟩ := load_unfailing hw hdisk
      cases hload'.symm.trans hload
  | leftLoop hturn => exact ⟨hdisk, hphase⟩
  | @saved disk flag p checked recorded p' hturn =>
      have hfine := turn_fine hw hphase hturn
      refine ⟨fun ckpt hckpt => ?_, hfine⟩
      cases hckpt
      exact hfine.ckpt
  | @turnRaised disk flag p checked recorded message hturn =>
      exact absurd hturn (turn_ne_raised hw hphase flag checked recorded message)
  | wentOn hconverged => exact ⟨hdisk, hphase⟩
  | hasConverged hconverged => exact ⟨hdisk, hphase⟩
  | @checkRaised disk flag p message hconverged =>
      obtain ⟨state, hstate⟩ := convergence_unfailing hphase.strategy
      have hok : ∃ o, converged p.strategy p.best = .ok o :=
        ⟨_, bind_eq_ok.mpr ⟨state, hstate, rfl⟩⟩
      obtain ⟨o, ho⟩ := hok
      cases hconverged.symm.trans ho
  | @closed disk flag p reason =>
      refine ⟨fun ckpt hckpt => ?_, ?_⟩
      · cases hckpt
        exact restorable_close hphase.ckpt reason
      · exact ⟨restorable_close hphase.ckpt reason, hphase.strategy, hphase.setup, hphase.best⟩
  | finalized hfinal =>
      refine ⟨hdisk, ?_⟩
      show G _
      rw [(finalize_result hfinal).2.2.2.2.2.1]
      exact hphase.best
  | @finalizeRaised disk flag p clock message hfinal =>
      obtain ⟨r, hr⟩ := finalize_ok hw.validation p clock
      cases hr.symm.trans hfinal
  | crashed => exact ⟨hdisk, trivial⟩
  | cancelled => exact ⟨hdisk, hphase⟩

theorem fine_run (hw : Workable e P G) {s : State ρ} {as : List Action}
    (hr : run e.step {} as = some s) : Fine e P G s := by
  have hinitial : Fine e P G ({} : State ρ) := by
    refine ⟨fun ckpt hckpt => ?_, trivial⟩
    cases hckpt
  have hstep : ∀ (s : State ρ) (a : Action) (s' : State ρ), Fine e P G s →
      e.step s a = some s' → Fine e P G s' := fun s a s' hs h => fine_step hw hs h
  exact run_invariant hstep hinitial hr

end

/-! ## The spaces that can be chosen -/

/-- The genome is the baseline in every field that is not searched. -/
def KeepsUnsearched (e : ExperimentEngine ρ) (g : SystemGenome) : Prop :=
  ∀ path ∉ Dict.keys e.config.searchSpace.parameters,
    getFieldByPath g.config path = getFieldByPath e.baselineGenome.config path

theorem workable_built {e : ExperimentEngine ρ} {domainName : String}
    {dimensions : Option (List String)}
    (hspace : buildSearchSpace domainName dimensions = .ok e.config.searchSpace)
    (hpolicy : e.config.mutationPolicy = {})
    (hstrategy : ∃ name, strategyName e.config.searchStrategy = .ok name)
    (hrng : e.runtime.rng.Lawful) (hsearch : e.holdoutGuard.searchSet ≠ [])
    (hvalidation : 2 ≤ e.holdoutGuard.validationSet.length) :
    Workable e (e.config.searchSpace.Fits Within) (KeepsUnsearched e) where
  strategy := hstrategy
  space := built_ne_nil hspace
  points := pointInvariant_fits (built_ne_nil hspace)
    (fun p hp => stable_within hrng ((built_admitted hspace).inward p hp))
    fun p hp => within_gridValues ((built_admitted hspace).inward p hp) 4
  allowed p hp := by
    have hkeys : Dict.keys p = Dict.keys e.config.searchSpace.parameters := FitsEntries.keys hp
    refine List.filter_eq_nil_iff.mpr fun path hpath => ?_
    rw [hpolicy, (built_admitted hspace).allowed path (hkeys ▸ hpath)]
    decide
  baseline _ _ := rfl
  derives p hp version index := by
    obtain ⟨child, hchild, -, hkept⟩ :=
      e.deriveCandidate_of_within (built_admitted hspace) hp version index
    exact ⟨child, hchild, hkept⟩
  search := hsearch
  validation := hvalidation

/-- A search of the model section alone. -/
def modelSpace : SearchSpace :=
  ⟨defaultParameters.filter fun p => genomeSection p.1 = "model",
    nodup_keys_filter defaultParameters_nodup _⟩

def modelEngine : ExperimentEngine ℕ :=
  { exampleEngine with config := { exampleConfig with searchSpace := modelSpace } }

theorem buildSearchSpace_model :
    buildSearchSpace "sql-agent" (some ["model"]) = .ok modelSpace := by
  have hbuilt : (buildSearchSpace "sql-agent" (some ["model"])).toOption.map
      (·.parameters) = some modelSpace.parameters := by
    decide +kernel
  obtain ⟨space, hspace, hparameters⟩ := Option.map_eq_some_iff.mp hbuilt
  have hsame : space = modelSpace := by
    obtain ⟨parameters, hnodup⟩ := space
    cases hparameters
    rfl
  rw [toOption_eq_some.mp hspace, hsame]

/-- Interrupted after its first generation, resumed, and cancelled. -/
def cancelledOnResume : List Action :=
  [.start, .turn 0 0, .crash, .start, .turn 0 0, .checkConvergence, .cancel, .turn 0 0, .stop,
    .finalize 0]

end ExperimentEngine

end NeuroForge
