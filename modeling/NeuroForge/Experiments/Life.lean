/-
  The whole life of an experiment: its runs, crashes, cancels and resumes.

  Between two processes the limits may be raised (`resume`) and the next process may find
  another version of the dataset and other code (`setUp`). Three counts have to agree
  through all of it: the rounds of the checkpoint, the counter of the budget it carries and
  the numbers of the candidates. `Counted` says that they do and that they keep to the limits,
  `step_counted` that every step of a process keeps it, and `Counted.between` that a change
  between two processes does, if it leaves room for what is recorded.

  `stepsLeft` bounds what a process still does: a generation that is saved uses up one of
  the batches and at least one of the candidates (`step_stepsLeft`).
-/
import NeuroForge.Experiments.Engine
import NeuroForge.Lib.Transition

namespace NeuroForge

open Fallible Transition

variable {ρ : Type}

/-! ## What is on record -/

/-- `ckpt.candidates_completed() if ckpt else 0` -/
def recordedCandidates (disk : Option ExperimentCheckpoint) : ℕ :=
  (disk.map (·.candidatesCompleted)).getD 0

def recordedGenerations (disk : Option ExperimentCheckpoint) : ℕ :=
  (disk.map (·.generationsCompleted)).getD 0

/-- What a process restores of the budget. -/
def recordedUse (disk : Option ExperimentCheckpoint) : BudgetUse :=
  (BudgetTracker.fromState ((disk.map (·.budgetState)).getD [])).use

/-- What an experiment has begun with: its baseline and the number of its first candidate. -/
structure Origin where
  digest : GenomeDigest
  baselineHash : String
  systemId : String
  firstVersion : ℕ

/-- The baseline, or a candidate on record. -/
def OnRecord (origin : Origin) (recorded : List SystemGenome) (g : SystemGenome) : Prop :=
  g.hash origin.digest = origin.baselineHash ∨ g ∈ recorded

/-- The record of an experiment counts right and keeps to the limits. -/
structure Booked (origin : Origin) (config : ExperimentConfig) (recorded : List SystemGenome)
    (disk : Option ExperimentCheckpoint) : Prop where
  tallies : ∀ c, disk = some c → c.Tallies
  candidates : recordedCandidates disk ≤ config.budget.maxCandidates
  generations : recordedGenerations disk ≤ config.maxBatches
  versions : recorded.map (·.version) =
    List.range' origin.firstVersion (recordedCandidates disk)
  derived : ∀ g ∈ recorded, g.systemId = origin.systemId ∧ g.status = .generated
  best : ∀ c g, disk = some c → c.bestGenome = some g → OnRecord origin recorded g

theorem OnRecord.append {origin : Origin} {recorded : List SystemGenome} {g : SystemGenome}
    (h : OnRecord origin recorded g) (genomes : List SystemGenome) :
    OnRecord origin (recorded ++ genomes) g := by
  rcases h with h | h
  · exact .inl h
  · exact .inr (List.mem_append_left genomes h)

theorem booked_nil (origin : Origin) (config : ExperimentConfig) :
    Booked origin config [] none where
  tallies := by
    intro c hc
    cases hc
  candidates := Nat.zero_le _
  generations := Nat.zero_le _
  versions := rfl
  derived := by simp
  best := by
    intro c g hc
    cases hc

/-- The limits of an experiment are changed, but not below what is recorded. -/
theorem Booked.withConfig {origin : Origin} {config config' : ExperimentConfig}
    {recorded : List SystemGenome} {disk : Option ExperimentCheckpoint}
    (h : Booked origin config recorded disk)
    (hcandidates : recordedCandidates disk ≤ config'.budget.maxCandidates)
    (hbatches : config.maxBatches ≤ config'.maxBatches) :
    Booked origin config' recorded disk where
  tallies := h.tallies
  candidates := hcandidates
  generations := h.generations.trans hbatches
  versions := h.versions
  derived := h.derived
  best := h.best

namespace ExperimentEngine

variable {e : ExperimentEngine ρ}

/-- The candidates a step adds to the record: those of the generation that it saves. -/
def savedCandidates (e : ExperimentEngine ρ) (s : State ρ) : Action → List SystemGenome
  | .turn checked recorded =>
      match s.phase with
      | .looping p =>
          match e.turn s.cancelFlag checked recorded p with
          | .saved p' =>
              match p'.ckpt.tellBatches.getLast? with
              | some batch =>
                  (e.deriveBatch p.generationIndex batch.points p.nextVersion).toOption.getD []
              | none => []
          | _ => []
      | _ => []
  | _ => []

def origin (e : ExperimentEngine ρ) : Origin where
  digest := e.genomeDigest
  baselineHash := e.baselineGenome.hash e.genomeDigest
  systemId := e.baselineGenome.systemId
  firstVersion := e.firstVersion

/-- The variables of a process agree with the record. -/
structure Accounts (e : ExperimentEngine ρ) (recorded : List SystemGenome)
    (disk : Option ExperimentCheckpoint) (p : Progress ρ) : Prop where
  tallies : p.ckpt.Tallies
  candidates : p.ckpt.candidatesCompleted = recordedCandidates disk
  generations : p.ckpt.generationsCompleted = recordedGenerations disk
  ckptUse : (BudgetTracker.fromState p.ckpt.budgetState).use = recordedUse disk
  use : p.tracker.use = recordedUse disk
  nextVersion : p.nextVersion = e.firstVersion + recordedCandidates disk
  generationIndex : p.generationIndex = recordedGenerations disk
  ckptBest : ∀ g, p.ckpt.bestGenome = some g → OnRecord e.origin recorded g
  best : OnRecord e.origin recorded p.best.genome

/-- The record is in order, and so is the process. -/
structure Counted (e : ExperimentEngine ρ) (recorded : List SystemGenome) (s : State ρ) :
    Prop extends Booked e.origin e.config recorded s.disk where
  phase : match s.phase with
    | .idle | .raised _ => True
    | .looping p | .saved p | .stopping p _ | .stopped p => Accounts e recorded s.disk p
    | .returned result => result.baselineGenome = e.baselineGenome ∧
        OnRecord e.origin recorded result.bestGenome

/-! ### A checkpoint that is loaded -/

theorem candidates_loadCheckpoint (disk : Option ExperimentCheckpoint) :
    (e.loadCheckpoint disk).candidatesCompleted = recordedCandidates disk := by
  cases disk with
  | none => rfl
  | some c =>
      unfold loadCheckpoint asRunning
      dsimp only
      split_ifs <;> rfl

theorem generations_loadCheckpoint (disk : Option ExperimentCheckpoint) :
    (e.loadCheckpoint disk).generationsCompleted = recordedGenerations disk := by
  cases disk with
  | none => rfl
  | some c =>
      unfold loadCheckpoint asRunning
      dsimp only
      split_ifs <;> rfl

theorem budgetState_loadCheckpoint (disk : Option ExperimentCheckpoint) :
    (e.loadCheckpoint disk).budgetState = (disk.map (·.budgetState)).getD [] := by
  cases disk with
  | none => rfl
  | some c =>
      unfold loadCheckpoint asRunning
      dsimp only
      split_ifs <;> rfl

theorem use_loadCheckpoint (disk : Option ExperimentCheckpoint) :
    (BudgetTracker.fromState (e.loadCheckpoint disk).budgetState).use = recordedUse disk := by
  rw [budgetState_loadCheckpoint]
  rfl

theorem bestGenome_loadCheckpoint (disk : Option ExperimentCheckpoint) :
    (e.loadCheckpoint disk).bestGenome =
      (disk.map (·.bestGenome)).getD (some e.baselineGenome) := by
  cases disk with
  | none => rfl
  | some c =>
      unfold loadCheckpoint asRunning
      dsimp only
      split_ifs <;> rfl

theorem tallies_loadCheckpoint {disk : Option ExperimentCheckpoint}
    (h : ∀ c, disk = some c → c.Tallies) : (e.loadCheckpoint disk).Tallies := by
  unfold ExperimentCheckpoint.Tallies
  rw [budgetState_loadCheckpoint, candidates_loadCheckpoint]
  cases disk with
  | none => rfl
  | some c => exact h c rfl

/-- Saving the loaded checkpoint as running leaves the record as it was. -/
theorem recorded_resaved (disk : Option ExperimentCheckpoint) :
    recordedCandidates (disk.map fun _ => e.loadCheckpoint disk) = recordedCandidates disk ∧
      recordedGenerations (disk.map fun _ => e.loadCheckpoint disk) = recordedGenerations disk ∧
      recordedUse (disk.map fun _ => e.loadCheckpoint disk) = recordedUse disk := by
  cases disk with
  | none => exact ⟨rfl, rfl, rfl⟩
  | some c =>
      exact ⟨candidates_loadCheckpoint (e := e) (some c), generations_loadCheckpoint (some c),
        use_loadCheckpoint (some c)⟩

/-! ### What a generation counts -/

/-- A generation numbers its candidates from the next number on and leaves no limit of the
    candidates behind. -/
theorem generation_counts {setup : SearchSetup} {strategy strategy' : SearchStrategy ρ}
    {best best' : Incumbent} {use use' : BudgetUse} {version index : ℕ} {batch : TellBatch}
    (h : e.generation setup strategy best use version index =
      .ok (some (batch, strategy', best', use')))
    (hroom : use.candidatesUsed < e.config.budget.maxCandidates) :
    ∃ genomes, e.deriveBatch index batch.points version = .ok genomes ∧
      genomes.map (·.version) = List.range' version batch.points.length ∧
      1 ≤ batch.points.length ∧
      use'.candidatesUsed = use.candidatesUsed + batch.points.length ∧
      use'.candidatesUsed ≤ e.config.budget.maxCandidates ∧
      (∀ g ∈ genomes, g.systemId = e.baselineGenome.systemId ∧ g.status = .generated) ∧
      (best'.genome = best.genome ∨ best'.genome ∈ genomes) := by
  obtain ⟨asked, genomes, hask, hne, hgenomes, heval, -⟩ := generation_steps h
  have huse : use'.candidatesUsed = use.candidatesUsed + batch.points.length := by
    rw [evaluateBatch_use heval, length_deriveBatch hgenomes]
  have hasked := SearchStrategy.length_ask_le hask
  have hfits : use'.candidatesUsed ≤ e.config.budget.maxCandidates := by omega
  have hsome : 1 ≤ batch.points.length := List.length_pos_iff.mpr hne
  exact ⟨genomes, hgenomes, deriveBatch_versions hgenomes, hsome, huse, hfits,
    deriveBatch_new hgenomes, evaluateBatch_best heval⟩

/-- What a turn adds to the record. -/
structure Adds (e : ExperimentEngine ρ) (p p' : Progress ρ) (genomes : List SystemGenome) :
    Prop where
  nonempty : 1 ≤ genomes.length
  versions : genomes.map (·.version) = List.range' p.nextVersion genomes.length
  derived : ∀ g ∈ genomes, g.systemId = e.baselineGenome.systemId ∧ g.status = .generated
  room : p.tracker.use.candidatesUsed < e.config.budget.maxCandidates
  use : p'.tracker.use.candidatesUsed = p.tracker.use.candidatesUsed + genomes.length
  fits : p'.tracker.use.candidatesUsed ≤ e.config.budget.maxCandidates
  candidates : p'.ckpt.candidatesCompleted = p.ckpt.candidatesCompleted + genomes.length
  nextVersion : p'.nextVersion = p.nextVersion + genomes.length
  batches : p.generationIndex < e.config.maxBatches
  generationIndex : p'.generationIndex = p.generationIndex + 1
  generations : p'.ckpt.generationsCompleted = p.ckpt.generationsCompleted + 1
  restored : (BudgetTracker.fromState p'.ckpt.budgetState).use = p'.tracker.use
  counter : Dict.getD p'.ckpt.budgetState "candidates_used" 0 = p'.tracker.use.candidatesUsed
  ckptBest : p'.ckpt.bestGenome = some p'.best.genome
  best : p'.best.genome = p.best.genome ∨ p'.best.genome ∈ genomes

theorem turn_adds (disk : Option ExperimentCheckpoint) {flag : Bool} {checked recorded : ℚ≥0}
    {p p' : Progress ρ} (h : e.turn flag checked recorded p = .saved p') :
    Adds e p p' (e.savedCandidates ⟨disk, flag, .looping p⟩ (.turn checked recorded)) := by
  obtain ⟨hexhausted, hbatches, batch, hgen, hnext, hindex, hckpt⟩ := turn_saved h
  have hroom := (BudgetUse.exhausted_eq_none.mp (BudgetTracker.exhausted_eq_none hexhausted)).1
  obtain ⟨genomes, hgenomes, hversions, hsome, huse, hfits, hderived, hbest⟩ :=
    generation_counts hgen hroom
  have hlen := length_deriveBatch hgenomes
  have hsaved : e.savedCandidates ⟨disk, flag, .looping p⟩ (.turn checked recorded) =
      genomes := by
    unfold savedCandidates
    simp only [h, hckpt, List.getLast?_append, List.getLast?_singleton, Option.some_or, hgenomes]
    rfl
  rw [← hlen] at hversions hsome huse hnext
  rw [hsaved]
  refine {
    nonempty := hsome
    versions := hversions
    derived := hderived
    room := hroom
    use := huse
    fits := hfits
    candidates := ?_
    nextVersion := hnext
    batches := hbatches
    generationIndex := hindex
    generations := ?_
    restored := ?_
    counter := ?_
    ckptBest := ?_
    best := hbest }
  · rw [hckpt, hlen]
    simp [ExperimentCheckpoint.candidatesCompleted]
  · rw [hckpt]
    simp [ExperimentCheckpoint.generationsCompleted]
  · rw [hckpt]
    dsimp only
    rw [BudgetTracker.fromState_toState]
  · rw [hckpt]
    rfl
  · rw [hckpt]

/-! ### What a step keeps -/

theorem load_accounts {recorded : List SystemGenome} {disk : Option ExperimentCheckpoint}
    {p : Progress ρ} (hload : e.load disk = .ok p)
    (htallies : ∀ c, disk = some c → c.Tallies)
    (hbest : ∀ c g, disk = some c → c.bestGenome = some g → OnRecord e.origin recorded g) :
    Accounts e recorded disk p := by
  obtain ⟨hckpt, htracker, hgenome, hnext, hindex⟩ := load_ok hload
  have hckptBest : ∀ g, (e.loadCheckpoint disk).bestGenome = some g →
      OnRecord e.origin recorded g := by
    intro g hg
    rw [bestGenome_loadCheckpoint] at hg
    cases disk with
    | none =>
        rw [← Option.some.inj hg]
        exact .inl rfl
    | some c => exact hbest c g rfl hg
  refine {
    tallies := ?_
    candidates := ?_
    generations := ?_
    ckptUse := ?_
    use := ?_
    nextVersion := ?_
    generationIndex := ?_
    ckptBest := ?_
    best := ?_ }
  · rw [hckpt]
    exact tallies_loadCheckpoint htallies
  · rw [hckpt, candidates_loadCheckpoint]
  · rw [hckpt, generations_loadCheckpoint]
  · rw [hckpt, use_loadCheckpoint]
  · rw [htracker, use_loadCheckpoint]
  · rw [hnext, candidates_loadCheckpoint]
  · rw [hindex, generations_loadCheckpoint]
  · rw [hckpt]
    exact hckptBest
  · rw [hgenome]
    cases hg : (e.loadCheckpoint disk).bestGenome with
    | none => exact .inl rfl
    | some g => exact hckptBest g hg

/-- The counter a process works with is the number of candidates on record. -/
theorem Accounts.candidatesUsed {recorded : List SystemGenome}
    {disk : Option ExperimentCheckpoint} {p : Progress ρ} (h : Accounts e recorded disk p) :
    p.tracker.use.candidatesUsed = recordedCandidates disk := by
  rw [h.use, ← h.ckptUse, h.tallies.candidatesUsed, h.candidates]

/-- The record after a turn that saves. -/
theorem Accounts.saved {recorded genomes : List SystemGenome}
    {disk : Option ExperimentCheckpoint} {p p' : Progress ρ} (h : Accounts e recorded disk p)
    (hadds : Adds e p p' genomes) : Accounts e (recorded ++ genomes) (some p'.ckpt) p' := by
  have hused := h.candidatesUsed
  have hcandidates := h.candidates
  have hgenerations := h.generations
  have hbest : OnRecord e.origin (recorded ++ genomes) p'.best.genome := by
    rcases hadds.best with hsame | hmem
    · rw [hsame]
      exact h.best.append genomes
    · exact .inr (List.mem_append_right recorded hmem)
  refine {
    tallies := ?_
    candidates := rfl
    generations := rfl
    ckptUse := rfl
    use := hadds.restored.symm
    nextVersion := ?_
    generationIndex := ?_
    ckptBest := ?_
    best := hbest }
  · unfold ExperimentCheckpoint.Tallies
    rw [hadds.counter, hadds.use, hadds.candidates, hused, hcandidates]
  · show p'.nextVersion = e.firstVersion + p'.ckpt.candidatesCompleted
    rw [hadds.nextVersion, h.nextVersion, hadds.candidates, hcandidates]
    omega
  · show p'.generationIndex = p'.ckpt.generationsCompleted
    rw [hadds.generationIndex, h.generationIndex, hadds.generations, hgenerations]
  · intro g hg
    rw [hadds.ckptBest] at hg
    rw [← Option.some.inj hg]
    exact hbest

/-- The record after the last save of a run. -/
theorem Accounts.closed {recorded : List SystemGenome} {disk : Option ExperimentCheckpoint}
    {p : Progress ρ} (h : Accounts e recorded disk p) (reason : String) :
    Accounts e recorded (some (closeCheckpoint p.ckpt reason))
      { p with ckpt := closeCheckpoint p.ckpt reason } where
  tallies := h.tallies
  candidates := rfl
  generations := rfl
  ckptUse := rfl
  use := h.use.trans h.ckptUse.symm
  nextVersion := h.nextVersion.trans (congrArg (e.firstVersion + ·) h.candidates.symm)
  generationIndex := h.generationIndex.trans h.generations.symm
  ckptBest := h.ckptBest
  best := h.best

/-- A checkpoint that a process has just saved. -/
theorem Accounts.booked {recorded : List SystemGenome} {disk : Option ExperimentCheckpoint}
    {p : Progress ρ} (h : Accounts e recorded disk p)
    (hcandidates : p.ckpt.candidatesCompleted ≤ e.config.budget.maxCandidates)
    (hgenerations : p.ckpt.generationsCompleted ≤ e.config.maxBatches)
    (hversions : recorded.map (·.version) =
      List.range' e.firstVersion p.ckpt.candidatesCompleted)
    (hderived : ∀ g ∈ recorded, g.systemId = e.origin.systemId ∧ g.status = .generated) :
    Booked e.origin e.config recorded (some p.ckpt) where
  tallies := by
    intro c hc
    rw [← Option.some.inj hc]
    exact h.tallies
  candidates := hcandidates
  generations := hgenerations
  versions := hversions
  derived := hderived
  best := by
    intro c g hc hg
    rw [← Option.some.inj hc] at hg
    exact h.ckptBest g hg

theorem Counted.saved {recorded genomes : List SystemGenome}
    {disk : Option ExperimentCheckpoint} {flag : Bool} {p p' : Progress ρ}
    (h : Counted e recorded ⟨disk, flag, .looping p⟩) (hadds : Adds e p p' genomes) :
    Counted e (recorded ++ genomes) ⟨some p'.ckpt, flag, .saved p'⟩ := by
  have haccounts : Accounts e recorded disk p := h.phase
  have hused := haccounts.candidatesUsed
  have hcandidates := haccounts.candidates
  have hgenerations := haccounts.generations
  have hindex := haccounts.generationIndex
  have hversions : recorded.map (·.version) =
      List.range' e.firstVersion (recordedCandidates disk) := h.versions
  have huse := hadds.use
  have hfits := hadds.fits
  have hbatches := hadds.batches
  have hmore := hadds.candidates
  have hnext := hadds.generations
  have hsaved := haccounts.saved hadds
  refine ⟨hsaved.booked ?_ ?_ ?_ fun g hg => ?_, hsaved⟩
  · omega
  · omega
  · rw [List.map_append, hversions, hadds.versions, haccounts.nextVersion, hmore, hcandidates,
      List.range'_append_1]
  · rcases List.mem_append.mp hg with hg | hg
    · exact h.derived g hg
    · exact hadds.derived g hg

theorem Counted.closed {recorded : List SystemGenome} {disk : Option ExperimentCheckpoint}
    {flag flag' : Bool} {p : Progress ρ} {reason : String}
    (h : Counted e recorded ⟨disk, flag, .stopping p reason⟩) :
    Counted e recorded ⟨some (closeCheckpoint p.ckpt reason), flag',
      .stopped { p with ckpt := closeCheckpoint p.ckpt reason }⟩ := by
  have haccounts : Accounts e recorded disk p := h.phase
  have hclosed := haccounts.closed reason
  refine ⟨hclosed.booked ?_ ?_ ?_ h.derived, hclosed⟩
  · exact haccounts.candidates.le.trans h.candidates
  · exact haccounts.generations.le.trans h.generations
  · rw [h.versions]
    exact congrArg (List.range' e.firstVersion) haccounts.candidates.symm

/-- A process has saved the checkpoint it loaded as running. -/
theorem booked_resaved {recorded : List SystemGenome} {disk : Option ExperimentCheckpoint}
    (h : Booked e.origin e.config recorded disk) :
    Booked e.origin e.config recorded (disk.map fun _ => e.loadCheckpoint disk) := by
  obtain ⟨hcandidates, hgenerations, -⟩ := recorded_resaved (e := e) disk
  refine ⟨fun c hc => ?_, ?_, ?_, ?_, h.derived, fun c g hc hg => ?_⟩
  · obtain ⟨_, -, rfl⟩ := Option.map_eq_some_iff.mp hc
    exact tallies_loadCheckpoint h.tallies
  · exact hcandidates.le.trans h.candidates
  · exact hgenerations.le.trans h.generations
  · rw [h.versions, hcandidates]
  · obtain ⟨c', hdisk, rfl⟩ := Option.map_eq_some_iff.mp hc
    rw [bestGenome_loadCheckpoint, hdisk] at hg
    exact h.best c' g hdisk hg

theorem Accounts.resaved {recorded : List SystemGenome} {disk : Option ExperimentCheckpoint}
    {p : Progress ρ} (h : Accounts e recorded disk p) :
    Accounts e recorded (disk.map fun _ => e.loadCheckpoint disk) p := by
  obtain ⟨hcandidates, hgenerations, huse⟩ := recorded_resaved (e := e) disk
  exact { h with
    candidates := h.candidates.trans hcandidates.symm
    generations := h.generations.trans hgenerations.symm
    ckptUse := h.ckptUse.trans huse.symm
    use := h.use.trans huse.symm
    nextVersion := by rw [h.nextVersion, hcandidates]
    generationIndex := h.generationIndex.trans hgenerations.symm }

/-- Every step of a process keeps the record right. -/
theorem step_counted {recorded : List SystemGenome} {s s' : State ρ} {a : Action}
    (h : Counted e recorded s) (hstep : e.step s a = some s') :
    Counted e (recorded ++ e.savedCandidates s a) s' := by
  have hsame : ∀ {t : State ρ} {genomes : List SystemGenome}, genomes = [] →
      Counted e recorded t → Counted e (recorded ++ genomes) t := by
    intro t genomes hnone ht
    rw [hnone, List.append_nil]
    exact ht
  cases step_did hstep with
  | started hload =>
      have haccounts := load_accounts hload h.tallies h.best
      exact hsame rfl ⟨booked_resaved h.toBooked, haccounts.resaved⟩
  | notStarted => exact hsame rfl ⟨booked_resaved h.toBooked, trivial⟩
  | saved hturn => exact h.saved (turn_adds _ hturn)
  | leftLoop hturn =>
      refine hsame ?_ ⟨h.toBooked, h.phase⟩
      unfold savedCandidates
      simp only [hturn]
  | turnRaised hturn =>
      refine hsame ?_ ⟨h.toBooked, trivial⟩
      unfold savedCandidates
      simp only [hturn]
  | closed => exact hsame rfl h.closed
  | finalized hfinal =>
      rename_i disk flag p clock result
      have haccounts : Accounts e recorded disk p := h.phase
      obtain ⟨hbaseline, -, -, -, -, hbest, -⟩ := finalize_result hfinal
      refine hsame rfl ⟨h.toBooked, hbaseline, ?_⟩
      rw [hbest]
      exact haccounts.best
  | wentOn | hasConverged | cancelled => exact hsame rfl ⟨h.toBooked, h.phase⟩
  | checkRaised | finalizeRaised | crashed => exact hsame rfl ⟨h.toBooked, trivial⟩

/-- The counter on disk is the number of candidates on record. -/
theorem Counted.candidatesUsed {recorded : List SystemGenome} {s : State ρ}
    (h : Counted e recorded s) :
    (recordedUse s.disk).candidatesUsed = recordedCandidates s.disk := by
  have htallies := h.tallies
  cases hdisk : s.disk with
  | none =>
      have hnil : recordedUse none = {} := congrArg BudgetTracker.use BudgetTracker.fromState_nil
      rw [hnil]
      rfl
  | some c => exact (htallies c hdisk).candidatesUsed

/-- Limits are raised, or the process that comes next finds another dataset or other code. -/
theorem Counted.between {recorded : List SystemGenome} {s : State ρ} (h : Counted e recorded s)
    {e' : ExperimentEngine ρ} (horigin : e'.origin = e.origin)
    (hcandidates : recordedCandidates s.disk ≤ e'.config.budget.maxCandidates)
    (hbatches : e.config.maxBatches ≤ e'.config.maxBatches) :
    Counted e' recorded { s with phase := .idle } := by
  refine ⟨?_, trivial⟩
  rw [horigin]
  exact h.toBooked.withConfig hcandidates hbatches

/-! ## What a process still does -/

/-- How many more generations the limits leave room for. -/
def roomLeft (e : ExperimentEngine ρ) (generations candidates : ℕ) : ℕ :=
  min (e.config.maxBatches - generations) (e.config.budget.maxCandidates - candidates)

/-- A bound on the steps a process still takes. -/
def stepsLeft (e : ExperimentEngine ρ) (s : State ρ) : ℕ :=
  match s.phase with
  | .idle => 2 * e.roomLeft (recordedGenerations s.disk) (recordedUse s.disk).candidatesUsed + 4
  | .looping p => 2 * e.roomLeft p.generationIndex p.tracker.use.candidatesUsed + 3
  | .saved p => 2 * e.roomLeft p.generationIndex p.tracker.use.candidatesUsed + 4
  | .stopping _ _ => 2
  | .stopped _ => 1
  | .returned _ | .raised _ => 0

/-- The process has come to its end. -/
def Phase.ended : Phase ρ → Bool
  | .returned _ | .raised _ => true
  | _ => false

theorem step_stepsLeft {s s' : State ρ} {a : Action} (ha : Action.isOwn a)
    (hstep : e.step s a = some s') : e.stepsLeft s' < e.stepsLeft s := by
  cases step_did hstep with
  | started hload =>
      obtain ⟨-, htracker, -, -, hindex⟩ := load_ok hload
      unfold stepsLeft
      dsimp only
      rw [htracker, hindex, use_loadCheckpoint, generations_loadCheckpoint]
      omega
  | saved hturn =>
      rename_i disk flag p checked recorded p'
      have hadds := turn_adds disk hturn
      have hnonempty := hadds.nonempty
      have huse := hadds.use
      have hroom := hadds.room
      have hbatches := hadds.batches
      have hindex := hadds.generationIndex
      unfold stepsLeft roomLeft
      dsimp only
      omega
  | crashed => exact absurd rfl ha.1
  | cancelled => exact absurd rfl ha.2
  | notStarted | leftLoop | turnRaised | wentOn | hasConverged | checkRaised | closed | finalized
      | finalizeRaised =>
      unfold stepsLeft
      dsimp only
      omega

theorem step_stepsLeft_le {s s' : State ρ} {a : Action} (ha : a ≠ .crash)
    (hstep : e.step s a = some s') : e.stepsLeft s' ≤ e.stepsLeft s := by
  by_cases hcancel : a = .cancel
  · subst hcancel
    cases hstep
    exact le_rfl
  · exact (step_stepsLeft ⟨ha, hcancel⟩ hstep).le

/-- A process that has not come to its end has a step to take. -/
theorem exists_step (e : ExperimentEngine ρ) {s : State ρ} (h : s.phase.ended = false) :
    ∃ a, Action.isOwn a ∧ (e.step s a).isSome := by
  obtain ⟨disk, flag, phase⟩ := s
  cases phase with
  | idle => exact ⟨.start, ⟨nofun, nofun⟩, rfl⟩
  | looping p =>
      refine ⟨.turn 0 0, ⟨nofun, nofun⟩, ?_⟩
      unfold step
      dsimp only
      cases e.turn flag 0 0 p <;> rfl
  | saved p =>
      refine ⟨.checkConvergence, ⟨nofun, nofun⟩, ?_⟩
      unfold step
      dsimp only
      rcases converged p.strategy p.best with message | _ | reason <;> rfl
  | stopping p reason => exact ⟨.stop, ⟨nofun, nofun⟩, rfl⟩
  | stopped p => exact ⟨.finalize 0, ⟨nofun, nofun⟩, rfl⟩
  | returned result => cases h
  | raised message => cases h

/-- A process that does not die takes at most `n` steps, whatever its clock says and whenever
    it is cancelled, and is not stuck before it has returned or raised. -/
structure EndsWithin (e : ExperimentEngine ρ) (s : State ρ) (n : ℕ) : Prop where
  bounded : ∀ (as : List Action) (t : State ρ), .crash ∉ as → run e.step s as = some t →
    as.countP (fun a => decide (Action.isOwn a)) ≤ n
  goesOn : ∀ (as : List Action) (t : State ρ), run e.step s as = some t →
    t.phase.ended = true ∨ ∃ a, Action.isOwn a ∧ (e.step t a).isSome

theorem endsWithin_of_le {s : State ρ} {n : ℕ} (h : e.stepsLeft s ≤ n) : EndsWithin e s n where
  bounded := by
    intro as t hcrash hrun
    have hallowed : ∀ a ∈ as, a ≠ .crash := fun a ha => ne_of_mem_of_not_mem ha hcrash
    have hcount : as.countP (fun a => decide (Action.isOwn a)) + e.stepsLeft t ≤ e.stepsLeft s :=
      countP_le_of_measure (fun _ _ _ ha hstep => step_stepsLeft_le ha hstep)
        (fun _ _ _ ha hstep => step_stepsLeft ha hstep) hallowed hrun
    omega
  goesOn := by
    intro as t _
    cases hended : t.phase.ended with
    | true => exact .inl rfl
    | false => exact .inr (exists_step e hended)

theorem Counted.stepsLeft_le {recorded : List SystemGenome} {s : State ρ}
    (h : Counted e recorded s) : e.stepsLeft s ≤
      2 * e.roomLeft (recordedGenerations s.disk) (recordedCandidates s.disk) + 4 := by
  have hused := h.candidatesUsed
  have hphase := h.phase
  obtain ⟨disk, flag, phase⟩ := s
  dsimp only at hused hphase
  have hloop : ∀ p : Progress ρ, Accounts e recorded disk p →
      e.roomLeft p.generationIndex p.tracker.use.candidatesUsed =
        e.roomLeft (recordedGenerations disk) (recordedCandidates disk) := by
    intro p hp
    rw [hp.generationIndex, hp.candidatesUsed]
  unfold stepsLeft
  cases phase with
  | idle =>
      dsimp only
      rw [hused]
  | looping p =>
      dsimp only
      rw [hloop p hphase]
      omega
  | saved p =>
      dsimp only
      rw [hloop p hphase]
  | _ =>
      dsimp only
      omega

/-- A turn at a limit starts nothing. -/
theorem turn_at_limit {p : Progress ρ} {reason : String}
    (h : p.tracker.use.exhausted e.config.budget = some reason) (flag : Bool)
    (checked recorded : ℚ≥0) : e.turn flag checked recorded p =
      .stop (if flag then "cancelled by user" else reason) := by
  have hexhausted : p.tracker.exhausted e.config.budget checked = some reason := by
    unfold BudgetTracker.exhausted
    rw [h]
  unfold turn
  rw [hexhausted]
  cases flag <;> rfl

end ExperimentEngine

/-! ## Lives -/

open ExperimentEngine

/-- The limits of a configuration are set anew; `max_batches` is never lowered. -/
def ExperimentConfig.withLimits (config : ExperimentConfig) (maxCandidates : ℕ)
    (hpos : 1 ≤ maxCandidates) (batches : ℕ) : ExperimentConfig :=
  { config with
    budget := { config.budget with maxCandidates := maxCandidates, candidates_pos := hpos }
    maxBatches := max config.maxBatches batches }

/-- No process is at work. -/
def ExperimentEngine.Phase.atRest : Phase ρ → Bool
  | .idle => true
  | phase => phase.ended

/-- An experiment with its disk and its process. For the statements only, it keeps the
    candidates of the generations that were saved. -/
structure Life (ρ : Type) where
  engine : ExperimentEngine ρ
  state : State ρ := {}
  recorded : List SystemGenome := []

inductive LifeEvent where
  | act (a : Action)
  /-- the next process finds another version of the dataset and other code -/
  | setUp (dataset : DatasetVersion) (evaluator : Evaluator)
      (timesOut : GenomeContent → List Challenge → Bool)
  /-- `max_candidates` is set to no less than what is recorded, and there may be `moreBatches`
      generations after those that are recorded -/
  | resume (maxCandidates moreBatches : ℕ)

def Life.next (l : Life ρ) : LifeEvent → Option (Life ρ)
  | .act a => (l.engine.step l.state a).map fun s =>
      { l with state := s, recorded := l.recorded ++ l.engine.savedCandidates l.state a }
  | .setUp dataset evaluator timesOut =>
      if l.state.phase.atRest then
        some { l with
          engine := { l.engine with
            datasetVersion := dataset, evaluator := evaluator, timesOut := timesOut }
          state := { l.state with phase := .idle } }
      else none
  | .resume maxCandidates moreBatches =>
      if h : 1 ≤ maxCandidates then
        if l.state.phase.atRest ∧ recordedCandidates l.state.disk ≤ maxCandidates then
          some { l with
            engine := { l.engine with
              config := l.engine.config.withLimits maxCandidates h
                (recordedGenerations l.state.disk + moreBatches) }
            state := { l.state with phase := .idle } }
        else none
      else none

/-- The life of one process: nothing but its own steps, a cancel and its death. -/
theorem acts_counted {e : ExperimentEngine ρ} {s : State ρ} {recorded : List SystemGenome}
    {actions : List Action} {l : Life ρ} (h : Counted e recorded s)
    (hrun : run Life.next ⟨e, s, recorded⟩ (actions.map .act) = some l) :
    l.engine = e ∧ recorded <+: l.recorded ∧ Counted e l.recorded l.state := by
  induction actions generalizing s recorded with
  | nil =>
      obtain rfl := Option.some.inj hrun
      exact ⟨rfl, List.prefix_rfl, h⟩
  | cons a actions ih =>
      rw [List.map_cons, run_cons] at hrun
      obtain ⟨l', hnext, hrun⟩ := Option.bind_eq_some_iff.mp hrun
      obtain ⟨s', hstep, rfl⟩ := Option.map_eq_some_iff.mp hnext
      obtain ⟨hengine, hkeeps, hcounted⟩ := ih (step_counted h hstep) hrun
      exact ⟨hengine, (List.prefix_append _ _).trans hkeeps, hcounted⟩

/-- What a life keeps of the engine `e` it began with. -/
structure Life.Kept (e : ExperimentEngine ρ) (l : Life ρ) : Prop where
  counted : Counted l.engine l.recorded l.state
  origin : l.engine.origin = e.origin
  batches : e.config.maxBatches ≤ l.engine.config.maxBatches

theorem Life.Kept.next {e : ExperimentEngine ρ} {l l' : Life ρ} {event : LifeEvent}
    (h : l.Kept e) (hnext : l.next event = some l') : l'.Kept e := by
  cases event with
  | act a =>
      obtain ⟨s, hstep, rfl⟩ := Option.map_eq_some_iff.mp hnext
      exact ⟨step_counted h.counted hstep, h.origin, h.batches⟩
  | setUp dataset evaluator timesOut =>
      unfold Life.next at hnext
      dsimp only at hnext
      split_ifs at hnext
      rw [← Option.some.inj hnext]
      exact ⟨h.counted.between rfl h.counted.candidates le_rfl, h.origin, h.batches⟩
  | resume maxCandidates moreBatches =>
      unfold Life.next at hnext
      dsimp only at hnext
      split_ifs at hnext with hpos hrest
      rw [← Option.some.inj hnext]
      have hraised : l.engine.config.maxBatches ≤
          max l.engine.config.maxBatches (recordedGenerations l.state.disk + moreBatches) :=
        le_max_left _ _
      exact ⟨h.counted.between rfl hrest.2 hraised, h.origin, h.batches.trans hraised⟩

section Limits

/-- **Limits over a whole life.** However runs, crashes, cancels and resumes follow each other,
    in every state: the process, if it does not die, ends within the steps that the limits
    leave it; the checkpoint counts its candidates right and keeps to both limits;
    `max_batches` has not been lowered; the candidates on record are numbered one after the
    other from the first version on; and a turn at a limit starts no generation. -/
theorem life_within_limits (e : ExperimentEngine ρ) (events : List LifeEvent) (l : Life ρ)
    (hrun : run Life.next ⟨e, {}, []⟩ events = some l) :
    EndsWithin l.engine l.state
      (2 * min (l.engine.config.maxBatches - recordedGenerations l.state.disk)
        (l.engine.config.budget.maxCandidates - recordedCandidates l.state.disk) + 4) ∧
    (∀ c, l.state.disk = some c →
      Dict.getD c.budgetState "candidates_used" 0 = (c.tellBatches.map (·.points.length)).sum) ∧
    recordedCandidates l.state.disk ≤ l.engine.config.budget.maxCandidates ∧
    recordedGenerations l.state.disk ≤ l.engine.config.maxBatches ∧
    e.config.maxBatches ≤ l.engine.config.maxBatches ∧
    l.recorded.map (·.version) =
      List.range' e.firstVersion (recordedCandidates l.state.disk) ∧
    ∀ p, l.state.phase = .looping p →
      l.engine.config.budget.maxCandidates ≤ (recordedUse l.state.disk).candidatesUsed ∨
        l.engine.config.budget.maxRequests ≤ (recordedUse l.state.disk).requestsUsed ∨
        l.engine.config.budget.maxCostUsd ≤ (recordedUse l.state.disk).costUsed →
      ∃ reason, (recordedUse l.state.disk).exhausted l.engine.config.budget = some reason ∧
        ∀ flag checked recorded, l.engine.turn flag checked recorded p =
          .stop (if flag then "cancelled by user" else reason) := by
  have hstart : Life.Kept e ⟨e, {}, []⟩ := ⟨⟨booked_nil _ _, trivial⟩, rfl, le_rfl⟩
  have hkept : l.Kept e := run_invariant (fun _ _ _ h hnext => h.next hnext) hstart hrun
  obtain ⟨hcounted, horigin, hbatches⟩ := hkept
  refine ⟨endsWithin_of_le hcounted.stepsLeft_le, hcounted.tallies, hcounted.candidates,
    hcounted.generations, hbatches, ?_, ?_⟩
  · rw [show e.firstVersion = l.engine.firstVersion from congrArg Origin.firstVersion horigin.symm]
    exact hcounted.versions
  · intro p hp hlimit
    have hphase := hcounted.phase
    rw [hp] at hphase
    have haccounts : Accounts l.engine l.recorded l.state.disk p := hphase
    cases hexhausted : (recordedUse l.state.disk).exhausted l.engine.config.budget with
    | none =>
        obtain ⟨hcandidates, hrequests, hcost⟩ := BudgetUse.exhausted_eq_none.mp hexhausted
        rcases hlimit with hlimit | hlimit | hlimit
        · exact absurd hlimit (not_le.mpr hcandidates)
        · exact absurd hlimit (not_le.mpr hrequests)
        · exact absurd hlimit (not_le.mpr hcost)
    | some reason =>
        refine ⟨reason, rfl, fun flag checked recorded => ?_⟩
        rw [← haccounts.use] at hexhausted
        exact turn_at_limit hexhausted flag checked recorded

/-- A run dies after its first generation, its successor is cancelled after the second, and the
    experiment is resumed for one candidate more. -/
def exampleLife : List LifeEvent :=
  [.act .start, .act (.turn 0 0), .act .crash, .act .start, .act (.turn 0 0),
    .act .checkConvergence, .act .cancel, .act (.turn 0 0), .act .stop, .act (.finalize 0),
    .resume 3 1, .act .start, .act (.turn 0 0), .act .checkConvergence]

end Limits

/-- The third candidate is the last: the process goes round its loop once more, to stop. -/
theorem life_within_limits_resumed : ∃ l p,
    run Life.next ⟨exampleEngine, {}, []⟩ exampleLife = some l ∧
    l.state.phase = .looping p ∧ l.recorded.map (·.version) = [2, 3, 4] ∧
    EndsWithin l.engine l.state 4 ∧ ∀ checked recorded,
      l.engine.turn false checked recorded p = .stop "max_candidates (3) reached" := by
  have hfacts : (run Life.next ⟨exampleEngine, {}, []⟩ exampleLife).map (fun l =>
      decide (recordedCandidates l.state.disk = 3 ∧ recordedGenerations l.state.disk = 3 ∧
        l.engine.config.maxBatches = 15 ∧ l.engine.config.budget.maxCandidates = 3 ∧
        (recordedUse l.state.disk).candidatesUsed = 3 ∧
        (recordedUse l.state.disk).exhausted l.engine.config.budget =
          some "max_candidates (3) reached" ∧
        (l.engine.step l.state (.turn 0 0)).isSome)) = some true := by
    decide +kernel
  obtain ⟨l, hl, hfacts⟩ := Option.map_eq_some_iff.mp hfacts
  obtain ⟨hcandidates, hgenerations, hbatches, hmax, hused, hreason, hstep⟩ :=
    of_decide_eq_true hfacts
  obtain ⟨hends, -, -, -, -, hversions, hlimit⟩ :=
    life_within_limits exampleEngine exampleLife l hl
  have hlooping : ∃ p, l.state.phase = .looping p := by
    obtain ⟨s, hs⟩ := Option.isSome_iff_exists.mp hstep
    generalize l.state = t at hs
    cases step_did hs with
    | leftLoop | saved | turnRaised => exact ⟨_, rfl⟩
  obtain ⟨p, hphase⟩ := hlooping
  refine ⟨l, p, hl, hphase, ?_, ?_, fun checked recorded => ?_⟩
  · rw [hversions, hcandidates]
    rfl
  · rw [hcandidates, hgenerations, hbatches, hmax] at hends
    exact hends
  · obtain ⟨reason, hexhausted, hturn⟩ := hlimit p hphase (.inl (by rw [hmax, hused]))
    rw [hreason] at hexhausted
    rw [hturn false checked recorded, Option.some.inj hexhausted]
    rfl

end NeuroForge
