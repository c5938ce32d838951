/-
  The numbers of the candidates, over every history of a platform.

  An experiment reserves its numbers when it is created, and a resume may set another limit
  when others have been created behind it. `experiment_resume` then looks at the first
  numbers of the others only. That is enough because the experiments of an application lie
  in the order of their creation (`WellNumbered.ordered`, with `Extents.InOrder.resize`), and
  a resume never goes below what is recorded (`WellNumbered.booked`).
-/
import NeuroForge.Lib.Extents
import NeuroForge.Service.CreationRace
import NeuroForge.Service.Operations
import NeuroForge.Service.StatusHistory

namespace NeuroForge

open Fallible Database Transition

variable {p : Platform} {db : Database} {w w' : World}

/-! ## Rows -/

/-- The row of an experiment without what its runs change. -/
def ExperimentRecord.eraseProgress (r : ExperimentRecord) : ExperimentRecord :=
  { r with status := .created, result := none }

/-- What an experiment has begun with, as its row says. -/
def ExperimentRecord.origin (digest : GenomeDigest) (r : ExperimentRecord) : Origin where
  digest := digest
  baselineHash := r.config.baselineHash.getD ""
  systemId := r.applicationId
  firstVersion := r.firstVersion

/-- The rows are the same but for what requests and runs change in place. -/
structure SameRows (db db' : Database) : Prop where
  experiments : db'.experiments.map ExperimentRecord.eraseProgress =
    db.experiments.map ExperimentRecord.eraseProgress
  genomes : db'.genomes.map GenomeRecord.eraseStatus = db.genomes.map GenomeRecord.eraseStatus

theorem SameRows.of_eraseStatus {db' : Database} (h : db'.eraseStatus = db.eraseStatus) :
    SameRows db db' := by
  have hgenomes := congrArg Database.genomes h
  exact ⟨by rw [experiments_of_eraseStatus h], hgenomes⟩

theorem SameRows.of_eq {db' : Database} (hexperiments : db'.experiments = db.experiments)
    (hgenomes : db'.genomes = db.genomes) : SameRows db db' := by
  refine ⟨?_, ?_⟩
  · rw [hexperiments]
  · rw [hgenomes]

theorem SameRows.trans {db₁ db₂ db₃ : Database} (h₁ : SameRows db₁ db₂)
    (h₂ : SameRows db₂ db₃) : SameRows db₁ db₃ :=
  ⟨h₂.experiments.trans h₁.experiments, h₂.genomes.trans h₁.genomes⟩

/-- An experiment is stored, with this configuration. -/
structure StoredAs (db : Database) (config : ExperimentConfig) : Prop where
  isStored : (db.getExperiment config.experimentId).isSome
  config : ∀ r ∈ db.experiments, r.experimentId = config.experimentId → r.config = config

theorem StoredAs.of_experiments {db' : Database} {config : ExperimentConfig}
    (h : StoredAs db config) (hexperiments : db'.experiments = db.experiments) :
    StoredAs db' config := by
  refine ⟨?_, ?_⟩
  · rw [getExperiment, hexperiments]
    exact h.isStored
  · rw [hexperiments]
    exact h.config

/-- Saving it again, with another status or with a result, leaves the row as it was. -/
theorem StoredAs.resaved {config : ExperimentConfig} (h : StoredAs db config)
    (applicationId : String) (result : Option ExperimentResult) (status : ExperimentStatus) :
    (db.saveExperiment applicationId config result status).experiments.map
        ExperimentRecord.eraseProgress = db.experiments.map ExperimentRecord.eraseProgress ∧
      StoredAs (db.saveExperiment applicationId config result status) config := by
  obtain ⟨old, hold⟩ := Option.isSome_iff_exists.mp h.isStored
  have hisStored : ((db.saveExperiment applicationId config result status).getExperiment
      config.experimentId).isSome := by
    rw [getExperiment_saveExperiment, if_pos rfl]
    rfl
  refine ⟨?_, hisStored, ?_⟩
  · unfold saveExperiment
    rw [hold]
    dsimp only
    rw [List.map_map]
    refine List.map_congr_left fun r hr => ?_
    dsimp only [Function.comp]
    split_ifs with hid
    · rw [← h.config r hr hid]
      rfl
    · rfl
  · unfold saveExperiment
    rw [hold]
    intro r hr hid
    obtain ⟨r₀, hr₀, rfl⟩ := List.mem_map.mp hr
    by_cases hid₀ : r₀.experimentId = config.experimentId
    · rw [if_pos hid₀]
    · rw [if_neg hid₀] at hid ⊢
      exact absurd hid hid₀

theorem mem_of_getExperiment {id : String} {r : ExperimentRecord}
    (h : db.getExperiment id = some r) : r ∈ db.experiments := List.mem_of_find?_eq_some h

theorem getExperiment_of_mem (hids : (db.experiments.map (·.experimentId)).Nodup)
    {r : ExperimentRecord} (h : r ∈ db.experiments) :
    db.getExperiment r.experimentId = some r := by
  rcases hfound : db.getExperiment r.experimentId with _ | r'
  · exact absurd (List.find?_eq_none.mp hfound r h) (by simp)
  · have hid := experimentId_of_getExperiment hfound
    rw [List.inj_on_of_nodup_map hids (mem_of_getExperiment hfound) h hid]

theorem getExperiment_eq_none {id : String} :
    db.getExperiment id = none ↔ ∀ r ∈ db.experiments, r.experimentId ≠ id := by
  unfold getExperiment
  rw [List.find?_eq_none]
  simp only [decide_eq_true_eq]

/-! ## Worlds whose numbers are in order -/

/-- The numbers of the candidates an experiment has on record. -/
def World.numbers (w : World) (experimentId : String) : List ℕ :=
  (w.recorded experimentId).map (·.version)

/-- What every operation keeps. -/
structure WellNumbered (p : Platform) (w : World) : Prop where
  sound : Sound p w.db
  ids : (w.db.experiments.map (·.experimentId)).Nodup
  ordered : Extents.InOrder (·.applicationId) (·.firstVersion) (·.endVersion) w.db.experiments
  first : ∀ r ∈ w.db.experiments, ∃ n, r.config.firstCandidateVersion = some n ∧ 2 ≤ n
  booked : ∀ r ∈ w.db.experiments, Booked (r.origin p.genomeDigest) r.config
    (w.recorded r.experimentId) (w.disk r.experimentId)
  unused : ∀ id, w.db.getExperiment id = none → w.disk id = none ∧ w.recorded id = []
  genomes : ∀ g ∈ w.db.genomes, g.version = 1 ∨
    ∃ r ∈ w.db.experiments, r.applicationId = g.systemId ∧ g.version ∈ w.numbers r.experimentId

theorem wellNumbered_empty (p : Platform) : WellNumbered p {} where
  sound := sound_empty p
  ids := List.nodup_nil
  ordered := List.Pairwise.nil
  first := by simp
  booked := by simp
  unused := by
    intro id _
    exact ⟨rfl, rfl⟩
  genomes := by simp

section SameExperiments

variable {rows rows' : List ExperimentRecord}

/-- A row has a counterpart among rows that are the same but for their progress. -/
theorem exists_row
    (h : rows'.map ExperimentRecord.eraseProgress = rows.map ExperimentRecord.eraseProgress)
    {r' : ExperimentRecord} (hr' : r' ∈ rows') :
    ∃ r ∈ rows, r'.experimentId = r.experimentId ∧ r'.applicationId = r.applicationId ∧
      r'.config = r.config := by
  have hmem := List.mem_map_of_mem (f := ExperimentRecord.eraseProgress) hr'
  rw [h] at hmem
  obtain ⟨r, hr, herase⟩ := List.mem_map.mp hmem
  injection herase with hid happ _ hconfig _
  exact ⟨r, hr, hid.symm, happ.symm, hconfig.symm⟩

theorem experimentIds_eq
    (h : rows'.map ExperimentRecord.eraseProgress = rows.map ExperimentRecord.eraseProgress) :
    rows'.map (·.experimentId) = rows.map (·.experimentId) := by
  have hids := congrArg (List.map (·.experimentId)) h
  rw [List.map_map, List.map_map] at hids
  exact hids

theorem inOrder_of_sameProgress
    (h : rows'.map ExperimentRecord.eraseProgress = rows.map ExperimentRecord.eraseProgress)
    (hordered : Extents.InOrder (·.applicationId) (·.firstVersion) (·.endVersion) rows) :
    Extents.InOrder (·.applicationId) (·.firstVersion) (·.endVersion) rows' := by
  have herased : (rows.map ExperimentRecord.eraseProgress).Pairwise fun r r' =>
      r.applicationId = r'.applicationId → r.endVersion ≤ r'.firstVersion :=
    List.pairwise_map.mpr hordered
  rw [← h] at herased
  exact List.pairwise_map.mp herased

end SameExperiments

/-- What is recorded of an experiment that is there, and still is. -/
theorem numbered_in_rows {rows rows' : List ExperimentRecord}
    (h : rows'.map ExperimentRecord.eraseProgress = rows.map ExperimentRecord.eraseProgress)
    {g : GenomeRecord} (hg : ∃ r ∈ rows, r.applicationId = g.systemId ∧
      g.version ∈ w.numbers r.experimentId) :
    ∃ r' ∈ rows', r'.applicationId = g.systemId ∧ g.version ∈ w.numbers r'.experimentId := by
  obtain ⟨r, hr, hsystem, hversion⟩ := hg
  obtain ⟨r', hr', hid, happ, -⟩ := exists_row h.symm hr
  exact ⟨r', hr', happ.symm.trans hsystem, hid ▸ hversion⟩

/-- A run or a request changes rows in place, and what is recorded may grow; a new genome is
    one of the candidates on record. -/
theorem WellNumbered.update (h : WellNumbered p w) (hsound : Sound p w'.db)
    (hrows : w'.db.experiments.map ExperimentRecord.eraseProgress =
      w.db.experiments.map ExperimentRecord.eraseProgress)
    (hbooked : ∀ r ∈ w.db.experiments, Booked (r.origin p.genomeDigest) r.config
      (w'.recorded r.experimentId) (w'.disk r.experimentId))
    (hunused : ∀ id, w.db.getExperiment id = none →
      w'.disk id = w.disk id ∧ w'.recorded id = w.recorded id)
    (hgrows : ∀ id, w.recorded id <+: w'.recorded id)
    (hgenomes : ∀ g ∈ w'.db.genomes, (∃ g₀ ∈ w.db.genomes, g₀.eraseStatus = g.eraseStatus) ∨
      ∃ r ∈ w.db.experiments, r.applicationId = g.systemId ∧
        g.version ∈ w'.numbers r.experimentId) : WellNumbered p w' := by
  refine ⟨hsound, ?_, inOrder_of_sameProgress hrows h.ordered, ?_, ?_, ?_, ?_⟩
  · rw [experimentIds_eq hrows]
    exact h.ids
  · intro r' hr'
    obtain ⟨r, hr, -, -, hconfig⟩ := exists_row hrows hr'
    rw [hconfig]
    exact h.first r hr
  · intro r' hr'
    obtain ⟨r, hr, hid, happ, hconfig⟩ := exists_row hrows hr'
    have horigin : r'.origin p.genomeDigest = r.origin p.genomeDigest := by
      unfold ExperimentRecord.origin ExperimentRecord.firstVersion
      rw [hconfig, happ]
    rw [horigin, hid, hconfig]
    exact hbooked r hr
  · intro id hid
    have hold : w.db.getExperiment id = none := by
      rw [getExperiment_eq_none] at hid ⊢
      intro r hr heq
      obtain ⟨r', hr', hid', -⟩ := exists_row hrows.symm hr
      exact hid r' hr' (hid'.symm.trans heq)
    obtain ⟨hdisk, hrecorded⟩ := hunused id hold
    rw [hdisk, hrecorded]
    exact h.unused id hold
  · intro g hg
    rcases hgenomes g hg with ⟨g₀, hg₀, herase⟩ | hnew
    · have hdata : g.data = g₀.data := (congrArg GenomeRecord.data herase).symm
      have hsystem : g.systemId = g₀.systemId := congrArg SystemGenome.systemId hdata
      have hversion : g.version = g₀.version := congrArg SystemGenome.version hdata
      rcases h.genomes g₀ hg₀ with hv1 | ⟨r, hr, hsys, hmem⟩
      · exact .inl (hversion.trans hv1)
      · refine .inr (numbered_in_rows hrows ⟨r, hr, hsys.trans hsystem.symm, ?_⟩)
        rw [hversion]
        exact ((hgrows r.experimentId).map _).subset hmem
    · exact .inr (numbered_in_rows hrows hnew)

/-- A request that only changes rows in place. -/
theorem WellNumbered.of_sameRows (h : WellNumbered p w) {db' : Database}
    (hsound : Sound p db') (hsame : SameRows w.db db') :
    WellNumbered p { w with db := db' } := by
  refine h.update hsound hsame.experiments h.booked (fun _ _ => ⟨rfl, rfl⟩)
    (fun _ => List.prefix_rfl) fun g hg => .inl ?_
  have hmem := List.mem_map_of_mem (f := GenomeRecord.eraseStatus) hg
  rw [hsame.genomes] at hmem
  exact List.mem_map.mp hmem

/-! ## Requests -/

theorem sameRows_conclude (input : ReviewInput) (evidence : HoldoutEvidence) (now : ℕ) :
    SameRows db (conclude db input evidence now) := by
  have hadd : SameRows db (db.addDecision input.genomeHash (some input.experimentId)
      (input.decision evidence) now) := .of_eq rfl rfl
  exact hadd.trans (.of_eraseStatus (eraseStatus_writeStatus _ _))

theorem sameRows_recordCanary (input : CanaryInput) (now : ℕ) :
    SameRows db (recordCanary p.genomeDigest db input now) := by
  have hadd : SameRows db (db.addCanary (input.candidate.hash p.genomeDigest)
      (input.baseline.hash p.genomeDigest) input.trafficSplit input.rollbackTriggered now) :=
    .of_eq rfl rfl
  exact hadd.trans (.of_eraseStatus (eraseStatus_writeStatus _ _))

theorem sameRows_productionChange (hash : String) (experimentId : Option String)
    (approvedBy : String) (action : ApprovalAction) (now : ℕ)
    (loaded : String → Option PromotionStatus) (systemId : String) :
    SameRows db (reconcileProductionStatuses
      (db.savePromotionApproval hash experimentId approvedBy action now) loaded systemId) := by
  have hadd : SameRows db
      (db.savePromotionApproval hash experimentId approvedBy action now) := .of_eq rfl rfl
  exact hadd.trans (.of_eraseStatus (eraseStatus_reconcile systemId))

theorem sameRows_review {experimentId genomeHash : String} {now : ℕ} {review : PromotionReview}
    {db' : Database} (h : reviewPromotion p db experimentId genomeHash now = .ok (review, db')) :
    SameRows db db' := by
  obtain ⟨input, used, settled, hlookup, hsettled, -, rfl⟩ := reviewPromotion_ok h
  obtain ⟨-, hgenome, -, -, -, -, hstored⟩ := reviewLookup_ok hlookup
  have hsettle : SameRows db settled := by
    rcases settleEvidence_ok (hgenome ▸ hstored) hsettled with
      ⟨r, -, rfl, -⟩ | ⟨r, -, rfl, -⟩ | ⟨-, -, rfl⟩
    · exact .of_eq rfl rfl
    · exact .of_eq rfl rfl
    · exact .of_eq rfl rfl
  exact hsettle.trans (sameRows_conclude input used.1 now)

/-- The two requests that do more to the rows than to change them in place. -/
def Request.AddsRows : Request → Prop
  | .createExperiment _ | .runExperiment _ _ _ => True
  | _ => False

theorem Served.sameRows {now : ℕ} {request : Request} {db' : Database}
    (h : Served p db now request db') (hadds : ¬ request.AddsRows) : SameRows db db' := by
  cases h with
  | unchanged => exact .of_eq rfl rfl
  | created | failed | ran => exact absurd trivial hadds
  | reviewed hreview => exact sameRows_review hreview
  | canaried => exact sameRows_recordCanary _ _
  | promoted | rolledBack => exact sameRows_productionChange ..
  | saved dataset =>
      exact .of_eq (experiments_saveDatasetVersion dataset) (genomes_saveDatasetVersion dataset)

/-- A new experiment begins behind all others of its application, with nothing on record. -/
theorem WellNumbered.created (h : WellNumbered p w) {db' : Database} (hsound : Sound p db')
    {r : ExperimentRecord} {genomes : List GenomeRecord}
    (hexperiments : db'.experiments = w.db.experiments ++ [r]) (hcreated : CreatedRow w.db r)
    (hgenomes : db'.genomes = w.db.genomes ++ genomes) (hv1 : ∀ g ∈ genomes, g.version = 1) :
    WellNumbered p { w with db := db' } := by
  have hfresh := getExperiment_eq_none.mp hcreated.fresh
  have hfirst : r.firstVersion = w.db.nextCandidateVersion r.applicationId := by
    unfold ExperimentRecord.firstVersion
    rw [hcreated.first, Option.getD_some]
  refine ⟨hsound, ?_, ?_, ?_, ?_, ?_, ?_⟩
  · show (db'.experiments.map (·.experimentId)).Nodup
    rw [hexperiments, List.map_append, List.nodup_append]
    refine ⟨h.ids, List.nodup_singleton _, ?_⟩
    intro id hid id' hid' heq
    obtain ⟨r', hr', rfl⟩ := List.mem_map.mp hid
    rw [List.mem_singleton.mp hid'] at heq
    exact hfresh r' hr' heq
  · show Extents.InOrder _ _ _ db'.experiments
    rw [hexperiments]
    refine Extents.inOrder_append h.ordered fun r' hr' happ => ?_
    have happ' : r'.applicationId = r.applicationId := happ
    show r'.endVersion ≤ r.firstVersion
    rw [hfirst, ← happ']
    exact end_le_nextCandidateVersion hr'
  · show ∀ r' ∈ db'.experiments, _
    rw [hexperiments]
    intro r' hr'
    rcases List.mem_append.mp hr' with hr' | hr'
    · exact h.first r' hr'
    · rw [List.mem_singleton.mp hr']
      exact ⟨_, hcreated.first, two_le_nextCandidateVersion _⟩
  · show ∀ r' ∈ db'.experiments, _
    rw [hexperiments]
    intro r' hr'
    rcases List.mem_append.mp hr' with hr' | hr'
    · exact h.booked r' hr'
    · obtain ⟨hdisk, hrecorded⟩ := h.unused _ hcreated.fresh
      rw [List.mem_singleton.mp hr']
      dsimp only
      rw [hdisk, hrecorded]
      exact booked_nil _ _
  · intro id hid
    refine h.unused id ?_
    rw [getExperiment_eq_none] at hid ⊢
    intro r' hr'
    refine hid r' ?_
    show r' ∈ db'.experiments
    rw [hexperiments]
    exact List.mem_append_left _ hr'
  · show ∀ g ∈ db'.genomes, g.version = 1 ∨ ∃ r' ∈ db'.experiments, _
    rw [hexperiments, hgenomes]
    intro g hg
    rcases List.mem_append.mp hg with hg | hg
    · rcases h.genomes g hg with hone | ⟨r', hr', hsys, hversion⟩
      · exact .inl hone
      · exact .inr ⟨r', List.mem_append_left _ hr', hsys, hversion⟩
    · exact .inl (hv1 g hg)

theorem WellNumbered.served (h : WellNumbered p w) {now : ℕ} {request : Request}
    {db' : Database} (hserved : Served p w.db now request db')
    (hrun : ∀ id checkpoint answer, request ≠ .runExperiment id checkpoint answer) :
    WellNumbered p { w with db := db' } := by
  have hposs : Possible w.db request := by
    cases request with
    | runExperiment id checkpoint answer => exact absurd rfl (hrun id checkpoint answer)
    | _ => trivial
  have hsound := hserved.sound h.sound hposs
  by_cases hadds : request.AddsRows
  · cases hserved with
    | unchanged => exact h
    | created hcreated =>
        obtain ⟨-, ⟨r, hexperiments, hrow⟩, genomes, hgenomes, hv1⟩ :=
          createExperiment_adds hcreated
        exact h.created hsound hexperiments hrow hgenomes hv1
    | failed | ran => exact absurd rfl (hrun _ _ _)
    | _ => exact absurd hadds id
  · exact h.of_sameRows hsound (hserved.sameRows hadds)

/-! ## Resumes -/

/-- What a resume keeps of a configuration. -/
structure KeepsNumbers (config config' : ExperimentConfig) : Prop where
  id : config'.experimentId = config.experimentId
  baseline : config'.baselineHash = config.baselineHash
  first : config'.firstCandidateVersion = config.firstCandidateVersion
  batches : config.maxBatches ≤ config'.maxBatches

theorem keepsNumbers_resumed (config : ExperimentConfig) (disk : Option ExperimentCheckpoint)
    (extraCandidates : ℕ) (hextra : 1 ≤ extraCandidates) :
    KeepsNumbers config (resumedConfig config disk extraCandidates hextra) :=
  ⟨rfl, rfl, rfl, le_max_left _ _⟩

/-- The rows when an experiment is marked as running with another configuration. -/
def reconfigured (experimentId : String) (config : ExperimentConfig) (r : ExperimentRecord) :
    ExperimentRecord :=
  if r.experimentId = experimentId then { r with status := .running, config := config } else r

theorem reconfigured_of_ne {experimentId : String} {config : ExperimentConfig}
    {r : ExperimentRecord} (h : r.experimentId ≠ experimentId) :
    reconfigured experimentId config r = r := if_neg h

theorem reconfigured_self {config : ExperimentConfig} (r : ExperimentRecord) :
    reconfigured r.experimentId config r = { r with status := .running, config := config } :=
  if_pos rfl

theorem experiments_markRunning {config : ExperimentConfig} {record : ExperimentRecord}
    (h : db.getExperiment config.experimentId = some record) (applicationId : String) :
    (markExperiment db applicationId config .running).experiments =
      db.experiments.map (reconfigured config.experimentId config) := by
  unfold markExperiment saveExperiment
  rw [h]
  rfl

section Resume

variable {record : ExperimentRecord} {config : ExperimentConfig}

theorem row_reconfigured (hids : (db.experiments.map (·.experimentId)).Nodup)
    (hrecord : record ∈ db.experiments) (hkeeps : KeepsNumbers record.config config)
    {r : ExperimentRecord} (hr : r ∈ db.experiments) :
    (reconfigured record.experimentId config r).experimentId = r.experimentId ∧
      (reconfigured record.experimentId config r).origin p.genomeDigest =
        r.origin p.genomeDigest ∧
      (reconfigured record.experimentId config r).config.firstCandidateVersion =
        r.config.firstCandidateVersion := by
  by_cases hid : r.experimentId = record.experimentId
  · obtain rfl := List.inj_on_of_nodup_map hids hr hrecord hid
    rw [reconfigured_self]
    unfold ExperimentRecord.origin ExperimentRecord.firstVersion
    dsimp only
    rw [hkeeps.baseline, hkeeps.first]
    exact ⟨rfl, rfl, rfl⟩
  · rw [reconfigured_of_ne hid]
    exact ⟨rfl, rfl, rfl⟩

/-- The experiments stay in order if the clash check finds nothing. -/
theorem WellNumbered.ordered_reconfigured (h : WellNumbered p w)
    (hrecord : record ∈ w.db.experiments) (hkeeps : KeepsNumbers record.config config)
    (hclash : resumeClash w.db record config = none) :
    Extents.InOrder (·.applicationId) (·.firstVersion) (·.endVersion)
      (w.db.experiments.map (reconfigured record.experimentId config)) := by
  have hrow : ∀ r ∈ w.db.experiments, (reconfigured record.experimentId config r).origin
      p.genomeDigest = r.origin p.genomeDigest :=
    fun r hr => (row_reconfigured h.ids hrecord hkeeps hr).2.1
  refine h.ordered.resize h.ids (fun r hr => congrArg Origin.systemId (hrow r hr))
    (fun r hr => congrArg Origin.firstVersion (hrow r hr))
    (fun r _ hid => congrArg ExperimentRecord.endVersion (reconfigured_of_ne hid))
    (fun r _ => Nat.le_add_right _ _) ?_
  intro r hr hid r' hr' hid' happ hinside
  obtain rfl := List.inj_on_of_nodup_map h.ids hr hrecord hid
  obtain ⟨n, hn, -⟩ := h.first r hr
  obtain ⟨n', hn', htwo⟩ := h.first r' hr'
  have hfirst : config.firstCandidateVersion = some n := hkeeps.first.trans hn
  have hne : n' ≠ 0 := by omega
  unfold resumeClash at hclash
  rw [hfirst] at hclash
  rw [reconfigured_self] at hinside
  unfold ExperimentRecord.endVersion ExperimentRecord.firstVersion at hinside
  rw [hn, hn', hfirst] at hinside
  exact candidateVersionClash_eq_none hclash hr' happ.symm hid' hn' hne hinside

/-- The row of an experiment gets other limits, not below what is recorded, and no numbers of
    another experiment. -/
theorem WellNumbered.reconfigured (h : WellNumbered p w) (hrecord : record ∈ w.db.experiments)
    (hkeeps : KeepsNumbers record.config config)
    (hcandidates : recordedCandidates (w.disk record.experimentId) ≤ config.budget.maxCandidates)
    (hclash : resumeClash w.db record config = none) {db' : Database} (hsound : Sound p db')
    (hgenomes : db'.genomes = w.db.genomes) (hexperiments : db'.experiments =
      w.db.experiments.map (NeuroForge.reconfigured record.experimentId config)) :
    WellNumbered p { w with db := db' } := by
  have hrow : ∀ r ∈ w.db.experiments, _ := fun r hr =>
    row_reconfigured (p := p) h.ids hrecord hkeeps hr
  refine ⟨hsound, ?_, ?_, ?_, ?_, ?_, ?_⟩
  · have hids : (w.db.experiments.map (NeuroForge.reconfigured record.experimentId config)).map
        (·.experimentId) = w.db.experiments.map (·.experimentId) := by
      rw [List.map_map]
      exact List.map_congr_left fun r hr => (hrow r hr).1
    show (db'.experiments.map (·.experimentId)).Nodup
    rw [hexperiments, hids]
    exact h.ids
  · show Extents.InOrder _ _ _ db'.experiments
    rw [hexperiments]
    exact h.ordered_reconfigured hrecord hkeeps hclash
  · show ∀ r ∈ db'.experiments, _
    rw [hexperiments, List.forall_mem_map]
    intro r hr
    rw [(hrow r hr).2.2]
    exact h.first r hr
  · show ∀ r ∈ db'.experiments, _
    rw [hexperiments, List.forall_mem_map]
    intro r hr
    dsimp only
    rw [(hrow r hr).2.1, (hrow r hr).1]
    by_cases hid : r.experimentId = record.experimentId
    · obtain rfl := List.inj_on_of_nodup_map h.ids hr hrecord hid
      rw [reconfigured_self]
      exact (h.booked r hr).withConfig hcandidates hkeeps.batches
    · rw [reconfigured_of_ne hid]
      exact h.booked r hr
  · intro id hid
    refine h.unused id ?_
    rw [getExperiment_eq_none] at hid ⊢
    intro r hr
    rw [← (hrow r hr).1]
    refine hid _ ?_
    show _ ∈ db'.experiments
    rw [hexperiments]
    exact List.mem_map_of_mem hr
  · show ∀ g ∈ db'.genomes, g.version = 1 ∨ ∃ r ∈ db'.experiments, _
    rw [hgenomes, hexperiments]
    intro g hg
    rcases h.genomes g hg with hone | ⟨r, hr, hsys, hversion⟩
    · exact .inl hone
    · obtain ⟨hid, horigin, -⟩ := hrow r hr
      have happ := congrArg Origin.systemId horigin
      refine .inr ⟨_, List.mem_map_of_mem hr, happ.trans hsys, ?_⟩
      rw [hid]
      exact hversion

theorem WellNumbered.config_id (h : WellNumbered p w) (hrecord : record ∈ w.db.experiments) :
    record.config.experimentId = record.experimentId :=
  (h.sound.wellFormed.experiments _ record (getExperiment_of_mem h.ids hrecord)).id

/-- A resume whose numbers do not clash. -/
theorem WellNumbered.resumed (h : WellNumbered p w) {experimentId : String}
    {extraCandidates : ℕ} (hextra : 1 ≤ extraCandidates)
    (hget : w.db.getExperiment experimentId = some record) {config : ExperimentConfig}
    (hconfig : config =
      resumedConfig record.config (w.disk experimentId) extraCandidates hextra)
    (hclash : resumeClash w.db record config = none) :
    WellNumbered p { w with db := markExperiment w.db record.applicationId config .running } := by
  have hrecord := mem_of_getExperiment hget
  obtain rfl := experimentId_of_getExperiment hget
  have hkeeps : KeepsNumbers record.config config :=
    hconfig ▸ keepsNumbers_resumed record.config _ extraCandidates hextra
  have hid := hkeeps.id.trans (h.config_id hrecord)
  have hcandidates : recordedCandidates (w.disk record.experimentId) ≤
      config.budget.maxCandidates := hconfig ▸ Nat.le_add_right _ _
  rw [← hid] at hget
  have hstored : Stored w.db config := ⟨record, hget, hkeeps.baseline.symm⟩
  have hsound : Sound p (markExperiment w.db record.applicationId config .running) :=
    h.sound.preserved ⟨wellFormed_markExperiment h.sound.wellFormed hstored _ _,
      preserves_markExperiment _ _ _⟩
  refine h.reconfigured hrecord hkeeps hcandidates hclash hsound (genomes_saveExperiment ..) ?_
  rw [experiments_markRunning hget, hid]

end Resume

/-! ## Runs -/

section Run

variable {ρ : Type} {host : Host ρ}

theorem setUp_ok {input : RunInput} {e : ExperimentEngine ρ} (h : host.setUp input = .ok e) :
    e.config = input.config ∧ e.baselineGenome = input.baseline ∧
      e.genomeDigest = host.platform.genomeDigest := by
  unfold Host.setUp at h
  obtain ⟨evaluator, -, h⟩ := bind_eq_ok.mp h
  rw [pure_eq_ok] at h
  rw [← h]
  exact ⟨rfl, rfl, rfl⟩

/-- A process begins with what the row of its experiment says. -/
theorem WellNumbered.origin_setUp (h : WellNumbered host.platform w) {record : ExperimentRecord}
    (hrecord : record ∈ w.db.experiments) {input : RunInput} {e : ExperimentEngine ρ}
    (hconfig : input.config = record.config) (hfit : RunFits host.platform w.db input)
    (hsetUp : host.setUp input = .ok e) :
    e.config = record.config ∧ e.origin = record.origin host.platform.genomeDigest := by
  obtain ⟨hengine, hbaseline, hdigest⟩ := setUp_ok hsetUp
  obtain ⟨n, hn, -⟩ := h.first record hrecord
  obtain ⟨-, -, hash, hhash, hsystem, -⟩ :=
    h.sound.wellFormed.experiments _ record (getExperiment_of_mem h.ids hrecord)
  have hinput := hfit.baseline
  rw [hconfig, hhash] at hinput
  have hown : hash = input.baseline.hash host.platform.genomeDigest := Option.some.inj hinput
  have hrow := hfit.row
  rw [← hown, hsystem] at hrow
  refine ⟨hengine.trans hconfig, ?_⟩
  unfold ExperimentEngine.origin ExperimentRecord.origin ExperimentEngine.firstVersion
    ExperimentRecord.firstVersion
  rw [hengine, hconfig, hbaseline, hdigest, hn, hhash, hown, Option.some.inj hrow]
  rfl

theorem mem_saveGenome {digest : GenomeDigest} {genome : SystemGenome} {g : GenomeRecord}
    (h : g ∈ (db.saveGenome digest genome).genomes) : g ∈ db.genomes ∨
      db.getGenomeRecord (genome.hash digest) = none ∧ g.data = genome := by
  unfold saveGenome at h
  split at h
  · exact .inl h
  · rename_i hnone
    rcases List.mem_append.mp h with h | h
    · exact .inl h
    · rw [List.mem_singleton.mp h]
      exact .inr ⟨hnone, rfl⟩

theorem experiments_afterRun {digest : GenomeDigest} {input : RunInput}
    (h : StoredAs db input.config) (phase : ExperimentEngine.Phase ρ) :
    (afterRun digest db input phase).experiments.map ExperimentRecord.eraseProgress =
      db.experiments.map ExperimentRecord.eraseProgress := by
  cases phase with
  | returned result =>
      have hsaved : StoredAs (db.saveGenome digest result.bestGenome) input.config :=
        h.of_experiments (experiments_saveGenome _ _)
      have hrows := (hsaved.resaved input.applicationId (some result) result.status.recorded).1
      rw [experiments_saveGenome] at hrows
      exact hrows
  | raised message => exact (h.resaved input.applicationId none .failed).1
  | _ => rfl

theorem genomes_afterRun {digest : GenomeDigest} {input : RunInput}
    {phase : ExperimentEngine.Phase ρ} {g : GenomeRecord}
    (h : g ∈ (afterRun digest db input phase).genomes) : g ∈ db.genomes ∨
      ∃ result, phase = .returned result ∧
        db.getGenomeRecord (result.bestGenome.hash digest) = none ∧ g.data = result.bestGenome := by
  cases phase with
  | returned result =>
      have hmem : g ∈ (db.saveGenome digest result.bestGenome).genomes := by
        rw [← genomes_saveExperiment input.applicationId input.config (some result)
          result.status.recorded]
        exact h
      rcases mem_saveGenome hmem with hold | ⟨hnew, hdata⟩
      · exact .inl hold
      · exact .inr ⟨result, rfl, hnew, hdata⟩
  | raised message =>
      rw [← genomes_saveExperiment input.applicationId input.config none .failed]
      exact .inl h
  | _ => exact .inl h

theorem sound_afterRun (h : Sound p db) {input : RunInput} (hfit : RunFits p db input)
    {phase : ExperimentEngine.Phase ρ}
    (hown : ∀ result, phase = .returned result → result.baselineGenome = input.baseline ∧
      (result.bestGenome.hash p.genomeDigest = input.baseline.hash p.genomeDigest ∨
        result.bestGenome.systemId = input.baseline.systemId ∧
          result.bestGenome.status = .generated)) :
    Sound p (afterRun p.genomeDigest db input phase) := by
  cases phase with
  | returned result =>
      obtain ⟨hbaseline, hbest⟩ := hown result rfl
      exact h.preserved (finishRun_kept h.wellFormed hfit hbaseline hbest)
  | raised message =>
      exact h.preserved ⟨wellFormed_markExperiment h.wellFormed hfit.experiment _ _,
        preserves_markExperiment _ _ _⟩
  | _ => exact h

/-- What a process leaves of its experiment, wherever it has come to. -/
structure Leaves (digest : GenomeDigest) (record : ExperimentRecord) (input : RunInput)
    (recorded : List SystemGenome) (l : Life ρ) : Prop where
  grows : recorded <+: l.recorded
  booked : Booked (record.origin digest) record.config l.recorded l.state.disk
  system : input.baseline.systemId = record.applicationId
  returned : ∀ result, l.state.phase = .returned result → result.baselineGenome = input.baseline ∧
    (result.bestGenome.hash digest = input.baseline.hash digest ∨ result.bestGenome ∈ l.recorded)

theorem WellNumbered.leaves (h : WellNumbered host.platform w) {record : ExperimentRecord}
    (hrecord : record ∈ w.db.experiments) {input : RunInput} {e : ExperimentEngine ρ}
    (hconfig : input.config = record.config) (hfit : RunFits host.platform w.db input)
    (hsetUp : host.setUp input = .ok e) {actions : List ExperimentEngine.Action} {l : Life ρ}
    (hrun : run Life.next ⟨e, { disk := w.disk record.experimentId },
      w.recorded record.experimentId⟩ (actions.map .act) = some l) :
    Leaves host.platform.genomeDigest record input (w.recorded record.experimentId) l := by
  obtain ⟨hengine, horigin⟩ := h.origin_setUp hrecord hconfig hfit hsetUp
  have hbaseline := (setUp_ok hsetUp).2.1
  have hbooked := h.booked record hrecord
  rw [← horigin, ← hengine] at hbooked
  obtain ⟨-, hgrows, hcounted⟩ := acts_counted ⟨hbooked, trivial⟩ hrun
  refine ⟨hgrows, ?_, ?_, fun result hresult => ?_⟩
  · rw [← horigin, ← hengine]
    exact hcounted.toBooked
  · rw [← hbaseline]
    exact congrArg Origin.systemId horigin
  · have hphase := hcounted.phase
    rw [hresult] at hphase
    obtain ⟨hsame, hbest⟩ := hphase
    have hhash : (record.origin host.platform.genomeDigest).baselineHash =
        input.baseline.hash host.platform.genomeDigest := by
      unfold ExperimentRecord.origin
      rw [← hconfig, hfit.baseline]
      rfl
    rw [horigin] at hbest
    refine ⟨hsame.trans hbaseline, ?_⟩
    rcases hbest with hbest | hbest
    · exact .inl (hbest.trans hhash)
    · exact .inr hbest

theorem WellNumbered.storedAs (h : WellNumbered p w) {record : ExperimentRecord}
    (hrecord : record ∈ w.db.experiments) : StoredAs w.db record.config := by
  have hid := h.config_id hrecord
  refine ⟨?_, fun r hr hr' => ?_⟩
  · rw [hid, getExperiment_of_mem h.ids hrecord]
    rfl
  · rw [hid] at hr'
    rw [List.inj_on_of_nodup_map h.ids hr hrecord hr']

theorem WellNumbered.stored (h : WellNumbered p w) {record : ExperimentRecord}
    (hrecord : record ∈ w.db.experiments) : Stored w.db record.config := by
  refine ⟨record, ?_, rfl⟩
  rw [h.config_id hrecord]
  exact getExperiment_of_mem h.ids hrecord

/-- An experiment is marked, as running or as failed. -/
theorem WellNumbered.marked (h : WellNumbered p w) {record : ExperimentRecord}
    (hrecord : record ∈ w.db.experiments) (applicationId : String) (status : ExperimentStatus) :
    WellNumbered p { w with db := markExperiment w.db applicationId record.config status } := by
  have hsound : Sound p (markExperiment w.db applicationId record.config status) :=
    h.sound.preserved ⟨wellFormed_markExperiment h.sound.wellFormed (h.stored hrecord) _ _,
      preserves_markExperiment _ _ _⟩
  refine h.of_sameRows hsound ⟨?_, ?_⟩
  · exact ((h.storedAs hrecord).resaved applicationId none status).1
  · exact congrArg _ (genomes_saveExperiment ..)

/-- A genome that a run stores and that was not there is one of its candidates. -/
theorem Leaves.new_genome {record : ExperimentRecord} {input : RunInput}
    {recorded : List SystemGenome} {l : Life ρ}
    (h : Leaves host.platform.genomeDigest record input recorded l)
    (hfit : RunFits host.platform w.db input) {g : GenomeRecord}
    (hg : g ∈ (afterRun host.platform.genomeDigest
      (markExperiment w.db input.applicationId input.config .running) input
      l.state.phase).genomes) :
    g ∈ w.db.genomes ∨ g.data ∈ l.recorded ∧
      w.db.getGenomeRecord (g.data.hash host.platform.genomeDigest) = none := by
  have hmarked : (markExperiment w.db input.applicationId input.config .running).genomes =
      w.db.genomes := genomes_saveExperiment ..
  rcases genomes_afterRun hg with hold | ⟨result, hresult, hnew, hdata⟩
  · rw [hmarked] at hold
    exact .inl hold
  · rw [getGenomeRecord, hmarked, ← getGenomeRecord] at hnew
    rw [hdata]
    rcases (h.returned result hresult).2 with hhash | hmem
    · -- the baseline has a row already
      obtain ⟨r, hr, -⟩ := Option.map_eq_some_iff.mp hfit.row
      rw [hhash, hr] at hnew
      cases hnew
    · exact .inr ⟨hmem, hnew⟩

/-- A process that has come somewhere has left its rows and its disk in order. -/
theorem WellNumbered.left (h : WellNumbered host.platform w) {record : ExperimentRecord}
    (hrecord : record ∈ w.db.experiments) {input : RunInput}
    (hconfig : input.config = record.config) (hfit : RunFits host.platform w.db input)
    {l : Life ρ} (hleaves : Leaves host.platform.genomeDigest record input
      (w.recorded record.experimentId) l) :
    WellNumbered host.platform
      { db := afterRun host.platform.genomeDigest
          (markExperiment w.db input.applicationId input.config .running) input l.state.phase
        disk := Function.update w.disk record.experimentId l.state.disk
        recorded := Function.update w.recorded record.experimentId l.recorded } := by
  have hmarked := h.marked hrecord input.applicationId .running
  obtain ⟨hrows, hstored⟩ := (h.storedAs hrecord).resaved input.applicationId none .running
  rw [← hconfig] at hmarked hstored hrows
  have hfit' := hfit.marked input.applicationId .running
  have hsound : Sound host.platform (afterRun host.platform.genomeDigest
      (markExperiment w.db input.applicationId input.config .running) input l.state.phase) := by
    refine sound_afterRun hmarked.sound hfit' fun result hresult => ?_
    obtain ⟨hbaseline, hbest⟩ := hleaves.returned result hresult
    refine ⟨hbaseline, hbest.imp_right fun hmem => ?_⟩
    obtain ⟨hsystem, hstatus⟩ := hleaves.booked.derived _ hmem
    exact ⟨hsystem.trans hleaves.system.symm, hstatus⟩
  refine h.update hsound ((experiments_afterRun hstored _).trans hrows) ?_ ?_ ?_ ?_
  · intro r hr
    by_cases hid : r.experimentId = record.experimentId
    · obtain rfl := List.inj_on_of_nodup_map h.ids hr hrecord hid
      dsimp only
      rw [Function.update_self, Function.update_self]
      exact hleaves.booked
    · dsimp only
      rw [Function.update_of_ne hid, Function.update_of_ne hid]
      exact h.booked r hr
  · intro id hid
    have hne : id ≠ record.experimentId :=
      fun heq => getExperiment_eq_none.mp hid record hrecord heq.symm
    exact ⟨Function.update_of_ne hne _ _, Function.update_of_ne hne _ _⟩
  · intro id
    by_cases hid : id = record.experimentId
    · rw [hid]
      dsimp only
      rw [Function.update_self]
      exact hleaves.grows
    · dsimp only
      rw [Function.update_of_ne hid]
  · intro g hg
    rcases hleaves.new_genome hfit hg with hold | ⟨hmem, -⟩
    · exact .inl ⟨g, hold, rfl⟩
    · refine .inr ⟨record, hrecord, (hleaves.booked.derived _ hmem).1.symm, ?_⟩
      unfold World.numbers
      dsimp only
      rw [Function.update_self]
      exact List.mem_map_of_mem hmem

/-! ## Histories -/

theorem WellNumbered.operate (h : WellNumbered host.platform w) {operation : Operation}
    (hstep : operate host w operation = some w') : WellNumbered host.platform w' := by
  cases operate_did hstep with
  | served hrequest => exact h.served (serve_did _) hrequest
  | refused => exact h
  | failed hload => exact h.marked (mem_of_getExperiment (loadRun_ok hload)) _ _
  | ran hload hstart hsetUp hacts =>
      have hget := loadRun_ok hload
      have hrecord := mem_of_getExperiment hget
      obtain rfl := experimentId_of_getExperiment hget
      obtain ⟨-, hconfig, -⟩ := startRun_ok hstart
      have hfit := startRun_fits h.sound.wellFormed hload hstart
      exact h.left hrecord hconfig hfit (h.leaves hrecord hconfig hfit hsetUp hacts)
  | resumed hextra hget hconfig hclash => exact h.resumed hextra hget hconfig hclash

/-- The candidates on record are numbered within the numbers of their experiment. -/
theorem Booked.mem_reserved {digest : GenomeDigest} {record : ExperimentRecord}
    {recorded : List SystemGenome} {disk : Option ExperimentCheckpoint}
    (h : Booked (record.origin digest) record.config recorded disk) {n : ℕ}
    (hn : n ∈ recorded.map (·.version)) : n ∈ record.reserved := by
  have hcandidates := h.candidates
  rw [h.versions, List.mem_range'_1] at hn
  unfold ExperimentRecord.reserved ExperimentRecord.endVersion
  rw [Finset.mem_Ico]
  have hfirst : (record.origin digest).firstVersion = record.firstVersion := rfl
  omega

theorem WellNumbered.disjoint (h : WellNumbered p w) : DisjointNumbers w.db :=
  h.ordered.imp fun hordered happ => disjoint_of_end_le (hordered happ)

theorem WellNumbered.first_le (h : WellNumbered p w) {r : ExperimentRecord}
    (hr : r ∈ w.db.experiments) : 2 ≤ r.firstVersion := by
  obtain ⟨n, hn, htwo⟩ := h.first r hr
  unfold ExperimentRecord.firstVersion
  rw [hn]
  exact htwo

/-- A number is reserved by one experiment of an application at most. -/
theorem WellNumbered.reserved_unique (h : WellNumbered p w) {r r' : ExperimentRecord}
    (hr : r ∈ w.db.experiments) (hr' : r' ∈ w.db.experiments)
    (happ : r.applicationId = r'.applicationId) {n : ℕ} (hn : n ∈ r.reserved)
    (hn' : n ∈ r'.reserved) : r = r' := by
  have hsymm : Std.Symm fun r r' : ExperimentRecord =>
      r.applicationId = r'.applicationId → Disjoint r.reserved r'.reserved :=
    ⟨fun _ _ hdisjoint hsame => (hdisjoint hsame.symm).symm⟩
  by_contra hne
  exact Finset.disjoint_left.mp (h.disjoint.forall hr hr' hne happ) hn hn'

section Example

/-- Two candidates are all an example runs for. -/
def twoCandidates : ExperimentBudget :=
  { ExperimentBudget.defaults with maxCandidates := 2, candidates_pos := by decide }

/-- The examples' platform, on datasets that can be searched on. -/
def exampleHost : Host ℕ where
  platform := { examplePlatform with
    seedDataset := fun _ datasetId _ =>
      { ExperimentEngine.exampleSplits [.train, .validation, .validation] with
        datasetId := datasetId } }
  runtime := countingRuntime
  datasetDigest := exampleDatasetDigest
  timesOut _ _ := false

def exampleCreation (experimentId : Identifier) : Operation :=
  .serve ⟨1, .createExperiment { exampleBody experimentId "original" 1 usualFloor with
    strategy := "random", batchSize := 1, budget := some twoCandidates }⟩

/-- `exp-1` dies after its first candidate. Its resume for three more is refused, `exp-2` gets
    five, `exp-1` one. `exp-1` goes on to its end, and `exp-2`, which dies as well, is resumed
    for one more. -/
def exampleOperations : List Operation :=
  [exampleCreation exp1, exampleCreation exp2, .run "exp-1" [.start, .turn 0 0, .crash],
    .resume "exp-1" 3, .resume "exp-2" 5, .resume "exp-1" 1,
    .run "exp-1" [.start, .turn 0 0, .checkConvergence, .turn 0 0, .stop, .finalize 0],
    .run "exp-2" [.start, .turn 0 0, .crash], .resume "exp-2" 1]

end Example

/-- **Candidate numbers.** After every history of operations: no number is reserved by two
    experiments of an application and none that is reserved is 1; the candidates in the
    checkpoint of an experiment are numbered one after the other, inside what it reserves,
    and so is the best of them, unless it is the baseline; and every stored genome that is
    no v1 has a number that exactly one experiment of its application reserves. -/
theorem candidate_numbers_apart (host : Host ρ) (history : List Operation) (w : World)
    (hrun : run (operate host) {} history = some w) :
    DisjointNumbers w.db ∧
    (∀ r ∈ w.db.experiments, ∀ n ∈ r.reserved, 1 < n) ∧
    (∀ r ∈ w.db.experiments,
      w.numbers r.experimentId =
        List.range' r.firstVersion (recordedCandidates (w.disk r.experimentId)) ∧
      (∀ n ∈ w.numbers r.experimentId, n ∈ r.reserved) ∧
      ∀ c g, w.disk r.experimentId = some c → c.bestGenome = some g →
        r.config.baselineHash = some (g.hash host.platform.genomeDigest) ∨
          g.version ∈ r.reserved) ∧
    ∀ g ∈ w.db.genomes, g.version ≠ 1 →
      ∃! r, r ∈ w.db.experiments ∧ r.applicationId = g.systemId ∧ g.version ∈ r.reserved := by
  have h : WellNumbered host.platform w :=
    run_invariant (fun _ _ _ h hstep => h.operate hstep) (wellNumbered_empty _) hrun
  refine ⟨h.disjoint, fun r hr n hn => ?_, fun r hr => ?_, fun g hg hne => ?_⟩
  · have hfirst := h.first_le hr
    unfold ExperimentRecord.reserved at hn
    rw [Finset.mem_Ico] at hn
    omega
  · have hbooked := h.booked r hr
    refine ⟨hbooked.versions, fun n hn => hbooked.mem_reserved hn, fun c g hdisk hbest => ?_⟩
    rcases hbooked.best c g hdisk hbest with hbaseline | hmem
    · obtain ⟨-, -, hash, hhash, -⟩ :=
        h.sound.wellFormed.experiments _ r (getExperiment_of_mem h.ids hr)
      have hsame : g.hash host.platform.genomeDigest = r.config.baselineHash.getD "" := hbaseline
      rw [hhash] at hsame ⊢
      exact .inl (congrArg some hsame.symm)
    · exact .inr (hbooked.mem_reserved (List.mem_map_of_mem hmem))
  · rcases h.genomes g hg with hone | ⟨r, hr, hsystem, hversion⟩
    · exact absurd hone hne
    · have hreserved := (h.booked r hr).mem_reserved hversion
      refine ⟨r, ⟨hr, hsystem, hreserved⟩, ?_⟩
      rintro r' ⟨hr', hsystem', hreserved'⟩
      exact h.reserved_unique hr' hr (hsystem'.trans hsystem.symm) hreserved' hreserved

/-- `exp-2` has reserved the numbers up to 8 and given the last three back. -/
theorem candidate_numbers_apart_resumed : ∃ w,
    run (operate exampleHost) {} exampleOperations = some w ∧
    w.db.experiments.map (fun r => (r.firstVersion, r.endVersion)) = [(2, 4), (4, 6)] ∧
    w.numbers "exp-1" = [2, 3] ∧ w.numbers "exp-2" = [4] ∧
    w.db.genomes.map (·.version) = [1, 2] ∧
    DisjointNumbers w.db ∧ ∀ g ∈ w.db.genomes, g.version ≠ 1 →
      ∃! r, r ∈ w.db.experiments ∧ r.applicationId = g.systemId ∧ g.version ∈ r.reserved := by
  have hfacts : (run (operate exampleHost) {} exampleOperations).map (fun w => decide (
      w.db.experiments.map (fun r => (r.firstVersion, r.endVersion)) = [(2, 4), (4, 6)] ∧
      w.numbers "exp-1" = [2, 3] ∧ w.numbers "exp-2" = [4] ∧
      w.db.genomes.map (·.version) = [1, 2])) = some true := by
    decide +kernel
  obtain ⟨w, hw, hfacts⟩ := Option.map_eq_some_iff.mp hfacts
  obtain ⟨hreserved, hfirst, hsecond, hgenomes⟩ := of_decide_eq_true hfacts
  obtain ⟨hdisjoint, -, -, hone⟩ := candidate_numbers_apart exampleHost exampleOperations w hw
  exact ⟨w, hw, hreserved, hfirst, hsecond, hgenomes, hdisjoint, hone⟩

end Run

end NeuroForge
