/-
  What each part of a request does to the database.

  Creating an experiment, running it, reviewing and canarying keep a database well formed
  and preserve the log and the production statuses; a production change keeps it well
  formed and its statuses in agreement. The lemmas are about the parts, so that they serve
  requests one after another as well as interleaved ones; `Served` says what a request that
  is served alone comes to.
-/
import NeuroForge.Service.Requests
import NeuroForge.Service.WellFormed

namespace NeuroForge

open Fallible Database

variable {p : Platform} {db : Database}

/-! ## Loaded genomes -/

/-- What a session has loaded of a genome is what its row says. -/
theorem getGenome_eq_some {hash : String} {g : SystemGenome} (h : db.getGenome hash = some g) :
    ∃ r, db.getGenomeRecord hash = some r ∧ g = genomeFromRecord r ∧
      db.statusOf hash = some g.status ∧ systemOf db hash = some g.systemId := by
  obtain ⟨r, hr, rfl⟩ := Option.map_eq_some_iff.mp h
  refine ⟨r, hr, rfl, ?_, ?_⟩
  · rw [statusOf, hr]
    rfl
  · rw [systemOf, hr]
    rfl

theorem hash_of_getGenome (hwf : WellFormed p.genomeDigest db) {hash : String}
    {g : SystemGenome} (h : db.getGenome hash = some g) : g.hash p.genomeDigest = hash := by
  obtain ⟨r, hr, rfl, -, -⟩ := getGenome_eq_some h
  exact hwf.hashed hash r hr

/-- The hash of a stored genome is not the empty text. -/
theorem ne_empty_of_systemOf (hwf : WellFormed p.genomeDigest db) {hash systemId : String}
    (h : systemOf db hash = some systemId) : hash ≠ "" := by
  obtain ⟨r, hr, -⟩ := Option.map_eq_some_iff.mp h
  rw [← hwf.hashed hash r hr]
  exact p.genomeDigest_ne _

theorem nonEmpty_of_ne {text : String} (h : text ≠ "") : nonEmpty (some text) = some text := by
  unfold nonEmpty
  rw [Option.filter_some, if_pos (by simpa using h)]

/-! ## Creating an experiment -/

theorem preserves_withOriginal (systemId : String) :
    Preserves db (withOriginal p.genomeDigest db systemId) := by
  unfold withOriginal
  split
  · exact Preserves.refl db
  · exact preserves_saveGenome fun _ => ⟨by simp, by simp⟩

theorem wellFormed_withOriginal (hwf : WellFormed p.genomeDigest db) (systemId : String) :
    WellFormed p.genomeDigest (withOriginal p.genomeDigest db systemId) := by
  unfold withOriginal
  split
  · exact hwf
  · rename_i hnone
    refine hwf.saveGenome fun hnew => ?_
    rw [originalBaseline_eq] at hnone ⊢
    unfold Database.saveGenome
    rw [hnew]
    dsimp only
    rw [List.find?_append, hnone, Option.none_or]
    refine ⟨_, List.find?_cons_of_pos ?_⟩
    simp [GenomeRecord.systemId, GenomeRecord.version]

theorem mem_listGenomesForSystem {systemId : String} {r : GenomeRecord} :
    r ∈ db.listGenomesForSystem systemId ↔ r ∈ db.genomes ∧ r.systemId = systemId := by
  unfold listGenomesForSystem
  rw [List.mem_insertionSort, List.mem_filter, decide_eq_true_eq]

/-- A row of the application's genomes. -/
theorem row_of_mem_list (hwf : WellFormed p.genomeDigest db) {systemId : String}
    {r : GenomeRecord} (h : r ∈ db.listGenomesForSystem systemId) :
    db.getGenomeRecord r.hash = some r ∧ r.systemId = systemId := by
  obtain ⟨hmem, hsys⟩ := mem_listGenomesForSystem.mp h
  exact ⟨getGenomeRecord_of_mem hwf.nodup hmem, hsys⟩

theorem row_of_originalBaseline (hwf : WellFormed p.genomeDigest db) {systemId : String}
    {r : GenomeRecord} (h : originalBaseline db systemId = some r) :
    db.getGenomeRecord r.hash = some r ∧ r.systemId = systemId :=
  row_of_mem_list hwf (List.mem_of_find?_eq_some h)

theorem row_of_inProduction (hwf : WellFormed p.genomeDigest db) {systemId : String}
    {r : GenomeRecord} (h : inProduction db systemId = some r) :
    db.getGenomeRecord r.hash = some r ∧ r.systemId = systemId := by
  rcases Option.or_eq_some_iff.mp h with h | ⟨-, h⟩
  · exact getGenomeRecord_of_mem_stack (List.mem_of_getLast? h)
  · exact row_of_originalBaseline hwf h

/-- A resolved baseline is a stored genome of the application. -/
theorem resolveBaseline_ok (hwf : WellFormed p.genomeDigest db) {systemId spec : String}
    {r : GenomeRecord} (h : resolveBaseline db systemId spec = .ok (some r)) :
    db.getGenomeRecord r.hash = some r ∧ r.systemId = systemId := by
  unfold resolveBaseline at h
  split_ifs at h
  · exact row_of_inProduction hwf (Except.ok.inj h)
  · exact row_of_originalBaseline hwf (Except.ok.inj h)
  · split at h
    · split at h
      · split_ifs at h
        split at h
        · rename_i found hfound
          rw [← Option.some.inj (Except.ok.inj h)]
          exact row_of_mem_list hwf (List.mem_of_find?_eq_some hfound)
        · cases h
      · cases h
    · split at h
      · rename_i found hfound
        split_ifs at h with hsys
        rw [← Option.some.inj (Except.ok.inj h), hash_of_getGenomeRecord hfound]
        exact ⟨hfound, hsys⟩
      · cases h

theorem withDataset_ok {body : ExperimentCreateRequest} {datasetId : String} {db' : Database}
    (h : withDataset p db body datasetId = .ok db') :
    db'.genomes = db.genomes ∧ db'.approvals = db.approvals ∧
      db'.experiments = db.experiments := by
  unfold withDataset at h
  split at h
  · rw [← Except.ok.inj h]
    simp
  · split at h
    · split_ifs at h
      rw [← Except.ok.inj h]
      simp
    · rw [← Except.ok.inj h]
      simp

/-- The dataset a new experiment is to use. -/
def ExperimentCreateRequest.usedDataset (body : ExperimentCreateRequest) : String :=
  (body.datasetId.map (·.1)).getD (body.systemId.1 ++ "-dataset")

/-- The database once a creation has made sure of the application and its v1. -/
def withApplication (p : Platform) (db : Database) (body : ExperimentCreateRequest) : Database :=
  withOriginal p.genomeDigest
    (db.upsertApplication body.systemId.1 body.systemId.1 body.domain) body.systemId.1

/-- The steps of a creation that is not refused. -/
theorem createExperiment_steps {body : ExperimentCreateRequest} {db' : Database}
    (h : createExperiment p db body = .ok db') :
    ∃ baseline seeded searchSpace objectives,
      db.getExperiment body.experimentId.1 = none ∧
      resolveBaseline (withApplication p db body) body.systemId.1 body.baseline =
        .ok (some baseline) ∧
      withDataset p (withApplication p db body) body body.usedDataset = .ok seeded ∧
      db' = seeded.saveExperiment body.systemId.1 (createdConfig seeded body body.usedDataset
        baseline searchSpace objectives) none .created := by
  unfold createExperiment at h
  obtain ⟨_, hnew, h⟩ := bind_eq_ok.mp h
  obtain ⟨-, -, h⟩ := bind_eq_ok.mp h
  dsimp only at h
  obtain ⟨found, hfound, h⟩ := bind_eq_ok.mp h
  obtain ⟨baseline, hbaseline, h⟩ := bind_eq_ok.mp h
  obtain ⟨seeded, hseeded, h⟩ := bind_eq_ok.mp h
  obtain ⟨searchSpace, -, h⟩ := bind_eq_ok.mp h
  obtain ⟨objectives, -, h⟩ := bind_eq_ok.mp h
  rw [pure_eq_ok] at h
  have hnone : db.getExperiment body.experimentId.1 = none := by
    unfold checkNew at hnew
    split at hnew
    · cases hnew
    · rename_i hnone
      exact hnone
  have hresolved : resolveBaseline (withApplication p db body) body.systemId.1 body.baseline =
      .ok (some baseline) := by
    unfold requireBaseline at hbaseline
    unfold production at hfound
    split at hfound
    · rename_i resolved hresolved
      split at hbaseline
      · rw [← Except.ok.inj hbaseline, ← Except.ok.inj hfound]
        exact hresolved
      · cases hbaseline
    · cases hfound
  exact ⟨baseline, seeded, searchSpace, objectives, hnone, hresolved, hseeded, h.symm⟩

theorem experiments_withApplication (body : ExperimentCreateRequest) :
    (withApplication p db body).experiments = db.experiments := by
  unfold withApplication withOriginal
  split <;> simp

/-- A created experiment records a stored genome of its application as its baseline; the
    log and the production statuses are left alone. -/
theorem createExperiment_ok (hwf : WellFormed p.genomeDigest db)
    {body : ExperimentCreateRequest} {db' : Database}
    (h : createExperiment p db body = .ok db') :
    WellFormed p.genomeDigest db' ∧ Preserves db db' := by
  obtain ⟨baseline, seeded, searchSpace, objectives, hnew, hbaseline, hseeded, rfl⟩ :=
    createExperiment_steps h
  obtain ⟨hgenomes, happrovals, hexperiments⟩ := withDataset_ok hseeded
  have hwfApp : WellFormed p.genomeDigest
      (db.upsertApplication body.systemId.1 body.systemId.1 body.domain) :=
    hwf.of_eq (by simp) (by simp) (by simp)
  have hwfV1 : WellFormed p.genomeDigest (withApplication p db body) :=
    wellFormed_withOriginal hwfApp body.systemId.1
  have hwfSeeded := hwfV1.of_eq hgenomes happrovals hexperiments
  have hrow : systemOf seeded baseline.hash = some body.systemId.1 := by
    obtain ⟨hget, hsys⟩ := resolveBaseline_ok hwfV1 hbaseline
    unfold systemOf
    rw [getGenomeRecord, hgenomes]
    rw [getGenomeRecord] at hget
    rw [hget, Option.map_some, hsys]
  have hnone : seeded.getExperiment body.experimentId.1 = none := by
    rw [getExperiment, hexperiments, experiments_withApplication]
    exact hnew
  constructor
  · refine hwfSeeded.saveExperiment ?_
    unfold savedExperiment
    rw [show (createdConfig seeded body _ baseline searchSpace objectives).experimentId =
      body.experimentId.1 from rfl, hnone]
    refine ⟨rfl, body.experimentId.ne_empty, baseline.hash, rfl, hrow, fun result hresult => ?_⟩
    cases hresult
  · have happ : Preserves db (db.upsertApplication body.systemId.1 body.systemId.1 body.domain) :=
      Preserves.of_eq (by simp) (by simp)
    have hsaved : Preserves seeded (seeded.saveExperiment body.systemId.1 (createdConfig seeded
        body body.usedDataset baseline searchSpace objectives) none .created) :=
      Preserves.of_eq (by simp) (by simp)
    exact ((happ.trans (preserves_withOriginal body.systemId.1)).trans
      (Preserves.of_eq hgenomes happrovals)).trans hsaved

/-! ## Running an experiment -/

theorem loadRun_ok {experimentId : String} {record : ExperimentRecord}
    (h : loadRun db experimentId = .ok record) : db.getExperiment experimentId = some record := by
  unfold loadRun at h
  split at h
  · rename_i found hfound
    rw [← Except.ok.inj h]
    exact hfound
  · cases h

/-- An experiment is stored, with the baseline of the given configuration. -/
def Stored (db : Database) (config : ExperimentConfig) : Prop :=
  ∃ e, db.getExperiment config.experimentId = some e ∧
    e.config.baselineHash = config.baselineHash

theorem stored_of_loadRun (hwf : WellFormed p.genomeDigest db) {experimentId : String}
    {record : ExperimentRecord} (h : loadRun db experimentId = .ok record) :
    Stored db record.config := by
  have hrecord := loadRun_ok h
  have hid := (hwf.experiments _ record hrecord).id
  rw [experimentId_of_getExperiment hrecord] at hid
  exact ⟨record, hid.symm ▸ hrecord, rfl⟩

/-- What a run has read stays true while it runs: its experiment is stored with the same
    baseline, whose row is one of the application. -/
structure RunFits (p : Platform) (db : Database) (input : RunInput) : Prop where
  experiment : Stored db input.config
  baseline : input.config.baselineHash = some (input.baseline.hash p.genomeDigest)
  row : systemOf db (input.baseline.hash p.genomeDigest) = some input.baseline.systemId

/-- An experiment is saved again with the baseline it has. -/
theorem wellFormed_resave (hwf : WellFormed p.genomeDigest db) {applicationId : String}
    {config : ExperimentConfig} {result : Option ExperimentResult} {status : ExperimentStatus}
    (hstored : Stored db config)
    (hresult : ∀ r, result = some r →
      config.baselineHash = some (r.baselineGenome.hash p.genomeDigest)) :
    WellFormed p.genomeDigest (db.saveExperiment applicationId config result status) := by
  refine hwf.saveExperiment ?_
  obtain ⟨e, he, hbase⟩ := hstored
  obtain ⟨-, hnamed, hash, hhash, hsys, hold⟩ := hwf.experiments _ e he
  unfold savedExperiment
  rw [he]
  refine ⟨(experimentId_of_getExperiment he).symm, hnamed, hash, hbase ▸ hhash, hsys,
    fun r hr => ?_⟩
  rcases Option.or_eq_some_iff.mp hr with hr | ⟨-, hr⟩
  · have hnew := hresult r hr
    rw [← hbase, hhash] at hnew
    exact (Option.some.inj hnew).symm
  · exact hold r hr

theorem startRun_fits (hwf : WellFormed p.genomeDigest db) {experimentId : String}
    {record : ExperimentRecord} {checkpoint : Option ExperimentCheckpoint} {input : RunInput}
    (hload : loadRun db experimentId = .ok record)
    (hstart : startRun db record checkpoint = .ok input) : RunFits p db input := by
  obtain ⟨-, hconfig, hbase, -⟩ := startRun_ok hstart
  obtain ⟨-, -, hash, hhash, hsys, -⟩ := hwf.experiments _ record (loadRun_ok hload)
  unfold baselineForRun at hbase
  rw [hhash, nonEmpty_of_ne (ne_empty_of_systemOf hwf hsys)] at hbase
  obtain ⟨-, -, -, -, hsystem⟩ := getGenome_eq_some hbase
  have hhash' := hash_of_getGenome hwf hbase
  refine ⟨?_, ?_, ?_⟩
  · rw [hconfig]
    exact stored_of_loadRun hwf hload
  · rw [hconfig, hhash, hhash']
  · rw [hhash']
    exact hsystem

theorem preserves_markExperiment (applicationId : String) (config : ExperimentConfig)
    (status : ExperimentStatus) : Preserves db (markExperiment db applicationId config status) :=
  Preserves.of_eq (genomes_saveExperiment ..) (approvals_saveExperiment ..)

theorem wellFormed_markExperiment (hwf : WellFormed p.genomeDigest db)
    {config : ExperimentConfig} (hstored : Stored db config) (applicationId : String)
    (status : ExperimentStatus) :
    WellFormed p.genomeDigest (markExperiment db applicationId config status) := by
  refine wellFormed_resave hwf hstored fun r hr => ?_
  cases hr

/-- A run that has been marked as running still fits its row. -/
theorem RunFits.marked {input : RunInput} (h : RunFits p db input) (applicationId : String)
    (status : ExperimentStatus) :
    RunFits p (markExperiment db applicationId input.config status) input := by
  have hpreserves : Preserves db (markExperiment db applicationId input.config status) :=
    preserves_markExperiment applicationId input.config status
  refine ⟨⟨_, (getExperiment_saveExperiment ..).trans (if_pos rfl), ?_⟩, h.baseline,
    hpreserves.log.systemOf h.row⟩
  unfold savedExperiment
  split <;> rfl

/-- The stored result of a run was measured against the baseline its experiment records. Its
    best genome has a row already, or it is a genome of the application without a production
    status. -/
theorem finishRun_kept (hwf : WellFormed p.genomeDigest db) {input : RunInput}
    (hfit : RunFits p db input) {result : ExperimentResult}
    (hbaseline : result.baselineGenome = input.baseline)
    (hbest : result.bestGenome.hash p.genomeDigest = input.baseline.hash p.genomeDigest ∨
      result.bestGenome.systemId = input.baseline.systemId ∧
        result.bestGenome.status = .generated) :
    WellFormed p.genomeDigest (finishRun p.genomeDigest db input result) ∧
      Preserves db (finishRun p.genomeDigest db input result) := by
  have hstored : result.bestGenome.hash p.genomeDigest = input.baseline.hash p.genomeDigest →
      db.getGenomeRecord (result.bestGenome.hash p.genomeDigest) ≠ none := by
    intro hhash hnew
    obtain ⟨r, hr, -⟩ := Option.map_eq_some_iff.mp hfit.row
    rw [hhash, hr] at hnew
    cases hnew
  have hwfSaved : WellFormed p.genomeDigest (db.saveGenome p.genomeDigest result.bestGenome) := by
    refine hwf.saveGenome fun hnew => ?_
    rcases hbest with hhash | ⟨hsystem, -⟩
    · exact absurd hnew (hstored hhash)
    · obtain ⟨o, ho⟩ := hwf.original _ _ hfit.row
      rw [hsystem]
      exact ⟨o, originalBaseline_saveGenome ho⟩
  have hpSaved : Preserves db (db.saveGenome p.genomeDigest result.bestGenome) := by
    refine preserves_saveGenome fun hnew => ?_
    rcases hbest with hhash | ⟨-, hstatus⟩
    · exact absurd hnew (hstored hhash)
    · rw [hstatus]
      exact ⟨by decide, by decide⟩
  constructor
  · refine wellFormed_resave hwfSaved ?_ fun r hr => ?_
    · obtain ⟨e, he, hbase⟩ := hfit.experiment
      refine ⟨e, ?_, hbase⟩
      rw [getExperiment, experiments_saveGenome]
      exact he
    · rw [← Option.some.inj hr, hbaseline]
      exact hfit.baseline
  · exact hpSaved.trans
      (Preserves.of_eq (genomes_saveExperiment ..) (approvals_saveExperiment ..))

theorem finishRun_ok (hwf : WellFormed p.genomeDigest db) {input : RunInput}
    (hfit : RunFits p db input) {result : ExperimentResult}
    (hres : ResultOf input.baseline input.dataset result) :
    WellFormed p.genomeDigest (finishRun p.genomeDigest db input result) ∧
      Preserves db (finishRun p.genomeDigest db input result) := by
  obtain ⟨hsystem, hcontent⟩ := hres.best
  refine finishRun_kept hwf hfit hres.sameBaseline ?_
  rcases hcontent with hcontent | hstatus
  · exact .inl (congrArg p.genomeDigest hcontent)
  · exact .inr ⟨hsystem, hstatus⟩

/-! ## Reviews and canaries -/

theorem wellFormed_writeStatus (hwf : WellFormed p.genomeDigest db) (hash : String)
    (write : Option PromotionStatus) : WellFormed p.genomeDigest (db.writeStatus hash write) :=
  hwf.of_eraseStatus (eraseStatus_writeStatus hash write)

theorem wellFormed_conclude (hwf : WellFormed p.genomeDigest db) (input : ReviewInput)
    (evidence : HoldoutEvidence) (now : ℕ) :
    WellFormed p.genomeDigest (conclude db input evidence now) := by
  have hadd : WellFormed p.genomeDigest (db.addDecision input.genomeHash
      (some input.experimentId) (input.decision evidence) now) := hwf.of_eq rfl rfl rfl
  exact wellFormed_writeStatus hadd _ _

/-- A decision's next status is APPROVED or REJECTED. -/
theorem nextStatus_decision (input : ReviewInput) (evidence : HoldoutEvidence) :
    (input.decision evidence).nextStatus ≠ .promoted ∧
      (input.decision evidence).nextStatus ≠ .superseded := by
  unfold ReviewInput.decision
  rw [decideFromEvidence_nextStatus]
  split_ifs
  · exact ⟨by decide, by decide⟩
  · exact ⟨by decide, by decide⟩

theorem preserves_conclude {input : ReviewInput} {evidence : HoldoutEvidence} {now : ℕ}
    (hloaded : ∀ status, db.statusOf input.genomeHash = some status →
      status = input.candidate.status) :
    Preserves db (conclude db input evidence now) :=
  preserves_savePromotionDecision hloaded (nextStatus_decision input evidence)

theorem wellFormed_recordCanary (hwf : WellFormed p.genomeDigest db) (input : CanaryInput)
    (now : ℕ) : WellFormed p.genomeDigest (recordCanary p.genomeDigest db input now) := by
  have hadd : WellFormed p.genomeDigest (db.addCanary (input.candidate.hash p.genomeDigest)
      (input.baseline.hash p.genomeDigest) input.trafficSplit input.rollbackTriggered now) :=
    hwf.of_eq rfl rfl rfl
  exact wellFormed_writeStatus hadd _ _

/-- A resolved genome is loaded from its row. -/
theorem resolveGenome_ok (hwf : WellFormed p.genomeDigest db) {ident : String}
    {g : SystemGenome} (h : resolveGenome db ident = .ok g) :
    db.statusOf (g.hash p.genomeDigest) = some g.status ∧
      systemOf db (g.hash p.genomeDigest) = some g.systemId := by
  have hrow : ∀ r, db.getGenomeRecord r.hash = some r →
      db.statusOf ((genomeFromRecord r).hash p.genomeDigest) = some r.status ∧
        systemOf db ((genomeFromRecord r).hash p.genomeDigest) = some r.systemId := by
    intro r hr
    have hhash := hwf.hashed _ r hr
    rw [show (genomeFromRecord r).hash p.genomeDigest = r.hash from hhash, statusOf, systemOf,
      hr]
    exact ⟨rfl, rfl⟩
  unfold resolveGenome at h
  split at h
  · split at h
    · cases h
    · split at h
      · rename_i found hfound
        rw [← Except.ok.inj h]
        exact hrow found (row_of_mem_list hwf (List.mem_of_find?_eq_some hfound)).1
      · cases h
  · split at h
    · rename_i found hfound
      rw [← Except.ok.inj h]
      obtain ⟨r, hr, rfl, -, -⟩ := getGenome_eq_some hfound
      exact hrow r (by rw [hash_of_getGenomeRecord hr]; exact hr)
    · cases h

theorem canaryLookup_ok (hwf : WellFormed p.genomeDigest db) {body : CanaryRequest}
    {input : CanaryInput} (h : canaryLookup db body = .ok input) :
    db.statusOf (input.candidate.hash p.genomeDigest) = some input.candidate.status ∧
      systemOf db (input.candidate.hash p.genomeDigest) = some input.candidate.systemId := by
  unfold canaryLookup at h
  obtain ⟨baseline, -, h⟩ := bind_eq_ok.mp h
  obtain ⟨candidate, hcandidate, h⟩ := bind_eq_ok.mp h
  obtain ⟨dataset, -, h⟩ := bind_eq_ok.mp h
  obtain ⟨simulated, -, h⟩ := bind_eq_ok.mp h
  rw [pure_eq_ok] at h
  rw [← h]
  exact resolveGenome_ok hwf hcandidate

/-! ## Production changes -/

theorem loadGenome_ok {genomeHash : String} {genome : GenomeRecord}
    (h : loadGenome db genomeHash = .ok genome) :
    db.getGenomeRecord genomeHash = some genome := by
  unfold loadGenome at h
  split at h
  · rename_i found hfound
    rw [← Except.ok.inj h]
    exact hfound
  · cases h

theorem championToRollBack_ok {systemId : String} {champion : GenomeRecord}
    (h : championToRollBack db systemId = .ok champion) :
    currentChampion db systemId = some champion := by
  unfold championToRollBack at h
  split at h
  · rename_i found hfound
    rw [← Except.ok.inj h]
    exact hfound
  · cases h

theorem systemOf_champion {systemId : String} {champion : GenomeRecord}
    (h : currentChampion db systemId = some champion) :
    systemOf db champion.hash = some systemId :=
  systemOf_of_mem_productionHashes (List.mem_map_of_mem (List.mem_of_getLast? h))

/-- What a promotion has checked and what it writes. -/
theorem promoteToProduction_ok {genomeHash : String} {experimentId : Option String}
    {approvedBy : String} {now : ℕ} {outcome : PromotionOutcome} {db' : Database}
    (h : promoteToProduction db genomeHash experimentId approvedBy now = .ok (outcome, db')) :
    ∃ genome, (db.getGenomeRecord genome.hash = some genome ∧ genome.status ≠ .promoted ∧
        genome.hash = genomeHash) ∧
      db' = reconcileProductionStatuses
        (db.savePromotionApproval genome.hash experimentId approvedBy .promote now) db.statusOf
        genome.systemId := by
  unfold promoteToProduction at h
  obtain ⟨genome, hgenome, h⟩ := bind_eq_ok.mp h
  obtain ⟨_, hstatus, h⟩ := bind_eq_ok.mp h
  obtain ⟨-, -, h⟩ := bind_eq_ok.mp h
  obtain ⟨-, -, h⟩ := bind_eq_ok.mp h
  obtain ⟨-, -, h⟩ := bind_eq_ok.mp h
  rw [pure_eq_ok] at h
  obtain ⟨-, rfl⟩ := Prod.mk.inj h
  have hget := loadGenome_ok hgenome
  refine ⟨genome, ⟨?_, ?_, hash_of_getGenomeRecord hget⟩, rfl⟩
  · rw [hash_of_getGenomeRecord hget]
    exact hget
  · unfold checkNotPromoted at hstatus
    split_ifs at hstatus with hp
    exact hp

theorem systemOf_of_row {genome : GenomeRecord} (h : db.getGenomeRecord genome.hash = some genome) :
    systemOf db genome.hash = some genome.systemId := by
  rw [systemOf, h]
  rfl

/-- What a rollback has found and what it writes. -/
theorem rollbackProduction_changes {systemId approvedBy : String} {now : ℕ}
    {outcome : RollbackOutcome} {db' : Database}
    (h : rollbackProduction db systemId approvedBy now = .ok (outcome, db')) :
    ∃ current, currentChampion db systemId = some current ∧
      db' = reconcileProductionStatuses
        (db.savePromotionApproval current.hash none approvedBy .rollback now) db.statusOf
        systemId := by
  unfold rollbackProduction at h
  obtain ⟨current, hcurrent, h⟩ := bind_eq_ok.mp h
  rw [pure_eq_ok] at h
  obtain ⟨-, rfl⟩ := Prod.mk.inj h
  exact ⟨current, championToRollBack_ok hcurrent, rfl⟩

/-- A production change keeps the database well formed and its statuses in agreement. -/
theorem productionChange_ok (hwf : WellFormed p.genomeDigest db) (hagree : StatusesAgree db)
    {hash systemId : String} (hsys : systemOf db hash = some systemId)
    {loaded : String → Option PromotionStatus} (hloaded : Loaded db systemId loaded)
    (experimentId : Option String) (approvedBy : String) (action : ApprovalAction) (now : ℕ) :
    WellFormed p.genomeDigest (reconcileProductionStatuses
        (db.savePromotionApproval hash experimentId approvedBy action now) loaded systemId) ∧
      StatusesAgree (reconcileProductionStatuses
        (db.savePromotionApproval hash experimentId approvedBy action now) loaded systemId) :=
  ⟨(hwf.savePromotionApproval hsys experimentId approvedBy action now).of_eraseStatus
      (eraseStatus_reconcile systemId), hagree.change hsys hloaded⟩

/-! ## What a request does -/

/-- What serving a request at the time `now` leaves of the database. -/
inductive Served (p : Platform) (db : Database) (now : ℕ) : Request → Database → Prop
  | unchanged (request : Request) : Served p db now request db
  | created {body : ExperimentCreateRequest} {db' : Database}
      (hcreated : createExperiment p db body = .ok db') :
      Served p db now (.createExperiment body) db'
  /-- a run that cannot start, or that the engine raises in -/
  | failed {experimentId : String} {checkpoint : Option ExperimentCheckpoint}
      {answer : Except String ExperimentResult} {record : ExperimentRecord}
      (hload : loadRun db experimentId = .ok record) :
      Served p db now (.runExperiment experimentId checkpoint answer)
        (markExperiment db record.applicationId record.config .failed)
  | ran {experimentId : String} {checkpoint : Option ExperimentCheckpoint}
      {result : ExperimentResult} {record : ExperimentRecord} {input : RunInput}
      (hload : loadRun db experimentId = .ok record)
      (hstart : startRun db record checkpoint = .ok input) :
      Served p db now (.runExperiment experimentId checkpoint (.ok result))
        (finishRun p.genomeDigest
          (markExperiment db input.applicationId input.config .running) input result)
  | reviewed {experimentId genomeHash : String} {review : PromotionReview} {db' : Database}
      (hreview : reviewPromotion p db experimentId genomeHash now = .ok (review, db')) :
      Served p db now (.requestPromotion experimentId genomeHash) db'
  | canaried {body : CanaryRequest} {input : CanaryInput}
      (hlookup : canaryLookup db body = .ok input) :
      Served p db now (.runCanary body) (recordCanary p.genomeDigest db input now)
  | promoted {genomeHash approvedBy : String} {experimentId : Option String}
      {genome : GenomeRecord} (hrow : db.getGenomeRecord genome.hash = some genome)
      (hstatus : genome.status ≠ .promoted) (hasked : genome.hash = genomeHash) :
      Served p db now (.finalizePromotion genomeHash experimentId approvedBy)
        (reconcileProductionStatuses
          (db.savePromotionApproval genome.hash experimentId approvedBy .promote now)
          db.statusOf genome.systemId)
  | rolledBack {systemId approvedBy : String} {current : GenomeRecord}
      (hcurrent : currentChampion db systemId = some current) :
      Served p db now (.rollbackPromotion systemId approvedBy)
        (reconcileProductionStatuses
          (db.savePromotionApproval current.hash none approvedBy .rollback now)
          db.statusOf systemId)
  | saved (dataset : DatasetVersion) :
      Served p db now (.saveDataset dataset) (db.saveDatasetVersion dataset)

theorem serveRun_did (now : ℕ) (experimentId : String)
    (checkpoint : Option ExperimentCheckpoint) (answer : Except String ExperimentResult) :
    Served p db now (.runExperiment experimentId checkpoint answer)
      (serveRun p db experimentId checkpoint answer).2 := by
  unfold serveRun
  split
  · exact .unchanged _
  · rename_i record hload
    split
    · exact .failed hload
    · rename_i input hstart
      split
      · obtain ⟨happ, hconfig, -⟩ := startRun_ok hstart
        rw [happ, hconfig]
        exact .failed hload
      · exact .ran hload hstart

theorem serve_did (t : Timed) : Served p db t.now t.request (serve p db t).2 := by
  obtain ⟨now, request⟩ := t
  unfold serve
  dsimp only
  cases request with
  | createExperiment body =>
      dsimp only
      rcases hresult : createExperiment p db body with e | db'
      · exact .unchanged _
      · exact .created hresult
  | runExperiment experimentId checkpoint answer => exact serveRun_did ..
  | requestPromotion experimentId genomeHash =>
      dsimp only
      split
      · rename_i review hreview
        exact .reviewed hreview
      · exact .unchanged _
  | runCanary body =>
      dsimp only
      rcases hlookup : canaryLookup db body with e | input
      · exact .unchanged _
      · exact .canaried hlookup
  | finalizePromotion genomeHash experimentId approvedBy =>
      dsimp only
      rcases hresult : promoteToProduction db genomeHash experimentId approvedBy now with
        e | ⟨outcome, db'⟩
      · exact .unchanged _
      · obtain ⟨genome, ⟨hrow, hstatus, hasked⟩, rfl⟩ := promoteToProduction_ok hresult
        exact .promoted hrow hstatus hasked
  | rollbackPromotion systemId approvedBy =>
      dsimp only
      rcases hresult : rollbackProduction db systemId approvedBy now with e | ⟨outcome, db'⟩
      · exact .unchanged _
      · obtain ⟨current, hcurrent, rfl⟩ := rollbackProduction_changes hresult
        exact .rolledBack hcurrent
  | saveDataset dataset => exact .saved dataset

theorem serialStep_did {t : Timed} {db' : Database} (h : serialStep p db t = some db') :
    Possible db t.request ∧ Served p db t.now t.request db' := by
  unfold serialStep at h
  split_ifs at h with hposs
  rw [← Option.some.inj h]
  exact ⟨hposs, serve_did t⟩

/-! ## Experiments keep their baselines -/

/-- Every experiment is still there, with the baseline it recorded. -/
def KeepsBaselines (db db' : Database) : Prop :=
  ∀ id e, db.getExperiment id = some e →
    ∃ e', db'.getExperiment id = some e' ∧ e'.config.baselineHash = e.config.baselineHash

theorem KeepsBaselines.trans {db₁ db₂ db₃ : Database} (h₁ : KeepsBaselines db₁ db₂)
    (h₂ : KeepsBaselines db₂ db₃) : KeepsBaselines db₁ db₃ := by
  intro id e he
  obtain ⟨e', he', hbase⟩ := h₁ id e he
  obtain ⟨e'', he'', hbase'⟩ := h₂ id e' he'
  exact ⟨e'', he'', hbase'.trans hbase⟩

theorem KeepsBaselines.of_eq {db' : Database} (h : db'.experiments = db.experiments) :
    KeepsBaselines db db' := by
  intro id e he
  refine ⟨e, ?_, rfl⟩
  rw [getExperiment, h]
  exact he

/-- An experiment is saved for the first time, or again with the baseline it has. -/
theorem keepsBaselines_saveExperiment {config : ExperimentConfig}
    (h : ∀ e, db.getExperiment config.experimentId = some e →
      e.config.baselineHash = config.baselineHash) (applicationId : String)
    (result : Option ExperimentResult) (status : ExperimentStatus) :
    KeepsBaselines db (db.saveExperiment applicationId config result status) := by
  intro id e he
  rw [getExperiment_saveExperiment]
  by_cases hid : id = config.experimentId
  · rw [if_pos hid]
    rw [hid] at he
    refine ⟨_, rfl, ?_⟩
    unfold savedExperiment
    rw [he]
    exact (h e he).symm
  · rw [if_neg hid]
    exact ⟨e, he, rfl⟩

theorem Stored.baseline_eq {config : ExperimentConfig} (h : Stored db config)
    {e : ExperimentRecord} (he : db.getExperiment config.experimentId = some e) :
    e.config.baselineHash = config.baselineHash := by
  obtain ⟨e', he', hbase⟩ := h
  rw [he] at he'
  rw [Option.some.inj he']
  exact hbase

theorem Stored.kept {db' : Database} {config : ExperimentConfig} (h : Stored db config)
    (hkeeps : KeepsBaselines db db') : Stored db' config := by
  obtain ⟨e, he, hbase⟩ := h
  obtain ⟨e', he', hbase'⟩ := hkeeps _ e he
  exact ⟨e', he', hbase'.trans hbase⟩

theorem keepsBaselines_markExperiment {config : ExperimentConfig} (hstored : Stored db config)
    (applicationId : String) (status : ExperimentStatus) :
    KeepsBaselines db (markExperiment db applicationId config status) :=
  keepsBaselines_saveExperiment (fun _ he => hstored.baseline_eq he) _ _ _

theorem keepsBaselines_finishRun {input : RunInput} (hfit : RunFits p db input)
    (result : ExperimentResult) :
    KeepsBaselines db (finishRun p.genomeDigest db input result) := by
  have hsaved : KeepsBaselines db (db.saveGenome p.genomeDigest result.bestGenome) :=
    KeepsBaselines.of_eq (experiments_saveGenome _ _)
  have hstored := hfit.experiment.kept hsaved
  exact hsaved.trans (keepsBaselines_saveExperiment (fun _ he => hstored.baseline_eq he) _ _ _)

/-! ## What only reviews write to -/

theorem sameReviews_withDataset {body : ExperimentCreateRequest} {datasetId : String}
    {db' : Database} (h : withDataset p db body datasetId = .ok db') : SameReviews db db' := by
  unfold withDataset at h
  split at h
  · rw [← Except.ok.inj h]
    exact sameReviews_saveDatasetVersion _
  · split at h
    · split_ifs at h
      rw [← Except.ok.inj h]
      exact ⟨rfl, rfl⟩
    · rw [← Except.ok.inj h]
      exact ⟨rfl, rfl⟩

/-- A created experiment is a new one, saved over a database with the experiments, decisions
    and measurements of before. -/
theorem createExperiment_saved {body : ExperimentCreateRequest} {db' : Database}
    (h : createExperiment p db body = .ok db') :
    ∃ seeded config, db' = seeded.saveExperiment body.systemId.1 config none .created ∧
      db.getExperiment config.experimentId = none ∧ seeded.experiments = db.experiments ∧
      SameReviews db seeded := by
  obtain ⟨baseline, seeded, searchSpace, objectives, hnew, -, hseeded, rfl⟩ :=
    createExperiment_steps h
  have hv1 : SameReviews db (withApplication p db body) := by
    refine (sameReviews_upsertApplication body.systemId.1 body.systemId.1 body.domain).trans ?_
    unfold withApplication withOriginal
    split
    · exact ⟨rfl, rfl⟩
    · exact sameReviews_saveGenome _ _
  refine ⟨seeded, _, rfl, hnew, ?_, hv1.trans (sameReviews_withDataset hseeded)⟩
  rw [(withDataset_ok hseeded).2.2, experiments_withApplication]

theorem sameReviews_createExperiment {body : ExperimentCreateRequest} {db' : Database}
    (h : createExperiment p db body = .ok db') : SameReviews db db' := by
  obtain ⟨seeded, config, rfl, -, -, hsame⟩ := createExperiment_saved h
  exact hsame.trans (sameReviews_saveExperiment ..)

theorem keepsBaselines_createExperiment {body : ExperimentCreateRequest} {db' : Database}
    (h : createExperiment p db body = .ok db') : KeepsBaselines db db' := by
  obtain ⟨seeded, config, rfl, hnone, hexp, -⟩ := createExperiment_saved h
  have hseeded : KeepsBaselines db seeded := KeepsBaselines.of_eq hexp
  refine hseeded.trans (keepsBaselines_saveExperiment (fun e he => ?_) _ _ _)
  rw [getExperiment, hexp] at he
  rw [getExperiment, he] at hnone
  cases hnone

theorem sameReviews_finishRun (input : RunInput) (result : ExperimentResult) :
    SameReviews db (finishRun p.genomeDigest db input result) :=
  (sameReviews_saveGenome _ _).trans (sameReviews_saveExperiment ..)

theorem sameReviews_recordCanary (input : CanaryInput) (now : ℕ) :
    SameReviews db (recordCanary p.genomeDigest db input now) := by
  have hadd : SameReviews db (db.addCanary (input.candidate.hash p.genomeDigest)
      (input.baseline.hash p.genomeDigest) input.trafficSplit input.rollbackTriggered now) :=
    ⟨rfl, rfl⟩
  exact hadd.trans (sameReviews_of_eraseStatus (eraseStatus_writeStatus _ _))

theorem sameReviews_productionChange (hash : String) (experimentId : Option String)
    (approvedBy : String) (action : ApprovalAction) (now : ℕ)
    (loaded : String → Option PromotionStatus) (systemId : String) :
    SameReviews db (reconcileProductionStatuses
      (db.savePromotionApproval hash experimentId approvedBy action now) loaded systemId) := by
  have hadd : SameReviews db
      (db.savePromotionApproval hash experimentId approvedBy action now) := ⟨rfl, rfl⟩
  exact hadd.trans (sameReviews_of_eraseStatus (eraseStatus_reconcile systemId))

theorem holdouts_conclude (input : ReviewInput) (evidence : HoldoutEvidence) (now : ℕ) :
    (conclude db input evidence now).holdouts = db.holdouts :=
  (sameReviews_of_eraseStatus (eraseStatus_writeStatus input.genomeHash
    (reviewStatus input.candidate.status (input.decision evidence)))).holdouts

end NeuroForge
