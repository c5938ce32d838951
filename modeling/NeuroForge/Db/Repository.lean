/-
  `db/repository.py`: the queries and writes of the pipeline, as functions of a database.

  A write returns the new database; a transaction that raises is rolled back, so its caller
  keeps the old one. Beside each write stand the lemmas on what it leaves alone.
-/
import Mathlib.Data.Prod.Lex
import NeuroForge.Db.Models

namespace NeuroForge

namespace Database

variable (db : Database)

/-! ## Genomes -/

/-- `session.get(GenomeRecord, hash)`. -/
def getGenomeRecord (hash : String) : Option GenomeRecord := db.genomes.find? (·.hash = hash)

/-- The stored genome with the status of its row. -/
def genomeFromRecord (r : GenomeRecord) : SystemGenome := { r.data with status := r.status }

def getGenome (hash : String) : Option SystemGenome :=
  (db.getGenomeRecord hash).map genomeFromRecord

/-- The row of a genome is written once; a second save finds it. -/
def saveGenome (digest : GenomeDigest) (g : SystemGenome) : Database :=
  match db.getGenomeRecord (g.hash digest) with
  | some _ => db
  | none => { db with genomes := db.genomes ++ [⟨g.hash digest, g.status, g⟩] }

def listGenomesForSystem (systemId : String) : List GenomeRecord :=
  (db.genomes.filter (·.systemId = systemId)).insertionSort (·.version ≤ ·.version)

def setGenomeStatus (hash : String) (status : PromotionStatus) : Database :=
  { db with
    genomes := db.genomes.map fun g => if g.hash = hash then { g with status := status } else g }

/-- The status of a genome, if it has a row. -/
def statusOf (hash : String) : Option PromotionStatus :=
  (db.getGenomeRecord hash).map (·.status)

/-! ## Datasets and experiments -/

def getDatasetVersion (datasetId : String) (version : ℕ) : Option DatasetVersion :=
  db.datasets.find? fun d => d.datasetId = datasetId ∧ d.version = version

def latestDatasetVersion (datasetId : String) : Option DatasetVersion :=
  (db.datasets.filter (·.datasetId = datasetId)).argmax (·.version)

def saveDatasetVersion (d : DatasetVersion) : Database :=
  match db.getDatasetVersion d.datasetId d.version with
  | some _ => db
  | none => { db with datasets := db.datasets ++ [d] }

def getExperiment (experimentId : String) : Option ExperimentRecord :=
  db.experiments.find? (·.experimentId = experimentId)

/-- The row of an experiment is created or updated; its result is kept unless one is given. -/
def saveExperiment (applicationId : String) (config : ExperimentConfig)
    (result : Option ExperimentResult) (status : ExperimentStatus) : Database :=
  match db.getExperiment config.experimentId with
  | none => { db with
      experiments := db.experiments ++ [⟨config.experimentId, applicationId, status, config,
        result⟩] }
  | some _ => { db with
      experiments := db.experiments.map fun r =>
        if r.experimentId = config.experimentId then
          { r with status := status, config := config, result := result.or r.result }
        else r }

/-- The first version number no genome has and no experiment has reserved. -/
def nextCandidateVersion (applicationId : String) : ℕ :=
  let ofGenomes := (db.listGenomesForSystem applicationId).foldl
    (fun start g => max start (g.version + 1)) 2
  (db.experiments.filter (·.applicationId = applicationId)).foldl (fun start r =>
    max start (r.config.firstCandidateVersion.getD 2 + r.config.budget.maxCandidates)) ofGenomes

/-- Another experiment of the application that has reserved numbers from one of the
    `nCandidates` numbers on that begin at `firstVersion`. -/
def candidateVersionClash (experimentId applicationId : String)
    (firstVersion nCandidates : ℕ) : Option String :=
  let clashes := fun other : ExperimentRecord =>
    match other.config.firstCandidateVersion with
    | some otherFirst =>
        decide (otherFirst ≠ 0 ∧ firstVersion ≤ otherFirst ∧
          otherFirst < firstVersion + nCandidates)
    | none => false
  ((db.experiments.filter fun r => r.applicationId = applicationId ∧
    r.experimentId ≠ experimentId).find? clashes).map (·.experimentId)

def upsertApplication (id name domainName : String) : Database :=
  match db.applications.find? (·.id = id) with
  | some _ => db
  | none => { db with applications := db.applications ++ [⟨id, name, domainName⟩] }

/-! ## Reviews, canaries and approvals -/

/-- `_advance_status` on the status a session has loaded: the status its commit writes, if
    any. A session writes a column only where the value it assigns is a new one. -/
def advancedStatus (loaded new : PromotionStatus) (onlyFrom : PromotionStatus → Bool) :
    Option PromotionStatus :=
  if loaded = .promoted then none
  else if onlyFrom loaded ∧ new ≠ loaded then some new
  else none

/-- The statuses a review's decision may replace. -/
def reviewOnlyFrom (approved : Bool) (status : PromotionStatus) : Bool :=
  decide (status ≠ .promoted ∧ status ≠ .superseded) && !(approved && decide (status = .canary))

/-- The statuses a canary's outcome may replace. -/
def canaryOnlyFrom (status : PromotionStatus) : Bool :=
  decide (status = .approved ∨ status = .canary ∨ status = .rolledBack)

/-- The status write of a review that had loaded `loaded`. -/
def reviewStatus (loaded : PromotionStatus) (decision : PromotionDecision) :
    Option PromotionStatus :=
  advancedStatus loaded decision.nextStatus (reviewOnlyFrom decision.approved)

/-- The status write of a canary that had loaded `loaded`. -/
def canaryStatus (loaded : PromotionStatus) (rollbackTriggered : Bool) :
    Option PromotionStatus :=
  advancedStatus loaded (if rollbackTriggered then .rolledBack else .canary) canaryOnlyFrom

/-- A status write that may not happen. -/
def writeStatus (hash : String) : Option PromotionStatus → Database
  | some status => db.setGenomeStatus hash status
  | none => db

def addDecision (genomeHash : String) (experimentId : Option String)
    (decision : PromotionDecision) (now : ℕ) : Database :=
  { db with
    decisions := db.decisions ++ [⟨db.decisions.length + 1, genomeHash, experimentId,
      decision.approved, decision.nextStatus, decision.reasons, decision.evidence, now⟩] }

/-- `save_promotion_decision` of a session that had loaded the genome with status `loaded`. -/
def savePromotionDecision (genomeHash : String) (experimentId : Option String)
    (decision : PromotionDecision) (loaded : PromotionStatus) (now : ℕ) : Database :=
  (db.addDecision genomeHash experimentId decision now).writeStatus genomeHash
    (reviewStatus loaded decision)

def addCanary (candidateHash baselineHash : String) (trafficSplit : ℚ)
    (rollbackTriggered : Bool) (now : ℕ) : Database :=
  { db with
    canaries := db.canaries ++ [⟨db.canaries.length + 1, baselineHash, candidateHash,
      trafficSplit, rollbackTriggered, now⟩] }

/-- `save_canary_result` of a session that had loaded the genome with status `loaded`. -/
def saveCanaryResult (candidateHash baselineHash : String) (trafficSplit : ℚ)
    (rollbackTriggered : Bool) (loaded : PromotionStatus) (now : ℕ) : Database :=
  (db.addCanary candidateHash baselineHash trafficSplit rollbackTriggered now).writeStatus
    candidateHash (canaryStatus loaded rollbackTriggered)

def getHoldoutEvaluation (genomeHash datasetId : String) (datasetVersion : ℕ) :
    Option HoldoutEvaluationRecord :=
  db.holdouts.find? fun r => r.key = (genomeHash, datasetId, datasetVersion)

/-- The insert of a measurement, or nothing where `uq_holdout_once` makes it fail. -/
def saveHoldoutEvaluation (r : HoldoutEvaluationRecord) : Option Database :=
  if r.key ∈ db.holdouts.map (·.key) then none else some { db with holdouts := db.holdouts ++ [r] }

def savePromotionApproval (genomeHash : String) (experimentId : Option String)
    (approvedBy : String) (action : ApprovalAction) (now : ℕ) : Database :=
  { db with
    approvals := db.approvals ++ [⟨db.approvals.length + 1, genomeHash, experimentId,
      approvedBy, some action, now⟩] }

/-- `ORDER BY created_at DESC, id DESC LIMIT 1`. -/
def latestPromotionDecision (genomeHash : String) : Option PromotionRecord :=
  (db.decisions.filter (·.genomeHash = genomeHash)).argmax fun r => toLex (r.createdAt, r.id)

def latestCanaryRun (candidateHash : String) : Option CanaryRecord :=
  (db.canaries.filter (·.candidateHash = candidateHash)).argmax fun r =>
    toLex (r.createdAt, r.id)

/-- Every production change of an application with the genome it acted on, oldest first. -/
def listProductionEvents (systemId : String) :
    List (PromotionApprovalRecord × GenomeRecord) :=
  ((db.approvals.filterMap fun a => (db.getGenomeRecord a.genomeHash).map fun g => (a, g)).filter
    (·.2.systemId = systemId)).insertionSort fun e f =>
      toLex (e.1.createdAt, e.1.id) ≤ toLex (f.1.createdAt, f.1.id)

/-! ## Frame lemmas -/

section Frame

variable {db}

theorem hash_of_getGenomeRecord {hash : String} {r : GenomeRecord}
    (h : db.getGenomeRecord hash = some r) : r.hash = hash := by
  simpa using List.find?_some h

theorem getGenomeRecord_setGenomeStatus (hash hash' : String) (status : PromotionStatus) :
    (db.setGenomeStatus hash status).getGenomeRecord hash' =
      (db.getGenomeRecord hash').map fun g =>
        if hash' = hash then { g with status := status } else g := by
  unfold getGenomeRecord setGenomeStatus
  simp only
  induction db.genomes with
  | nil => rfl
  | cons g gs ih =>
      have hhash : (if g.hash = hash then { g with status := status } else g).hash = g.hash := by
        split_ifs <;> rfl
      rw [List.map_cons]
      by_cases hg : g.hash = hash'
      · rw [List.find?_cons_of_pos (by simpa [hhash] using hg),
          List.find?_cons_of_pos (by simpa using hg), Option.map_some, ← hg]
      · rw [List.find?_cons_of_neg (by simpa [hhash] using hg),
          List.find?_cons_of_neg (by simpa using hg), ih]

/-- A status write changes one status and nothing else of any row. -/
theorem statusOf_setGenomeStatus (hash hash' : String) (status : PromotionStatus) :
    (db.setGenomeStatus hash status).statusOf hash' =
      (db.statusOf hash').map fun st => if hash' = hash then status else st := by
  unfold statusOf
  rw [getGenomeRecord_setGenomeStatus, Option.map_map, Option.map_map]
  congr 1
  funext g
  dsimp only [Function.comp]
  split_ifs <;> rfl

/-- A database without its status column. -/
def eraseStatus (db : Database) : Database :=
  { db with genomes := db.genomes.map GenomeRecord.eraseStatus }

/-- A status write changes the status column only. -/
@[simp] theorem eraseStatus_setGenomeStatus (hash : String) (status : PromotionStatus) :
    (db.setGenomeStatus hash status).eraseStatus = db.eraseStatus := by
  unfold setGenomeStatus eraseStatus
  rw [List.map_map]
  congr 1
  refine List.map_congr_left fun g _ => ?_
  dsimp only [Function.comp]
  split_ifs <;> rfl

@[simp] theorem eraseStatus_writeStatus (hash : String) (write : Option PromotionStatus) :
    (db.writeStatus hash write).eraseStatus = db.eraseStatus := by
  cases write with
  | none => rfl
  | some status => exact eraseStatus_setGenomeStatus hash status

theorem approvals_of_eraseStatus {db' : Database} (h : db'.eraseStatus = db.eraseStatus) :
    db'.approvals = db.approvals := by
  have happ := congrArg Database.approvals h
  exact happ

theorem experiments_of_eraseStatus {db' : Database} (h : db'.eraseStatus = db.eraseStatus) :
    db'.experiments = db.experiments := by
  have hexp := congrArg Database.experiments h
  exact hexp

theorem statusOf_writeStatus (hash hash' : String) (write : Option PromotionStatus) :
    (db.writeStatus hash write).statusOf hash' =
      (db.statusOf hash').map fun st => if hash' = hash then write.getD st else st := by
  cases write with
  | none => simp [writeStatus]
  | some status => exact statusOf_setGenomeStatus hash hash' status

theorem getGenomeRecord_eraseStatus (hash : String) :
    db.eraseStatus.getGenomeRecord hash =
      (db.getGenomeRecord hash).map GenomeRecord.eraseStatus := by
  unfold getGenomeRecord eraseStatus
  rw [List.find?_map]
  rfl

theorem listGenomesForSystem_eraseStatus (systemId : String) :
    db.eraseStatus.listGenomesForSystem systemId =
      (db.listGenomesForSystem systemId).map GenomeRecord.eraseStatus := by
  unfold listGenomesForSystem eraseStatus
  rw [List.map_insertionSort (fun a b : GenomeRecord => a.version ≤ b.version)
    (fun a b : GenomeRecord => a.version ≤ b.version) GenomeRecord.eraseStatus
    (db.genomes.filter (·.systemId = systemId)) fun _ _ _ _ => Iff.rfl, List.filter_map]
  rfl

/-- A genome that is saved is there afterwards, and no other row has changed. -/
theorem getGenomeRecord_saveGenome (digest : GenomeDigest) (g : SystemGenome) (hash : String) :
    (db.saveGenome digest g).getGenomeRecord hash =
      (db.getGenomeRecord hash).or
        (if g.hash digest = hash then some ⟨g.hash digest, g.status, g⟩ else none) := by
  unfold saveGenome
  cases hold : db.getGenomeRecord (g.hash digest) with
  | some r =>
      dsimp only
      by_cases hh : g.hash digest = hash
      · rw [← hh, hold]
        rfl
      · rw [if_neg hh, Option.or_none]
  | none =>
      unfold getGenomeRecord
      dsimp only
      rw [List.find?_append]
      by_cases hh : g.hash digest = hash <;> simp [hh]

/-! Which tables a write leaves alone. -/

@[simp] theorem approvals_saveGenome (digest : GenomeDigest) (g : SystemGenome) :
    (db.saveGenome digest g).approvals = db.approvals := by
  unfold saveGenome
  split <;> rfl

@[simp] theorem experiments_saveGenome (digest : GenomeDigest) (g : SystemGenome) :
    (db.saveGenome digest g).experiments = db.experiments := by
  unfold saveGenome
  split <;> rfl

@[simp] theorem genomes_saveExperiment (applicationId : String) (config : ExperimentConfig)
    (result : Option ExperimentResult) (status : ExperimentStatus) :
    (db.saveExperiment applicationId config result status).genomes = db.genomes := by
  unfold saveExperiment
  split <;> rfl

@[simp] theorem approvals_saveExperiment (applicationId : String) (config : ExperimentConfig)
    (result : Option ExperimentResult) (status : ExperimentStatus) :
    (db.saveExperiment applicationId config result status).approvals = db.approvals := by
  unfold saveExperiment
  split <;> rfl

@[simp] theorem genomes_upsertApplication (id name domainName : String) :
    (db.upsertApplication id name domainName).genomes = db.genomes := by
  unfold upsertApplication
  split <;> rfl

@[simp] theorem approvals_upsertApplication (id name domainName : String) :
    (db.upsertApplication id name domainName).approvals = db.approvals := by
  unfold upsertApplication
  split <;> rfl

@[simp] theorem experiments_upsertApplication (id name domainName : String) :
    (db.upsertApplication id name domainName).experiments = db.experiments := by
  unfold upsertApplication
  split <;> rfl

@[simp] theorem genomes_saveDatasetVersion (d : DatasetVersion) :
    (db.saveDatasetVersion d).genomes = db.genomes := by
  unfold saveDatasetVersion
  split <;> rfl

@[simp] theorem approvals_saveDatasetVersion (d : DatasetVersion) :
    (db.saveDatasetVersion d).approvals = db.approvals := by
  unfold saveDatasetVersion
  split <;> rfl

@[simp] theorem experiments_saveDatasetVersion (d : DatasetVersion) :
    (db.saveDatasetVersion d).experiments = db.experiments := by
  unfold saveDatasetVersion
  split <;> rfl

/-- The tables that only reviews write to are the same. -/
structure SameReviews (db db' : Database) : Prop where
  decisions : db'.decisions = db.decisions
  holdouts : db'.holdouts = db.holdouts

theorem SameReviews.trans {db₁ db₂ db₃ : Database} (h₁ : SameReviews db₁ db₂)
    (h₂ : SameReviews db₂ db₃) : SameReviews db₁ db₃ :=
  ⟨h₂.decisions.trans h₁.decisions, h₂.holdouts.trans h₁.holdouts⟩

theorem sameReviews_saveGenome (digest : GenomeDigest) (g : SystemGenome) :
    SameReviews db (db.saveGenome digest g) := by
  unfold saveGenome
  split <;> exact ⟨rfl, rfl⟩

theorem sameReviews_saveExperiment (applicationId : String) (config : ExperimentConfig)
    (result : Option ExperimentResult) (status : ExperimentStatus) :
    SameReviews db (db.saveExperiment applicationId config result status) := by
  unfold saveExperiment
  split <;> exact ⟨rfl, rfl⟩

theorem sameReviews_upsertApplication (id name domainName : String) :
    SameReviews db (db.upsertApplication id name domainName) := by
  unfold upsertApplication
  split <;> exact ⟨rfl, rfl⟩

theorem sameReviews_saveDatasetVersion (d : DatasetVersion) :
    SameReviews db (db.saveDatasetVersion d) := by
  unfold saveDatasetVersion
  split <;> exact ⟨rfl, rfl⟩

theorem sameReviews_of_eraseStatus {db' : Database} (h : db'.eraseStatus = db.eraseStatus) :
    SameReviews db db' := by
  have hdecisions := congrArg Database.decisions h
  have hholdouts := congrArg Database.holdouts h
  exact ⟨hdecisions, hholdouts⟩

theorem key_of_getHoldoutEvaluation {genomeHash datasetId : String} {version : ℕ}
    {row : HoldoutEvaluationRecord}
    (h : db.getHoldoutEvaluation genomeHash datasetId version = some row) :
    row.key = (genomeHash, datasetId, version) := by
  simpa using List.find?_some h

/-- Every stored measurement is still there, under its key and unchanged. -/
def KeepsHoldouts (db db' : Database) : Prop :=
  ∀ genomeHash datasetId version row,
    db.getHoldoutEvaluation genomeHash datasetId version = some row →
      db'.getHoldoutEvaluation genomeHash datasetId version = some row

theorem KeepsHoldouts.of_eq {db' : Database} (h : db'.holdouts = db.holdouts) :
    KeepsHoldouts db db' := by
  intro genomeHash datasetId version row hrow
  rw [getHoldoutEvaluation, h]
  exact hrow

theorem SameReviews.keepsHoldouts {db' : Database} (h : SameReviews db db') :
    KeepsHoldouts db db' := KeepsHoldouts.of_eq h.holdouts

theorem KeepsHoldouts.of_append {db' : Database} {rows : List HoldoutEvaluationRecord}
    (h : db'.holdouts = db.holdouts ++ rows) : KeepsHoldouts db db' := by
  intro genomeHash datasetId version row hrow
  rw [getHoldoutEvaluation] at hrow ⊢
  rw [h, List.find?_append, hrow]
  rfl

theorem KeepsHoldouts.trans {db₁ db₂ db₃ : Database} (h₁ : KeepsHoldouts db₁ db₂)
    (h₂ : KeepsHoldouts db₂ db₃) : KeepsHoldouts db₁ db₃ :=
  fun g d v row hrow => h₂ g d v row (h₁ g d v row hrow)

/-- A stored measurement is a new row of its table. -/
theorem saveHoldoutEvaluation_ok {row : HoldoutEvaluationRecord} {db' : Database}
    (h : db.saveHoldoutEvaluation row = some db') :
    row.key ∉ db.holdouts.map (·.key) ∧ db' = { db with holdouts := db.holdouts ++ [row] } := by
  unfold saveHoldoutEvaluation at h
  split_ifs at h with hkey
  exact ⟨hkey, (Option.some.inj h).symm⟩

end Frame

end Database

end NeuroForge
