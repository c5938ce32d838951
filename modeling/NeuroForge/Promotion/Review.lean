/-
  `promotion/review.py`: a review of a candidate against an experiment's baseline.

  A review looks everything up (`reviewLookup`), plans its evidence (`plan`: the stored
  measurement if it was made against this baseline, else a fresh one), stores a fresh one
  if none was stored, and records its decision (`conclude`). `reviewPromotion` is the whole
  of it in one session; each part is also a step of the concurrent service.

  `plan_ok` says what evidence a review decides from; `storedRow_baseline` that a row
  carries the baseline its evidence was measured against.
-/
import NeuroForge.Promotion.Agreement

namespace NeuroForge

open Fallible Database

/-- The code the pipeline runs on: the digest of a genome's content (a hexadecimal text),
    numpy, the domains and providers (`get_domain` and `get_provider` may raise), and what
    seeds a dataset. -/
structure Platform where
  genomeDigest : GenomeDigest
  genomeDigest_ne : ∀ content, genomeDigest content ≠ ""
  numpy : Numpy
  evaluator : String → String → Except String Evaluator
  seedDataset : String → String → ℤ → DatasetVersion

inductive ReviewFailure where
  /-- `ReviewError` -/
  | reviewError (message : String)
  /-- the insert failed and no row of another review explains it -/
  | integrityError
  deriving DecidableEq, Repr

/-- What a review has looked up. `candidate` has the status the session loaded. -/
structure ReviewInput where
  experimentId : String
  genomeHash : String
  experiment : ExperimentRecord
  result : ExperimentResult
  dataset : DatasetVersion
  candidate : SystemGenome
  stored : Option HoldoutEvaluationRecord

structure PromotionReview where
  decision : PromotionDecision
  evidence : HoldoutEvidence
  holdoutReused : Bool

/-- `result.dataset_id or config.dataset_id or "<application>-dataset"`. -/
def reviewDatasetId (experiment : ExperimentRecord) (result : ExperimentResult) : String :=
  ((nonEmpty (some result.datasetId)).or (nonEmpty experiment.config.datasetId)).getD
    (experiment.applicationId ++ "-dataset")

/-- The dataset version the experiment ran on, or the latest if it recorded none. -/
def reviewDataset (db : Database) (datasetId : String) (version : ℕ) :
    Except ReviewFailure DatasetVersion :=
  let found := if version ≠ 0 then db.getDatasetVersion datasetId version
    else db.latestDatasetVersion datasetId
  match found with
  | some dataset => .ok dataset
  | none =>
      let shown := if version ≠ 0 then toString version else "latest"
      .error (.reviewError s!"dataset '{datasetId}' (v{shown}) not found")

/-- The experiment of a review with its result. -/
def completedExperiment (db : Database) (experimentId : String) :
    Except ReviewFailure (ExperimentRecord × ExperimentResult) :=
  match db.getExperiment experimentId with
  | some record =>
      match record.result with
      | some result => .ok (record, result)
      | none => .error (.reviewError
          s!"experiment '{experimentId}' has no completed result yet")
  | none => .error (.reviewError s!"experiment '{experimentId}' has no completed result yet")

/-- The candidate of a review, of the experiment's application. -/
def reviewCandidate (db : Database) (experimentId genomeHash applicationId : String) :
    Except ReviewFailure SystemGenome :=
  match db.getGenome genomeHash with
  | some candidate =>
      if candidate.systemId = applicationId then .ok candidate
      else .error (.reviewError (s!"genome '{genomeHash}' belongs to application " ++
        s!"'{candidate.systemId}', but experiment '{experimentId}' belongs to " ++
        s!"'{applicationId}'"))
  | none => .error (.reviewError s!"unknown genome '{genomeHash}'")

def reviewLookup (db : Database) (experimentId genomeHash : String) :
    Except ReviewFailure ReviewInput := do
  let completed ← completedExperiment db experimentId
  let dataset ← reviewDataset db (reviewDatasetId completed.1 completed.2)
    completed.2.datasetVersion
  let candidate ← reviewCandidate db experimentId genomeHash completed.1.applicationId
  return {
    experimentId := experimentId
    genomeHash := genomeHash
    experiment := completed.1
    result := completed.2
    dataset := dataset
    candidate := candidate
    stored := db.getHoldoutEvaluation genomeHash dataset.datasetId dataset.version }

namespace ReviewInput

variable (p : Platform) (input : ReviewInput)

def baselineHash : String := input.result.baselineGenome.hash p.genomeDigest

/-- What `uq_holdout_once` allows one row of. -/
def key : String × String × ℕ :=
  (input.genomeHash, input.dataset.datasetId, input.dataset.version)

/-- The evidence of a row, if it was measured against this review's baseline. -/
def reusable (row : Option HoldoutEvaluationRecord) : Option HoldoutEvidence :=
  (row.map (·.evidence)).filter (·.baselineHash = input.baselineHash p)

/-- A fresh measurement, under the experiment's own settings. -/
def measure : Except ReviewFailure HoldoutEvidence :=
  let config := input.experiment.config
  let measured := do
    let evaluate ← p.evaluator config.domainName config.providerName
    evaluateOnHoldout p.numpy p.genomeDigest evaluate input.result.baselineGenome
      input.candidate input.dataset config.confidence config.minRelativeImprovement config.seed
  match measured with
  | .ok evidence => .ok evidence
  | .error message => .error (.reviewError message)

/-- The row that stores a measurement of this review. -/
def row (evidence : HoldoutEvidence) : HoldoutEvaluationRecord where
  genomeHash := input.genomeHash
  experimentId := some input.experimentId
  datasetId := evidence.datasetId
  datasetVersion := evidence.datasetVersion
  evidence := evidence

def decision (evidence : HoldoutEvidence) : PromotionDecision :=
  decideFromEvidence evidence input.genomeHash input.experiment.config.promotionGates
    input.experiment.config.safetyConstraints

end ReviewInput

/-- What a review does once it has looked everything up. -/
inductive ReviewPlan where
  /-- decide from this evidence -/
  | settled (evidence : HoldoutEvidence) (reused : Bool)
  /-- store this measurement first -/
  | store (evidence : HoldoutEvidence)
  deriving DecidableEq

/-- Reuse the stored measurement or make a fresh one. One made against another baseline than
    the stored row's decides this review but is not stored. -/
def plan (p : Platform) (input : ReviewInput) : Except ReviewFailure ReviewPlan :=
  match input.reusable p input.stored with
  | some evidence => .ok (.settled evidence true)
  | none => do
      let evidence ← input.measure p
      return if input.stored.isSome then .settled evidence false else .store evidence

/-- The loser of a race for the row: it uses the winner's measurement if that was made
    against this review's baseline, and its own otherwise. -/
def afterConflict (p : Platform) (db : Database) (input : ReviewInput)
    (evidence : HoldoutEvidence) : Except ReviewFailure (HoldoutEvidence × Bool) :=
  match db.getHoldoutEvaluation input.genomeHash input.dataset.datasetId
      input.dataset.version with
  | none => .error .integrityError
  | some winner =>
      match input.reusable p (some winner) with
      | some theirs => .ok (theirs, true)
      | none => .ok (evidence, false)

/-- The decision of a review and its writes. -/
def conclude (db : Database) (input : ReviewInput) (evidence : HoldoutEvidence) (now : ℕ) :
    Database :=
  db.savePromotionDecision input.genomeHash (some input.experimentId) (input.decision evidence)
    input.candidate.status now

/-- The evidence of a review that no other request interrupts, and the database with the
    measurement stored. -/
def settleEvidence (p : Platform) (db : Database) (input : ReviewInput) :
    Except ReviewFailure ((HoldoutEvidence × Bool) × Database) := do
  match ← plan p input with
  | .settled evidence reused => return ((evidence, reused), db)
  | .store evidence =>
      match db.saveHoldoutEvaluation (input.row evidence) with
      | some stored => return ((evidence, false), stored)
      | none => return (← afterConflict p db input evidence, db)

def reviewPromotion (p : Platform) (db : Database) (experimentId genomeHash : String)
    (now : ℕ) : Except ReviewFailure (PromotionReview × Database) := do
  let input ← reviewLookup db experimentId genomeHash
  let settled ← settleEvidence p db input
  let evidence := settled.1.1
  return ({ decision := input.decision evidence, evidence := evidence,
            holdoutReused := settled.1.2 },
    conclude settled.2 input evidence now)

/-! ## What the parts of a review return -/

section Spec

variable {p : Platform} {db : Database} {experimentId genomeHash : String} {input : ReviewInput}

/-- What a successful lookup has found. -/
theorem reviewLookup_ok (h : reviewLookup db experimentId genomeHash = .ok input) :
    input.experimentId = experimentId ∧ input.genomeHash = genomeHash ∧
      db.getExperiment experimentId = some input.experiment ∧
      input.experiment.result = some input.result ∧
      db.getGenome genomeHash = some input.candidate ∧
      input.candidate.systemId = input.experiment.applicationId ∧
      input.stored = db.getHoldoutEvaluation genomeHash input.dataset.datasetId
        input.dataset.version := by
  unfold reviewLookup at h
  obtain ⟨completed, hcompleted, h⟩ := bind_eq_ok.mp h
  obtain ⟨dataset, -, h⟩ := bind_eq_ok.mp h
  obtain ⟨candidate, hcandidate, h⟩ := bind_eq_ok.mp h
  rw [pure_eq_ok] at h
  subst h
  have hexp : db.getExperiment experimentId = some completed.1 ∧
      completed.1.result = some completed.2 := by
    unfold completedExperiment at hcompleted
    split at hcompleted
    · rename_i record hrecord
      split at hcompleted
      · rename_i result hresult
        rw [← Except.ok.inj hcompleted]
        exact ⟨hrecord, hresult⟩
      · cases hcompleted
    · cases hcompleted
  have hcand : db.getGenome genomeHash = some candidate ∧
      candidate.systemId = completed.1.applicationId := by
    unfold reviewCandidate at hcandidate
    split at hcandidate
    · rename_i found hfound
      split_ifs at hcandidate with hsys
      rw [← Except.ok.inj hcandidate]
      exact ⟨hfound, hsys⟩
    · cases hcandidate
  exact ⟨rfl, rfl, hexp.1, hexp.2, hcand.1, hcand.2, rfl⟩

/-- A measurement names this review's baseline and dataset version. -/
theorem measure_ok {evidence : HoldoutEvidence} (h : input.measure p = .ok evidence) :
    evidence.baselineHash = input.baselineHash p ∧ (input.row evidence).key = input.key := by
  unfold ReviewInput.measure at h
  dsimp only at h
  split at h
  · rename_i measured hmeasured
    rw [← Except.ok.inj h]
    obtain ⟨evaluate, -, hmeasured⟩ := bind_eq_ok.mp hmeasured
    obtain ⟨hbase, hid, hversion⟩ := evaluateOnHoldout_ok hmeasured
    refine ⟨hbase, ?_⟩
    unfold HoldoutEvaluationRecord.key ReviewInput.row ReviewInput.key
    rw [hid, hversion]
  · cases h

theorem reusable_eq_some {row : Option HoldoutEvaluationRecord} {evidence : HoldoutEvidence} :
    input.reusable p row = some evidence ↔
      ∃ r, row = some r ∧ r.evidence = evidence ∧
        evidence.baselineHash = input.baselineHash p := by
  unfold ReviewInput.reusable
  rw [Option.filter_eq_some_iff]
  constructor
  · rintro ⟨hmap, hbase⟩
    obtain ⟨r, hr, rfl⟩ := Option.map_eq_some_iff.mp hmap
    exact ⟨r, hr, rfl, by simpa using hbase⟩
  · rintro ⟨r, rfl, rfl, hbase⟩
    exact ⟨rfl, by simpa using hbase⟩

theorem reusable_eq_none {r : HoldoutEvaluationRecord} :
    input.reusable p (some r) = none ↔ r.evidence.baselineHash ≠ input.baselineHash p := by
  unfold ReviewInput.reusable
  simp [Option.filter_eq_none_iff]

/-- A review that settles has either reused the stored row's evidence, measured against its
    baseline, or measured afresh beside a row measured against another; one that stores has
    found no row. -/
theorem plan_ok {planned : ReviewPlan} (h : plan p input = .ok planned) :
    (∃ r, input.stored = some r ∧ r.evidence.baselineHash = input.baselineHash p ∧
        planned = .settled r.evidence true) ∨
      (∃ r evidence, input.stored = some r ∧
        r.evidence.baselineHash ≠ input.baselineHash p ∧
        input.measure p = .ok evidence ∧ planned = .settled evidence false) ∨
      (input.stored = none ∧ ∃ evidence, input.measure p = .ok evidence ∧
        planned = .store evidence) := by
  unfold plan at h
  split at h
  · rename_i evidence hreuse
    obtain ⟨r, hr, rfl, hbase⟩ := reusable_eq_some.mp hreuse
    exact .inl ⟨r, hr, hbase, (Except.ok.inj h).symm⟩
  · rename_i hreuse
    obtain ⟨evidence, hmeasure, h⟩ := bind_eq_ok.mp h
    rw [pure_eq_ok] at h
    rcases hstored : input.stored with _ | r
    · rw [hstored] at h
      exact .inr (.inr ⟨rfl, evidence, hmeasure, h.symm⟩)
    · rw [hstored] at h hreuse
      exact .inr (.inl ⟨r, evidence, rfl, reusable_eq_none.mp hreuse, hmeasure, h.symm⟩)

/-- After a lost race a review decides from the winner's evidence exactly when that was
    measured against its own baseline. -/
theorem afterConflict_ok {evidence : HoldoutEvidence} {used : HoldoutEvidence × Bool}
    (h : afterConflict p db input evidence = .ok used) :
    ∃ winner, db.getHoldoutEvaluation input.genomeHash input.dataset.datasetId
        input.dataset.version = some winner ∧
      used.1 = if winner.evidence.baselineHash = input.baselineHash p then winner.evidence
        else evidence := by
  unfold afterConflict at h
  split at h
  · cases h
  · rename_i winner hwinner
    refine ⟨winner, hwinner, ?_⟩
    split at h
    · rename_i theirs hreuse
      obtain ⟨r, hr, rfl, hbase⟩ := reusable_eq_some.mp hreuse
      obtain rfl := Option.some.inj hr
      rw [← Except.ok.inj h, if_pos hbase]
    · rename_i hreuse
      rw [← Except.ok.inj h, if_neg (reusable_eq_none.mp hreuse)]

/-- The row of a key, or none where nothing is stored under it. -/
theorem getHoldoutEvaluation_eq_none {genomeHash datasetId : String} {version : ℕ} :
    db.getHoldoutEvaluation genomeHash datasetId version = none ↔
      (genomeHash, datasetId, version) ∉ db.holdouts.map (·.key) := by
  unfold getHoldoutEvaluation
  rw [List.find?_eq_none]
  simp

/-- What an uninterrupted review decides from: the stored row's evidence if that was
    measured against its baseline, a fresh measurement otherwise; a fresh one is stored
    where nothing was. -/
theorem settleEvidence_ok {used : HoldoutEvidence × Bool} {db' : Database}
    (hstored : input.stored = db.getHoldoutEvaluation input.genomeHash input.dataset.datasetId
      input.dataset.version)
    (h : settleEvidence p db input = .ok (used, db')) :
    (∃ r, input.stored = some r ∧ db' = db ∧
        r.evidence.baselineHash = input.baselineHash p ∧ used.1 = r.evidence) ∨
      (∃ r, input.stored = some r ∧ db' = db ∧
        r.evidence.baselineHash ≠ input.baselineHash p ∧ input.measure p = .ok used.1) ∨
      (input.stored = none ∧ input.measure p = .ok used.1 ∧
        db' = { db with holdouts := db.holdouts ++ [input.row used.1] }) := by
  unfold settleEvidence at h
  obtain ⟨planned, hplan, h⟩ := bind_eq_ok.mp h
  rcases plan_ok hplan with ⟨r, hr, hbase, rfl⟩ | ⟨r, evidence, hr, hbase, hmeasure, rfl⟩ |
    ⟨hnone, evidence, hmeasure, rfl⟩
  · rw [pure_eq_ok] at h
    obtain ⟨rfl, rfl⟩ := Prod.mk.inj h
    exact .inl ⟨r, hr, rfl, hbase, rfl⟩
  · rw [pure_eq_ok] at h
    obtain ⟨rfl, rfl⟩ := Prod.mk.inj h
    exact .inr (.inl ⟨r, hr, rfl, hbase, hmeasure⟩)
  · have hfree : (input.row evidence).key ∉ db.holdouts.map (·.key) := by
      rw [(measure_ok hmeasure).2]
      exact getHoldoutEvaluation_eq_none.mp (hstored ▸ hnone)
    dsimp only at h
    unfold saveHoldoutEvaluation at h
    rw [if_neg hfree] at h
    rw [pure_eq_ok] at h
    obtain ⟨rfl, rfl⟩ := Prod.mk.inj h
    exact .inr (.inr ⟨hnone, hmeasure, rfl⟩)

/-- The parts of an uninterrupted review. -/
theorem reviewPromotion_ok {now : ℕ} {review : PromotionReview} {db' : Database}
    (h : reviewPromotion p db experimentId genomeHash now = .ok (review, db')) :
    ∃ input used settled, reviewLookup db experimentId genomeHash = .ok input ∧
      settleEvidence p db input = .ok (used, settled) ∧ review.evidence = used.1 ∧
      db' = conclude settled input used.1 now := by
  unfold reviewPromotion at h
  obtain ⟨input, hinput, h⟩ := bind_eq_ok.mp h
  obtain ⟨⟨used, settled⟩, hsettled, h⟩ := bind_eq_ok.mp h
  rw [pure_eq_ok] at h
  obtain ⟨rfl, rfl⟩ := Prod.mk.inj h
  exact ⟨input, used, settled, hinput, hsettled, rfl, rfl⟩

end Spec

end NeuroForge
