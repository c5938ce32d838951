/-
  Clients of the promotion pipeline at once, query by query.

  Every client is in a phase of at most one transaction. What a transaction reads it reads
  in steps of its own and keeps in its phase; what it writes appears with its commit. Two
  things make clients wait for each other: an application's `production_lock`, held by a
  promotion or a rollback from before its first query until its commit, and an inserted
  measurement, which makes inserts under the same key wait and then fail. A transaction may
  be given up at any step.

  The database row of a genome is read again by `_advance_status` and by the queries of a
  production change once nothing in the session holds it; `advance` and `reload` are these
  reads. Beside the database the state lists, for the statements only, what every committed
  decision was computed from and what every promotion had read.
-/
import NeuroForge.Lib.Interleaving
import NeuroForge.Service.Requests

namespace NeuroForge

open Fallible Database Interleaving

/-! ## Phases -/

/-- A promotion that holds the lock. -/
structure Promoting where
  genome : GenomeRecord
  experimentId : Option String
  approvedBy : String
  /-- when it took the lock, and what was in production then -/
  started : ℕ
  production : Option String

/-- How far the checks of a promotion have come. -/
inductive PromotionStage where
  | locked
  /-- the latest decision approves -/
  | approved (decision : PromotionRecord)
  /-- there is a canary -/
  | canaried (decision : PromotionRecord)
  /-- `_validated_against` has read a latest decision of its own -/
  | validated (decision : PromotionRecord) (latest : Option PromotionRecord)
      (against : Option String)
  /-- all checks have passed, the statuses are loaded -/
  | ready (decision : PromotionRecord) (latest : Option PromotionRecord)
      (loaded : String → Option PromotionStatus)

inductive Phase where
  | idle
  /-- a review has looked everything up -/
  | reviewing (input : ReviewInput) (planned : ReviewPlan)
  /-- a review has inserted its measurement -/
  | inserted (input : ReviewInput) (evidence : HoldoutEvidence)
  /-- the insert of a review has failed -/
  | conflicted (input : ReviewInput) (evidence : HoldoutEvidence)
  /-- a canary has run -/
  | canarying (input : CanaryInput)
  /-- an experiment is running -/
  | running (input : RunInput)
  | promoting (txn : Promoting) (stage : PromotionStage)
  | rollingBack (systemId approvedBy : String) (current : GenomeRecord)
      (loaded : String → Option PromotionStatus)

/-- The application whose production lock a client holds. -/
def Phase.lockedSystem : Phase → Option String
  | .promoting txn _ => some txn.genome.systemId
  | .rollingBack systemId _ _ _ => some systemId
  | _ => none

/-- The key a client has inserted a measurement under. -/
def Phase.pendingKey : Phase → Option (String × String × ℕ)
  | .inserted input _ => some input.key
  | _ => none

/-! ## The shared state -/

/-- A committed decision, what it was computed from, and its row. -/
structure Decided where
  input : ReviewInput
  evidence : HoldoutEvidence
  record : PromotionRecord

/-- A committed promotion: the decision its first check read, the one the validation read,
    and when it was committed. -/
structure Promoted where
  txn : Promoting
  decision : PromotionRecord
  latest : Option PromotionRecord
  committed : ℕ

structure Service where
  db : Database := {}
  /-- steps taken so far -/
  steps : ℕ := 0
  decided : List Decided := []
  promoted : List Promoted := []

namespace Service

variable (s : Service)

def tick : Service := { s with steps := s.steps + 1 }

def write (db : Database) : Service := { s.tick with db := db }

/-- A review commits: its decision, over the database `db`. -/
def decide (db : Database) (input : ReviewInput) (evidence : HoldoutEvidence) (now : ℕ) :
    Service :=
  { s.write (conclude db input evidence now) with
    decided := s.decided ++ [⟨input, evidence, ⟨db.decisions.length + 1, input.genomeHash,
      some input.experimentId, (input.decision evidence).approved,
      (input.decision evidence).nextStatus, (input.decision evidence).reasons,
      (input.decision evidence).evidence, now⟩⟩] }

/-- A promotion commits. -/
def promote (txn : Promoting) (decision : PromotionRecord) (latest : Option PromotionRecord)
    (loaded : String → Option PromotionStatus) (now : ℕ) : Service :=
  { s.write (commitPromotion s.db loaded txn.genome txn.experimentId txn.approvedBy now).2 with
    promoted := s.promoted ++ [⟨txn, decision, latest, s.steps⟩] }

end Service

/-- The service and its `n` clients. -/
abbrev Clients (n : ℕ) := System (Fin n) Service Phase

/-- Nobody has sent a request yet. -/
def Clients.start (n : ℕ) : Clients n := ⟨{}, fun _ => .idle⟩

/-! ## Steps -/

inductive Action where
  | create (body : ExperimentCreateRequest)
  | saveDataset (dataset : DatasetVersion)
  | startRun (experimentId : String) (checkpoint : Option ExperimentCheckpoint)
  | endRun (answer : Except String ExperimentResult)
  /-- the queries of a review -/
  | review (experimentId genomeHash : String)
  /-- `save_holdout_evaluation` in its savepoint -/
  | insert
  /-- the query of a review whose insert failed -/
  | lookupWinner
  /-- the queries of a canary -/
  | canary (body : CanaryRequest)
  /-- the query of `_advance_status` -/
  | advance
  | promote (genomeHash : String) (experimentId : Option String) (approvedBy : String)
  /-- the next check of a promotion -/
  | check
  | rollback (systemId approvedBy : String)
  /-- a production change reads a genome's row again -/
  | reload (hash : String)
  | commit (now : ℕ)
  | abort

/-- The status a review's `_advance_status` finds. -/
def ReviewInput.refresh (input : ReviewInput) (db : Database) : ReviewInput :=
  { input with candidate := { input.candidate with
      status := (db.statusOf input.genomeHash).getD input.candidate.status } }

/-- The status a canary's `_advance_status` finds. -/
def CanaryInput.refresh (digest : GenomeDigest) (input : CanaryInput) (db : Database) :
    CanaryInput :=
  { input with candidate := { input.candidate with
      status := (db.statusOf (input.candidate.hash digest)).getD input.candidate.status } }

/-- The statuses after one row has been read again. -/
def reloadStatus (db : Database) (loaded : String → Option PromotionStatus) (hash : String) :
    String → Option PromotionStatus :=
  fun h => if h = hash then db.statusOf h else loaded h

/-- Nobody holds the application's lock. -/
abbrev Unlocked {n : ℕ} (s : Clients n) (systemId : String) : Prop :=
  ∀ j, (s.phase j).lockedSystem ≠ some systemId

/-- Nobody has a measurement inserted under the key. -/
abbrev Unclaimed {n : ℕ} (s : Clients n) (key : String × String × ℕ) : Prop :=
  ∀ j, (s.phase j).pendingKey ≠ some key

section Steps

variable (p : Platform) {n : ℕ}

/-- A promotion waits for the lock, reads its genome and makes its first check. -/
def beginPromotion (s : Clients n) (genomeHash : String) (experimentId : Option String)
    (approvedBy : String) : Option (Service × Phase) :=
  let db := s.shared.db
  match loadGenome db genomeHash with
  | .error _ => none
  | .ok genome =>
      match checkNotPromoted genome with
      | .error _ => none
      | .ok () =>
          if Unlocked s genome.systemId then
            some (s.shared.tick, .promoting ⟨genome, experimentId, approvedBy, s.shared.steps,
              productionHash db genome.systemId⟩ .locked)
          else none

/-- The checks of a promotion, one query after the other. -/
def checkPromotion (db : Database) (txn : Promoting) : PromotionStage → Option PromotionStage
  | .locked => ((approvedDecision db txn.genome.hash).toOption).map .approved
  | .approved decision => ((checkCanary db txn.genome.hash).toOption).map fun _ =>
      .canaried decision
  | .canaried decision => some (.validated decision
      (db.latestPromotionDecision txn.genome.hash) (validatedAgainst db txn.genome))
  | .validated decision latest against =>
      ((checkValidated db against txn.genome).toOption).map fun _ => .ready decision latest
        fun h => if h = txn.genome.hash then some txn.genome.status else db.statusOf h
  | .ready _ _ _ => none

/-- What a client in the given phase does. -/
def next (s : Clients n) (i : Fin n) (a : Action) : Option (Service × Phase) :=
  let db := s.shared.db
  match s.phase i, a with
  | .idle, .create body => ((createExperiment p db body).toOption).map fun db' =>
      (s.shared.write db', .idle)
  | .idle, .saveDataset dataset => some (s.shared.write (db.saveDatasetVersion dataset), .idle)
  | .idle, .startRun experimentId checkpoint =>
      match loadRun db experimentId with
      | .error _ => none
      | .ok record =>
          match startRun db record checkpoint with
          | .error _ => some (s.shared.write
              (markExperiment db record.applicationId record.config .failed), .idle)
          | .ok input => some (s.shared.write
              (markExperiment db input.applicationId input.config .running), .running input)
  | .running input, .endRun (.error _) => some (s.shared.write
      (markExperiment db input.applicationId input.config .failed), .idle)
  | .running input, .endRun (.ok result) =>
      if ResultOf input.baseline input.dataset result then
        some (s.shared.write (finishRun p.genomeDigest db input result), .idle)
      else none
  | .idle, .review experimentId genomeHash =>
      match reviewLookup db experimentId genomeHash with
      | .error _ => none
      | .ok input => ((plan p input).toOption).map fun planned =>
          (s.shared.tick, .reviewing input planned)
  | .reviewing input (.store evidence), .insert =>
      match db.saveHoldoutEvaluation (input.row evidence) with
      | none => some (s.shared.tick, .conflicted input evidence)
      | some _ =>
          if Unclaimed s input.key then some (s.shared.tick, .inserted input evidence) else none
  | .conflicted input evidence, .lookupWinner =>
      ((afterConflict p db input evidence).toOption).map fun used =>
        (s.shared.tick, .reviewing input (.settled used.1 used.2))
  | .reviewing input (.settled evidence reused), .advance =>
      some (s.shared.tick, .reviewing (input.refresh db) (.settled evidence reused))
  | .inserted input evidence, .advance =>
      some (s.shared.tick, .inserted (input.refresh db) evidence)
  | .reviewing input (.settled evidence _), .commit now =>
      some (s.shared.decide db input evidence now, .idle)
  | .inserted input evidence, .commit now =>
      (db.saveHoldoutEvaluation (input.row evidence)).map fun stored =>
        (s.shared.decide stored input evidence now, .idle)
  | .idle, .canary body => ((canaryLookup db body).toOption).map fun input =>
      (s.shared.tick, .canarying input)
  | .canarying input, .advance =>
      some (s.shared.tick, .canarying (input.refresh p.genomeDigest db))
  | .canarying input, .commit now =>
      some (s.shared.write (recordCanary p.genomeDigest db input now), .idle)
  | .idle, .promote genomeHash experimentId approvedBy =>
      beginPromotion s genomeHash experimentId approvedBy
  | .promoting txn stage, .check => (checkPromotion db txn stage).map fun stage' =>
      (s.shared.tick, .promoting txn stage')
  | .promoting txn (.ready decision latest loaded), .reload hash =>
      if hash = txn.genome.hash then none
      else some (s.shared.tick,
        .promoting txn (.ready decision latest (reloadStatus db loaded hash)))
  | .promoting txn (.ready decision latest loaded), .commit now =>
      some (s.shared.promote txn decision latest loaded now, .idle)
  | .idle, .rollback systemId approvedBy =>
      match championToRollBack db systemId with
      | .error _ => none
      | .ok current =>
          if Unlocked s systemId then
            some (s.shared.tick, .rollingBack systemId approvedBy current db.statusOf)
          else none
  | .rollingBack systemId approvedBy current loaded, .reload hash =>
      some (s.shared.tick,
        .rollingBack systemId approvedBy current (reloadStatus db loaded hash))
  | .rollingBack systemId approvedBy current loaded, .commit now =>
      some (s.shared.write (commitRollback db loaded systemId current approvedBy now).2, .idle)
  | _, .abort => some (s.shared.tick, .idle)
  | _, _ => none

/-- The steps of all clients. -/
def concurrentStep : Clients n → Fin n × Action → Option (Clients n) :=
  Interleaving.step (next p)

/-! ## What a step can do -/

/-- The steps, one by one: from which phase, on which action, to what. -/
inductive Move (s : Clients n) : Phase → Action → Service → Phase → Prop
  | create {body : ExperimentCreateRequest} {db' : Database}
      (hcreate : createExperiment p s.shared.db body = .ok db') :
      Move s .idle (.create body) (s.shared.write db') .idle
  | saveDataset {dataset : DatasetVersion} :
      Move s .idle (.saveDataset dataset)
        (s.shared.write (s.shared.db.saveDatasetVersion dataset)) .idle
  | failedStart {experimentId : String} {checkpoint : Option ExperimentCheckpoint}
      {record : ExperimentRecord} (hload : loadRun s.shared.db experimentId = .ok record) :
      Move s .idle (.startRun experimentId checkpoint) (s.shared.write
        (markExperiment s.shared.db record.applicationId record.config .failed)) .idle
  | startRun {experimentId : String} {checkpoint : Option ExperimentCheckpoint}
      {record : ExperimentRecord} {input : RunInput}
      (hload : loadRun s.shared.db experimentId = .ok record)
      (hstart : NeuroForge.startRun s.shared.db record checkpoint = .ok input) :
      Move s .idle (.startRun experimentId checkpoint) (s.shared.write
        (markExperiment s.shared.db input.applicationId input.config .running)) (.running input)
  | failedRun {input : RunInput} {message : String} :
      Move s (.running input) (.endRun (.error message)) (s.shared.write
        (markExperiment s.shared.db input.applicationId input.config .failed)) .idle
  | endRun {input : RunInput} {result : ExperimentResult}
      (hresult : ResultOf input.baseline input.dataset result) :
      Move s (.running input) (.endRun (.ok result))
        (s.shared.write (finishRun p.genomeDigest s.shared.db input result)) .idle
  | review {experimentId genomeHash : String} {input : ReviewInput} {planned : ReviewPlan}
      (hlookup : reviewLookup s.shared.db experimentId genomeHash = .ok input)
      (hplan : plan p input = .ok planned) :
      Move s .idle (.review experimentId genomeHash) s.shared.tick (.reviewing input planned)
  | conflict {input : ReviewInput} {evidence : HoldoutEvidence}
      (htaken : s.shared.db.saveHoldoutEvaluation (input.row evidence) = none) :
      Move s (.reviewing input (.store evidence)) .insert s.shared.tick
        (.conflicted input evidence)
  | insert {input : ReviewInput} {evidence : HoldoutEvidence} {stored : Database}
      (hstored : s.shared.db.saveHoldoutEvaluation (input.row evidence) = some stored)
      (hunclaimed : Unclaimed s input.key) :
      Move s (.reviewing input (.store evidence)) .insert s.shared.tick
        (.inserted input evidence)
  | lookupWinner {input : ReviewInput} {evidence : HoldoutEvidence}
      {used : HoldoutEvidence × Bool}
      (hused : afterConflict p s.shared.db input evidence = .ok used) :
      Move s (.conflicted input evidence) .lookupWinner s.shared.tick
        (.reviewing input (.settled used.1 used.2))
  | advanceSettled {input : ReviewInput} {evidence : HoldoutEvidence} {reused : Bool} :
      Move s (.reviewing input (.settled evidence reused)) .advance s.shared.tick
        (.reviewing (input.refresh s.shared.db) (.settled evidence reused))
  | advanceInserted {input : ReviewInput} {evidence : HoldoutEvidence} :
      Move s (.inserted input evidence) .advance s.shared.tick
        (.inserted (input.refresh s.shared.db) evidence)
  | commitSettled {input : ReviewInput} {evidence : HoldoutEvidence} {reused : Bool} {now : ℕ} :
      Move s (.reviewing input (.settled evidence reused)) (.commit now)
        (s.shared.decide s.shared.db input evidence now) .idle
  | commitInserted {input : ReviewInput} {evidence : HoldoutEvidence} {stored : Database}
      {now : ℕ}
      (hstored : s.shared.db.saveHoldoutEvaluation (input.row evidence) = some stored) :
      Move s (.inserted input evidence) (.commit now)
        (s.shared.decide stored input evidence now) .idle
  | canary {body : CanaryRequest} {input : CanaryInput}
      (hlookup : canaryLookup s.shared.db body = .ok input) :
      Move s .idle (.canary body) s.shared.tick (.canarying input)
  | advanceCanary {input : CanaryInput} :
      Move s (.canarying input) .advance s.shared.tick
        (.canarying (input.refresh p.genomeDigest s.shared.db))
  | commitCanary {input : CanaryInput} {now : ℕ} :
      Move s (.canarying input) (.commit now)
        (s.shared.write (recordCanary p.genomeDigest s.shared.db input now)) .idle
  | promote {genomeHash : String} {experimentId : Option String} {approvedBy : String}
      {genome : GenomeRecord} (hgenome : loadGenome s.shared.db genomeHash = .ok genome)
      (hstatus : checkNotPromoted genome = .ok ())
      (hunlocked : Unlocked s genome.systemId) :
      Move s .idle (.promote genomeHash experimentId approvedBy) s.shared.tick
        (.promoting ⟨genome, experimentId, approvedBy, s.shared.steps,
          productionHash s.shared.db genome.systemId⟩ .locked)
  | check {txn : Promoting} {stage stage' : PromotionStage}
      (hcheck : checkPromotion s.shared.db txn stage = some stage') :
      Move s (.promoting txn stage) .check s.shared.tick (.promoting txn stage')
  | reloadPromotion {txn : Promoting} {decision : PromotionRecord}
      {latest : Option PromotionRecord} {loaded : String → Option PromotionStatus}
      {hash : String} :
      Move s (.promoting txn (.ready decision latest loaded)) (.reload hash) s.shared.tick
        (.promoting txn (.ready decision latest (reloadStatus s.shared.db loaded hash)))
  | commitPromotion {txn : Promoting} {decision : PromotionRecord}
      {latest : Option PromotionRecord} {loaded : String → Option PromotionStatus} {now : ℕ} :
      Move s (.promoting txn (.ready decision latest loaded)) (.commit now)
        (s.shared.promote txn decision latest loaded now) .idle
  | rollback {systemId approvedBy : String} {current : GenomeRecord}
      (hcurrent : championToRollBack s.shared.db systemId = .ok current)
      (hunlocked : Unlocked s systemId) :
      Move s .idle (.rollback systemId approvedBy) s.shared.tick
        (.rollingBack systemId approvedBy current s.shared.db.statusOf)
  | reloadRollback {systemId approvedBy : String} {current : GenomeRecord}
      {loaded : String → Option PromotionStatus} {hash : String} :
      Move s (.rollingBack systemId approvedBy current loaded) (.reload hash) s.shared.tick
        (.rollingBack systemId approvedBy current (reloadStatus s.shared.db loaded hash))
  | commitRollback {systemId approvedBy : String} {current : GenomeRecord}
      {loaded : String → Option PromotionStatus} {now : ℕ} :
      Move s (.rollingBack systemId approvedBy current loaded) (.commit now) (s.shared.write
        (commitRollback s.shared.db loaded systemId current approvedBy now).2) .idle
  | abort {phase : Phase} : Move s phase .abort s.shared.tick .idle

theorem beginPromotion_eq_some {s : Clients n} {genomeHash : String}
    {experimentId : Option String} {approvedBy : String} {r : Service × Phase}
    (h : beginPromotion s genomeHash experimentId approvedBy = some r) :
    Move p s .idle (.promote genomeHash experimentId approvedBy) r.1 r.2 := by
  unfold beginPromotion at h
  dsimp only at h
  split at h
  · cases h
  · rename_i genome hgenome
    split at h
    · cases h
    · rename_i hstatus
      split_ifs at h with hunlocked
      rw [← Option.some.inj h]
      exact .promote hgenome hstatus hunlocked

/-- Every step is one of them. -/
theorem move_of_next {s : Clients n} {i : Fin n} {a : Action} {r : Service × Phase}
    (h : next p s i a = some r) : Move p s (s.phase i) a r.1 r.2 := by
  unfold next at h
  dsimp only at h
  generalize s.phase i = phase at h ⊢
  split at h
  · obtain ⟨db', hcreate, rfl⟩ := Option.map_eq_some_iff.mp h
    exact .create (toOption_eq_some.mp hcreate)
  · rw [← Option.some.inj h]
    exact .saveDataset
  · split at h
    · cases h
    · rename_i record hload
      split at h
      · rw [← Option.some.inj h]
        exact .failedStart hload
      · rename_i input hstart
        rw [← Option.some.inj h]
        exact .startRun hload hstart
  · rw [← Option.some.inj h]
    exact .failedRun
  · split_ifs at h with hresult
    rw [← Option.some.inj h]
    exact .endRun hresult
  · split at h
    · cases h
    · rename_i input hlookup
      obtain ⟨planned, hplan, rfl⟩ := Option.map_eq_some_iff.mp h
      exact .review hlookup (toOption_eq_some.mp hplan)
  · split at h
    · rename_i htaken
      rw [← Option.some.inj h]
      exact .conflict htaken
    · rename_i stored hstored
      split_ifs at h with hunclaimed
      rw [← Option.some.inj h]
      exact .insert hstored hunclaimed
  · obtain ⟨used, hused, rfl⟩ := Option.map_eq_some_iff.mp h
    exact .lookupWinner (toOption_eq_some.mp hused)
  · rw [← Option.some.inj h]
    exact .advanceSettled
  · rw [← Option.some.inj h]
    exact .advanceInserted
  · rw [← Option.some.inj h]
    exact .commitSettled
  · obtain ⟨stored, hstored, rfl⟩ := Option.map_eq_some_iff.mp h
    exact .commitInserted hstored
  · obtain ⟨input, hlookup, rfl⟩ := Option.map_eq_some_iff.mp h
    exact .canary (toOption_eq_some.mp hlookup)
  · rw [← Option.some.inj h]
    exact .advanceCanary
  · rw [← Option.some.inj h]
    exact .commitCanary
  · exact beginPromotion_eq_some p h
  · obtain ⟨stage', hcheck, rfl⟩ := Option.map_eq_some_iff.mp h
    exact .check hcheck
  · split_ifs at h
    rw [← Option.some.inj h]
    exact .reloadPromotion
  · rw [← Option.some.inj h]
    exact .commitPromotion
  · split at h
    · cases h
    · rename_i current hcurrent
      split_ifs at h with hunlocked
      rw [← Option.some.inj h]
      exact .rollback hcurrent hunlocked
  · rw [← Option.some.inj h]
    exact .reloadRollback
  · rw [← Option.some.inj h]
    exact .commitRollback
  · rw [← Option.some.inj h]
    exact .abort
  · cases h

end Steps

section Example

/-- The clients of the examples. -/
def c₀ : Fin 2 := 0

def c₁ : Fin 2 := 1

end Example

end NeuroForge
