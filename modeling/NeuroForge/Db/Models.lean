/-
  `db/models.py`: the tables the promotion pipeline reads and writes.

  A table is the list of its rows in the order they were inserted. Ids and times are
  natural numbers; a time is whatever clock the writer read. The relational columns of a
  genome other than its status are those of its stored data.
-/
import NeuroForge.Experiments.Engine

namespace NeuroForge

structure ApplicationRecord where
  id : String
  name : String
  domainName : String
  deriving DecidableEq

structure GenomeRecord where
  hash : String
  status : PromotionStatus
  data : SystemGenome
  deriving DecidableEq

def GenomeRecord.systemId (r : GenomeRecord) : String := r.data.systemId

def GenomeRecord.version (r : GenomeRecord) : ℕ := r.data.version

/-- The row without its status. -/
def GenomeRecord.eraseStatus (r : GenomeRecord) : GenomeRecord := { r with status := .generated }

/-- The states of an experiment row. -/
inductive ExperimentStatus where
  | created | queued | running | failed | completed | cancelled
  deriving DecidableEq, Repr

structure ExperimentRecord where
  experimentId : String
  applicationId : String
  status : ExperimentStatus
  config : ExperimentConfig
  result : Option ExperimentResult := none

structure PromotionRecord where
  id : ℕ
  genomeHash : String
  experimentId : Option String
  approved : Bool
  nextStatus : PromotionStatus
  reasons : List String
  evidence : List String
  createdAt : ℕ
  deriving DecidableEq

structure HoldoutEvaluationRecord where
  genomeHash : String
  experimentId : Option String
  datasetId : String
  datasetVersion : ℕ
  evidence : HoldoutEvidence

/-- What `uq_holdout_once` is unique in. -/
def HoldoutEvaluationRecord.key (r : HoldoutEvaluationRecord) : String × String × ℕ :=
  (r.genomeHash, r.datasetId, r.datasetVersion)

inductive ApprovalAction where
  | promote | rollback
  deriving DecidableEq, Repr

/-- One production change. A row without an action is from before the column existed. -/
structure PromotionApprovalRecord where
  id : ℕ
  genomeHash : String
  experimentId : Option String
  approvedBy : String
  action : Option ApprovalAction := some .promote
  createdAt : ℕ
  deriving DecidableEq

structure CanaryRecord where
  id : ℕ
  baselineHash : String
  candidateHash : String
  trafficSplit : ℚ
  rollbackTriggered : Bool
  createdAt : ℕ
  deriving DecidableEq

structure Database where
  applications : List ApplicationRecord := []
  genomes : List GenomeRecord := []
  datasets : List DatasetVersion := []
  experiments : List ExperimentRecord := []
  decisions : List PromotionRecord := []
  holdouts : List HoldoutEvaluationRecord := []
  approvals : List PromotionApprovalRecord := []
  canaries : List CanaryRecord := []

end NeuroForge
