/-
  `evaluation/objectives.py` and the field lists of `mutations/policy.py`: how a metric set
  becomes one fitness, and which genome fields a search may touch.
-/
import NeuroForge.Domains.Base
import NeuroForge.Lib.Rounding

namespace NeuroForge

open Rounding

inductive Direction where
  | maximize | minimize
  deriving DecidableEq, Repr

structure Objective where
  direction : Direction
  weight : RatIn 0 1
  deriving DecidableEq

/-- Named objectives whose weights sum to about 1. -/
structure ObjectiveSpec where
  objectives : Dict String Objective
  weightsSumToOne :
    99 / 100 ≤ (objectives.map fun e => (e.2.weight : ℚ)).sum ∧
      (objectives.map fun e => (e.2.weight : ℚ)).sum ≤ 101 / 100

def Objective.validate (direction : Direction) (weight : ℚ) : Except FieldError Objective :=
  if h : 0 ≤ weight ∧ weight ≤ 1 then .ok ⟨direction, weight, h⟩
  else .error ⟨"weight", "input should be between 0 and 1"⟩

/-- `_weights_sum_to_one`. -/
def ObjectiveSpec.validate (objectives : Dict String Objective) :
    Except FieldError ObjectiveSpec :=
  let total := (objectives.map fun e => (e.2.weight : ℚ)).sum
  if h : 99 / 100 ≤ total ∧ total ≤ 101 / 100 then .ok ⟨objectives, h⟩
  else .error ⟨"objectives", s!"objective weights must sum to ~1.0, got {floatText total}"⟩

/-- Metrics that are in `[0, 1]` by themselves. -/
def qualityLike : List String :=
  ["quality", "faithfulness", "task_success", "tool_success", "safety_score",
    "policy_compliance"]

/-- How good one objective's metric is, between 0 and 1. -/
def goodness (metrics normalizers : Dict String ℚ) (name : String) (direction : Direction) :
    ℚ :=
  let raw := Dict.getD metrics name 0
  if name ∈ qualityLike then
    match direction with
    | .maximize => raw
    | .minimize => 1 - raw
  else
    let scale := Dict.getD normalizers name 1
    let resourceUsed := min 1 (raw / if scale = 0 then 1 else scale)
    match direction with
    | .maximize => resourceUsed
    | .minimize => 1 - resourceUsed

/-- The weighted fitness, to 6 decimals. -/
def ObjectiveSpec.score (spec : ObjectiveSpec) (metrics normalizers : Dict String ℚ) : ℚ :=
  let normalizers := if normalizers.isEmpty then
      [("cost_usd", 1 / 20), ("latency_ms", 3000), ("failure_rate", 1)]
    else normalizers
  roundTo 6 ((spec.objectives.map fun e =>
    (e.2.weight : ℚ) * goodness metrics normalizers e.1 e.2.direction).sum)

def defaultObjectives : ObjectiveSpec where
  objectives :=
    [("quality", ⟨.maximize, 1 / 4, by norm_num⟩),
      ("task_success", ⟨.maximize, 1 / 5, by norm_num⟩),
      ("policy_compliance", ⟨.maximize, 1 / 5, by norm_num⟩),
      ("safety_score", ⟨.maximize, 3 / 20, by norm_num⟩),
      ("latency_ms", ⟨.minimize, 1 / 10, by norm_num⟩),
      ("cost_usd", ⟨.minimize, 1 / 20, by norm_num⟩),
      ("failure_rate", ⟨.minimize, 1 / 20, by norm_num⟩)]
  weightsSumToOne := by
    constructor <;> norm_num

def defaultAllowedFields : List String :=
  ["prompt.system_prompt", "prompt.strategy", "prompt.include_examples",
    "prompt.max_instructions", "model.name", "model.temperature", "model.max_tokens",
    "model.reasoning_effort", "retrieval.chunk_size", "retrieval.chunk_overlap",
    "retrieval.top_k", "retrieval.reranker", "retrieval.query_transform", "tools.enabled",
    "tools.selection_policy", "tools.max_tool_calls", "context.compression",
    "context.deduplicate", "context.ordering", "agent.planning_strategy",
    "agent.max_iterations", "agent.stopping_criteria", "output.format"]

def defaultForbiddenFields : List String := ["system_id", "security_policy", "authentication"]

/-- What of `MutationPolicy` a search is held to: its field lists. -/
structure MutationPolicy where
  allowed : List String := defaultAllowedFields
  forbidden : List String := defaultForbiddenFields
  deriving DecidableEq

def MutationPolicy.isAllowed (policy : MutationPolicy) (fieldPath : String) : Bool :=
  decide (fieldPath ∉ policy.forbidden ∧ fieldPath ∈ policy.allowed)

/-- Every field that is allowed by default is a leaf field of the schema. -/
theorem defaultAllowedFields_are_fields :
    ∀ path ∈ defaultAllowedFields, path ∈ Dict.keys fieldPaths := by
  decide

end NeuroForge
