/-
  `experiments/budget.py` and `experiments/checkpoint.py`.

  The tracker's clock is read through `clock`, the seconds since the tracker was made. A
  checkpoint is the whole durable state of a run; `save` replaces it atomically, so a
  crash leaves the last one that was written completely.
-/
import Mathlib.Data.NNRat.Defs
import Mathlib.Order.WithBot
import NeuroForge.Optimization.Strategy

namespace NeuroForge

structure ExperimentBudget where
  maxCandidates : ℕ := 50
  maxRequests : ℕ := 5000
  maxCostUsd : ℚ := 10
  maxDurationMinutes : ℚ := 30
  candidates_pos : 1 ≤ maxCandidates := by decide
  requests_pos : 1 ≤ maxRequests := by decide
  cost_nonneg : 0 ≤ maxCostUsd := by norm_num
  duration_nonneg : 0 ≤ maxDurationMinutes := by norm_num

def ExperimentBudget.defaults : ExperimentBudget := {}

/-- What has been used of a budget, apart from time. -/
structure BudgetUse where
  candidatesUsed : ℕ := 0
  requestsUsed : ℕ := 0
  costUsed : ℚ := 0
  deriving DecidableEq

def BudgetUse.record (u : BudgetUse) (candidates requests : ℕ) (cost : ℚ) : BudgetUse where
  candidatesUsed := u.candidatesUsed + candidates
  requestsUsed := u.requestsUsed + requests
  costUsed := u.costUsed + cost

/-- `BudgetTracker`, with the time used by the runs before this one. -/
structure BudgetTracker where
  use : BudgetUse := {}
  priorElapsedMinutes : ℚ := 0
  deriving DecidableEq

/-- The first of the limits other than time that is reached. -/
def BudgetUse.exhausted (budget : ExperimentBudget) (u : BudgetUse) : Option String :=
  if budget.maxCandidates ≤ u.candidatesUsed then
    some s!"max_candidates ({budget.maxCandidates}) reached"
  else if budget.maxRequests ≤ u.requestsUsed then
    some s!"max_requests ({budget.maxRequests}) reached"
  else if budget.maxCostUsd ≤ u.costUsed then
    some s!"max_cost_usd ({Rounding.floatText budget.maxCostUsd}) reached"
  else none

theorem BudgetUse.exhausted_eq_none {budget : ExperimentBudget} {u : BudgetUse} :
    u.exhausted budget = none ↔ u.candidatesUsed < budget.maxCandidates ∧
      u.requestsUsed < budget.maxRequests ∧ u.costUsed < budget.maxCostUsd := by
  unfold exhausted
  split_ifs with hcandidates hrequests hcost
  · simp [not_lt.mpr hcandidates]
  · simp [not_lt.mpr hrequests]
  · simp [not_lt.mpr hcost]
  · simp only [true_iff]
    exact ⟨not_le.mp hcandidates, not_le.mp hrequests, not_le.mp hcost⟩

namespace BudgetTracker

def elapsedMinutes (t : BudgetTracker) (clock : ℚ≥0) : ℚ :=
  t.priorElapsedMinutes + clock / 60

def exhausted (budget : ExperimentBudget) (t : BudgetTracker) (clock : ℚ≥0) :
    Option String :=
  match t.use.exhausted budget with
  | some reason => some reason
  | none =>
      if budget.maxDurationMinutes ≤ t.elapsedMinutes clock then
        some s!"max_duration_minutes ({Rounding.floatText budget.maxDurationMinutes}) reached"
      else none

def utilization (budget : ExperimentBudget) (t : BudgetTracker) (clock : ℚ≥0) :
    Dict String ℚ :=
  [("candidates", t.use.candidatesUsed / budget.maxCandidates),
    ("requests", t.use.requestsUsed / budget.maxRequests),
    ("cost", if budget.maxCostUsd = 0 then 0 else t.use.costUsed / budget.maxCostUsd),
    ("duration", if budget.maxDurationMinutes = 0 then 0
      else t.elapsedMinutes clock / budget.maxDurationMinutes)]

def toState (t : BudgetTracker) (clock : ℚ≥0) : Dict String ℚ :=
  [("candidates_used", t.use.candidatesUsed), ("requests_used", t.use.requestsUsed),
    ("cost_used", t.use.costUsed), ("elapsed_minutes", t.elapsedMinutes clock)]

def fromState (state : Dict String ℚ) : BudgetTracker where
  use :=
    { candidatesUsed := (truncInt (Dict.getD state "candidates_used" 0)).toNat
      requestsUsed := (truncInt (Dict.getD state "requests_used" 0)).toNat
      costUsed := Dict.getD state "cost_used" 0 }
  priorElapsedMinutes := Dict.getD state "elapsed_minutes" 0

theorem truncInt_natCast (n : ℕ) : (truncInt (n : ℚ)).toNat = n := by
  simp [truncInt]

/-- What is restored from a saved state: the use, and the time used so far. -/
theorem fromState_toState (t : BudgetTracker) (clock : ℚ≥0) :
    fromState (t.toState clock) = ⟨t.use, t.elapsedMinutes clock⟩ := by
  have h1 : Dict.getD (t.toState clock) "candidates_used" 0 = t.use.candidatesUsed := rfl
  have h2 : Dict.getD (t.toState clock) "requests_used" 0 = t.use.requestsUsed := rfl
  have h3 : Dict.getD (t.toState clock) "cost_used" 0 = t.use.costUsed := rfl
  have h4 : Dict.getD (t.toState clock) "elapsed_minutes" 0 = t.elapsedMinutes clock := rfl
  unfold fromState
  rw [h1, h2, h3, h4, truncInt_natCast, truncInt_natCast]

/-- A run that has used nothing yet. -/
theorem fromState_nil : fromState [] = {} := by
  decide

theorem exhausted_eq_none {budget : ExperimentBudget} {t : BudgetTracker} {clock : ℚ≥0}
    (h : t.exhausted budget clock = none) : t.use.exhausted budget = none := by
  unfold exhausted at h
  split at h
  · cases h
  · assumption

/-- Under the time limit only the other limits can be reached. -/
theorem exhausted_of_elapsed_lt {budget : ExperimentBudget} {t : BudgetTracker} {clock : ℚ≥0}
    (h : t.elapsedMinutes clock < budget.maxDurationMinutes) :
    t.exhausted budget clock = t.use.exhausted budget := by
  unfold exhausted
  cases t.use.exhausted budget with
  | some reason => rfl
  | none => exact if_neg (not_le.mpr h)

end BudgetTracker

/-! ## Checkpoints -/

inductive RunStatus where
  | running | completed | cancelled
  deriving DecidableEq, Repr

structure TellBatch where
  points : List Point
  fitness : List ℚ
  deriving DecidableEq

/-- The observations of a batch; `zip(.., strict=True)`. -/
def TellBatch.observations (b : TellBatch) : Except String (List Observation) :=
  if b.points.length = b.fitness.length then
    .ok ((b.points.zip b.fitness).map fun e => ⟨e.1, e.2⟩)
  else .error "zip() argument 2 has a different length than argument 1"

structure ExperimentCheckpoint where
  experimentId : String
  strategyName : String
  seed : ℤ
  status : RunStatus := .running
  stopReason : String := ""
  budgetState : Dict String ℚ := []
  tellBatches : List TellBatch := []
  bestGenome : Option SystemGenome := none
  bestFitness : WithBot ℚ := ⊥
  bestFeasible : Bool := false
  datasetVersionHash : String := ""
  datasetVersion : ℕ := 0
  deriving DecidableEq

namespace ExperimentCheckpoint

def generationsCompleted (c : ExperimentCheckpoint) : ℕ := c.tellBatches.length

def candidatesCompleted (c : ExperimentCheckpoint) : ℕ :=
  (c.tellBatches.map (·.points.length)).sum

/-- The counter of the budget agrees with the rounds. -/
def Tallies (c : ExperimentCheckpoint) : Prop :=
  Dict.getD c.budgetState "candidates_used" 0 = c.candidatesCompleted

theorem Tallies.candidatesUsed {c : ExperimentCheckpoint} (h : c.Tallies) :
    (BudgetTracker.fromState c.budgetState).use.candidatesUsed = c.candidatesCompleted := by
  unfold BudgetTracker.fromState
  dsimp only
  rw [h, BudgetTracker.truncInt_natCast]

end ExperimentCheckpoint

end NeuroForge
