/-
  `optimization/__init__.py`: the five strategies behind one interface.
-/
import NeuroForge.Optimization.Bayesian

namespace NeuroForge

/-- The keys of `STRATEGY_REGISTRY`. -/
inductive StrategyName where
  | random | grid | evolutionary | bayesian | bandit
  deriving DecidableEq, Repr

instance : Literal StrategyName := ⟨[("random", .random), ("grid", .grid),
  ("evolutionary", .evolutionary), ("bayesian", .bayesian), ("bandit", .bandit)]⟩

/-- A strategy with its state. -/
inductive SearchStrategy (ρ : Type) where
  | random (s : RandomSearchStrategy ρ)
  | grid (s : GridSearchStrategy)
  | evolutionary (s : EvolutionarySearchStrategy ρ)
  | bayesian (s : BayesianSearchStrategy ρ)
  | bandit (s : BanditSearchStrategy ρ)

variable {ρ : Type}

/-- A fresh strategy. The grid takes no seed; only the evolutionary one takes the batch
    size, as its population size. -/
def getStrategy (rt : Runtime ρ) (name : StrategyName) (space : SearchSpace) (seed : ℤ)
    (batchSize : Option ℕ) : SearchStrategy ρ :=
  match name with
  | .random => .random (.fresh rt space seed)
  | .grid => .grid (.fresh space)
  | .evolutionary =>
      match batchSize with
      | some (k + 1) => .evolutionary (.fresh rt space seed (k + 1))
      | _ => .evolutionary (.fresh rt space seed)
  | .bayesian => .bayesian (.fresh rt space seed)
  | .bandit => .bandit (.fresh rt space seed)

/-- `STRATEGY_REGISTRY.get(name)` with the error of an unknown name. -/
def strategyName (name : String) : Except String StrategyName :=
  match Dict.get? (Literal.table (α := StrategyName)) name with
  | some k => .ok k
  | none => .error (s!"Unknown search strategy '{name}'. Known: ['random', 'grid', " ++
      "'evolutionary', 'bayesian', 'bandit']")

namespace SearchStrategy

def ask (rt : Runtime ρ) (n : ℕ) : SearchStrategy ρ →
    Except String (List Point × SearchStrategy ρ)
  | .random s => .ok ((s.ask rt n).1, .random (s.ask rt n).2)
  | .grid s => .ok ((s.ask n).1, .grid (s.ask n).2)
  | .evolutionary s => .ok (s.ask n, .evolutionary s)
  | .bayesian s => do
      let (points, s) ← s.ask rt n
      return (points, .bayesian s)
  | .bandit s => do
      let (points, s) ← s.ask rt n
      return (points, .bandit s)

/-- `replay_ask`: the Bayesian strategy's own, everywhere else `ask` with its points
    dropped. -/
def replayAsk (rt : Runtime ρ) (n : ℕ) : SearchStrategy ρ → Except String (SearchStrategy ρ)
  | .bayesian s => .ok (.bayesian (s.replayAsk rt n))
  | s => do
      let (_, s) ← s.ask rt n
      return s

def tell (rt : Runtime ρ) (observations : List Observation) :
    SearchStrategy ρ → Except String (SearchStrategy ρ)
  | .random s => do return .random (← s.tell observations)
  | .grid s => .ok (.grid (s.tell observations))
  | .evolutionary s => do return .evolutionary (← s.tell rt observations)
  | .bayesian s => do return .bayesian (← s.tell observations)
  | .bandit s => .ok (.bandit (s.tell observations))

def convergence : SearchStrategy ρ → Except String ConvergenceState
  | .random s => .ok s.convergence
  | .grid s => .ok s.convergence
  | .evolutionary s => s.convergence
  | .bayesian s => .ok s.convergence
  | .bandit s => .ok s.convergence

end SearchStrategy

end NeuroForge
