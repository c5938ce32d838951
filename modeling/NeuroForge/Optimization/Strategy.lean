/-
  `optimization/strategy.py` and four of the five strategies: random, grid, evolutionary
  and bandit search. Each is a state with `ask`, `tell` and `convergence`; what the source
  raises is an `Except` error. What comes from the Python runtime and from numpy and scipy
  is the record `Runtime`.
-/
import Mathlib.Data.List.MinMax
import Mathlib.Data.Matrix.Mul
import Mathlib.Algebra.Order.Ring.WithTop
import NeuroForge.Lib.Fallible
import NeuroForge.Optimization.SearchSpace

namespace NeuroForge

open Fallible

/-- The random generator and the numerical functions the strategies call. -/
structure Runtime (ρ : Type) where
  rng : Rng ρ
  sqrt : ℚ → ℚ
  log : ℚ → ℚ
  exp : ℚ → ℚ
  normCdf : ℚ → ℚ
  normPdf : ℚ → ℚ
  pinv : {n : ℕ} → Matrix (Fin n) (Fin n) ℚ → Matrix (Fin n) (Fin n) ℚ
  argsort : List ℚ → List ℕ

structure Observation where
  point : Point
  fitness : ℚ
  deriving DecidableEq

structure ConvergenceState where
  converged : Bool := false
  reason : String := ""
  bestFitnessHistory : List ℚ := []
  deriving DecidableEq

/-- `max(xs)`. -/
def maxOf (xs : List ℚ) : Except String ℚ :=
  match xs.max? with
  | some q => .ok q
  | none => .error "max() iterable argument is empty"

/-- Whether the best of the last `patience` values is less than `minDelta` above the best
    of the earlier ones. -/
def detectPlateau (history : List ℚ) (patience : ℕ := 3) (minDelta : ℚ := 1 / 200) : Bool :=
  if history.length < patience + 1 then false
  else
    match (history.drop (history.length - patience)).max?,
        (history.take (history.length - patience)).max? with
    | some recentBest, some priorBest => decide (recentBest - priorBest < minDelta)
    | _, _ => false

/-- `ConvergenceState` of a strategy that watches its best value per round. -/
def plateauState (history : List ℚ) (patience : ℕ) (minDelta : ℚ) (reason : String) :
    ConvergenceState :=
  let converged := detectPlateau history patience minDelta
  { converged := converged
    reason := if converged then reason else ""
    bestFitnessHistory := history }

/-- `max(o.fitness for o in observations)`. -/
def bestFitness (observations : List Observation) : Except String ℚ :=
  maxOf (observations.map (·.fitness))

variable {ρ : Type}

/-! ## Random search -/

structure RandomSearchStrategy (ρ : Type) where
  space : SearchSpace
  rng : ρ
  roundBest : List ℚ := []

namespace RandomSearchStrategy

def fresh (rt : Runtime ρ) (space : SearchSpace) (seed : ℤ) : RandomSearchStrategy ρ where
  space := space
  rng := rt.rng.seeded seed

def ask (rt : Runtime ρ) (n : ℕ) (s : RandomSearchStrategy ρ) :
    List Point × RandomSearchStrategy ρ :=
  let drawn := drawMany (s.space.sample rt.rng) n s.rng
  (drawn.1, { s with rng := drawn.2 })

def tell (observations : List Observation) (s : RandomSearchStrategy ρ) :
    Except String (RandomSearchStrategy ρ) := do
  let best ← bestFitness observations
  return { s with roundBest := s.roundBest ++ [best] }

def convergence (s : RandomSearchStrategy ρ) : ConvergenceState :=
  plateauState s.roundBest 3 (1 / 200) "fitness plateau detected across rounds"

end RandomSearchStrategy

/-! ## Grid search -/

/-- The walk over the grid: `points` is what the generator has yet to yield. -/
structure GridSearchStrategy where
  space : SearchSpace
  total : ℕ
  points : List Point
  cursor : ℕ := 0
  history : List ℚ := []

namespace GridSearchStrategy

def fresh (space : SearchSpace) (steps : ℕ := 4) : GridSearchStrategy where
  space := space
  total := space.gridSize steps
  points := space.iterGrid steps

def ask (n : ℕ) (s : GridSearchStrategy) : List Point × GridSearchStrategy :=
  let batch := s.points.take n
  (batch, { s with points := s.points.drop n, cursor := s.cursor + batch.length })

def tell (observations : List Observation) (s : GridSearchStrategy) : GridSearchStrategy :=
  { s with history := s.history ++ observations.map (·.fitness) }

def exhausted (s : GridSearchStrategy) : Bool := decide (s.total ≤ s.cursor)

def convergence (s : GridSearchStrategy) : ConvergenceState where
  converged := s.exhausted
  reason := if s.exhausted then "search space exhausted" else ""
  bestFitnessHistory := s.history

end GridSearchStrategy

/-! ## Evolutionary search -/

structure Generation where
  index : ℕ
  population : List Point
  fitness : List ℚ

/-- The fitness of the best individual. -/
def Generation.bestFitness (g : Generation) : Except String ℚ := maxOf g.fitness

structure EvolutionarySearchStrategy (ρ : Type) where
  space : SearchSpace
  populationSize : ℕ := 12
  eliteFraction : ℚ := 1 / 5
  mutationRate : ℚ := 3 / 10
  crossoverRate : ℚ := 1 / 2
  generations : List Generation := []
  rng : ρ
  pending : List Point
  currentGenIndex : ℕ := 0

namespace EvolutionarySearchStrategy

def fresh (rt : Runtime ρ) (space : SearchSpace) (seed : ℤ) (populationSize : ℕ := 12) :
    EvolutionarySearchStrategy ρ :=
  let (pending, rng) := drawMany (space.sample rt.rng) populationSize (rt.rng.seeded seed)
  { space := space, populationSize := populationSize, rng := rng, pending := pending }

def ask (n : ℕ) (s : EvolutionarySearchStrategy ρ) : List Point := s.pending.take n

def tournamentSelect (rt : Runtime ρ) (ranked : List (Point × ℚ)) (rng : ρ) (k : ℕ := 3) :
    Except String (Point × ρ) :=
  let (contenders, rng) := rt.rng.sample ranked k rng
  match contenders.argmax Prod.snd with
  | some pf => .ok (pf.1, rng)
  | none => .error "max() iterable argument is empty"

/-- One child of the next population. -/
def nextChild (rt : Runtime ρ) (s : EvolutionarySearchStrategy ρ)
    (ranked : List (Point × ℚ)) (rng : ρ) : Except String (Point × ρ) := do
  let (parentA, rng) ← tournamentSelect rt ranked rng
  let (parentB, rng) ← tournamentSelect rt ranked rng
  let (u, rng) := rt.rng.random rng
  let (child, rng) ←
    if u < s.crossoverRate then s.space.crossover rt.rng parentA parentB rng
    else .ok (parentA, rng)
  let (u, rng) := rt.rng.random rng
  if u < s.mutationRate then s.space.perturb rt.rng child rng
  else .ok (child, rng)

/-- The `while` loop of `tell`: `count` more children. -/
def breed (rt : Runtime ρ) (s : EvolutionarySearchStrategy ρ) (ranked : List (Point × ℚ)) :
    ℕ → List Point → ρ → Except String (List Point × ρ)
  | 0, nextPop, rng => .ok (nextPop, rng)
  | count + 1, nextPop, rng => do
      let (child, rng) ← nextChild rt s ranked rng
      breed rt s ranked count (nextPop ++ [child]) rng

def tell (rt : Runtime ρ) (observations : List Observation)
    (s : EvolutionarySearchStrategy ρ) : Except String (EvolutionarySearchStrategy ρ) := do
  let population := observations.map (·.point)
  let fitness := observations.map (·.fitness)
  let gen : Generation := ⟨s.currentGenIndex, population, fitness⟩
  -- `sorted(.., reverse=True)` keeps the order of equal fitness, as this insertion sort does
  let ranked := (population.zip fitness).insertionSort fun a b => b.2 ≤ a.2
  let nElite := max 1 (truncInt (ranked.length * s.eliteFraction)).toNat
  let elite := (ranked.take nElite).map Prod.fst
  let (nextPop, rng) ← breed rt s ranked (s.populationSize - elite.length) elite s.rng
  return { s with
    generations := s.generations ++ [gen]
    currentGenIndex := s.currentGenIndex + 1
    rng := rng
    pending := nextPop }

def convergence (s : EvolutionarySearchStrategy ρ) : Except String ConvergenceState := do
  let history ← s.generations.mapM Generation.bestFitness
  return plateauState history 3 (1 / 200) "fitness plateaued across generations"

end EvolutionarySearchStrategy

/-! ## Bandit search -/

structure BanditSearchStrategy (ρ : Type) where
  space : SearchSpace
  rng : ρ
  arms : List Point
  pulls : List ℕ
  rewardSum : List ℚ
  totalPulls : ℕ := 0
  roundBest : List ℚ := []
  lastBatch : List ℕ := []

namespace BanditSearchStrategy

/-- `_build_arms`: at most `attempts` samples, until `nArms` distinct points are there. -/
def buildArms (rt : Runtime ρ) (space : SearchSpace) (nArms : ℕ) :
    ℕ → List Point → ρ → List Point × ρ
  | 0, arms, rng => (arms, rng)
  | attempts + 1, arms, rng =>
      if arms.length < nArms then
        let (point, rng) := space.sample rt.rng rng
        buildArms rt space nArms attempts
          (if arms.any (sameKey point) then arms else arms ++ [point]) rng
      else (arms, rng)

def fresh (rt : Runtime ρ) (space : SearchSpace) (seed : ℤ) (nArms : ℕ := 24) :
    BanditSearchStrategy ρ :=
  let (arms, rng) := buildArms rt space nArms (nArms * 50) [] (rt.rng.seeded seed)
  { space := space, rng := rng, arms := arms
    pulls := List.replicate arms.length 0
    rewardSum := List.replicate arms.length 0 }

def ucbScore (rt : Runtime ρ) (s : BanditSearchStrategy ρ) (idx : ℕ) : WithTop ℚ :=
  let pulls := s.pulls.getD idx 0
  if pulls = 0 then ⊤
  else
    let mean := s.rewardSum.getD idx 0 / pulls
    let bonus := rt.sqrt (2 * rt.log (max 1 s.totalPulls) / pulls)
    ((mean + bonus : ℚ) : WithTop ℚ)

/-- The arm one pull chooses, and the pull reserved for it. -/
def pull (rt : Runtime ρ) (s : BanditSearchStrategy ρ) :
    Except String (ℕ × BanditSearchStrategy ρ) :=
  let unplayed := (List.range s.arms.length).filter fun i => s.pulls.getD i 0 = 0
  let reserve (idx : ℕ) (rng : ρ) : BanditSearchStrategy ρ :=
    { s with rng := rng, pulls := s.pulls.set idx (s.pulls.getD idx 0 + 1) }
  if h : unplayed ≠ [] then
    let (idx, rng) := rt.rng.choice unplayed h s.rng
    .ok (idx, reserve idx rng)
  else
    match (List.range s.arms.length).argmax (s.ucbScore rt) with
    | some idx => .ok (idx, reserve idx s.rng)
    | none => .error "max() iterable argument is empty"

/-- The loop of `ask`. -/
def pullMany (rt : Runtime ρ) : ℕ → BanditSearchStrategy ρ →
    Except String (List ℕ × BanditSearchStrategy ρ)
  | 0, s => .ok ([], s)
  | n + 1, s => do
      let (idx, s) ← s.pull rt
      let (idxs, s) ← pullMany rt n s
      return (idx :: idxs, s)

def ask (rt : Runtime ρ) (n : ℕ) (s : BanditSearchStrategy ρ) :
    Except String (List Point × BanditSearchStrategy ρ) := do
  let (chosenIdxs, s) ← pullMany rt n s
  return (chosenIdxs.map fun i => s.arms.getD i [], { s with lastBatch := chosenIdxs })

def tell (observations : List Observation) (s : BanditSearchStrategy ρ) :
    BanditSearchStrategy ρ :=
  let s := (observations.zip s.lastBatch).foldl (fun s (e : Observation × ℕ) =>
    { s with
      rewardSum := s.rewardSum.set e.2 (s.rewardSum.getD e.2 0 + e.1.fitness)
      totalPulls := s.totalPulls + 1 }) s
  match (observations.map (·.fitness)).max? with
  | some best => { s with roundBest := s.roundBest ++ [best] }
  | none => s

def convergence (s : BanditSearchStrategy ρ) : ConvergenceState :=
  plateauState s.roundBest 5 (3 / 1000) "reward plateaued across rounds"

theorem length_pullMany {rt : Runtime ρ} {n : ℕ} {s s' : BanditSearchStrategy ρ}
    {idxs : List ℕ} (h : pullMany rt n s = .ok (idxs, s')) : idxs.length = n := by
  induction n generalizing s idxs with
  | zero =>
      cases h
      rfl
  | succ n ih =>
      obtain ⟨⟨idx, s1⟩, -, h⟩ := bind_eq_ok.mp h
      obtain ⟨⟨rest, s2⟩, hrest, h⟩ := bind_eq_ok.mp h
      cases h
      rw [List.length_cons, ih hrest]

/-- `ask(n)` returns `n` points: every round plays `n` arms. -/
theorem length_ask {rt : Runtime ρ} {n : ℕ} {s s' : BanditSearchStrategy ρ}
    {batch : List Point} (h : s.ask rt n = .ok (batch, s')) : batch.length = n := by
  obtain ⟨⟨idxs, s1⟩, hidxs, h⟩ := bind_eq_ok.mp h
  cases h
  rw [List.length_map, length_pullMany hidxs]

end BanditSearchStrategy

end NeuroForge
