/-
  `optimization/bayesian.py`: a Gaussian process surrogate with expected improvement.

  `ask` ranks a pool of samples by the surrogate; on the state it only draws that pool.
  `replayAsk` makes the same draws without the ranking (`ask_replay`).
-/
import NeuroForge.Optimization.Strategy

namespace NeuroForge

open Fallible

structure BayesianSearchStrategy (ρ : Type) where
  space : SearchSpace
  rng : ρ
  nInitialRandom : ℕ := 4
  candidatePoolSize : ℕ := 200
  noise : ℚ := 1 / 10000
  X : List (List ℚ) := []
  y : List ℚ := []
  points : List Point := []
  roundBest : List ℚ := []

namespace BayesianSearchStrategy

variable {ρ : Type}

def dot (u v : List ℚ) : ℚ := (u.zipWith (· * ·) v).sum

def rbfKernel (rt : Runtime ρ) (x y : List (List ℚ)) (lengthScale : ℚ := 3 / 5) :
    Matrix (Fin x.length) (Fin y.length) ℚ := fun i j =>
  let dist := dot (x.get i) (x.get i) + dot (y.get j) (y.get j) - 2 * dot (x.get i) (y.get j)
  rt.exp (-(1 / 2) * max dist 0 / lengthScale ^ 2)

/-- Mean and deviation of the surrogate at the test points. -/
def posterior (rt : Runtime ρ) (s : BayesianSearchStrategy ρ) (xTest : List (List ℚ)) :
    List (ℚ × ℚ) :=
  let k := rbfKernel rt s.X s.X + s.noise • (1 : Matrix (Fin s.X.length) (Fin s.X.length) ℚ)
  let ks := rbfKernel rt s.X xTest
  let kss := rbfKernel rt xTest xTest
  let kInv := rt.pinv k
  let mu := (ks.transpose * kInv).mulVec fun i => s.y.getD i 0
  let cov := kss - ks.transpose * kInv * ks
  (List.finRange xTest.length).map fun j => (mu j, rt.sqrt (max (cov j j) 0))

/-- Expected improvement over `bestY`. -/
def expectedImprovement (rt : Runtime ρ) (bestY mu std : ℚ) : ℚ :=
  let z := (mu - bestY) / (if 1 / 10 ^ 9 < std then std else 1 / 10 ^ 9)
  if 1 / 10 ^ 9 < std then (mu - bestY) * rt.normCdf z + std * rt.normPdf z else 0

/-- The first `n` distinct points, best first. -/
def firstDistinct (n : ℕ) : List Point → List Point → List Point
  | [], chosen => chosen
  | p :: rest, chosen =>
      if chosen.any (sameKey p) then firstDistinct n rest chosen
      else if n ≤ chosen.length + 1 then chosen ++ [p]
      else firstDistinct n rest (chosen ++ [p])

def fresh (rt : Runtime ρ) (space : SearchSpace) (seed : ℤ) : BayesianSearchStrategy ρ where
  space := space
  rng := rt.rng.seeded seed

def ask (rt : Runtime ρ) (n : ℕ) (s : BayesianSearchStrategy ρ) :
    Except String (List Point × BayesianSearchStrategy ρ) :=
  if s.points.length < s.nInitialRandom then
    let drawn := drawMany (s.space.sample rt.rng) n s.rng
    .ok (drawn.1, { s with rng := drawn.2 })
  else do
    let pool := drawMany (s.space.sample rt.rng) s.candidatePoolSize s.rng
    let bestY ← maxOf s.y
    let encoded ← pool.1.mapM s.space.encode
    let ei := (s.posterior rt encoded).map fun ms => expectedImprovement rt bestY ms.1 ms.2
    let order := (rt.argsort ei).reverse
    return (firstDistinct n (order.filterMap (pool.1[·]?)) [], { s with rng := pool.2 })

def replayAsk (rt : Runtime ρ) (n : ℕ) (s : BayesianSearchStrategy ρ) :
    BayesianSearchStrategy ρ :=
  let draws := if s.points.length < s.nInitialRandom then n else s.candidatePoolSize
  { s with rng := (drawMany (s.space.sample rt.rng) draws s.rng).2 }

def tell (observations : List Observation) (s : BayesianSearchStrategy ρ) :
    Except String (BayesianSearchStrategy ρ) := do
  let encoded ← observations.mapM fun o => s.space.encode o.point
  let best ← bestFitness observations
  return { s with
    X := s.X ++ encoded
    y := s.y ++ observations.map (·.fitness)
    points := s.points ++ observations.map (·.point)
    roundBest := s.roundBest ++ [best] }

def convergence (s : BayesianSearchStrategy ρ) : ConvergenceState :=
  plateauState s.roundBest 5 (3 / 1000) "GP expected-improvement plateaued across rounds"

/-- The cheap replay draws exactly what `ask` drew, whichever of the two branches it took
    and however many points it returned. -/
theorem ask_replay {rt : Runtime ρ} {n : ℕ} {s s' : BayesianSearchStrategy ρ}
    {batch : List Point} (h : s.ask rt n = .ok (batch, s')) :
    s.replayAsk rt batch.length = s' := by
  unfold ask at h
  unfold replayAsk
  by_cases hinit : s.points.length < s.nInitialRandom
  · rw [if_pos hinit] at h
    obtain ⟨hbatch, hs⟩ := Prod.mk.inj (Except.ok.inj h)
    rw [if_pos hinit, ← hbatch, length_drawMany]
    exact hs
  · rw [if_neg hinit] at h
    obtain ⟨bestY, -, h⟩ := bind_eq_ok.mp h
    obtain ⟨encoded, -, h⟩ := bind_eq_ok.mp h
    obtain ⟨-, hs⟩ := Prod.mk.inj (Except.ok.inj h)
    rw [if_neg hinit]
    exact hs

theorem length_firstDistinct (n : ℕ) (points chosen : List Point) :
    (firstDistinct n points chosen).length ≤ max n (chosen.length + 1) := by
  induction points generalizing chosen with
  | nil =>
      unfold firstDistinct
      omega
  | cons p rest ih =>
      unfold firstDistinct
      split_ifs with hknown hlast
      · exact ih chosen
      · rw [List.length_append, List.length_singleton]
        exact le_max_right n _
      · have hrest := ih (chosen ++ [p])
        rw [List.length_append, List.length_singleton] at hrest
        omega

/-- Asked for nothing, the surrogate still proposes its first point. -/
theorem length_ask_le {rt : Runtime ρ} {n : ℕ} {s s' : BayesianSearchStrategy ρ}
    {batch : List Point} (h : s.ask rt n = .ok (batch, s')) : batch.length ≤ max 1 n := by
  unfold ask at h
  by_cases hinit : s.points.length < s.nInitialRandom
  · rw [if_pos hinit] at h
    obtain ⟨hbatch, -⟩ := Prod.mk.inj (Except.ok.inj h)
    rw [← hbatch, length_drawMany]
    exact le_max_right 1 n
  · rw [if_neg hinit] at h
    obtain ⟨bestY, -, h⟩ := bind_eq_ok.mp h
    obtain ⟨encoded, -, h⟩ := bind_eq_ok.mp h
    obtain ⟨hbatch, -⟩ := Prod.mk.inj (Except.ok.inj h)
    rw [← hbatch, max_comm]
    exact length_firstDistinct n _ []

end BayesianSearchStrategy

end NeuroForge
