/-
  `optimization/search_space.py`: the parameter ranges an optimizer may explore.

  A `ParamSpec` carries the bounds check of its validator, so a specification it would
  refuse cannot be built. Sampling never fails; the local moves read a point that may lack
  a name or hold a value of another type, and then raise. A categorical value is what a
  genome field can hold, a scalar or a list of scalars.
-/
import Mathlib.Data.List.Sort
import NeuroForge.Genomes.Schema
import NeuroForge.Lib.Random
import NeuroForge.Lib.Rounding

namespace NeuroForge

open Rounding

/-- `int(x)`: towards zero. -/
def truncInt (q : ℚ) : ℤ := q.num.tdiv q.den

inductive ParamSpec where
  | float (min max : ℚ) (h : min < max)
  | integer (min max : ℚ) (h : min < max)
  | categorical (values : List Value) (h : values ≠ [])
  deriving DecidableEq

namespace ParamSpec

variable {ρ : Type}

def sample (rng : Rng ρ) (spec : ParamSpec) (s : ρ) : Value × ρ :=
  match spec with
  | .float lo hi _ =>
      let (v, s) := rng.uniform lo hi s
      (.float (roundTo 4 v), s)
  | .integer lo hi _ =>
      let (v, s) := rng.randint (truncInt lo) (truncInt hi) s
      (.int v, s)
  | .categorical values h => rng.choice values h s

def gridValues (spec : ParamSpec) (steps : ℕ := 4) : List Value :=
  match spec with
  | .categorical values _ => values
  | .integer lo hi _ =>
      let span := truncInt hi - truncInt lo
      let n := min (steps : ℤ) (span + 1)
      ((((List.range n.toNat).map fun i =>
          truncInt (lo + roundHalfEven (i * span / max 1 (n - 1 : ℤ)))).dedup).insertionSort
        (· ≤ ·)).map .int
  | .float lo hi _ =>
      if steps < 2 then [.float (roundTo 4 ((lo + hi) / 2))]
      else (List.range steps).map fun i =>
        .float (roundTo 4 (lo + i * (hi - lo) / (steps - 1 : ℚ)))

def clamp (spec : ParamSpec) (value : Value) : Except String Value :=
  match spec with
  | .categorical values h =>
      .ok (if values.any (·.pyEq value) then value else values.head h)
  | .float lo hi _ =>
      match value.num? with
      | some q => .ok (.float (roundTo 4 (max lo (min hi q))))
      | none => .error "unsupported operand type"
  | .integer lo hi _ =>
      match value.num? with
      | some q => .ok (.int (roundHalfEven (max lo (min hi q))))
      | none => .error "unsupported operand type"

end ParamSpec

structure SearchSpace where
  parameters : Dict String ParamSpec := []
  nodup : (Dict.keys parameters).Nodup := by decide

/-- `point[name]`. -/
def Point.lookup (point : Point) (name : String) : Except String Value :=
  match Dict.get? point name with
  | some v => .ok v
  | none => .error s!"KeyError: {name}"

/-- `sorted(point.items())` with lists read as tuples: what points are compared by. -/
def hashableKey (point : Point) : List (String × Value) :=
  point.insertionSort fun a b => a.1 ≤ b.1

/-- Equality of two keys. -/
def sameKey (p q : Point) : Bool :=
  (hashableKey p).length == (hashableKey q).length &&
    ((hashableKey p).zip (hashableKey q)).all fun e => e.1.1 == e.2.1 && e.1.2.pyEq e.2.2

namespace SearchSpace

variable {ρ : Type}

def sample (rng : Rng ρ) (space : SearchSpace) (s : ρ) : Point × ρ :=
  mapDraw (fun (e : String × ParamSpec) s =>
    let (v, s) := e.2.sample rng s
    ((e.1, v), s)) space.parameters s

/-- The local move of the evolutionary strategy: one parameter redrawn or shifted. -/
def perturb (rng : Rng ρ) (space : SearchSpace) (point : Point) (s : ρ)
    (strength : ℚ := 1 / 4) : Except String (Point × ρ) :=
  if h : space.parameters = [] then .error "Cannot choose from an empty sequence"
  else
    let (e, s) := rng.choice space.parameters h s
    match e.2 with
    | .categorical values hv =>
        let (v, s) := rng.choice values hv s
        .ok (Dict.set point e.1 v, s)
    | .float lo hi _ | .integer lo hi _ => do
        let (u, s) := rng.uniform (-strength) strength s
        let delta := u * (hi - lo)
        let v ← point.lookup e.1
        match v.num? with
        | none => .error "unsupported operand type"
        | some q =>
            let v' ← e.2.clamp (.float (q + delta))
            return (Dict.set point e.1 v', s)

def crossover (rng : Rng ρ) (space : SearchSpace) (a b : Point) (s : ρ) :
    Except String (Point × ρ) := do
  let (picks, s) := mapDraw (fun name s =>
    let (u, s) := rng.random s
    ((name, decide (u < 1 / 2)), s)) (Dict.keys space.parameters) s
  let point ← picks.mapM fun (e : String × Bool) => do
    let v ← (if e.2 then a else b).lookup e.1
    return (e.1, v)
  return (point, s)

/-- The numeric encoding of a point: numbers scaled to their range, categories one-hot,
    in the order of the sorted names. -/
def encode (space : SearchSpace) (point : Point) : Except String (List ℚ) := do
  let parts ← (space.parameters.insertionSort fun a b => a.1 ≤ b.1).mapM
    fun (e : String × ParamSpec) => do
      let value ← point.lookup e.1
      match e.2 with
      | .categorical values _ => return values.map fun v => if v.pyEq value then 1 else 0
      | .float lo hi _ | .integer lo hi _ =>
          match value.num? with
          | some q => return [(q - lo) / (if hi - lo = 0 then 1 else hi - lo)]
          | none => .error "unsupported operand type"
  return parts.flatten

/-- The number of points of the full grid. -/
def gridSize (space : SearchSpace) (steps : ℕ := 4) : ℕ :=
  (space.parameters.map fun e => (e.2.gridValues steps).length).prod

/-- The grid in the order `itertools.product` walks it: the last parameter fastest. -/
def productGrid (steps : ℕ) : Dict String ParamSpec → List Point
  | [] => [[]]
  | e :: es =>
      (e.2.gridValues steps).flatMap fun v => (productGrid steps es).map ((e.1, v) :: ·)

def iterGrid (space : SearchSpace) (steps : ℕ := 4) : List Point :=
  productGrid steps space.parameters

theorem length_productGrid (steps : ℕ) (ps : Dict String ParamSpec) :
    (productGrid steps ps).length = (ps.map fun e => (e.2.gridValues steps).length).prod := by
  induction ps with
  | nil => rfl
  | cons e es ih =>
      rw [productGrid, List.length_flatMap, List.map_cons, List.prod_cons, ← ih]
      simp

/-- The walk yields as many points as `gridSize` counts. -/
theorem length_iterGrid (space : SearchSpace) (steps : ℕ) :
    (space.iterGrid steps).length = space.gridSize steps :=
  length_productGrid steps space.parameters

end SearchSpace

end NeuroForge
