/-
  `datasets/evolution.py`: seeding a benchmark, and its evolution into harder versions.

  A new version adds challenges to its parent's list (`extend`). Their ids come from the
  caller's seed, so some of them may be taken: `renameTaken` marks these with the number of
  the new version. Only the new challenges are given a split.
-/
import NeuroForge.Datasets.Holdout
import NeuroForge.Lib.Rounding

namespace NeuroForge

def saturationThreshold : ℚ := 9/10

def difficultyStep : ℚ := 9/50

def isSaturated (meanSearchScore : ℚ) (threshold : ℚ := saturationThreshold) : Bool :=
  threshold ≤ meanSearchScore

/-- The id a new challenge gets in version `version` when its own is taken. -/
def versionedId (cid : String) (version : ℕ) : String := s!"{cid}-v{version}"

/-- The loop of `_extend` over the new challenges. -/
def renameTaken (newVersion : ℕ) (taken : List String) : List Challenge → List Challenge
  | [] => []
  | c :: rest =>
      let cid :=
        if c.challengeId ∈ taken then versionedId c.challengeId newVersion else c.challengeId
      { c with challengeId := cid } :: renameTaken newVersion (cid :: taken) rest

/-- The mean difficulty of a version, to four decimals. -/
def meanDifficulty (challenges : List Challenge) : ℚ :=
  Rounding.roundTo 4
    ((challenges.map fun c => c.difficulty.val).sum / (max 1 challenges.length : ℕ))

/-- `_extend`. -/
def extend (random : SplitRandom) (current : DatasetVersion) (newChallenges : List Challenge)
    (seed : ℤ) (source : String) : DatasetVersion :=
  let newVersion := current.version + 1
  let taken := current.challenges.map (·.challengeId)
  let unique := renameTaken newVersion taken newChallenges
  let combined := current.challenges ++ deterministicSplit random unique seed
  { datasetId := current.datasetId
    version := newVersion
    parentVersion := some current.version
    source := source
    challenges := combined
    difficultyScore := meanDifficulty combined
    validated := true }

def evolveIfSaturated (domain : ApplicationDomain) (random : SplitRandom)
    (current : DatasetVersion) (meanSearchScore : ℚ) (nNewChallenges seed : ℤ) :
    Option DatasetVersion :=
  if isSaturated meanSearchScore then
    let lo := min (19/20) (current.difficultyScore + difficultyStep * (1/2))
    let hi := min 1 (current.difficultyScore + difficultyStep)
    let new := (domain.generateCases nNewChallenges (lo, hi) seed).filter domain.validate
    some (extend random current new seed "benchmark_evolution")
  else none

def seedDataset (domain : ApplicationDomain) (random : SplitRandom) (datasetId : String)
    (n seed : ℤ) (difficulty : ℚ × ℚ := (3/20, 9/20)) : Except String DatasetVersion :=
  let valid := (domain.generateCases n difficulty seed).filter domain.validate
  if valid = [] then
    .error s!"no valid challenges could be generated for '{datasetId}' (n={n})"
  else
    let split := deterministicSplit random valid seed
    .ok {
      datasetId := datasetId
      version := 1
      source := "seed"
      challenges := split
      difficultyScore := meanDifficulty split
      validated := true }

/-! ## Challenges for failing categories -/

/-- `str(sorted(set(names)))`, for names without quotes or backslashes. -/
def sortedNames (names : List String) : String :=
  let quoted := (names.dedup.mergeSort fun a b => a ≤ b).map fun name => s!"'{name}'"
  "[" ++ ", ".intercalate quoted ++ "]"

/-- The difficulties asked of failure-driven challenges. -/
def hardRange : ℚ × ℚ := (1/2, 19/20)

/-- The loop of `failure_driven_challenges`: `rounds` more rounds from `round` on. -/
def collectFailing (domain : ApplicationDomain) (wanted : List String) (n seed : ℤ) :
    ℕ → ℕ → List Challenge → Option (List Challenge)
  | 0, _, _ => none
  | rounds + 1, round, found =>
      let batch := domain.generateCases (max (n * 8) 16) hardRange (seed + round)
      let found := found ++ batch.filter fun c => c.category ∈ wanted && domain.validate c
      if n ≤ found.length then some (found.take n.toNat)
      else collectFailing domain wanted n seed rounds (round + 1) found

def failureDrivenChallenges (domain : ApplicationDomain) (failingCategories : List String)
    (n seed : ℤ) : Except String (List Challenge) :=
  if n < 1 then .error "n must be at least 1"
  else if failingCategories = [] then .ok (domain.generateCases n hardRange seed)
  else
    match collectFailing domain failingCategories n seed 50 0 [] with
    | some found => .ok found
    | none =>
        let known := (domain.generateCases 64 hardRange seed).map (·.category)
        .error (s!"could not generate challenges for categories {sortedNames failingCategories};" ++
          s!" the domain has {sortedNames known}")

def evolveFromFailures (domain : ApplicationDomain) (random : SplitRandom)
    (current : DatasetVersion) (failingCategories : List String) (nNew seed : ℤ) :
    Except String DatasetVersion :=
  if failingCategories = [] then
    .error "failing_categories must name at least one category"
  else
    match failureDrivenChallenges domain failingCategories nNew seed with
    | .ok new => .ok (extend random current new seed "failure_driven")
    | .error e => .error e

/-! ## Lineages -/

inductive EvolutionStep where
  | ifSaturated (meanSearchScore : ℚ) (n seed : ℤ)
  | fromFailures (categories : List String) (n seed : ℤ)

/-- The next version, if the step makes one. -/
def evolve (domain : ApplicationDomain) (random : SplitRandom) (current : DatasetVersion) :
    EvolutionStep → Option DatasetVersion
  | .ifSaturated meanSearchScore n seed =>
      evolveIfSaturated domain random current meanSearchScore n seed
  | .fromFailures categories n seed =>
      (evolveFromFailures domain random current categories n seed).toOption

/-- The versions the steps make of `current`, oldest first. -/
def lineage (domain : ApplicationDomain) (random : SplitRandom) (current : DatasetVersion) :
    List EvolutionStep → List DatasetVersion
  | [] => [current]
  | step :: steps =>
      match evolve domain random current step with
      | some next => current :: lineage domain random next steps
      | none => lineage domain random current steps

end NeuroForge
