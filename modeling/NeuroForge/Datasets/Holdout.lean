/-
  `datasets/dataset.py` and `datasets/holdout.py`: dataset versions and the guard around
  the holdout split.

  `searchSet` and `validationSet` filter by split, so what they return is a function of
  the train, respectively validation, challenges alone; `evaluateHoldout` answers once per
  genome and guard.
-/
import NeuroForge.Domains.Base

namespace NeuroForge

structure DatasetVersion where
  datasetId : String
  version : ℕ
  parentVersion : Option ℕ := none
  source : String
  challenges : List Challenge
  difficultyScore : ℚ
  validated : Bool := false
  deriving DecidableEq

/-- The digest behind `DatasetVersion.hash`: of the id, the version and the challenges. -/
abbrev DatasetDigest := String → ℕ → List Challenge → String

def DatasetVersion.hash (digest : DatasetDigest) (d : DatasetVersion) : String :=
  digest d.datasetId d.version d.challenges

/-- The first `random()` of the generator seeded with `"split"`, a seed and a challenge id. -/
abbrev SplitRandom := ℤ → String → ℚ

/-- `deterministic_split`: every challenge gets a split from the seed and its id. -/
def deterministicSplit (random : SplitRandom) (challenges : List Challenge) (seed : ℤ)
    (ratios : ℚ × ℚ × ℚ := (7/10, 3/20, 3/20)) : List Challenge :=
  let (trainR, valR, _) := ratios
  challenges.map fun c =>
    let r := random seed c.challengeId
    { c with
      split := if r < trainR then .train else if r < trainR + valR then .validation else .holdout }

/-- `HoldoutGuard`: the challenges of a version, and the genomes whose holdout was read. -/
structure HoldoutGuard where
  allChallenges : List Challenge
  holdoutAccessedFor : List String := []

namespace HoldoutGuard

def searchSet (g : HoldoutGuard) : List Challenge :=
  g.allChallenges.filter (·.split = .train)

def validationSet (g : HoldoutGuard) : List Challenge :=
  g.allChallenges.filter (·.split = .validation)

/-- The holdout challenges, once for each genome. -/
def evaluateHoldout (g : HoldoutGuard) (genomeHash : String) :
    Except String (List Challenge × HoldoutGuard) :=
  if genomeHash ∈ g.holdoutAccessedFor then
    .error (s!"Holdout set already evaluated for genome {genomeHash}. " ++
      "Re-running holdout evaluation to chase a better number would defeat its purpose.")
  else
    .ok (g.allChallenges.filter (·.split = .holdout),
      { g with holdoutAccessedFor := genomeHash :: g.holdoutAccessedFor })

end HoldoutGuard

end NeuroForge
