/-
  `domains/base.py`: challenges, per-challenge results, and what an evaluation is.

  To an evaluation, a domain and a provider are only an `Evaluator`: the result of running a
  genome's configuration on a challenge. The built-in domains are deterministic functions of
  these two, seeded by their hashes; version, lineage and status play no part. To the
  benchmark, a domain is a generator of challenges.
-/
import NeuroForge.Genomes.Schema

namespace NeuroForge

/-- Where a challenge is used. -/
inductive Split where
  | train | validation | holdout
  deriving DecidableEq, Repr

structure Challenge where
  challengeId : String
  category : String
  difficulty : RatIn 0 1
  input : String
  expectedBehavior : String
  evaluationRules : List String := []
  split : Split := .train
  deriving DecidableEq

structure EvaluationResult where
  challengeId : String
  genomeHash : String
  metrics : Dict String ℚ
  costUsd : ℚ
  latencyMs : ℚ
  failed : Bool
  notes : String := ""
  deriving DecidableEq

/-- `domain.evaluate(genome, challenge, provider)` for one domain and provider. -/
abbrev Evaluator := GenomeContent → Challenge → EvaluationResult

/-- What the benchmark uses of an `ApplicationDomain`: `generate_cases(n, difficulty_range,
    seed)` and `validate`. -/
structure ApplicationDomain where
  generateCases : ℤ → ℚ × ℚ → ℤ → List Challenge
  validate : Challenge → Bool

end NeuroForge
