/-
  `evaluation/judges.py`: an ensemble of judges, and its flag for disagreement.

  The judges' biases and noises keep their scores within 0.16 of each other, clamped or not,
  and a sample that narrow has a standard deviation of at most half of that, which is the
  threshold: no result is ever flagged as uncertain (`never_uncertain`).
-/
import NeuroForge.Domains.Provider
import NeuroForge.Domains.Base

namespace NeuroForge

open Bounded Rounding Sample

variable {ρ : Type}

/-- The bias and the scale of the noise of each judge. -/
def judgeProfiles : Dict String (ℚ × ℚ) :=
  [("deterministic_evaluator", (0, 0)), ("reference_evaluator", (1 / 100, 1 / 50)),
    ("llm_judge_a", (-1 / 50, 1 / 20)), ("llm_judge_b", (3 / 100, 3 / 50)),
    ("embedding_evaluator", (-1 / 100, 3 / 100))]

/-- The deviation above which the judges disagree. -/
def agreementUncertaintyThreshold : ℚ := 2 / 25

structure JudgeEnsembleResult where
  challengeId : String
  genomeHash : String
  perJudgeScores : Dict String ℚ
  meanScore : ℚ
  stdev : ℚ
  uncertain : Bool
  deriving DecidableEq

/-- What one judge makes of the score. -/
def judgeScore (r : StableRandom ρ) (result : EvaluationResult) (base : ℚ)
    (judge : String × ℚ × ℚ) : ℚ :=
  let noise := (r.stableUnitInterval [.str judge.1, .str result.genomeHash,
    .str result.challengeId] - 1 / 2) * 2 * judge.2.2
  clamp 0 1 (base + judge.2.1 + noise)

def judgeScores (r : StableRandom ρ) (result : EvaluationResult) (base : ℚ) : Dict String ℚ :=
  judgeProfiles.map fun judge => (judge.1, judgeScore r result base judge)

/-- `sqrt` is the square root that `variance**0.5` takes. -/
def evaluateWithEnsemble (r : StableRandom ρ) (sqrt : ℚ → ℚ) (result : EvaluationResult) :
    JudgeEnsembleResult :=
  let scores := judgeScores r result (Dict.getD result.metrics "quality" 0)
  let values := scores.map Prod.snd
  let stdev := sqrt (variance values)
  { challengeId := result.challengeId
    genomeHash := result.genomeHash
    perJudgeScores := scores.map fun e => (e.1, roundTo 4 e.2)
    meanScore := roundTo 4 (mean values)
    stdev := roundTo 4 stdev
    uncertain := decide (agreementUncertaintyThreshold < stdev) }

/-- Every judge is at most 0.07 below the base and 0.09 above it. -/
theorem judgeProfiles_between : ∀ judge ∈ judgeProfiles,
    0 ≤ judge.2.2 ∧ -7 / 100 ≤ judge.2.1 - judge.2.2 ∧ judge.2.1 + judge.2.2 ≤ 9 / 100 := by
  decide +kernel

theorem judgeScore_between (r : StableRandom ρ) (result : EvaluationResult) (base : ℚ)
    {judge : String × ℚ × ℚ} (h : judge ∈ judgeProfiles) :
    clamp 0 1 (base - 7 / 100) ≤ judgeScore r result base judge ∧
      judgeScore r result base judge ≤ clamp 0 1 (base + 9 / 100) := by
  obtain ⟨hscale, hlo, hhi⟩ := judgeProfiles_between judge h
  obtain ⟨h0, h1⟩ := r.stableUnitInterval_between [.str judge.1, .str result.genomeHash,
    .str result.challengeId]
  generalize hu : r.stableUnitInterval [.str judge.1, .str result.genomeHash,
    .str result.challengeId] = u at h0 h1
  have hscore : judgeScore r result base judge =
      clamp 0 1 (base + judge.2.1 + (u - 1 / 2) * 2 * judge.2.2) := by
    rw [judgeScore, hu]
  have hnoise : 0 ≤ u * judge.2.2 := mul_nonneg h0 hscale
  have hnoise' : u * judge.2.2 ≤ judge.2.2 := by
    linarith [mul_le_mul_of_nonneg_right h1.le hscale]
  rw [hscore]
  exact ⟨clamp_mono (by linarith), clamp_mono (by linarith)⟩

theorem judgeScores_between (r : StableRandom ρ) (result : EvaluationResult) (base : ℚ) :
    ∀ x ∈ (judgeScores r result base).map Prod.snd,
      clamp 0 1 (base - 7 / 100) ≤ x ∧ x ≤ clamp 0 1 (base + 9 / 100) := by
  intro x hx
  rw [judgeScores, List.map_map] at hx
  obtain ⟨judge, hjudge, rfl⟩ := List.mem_map.mp hx
  exact judgeScore_between r result base hjudge

theorem variance_judgeScores_le (r : StableRandom ρ) (result : EvaluationResult) (base : ℚ) :
    variance ((judgeScores r result base).map Prod.snd) ≤ agreementUncertaintyThreshold ^ 2 := by
  have hends : base - 7 / 100 ≤ base + 9 / 100 := by linarith
  -- clamping brings the ends of the range no further apart
  have hwidth : clamp 0 1 (base + 9 / 100) - clamp 0 1 (base - 7 / 100) ≤ 4 / 25 :=
    (clamp_sub_le hends).trans (by linarith)
  have hnonneg : 0 ≤ clamp 0 1 (base + 9 / 100) - clamp 0 1 (base - 7 / 100) :=
    sub_nonneg.mpr (clamp_mono hends)
  refine (variance_le (judgeScores_between r result base)).trans ?_
  unfold agreementUncertaintyThreshold
  exact sq_le_sq' (by linarith) (by linarith)

/-- **No result is ever uncertain.** Whatever the quality of a result and whatever the judges'
    noises, the deviation of their scores is at most the threshold above which they disagree;
    of the square root no more is used than that it is at most `y` where the square of `y` is
    not exceeded. -/
theorem never_uncertain (r : StableRandom ρ) {sqrt : ℚ → ℚ}
    (hsqrt : ∀ x y, 0 ≤ y → x ≤ y ^ 2 → sqrt x ≤ y) (result : EvaluationResult) :
    (evaluateWithEnsemble r sqrt result).uncertain = false ∧
      (evaluateWithEnsemble r sqrt result).stdev ≤ agreementUncertaintyThreshold ∧
      0 ≤ (evaluateWithEnsemble r sqrt result).meanScore ∧
      (evaluateWithEnsemble r sqrt result).meanScore ≤ 1 := by
  have hvariance := variance_judgeScores_le r result (Dict.getD result.metrics "quality" 0)
  have hstdev := hsqrt _ agreementUncertaintyThreshold (by decide +kernel) hvariance
  have hunit : ∀ x ∈ (judgeScores r result (Dict.getD result.metrics "quality" 0)).map Prod.snd,
      0 ≤ x ∧ x ≤ 1 := by
    intro x hx
    obtain ⟨hlo, hhi⟩ := judgeScores_between r result _ x hx
    exact ⟨(le_clamp zero_le_one _).trans hlo, hhi.trans (clamp_le 0 1 _)⟩
  obtain ⟨h0, h1⟩ := mean_between (List.cons_ne_nil _ _) hunit
  have hrounded : roundTo 4 agreementUncertaintyThreshold = agreementUncertaintyThreshold := by
    decide +kernel
  refine ⟨decide_eq_false (not_lt.mpr hstdev), ?_, roundTo_nonneg 4 h0, roundTo_le_one 4 h1⟩
  exact (roundTo_mono 4 hstdev).trans_eq hrounded

/-- The square root, rounded down to four decimals. -/
def decimalSqrt (x : ℚ) : ℚ := Nat.sqrt ⌊x * 10 ^ 8⌋.toNat / 10 ^ 4

theorem decimalSqrt_le (x y : ℚ) (hy : 0 ≤ y) (h : x ≤ y ^ 2) : decimalSqrt x ≤ y := by
  unfold decimalSqrt
  rw [div_le_iff₀ (by positivity)]
  refine abs_le_of_sq_le_sq' ?_ (by positivity) |>.2
  have hsqrt : ((Nat.sqrt ⌊x * 10 ^ 8⌋.toNat : ℕ) : ℚ) ^ 2 ≤ ((⌊x * 10 ^ 8⌋.toNat : ℕ) : ℚ) := by
    exact_mod_cast Nat.sqrt_le' _
  refine hsqrt.trans ?_
  rcases le_total 0 ⌊x * 10 ^ 8⌋ with hpos | hneg
  · have hcast : ((⌊x * 10 ^ 8⌋.toNat : ℕ) : ℚ) = ⌊x * 10 ^ 8⌋ := by
      exact_mod_cast Int.toNat_of_nonneg hpos
    rw [hcast]
    linarith [Int.floor_le (x * 10 ^ 8)]
  · rw [Int.toNat_of_nonpos hneg, Nat.cast_zero]
    positivity

theorem never_uncertain_decimalSqrt :
    (evaluateWithEnsemble MockLLMProvider.exampleStableRandom decimalSqrt
      ⟨"c1", "hash1", [("quality", 1)], 0, 0, false, ""⟩).uncertain = false :=
  (never_uncertain MockLLMProvider.exampleStableRandom decimalSqrt_le
    ⟨"c1", "hash1", [("quality", 1)], 0, 0, false, ""⟩).1

end NeuroForge
