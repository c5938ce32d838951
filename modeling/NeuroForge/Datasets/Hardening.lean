/-
  When an evolved benchmark is harder.

  `evolve_if_saturated` asks for new challenges from nine hundredths above the current score on,
  but never from above 0.95 on. Up to a score of 0.95 every new challenge is at least as hard as
  the current score, whatever is drawn, and then so is the mean (`meanDifficulty_append`: it
  cannot fall, as rounding is monotone and leaves a score alone). Above 0.95 a low draw gives a
  challenge that is easier than the score, and the score can fall (`harder_iff`).
-/
import NeuroForge.Datasets.Evolution
import NeuroForge.Datasets.FailureDriven
import NeuroForge.Datasets.Lineage

namespace NeuroForge

open Rounding CaseGenerator

variable {ρ : Type}

/-- What is asked of the version after `current`: its new challenges are as hard as the current
    score, and so is it as a whole. -/
structure Harder (current next : DatasetVersion) : Prop where
  score : current.difficultyScore ≤ next.difficultyScore
  difficulty : ∀ c ∈ next.challenges, 0 ≤ c.difficulty.val ∧ c.difficulty.val ≤ 1
  new : ∀ c ∈ next.challenges.drop current.challenges.length,
    current.difficultyScore ≤ c.difficulty

/-! ## Means -/

/-- `sum(difficulties) / max(1, len(difficulties))`. -/
def average (difficulties : List ℚ) : ℚ :=
  difficulties.sum / (max 1 difficulties.length : ℕ)

theorem meanDifficulty_eq (challenges : List Challenge) :
    meanDifficulty challenges =
      roundTo 4 (average (challenges.map fun c => c.difficulty.val)) := by
  unfold meanDifficulty average
  rw [List.length_map]

theorem le_average {qs : List ℚ} {b : ℚ} (hne : qs ≠ []) (h : b * qs.length ≤ qs.sum) :
    b ≤ average qs := by
  have hpos : 0 < qs.length := List.length_pos_iff.mpr hne
  have hmax : max 1 qs.length = qs.length := by omega
  have hcast : (0 : ℚ) < qs.length := by exact_mod_cast hpos
  unfold average
  rw [hmax, le_div_iff₀ hcast]
  exact h

theorem mul_length_le_sum {qs : List ℚ} {b : ℚ} (h : ∀ q ∈ qs, b ≤ q) :
    b * qs.length ≤ qs.sum := by
  have hsum := List.card_nsmul_le_sum qs b h
  rw [nsmul_eq_mul] at hsum
  linarith

theorem average_mul_length (qs : List ℚ) : average qs * qs.length = qs.sum := by
  cases qs with
  | nil => simp [average]
  | cons q qs =>
      have hmax : max 1 (q :: qs).length = (q :: qs).length := by simp
      have hcast : ((q :: qs).length : ℚ) ≠ 0 := by
        rw [List.length_cons]
        exact_mod_cast Nat.succ_ne_zero qs.length
      unfold average
      rw [hmax, div_mul_cancel₀ _ hcast]

/-- Numbers that are not below `b` leave the average at `b` if it was there before. -/
theorem le_average_append {old new : List ℚ} {b : ℚ} (hold : b ≤ average old)
    (hnew : ∀ q ∈ new, b ≤ q) : b ≤ average (old ++ new) := by
  rcases List.eq_nil_or_concat (old ++ new) with hnil | ⟨_, _, hne⟩
  · obtain ⟨rfl, rfl⟩ := List.append_eq_nil_iff.mp hnil
    exact hold
  · refine le_average (by rw [hne]; simp) ?_
    have hlength : (0 : ℚ) ≤ old.length := Nat.cast_nonneg _
    have hsum : b * old.length ≤ old.sum := by
      rw [← average_mul_length old]
      exact mul_le_mul_of_nonneg_right hold hlength
    have hsum' := mul_length_le_sum hnew
    rw [List.sum_append, List.length_append, Nat.cast_add, mul_add]
    linarith

/-- Challenges that are as hard as the score do not lower it. -/
theorem meanDifficulty_append {old new : List Challenge}
    (h : ∀ c ∈ new, meanDifficulty old ≤ c.difficulty) :
    meanDifficulty old ≤ meanDifficulty (old ++ new) := by
  rw [meanDifficulty_eq] at h
  rw [meanDifficulty_eq, meanDifficulty_eq, List.map_append]
  generalize old.map (fun c => c.difficulty.val) = qs at h ⊢
  have hnew : ∀ q ∈ new.map (fun c => c.difficulty.val), roundTo 4 (average qs) ≤ q := by
    intro q hq
    obtain ⟨c, hc, rfl⟩ := List.mem_map.mp hq
    exact h c hc
  rcases le_total (average qs) (roundTo 4 (average qs)) with hup | hdown
  · exact roundTo_mono 4 (le_average_append le_rfl fun q hq => hup.trans (hnew q hq))
  · -- The rounded mean is a bound of all and is not moved by rounding.
    have hbound := roundTo_mono 4 (le_average_append hdown hnew)
    rwa [roundTo_of_mem_decimals (roundTo_mem_decimals 4 (average qs))] at hbound

theorem meanDifficulty_mem (challenges : List Challenge) :
    0 ≤ meanDifficulty challenges ∧ meanDifficulty challenges ≤ 1 := by
  have hbounds : ∀ q ∈ challenges.map (fun c => c.difficulty.val), 0 ≤ q ∧ q ≤ 1 := by
    intro q hq
    obtain ⟨c, -, rfl⟩ := List.mem_map.mp hq
    exact c.difficulty.2
  rw [meanDifficulty_eq]
  generalize challenges.map (fun c => c.difficulty.val) = qs at hbounds ⊢
  have hsum : qs.sum ≤ qs.length := by
    simpa using List.sum_le_card_nsmul qs 1 fun q hq => (hbounds q hq).2
  have hlength : (qs.length : ℚ) ≤ (max 1 qs.length : ℕ) := by
    exact_mod_cast Nat.le_max_right 1 qs.length
  have hpos : (0 : ℚ) < (max 1 qs.length : ℕ) := by
    exact_mod_cast Nat.lt_of_lt_of_le Nat.zero_lt_one (Nat.le_max_left 1 qs.length)
  refine ⟨roundTo_nonneg 4 ?_, roundTo_le_one 4 ?_⟩
  · exact div_nonneg (List.sum_nonneg fun q hq => (hbounds q hq).1) hpos.le
  · exact (div_le_one hpos).mpr (hsum.trans hlength)

/-! ## The range of the new challenges -/

/-- The range that is asked of the domain at a score. -/
def band (difficultyScore : ℚ) : ℚ × ℚ :=
  (min (19/20) (difficultyScore + difficultyStep * (1/2)),
    min 1 (difficultyScore + difficultyStep))

theorem band_valid {q : ℚ} (h : 0 ≤ q ∧ q ≤ 1) : ValidRange (band q) := by
  refine ⟨le_min (by norm_num) ?_, le_min ?_ ?_, min_le_left _ _⟩
  · norm_num [difficultyStep]
    linarith
  · exact (min_le_left _ _).trans (by norm_num)
  · refine (min_le_right _ _).trans ?_
    norm_num [difficultyStep]

/-- Up to 0.95 rounding to three decimals does not undercut the score. -/
theorem le_roundTo_band {q : ℚ} (h : q ≤ 19/20) : q ≤ roundTo 3 (band q).1 := by
  unfold band difficultyStep
  dsimp only
  rcases le_total (19/20) (q + 9/50 * (1/2)) with hclamp | hopen
  · have hlow : roundTo 3 (19/20) = 19/20 :=
      roundTo_of_mem_decimals (mem_decimals.mpr ⟨950, by norm_num⟩)
    rw [min_eq_left hclamp, hlow]
    exact h
  · rw [min_eq_right hopen]
    have hmove := (abs_le.mp (abs_roundTo_sub_le 3 (q + 9/50 * (1/2)))).1
    norm_num at hmove ⊢
    linarith

/-! ## The next version -/

theorem renameTaken_difficulty (newVersion : ℕ) (taken : List String) (new : List Challenge) :
    (renameTaken newVersion taken new).map (·.difficulty) = new.map (·.difficulty) := by
  induction new generalizing taken with
  | nil => rfl
  | cons c rest ih => exact congrArg (c.difficulty :: ·) (ih _)

theorem extend_new_difficulty (random : SplitRandom) (current : DatasetVersion)
    (new : List Challenge) (seed : ℤ) (source : String) :
    ((extend random current new seed source).challenges.drop current.challenges.length).map
      (·.difficulty) = new.map (·.difficulty) := by
  unfold extend deterministicSplit
  dsimp only
  rw [List.drop_left, List.map_map]
  exact renameTaken_difficulty _ _ new

theorem extend_score (random : SplitRandom) (current : DatasetVersion) (new : List Challenge)
    (seed : ℤ) (source : String) :
    (extend random current new seed source).difficultyScore =
      meanDifficulty (current.challenges ++ new) := by
  have hsame : ∀ added : List Challenge, added.map (·.difficulty) = new.map (·.difficulty) →
      meanDifficulty (current.challenges ++ added) =
        meanDifficulty (current.challenges ++ new) := by
    intro added hadded
    have hvals : added.map (fun c => c.difficulty.val) = new.map fun c => c.difficulty.val := by
      simpa [Function.comp_def] using congrArg (List.map Subtype.val) hadded
    rw [meanDifficulty_eq, meanDifficulty_eq, List.map_append, List.map_append, hvals]
  refine hsame _ ?_
  have hdrop := extend_new_difficulty random current new seed source
  rwa [show (extend random current new seed source).challenges = current.challenges ++ _ from rfl,
    List.drop_left] at hdrop

theorem evolveIfSaturated_of_saturated (domain : ApplicationDomain) (random : SplitRandom)
    (current : DatasetVersion) {meanSearchScore : ℚ} (h : isSaturated meanSearchScore = true)
    (n seed : ℤ) : evolveIfSaturated domain random current meanSearchScore n seed =
      some (extend random current
        ((domain.generateCases n (band current.difficultyScore) seed).filter domain.validate)
        seed "benchmark_evolution") := if_pos h

/-- Challenges that are as hard as the score make a harder version. -/
theorem harder_extend {current : DatasetVersion}
    (hscore : current.difficultyScore = meanDifficulty current.challenges)
    (random : SplitRandom) {new : List Challenge}
    (h : ∀ c ∈ new, current.difficultyScore ≤ c.difficulty) (seed : ℤ) (source : String) :
    Harder current (extend random current new seed source) where
  score := by
    rw [extend_score, hscore]
    rw [hscore] at h
    exact meanDifficulty_append h
  difficulty c _ := c.difficulty.2
  new c hc := by
    have hmem := List.mem_map_of_mem (f := (·.difficulty)) hc
    rw [extend_new_difficulty] at hmem
    obtain ⟨c', hc', heq⟩ := List.mem_map.mp hmem
    rw [← heq]
    exact h c' hc'

/-! ## All draws -/

/-- Where every draw is `u`, so is every difficulty. -/
theorem difficulty_of_constant (d : RoundRobinDomain ρ) {range : ℚ × ℚ} (hrange : ValidRange range)
    {u : ℚ} (hu : ∀ s, (d.rng.random s).1 = u) (n seed : ℤ) :
    ∀ c ∈ d.toDomain.generateCases n range seed,
      c.difficulty.val = roundTo 3 (range.1 + (range.2 - range.1) * u) := by
  have hmake : ∀ (i : ℕ) (s : ρ), ∃ c, (d.toCaseGenerator.makeCase range seed i s).1 = some c ∧
      c.difficulty.val = roundTo 3 (range.1 + (range.2 - range.1) * u) := by
    intro i s
    obtain ⟨c, hc, -⟩ := d.toCaseGenerator.makeCase_spec hrange seed i s
    refine ⟨c, hc, ?_⟩
    rw [← hu s]
    simp only [makeCase] at hc
    split_ifs at hc
    rw [← Option.some.inj hc]
  obtain ⟨cases, hcases, hall⟩ := mapM_id_of_forall₂
    (forall₂_mapDraw hmake (List.range n.toNat) (d.stableRng seed n range))
  have hgenerated : d.toDomain.generateCases n range seed = cases := by
    show (d.toCaseGenerator.generateCases n range seed).getD [] = cases
    rw [show d.toCaseGenerator.generateCases n range seed = some cases from hcases]
    rfl
  have hmap := map_eq_map_of_forall₂ (f := fun c => c.difficulty.val) hall fun _ _ h => h
  intro c hc
  rw [hgenerated] at hc
  have hmem := List.mem_map_of_mem (f := fun c => c.difficulty.val) hc
  rw [hmap] at hmem
  obtain ⟨-, -, hval⟩ := List.mem_map.mp hmem
  exact hval.symm

/-- Above a score of 0.95 the lowest draw makes a new challenge of 0.95. -/
theorem exists_easy (d : RoundRobinDomain ρ) (hlowest : ∀ s, (d.rng.random s).1 = 0)
    (random : SplitRandom) {current : DatasetVersion}
    (hrange : ValidRange (band current.difficultyScore))
    (hhigh : 19/20 < current.difficultyScore) {n : ℤ} (hn : 0 < n) (seed : ℤ) (source : String) :
    ∃ c ∈ (extend random current ((d.toDomain.generateCases n (band current.difficultyScore)
      seed).filter d.toDomain.validate) seed source).challenges.drop current.challenges.length,
      c.difficulty.val = 19/20 := by
  obtain ⟨hspec, hvalid⟩ := d.toDomain_spec hrange n seed
  obtain ⟨c, hc⟩ : ∃ c, c ∈ d.toDomain.generateCases n (band current.difficultyScore) seed := by
    refine List.exists_mem_of_length_pos ?_
    rw [← hspec.length_eq, List.length_range]
    omega
  have hclamp : (band current.difficultyScore).1 = 19/20 := by
    refine min_eq_left ?_
    norm_num [difficultyStep]
    linarith
  have heasy : c.difficulty.val = 19/20 := by
    rw [difficulty_of_constant d hrange hlowest n seed c hc, hclamp, mul_zero, add_zero]
    exact roundTo_of_mem_decimals (mem_decimals.mpr ⟨950, by norm_num⟩)
  have hnew := List.mem_map_of_mem (f := (·.difficulty))
    (List.mem_filter.mpr ⟨hc, hvalid c hc⟩)
  rw [← extend_new_difficulty random current _ seed source] at hnew
  obtain ⟨c', hc', heq⟩ := List.mem_map.mp hnew
  exact ⟨c', hc', by rw [heq, heasy]⟩

/-- Up to a score of 0.95 no draw makes a challenge that is easier. -/
theorem le_difficulty_of_generated (d : RoundRobinDomain ρ) {score : ℚ}
    (hrange : ValidRange (band score)) (hlow : score ≤ 19/20) (n seed : ℤ) :
    ∀ c ∈ d.toDomain.generateCases n (band score) seed, score ≤ c.difficulty := by
  intro c hc
  obtain ⟨i, hi⟩ := exists_caseAt (d.toDomain_spec hrange n seed).1 hc
  exact (le_roundTo_band hlow).trans hi.lower

/-- ForgeSupport, with the lowest draw every time. -/
def lowSupport : RoundRobinDomain Unit :=
  ForgeSupport.domain (constantRng 0 0) (constantRng_lawful le_rfl (by norm_num) 0)
    fun _ _ _ => ()

/-- An evolution makes a harder version, whatever is drawn, exactly up to a score of 0.95: it
    does nothing below saturation, and asks for nothing if no challenge is wanted. -/
theorem harder_iff {current : DatasetVersion}
    (hscore : current.difficultyScore = meanDifficulty current.challenges)
    (meanSearchScore : ℚ) (n seed : ℤ) :
    (∀ (ρ : Type) (d : RoundRobinDomain ρ) (random : SplitRandom) (next : DatasetVersion),
      evolveIfSaturated d.toDomain random current meanSearchScore n seed = some next →
        Harder current next) ↔
    isSaturated meanSearchScore = false ∨ n ≤ 0 ∨ current.difficultyScore ≤ 19/20 := by
  have hrange : ValidRange (band current.difficultyScore) :=
    band_valid (hscore ▸ meanDifficulty_mem current.challenges)
  constructor
  · intro h
    by_contra hnot
    obtain ⟨hsaturated, hn, hhigh⟩ : isSaturated meanSearchScore = true ∧ 0 < n ∧
        19/20 < current.difficultyScore := by
      simpa using hnot
    obtain ⟨c, hc, heasy⟩ := exists_easy lowSupport (fun _ => rfl) (fun _ _ => 0) hrange hhigh hn
      seed "benchmark_evolution"
    have hharder := h Unit lowSupport (fun _ _ => 0) _
      (evolveIfSaturated_of_saturated _ _ current hsaturated n seed)
    have hhard := hharder.new c hc
    rw [heasy] at hhard
    linarith
  · rintro hcond ρ d random next hnext
    cases hsaturated : isSaturated meanSearchScore with
    | false =>
        unfold evolveIfSaturated at hnext
        rw [hsaturated] at hnext
        cases hnext
    | true =>
        rw [evolveIfSaturated_of_saturated _ _ _ hsaturated] at hnext
        obtain rfl := Option.some.inj hnext
        refine harder_extend hscore random (fun c hc => ?_) seed _
        have hmem := List.mem_of_mem_filter hc
        rw [hsaturated] at hcond
        rcases hcond with hfalse | hnone | hlow
        · cases hfalse
        · have hempty : d.toDomain.generateCases n (band current.difficultyScore) seed = [] := by
            refine List.eq_nil_of_length_eq_zero ?_
            rw [← (d.toDomain_spec hrange n seed).1.length_eq, List.length_range]
            omega
          rw [hempty] at hmem
          cases hmem
        · exact le_difficulty_of_generated d hrange hlow n seed c hmem

def onlyChallenge (difficulty : RatIn 0 1) : Challenge where
  challengeId := "fs-1-0000"
  category := "policy_faq"
  difficulty := difficulty
  input := "What is your policy on returns?"
  expectedBehavior := "Cite the relevant policy clause accurately."

/-- A version with one challenge of a difficulty. -/
def oneChallenge (difficulty : RatIn 0 1) : DatasetVersion where
  datasetId := "support"
  version := 1
  source := "seed"
  challenges := [onlyChallenge difficulty]
  difficultyScore := meanDifficulty [onlyChallenge difficulty]
  validated := true

/-- ForgeSupport, with the draw `stable_rng` gives first for the seed 7 and one case between
    0.95 and 1. -/
def drawnSupport : RoundRobinDomain Unit :=
  ForgeSupport.domain (constantRng (14356521/100000000) 0)
    (constantRng_lawful (by norm_num) (by norm_num) 0) fun _ _ _ => ()

theorem harder_of_moderate : ∃ next, evolveIfSaturated drawnSupport.toDomain (fun _ _ => 0)
      (oneChallenge ⟨1/2, by norm_num⟩) (19/20) 1 7 = some next ∧
    Harder (oneChallenge ⟨1/2, by norm_num⟩) next := by
  have hsaturated : isSaturated (19/20) = true := by decide +kernel
  have hmoderate : (oneChallenge ⟨1/2, by norm_num⟩).difficultyScore ≤ 19/20 := by
    decide +kernel
  have hnext := evolveIfSaturated_of_saturated drawnSupport.toDomain (fun _ _ => 0)
    (oneChallenge ⟨1/2, by norm_num⟩) hsaturated 1 7
  exact ⟨_, hnext,
    (harder_iff rfl (19/20) 1 7).mpr (.inr (.inr hmoderate)) Unit drawnSupport _ _ hnext⟩

/-- A challenge of 0.957 is added to a version of 0.97. -/
theorem easier_above_clamp : ∃ next, evolveIfSaturated drawnSupport.toDomain (fun _ _ => 0)
      (oneChallenge ⟨97/100, by norm_num⟩) (19/20) 1 7 = some next ∧
    next.difficultyScore = 9635/10000 ∧
    ¬ Harder (oneChallenge ⟨97/100, by norm_num⟩) next := by
  have hscore : (evolveIfSaturated drawnSupport.toDomain (fun _ _ => 0)
      (oneChallenge ⟨97/100, by norm_num⟩) (19/20) 1 7).map (·.difficultyScore) =
        some (9635/10000) := by
    decide +kernel
  obtain ⟨next, hnext, hlow⟩ := Option.map_eq_some_iff.mp hscore
  refine ⟨next, hnext, hlow, fun h => ?_⟩
  have hfell := h.score
  rw [hlow] at hfell
  revert hfell
  decide +kernel

end NeuroForge
