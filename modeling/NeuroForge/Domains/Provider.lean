/-
  `providers/base.py` and `providers/mock.py`: what a domain asks of a model, and the provider
  that answers without one.

  The mock provider draws its answers from a generator seeded by the request and the model.
  Whatever it draws, its models are strictly ordered (`generate_tradeoff`): a better one
  signals more capability, costs more and is slower, at the same temperature, effort and limit.
  The text of an answer, which no evaluation reads, and the metadata of a request, which the
  provider does not read, are left out.
-/
import NeuroForge.Genomes.Schema
import NeuroForge.Lib.Bounded
import NeuroForge.Lib.PyText
import NeuroForge.Lib.Random
import NeuroForge.Optimization.Containment

namespace NeuroForge

open Bounded Rounding

variable {ρ : Type}

/-! ## Generators seeded by texts -/

/-- `util.py`: a generator for every list of arguments. -/
structure StableRandom (ρ : Type) where
  rng : Rng ρ
  lawful : rng.Lawful
  stableRng : List Value → ρ
  /-- `getrandbits(32)` -/
  bits : ρ → Fin (2 ^ 32)

namespace StableRandom

variable (r : StableRandom ρ)

def stableUnitInterval (parts : List Value) : ℚ := (r.rng.random (r.stableRng parts)).1

def stableInt (parts : List Value) : ℕ := r.bits (r.stableRng parts)

theorem stableUnitInterval_between (parts : List Value) :
    0 ≤ r.stableUnitInterval parts ∧ r.stableUnitInterval parts < 1 :=
  r.lawful (r.stableRng parts)

theorem uniform_between {lo hi : ℚ} (h : lo ≤ hi) (s : ρ) :
    lo ≤ (r.rng.uniform lo hi s).1 ∧ (r.rng.uniform lo hi s).1 ≤ hi := by
  obtain ⟨h0, h1⟩ := r.lawful s
  have hwidth : 0 ≤ hi - lo := sub_nonneg.mpr h
  show lo ≤ lo + (hi - lo) * (r.rng.random s).1 ∧ lo + (hi - lo) * (r.rng.random s).1 ≤ hi
  constructor
  · linarith [mul_nonneg hwidth h0]
  · linarith [mul_le_mul_of_nonneg_left h1.le hwidth]

end StableRandom

/-! ## Requests and answers -/

structure GenerationRequest where
  systemPrompt : String
  userInput : String
  contextDocuments : List String := []
  seed : ℕ := 0
  deriving DecidableEq

structure GenerationResult where
  tokensIn : ℤ
  tokensOut : ℤ
  latencyMs : ℚ
  costUsd : ℚ
  capabilitySignal : ℚ
  deriving DecidableEq

/-- `LLMProvider.generate` -/
abbrev LLMProvider := ModelConfig → GenerationRequest → GenerationResult

/-! ## The mock provider -/

structure ModelProfile where
  capability : ℚ
  costPer1kTokens : ℚ
  latencyMs : ℚ
  precision : ℚ
  deriving DecidableEq

def reasoningLarge : ModelProfile := ⟨9 / 10, 3 / 100, 1600, 9 / 10⟩

def reasoningSmall : ModelProfile := ⟨39 / 50, 1 / 125, 700, 3 / 4⟩

def fastCheap : ModelProfile := ⟨31 / 50, 1 / 500, 300, 11 / 20⟩

def modelTable : Dict String ModelProfile :=
  [("reasoning-large", reasoningLarge), ("reasoning-small", reasoningSmall),
    ("fast-cheap", fastCheap)]

def effortMultiplier : ReasoningEffort → ℚ
  | .low => 3 / 5
  | .medium => 1
  | .high => 8 / 5

def effortBonus : ReasoningEffort → ℚ
  | .low => -3 / 100
  | .medium => 0
  | .high => 1 / 20

namespace MockLLMProvider

/-- The capability before it is rounded. -/
def capability (profile : ModelProfile) (model : ModelConfig) (jitter : ℚ) : ℚ :=
  clamp 0 1 (profile.capability + effortBonus model.reasoningEffort -
    model.temperature * (1 - profile.precision) * (1 / 4) + jitter)

def tokensIn (request : GenerationRequest) : ℕ :=
  (PyText.words request.systemPrompt).length + (PyText.words request.userInput).length +
    (request.contextDocuments.map fun d => (PyText.words d).length).sum

def tokensOut (model : ModelConfig) (capability draw : ℚ) : ℤ :=
  max 1 (min model.maxTokens (truncInt (40 + capability * 120 + draw)))

/-- The answer that these draws lead to. -/
def answer (profile : ModelProfile) (model : ModelConfig) (request : GenerationRequest)
    (jitter draw slower : ℚ) : GenerationResult :=
  let capability := capability profile model jitter
  let tokensIn : ℤ := tokensIn request
  let tokensOut := tokensOut model capability draw
  let latencyMs := profile.latencyMs * effortMultiplier model.reasoningEffort * (1 + slower) *
    (1 + 1 / 50 * request.contextDocuments.length)
  let costUsd := (tokensIn + tokensOut) / 1000 * profile.costPer1kTokens
  { tokensIn := tokensIn
    tokensOut := tokensOut
    latencyMs := roundTo 2 latencyMs
    costUsd := roundTo 6 costUsd
    capabilitySignal := roundTo 4 capability }

def generate (r : StableRandom ρ) : LLMProvider := fun model request =>
  let s := r.stableRng [.int request.seed, .str model.name, .float model.temperature,
    Literal.text model.reasoningEffort, .str request.systemPrompt, .str request.userInput,
    .int request.contextDocuments.length]
  let (jitter, s) := r.rng.uniform (-3 / 100) (3 / 100) s
  let (draw, s) := r.rng.uniform (-10) 10 s
  let (slower, _) := r.rng.uniform (-2 / 25) (2 / 25) s
  answer (Dict.getD modelTable model.name reasoningSmall) model request jitter draw slower

/-! ## Better models -/

/-- Whatever the effort, the temperature and the jitter, nothing is cut off. -/
structure Unclamped (p : ModelProfile) : Prop where
  precision : p.precision ≤ 1
  low : 3 / 50 + (1 - p.precision) / 2 ≤ p.capability
  high : p.capability ≤ 23 / 25

/-- The second model is better by more than what is drawn. -/
structure Upgrades (p q : ModelProfile) : Prop where
  capability : p.capability + 1 / 10 ≤ q.capability
  precision : p.precision ≤ q.precision
  latency : 0 < p.latencyMs ∧ p.latencyMs * (27 / 23) + 1 ≤ q.latencyMs
  cost : 0 < p.costPer1kTokens ∧ 3 * p.costPer1kTokens ≤ q.costPer1kTokens

/-- A price for which no cost is rounded. -/
def Exact (p : ModelProfile) : Prop := ∃ k : ℤ, p.costPer1kTokens = k / 1000

section
variable {p q : ModelProfile} {m : ModelConfig}

theorem effortBonus_between (effort : ReasoningEffort) :
    -3 / 100 ≤ effortBonus effort ∧ effortBonus effort ≤ 1 / 20 := by
  cases effort <;> norm_num [effortBonus]

theorem effortMultiplier_between (effort : ReasoningEffort) :
    3 / 5 ≤ effortMultiplier effort ∧ effortMultiplier effort ≤ 8 / 5 := by
  cases effort <;> norm_num [effortMultiplier]

theorem capability_eq (hp : Unclamped p) {jitter : ℚ} (hlo : -3 / 100 ≤ jitter)
    (hhi : jitter ≤ 3 / 100) : capability p m jitter = p.capability +
      effortBonus m.reasoningEffort - m.temperature * (1 - p.precision) * (1 / 4) + jitter := by
  obtain ⟨hbonus, hbonus'⟩ := effortBonus_between m.reasoningEffort
  obtain ⟨hcold, hhot⟩ := m.temperature.2
  have hprecision : 0 ≤ 1 - p.precision := by linarith [hp.precision]
  have hpenalty : m.temperature * (1 - p.precision) ≤ 2 * (1 - p.precision) :=
    mul_le_mul_of_nonneg_right hhot hprecision
  have hpenalty' : 0 ≤ m.temperature * (1 - p.precision) := mul_nonneg hcold hprecision
  refine clamp_of_mem ?_ ?_
  · linarith [hp.low]
  · linarith [hp.high]

theorem capability_lt (hp : Unclamped p) (hq : Unclamped q) (h : Upgrades p q) {j j' : ℚ}
    (hlo : -3 / 100 ≤ j) (hhi : j ≤ 3 / 100) (hlo' : -3 / 100 ≤ j') (hhi' : j' ≤ 3 / 100) :
    capability p m j + 1 / 25 ≤ capability q m j' := by
  have hcold : 0 ≤ (m.temperature : ℚ) * (q.precision - p.precision) :=
    mul_nonneg m.temperature.2.1 (sub_nonneg.mpr h.precision)
  rw [capability_eq hp hlo hhi, capability_eq hq hlo' hhi']
  linarith [h.capability]

theorem roundTo_lt {d : ℕ} {x y : ℚ} (h : x + 1 / 10 ^ d < y) : roundTo d x < roundTo d y := by
  have hx := abs_le.mp (abs_roundTo_sub_le d x)
  have hy := abs_le.mp (abs_roundTo_sub_le d y)
  have hhalf : (1 : ℚ) / 2 / 10 ^ d = 1 / 10 ^ d / 2 := by ring
  rw [hhalf] at hx hy
  linarith [hx.2, hy.1]

theorem tokensOut_between {c d : ℚ} (hc : 0 ≤ c) (hlo : -10 ≤ d) (hhi : d ≤ 10) :
    1 ≤ tokensOut m c d ∧ tokensOut m c d ≤ m.maxTokens ∧
      (tokensOut m c d : ℚ) ≤ 50 + 120 * c ∧
      (tokensOut m c d = m.maxTokens ∨ 29 + 120 * c < (tokensOut m c d : ℚ)) := by
  have hpos : (0 : ℚ) ≤ 40 + c * 120 + d := by linarith
  have hfloor := Int.floor_le (40 + c * 120 + d)
  have hfloor' := Int.lt_floor_add_one (40 + c * 120 + d)
  have hmax : (1 : ℤ) ≤ m.maxTokens := m.maxTokens.2.1
  have hone : (1 : ℤ) ≤ ⌊40 + c * 120 + d⌋ := Int.le_floor.mpr (by push_cast; linarith)
  have hout : tokensOut m c d = min (m.maxTokens : ℤ) ⌊40 + c * 120 + d⌋ := by
    rw [tokensOut, truncInt_of_nonneg hpos, max_eq_right (le_min hmax hone)]
  rw [hout]
  refine ⟨le_min hmax hone, min_le_left _ _, ?_, ?_⟩
  · have hle : ((min (m.maxTokens : ℤ) ⌊40 + c * 120 + d⌋ : ℤ) : ℚ) ≤ ⌊40 + c * 120 + d⌋ :=
      Int.cast_le.mpr (min_le_right _ _)
    linarith
  · rcases le_total (m.maxTokens : ℤ) ⌊40 + c * 120 + d⌋ with h | h
    · exact .inl (min_eq_left h)
    · right
      rw [min_eq_right h]
      linarith

/-- The draws are in the ranges that the provider draws from. -/
structure Drawn (jitter draw slower : ℚ) : Prop where
  jitter : -3 / 100 ≤ jitter ∧ jitter ≤ 3 / 100
  draw : -10 ≤ draw ∧ draw ≤ 10
  slower : -2 / 25 ≤ slower ∧ slower ≤ 2 / 25

theorem generate_eq (r : StableRandom ρ) (model : ModelConfig) (request : GenerationRequest) :
    ∃ jitter draw slower, Drawn jitter draw slower ∧ generate r model request =
      answer (Dict.getD modelTable model.name reasoningSmall) model request jitter draw slower :=
  ⟨_, _, _, ⟨r.uniform_between (by norm_num) _, r.uniform_between (by norm_num) _,
    r.uniform_between (by norm_num) _⟩, rfl⟩

/-- A cost at such a price has six decimals. -/
theorem costUsd_answer (hp : Exact p) (request : GenerationRequest) (j d l : ℚ) :
    (answer p m request j d l).costUsd =
      ((answer p m request j d l).tokensIn + (answer p m request j d l).tokensOut) / 1000 *
        p.costPer1kTokens := by
  obtain ⟨k, hk⟩ := hp
  refine roundTo_of_mem_decimals (mem_decimals.mpr
    ⟨(tokensIn request + tokensOut m (capability p m j) d) * k, ?_⟩)
  rw [hk]
  push_cast
  ring

theorem cost_lt (hp : Exact p) (hq : Exact q) (h : Upgrades p q) (request : GenerationRequest)
    (seed : ℕ) {j d l j' d' l' : ℚ} (hdrawn : Drawn j d l) (hdrawn' : Drawn j' d' l')
    (hcapability : capability p m j ≤ capability q m j') :
    (answer p m request j d l).costUsd <
      (answer q m { request with seed := seed } j' d' l').costUsd := by
  have hc : 0 ≤ capability p m j := le_clamp zero_le_one _
  obtain ⟨-, hmax, hhi, -⟩ := tokensOut_between (m := m) hc hdrawn.draw.1 hdrawn.draw.2
  obtain ⟨hone', -, -, hlo'⟩ :=
    tokensOut_between (m := m) (hc.trans hcapability) hdrawn'.draw.1 hdrawn'.draw.2
  -- less than three times as many tokens, at a third of the price at most
  have htokens : (tokensOut m (capability p m j) d : ℚ) <
      3 * tokensOut m (capability q m j') d' := by
    rcases hlo' with hlimit | hlo'
    · have hle : (tokensOut m (capability p m j) d : ℚ) ≤ (m.maxTokens : ℤ) :=
        Int.cast_le.mpr hmax
      have hpos : (1 : ℚ) ≤ (m.maxTokens : ℤ) := by exact_mod_cast m.maxTokens.2.1
      rw [hlimit]
      linarith
    · linarith
  have hin : (0 : ℚ) ≤ ((tokensIn request : ℤ) : ℚ) := by positivity
  have hout' : (1 : ℚ) ≤ tokensOut m (capability q m j') d' := by exact_mod_cast hone'
  rw [costUsd_answer hp, costUsd_answer hq]
  calc ((tokensIn request : ℤ) + tokensOut m (capability p m j) d : ℚ) / 1000 *
        p.costPer1kTokens
      < 3 * ((tokensIn request : ℤ) + tokensOut m (capability q m j') d') / 1000 *
        p.costPer1kTokens := by
          refine mul_lt_mul_of_pos_right ?_ h.cost.1
          linarith
    _ = ((tokensIn request : ℤ) + tokensOut m (capability q m j') d') / 1000 *
        (3 * p.costPer1kTokens) := by ring
    _ ≤ _ := by
          refine mul_le_mul_of_nonneg_left h.cost.2 ?_
          positivity

theorem latency_lt (h : Upgrades p q) (request : GenerationRequest) (seed : ℕ)
    {j d l j' d' l' : ℚ} (hdrawn : Drawn j d l) (hdrawn' : Drawn j' d' l') :
    (answer p m request j d l).latencyMs <
      (answer q m { request with seed := seed } j' d' l').latencyMs := by
  obtain ⟨heffort, -⟩ := effortMultiplier_between m.reasoningEffort
  have hdocs : (1 : ℚ) ≤ 1 + 1 / 50 * request.contextDocuments.length := by
    have hlength : (0 : ℚ) ≤ request.contextDocuments.length := by positivity
    linarith
  have hfactor : (3 / 5 : ℚ) ≤ effortMultiplier m.reasoningEffort *
      (1 + 1 / 50 * request.contextDocuments.length) := by
    nlinarith
  have hslower : p.latencyMs * (1 + l) ≤ p.latencyMs * (27 / 25) :=
    mul_le_mul_of_nonneg_left (by linarith [hdrawn.slower.2]) h.latency.1.le
  have hpos : 0 ≤ q.latencyMs := by linarith [h.latency.1, h.latency.2]
  have hslower' : q.latencyMs * (23 / 25) ≤ q.latencyMs * (1 + l') :=
    mul_le_mul_of_nonneg_left (by linarith [hdrawn'.slower.1]) hpos
  have hgap : p.latencyMs * (1 + l) + 23 / 25 ≤ q.latencyMs * (1 + l') := by
    linarith [h.latency.2]
  refine roundTo_lt ?_
  have hscaled := mul_le_mul_of_nonneg_right hgap
    (by linarith : 0 ≤ effortMultiplier m.reasoningEffort *
      (1 + 1 / 50 * (request.contextDocuments.length : ℚ)))
  norm_num at hscaled ⊢
  nlinarith

end

/-! ## The table -/

theorem unclamped_reasoningLarge : Unclamped reasoningLarge := by
  constructor <;> norm_num [reasoningLarge]

theorem unclamped_reasoningSmall : Unclamped reasoningSmall := by
  constructor <;> norm_num [reasoningSmall]

theorem unclamped_fastCheap : Unclamped fastCheap := by
  constructor <;> norm_num [fastCheap]

theorem exact_reasoningLarge : Exact reasoningLarge := ⟨30, by norm_num [reasoningLarge]⟩

theorem exact_reasoningSmall : Exact reasoningSmall := ⟨8, by norm_num [reasoningSmall]⟩

theorem exact_fastCheap : Exact fastCheap := ⟨2, by norm_num [fastCheap]⟩

/-- The models with those that are better. -/
def upgrades : List (String × String) :=
  [("fast-cheap", "reasoning-small"), ("fast-cheap", "reasoning-large"),
    ("reasoning-small", "reasoning-large")]

theorem upgrades_table {names : String × String} (h : names ∈ upgrades) :
    ∃ p q, Dict.getD modelTable names.1 reasoningSmall = p ∧
      Dict.getD modelTable names.2 reasoningSmall = q ∧
      Unclamped p ∧ Unclamped q ∧ Exact p ∧ Exact q ∧ Upgrades p q := by
  simp only [upgrades, List.mem_cons, List.not_mem_nil, or_false] at h
  rcases h with rfl | rfl | rfl
  · refine ⟨fastCheap, reasoningSmall, rfl, rfl, unclamped_fastCheap, unclamped_reasoningSmall,
      exact_fastCheap, exact_reasoningSmall, ?_⟩
    constructor <;> norm_num [fastCheap, reasoningSmall]
  · refine ⟨fastCheap, reasoningLarge, rfl, rfl, unclamped_fastCheap, unclamped_reasoningLarge,
      exact_fastCheap, exact_reasoningLarge, ?_⟩
    constructor <;> norm_num [fastCheap, reasoningLarge]
  · refine ⟨reasoningSmall, reasoningLarge, rfl, rfl, unclamped_reasoningSmall,
      unclamped_reasoningLarge, exact_reasoningSmall, exact_reasoningLarge, ?_⟩
    constructor <;> norm_num [reasoningSmall, reasoningLarge]

/-- **A better model costs more.** On the same request, at whatever temperature, effort and
    limit and with whatever seeds, a better model signals more capability, is dearer and is
    slower: none of the models makes another one pointless. -/
theorem generate_tradeoff (r : StableRandom ρ) (model : ModelConfig) (request : GenerationRequest)
    (seed : ℕ) {names : String × String} (h : names ∈ upgrades) :
    let cheap := generate r { model with name := names.1 } request
    let better := generate r { model with name := names.2 } { request with seed := seed }
    cheap.capabilitySignal < better.capabilitySignal ∧ cheap.costUsd < better.costUsd ∧
      cheap.latencyMs < better.latencyMs := by
  obtain ⟨p, q, hp, hq, hunclamped, hunclamped', hexact, hexact', hupgrades⟩ := upgrades_table h
  obtain ⟨j, d, l, hdrawn, hcheap⟩ := generate_eq r { model with name := names.1 } request
  obtain ⟨j', d', l', hdrawn', hbetter⟩ :=
    generate_eq r { model with name := names.2 } { request with seed := seed }
  have hcapability := capability_lt (m := model) hunclamped hunclamped' hupgrades
    hdrawn.jitter.1 hdrawn.jitter.2 hdrawn'.jitter.1 hdrawn'.jitter.2
  dsimp only at hcheap hbetter ⊢
  rw [hcheap, hbetter, hp, hq]
  refine ⟨roundTo_lt ?_, ?_, ?_⟩
  · -- the name of a model matters for its profile alone
    refine lt_of_lt_of_le (b := capability p model j + 1 / 25) ?_ hcapability
    show capability p model j + 1 / 10 ^ 4 < capability p model j + 1 / 25
    norm_num
  · exact cost_lt (m := model) hexact hexact' hupgrades request seed hdrawn hdrawn'
      (by linarith)
  · exact latency_lt (m := model) hupgrades request seed hdrawn hdrawn'

section Example

/-- The generator that draws the same for all arguments. -/
def exampleStableRandom : StableRandom ℕ where
  rng :=
    { seeded := Int.toNat
      random := fun s => (0, s + 1)
      randbelow := fun n h s => (⟨s % n, Nat.mod_lt _ h⟩, s + 1)
      positions := fun _ _ h s => (Fin.castLEEmb h, s + 1) }
  lawful _ := ⟨le_rfl, zero_lt_one⟩
  stableRng _ := 0
  bits _ := 0

end Example

theorem fastCheap_upgrades : ("fast-cheap", "reasoning-large") ∈ upgrades := by decide

theorem generate_tradeoff_fastCheap :
    (generate exampleStableRandom { GenomeConfig.defaults.model with name := "fast-cheap" }
        { systemPrompt := "", userInput := "a b" }).costUsd <
      (generate exampleStableRandom { GenomeConfig.defaults.model with name := "reasoning-large" }
        { systemPrompt := "", userInput := "a b", seed := 3 }).costUsd :=
  (generate_tradeoff exampleStableRandom GenomeConfig.defaults.model
    { systemPrompt := "", userInput := "a b" } 3 fastCheap_upgrades).2.1

end MockLLMProvider

end NeuroForge
