/-
  `generate_cases` as the built-in domains write it: round robin over their categories.

  The built-in domains differ in the prefix of their ids, in their categories, in the texts
  they draw for a category and in the rules they attach (`CaseGenerator`). Case `i` is of
  category `i` modulo their number, its difficulty is a draw from the range asked for, rounded
  to three decimals, and its id names the seed and `i`. So within one call ids are distinct
  (`nodup_challengeId`) and no category comes less often than its share
  (`le_countP_category`).

  A difficulty outside `[0, 1]` is refused by `Challenge`; every caller asks for a range inside.
-/
import Mathlib.Data.Int.CardIntervalMod
import NeuroForge.Domains.Base
import NeuroForge.Lib.NumberedText
import NeuroForge.Lib.Random

namespace NeuroForge

open Rounding NumberedText

variable {ρ : Type}

/-- One category of cases: how its input and its expected behaviour are drawn. -/
structure CaseKind (ρ : Type) where
  category : String
  write : ρ → (String × String) × ρ

structure CaseGenerator (ρ : Type) where
  idPrefix : String
  kinds : List (CaseKind ρ)
  nonempty : kinds ≠ []
  rng : Rng ρ
  lawful : rng.Lawful
  /-- `stable_rng(name, seed, n, difficulty_range)`. -/
  stableRng : ℤ → ℤ → ℚ × ℚ → ρ
  evaluationRules : String → ℚ → List String

namespace CaseGenerator

variable (g : CaseGenerator ρ)

def categories : List String := g.kinds.map (·.category)

theorem kinds_pos : 0 < g.kinds.length := List.length_pos_iff.mpr g.nonempty

/-- `categories[i % len(categories)]`. -/
def kindAt (i : ℕ) : CaseKind ρ := g.kinds.get ⟨i % g.kinds.length, Nat.mod_lt i g.kinds_pos⟩

def challengeId (seed : ℤ) (i : ℕ) : String := s!"{g.idPrefix}-{seed}-{padded 4 i}"

/-- The body of the loop, for case `i`. -/
def makeCase (range : ℚ × ℚ) (seed : ℤ) (i : ℕ) (s : ρ) : Option Challenge × ρ :=
  let kind := g.kindAt i
  let (u, s) := g.rng.random s
  let difficulty := roundTo 3 (range.1 + (range.2 - range.1) * u)
  let (text, s) := kind.write s
  let case := if h : 0 ≤ difficulty ∧ difficulty ≤ 1 then
      some {
        challengeId := g.challengeId seed i
        category := kind.category
        difficulty := ⟨difficulty, h⟩
        input := text.1
        expectedBehavior := text.2
        evaluationRules := g.evaluationRules kind.category difficulty }
    else none
  (case, s)

/-- The cases of one call, if none is refused. -/
def generateCases (n : ℤ) (range : ℚ × ℚ) (seed : ℤ) : Option (List Challenge) :=
  (mapDraw (g.makeCase range seed) (List.range n.toNat) (g.stableRng seed n range)).1.mapM id

/-! ## What is generated -/

/-- The range lies inside the difficulties a challenge may have. -/
def ValidRange (range : ℚ × ℚ) : Prop := 0 ≤ range.1 ∧ range.1 ≤ range.2 ∧ range.2 ≤ 1

/-- What is known of case `i` of a call. -/
structure CaseAt (range : ℚ × ℚ) (seed : ℤ) (i : ℕ) (c : Challenge) : Prop where
  challengeId : c.challengeId = g.challengeId seed i
  category : c.category = (g.kindAt i).category
  lower : roundTo 3 range.1 ≤ c.difficulty
  upper : c.difficulty ≤ roundTo 3 range.2
  text : ∃ s, (c.input, c.expectedBehavior) = ((g.kindAt i).write s).1

theorem difficulty_between {range : ℚ × ℚ} (hrange : ValidRange range) {u : ℚ}
    (hu : 0 ≤ u ∧ u < 1) : roundTo 3 range.1 ≤ roundTo 3 (range.1 + (range.2 - range.1) * u) ∧
      roundTo 3 (range.1 + (range.2 - range.1) * u) ≤ roundTo 3 range.2 := by
  have hwidth : 0 ≤ range.2 - range.1 := sub_nonneg.mpr hrange.2.1
  have hge : range.1 ≤ range.1 + (range.2 - range.1) * u :=
    le_add_of_nonneg_right (mul_nonneg hwidth hu.1)
  have hle : range.1 + (range.2 - range.1) * u ≤ range.2 := by
    have := mul_le_of_le_one_right hwidth hu.2.le
    linarith
  exact ⟨roundTo_mono 3 hge, roundTo_mono 3 hle⟩

theorem makeCase_spec {range : ℚ × ℚ} (hrange : ValidRange range) (seed : ℤ) (i : ℕ) (s : ρ) :
    ∃ c, (g.makeCase range seed i s).1 = some c ∧ g.CaseAt range seed i c := by
  have hbetween := difficulty_between hrange (g.lawful s)
  have hvalid : 0 ≤ roundTo 3 (range.1 + (range.2 - range.1) * (g.rng.random s).1) ∧
      roundTo 3 (range.1 + (range.2 - range.1) * (g.rng.random s).1) ≤ 1 :=
    ⟨(roundTo_nonneg 3 hrange.1).trans hbetween.1,
      hbetween.2.trans (roundTo_le_one 3 hrange.2.2)⟩
  refine ⟨_, dif_pos hvalid, ?_⟩
  exact ⟨rfl, rfl, hbetween.1, hbetween.2, _, rfl⟩

/-- No case of a valid range is refused. -/
theorem generateCases_spec {range : ℚ × ℚ} (hrange : ValidRange range) (n seed : ℤ) :
    ∃ cases, g.generateCases n range seed = some cases ∧
      List.Forall₂ (g.CaseAt range seed) (List.range n.toNat) cases :=
  mapM_id_of_forall₂
    (forall₂_mapDraw (g.makeCase_spec hrange seed) (List.range n.toNat) (g.stableRng seed n range))

section
variable {g} {range : ℚ × ℚ} {seed : ℤ} {m : ℕ} {cases : List Challenge}
  (h : List.Forall₂ (g.CaseAt range seed) (List.range m) cases)
include h

theorem map_challengeId : cases.map (·.challengeId) = (List.range m).map (g.challengeId seed) :=
  map_eq_map_of_forall₂ h fun _ _ hc => hc.challengeId

theorem map_category :
    cases.map (·.category) = (List.range m).map fun i => (g.kindAt i).category :=
  map_eq_map_of_forall₂ h fun _ _ hc => hc.category

theorem exists_caseAt {c : Challenge} (hc : c ∈ cases) : ∃ i, g.CaseAt range seed i c := by
  obtain ⟨i, hi, hget⟩ := List.getElem_of_mem hc
  have hi' : i < (List.range m).length := by
    rw [h.length_eq]
    exact hi
  refine ⟨i, ?_⟩
  have hat := h.get hi' hi
  simpa [hget] using hat

end

/-- Every case is of one of the generator's kinds. -/
theorem exists_kind {range : ℚ × ℚ} (hrange : ValidRange range) {n seed : ℤ}
    {cases : List Challenge} (h : g.generateCases n range seed = some cases) {c : Challenge}
    (hc : c ∈ cases) : ∃ kind ∈ g.kinds, c.category = kind.category ∧
      ∃ s, (c.input, c.expectedBehavior) = (kind.write s).1 := by
  obtain ⟨cases', hcases', hspec⟩ := g.generateCases_spec hrange n seed
  have heq : cases' = cases := Option.some.inj (hcases'.symm.trans h)
  obtain ⟨i, hi⟩ := exists_caseAt hspec (heq ▸ hc)
  exact ⟨g.kindAt i, List.get_mem _ _, hi.category, hi.text⟩

theorem category_mem {range : ℚ × ℚ} {n seed : ℤ} {cases : List Challenge}
    (h : g.generateCases n range seed = some cases) {c : Challenge} (hc : c ∈ cases) :
    c.category ∈ g.categories := by
  obtain ⟨i, -, s, hs⟩ := exists_of_mem_mapDraw (mem_of_mapM_id h hc)
  simp only [makeCase] at hs
  split_ifs at hs
  cases hs
  exact List.mem_map_of_mem (List.get_mem _ _)

/-! ## Ids -/

theorem challengeId_injective (seed : ℤ) : Function.Injective (g.challengeId seed) := by
  intro i j h
  have hlist := congrArg String.toList h
  have hnumber : (toString (padded 4 i)).toList = (toString (padded 4 j)).toList := by
    simpa [challengeId] using hlist
  exact padded_inj hnumber

theorem nodup_challengeId {range : ℚ × ℚ} {seed : ℤ} {m : ℕ} {cases : List Challenge}
    (h : List.Forall₂ (g.CaseAt range seed) (List.range m) cases) :
    (cases.map (·.challengeId)).Nodup := by
  rw [map_challengeId h]
  exact List.nodup_range.map (g.challengeId_injective seed)

/-! ## Shares -/

/-- Dealing `m` cases to `k` hands in turn, every hand gets one for each full round. -/
theorem div_le_countP_mod {k j : ℕ} (hj : j < k) (m : ℕ) :
    m / k ≤ (List.range m).countP fun i => i % k = j := by
  have hcount : (List.range m).countP (fun i => i % k = j) = Nat.count (· ≡ j [MOD k]) m := by
    induction m with
    | zero => rfl
    | succ m ih =>
        have hiff : m ≡ j [MOD k] ↔ m % k = j := by
          unfold Nat.ModEq
          rw [Nat.mod_eq_of_lt hj]
        rw [List.range_succ, List.countP_append, ih, Nat.count_succ, List.countP_singleton]
        simp only [decide_eq_true_eq, hiff]
  rw [hcount, Nat.count_modEq_card _ (Nat.zero_lt_of_lt hj)]
  exact Nat.le_add_right _ _

/-- Every category of the generator gets its share of the cases. -/
theorem le_countP_category {range : ℚ × ℚ} {seed : ℤ} {m : ℕ} {cases : List Challenge}
    (h : List.Forall₂ (g.CaseAt range seed) (List.range m) cases) {category : String}
    (hmem : category ∈ g.categories) :
    m / g.kinds.length ≤ cases.countP fun c => c.category = category := by
  obtain ⟨kind, hkind, rfl⟩ := List.mem_map.mp hmem
  obtain ⟨j, hj, hget⟩ := List.getElem_of_mem hkind
  calc m / g.kinds.length ≤ (List.range m).countP fun i => i % g.kinds.length = j :=
        div_le_countP_mod hj m
    _ ≤ (List.range m).countP fun i => (g.kindAt i).category = kind.category := by
        refine List.countP_mono_left fun i _ hi => ?_
        have hi : i % g.kinds.length = j := of_decide_eq_true hi
        simp [kindAt, hi, hget]
    _ = (cases.map (·.category)).countP fun c => c = kind.category := by
        rw [map_category h, List.countP_map]
        rfl
    _ = cases.countP fun c => c.category = kind.category := by
        rw [List.countP_map]
        rfl

end CaseGenerator

/-! ## Domains -/

/-- A domain that generates its categories round robin: at most eight of them, and all cases
    of a valid range pass its own check. -/
structure RoundRobinDomain (ρ : Type) extends CaseGenerator ρ where
  atMostEight : kinds.length ≤ 8
  validate : Challenge → Bool
  valid : ∀ {range : ℚ × ℚ}, CaseGenerator.ValidRange range → ∀ {n seed : ℤ}
    {cases : List Challenge}, toCaseGenerator.generateCases n range seed = some cases →
    ∀ c ∈ cases, validate c = true

namespace RoundRobinDomain

/-- The domain as the benchmark sees it. -/
def toDomain (d : RoundRobinDomain ρ) : ApplicationDomain where
  generateCases n range seed := (d.toCaseGenerator.generateCases n range seed).getD []
  validate := d.validate

/-- What the benchmark gets of a valid range. -/
theorem toDomain_spec (d : RoundRobinDomain ρ) {range : ℚ × ℚ}
    (hrange : CaseGenerator.ValidRange range) (n seed : ℤ) :
    List.Forall₂ (d.toCaseGenerator.CaseAt range seed) (List.range n.toNat)
        (d.toDomain.generateCases n range seed) ∧
      ∀ c ∈ d.toDomain.generateCases n range seed, d.validate c = true := by
  obtain ⟨cases, hcases, hspec⟩ := d.toCaseGenerator.generateCases_spec hrange n seed
  have hgenerated : d.toDomain.generateCases n range seed = cases := by
    show (d.toCaseGenerator.generateCases n range seed).getD [] = cases
    rw [hcases]
    rfl
  rw [hgenerated]
  exact ⟨hspec, d.valid hrange hcases⟩

theorem category_mem (d : RoundRobinDomain ρ) {range : ℚ × ℚ} {n seed : ℤ} {c : Challenge}
    (hc : c ∈ d.toDomain.generateCases n range seed) : c.category ∈ d.categories := by
  have hc : c ∈ (d.toCaseGenerator.generateCases n range seed).getD [] := hc
  cases hcases : d.toCaseGenerator.generateCases n range seed with
  | none =>
      rw [hcases] at hc
      cases hc
  | some cases =>
      rw [hcases] at hc
      exact d.toCaseGenerator.category_mem hcases hc

end RoundRobinDomain

end NeuroForge
