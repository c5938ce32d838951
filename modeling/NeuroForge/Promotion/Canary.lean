/-
  `promotion/canary.py`: when the traffic of a canary is fresh.

  `fresh_traffic` asks the generator of the dataset for new cases, and the ids of these come
  from the seed and the index of a case alone. A dataset has the ids of the cases that were
  drawn for it (`drawn`), at its seeding and in every evolution since; an id that is taken
  is marked and then no id of a case any more (`mem_ids_of_lineage`). So a request repeats a
  challenge exactly where the canary's seed was used before and drew the request's index
  (`fresh_iff`): by default the seed is a hash of the candidate's, but the caller may choose it.
-/
import NeuroForge.Datasets.Hardening

namespace NeuroForge

open CaseGenerator

variable {ρ : Type}

/-- The brand-new requests of a canary; an empty dataset has no range of difficulties. -/
def freshTraffic (domain : ApplicationDomain) (dataset : DatasetVersion) (nRequests seed : ℤ) :
    Option (List Challenge) := do
  let difficulties := dataset.challenges.map fun c => c.difficulty.val
  let lo ← difficulties.min?
  let hi ← difficulties.max?
  return domain.generateCases nRequests (lo, hi) seed

/-- The seed of the traffic: the caller's, or one that `stable_int` makes of the candidate's
    hash. -/
def canarySeed (stableInt : String → ℤ) (trafficSeed : Option ℤ) (candidateHash : String) : ℤ :=
  trafficSeed.getD (stableInt candidateHash)

def DatasetVersion.ids (dataset : DatasetVersion) : List String :=
  dataset.challenges.map (·.challengeId)

/-! ## What was drawn -/

namespace RoundRobinDomain

variable (d : RoundRobinDomain ρ)

/-- The cases a step adds: by their seed and index. -/
def drawnBy : EvolutionStep → List (ℤ × ℕ)
  | .ifSaturated meanSearchScore n seed =>
      if isSaturated meanSearchScore then (List.range n.toNat).map (seed, ·) else []
  | .fromFailures categories n seed =>
      (((List.range (max (n * 8) 16).toNat).filter fun i =>
        (d.kindAt i).category ∈ categories).take n.toNat).map (seed, ·)

/-- The cases a dataset has been given. -/
def drawn (n seed : ℤ) (steps : List EvolutionStep) : List (ℤ × ℕ) :=
  (List.range n.toNat).map (seed, ·) ++ steps.flatMap d.drawnBy

end RoundRobinDomain

/-! ## Ids -/

/-- Renaming hides no id that is not a marked one. -/
theorem mem_renameTaken {x : String} (hx : ∀ stem version, x ≠ versionedId stem version)
    (newVersion : ℕ) (taken : List String) (new : List Challenge) :
    (x ∈ taken ∨ x ∈ (renameTaken newVersion taken new).map (·.challengeId)) ↔
      x ∈ taken ∨ x ∈ new.map (·.challengeId) := by
  induction new generalizing taken with
  | nil => rfl
  | cons c rest ih =>
      unfold renameTaken
      dsimp only
      split_ifs with htaken
      · have hrest := ih (versionedId c.challengeId newVersion :: taken)
        simp only [List.mem_cons, List.map_cons, hx, false_or] at hrest ⊢
        rw [hrest]
        constructor
        · exact fun h => h.imp_right .inr
        · rintro (h | rfl | h)
          · exact .inl h
          · exact .inl htaken
          · exact .inr h
      · have hrest := ih (c.challengeId :: taken)
        simp only [List.mem_cons, List.map_cons] at hrest ⊢
        tauto

theorem mem_ids_extend {x : String} (hx : ∀ stem version, x ≠ versionedId stem version)
    (random : SplitRandom) (current : DatasetVersion) (new : List Challenge) (seed : ℤ)
    (source : String) :
    x ∈ (extend random current new seed source).ids ↔
      x ∈ current.ids ∨ x ∈ new.map (·.challengeId) := by
  unfold DatasetVersion.ids extend
  dsimp only
  rw [List.map_append, deterministicSplit_ids, List.mem_append]
  exact mem_renameTaken hx _ _ new

/-! ## Every version has what was drawn for it -/

namespace RoundRobinDomain

variable {d : RoundRobinDomain ρ}

theorem challengeId_ne_versionedId (seed : ℤ) (i : ℕ) (stem : String) (version : ℕ) :
    d.challengeId seed i ≠ versionedId stem version :=
  domainCaseId_ne_versionedId d.idPrefix seed i stem version

theorem challengeId_mem_map {seed seed' : ℤ} {i : ℕ} {indices : List ℕ} :
    d.challengeId seed i ∈ indices.map (d.challengeId seed') ↔
      (seed, i) ∈ indices.map (seed', ·) := by
  simp only [List.mem_map, Prod.mk.injEq]
  constructor
  · rintro ⟨j, hj, heq⟩
    obtain ⟨rfl, rfl⟩ := domainCaseId_inj heq
    exact ⟨j, hj, rfl, rfl⟩
  · rintro ⟨j, hj, rfl, rfl⟩
    exact ⟨j, hj, rfl⟩

/-- The cases of one call that pass a test on their category. -/
theorem ids_filter {range : ℚ × ℚ} (hrange : ValidRange range) (n seed : ℤ)
    (keep : String → Bool) :
    ((d.toDomain.generateCases n range seed).filter fun c =>
        keep c.category && d.validate c).map (·.challengeId) =
      ((List.range n.toNat).filter fun i => keep (d.kindAt i).category).map
        (d.challengeId seed) := by
  obtain ⟨hspec, hvalid⟩ := d.toDomain_spec hrange n seed
  have hkeep : ∀ c ∈ d.toDomain.generateCases n range seed,
      (keep c.category && d.validate c) = keep c.category := by
    intro c hc
    rw [hvalid c hc, Bool.and_true]
  rw [List.filter_congr hkeep]
  clear hkeep hvalid
  generalize List.range n.toNat = indices, d.toDomain.generateCases n range seed = cases
    at hspec ⊢
  induction hspec with
  | nil => rfl
  | cons hat _ ih =>
      rw [List.filter_cons, List.filter_cons, hat.category]
      split_ifs
      · rw [List.map_cons, List.map_cons, ih, hat.challengeId]
      · exact ih

theorem ids_validated {range : ℚ × ℚ} (hrange : ValidRange range) (n seed : ℤ) :
    ((d.toDomain.generateCases n range seed).filter d.toDomain.validate).map (·.challengeId) =
      (List.range n.toNat).map (d.challengeId seed) := by
  have hall := d.ids_filter hrange n seed fun _ => true
  simp only [Bool.true_and, List.filter_true] at hall
  exact hall

theorem category_kindAt_mem (i : ℕ) : (d.kindAt i).category ∈ d.categories :=
  List.mem_map_of_mem (List.get_mem _ _)

theorem evolve_fromFailures_of_known (random : SplitRandom) (current : DatasetVersion)
    {categories : List String} {category : String} (hwanted : category ∈ categories)
    (hknown : category ∈ d.categories) {n : ℤ} (hn : 1 ≤ n) (seed : ℤ) :
    evolve d.toDomain random current (.fromFailures categories n seed) =
      some (extend random current ((d.kept categories n seed).take n.toNat) seed
        "failure_driven") := by
  have hnonempty : categories ≠ [] := List.ne_nil_of_mem hwanted
  unfold evolve evolveFromFailures
  dsimp only
  rw [if_neg hnonempty, d.found_of_known hwanted hknown hn seed]
  rfl

theorem evolve_fromFailures_of_none (random : SplitRandom) (current : DatasetVersion)
    {categories : List String} {n : ℤ} (seed : ℤ)
    (hnone : n < 1 ∨ ∀ category ∈ categories, category ∉ d.categories) :
    evolve d.toDomain random current (.fromFailures categories n seed) = none := by
  unfold evolve evolveFromFailures
  dsimp only
  rcases eq_or_ne categories [] with hempty | hnonempty
  · rw [if_pos hempty]
    rfl
  · obtain ⟨e, he⟩ : ∃ e, failureDrivenChallenges d.toDomain categories n seed = .error e := by
      rcases lt_or_ge n 1 with hfew | hn
      · exact ⟨_, if_pos hfew⟩
      · exact d.raises_of_unknown hnonempty (hnone.resolve_left (not_lt.mpr hn)) hn seed
    rw [if_neg hnonempty, he]
    rfl

/-- A step adds the cases that are drawn by it. -/
theorem mem_ids_evolve {random : SplitRandom} {current : DatasetVersion}
    (hscore : current.difficultyScore = meanDifficulty current.challenges)
    (step : EvolutionStep) (seed : ℤ) (i : ℕ) :
    d.challengeId seed i ∈ ((evolve d.toDomain random current step).getD current).ids ↔
      d.challengeId seed i ∈ current.ids ∨ (seed, i) ∈ d.drawnBy step := by
  have hunmarked := d.challengeId_ne_versionedId seed i
  have hband : ValidRange (band current.difficultyScore) :=
    band_valid (hscore ▸ meanDifficulty_mem current.challenges)
  cases step with
  | ifSaturated meanSearchScore n seed' =>
      unfold drawnBy evolve
      dsimp only
      cases hsaturated : isSaturated meanSearchScore with
      | true =>
          rw [evolveIfSaturated_of_saturated _ _ _ hsaturated, Option.getD_some,
            mem_ids_extend hunmarked, d.ids_validated hband, challengeId_mem_map, if_pos rfl]
      | false =>
          unfold evolveIfSaturated
          simp [hsaturated]
  | fromFailures categories n seed' =>
      by_cases hsome : 1 ≤ n ∧ ∃ category ∈ categories, category ∈ d.categories
      · obtain ⟨hn, category, hwanted, hknown⟩ := hsome
        rw [d.evolve_fromFailures_of_known random current hwanted hknown hn seed',
          Option.getD_some, mem_ids_extend hunmarked, List.map_take, kept,
          d.ids_filter hardRange_valid _ _ (fun category => category ∈ categories),
          ← List.map_take, challengeId_mem_map]
        rfl
      · have hnone : n < 1 ∨ ∀ category ∈ categories, category ∉ d.categories := by
          by_contra hnot
          obtain ⟨hn, hknown⟩ := not_or.mp hnot
          exact hsome ⟨not_lt.mp hn, by simpa using hknown⟩
        have hdrawn : d.drawnBy (.fromFailures categories n seed') = [] := by
          unfold drawnBy
          dsimp only
          rcases hnone with hfew | hunknown
          · have hzero : n.toNat = 0 := by omega
            rw [hzero, List.take_zero, List.map_nil]
          · have hfilter : ((List.range (max (n * 8) 16).toNat).filter fun i =>
                (d.kindAt i).category ∈ categories) = [] := by
              refine List.filter_eq_nil_iff.mpr fun j _ hj => ?_
              exact hunknown _ (of_decide_eq_true hj) (d.category_kindAt_mem j)
            rw [hfilter, List.take_nil, List.map_nil]
        rw [d.evolve_fromFailures_of_none random current seed' hnone, hdrawn]
        simp

end RoundRobinDomain

/-- The score of a version is that of its challenges. -/
theorem evolve_score {domain : ApplicationDomain} {random : SplitRandom}
    {current next : DatasetVersion} {step : EvolutionStep}
    (h : evolve domain random current step = some next) :
    next.difficultyScore = meanDifficulty next.challenges := by
  cases step with
  | ifSaturated meanSearchScore n seed =>
      unfold evolve evolveIfSaturated at h
      dsimp only at h
      split_ifs at h
      rw [← Option.some.inj h]
      rfl
  | fromFailures categories n seed =>
      unfold evolve evolveFromFailures at h
      dsimp only at h
      rw [Fallible.toOption_eq_some] at h
      split_ifs at h
      split at h
      · rw [← Except.ok.inj h]
        rfl
      · cases h

theorem seedDataset_score {domain : ApplicationDomain} {random : SplitRandom}
    {datasetId : String} {n seed : ℤ} {difficulty : ℚ × ℚ} {first : DatasetVersion}
    (h : seedDataset domain random datasetId n seed difficulty = .ok first) :
    first.difficultyScore = meanDifficulty first.challenges := by
  unfold seedDataset at h
  dsimp only at h
  split_ifs at h
  rw [← Except.ok.inj h]

theorem getLast?_lineage_cons (domain : ApplicationDomain) (random : SplitRandom)
    (current : DatasetVersion) (step : EvolutionStep) (steps : List EvolutionStep) :
    (lineage domain random current (step :: steps)).getLast? =
      (lineage domain random ((evolve domain random current step).getD current)
        steps).getLast? := by
  rw [lineage]
  split
  · rename_i next hnext
    obtain ⟨more, hmore⟩ := lineage_head domain random next steps
    rw [hnext, Option.getD_some, hmore, List.getLast?_cons_cons]
  · rename_i hnone
    rw [hnone, Option.getD_none]

namespace RoundRobinDomain

variable {d : RoundRobinDomain ρ} {random : SplitRandom}

/-- The last version has the cases drawn for the first one and by the steps. -/
theorem mem_ids_of_lineage {current dataset : DatasetVersion} {steps : List EvolutionStep}
    (hscore : current.difficultyScore = meanDifficulty current.challenges)
    (hlast : (lineage d.toDomain random current steps).getLast? = some dataset) (seed : ℤ)
    (i : ℕ) : d.challengeId seed i ∈ dataset.ids ↔
      d.challengeId seed i ∈ current.ids ∨ (seed, i) ∈ steps.flatMap d.drawnBy := by
  induction steps generalizing current with
  | nil =>
      obtain rfl : current = dataset := Option.some.inj hlast
      simp
  | cons step steps ih =>
      rw [getLast?_lineage_cons] at hlast
      have hscore' : ((evolve d.toDomain random current step).getD current).difficultyScore =
          meanDifficulty ((evolve d.toDomain random current step).getD current).challenges := by
        cases hevolve : evolve d.toDomain random current step with
        | none => exact hscore
        | some next => exact evolve_score hevolve
      rw [ih hscore' hlast, d.mem_ids_evolve hscore, List.flatMap_cons, List.mem_append,
        or_assoc]

/-- A dataset is not seeded without challenges. -/
theorem seedDataset_pos {datasetId : String} {n seed : ℤ} {difficulty : ℚ × ℚ}
    {first : DatasetVersion} (hrange : ValidRange difficulty)
    (hseed : seedDataset d.toDomain random datasetId n seed difficulty = .ok first) :
    0 < n.toNat := by
  by_contra hnot
  have hnone := d.ids_validated hrange n seed
  rw [Nat.eq_zero_of_not_pos hnot, List.range_zero, List.map_nil] at hnone
  unfold seedDataset at hseed
  dsimp only at hseed
  rw [if_pos (List.map_eq_nil_iff.mp hnone)] at hseed
  cases hseed

theorem exists_seedDataset (d : RoundRobinDomain ρ) (random : SplitRandom) (datasetId : String)
    {n : ℤ} (hn : 0 < n) (seed : ℤ) {difficulty : ℚ × ℚ} (hrange : ValidRange difficulty) :
    ∃ first, seedDataset d.toDomain random datasetId n seed difficulty = .ok first := by
  have hsome : (d.toDomain.generateCases n difficulty seed).filter d.toDomain.validate ≠ [] := by
    intro hnone
    have hids := d.ids_validated hrange n seed
    rw [hnone, List.map_nil, eq_comm, List.map_eq_nil_iff, List.range_eq_nil] at hids
    omega
  unfold seedDataset
  exact ⟨_, if_neg hsome⟩

/-- The ids of a seeded dataset are those of the cases drawn for it. -/
theorem mem_ids_iff_drawn {datasetId : String} {n seed : ℤ} {difficulty : ℚ × ℚ}
    {first dataset : DatasetVersion} {steps : List EvolutionStep}
    (hrange : ValidRange difficulty)
    (hseed : seedDataset d.toDomain random datasetId n seed difficulty = .ok first)
    (hlast : (lineage d.toDomain random first steps).getLast? = some dataset) (seed' : ℤ)
    (i : ℕ) : d.challengeId seed' i ∈ dataset.ids ↔ (seed', i) ∈ d.drawn n seed steps := by
  obtain ⟨-, -, hchallenges⟩ := seedDataset_ok hseed
  have hids : first.ids = (List.range n.toNat).map (d.challengeId seed) := by
    unfold DatasetVersion.ids
    rw [hchallenges, deterministicSplit_ids, d.ids_validated hrange]
  rw [mem_ids_of_lineage (seedDataset_score hseed) hlast, hids, challengeId_mem_map, drawn,
    List.mem_append]

/-! ## Traffic -/

/-- The difficulties of a version are a range that cases may be asked of. -/
theorem exists_difficultyRange {dataset : DatasetVersion} (hne : dataset.challenges ≠ []) :
    ∃ lo hi, (dataset.challenges.map fun c => c.difficulty.val).min? = some lo ∧
      (dataset.challenges.map fun c => c.difficulty.val).max? = some hi ∧
      ValidRange (lo, hi) := by
  have hne' : (dataset.challenges.map fun c => c.difficulty.val) ≠ [] :=
    fun h => hne (List.map_eq_nil_iff.mp h)
  obtain ⟨lo, hlo⟩ := Option.isSome_iff_exists.mp (List.isSome_min?_of_ne_nil hne')
  obtain ⟨hi, hhi⟩ := Option.isSome_iff_exists.mp (List.isSome_max?_of_ne_nil hne')
  obtain ⟨c, -, rfl⟩ := List.mem_map.mp (List.min?_mem hlo)
  obtain ⟨c', hc', rfl⟩ := List.mem_map.mp (List.max?_mem hhi)
  have hle := (List.min?_eq_some_iff.mp hlo).2 c'.difficulty.val (List.max?_mem hhi)
  exact ⟨_, _, hlo, hhi, c.difficulty.2.1, hle, c'.difficulty.2.2⟩

/-- The requests of a canary carry the ids of its seed. -/
theorem freshTraffic_spec {dataset : DatasetVersion} (hne : dataset.challenges ≠ [])
    (nRequests seed : ℤ) : ∃ traffic,
      freshTraffic d.toDomain dataset nRequests seed = some traffic ∧
        traffic.map (·.challengeId) = (List.range nRequests.toNat).map (d.challengeId seed) := by
  obtain ⟨lo, hi, hlo, hhi, hrange⟩ := exists_difficultyRange hne
  refine ⟨d.toDomain.generateCases nRequests (lo, hi) seed, ?_, ?_⟩
  · unfold freshTraffic
    dsimp only
    rw [hlo, hhi]
    rfl
  · exact map_challengeId (d.toDomain_spec hrange nRequests seed).1

/-- No request of a canary is a challenge of the dataset, exactly if the seed of the canary has
    not drawn one of its cases before. -/
theorem traffic_fresh_iff (d : RoundRobinDomain ρ) (random : SplitRandom) {datasetId : String}
    {n seed : ℤ} {difficulty : ℚ × ℚ} {first dataset : DatasetVersion}
    {steps : List EvolutionStep} (hrange : ValidRange difficulty)
    (hseed : seedDataset d.toDomain random datasetId n seed difficulty = .ok first)
    (hlast : (lineage d.toDomain random first steps).getLast? = some dataset)
    (stableInt : String → ℤ) (trafficSeed : Option ℤ) (candidateHash : String)
    (nRequests : ℤ) : ∃ traffic,
      freshTraffic d.toDomain dataset nRequests
          (canarySeed stableInt trafficSeed candidateHash) = some traffic ∧
        ((∀ c ∈ traffic, c.challengeId ∉ dataset.ids) ↔ ∀ i : ℕ, i < nRequests →
          (canarySeed stableInt trafficSeed candidateHash, i) ∉ d.drawn n seed steps) := by
  have hdrawn := mem_ids_iff_drawn hrange hseed hlast
  have hne : dataset.challenges ≠ [] := by
    intro hempty
    have hfirst : (seed, 0) ∈ d.drawn n seed steps :=
      List.mem_append_left _ (List.mem_map_of_mem
        (List.mem_range.mpr (seedDataset_pos hrange hseed)))
    rw [← hdrawn, DatasetVersion.ids, hempty] at hfirst
    cases hfirst
  obtain ⟨traffic, htraffic, hids⟩ := d.freshTraffic_spec hne nRequests
    (canarySeed stableInt trafficSeed candidateHash)
  refine ⟨traffic, htraffic, ?_⟩
  have hforall : (∀ c ∈ traffic, c.challengeId ∉ dataset.ids) ↔
      ∀ x ∈ traffic.map (·.challengeId), x ∉ dataset.ids := by
    simp
  rw [hforall, hids]
  simp only [List.forall_mem_map, List.mem_range, hdrawn]
  refine forall_congr' fun i => ?_
  have hlt : i < nRequests.toNat ↔ (i : ℤ) < nRequests := by omega
  rw [hlt]

end RoundRobinDomain

/-- ForgeSupport once more, for a dataset of three challenges and two evolutions with the seed
    of the first. -/
def supportSteps : List EvolutionStep :=
  [.fromFailures ["refund_request"] 1 7, .ifSaturated (19/20) 2 7]

theorem traffic_fresh_of_new_seed : ∃ first dataset traffic,
    seedDataset supportExample.toDomain (fun _ _ => 0) "support" 3 7 = .ok first ∧
    (lineage supportExample.toDomain (fun _ _ => 0) first supportSteps).getLast? = some dataset ∧
    freshTraffic supportExample.toDomain dataset 20 (canarySeed (fun _ => 99) none "hash") =
      some traffic ∧
    ∀ c ∈ traffic, c.challengeId ∉ dataset.ids := by
  have hrange : ValidRange (3/20, 9/20) := by norm_num [ValidRange]
  obtain ⟨first, hseed⟩ := supportExample.exists_seedDataset (fun _ _ => 0) "support"
    (by decide : (0 : ℤ) < 3) 7 hrange
  obtain ⟨more, hmore⟩ := lineage_head supportExample.toDomain (fun _ _ => 0) first supportSteps
  obtain ⟨dataset, hlast⟩ : ∃ dataset,
      (lineage supportExample.toDomain (fun _ _ => 0) first supportSteps).getLast? =
        some dataset := by
    rw [hmore]
    exact ⟨_, List.getLast?_cons⟩
  obtain ⟨traffic, htraffic, hfresh⟩ := supportExample.traffic_fresh_iff (fun _ _ => 0) hrange
    hseed hlast (fun _ => 99) none "hash" 20
  have hseeds : ∀ e ∈ supportExample.drawn 3 7 supportSteps, e.1 = 7 := by decide +kernel
  have hother : canarySeed (fun _ => 99) none "hash" ≠ 7 := by decide
  exact ⟨first, dataset, traffic, hseed, hlast, htraffic,
    hfresh.mpr fun i _ hmem => hother (hseeds _ hmem)⟩

/-- A caller who gives the canary the seed of the dataset gets the dataset's first challenges. -/
theorem traffic_repeats_seed : ∃ dataset traffic,
    seedDataset supportExample.toDomain (fun _ _ => 0) "support" 3 7 = .ok dataset ∧
    freshTraffic supportExample.toDomain dataset 20 (canarySeed (fun _ => 99) (some 7) "hash") =
      some traffic ∧
    ∃ c ∈ traffic, c.challengeId ∈ dataset.ids := by
  have hrange : ValidRange (3/20, 9/20) := by norm_num [ValidRange]
  obtain ⟨dataset, hseed⟩ := supportExample.exists_seedDataset (fun _ _ => 0) "support"
    (by decide : (0 : ℤ) < 3) 7 hrange
  have hlast : (lineage supportExample.toDomain (fun _ _ => 0) dataset []).getLast? =
      some dataset := rfl
  have hold : supportExample.challengeId 7 0 ∈ dataset.ids :=
    (RoundRobinDomain.mem_ids_iff_drawn hrange hseed hlast 7 0).mpr (by decide +kernel)
  have hne : dataset.challenges ≠ [] := by
    intro hempty
    rw [DatasetVersion.ids, hempty] at hold
    cases hold
  obtain ⟨traffic, htraffic, hids⟩ := supportExample.freshTraffic_spec hne 20
    (canarySeed (fun _ => 99) (some 7) "hash")
  have hnew : supportExample.challengeId 7 0 ∈ traffic.map (·.challengeId) := by
    rw [hids]
    exact List.mem_map_of_mem (List.mem_range.mpr (by decide))
  obtain ⟨c, hc, heq⟩ := List.mem_map.mp hnew
  exact ⟨dataset, traffic, hseed, htraffic, c, hc, heq ▸ hold⟩

end NeuroForge
