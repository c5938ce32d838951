/-
  A benchmark that evolves keeps its evidence.

  The ids of a version are ids that the domain gives to a seed and an index, some of them
  marked with the number of the version that brought them (`Derived`). A mark of the next
  version is therefore fresh, which is what the one look of `renameTaken` into the taken ids
  relies on.

  `dataset_lineage`: along any evolution of a seeded dataset ids stay distinct, a version
  extends every earlier one, and a challenge stays in the split it was first given.
-/
import NeuroForge.Datasets.Evolution
import NeuroForge.Lib.NumberedText
import NeuroForge.Lib.Fallible

namespace NeuroForge

open NumberedText

/-! ## The ids of generated challenges -/

/-- The ids of one `generate_cases` call come from the seed and the index of a case, by
    `caseId`, and never end as a marked id does. -/
structure NamesCases (domain : ApplicationDomain) (caseId : ℤ → ℕ → String) : Prop where
  ids : ∀ n range seed, (domain.generateCases n range seed).map (·.challengeId) =
    (List.range n.toNat).map (caseId seed)
  distinct : ∀ {seed seed' i j}, caseId seed i = caseId seed' j → seed = seed' ∧ i = j
  unmarked : ∀ seed i stem version, caseId seed i ≠ versionedId stem version

theorem versionedId_toList (cid : String) (version : ℕ) :
    (versionedId cid version).toList = (cid.toList ++ ['-']) ++ 'v' :: Nat.toDigits 10 version := by
  simp [versionedId, toString, Nat.toList_repr]

theorem versionedId_inj {a b : String} {m n : ℕ} (h : versionedId a m = versionedId b n) :
    a = b ∧ m = n := by
  have htext := congrArg String.toList h
  rw [versionedId_toList, versionedId_toList] at htext
  obtain ⟨hstem, -, hdigits⟩ := split_number (c := 'v') (d := 'v') rfl rfl
    (allDigits_toDigits m) (allDigits_toDigits n) htext
  exact ⟨String.toList_inj.mp (List.append_cancel_right hstem), toDigits_inj hdigits⟩

section Domains

/-- `f"{code}-{seed}-{i:04d}"`, the ids of the three domains. -/
def domainCaseId (code : String) (seed : ℤ) (i : ℕ) : String :=
  s!"{code}-{seed}-{Rounding.padded 4 i}"

theorem domainCaseId_toList (code : String) (seed : ℤ) (i : ℕ) :
    (domainCaseId code seed i).toList =
      (code.toList ++ '-' :: signed seed) ++ '-' :: (Rounding.padded 4 i).toList := by
  simp [domainCaseId, ← toList_toString_int, toString]

theorem domainCaseId_inj {code : String} {seed seed' : ℤ} {i j : ℕ}
    (h : domainCaseId code seed i = domainCaseId code seed' j) : seed = seed' ∧ i = j := by
  have htext := congrArg String.toList h
  rw [domainCaseId_toList, domainCaseId_toList] at htext
  obtain ⟨hseed, -, hdigits⟩ := split_number (c := '-') (d := '-') rfl rfl
    (allDigits_padded 4 i) (allDigits_padded 4 j) htext
  exact ⟨signed_inj hseed, padded_inj hdigits⟩

/-- Before the digits at its end stands a hyphen, and no `v`. -/
theorem domainCaseId_ne_versionedId (code : String) (seed : ℤ) (i : ℕ) (stem : String)
    (version : ℕ) : domainCaseId code seed i ≠ versionedId stem version := by
  intro h
  have htext := congrArg String.toList h
  rw [domainCaseId_toList, versionedId_toList] at htext
  obtain ⟨-, hchar, -⟩ := split_number (c := '-') (d := 'v') rfl rfl
    (allDigits_padded 4 i) (allDigits_toDigits version) htext
  cases hchar

theorem namesCases_domain {domain : ApplicationDomain} (code : String)
    (h : ∀ n range seed, (domain.generateCases n range seed).map (·.challengeId) =
      (List.range n.toNat).map (domainCaseId code seed)) :
    NamesCases domain (domainCaseId code) where
  ids := h
  distinct := domainCaseId_inj
  unmarked := domainCaseId_ne_versionedId code

end Domains

/-! ## Renaming -/

/-- If marking is fresh, the ids come out distinct, new, and their own or marked. -/
theorem renameTaken_ids {newVersion : ℕ} {taken : List String} {new : List Challenge}
    (hdistinct : (new.map (·.challengeId)).Nodup)
    (hfresh : ∀ c ∈ new, versionedId c.challengeId newVersion ∉ taken)
    (hunmarked : ∀ c ∈ new, ∀ c' ∈ new, versionedId c.challengeId newVersion ≠ c'.challengeId) :
    let ids := (renameTaken newVersion taken new).map (·.challengeId)
    ids.Nodup ∧ ∀ cid ∈ ids, cid ∉ taken ∧
      ∃ c ∈ new, cid = c.challengeId ∨ cid = versionedId c.challengeId newVersion := by
  induction new generalizing taken with
  | nil => exact ⟨List.nodup_nil, fun cid hcid => absurd hcid List.not_mem_nil⟩
  | cons c rest ih =>
      intro ids
      obtain ⟨hc, hrest⟩ := List.nodup_cons.mp hdistinct
      obtain ⟨cid, hcid⟩ : ∃ cid, cid = if c.challengeId ∈ taken then
          versionedId c.challengeId newVersion else c.challengeId := ⟨_, rfl⟩
      have hcases : cid ∉ taken ∧
          (cid = c.challengeId ∨ cid = versionedId c.challengeId newVersion) := by
        rw [hcid]
        split_ifs with h
        · exact ⟨hfresh c List.mem_cons_self, .inr rfl⟩
        · exact ⟨h, .inl rfl⟩
      have hids : ids =
          cid :: (renameTaken newVersion (cid :: taken) rest).map (·.challengeId) := by
        rw [hcid]
        rfl
      -- a later mark is not the id that `c` got
      have hfresh' : ∀ c' ∈ rest, versionedId c'.challengeId newVersion ∉ cid :: taken := by
        intro c' hc' hmem
        have hmem' := List.mem_cons_of_mem c hc'
        rcases List.mem_cons.mp hmem with heq | htaken
        · rcases hcases.2 with hown | hmark
          · exact hunmarked c' hmem' c List.mem_cons_self (heq.trans hown)
          · have hsame := (versionedId_inj (heq.trans hmark)).1
            exact hc (List.mem_map.mpr ⟨c', hc', hsame⟩)
        · exact hfresh c' hmem' htaken
      obtain ⟨hnodup, htail⟩ := ih hrest hfresh' fun c₁ h₁ c₂ h₂ =>
        hunmarked c₁ (List.mem_cons_of_mem c h₁) c₂ (List.mem_cons_of_mem c h₂)
      rw [hids]
      refine ⟨List.nodup_cons.mpr ⟨fun hmem => ?_, hnodup⟩, fun x hx => ?_⟩
      · exact (htail cid hmem).1 List.mem_cons_self
      · rcases List.mem_cons.mp hx with rfl | hx
        · exact ⟨hcases.1, c, List.mem_cons_self, hcases.2⟩
        · obtain ⟨hnew, c', hc', hform⟩ := htail x hx
          exact ⟨fun hmem => hnew (List.mem_cons_of_mem cid hmem), c',
            List.mem_cons_of_mem c hc', hform⟩

theorem deterministicSplit_ids (random : SplitRandom) (challenges : List Challenge) (seed : ℤ) :
    (deterministicSplit random challenges seed).map (·.challengeId) =
      challenges.map (·.challengeId) := by
  simp [deterministicSplit]

/-! ## One step -/

/-- An id of the domain, perhaps marked with a version up to `version`. -/
def Derived (caseId : ℤ → ℕ → String) (version : ℕ) (cid : String) : Prop :=
  ∃ seed i, cid = caseId seed i ∨ ∃ k ≤ version, cid = versionedId (caseId seed i) k

/-- Challenges as the generator gives them: distinct ids of the domain. -/
structure Generated (caseId : ℤ → ℕ → String) (challenges : List Challenge) : Prop where
  distinct : (challenges.map (·.challengeId)).Nodup
  named : ∀ c ∈ challenges, ∃ seed i, c.challengeId = caseId seed i

/-- What holds of the ids of every version. -/
structure NamedWell (caseId : ℤ → ℕ → String) (d : DatasetVersion) : Prop where
  distinct : (d.challenges.map (·.challengeId)).Nodup
  derived : ∀ c ∈ d.challenges, Derived caseId d.version c.challengeId

variable {domain : ApplicationDomain} {caseId : ℤ → ℕ → String} {random : SplitRandom}

theorem NamedWell.extend {current : DatasetVersion} {new : List Challenge}
    (hnames : NamesCases domain caseId) (hcurrent : NamedWell caseId current)
    (hnew : Generated caseId new) (seed : ℤ) (source : String) :
    NamedWell caseId (extend random current new seed source) := by
  have hfresh : ∀ c ∈ new, versionedId c.challengeId (current.version + 1) ∉
      current.challenges.map (·.challengeId) := by
    intro c _ hmem
    obtain ⟨c', hc', heq⟩ := List.mem_map.mp hmem
    obtain ⟨seed', i, hown | ⟨k, hk, hmark⟩⟩ := hcurrent.derived c' hc'
    · exact hnames.unmarked seed' i _ _ (hown.symm.trans heq)
    · have hversion := (versionedId_inj (hmark.symm.trans heq)).2
      omega
  have hunmarked : ∀ c ∈ new, ∀ c' ∈ new,
      versionedId c.challengeId (current.version + 1) ≠ c'.challengeId := by
    intro c _ c' hc' heq
    obtain ⟨seed', i, hown⟩ := hnew.named c' hc'
    exact hnames.unmarked seed' i _ _ (hown.symm.trans heq.symm)
  obtain ⟨hnodup, hids⟩ := renameTaken_ids hnew.distinct hfresh hunmarked
  constructor
  · simp only [NeuroForge.extend, List.map_append, deterministicSplit_ids]
    exact List.nodup_append.mpr ⟨hcurrent.distinct, hnodup, fun a ha b hb heq =>
      (hids b hb).1 (heq ▸ ha)⟩
  · intro c hc
    simp only [NeuroForge.extend] at hc ⊢
    rcases List.mem_append.mp hc with hold | hadded
    · obtain ⟨seed', i, hown | ⟨k, hk, hmark⟩⟩ := hcurrent.derived c hold
      · exact ⟨seed', i, .inl hown⟩
      · exact ⟨seed', i, .inr ⟨k, by omega, hmark⟩⟩
    · have hcid : c.challengeId ∈ (renameTaken (current.version + 1)
          (current.challenges.map (·.challengeId)) new).map (·.challengeId) := by
        rw [← deterministicSplit_ids random _ seed]
        exact List.mem_map_of_mem hadded
      obtain ⟨-, c', hc', hform⟩ := hids _ hcid
      obtain ⟨seed', i, hown⟩ := hnew.named c' hc'
      rw [hown] at hform
      rcases hform with hform | hform
      · exact ⟨seed', i, .inl hform⟩
      · exact ⟨seed', i, .inr ⟨current.version + 1, le_rfl, hform⟩⟩

/-- Some of the cases of one call. -/
theorem generated_filter (hnames : NamesCases domain caseId) (n : ℤ) (range : ℚ × ℚ) (seed : ℤ)
    (keep : Challenge → Bool) :
    Generated caseId ((domain.generateCases n range seed).filter keep) ∧
      ∀ c ∈ (domain.generateCases n range seed).filter keep,
        ∃ i, c.challengeId = caseId seed i := by
  have hnodup : ((domain.generateCases n range seed).map (·.challengeId)).Nodup := by
    rw [hnames.ids]
    exact List.nodup_range.map fun i j hij => (hnames.distinct hij).2
  have hnamed : ∀ c ∈ (domain.generateCases n range seed).filter keep,
      ∃ i, c.challengeId = caseId seed i := by
    intro c hc
    have hcid := List.mem_map_of_mem (f := (·.challengeId)) (List.mem_of_mem_filter hc)
    rw [hnames.ids] at hcid
    obtain ⟨i, -, hi⟩ := List.mem_map.mp hcid
    exact ⟨i, hi.symm⟩
  exact ⟨⟨hnodup.sublist (List.filter_sublist.map _), fun c hc => ⟨seed, hnamed c hc⟩⟩, hnamed⟩

/-- The rounds of `failure_driven_challenges` have different seeds. -/
theorem collectFailing_generated (hnames : NamesCases domain caseId) {wanted : List String}
    {n seed : ℤ} {rounds round : ℕ} {found all : List Challenge}
    (hdistinct : (found.map (·.challengeId)).Nodup)
    (hnamed : ∀ c ∈ found, ∃ s i, c.challengeId = caseId s i ∧ s < seed + round)
    (hall : collectFailing domain wanted n seed rounds round found = some all) :
    Generated caseId all := by
  induction rounds generalizing round found with
  | zero => cases hall
  | succ rounds ih =>
      obtain ⟨hbatch, hseed⟩ := generated_filter hnames (max (n * 8) 16) hardRange (seed + round)
        fun c => c.category ∈ wanted && domain.validate c
      unfold collectFailing at hall
      dsimp only at hall
      generalize (domain.generateCases (max (n * 8) 16) hardRange (seed + round)).filter
        (fun c => c.category ∈ wanted && domain.validate c) = batch at hbatch hseed hall
      have hdistinct' : ((found ++ batch).map (·.challengeId)).Nodup := by
        rw [List.map_append]
        refine List.nodup_append.mpr ⟨hdistinct, hbatch.distinct, fun a ha b hb heq => ?_⟩
        obtain ⟨c, hc, rfl⟩ := List.mem_map.mp ha
        obtain ⟨c', hc', rfl⟩ := List.mem_map.mp hb
        obtain ⟨s, i, hs, hlt⟩ := hnamed c hc
        obtain ⟨j, hj⟩ := hseed c' hc'
        have hsame := (hnames.distinct (hs.symm.trans (heq.trans hj))).1
        omega
      have hnamed' : ∀ c ∈ found ++ batch, ∃ s i, c.challengeId = caseId s i ∧
          s < seed + (round + 1 : ℕ) := by
        intro c hc
        rcases List.mem_append.mp hc with hc | hc
        · obtain ⟨s, i, hs, hlt⟩ := hnamed c hc
          exact ⟨s, i, hs, by omega⟩
        · obtain ⟨i, hi⟩ := hseed c hc
          exact ⟨_, i, hi, by omega⟩
      split_ifs at hall
      · rw [← Option.some.inj hall]
        refine ⟨hdistinct'.sublist ((List.take_sublist _ _).map _), fun c hc => ?_⟩
        obtain ⟨s, i, hs, -⟩ := hnamed' c (List.mem_of_mem_take hc)
        exact ⟨s, i, hs⟩
      · exact ih hdistinct' hnamed' hall

theorem failureDrivenChallenges_generated (hnames : NamesCases domain caseId)
    {categories : List String} {n seed : ℤ} {new : List Challenge}
    (h : failureDrivenChallenges domain categories n seed = .ok new) : Generated caseId new := by
  unfold failureDrivenChallenges at h
  split_ifs at h
  · have hall := (generated_filter hnames n hardRange seed fun _ => true).1
    rw [List.filter_true] at hall
    exact Except.ok.inj h ▸ hall
  · split at h
    · rename_i found hfound
      have hgenerated := collectFailing_generated hnames (by simp) (by simp) hfound
      exact Except.ok.inj h ▸ hgenerated
    · cases h

/-- A step that makes a version extends the current one with generated challenges. -/
theorem evolve_eq_some (hnames : NamesCases domain caseId) {current next : DatasetVersion}
    {step : EvolutionStep} (h : evolve domain random current step = some next) :
    ∃ new seed source, Generated caseId new ∧ next = extend random current new seed source := by
  cases step with
  | ifSaturated meanSearchScore n seed =>
      unfold evolve evolveIfSaturated at h
      dsimp only at h
      split_ifs at h
      exact ⟨_, seed, _, (generated_filter hnames _ _ _ _).1, (Option.some.inj h).symm⟩
  | fromFailures categories n seed =>
      unfold evolve evolveFromFailures at h
      dsimp only at h
      rw [Fallible.toOption_eq_some] at h
      split_ifs at h
      split at h
      · rename_i new hnew
        exact ⟨new, seed, _, failureDrivenChallenges_generated hnames hnew,
          (Except.ok.inj h).symm⟩
      · cases h

theorem seedDataset_ok {datasetId : String} {n seed : ℤ} {difficulty : ℚ × ℚ}
    {first : DatasetVersion}
    (h : seedDataset domain random datasetId n seed difficulty = .ok first) :
    first.version = 1 ∧ first.parentVersion = none ∧ first.challenges =
      deterministicSplit random
        ((domain.generateCases n difficulty seed).filter domain.validate) seed := by
  unfold seedDataset at h
  dsimp only at h
  split_ifs at h
  rw [← Except.ok.inj h]
  exact ⟨rfl, rfl, rfl⟩

theorem namedWell_seed (hnames : NamesCases domain caseId) {datasetId : String} {n seed : ℤ}
    {difficulty : ℚ × ℚ} {first : DatasetVersion}
    (h : seedDataset domain random datasetId n seed difficulty = .ok first) :
    NamedWell caseId first := by
  obtain ⟨-, -, hchallenges⟩ := seedDataset_ok h
  obtain ⟨hgenerated, -⟩ := generated_filter hnames n difficulty seed domain.validate
  have hids : first.challenges.map (·.challengeId) =
      ((domain.generateCases n difficulty seed).filter domain.validate).map (·.challengeId) := by
    rw [hchallenges, deterministicSplit_ids]
  constructor
  · rw [hids]
    exact hgenerated.distinct
  · intro c hc
    have hcid := List.mem_map_of_mem (f := (·.challengeId)) hc
    rw [hids] at hcid
    obtain ⟨c', hc', heq⟩ := List.mem_map.mp hcid
    obtain ⟨s, i, hs⟩ := hgenerated.named c' hc'
    exact ⟨s, i, .inl (heq.symm.trans hs)⟩

/-! ## Whole lineages -/

/-- What a version that comes later keeps of `d`. -/
structure Keeps (d later : DatasetVersion) : Prop where
  challenges : d.challenges <+: later.challenges
  splits : ∀ c ∈ d.challenges, ∀ c' ∈ later.challenges,
    c'.challengeId = c.challengeId → c'.split = c.split

/-- `next` is the version after `d`. -/
def Follows (d next : DatasetVersion) : Prop :=
  next.datasetId = d.datasetId ∧ next.parentVersion = some d.version ∧
    next.version = d.version + 1

/-- The ids of the challenges of a split. -/
def DatasetVersion.splitIds (d : DatasetVersion) (s : Split) : List String :=
  (d.challenges.filter (·.split = s)).map (·.challengeId)

theorem eq_of_challengeId_eq {challenges : List Challenge}
    (h : (challenges.map (·.challengeId)).Nodup) {c c' : Challenge} (hc : c ∈ challenges)
    (hc' : c' ∈ challenges) (heq : c.challengeId = c'.challengeId) : c = c' :=
  List.inj_on_of_nodup_map h hc hc' heq

/-- A longer list with distinct ids keeps the splits of its beginning. -/
theorem keeps_of_prefix {d later : DatasetVersion} (hlater : NamedWell caseId later)
    (h : d.challenges <+: later.challenges) : Keeps d later where
  challenges := h
  splits c hc c' hc' heq := by
    rw [eq_of_challengeId_eq hlater.distinct hc' (h.subset hc) heq]

theorem NamedWell.existsUnique_split {d : DatasetVersion} (h : NamedWell caseId d)
    {c : Challenge} (hc : c ∈ d.challenges) : ∃! s, c.challengeId ∈ d.splitIds s := by
  refine ⟨c.split, ?_, fun s hs => ?_⟩
  · exact List.mem_map_of_mem (List.mem_filter.mpr ⟨hc, by simp⟩)
  · obtain ⟨c', hc', heq⟩ := List.mem_map.mp hs
    obtain ⟨hmem, hsplit⟩ := List.mem_filter.mp hc'
    rw [eq_of_challengeId_eq h.distinct hmem hc heq] at hsplit
    exact (of_decide_eq_true hsplit).symm

theorem lineage_head (domain : ApplicationDomain) (random : SplitRandom)
    (current : DatasetVersion) (steps : List EvolutionStep) :
    ∃ more, lineage domain random current steps = current :: more := by
  induction steps generalizing current with
  | nil => exact ⟨[], rfl⟩
  | cons step steps ih =>
      unfold lineage
      split
      · exact ⟨_, rfl⟩
      · exact ih current

theorem lineage_namedWell (hnames : NamesCases domain caseId) {current : DatasetVersion}
    (hcurrent : NamedWell caseId current) (steps : List EvolutionStep) :
    ∀ d ∈ lineage domain random current steps,
      NamedWell caseId d ∧ current.challenges <+: d.challenges := by
  induction steps generalizing current with
  | nil =>
      intro d hd
      rw [List.mem_singleton.mp hd]
      exact ⟨hcurrent, List.prefix_rfl⟩
  | cons step steps ih =>
      intro d hd
      unfold lineage at hd
      split at hd
      · rename_i next hnext
        obtain ⟨new, seed, source, hnew, rfl⟩ := evolve_eq_some hnames hnext
        rcases List.mem_cons.mp hd with rfl | hd
        · exact ⟨hcurrent, List.prefix_rfl⟩
        · obtain ⟨hd, hpre⟩ := ih (hcurrent.extend hnames hnew seed source) d hd
          exact ⟨hd, (List.prefix_append _ _).trans hpre⟩
      · exact ih hcurrent d hd

theorem lineage_pairwise (hnames : NamesCases domain caseId) {current : DatasetVersion}
    (hcurrent : NamedWell caseId current) (steps : List EvolutionStep) :
    (lineage domain random current steps).Pairwise Keeps := by
  induction steps generalizing current with
  | nil => exact List.pairwise_singleton _ _
  | cons step steps ih =>
      unfold lineage
      split
      · rename_i next hnext
        obtain ⟨new, seed, source, hnew, rfl⟩ := evolve_eq_some hnames hnext
        have hnext' : NamedWell caseId (extend random current new seed source) :=
          hcurrent.extend hnames hnew seed source
        refine List.pairwise_cons.mpr ⟨fun d hd => ?_, ih hnext'⟩
        obtain ⟨hd, hpre⟩ := lineage_namedWell hnames hnext' steps d hd
        exact keeps_of_prefix hd ((List.prefix_append _ _).trans hpre)
      · exact ih hcurrent

theorem lineage_chain (hnames : NamesCases domain caseId) (current : DatasetVersion)
    (steps : List EvolutionStep) : (lineage domain random current steps).IsChain Follows := by
  induction steps generalizing current with
  | nil => exact List.isChain_singleton _
  | cons step steps ih =>
      unfold lineage
      split
      · rename_i next hnext
        obtain ⟨new, seed, source, -, rfl⟩ := evolve_eq_some hnames hnext
        obtain ⟨more, hmore⟩ := lineage_head domain random
          (extend random current new seed source) steps
        have hchain := ih (extend random current new seed source)
        rw [hmore] at hchain ⊢
        exact List.isChain_cons_cons.mpr ⟨⟨rfl, rfl, rfl⟩, hchain⟩
      · exact ih current

/-- **Dataset lineage.** Whatever steps evolve a seeded dataset, in every version the ids are
    distinct and each is in one split; each version is numbered after its parent; and every
    version extends all earlier ones, whose challenges stay in their splits. -/
theorem dataset_lineage (hnames : NamesCases domain caseId) {datasetId : String} {n seed : ℤ}
    {difficulty : ℚ × ℚ} {first : DatasetVersion}
    (hseed : seedDataset domain random datasetId n seed difficulty = .ok first)
    (steps : List EvolutionStep) :
    let versions := lineage domain random first steps
    (∀ d ∈ versions, (d.challenges.map (·.challengeId)).Nodup ∧
      ∀ c ∈ d.challenges, ∃! s, c.challengeId ∈ d.splitIds s) ∧
    versions.head? = some first ∧ first.version = 1 ∧ first.parentVersion = none ∧
    versions.IsChain Follows ∧ versions.Pairwise Keeps := by
  intro versions
  have hfirst := namedWell_seed hnames hseed
  obtain ⟨hversion, hparent, -⟩ := seedDataset_ok hseed
  obtain ⟨more, hmore⟩ := lineage_head domain random first steps
  refine ⟨fun d hd => ?_, ?_, hversion, hparent, lineage_chain hnames first steps,
    lineage_pairwise hnames hfirst steps⟩
  · obtain ⟨hd, -⟩ := lineage_namedWell hnames hfirst steps d hd
    exact ⟨hd.distinct, fun c hc => hd.existsUnique_split hc⟩
  · rw [show versions = first :: more from hmore]
    rfl

section Example

/-- A domain with two categories and the ids of `forge-support`. -/
def exampleDomain : ApplicationDomain where
  generateCases n range seed := (List.range n.toNat).map fun i => {
    challengeId := domainCaseId "fs" seed i
    category := if i % 2 = 0 then "refund" else "billing"
    difficulty := ⟨1/2, by norm_num⟩
    input := "Where is my order?"
    expectedBehavior := "Answer." }
  validate _ := true

def exampleRandom : SplitRandom := fun seed cid => if cid.length % 2 = 0 then 4/5 else seed / 10

/-- The seed 7 again, as the API sends it, and once for a failing category. -/
def repeatedSeeds : List EvolutionStep :=
  [.ifSaturated (19/20) 1 7, .fromFailures ["refund"] 1 7, .ifSaturated (1/2) 5 3]

end Example

theorem dataset_lineage_repeated : ∃ first,
    seedDataset exampleDomain exampleRandom "support" 2 7 = .ok first ∧
      (lineage exampleDomain exampleRandom first repeatedSeeds).Pairwise Keeps ∧
      (lineage exampleDomain exampleRandom first repeatedSeeds).map
          (fun d => d.challenges.map (·.challengeId)) =
        [["fs-7-0000", "fs-7-0001"], ["fs-7-0000", "fs-7-0001", "fs-7-0000-v2"],
          ["fs-7-0000", "fs-7-0001", "fs-7-0000-v2", "fs-7-0000-v3"]] := by
  have hnames : NamesCases exampleDomain (domainCaseId "fs") :=
    namesCases_domain "fs" fun n range seed => by simp [exampleDomain, Function.comp_def]
  refine ⟨_, rfl, ?_, ?_⟩
  · have hseed : seedDataset exampleDomain exampleRandom "support" 2 7 = .ok _ := rfl
    exact (dataset_lineage hnames hseed repeatedSeeds).2.2.2.2.2
  · decide +kernel

end NeuroForge
