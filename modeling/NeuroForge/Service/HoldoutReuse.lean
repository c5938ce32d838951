/-
  When two reviews decide from the same measurement.

  A row of the measurement store, once there, stays (`Served.keepsHoldouts`). It is stored
  under the genome and the dataset version, with the baseline as part of its value: a review
  against that baseline reuses it, a review against another measures afresh, each time
  under its own experiment's settings. Genomes, dataset versions and results stay as well, so
  a fresh measurement depends on these settings alone (`measure_eq_of_settings`).
  `reviews_share_evidence` says what follows for two reviews of any history.
-/
import NeuroForge.Service.DatasetRace
import NeuroForge.Service.Evidenced

namespace NeuroForge

open Fallible Database

variable {p : Platform} {db : Database}

/-! ## Rows stay -/

theorem review_keeps_holdout {experimentId genomeHash : String} {now : ℕ}
    {review : PromotionReview} {db' : Database}
    (h : reviewPromotion p db experimentId genomeHash now = .ok (review, db')) :
    KeepsHoldouts db db' := by
  obtain ⟨input, used, settled, hlookup, hsettled, -, rfl⟩ := reviewPromotion_ok h
  obtain ⟨-, hgenome, -, -, -, -, hstored⟩ := reviewLookup_ok hlookup
  refine KeepsHoldouts.trans ?_ (KeepsHoldouts.of_eq (holdouts_conclude input used.1 now))
  rcases settleEvidence_ok (hgenome ▸ hstored) hsettled with
    ⟨r, -, rfl, -⟩ | ⟨r, -, rfl, -⟩ | ⟨-, -, rfl⟩
  · exact KeepsHoldouts.of_eq rfl
  · exact KeepsHoldouts.of_eq rfl
  · exact KeepsHoldouts.of_append rfl

/-- No request removes or changes a stored measurement. -/
theorem Served.keepsHoldouts {now : ℕ} {request : Request} {db' : Database}
    (h : Served p db now request db') : KeepsHoldouts db db' := by
  cases h with
  | unchanged => exact KeepsHoldouts.of_eq rfl
  | created hcreated => exact (sameReviews_createExperiment hcreated).keepsHoldouts
  | failed => exact (sameReviews_saveExperiment ..).keepsHoldouts
  | ran =>
      exact ((sameReviews_saveExperiment ..).trans (sameReviews_finishRun _ _)).keepsHoldouts
  | reviewed hreview => exact review_keeps_holdout hreview
  | canaried => exact (sameReviews_recordCanary _ _).keepsHoldouts
  | promoted | rolledBack => exact (sameReviews_productionChange ..).keepsHoldouts
  | saved dataset => exact (sameReviews_saveDatasetVersion dataset).keepsHoldouts

theorem history_keeps_holdout {history : List Timed} {db' : Database}
    (h : Transition.run (serialStep p) db history = some db') : KeepsHoldouts db db' := by
  refine Transition.run_invariant (fun s t s' hs hstep => ?_) (KeepsHoldouts.of_eq rfl) h
  exact hs.trans (serialStep_did hstep).2.keepsHoldouts

/-! ## Two reviews -/

/-- No measurement against another baseline is stored when the review looks. -/
def ReviewInput.NoOtherBaseline (p : Platform) (input : ReviewInput) : Prop :=
  ∀ row ∈ input.stored, row.evidence.baselineHash = input.baselineHash p

/-- What a review leaves: a row under its key. It is against the review's baseline exactly if
    the review found no other, and then it holds the evidence; if it is against another one,
    the evidence is a fresh measurement. -/
theorem review_leaves_row {experimentId genomeHash : String} {now : ℕ}
    {review : PromotionReview} {db' : Database} {input : ReviewInput}
    (hlookup : reviewLookup db experimentId genomeHash = .ok input)
    (h : reviewPromotion p db experimentId genomeHash now = .ok (review, db')) :
    ∃ row, db'.getHoldoutEvaluation genomeHash input.dataset.datasetId input.dataset.version =
        some row ∧
      (input.NoOtherBaseline p ↔ row.evidence.baselineHash = input.baselineHash p) ∧
      ((row.evidence.baselineHash = input.baselineHash p ∧ review.evidence = row.evidence) ∨
        (row.evidence.baselineHash ≠ input.baselineHash p ∧
          input.measure p = .ok review.evidence)) := by
  have hkeeps := review_keeps_holdout h
  obtain ⟨input', used, settled, hlookup', hsettled, hevidence, rfl⟩ := reviewPromotion_ok h
  obtain rfl : input' = input := by
    rw [hlookup] at hlookup'
    exact (Except.ok.inj hlookup').symm
  obtain ⟨-, hgenome, -, -, -, -, hstored⟩ := reviewLookup_ok hlookup
  have hfound : ∀ r, input'.stored = some r →
      (input'.NoOtherBaseline p ↔ r.evidence.baselineHash = input'.baselineHash p) := by
    intro r hr
    unfold ReviewInput.NoOtherBaseline
    simp [hr]
  rw [hevidence]
  rcases settleEvidence_ok (hgenome ▸ hstored) hsettled with
    ⟨r, hr, rfl, hbase, heq⟩ | ⟨r, hr, rfl, hbase, hmeasure⟩ | ⟨hnone, hmeasure, rfl⟩
  · exact ⟨r, hkeeps _ _ _ r (hstored ▸ hr), hfound r hr, .inl ⟨hbase, heq⟩⟩
  · exact ⟨r, hkeeps _ _ _ r (hstored ▸ hr), hfound r hr, .inr ⟨hbase, hmeasure⟩⟩
  · obtain ⟨hbase, hkey⟩ := measure_ok hmeasure
    refine ⟨input'.row used.1, ?_, iff_of_true (fun r hr => ?_) hbase, .inl ⟨hbase, rfl⟩⟩
    · rw [getHoldoutEvaluation, holdouts_conclude]
      rw [hstored, getHoldoutEvaluation] at hnone
      rw [List.find?_append, hnone, Option.none_or]
      refine List.find?_cons_of_pos ?_
      rw [hkey, ← hgenome]
      simp [ReviewInput.key]
    · rw [hnone] at hr
      cases hr

/-- Of two reviews of one genome, dataset version and baseline, with any requests between
    them, either both decide from the stored row, or each measures afresh. -/
theorem reviews_decide_from {between : List Timed} {db₁ db₁' db₂ db₂' : Database}
    {experimentId₁ experimentId₂ genomeHash : String} {now₁ now₂ : ℕ}
    {input₁ input₂ : ReviewInput} {review₁ review₂ : PromotionReview}
    (hlookup₁ : reviewLookup db₁ experimentId₁ genomeHash = .ok input₁)
    (hreview₁ : reviewPromotion p db₁ experimentId₁ genomeHash now₁ = .ok (review₁, db₁'))
    (hbetween : Transition.run (serialStep p) db₁' between = some db₂)
    (hlookup₂ : reviewLookup db₂ experimentId₂ genomeHash = .ok input₂)
    (hreview₂ : reviewPromotion p db₂ experimentId₂ genomeHash now₂ = .ok (review₂, db₂'))
    (hdataset : input₁.key = input₂.key)
    (hbaseline : input₁.baselineHash p = input₂.baselineHash p) :
    (input₁.NoOtherBaseline p → review₁.evidence = review₂.evidence) ∧
      (¬ input₁.NoOtherBaseline p →
        input₁.measure p = .ok review₁.evidence ∧ input₂.measure p = .ok review₂.evidence) := by
  obtain ⟨row, hrow, hother, hfirst⟩ := review_leaves_row hlookup₁ hreview₁
  obtain ⟨row', hrow', -, hsecond⟩ := review_leaves_row hlookup₂ hreview₂
  obtain ⟨-, hid, hversion⟩ : input₁.genomeHash = input₂.genomeHash ∧
      input₁.dataset.datasetId = input₂.dataset.datasetId ∧
      input₁.dataset.version = input₂.dataset.version := by
    simpa [ReviewInput.key] using hdataset
  rw [hid, hversion] at hrow
  -- both reviews see one row
  have hmid := history_keeps_holdout hbetween _ _ _ row hrow
  have hend := review_keeps_holdout hreview₂ _ _ _ row hmid
  obtain rfl : row = row' := Option.some.inj (hend.symm.trans hrow')
  rw [hother, hbaseline]
  rw [hbaseline] at hfirst
  constructor
  · intro hbase
    rcases hfirst with ⟨-, hused⟩ | ⟨hne, -⟩
    · rcases hsecond with ⟨-, hused'⟩ | ⟨hne, -⟩
      · rw [hused, hused']
      · exact absurd hbase hne
    · exact absurd hbase hne
  · intro hne
    rcases hfirst with ⟨hbase, -⟩ | ⟨-, hmeasure₁⟩
    · exact absurd hbase hne
    · rcases hsecond with ⟨hbase, -⟩ | ⟨-, hmeasure₂⟩
      · exact absurd hbase hne
      · exact ⟨hmeasure₁, hmeasure₂⟩

/-! ## What a measurement depends on -/

/-- What of an experiment's configuration a measurement on the holdout is made with. -/
structure HoldoutSettings where
  domainName : String
  providerName : String
  confidence : ℚ
  minRelativeImprovement : ℚ
  seed : ℤ
  deriving DecidableEq

def ExperimentConfig.holdoutSettings (config : ExperimentConfig) : HoldoutSettings where
  domainName := config.domainName
  providerName := config.providerName
  confidence := config.confidence
  minRelativeImprovement := config.minRelativeImprovement
  seed := config.seed

theorem measure_congr {input input' : ReviewInput}
    (hsettings : input.experiment.config.holdoutSettings =
      input'.experiment.config.holdoutSettings)
    (hdataset : input.dataset = input'.dataset)
    (hbaseline : input.result.baselineGenome.content = input'.result.baselineGenome.content)
    (hcandidate : input.candidate.content = input'.candidate.content) :
    input.measure p = input'.measure p := by
  obtain ⟨hdomain, hprovider, hconfidence, hleast, hseed⟩ :=
    HoldoutSettings.mk.inj hsettings
  unfold ReviewInput.measure evaluateOnHoldout SystemGenome.hash
  dsimp only
  rw [hdomain, hprovider, hconfidence, hleast, hseed, hdataset, hbaseline, hcandidate]

/-- Dataset versions stay, and each keeps its one row. -/
structure KeepsVersions (db db' : Database) : Prop where
  older : db.datasets <+: db'.datasets
  one : OnePerVersion db → OnePerVersion db'

section Versions

variable {db' : Database}

theorem KeepsVersions.of_eq (h : db'.datasets = db.datasets) : KeepsVersions db db' where
  older := by rw [h]
  one := fun hone => by rw [OnePerVersion, h]; exact hone

theorem KeepsVersions.trans {db'' : Database} (h : KeepsVersions db db')
    (h' : KeepsVersions db' db'') : KeepsVersions db db'' :=
  ⟨h.older.trans h'.older, fun hone => h'.one (h.one hone)⟩

theorem KeepsVersions.of_eraseStatus (h : db'.eraseStatus = db.eraseStatus) :
    KeepsVersions db db' :=
  .of_eq (show db'.eraseStatus.datasets = _ by rw [h]; rfl)

theorem keepsVersions_save (d : DatasetVersion) :
    KeepsVersions db (db.saveDatasetVersion d) := by
  unfold saveDatasetVersion
  split
  · exact .of_eq rfl
  · rename_i hnone
    refine ⟨List.prefix_append _ _, fun hone => onePerVersion_append.mpr ⟨hone, ?_⟩⟩
    exact key_not_mem_of_getDatasetVersion hnone

theorem keepsVersions_saveExperiment (applicationId : String) (config : ExperimentConfig)
    (result : Option ExperimentResult) (status : ExperimentStatus) :
    KeepsVersions db (db.saveExperiment applicationId config result status) := by
  refine .of_eq ?_
  unfold saveExperiment
  split <;> rfl

theorem keepsVersions_saveGenome (digest : GenomeDigest) (g : SystemGenome) :
    KeepsVersions db (db.saveGenome digest g) := by
  refine .of_eq ?_
  unfold saveGenome
  split <;> rfl

theorem keepsVersions_create {body : ExperimentCreateRequest}
    (h : createExperiment p db body = .ok db') : KeepsVersions db db' := by
  obtain ⟨baseline, seeded, searchSpace, objectives, -, -, hseeded, rfl⟩ :=
    createExperiment_steps h
  have happlication : KeepsVersions db (withApplication p db body) := by
    have hup : KeepsVersions db
        (db.upsertApplication body.systemId.1 body.systemId.1 body.domain) := by
      refine .of_eq ?_
      unfold upsertApplication
      split <;> rfl
    refine hup.trans ?_
    unfold withApplication withOriginal
    split
    · exact .of_eq rfl
    · exact keepsVersions_saveGenome _ _
  have hdataset : KeepsVersions (withApplication p db body) seeded := by
    unfold withDataset at hseeded
    split at hseeded
    · rw [← Except.ok.inj hseeded]
      exact keepsVersions_save _
    · split at hseeded
      · split_ifs at hseeded
        rw [← Except.ok.inj hseeded]
        exact .of_eq rfl
      · rw [← Except.ok.inj hseeded]
        exact .of_eq rfl
  exact (happlication.trans hdataset).trans (keepsVersions_saveExperiment ..)

theorem keepsVersions_review {experimentId genomeHash : String} {now : ℕ}
    {review : PromotionReview}
    (h : reviewPromotion p db experimentId genomeHash now = .ok (review, db')) :
    KeepsVersions db db' := by
  obtain ⟨input, used, settled, hlookup, hsettled, -, rfl⟩ := reviewPromotion_ok h
  obtain ⟨-, hgenome, -, -, -, -, hstored⟩ := reviewLookup_ok hlookup
  have hconclude : KeepsVersions settled (conclude settled input used.1 now) :=
    (KeepsVersions.of_eq rfl : KeepsVersions settled (settled.addDecision _ _ _ now)).trans
      (.of_eraseStatus (eraseStatus_writeStatus _ _))
  refine KeepsVersions.trans (.of_eq ?_) hconclude
  rcases settleEvidence_ok (hgenome ▸ hstored) hsettled with
    ⟨r, -, rfl, -⟩ | ⟨r, -, rfl, -⟩ | ⟨-, -, rfl⟩
  all_goals rfl

theorem Served.keepsVersions {now : ℕ} {request : Request} (h : Served p db now request db') :
    KeepsVersions db db' := by
  cases h with
  | unchanged => exact .of_eq rfl
  | created hcreated => exact keepsVersions_create hcreated
  | failed => exact keepsVersions_saveExperiment ..
  | ran =>
      exact ((keepsVersions_saveExperiment ..).trans (keepsVersions_saveGenome _ _)).trans
        (keepsVersions_saveExperiment ..)
  | reviewed hreview => exact keepsVersions_review hreview
  | canaried =>
      exact (KeepsVersions.of_eq rfl : KeepsVersions db (db.addCanary _ _ _ _ now)).trans
        (.of_eraseStatus (eraseStatus_writeStatus _ _))
  | promoted | rolledBack =>
      exact (KeepsVersions.of_eq rfl : KeepsVersions db
        (db.savePromotionApproval _ _ _ _ now)).trans (.of_eraseStatus (eraseStatus_reconcile _))
  | saved dataset => exact keepsVersions_save dataset

end Versions

/-- What reviews read, as the requests of a history leave it. -/
structure Reviewable (p : Platform) (db : Database) : Prop where
  sound : Sound p db
  standard : AllStandard p db
  versions : OnePerVersion db

/-- What a review measures, a later one finds as it was. -/
structure KeepsReviewed (db db' : Database) : Prop where
  genomes : KeepsMeasure db db'
  versions : db.datasets <+: db'.datasets

theorem reviewable_empty (p : Platform) : Reviewable p {} where
  sound := sound_empty p
  standard := fun id e he => by cases he
  versions := List.nodup_nil

theorem Served.reviewable {now : ℕ} {request : Request} {db' : Database}
    (h : Reviewable p db) (hserved : Served p db now request db')
    (hposs : Possible db request) : Reviewable p db' where
  sound := Served.sound h.sound hserved hposs
  standard := hserved.allStandard h.sound.wellFormed hposs h.standard
  versions := hserved.keepsVersions.one h.versions

theorem history_reviewable {history : List Timed} {db' : Database} (h : Reviewable p db)
    (hrun : Transition.run (serialStep p) db history = some db') :
    Reviewable p db' ∧ KeepsReviewed db db' := by
  have hstep : ∀ s t s', Reviewable p s ∧ KeepsReviewed db s → serialStep p s t = some s' →
      Reviewable p s' ∧ KeepsReviewed db s' := by
    intro s t s' ⟨hs, hkept⟩ hstep
    obtain ⟨hposs, hserved⟩ := serialStep_did hstep
    exact ⟨hserved.reviewable hs hposs, hkept.genomes.trans hserved.keepsMeasure,
      hkept.versions.trans hserved.keepsVersions.older⟩
  exact Transition.run_invariant hstep ⟨h, .of_eq rfl rfl, List.prefix_rfl⟩ hrun

theorem mem_of_reviewLookup {experimentId genomeHash : String} {input : ReviewInput}
    (h : reviewLookup db experimentId genomeHash = .ok input) : input.dataset ∈ db.datasets := by
  unfold reviewLookup at h
  obtain ⟨completed, -, h⟩ := bind_eq_ok.mp h
  obtain ⟨dataset, hdataset, h⟩ := bind_eq_ok.mp h
  obtain ⟨candidate, -, h⟩ := bind_eq_ok.mp h
  rw [pure_eq_ok] at h
  subst h
  unfold reviewDataset at hdataset
  dsimp only at hdataset
  split at hdataset
  · rename_i d hfound
    rw [← Except.ok.inj hdataset]
    split_ifs at hfound
    · exact List.mem_of_find?_eq_some hfound
    · exact List.mem_of_mem_filter (List.argmax_mem hfound)
  · cases hdataset

/-- Under the same settings two reviews of one genome measure alike, however far apart. -/
theorem measure_eq_of_settings {db₁ db₂ : Database} (h₁ : Reviewable p db₁)
    (h₂ : Reviewable p db₂) (hkeeps : KeepsReviewed db₁ db₂)
    {experimentId₁ experimentId₂ genomeHash : String} {input₁ input₂ : ReviewInput}
    (hlookup₁ : reviewLookup db₁ experimentId₁ genomeHash = .ok input₁)
    (hlookup₂ : reviewLookup db₂ experimentId₂ genomeHash = .ok input₂)
    (hdataset : input₁.key = input₂.key)
    (hbaseline : input₁.baselineHash p = input₂.baselineHash p)
    (hsettings : input₁.experiment.config.holdoutSettings =
      input₂.experiment.config.holdoutSettings) : input₁.measure p = input₂.measure p := by
  obtain ⟨-, -, hexperiment₁, hresult₁, hcandidate₁, -, -⟩ := reviewLookup_ok hlookup₁
  obtain ⟨-, -, hexperiment₂, hresult₂, hcandidate₂, -, -⟩ := reviewLookup_ok hlookup₂
  refine measure_congr hsettings ?_ ?_ ?_
  · have hkey : input₁.dataset.key = input₂.dataset.key := (Prod.mk.inj hdataset).2
    exact List.inj_on_of_nodup_map h₂.versions
      (hkeeps.versions.subset (mem_of_reviewLookup hlookup₁)) (mem_of_reviewLookup hlookup₂) hkey
  · -- the two results name one stored genome
    obtain ⟨r₁, hr₁, hcontent₁⟩ := (h₁.standard _ _ hexperiment₁).baseline _ hresult₁
    obtain ⟨r₂, hr₂, hcontent₂⟩ := (h₂.standard _ _ hexperiment₂).baseline _ hresult₂
    obtain ⟨r', hr', hdata⟩ := hkeeps.genomes.data _ r₁ hr₁
    have hhash : input₁.result.baselineGenome.hash p.genomeDigest =
        input₂.result.baselineGenome.hash p.genomeDigest := hbaseline
    rw [hhash, hr₂] at hr'
    rw [← hcontent₁, ← hcontent₂, Option.some.inj hr', hdata]
  · obtain ⟨r₁, hr₁, hloaded₁, -, -⟩ := getGenome_eq_some hcandidate₁
    obtain ⟨r₂, hr₂, hloaded₂, -, -⟩ := getGenome_eq_some hcandidate₂
    obtain ⟨r', hr', hdata⟩ := hkeeps.genomes.data _ r₁ hr₁
    rw [hr₂] at hr'
    rw [hloaded₁, hloaded₂, Option.some.inj hr']
    show r₁.data.content = r'.data.content
    rw [hdata]

/-- **The holdout is not re-rolled, unless another baseline was measured first.** In every
    history, two reviews of one genome on one dataset version and against one baseline decide
    from the same evidence if no measurement against another baseline is stored when the
    first of them looks, or if the two experiments measure with the same settings. Where such
    a measurement is stored, neither review uses it, and neither replaces it: each decides
    from a measurement of its own, made with its own experiment's settings. -/
theorem reviews_share_evidence (p : Platform) (before between : List Timed)
    (db₁ db₁' db₂ db₂' : Database) (experimentId₁ experimentId₂ genomeHash : String)
    (now₁ now₂ : ℕ) (input₁ input₂ : ReviewInput) (review₁ review₂ : PromotionReview)
    (hbefore : Transition.run (serialStep p) {} before = some db₁)
    (hlookup₁ : reviewLookup db₁ experimentId₁ genomeHash = .ok input₁)
    (hreview₁ : reviewPromotion p db₁ experimentId₁ genomeHash now₁ = .ok (review₁, db₁'))
    (hbetween : Transition.run (serialStep p) db₁' between = some db₂)
    (hlookup₂ : reviewLookup db₂ experimentId₂ genomeHash = .ok input₂)
    (hreview₂ : reviewPromotion p db₂ experimentId₂ genomeHash now₂ = .ok (review₂, db₂'))
    (hdataset : input₁.key = input₂.key)
    (hbaseline : input₁.baselineHash p = input₂.baselineHash p) :
    (input₁.NoOtherBaseline p ∨ input₁.experiment.config.holdoutSettings =
        input₂.experiment.config.holdoutSettings → review₁.evidence = review₂.evidence) ∧
      (¬ input₁.NoOtherBaseline p →
        input₁.measure p = .ok review₁.evidence ∧ input₂.measure p = .ok review₂.evidence) := by
  obtain ⟨hshared, hafresh⟩ := reviews_decide_from hlookup₁ hreview₁ hbetween hlookup₂ hreview₂
    hdataset hbaseline
  refine ⟨fun hcondition => ?_, hafresh⟩
  by_cases hother : input₁.NoOtherBaseline p
  · exact hshared hother
  · have hsettings := hcondition.resolve_left hother
    obtain ⟨hmeasure₁, hmeasure₂⟩ := hafresh hother
    have h₁ := (history_reviewable (reviewable_empty p) hbefore).1
    have hserved : Served p db₁ now₁ (.requestPromotion experimentId₁ genomeHash) db₁' :=
      .reviewed hreview₁
    obtain ⟨h₂, hkept⟩ := history_reviewable (hserved.reviewable h₁ trivial) hbetween
    have hkeeps : KeepsReviewed db₁ db₂ := ⟨hserved.keepsMeasure.trans hkept.genomes,
      hserved.keepsVersions.older.trans hkept.versions⟩
    have hsame := measure_eq_of_settings h₁ h₂ hkeeps hlookup₁ hlookup₂ hdataset hbaseline
      hsettings
    rw [hmeasure₁, hmeasure₂] at hsame
    exact Except.ok.inj hsame

/-! ## A second measurement -/

section Example

/-- The generator draws one position over and over, which one depends on the seed. All
    resamples are equal then, and so are all quantiles of their means. -/
def seededNumpy : Numpy where
  choiceRows seed rows n := List.replicate rows (List.replicate n (seed.toNat % n))
  choiceMatrix seed rows n := List.replicate rows (List.replicate n (seed.toNat % n))
  quantile xs _ := xs.headD 0
  std _ := 0

/-- More passages help on the first challenge only. -/
def unevenEvaluator : Evaluator := fun content c =>
  { topKEvaluator content c with
    metrics := [("quality", if c.challengeId = (exampleChallenge 0).challengeId then
      content.config.retrieval.topK.1 / 50 else 1 / 4)] }

def unevenPlatform : Platform := platformWith seededNumpy unevenEvaluator

/-- One genome is reviewed against the original; two more experiments with different seeds
    then start from a second genome. -/
def reviewedAgainstOriginal : List Timed :=
  [⟨1, exampleCreate exp1 "champion" 1 usualFloor⟩, ⟨2, exampleRun⟩,
    ⟨3, exampleCreate exp2 "champion" 2 usualFloor⟩,
    ⟨4, .runExperiment "exp-2" none (.ok (exampleResult exampleOriginal exampleBest))⟩,
    ⟨5, .requestPromotion "exp-2" "app-45"⟩,
    ⟨6, exampleCreate exp3 "app-40" 0 usualFloor⟩,
    ⟨7, .runExperiment "exp-3" none (.ok (exampleResult exampleBetter exampleBest))⟩,
    ⟨8, exampleCreate exp4 "app-40" 1 usualFloor⟩,
    ⟨9, .runExperiment "exp-4" none (.ok (exampleResult exampleBetter exampleBest))⟩]

/-- The two reviews against the second genome, one after the other. -/
theorem measured_twice : ∃ db₁ input₁ review₁ db₁' input₂ review₂ db₂',
    Transition.run (serialStep unevenPlatform) {} reviewedAgainstOriginal = some db₁ ∧
      reviewLookup db₁ "exp-3" "app-45" = .ok input₁ ∧
      reviewPromotion unevenPlatform db₁ "exp-3" "app-45" 10 = .ok (review₁, db₁') ∧
      reviewLookup db₁' "exp-4" "app-45" = .ok input₂ ∧
      reviewPromotion unevenPlatform db₁' "exp-4" "app-45" 11 = .ok (review₂, db₂') ∧
      input₁.key = input₂.key ∧
      input₁.baselineHash unevenPlatform = input₂.baselineHash unevenPlatform ∧
      review₁.evidence.comparison.conclusion = .likelyImprovement ∧
      review₂.evidence.comparison.conclusion = .inconclusive := by
  have hrun : ((Transition.run (serialStep unevenPlatform) {} reviewedAgainstOriginal).bind
      fun db₁ => (reviewLookup db₁ "exp-3" "app-45").toOption.bind fun input₁ =>
      (reviewPromotion unevenPlatform db₁ "exp-3" "app-45" 10).toOption.bind fun first =>
      (reviewLookup first.2 "exp-4" "app-45").toOption.bind fun input₂ =>
      (reviewPromotion unevenPlatform first.2 "exp-4" "app-45" 11).toOption.map fun second =>
        (decide (input₁.key = input₂.key),
          decide (input₁.baselineHash unevenPlatform = input₂.baselineHash unevenPlatform),
          first.1.evidence.comparison.conclusion, second.1.evidence.comparison.conclusion)) =
      some (true, true, .likelyImprovement, .inconclusive) := by
    decide +kernel
  obtain ⟨db₁, hdb₁, hrun⟩ := Option.bind_eq_some_iff.mp hrun
  obtain ⟨input₁, hinput₁, hrun⟩ := Option.bind_eq_some_iff.mp hrun
  obtain ⟨⟨review₁, db₁'⟩, hreview₁, hrun⟩ := Option.bind_eq_some_iff.mp hrun
  obtain ⟨input₂, hinput₂, hrun⟩ := Option.bind_eq_some_iff.mp hrun
  obtain ⟨⟨review₂, db₂'⟩, hreview₂, hvalues⟩ := Option.map_eq_some_iff.mp hrun
  obtain ⟨hkey, hbase, hfirst, hsecond⟩ := by simpa only [Prod.mk.injEq] using hvalues
  exact ⟨db₁, input₁, review₁, db₁', input₂, review₂, db₂', hdb₁,
    toOption_eq_some.mp hinput₁, toOption_eq_some.mp hreview₁, toOption_eq_some.mp hinput₂,
    toOption_eq_some.mp hreview₂, of_decide_eq_true hkey, of_decide_eq_true hbase, hfirst,
    hsecond⟩

/-- The second measurement is another one: with another seed the holdout is drawn anew. -/
theorem same_evidence_fails : ¬ ∀ (p : Platform) (before between : List Timed)
    (db₁ db₁' db₂ db₂' : Database) (experimentId₁ experimentId₂ genomeHash : String)
    (now₁ now₂ : ℕ) (input₁ input₂ : ReviewInput) (review₁ review₂ : PromotionReview),
    Transition.run (serialStep p) {} before = some db₁ →
    reviewLookup db₁ experimentId₁ genomeHash = .ok input₁ →
    reviewPromotion p db₁ experimentId₁ genomeHash now₁ = .ok (review₁, db₁') →
    Transition.run (serialStep p) db₁' between = some db₂ →
    reviewLookup db₂ experimentId₂ genomeHash = .ok input₂ →
    reviewPromotion p db₂ experimentId₂ genomeHash now₂ = .ok (review₂, db₂') →
    input₁.key = input₂.key → input₁.baselineHash p = input₂.baselineHash p →
    review₁.evidence.comparison = review₂.evidence.comparison ∧
      review₁.evidence.safety = review₂.evidence.safety := by
  intro hall
  obtain ⟨db₁, input₁, review₁, db₁', input₂, review₂, db₂', hrun, hlookup₁, hreview₁,
    hlookup₂, hreview₂, hkey, hbase, hfirst, hsecond⟩ := measured_twice
  have hsame := (hall unevenPlatform reviewedAgainstOriginal [] db₁ db₁' db₁' db₂' "exp-3"
    "exp-4" "app-45" 10 11 input₁ input₂ review₁ review₂ hrun hlookup₁ hreview₁ rfl hlookup₂
    hreview₂ hkey hbase).1
  rw [hsame, hsecond] at hfirst
  exact absurd hfirst (by decide)

/-- The two reviews above draw the holdout twice; with one seed they would have agreed. -/
theorem reviews_share_evidence_measured_twice : ∃ (input₁ input₂ : ReviewInput)
    (review₁ review₂ : PromotionReview),
    (input₁.NoOtherBaseline unevenPlatform ∨ input₁.experiment.config.holdoutSettings =
        input₂.experiment.config.holdoutSettings → review₁.evidence = review₂.evidence) ∧
      (¬ input₁.NoOtherBaseline unevenPlatform →
        input₁.measure unevenPlatform = .ok review₁.evidence ∧
          input₂.measure unevenPlatform = .ok review₂.evidence) ∧
      review₁.evidence ≠ review₂.evidence := by
  obtain ⟨db₁, input₁, review₁, db₁', input₂, review₂, db₂', hrun, hlookup₁, hreview₁,
    hlookup₂, hreview₂, hkey, hbase, hfirst, hsecond⟩ := measured_twice
  obtain ⟨hshared, hafresh⟩ := reviews_share_evidence unevenPlatform reviewedAgainstOriginal []
    db₁ db₁' db₁' db₂' "exp-3" "exp-4" "app-45" 10 11 input₁ input₂ review₁ review₂ hrun
    hlookup₁ hreview₁ rfl hlookup₂ hreview₂ hkey hbase
  refine ⟨input₁, input₂, review₁, review₂, hshared, hafresh, fun hsame => ?_⟩
  rw [hsame, hsecond] at hfirst
  exact absurd hfirst (by decide)

end Example

end NeuroForge
