/-
  What approvals rest on, over any history.

  An application is measured by its domain's evaluator: its experiments are of its domain,
  and the interface leaves their provider and their least improvement at the defaults
  (`Standard`). A stored measurement that confirms an improvement, and an approval under the
  significance requirement, therefore say that the genome is measured better than the
  baseline (`Evidenced`), and no later request changes what a genome is measured to be
  (`Served.keepsMeasure`).
-/
import NeuroForge.Promotion.Gains
import NeuroForge.Service.CreationRace
import NeuroForge.Service.Listings

namespace NeuroForge

open Fallible Database

/-! ## The measure of an application -/

/-- The domain of an application. -/
def domainOf (db : Database) (systemId : String) : Option String :=
  (db.applications.find? (·.id = systemId)).map (·.domainName)

/-- The provider of every experiment the interface creates. -/
def defaultProvider : String := "mock"

/-- The least relative improvement of every experiment the interface creates. -/
def leastImprovement : ℚ := 1 / 50

/-- The quality scores of a stored genome on the holdout split of a dataset version, as its
    application measures them. -/
def holdoutScores (p : Platform) (dataset : DatasetVersion) (db : Database)
    (systemId hash : String) : Option (List ℚ) := do
  let domain ← domainOf db systemId
  let evaluate ← (p.evaluator domain defaultProvider).toOption
  let r ← db.getGenomeRecord hash
  return qualityScores evaluate dataset r.data.content

/-- The second genome is measured better than the first, by the least improvement at least. -/
def MeasuredBetter (p : Platform) (dataset : DatasetVersion) (db : Database) (systemId : String)
    (worse better : String) : Prop :=
  ∃ scores scores', holdoutScores p dataset db systemId worse = some scores ∧
    holdoutScores p dataset db systemId better = some scores' ∧
    Gains leastImprovement scores scores'

section Measure

variable {p : Platform} {dataset : DatasetVersion} {db db' : Database} {systemId : String}

theorem holdoutScores_eq_some {hash : String} {scores : List ℚ} :
    holdoutScores p dataset db systemId hash = some scores ↔
      ∃ domain evaluate r, domainOf db systemId = some domain ∧
        p.evaluator domain defaultProvider = .ok evaluate ∧
        db.getGenomeRecord hash = some r ∧
        scores = qualityScores evaluate dataset r.data.content := by
  unfold holdoutScores
  simp only [Option.bind_eq_bind, Option.bind_eq_some_iff, toOption_eq_some, Option.pure_def,
    Option.some_inj]
  constructor
  · rintro ⟨domain, hdomain, evaluate, hevaluate, r, hr, rfl⟩
    exact ⟨domain, evaluate, r, hdomain, hevaluate, hr, rfl⟩
  · rintro ⟨domain, evaluate, r, hdomain, hevaluate, hr, rfl⟩
    exact ⟨domain, hdomain, evaluate, hevaluate, r, hr, rfl⟩

theorem MeasuredBetter.trans {a b c : String}
    (hab : MeasuredBetter p dataset db systemId a b)
    (hbc : MeasuredBetter p dataset db systemId b c) :
    MeasuredBetter p dataset db systemId a c := by
  obtain ⟨scores, scores', ha, hb, hgains⟩ := hab
  obtain ⟨scores'', scores''', hb', hc, hgains'⟩ := hbc
  rw [hb] at hb'
  obtain rfl := Option.some.inj hb'
  exact ⟨scores, scores''', ha, hc, hgains.trans (by unfold leastImprovement; norm_num) hgains'⟩

/-- Stored genomes keep their data, and applications their domain. -/
structure KeepsMeasure (db db' : Database) : Prop where
  data : ∀ hash r, db.getGenomeRecord hash = some r →
    ∃ r', db'.getGenomeRecord hash = some r' ∧ r'.data = r.data
  applications : db.applications <+: db'.applications

theorem KeepsMeasure.domainOf (h : KeepsMeasure db db') {domain : String}
    (hdomain : NeuroForge.domainOf db systemId = some domain) :
    NeuroForge.domainOf db' systemId = some domain := by
  obtain ⟨rows, hrows⟩ := h.applications
  obtain ⟨app, happ, hname⟩ := Option.map_eq_some_iff.mp hdomain
  unfold NeuroForge.domainOf
  rw [← hrows, List.find?_append, happ, Option.some_or, Option.map_some, hname]

theorem KeepsMeasure.measuredBetter (h : KeepsMeasure db db') {worse better : String}
    (hbetter : MeasuredBetter p dataset db systemId worse better) :
    MeasuredBetter p dataset db' systemId worse better := by
  have hkept : ∀ hash scores, holdoutScores p dataset db systemId hash = some scores →
      holdoutScores p dataset db' systemId hash = some scores := by
    intro hash scores hscores
    obtain ⟨domain, evaluate, r, hdomain, hevaluate, hr, rfl⟩ := holdoutScores_eq_some.mp hscores
    obtain ⟨r', hr', hdata⟩ := h.data hash r hr
    exact holdoutScores_eq_some.mpr
      ⟨domain, evaluate, r', h.domainOf hdomain, hevaluate, hr', by rw [hdata]⟩
  obtain ⟨scores, scores', hworse, hbetter, hgains⟩ := hbetter
  exact ⟨scores, scores', hkept _ _ hworse, hkept _ _ hbetter, hgains⟩

end Measure

/-! ## What requests keep of the measure -/

section Keeps

variable {p : Platform} {db db' : Database}

theorem KeepsMeasure.trans {db'' : Database} (h : KeepsMeasure db db')
    (h' : KeepsMeasure db' db'') : KeepsMeasure db db'' where
  data := by
    intro hash r hr
    obtain ⟨r', hr', hdata⟩ := h.data hash r hr
    obtain ⟨r'', hr'', hdata'⟩ := h'.data hash r' hr'
    exact ⟨r'', hr'', hdata'.trans hdata⟩
  applications := h.applications.trans h'.applications

theorem KeepsMeasure.of_eq (hgenomes : db'.genomes = db.genomes)
    (happlications : db'.applications = db.applications) : KeepsMeasure db db' where
  data := fun hash r hr => ⟨r, by rw [getGenomeRecord, hgenomes]; exact hr, rfl⟩
  applications := by rw [happlications]

theorem KeepsMeasure.of_eraseStatus (h : db'.eraseStatus = db.eraseStatus) :
    KeepsMeasure db db' where
  data := (KeepsLog.of_eraseStatus h).data
  applications := by
    have happlications := congrArg Database.applications h
    rw [show db'.applications = db.applications from happlications]

theorem keepsMeasure_saveExperiment (applicationId : String) (config : ExperimentConfig)
    (result : Option ExperimentResult) (status : ExperimentStatus) :
    KeepsMeasure db (db.saveExperiment applicationId config result status) := by
  refine KeepsMeasure.of_eq (genomes_saveExperiment ..) ?_
  unfold saveExperiment
  split <;> rfl

theorem keepsMeasure_of_extends (h : Extends db db') : KeepsMeasure db db' where
  data := by
    intro hash r hr
    obtain ⟨rows, hrows⟩ := h.genomes
    refine ⟨r, ?_, rfl⟩
    rw [getGenomeRecord] at hr ⊢
    rw [← hrows, List.find?_append, hr, Option.some_or]
  applications := h.applications

theorem keepsMeasure_conclude (input : ReviewInput) (evidence : HoldoutEvidence) (now : ℕ) :
    KeepsMeasure db (conclude db input evidence now) := by
  have hadd : KeepsMeasure db (db.addDecision input.genomeHash (some input.experimentId)
      (input.decision evidence) now) := KeepsMeasure.of_eq rfl rfl
  exact hadd.trans (KeepsMeasure.of_eraseStatus (eraseStatus_writeStatus _ _))

theorem keepsMeasure_change (hash : String) (experimentId : Option String) (approvedBy : String)
    (action : ApprovalAction) (now : ℕ) (loaded : String → Option PromotionStatus)
    (systemId : String) : KeepsMeasure db (reconcileProductionStatuses
      (db.savePromotionApproval hash experimentId approvedBy action now) loaded systemId) := by
  have hadd : KeepsMeasure db (db.savePromotionApproval hash experimentId approvedBy action now) :=
    KeepsMeasure.of_eq rfl rfl
  exact hadd.trans (KeepsMeasure.of_eraseStatus (eraseStatus_reconcile systemId))

theorem keepsMeasure_review {experimentId genomeHash : String} {now : ℕ}
    {review : PromotionReview}
    (h : reviewPromotion p db experimentId genomeHash now = .ok (review, db')) :
    KeepsMeasure db db' := by
  obtain ⟨input, used, settled, hlookup, hsettled, -, rfl⟩ := reviewPromotion_ok h
  obtain ⟨-, hgenome, -, -, -, -, hstored⟩ := reviewLookup_ok hlookup
  refine KeepsMeasure.trans ?_ (keepsMeasure_conclude input used.1 now)
  rcases settleEvidence_ok (hgenome ▸ hstored) hsettled with
    ⟨r, -, rfl, -⟩ | ⟨r, -, rfl, -⟩ | ⟨-, -, rfl⟩
  all_goals exact KeepsMeasure.of_eq rfl rfl

theorem experiments_review {experimentId genomeHash : String} {now : ℕ}
    {review : PromotionReview}
    (h : reviewPromotion p db experimentId genomeHash now = .ok (review, db')) :
    db'.experiments = db.experiments := by
  obtain ⟨input, used, settled, hlookup, hsettled, -, rfl⟩ := reviewPromotion_ok h
  obtain ⟨-, hgenome, -, -, -, -, hstored⟩ := reviewLookup_ok hlookup
  refine (experiments_of_eraseStatus (eraseStatus_writeStatus _ _)).trans ?_
  rcases settleEvidence_ok (hgenome ▸ hstored) hsettled with
    ⟨r, -, rfl, -⟩ | ⟨r, -, rfl, -⟩ | ⟨-, -, rfl⟩
  all_goals rfl

/-- No request changes what a genome has been measured to be. -/
theorem Served.keepsMeasure {now : ℕ} {request : Request} (h : Served p db now request db') :
    KeepsMeasure db db' := by
  cases h with
  | unchanged => exact KeepsMeasure.of_eq rfl rfl
  | created hcreated => exact keepsMeasure_of_extends (createExperiment_adds hcreated).1
  | failed => exact keepsMeasure_saveExperiment ..
  | ran =>
      exact ((keepsMeasure_saveExperiment ..).trans (keepsMeasure_of_extends
        (extends_saveGenome _ _))).trans (keepsMeasure_saveExperiment ..)
  | reviewed hreview => exact keepsMeasure_review hreview
  | canaried hlookup =>
      exact (KeepsMeasure.of_eq rfl rfl : KeepsMeasure db (db.addCanary _ _ _ _ now)).trans
        (KeepsMeasure.of_eraseStatus (eraseStatus_writeStatus _ _))
  | promoted | rolledBack => exact keepsMeasure_change ..
  | saved dataset => exact keepsMeasure_of_extends (extends_saveDatasetVersion dataset)

end Keeps

/-! ## The experiments the interface creates -/

section Experiments

variable {p : Platform} {db db' : Database}

/-- The genome was loaded from its row. -/
def LoadedFrom (p : Platform) (db : Database) (g : SystemGenome) : Prop :=
  ∃ r, db.getGenomeRecord (g.hash p.genomeDigest) = some r ∧ r.data.content = g.content

/-- An experiment of its application's domain that nothing but its request has configured, and
    whose result names the baseline it was run from. -/
structure Standard (p : Platform) (db : Database) (e : ExperimentRecord) : Prop where
  domain : domainOf db e.applicationId = some e.config.domainName
  provider : e.config.providerName = defaultProvider
  margin : e.config.minRelativeImprovement = leastImprovement
  baseline : ∀ result, e.result = some result → LoadedFrom p db result.baselineGenome

def AllStandard (p : Platform) (db : Database) : Prop :=
  ∀ id e, db.getExperiment id = some e → Standard p db e

theorem LoadedFrom.keep (hkeeps : KeepsMeasure db db') {g : SystemGenome}
    (h : LoadedFrom p db g) : LoadedFrom p db' g := by
  obtain ⟨r, hr, hcontent⟩ := h
  obtain ⟨r', hr', hdata⟩ := hkeeps.data _ r hr
  exact ⟨r', hr', by rw [hdata, hcontent]⟩

theorem loadedFrom_of_getGenome (hwf : WellFormed p.genomeDigest db) {hash : String}
    {g : SystemGenome} (h : db.getGenome hash = some g) : LoadedFrom p db g := by
  rw [LoadedFrom, hash_of_getGenome hwf h]
  obtain ⟨r, hr, rfl, -, -⟩ := getGenome_eq_some h
  exact ⟨r, hr, rfl⟩

theorem Standard.keep (hkeeps : KeepsMeasure db db') {e : ExperimentRecord}
    (h : Standard p db e) : Standard p db' e where
  domain := hkeeps.domainOf h.domain
  provider := h.provider
  margin := h.margin
  baseline := fun result hresult => (h.baseline result hresult).keep hkeeps

theorem AllStandard.keep (hkeeps : KeepsMeasure db db') (h : AllStandard p db)
    (hsame : db'.experiments = db.experiments) : AllStandard p db' := by
  intro id e he
  rw [getExperiment, hsame] at he
  exact (h id e he).keep hkeeps

/-- An experiment is saved again under the configuration it has, with a result that names a
    loaded baseline or none. -/
theorem AllStandard.resave (h : AllStandard p db) {config : ExperimentConfig}
    {e : ExperimentRecord} (he : db.getExperiment config.experimentId = some e)
    (hconfig : e.config = config) {result : Option ExperimentResult}
    (hresult : ∀ r, result = some r → LoadedFrom p db r.baselineGenome)
    (applicationId : String) (status : ExperimentStatus) :
    AllStandard p (db.saveExperiment applicationId config result status) := by
  intro id saved hsaved
  refine Standard.keep (keepsMeasure_saveExperiment ..) ?_
  rw [getExperiment_saveExperiment] at hsaved
  split_ifs at hsaved
  · have hold := h _ e he
    rw [← Option.some.inj hsaved]
    unfold savedExperiment
    rw [he]
    refine ⟨hconfig ▸ hold.domain, hconfig ▸ hold.provider, hconfig ▸ hold.margin, ?_⟩
    intro r hr
    rcases Option.or_eq_some_iff.mp hr with hnew | ⟨-, hkept⟩
    · exact hresult r hnew
    · exact hold.baseline r hkept
  · exact h id saved hsaved

/-- The domain of a request is its application's. -/
theorem domainOf_upsertApplication {body : ExperimentCreateRequest}
    (h : checkDomain db body = .ok ()) :
    domainOf (db.upsertApplication body.systemId.1 body.systemId.1 body.domain)
      body.systemId.1 = some body.domain := by
  unfold checkDomain at h
  unfold domainOf upsertApplication
  cases hfound : db.applications.find? (·.id = body.systemId.1) with
  | some app =>
      rw [hfound] at h
      dsimp only at h ⊢
      split_ifs at h with hsame
      rw [hfound, Option.map_some, hsame]
  | none =>
      dsimp only
      rw [List.find?_append, hfound, Option.none_or, List.find?_cons_of_pos (by simp)]
      rfl

theorem checkDomain_of_createExperiment {body : ExperimentCreateRequest}
    (h : createExperiment p db body = .ok db') : checkDomain db body = .ok () := by
  unfold createExperiment at h
  obtain ⟨_, -, h⟩ := bind_eq_ok.mp h
  obtain ⟨_, hdomain, _⟩ := bind_eq_ok.mp h
  exact hdomain

theorem keepsMeasure_withOriginal (systemId : String) :
    KeepsMeasure db (withOriginal p.genomeDigest db systemId) := by
  unfold withOriginal
  split
  · exact KeepsMeasure.of_eq rfl rfl
  · exact keepsMeasure_of_extends (extends_saveGenome _ _)

/-- A created experiment is a standard one, and the others stay as they are. -/
theorem createExperiment_standard {body : ExperimentCreateRequest}
    (h : createExperiment p db body = .ok db') (hall : AllStandard p db) :
    AllStandard p db' := by
  have hkeeps := keepsMeasure_of_extends (createExperiment_adds h).1
  have hdomain := domainOf_upsertApplication (checkDomain_of_createExperiment h)
  obtain ⟨baseline, seeded, searchSpace, objectives, hnew, -, hseeded, rfl⟩ :=
    createExperiment_steps h
  have hexperiments : seeded.experiments = db.experiments := by
    rw [(withDataset_ok hseeded).2.2, experiments_withApplication]
  have hgrown : KeepsMeasure
      (db.upsertApplication body.systemId.1 body.systemId.1 body.domain) seeded :=
    (keepsMeasure_withOriginal body.systemId.1).trans
      (keepsMeasure_of_extends (extends_withDataset hseeded))
  intro id e he
  rw [getExperiment_saveExperiment] at he
  split_ifs at he
  · refine Standard.keep (keepsMeasure_saveExperiment ..) ?_
    have hnone : seeded.getExperiment (createdConfig seeded body body.usedDataset baseline
        searchSpace objectives).experimentId = none := by
      rw [getExperiment, hexperiments]
      exact hnew
    rw [← Option.some.inj he]
    unfold savedExperiment
    rw [hnone]
    exact ⟨hgrown.domainOf hdomain, rfl, rfl, fun result hresult => by cases hresult⟩
  · rw [getExperiment, hexperiments] at he
    exact (hall id e he).keep hkeeps

/-- A run that returns stores a result on the baseline it loaded. -/
theorem run_standard (hwf : WellFormed p.genomeDigest db) {experimentId : String}
    {checkpoint : Option ExperimentCheckpoint} {result : ExperimentResult}
    {record : ExperimentRecord} {input : RunInput}
    (hload : loadRun db experimentId = .ok record)
    (hstart : startRun db record checkpoint = .ok input)
    (hposs : Possible db (.runExperiment experimentId checkpoint (.ok result)))
    (hall : AllStandard p db) : AllStandard p (finishRun p.genomeDigest
      (markExperiment db input.applicationId input.config .running) input result) := by
  have hrecord := loadRun_ok hload
  have hid := (hwf.experiments _ record hrecord).id
  rw [experimentId_of_getExperiment hrecord] at hid
  obtain ⟨-, hconfig, hbase, -⟩ := startRun_ok hstart
  have hloaded : LoadedFrom p db result.baselineGenome := by
    have hres : ResultOf input.baseline input.dataset result := by
      unfold Possible at hposs
      simp only [hload, hstart] at hposs
      exact hposs
    obtain ⟨-, -, hash, hhash, hsys, -⟩ := hwf.experiments _ record hrecord
    unfold baselineForRun at hbase
    rw [hhash, nonEmpty_of_ne (ne_empty_of_systemOf hwf hsys)] at hbase
    rw [hres.sameBaseline]
    exact loadedFrom_of_getGenome hwf hbase
  have hfound : db.getExperiment input.config.experimentId = some record := by
    rw [hconfig, hid]
    exact hrecord
  have hmarked : AllStandard p (markExperiment db input.applicationId input.config .running) :=
    hall.resave hfound hconfig.symm (fun r hr => by cases hr) _ _
  have hsaved := hmarked.keep
    (keepsMeasure_of_extends (extends_saveGenome p.genomeDigest result.bestGenome))
    (experiments_saveGenome _ _)
  refine hsaved.resave (e := savedExperiment db input.applicationId input.config none .running)
    ?_ ?_ (fun r hr => ?_) _ _
  · rw [getExperiment, experiments_saveGenome]
    exact (getExperiment_saveExperiment ..).trans (if_pos rfl)
  · unfold savedExperiment
    split <;> rfl
  · rw [← Option.some.inj hr]
    exact ((hloaded.keep (keepsMeasure_saveExperiment ..)).keep
      (keepsMeasure_of_extends (extends_saveGenome _ _)))

theorem Served.allStandard {now : ℕ} {request : Request} (hwf : WellFormed p.genomeDigest db)
    (h : Served p db now request db') (hposs : Possible db request) (hall : AllStandard p db) :
    AllStandard p db' := by
  have hkeeps := h.keepsMeasure
  cases h with
  | unchanged => exact hall
  | created hcreated => exact createExperiment_standard hcreated hall
  | @failed _ _ _ record hload =>
      have hrecord := loadRun_ok hload
      have hid := (hwf.experiments _ record hrecord).id
      rw [experimentId_of_getExperiment hrecord] at hid
      exact hall.resave (hid ▸ hrecord) rfl (fun r hr => by cases hr) _ _
  | ran hload hstart => exact run_standard hwf hload hstart hposs hall
  | reviewed hreview => exact hall.keep hkeeps (experiments_review hreview)
  | canaried =>
      refine hall.keep hkeeps ?_
      exact (experiments_of_eraseStatus (eraseStatus_writeStatus _ _)).trans rfl
  | promoted | rolledBack =>
      refine hall.keep hkeeps ?_
      exact (experiments_of_eraseStatus (eraseStatus_reconcile _)).trans rfl
  | saved dataset => exact hall.keep hkeeps (experiments_saveDatasetVersion dataset)

end Experiments

/-! ## What reviews rest on -/

/-- A review of the application is on the given dataset version, and its experiment requires
    significance. -/
def ReviewsOn (dataset : DatasetVersion) (systemId : String) (db : Database) : Request → Prop
  | .requestPromotion experimentId genomeHash =>
      match reviewLookup db experimentId genomeHash with
      | .ok input => input.experiment.applicationId = systemId → input.dataset = dataset ∧
          input.experiment.config.promotionGates.requireStatisticallySignificantImprovement = true
      | .error _ => True
  | _ => True

instance (dataset : DatasetVersion) (systemId : String) (db : Database) (r : Request) :
    Decidable (ReviewsOn dataset systemId db r) := by
  unfold ReviewsOn
  split
  · split <;> infer_instance
  · infer_instance

/-- The genome is of another application. -/
def Elsewhere (db : Database) (systemId hash : String) : Prop :=
  ∃ other, systemOf db hash = some other ∧ other ≠ systemId

/-- A measurement that confirms an improvement is of a better genome. -/
def Confirms (p : Platform) (dataset : DatasetVersion) (systemId : String) (db : Database)
    (row : HoldoutEvaluationRecord) : Prop :=
  Elsewhere db systemId row.genomeHash ∨
    (row.evidence.comparison.conclusion = .likelyImprovement →
      MeasuredBetter p dataset db systemId row.evidence.baselineHash row.genomeHash)

/-- An approval is of a genome better than the baseline of its experiment. -/
def Justified (p : Platform) (dataset : DatasetVersion) (systemId : String) (db : Database)
    (d : PromotionRecord) : Prop :=
  Elsewhere db systemId d.genomeHash ∨
    (d.approved = true → ∃ baseline, recordBaseline db d = some baseline ∧
      MeasuredBetter p dataset db systemId baseline d.genomeHash)

/-- What approvals of the application rest on. -/
structure Evidenced (p : Platform) (dataset : DatasetVersion) (systemId : String)
    (db : Database) : Prop where
  standard : AllStandard p db
  measured : ∀ row ∈ db.holdouts, Confirms p dataset systemId db row
  approved : ∀ d ∈ db.decisions, Justified p dataset systemId db d

section Reviews

variable {p : Platform} {dataset : DatasetVersion} {systemId : String} {db db' : Database}

theorem evidenced_empty : Evidenced p dataset systemId {} where
  standard := fun id e he => by cases he
  measured := fun row hrow => by cases hrow
  approved := fun d hd => by cases hd

theorem KeepsMeasure.systemOf (h : KeepsMeasure db db') {hash owner : String}
    (howner : NeuroForge.systemOf db hash = some owner) :
    NeuroForge.systemOf db' hash = some owner := by
  obtain ⟨r, hr, hsystem⟩ := Option.map_eq_some_iff.mp howner
  obtain ⟨r', hr', hdata⟩ := h.data hash r hr
  unfold NeuroForge.systemOf
  rw [hr', Option.map_some, GenomeRecord.systemId, hdata]
  exact congrArg some hsystem

theorem Elsewhere.keep (hkeeps : KeepsMeasure db db') {hash : String}
    (h : Elsewhere db systemId hash) : Elsewhere db' systemId hash := by
  obtain ⟨other, hother, hne⟩ := h
  exact ⟨other, hkeeps.systemOf hother, hne⟩

theorem Confirms.keep (hkeeps : KeepsMeasure db db') {row : HoldoutEvaluationRecord}
    (h : Confirms p dataset systemId db row) : Confirms p dataset systemId db' row :=
  h.imp (Elsewhere.keep hkeeps) fun hgains himproves => hkeeps.measuredBetter (hgains himproves)

theorem Justified.keep (hkeeps : KeepsMeasure db db') (hbaselines : KeepsBaselines db db')
    {d : PromotionRecord} (h : Justified p dataset systemId db d) :
    Justified p dataset systemId db' d := by
  refine h.imp (Elsewhere.keep hkeeps) fun hgains happroved => ?_
  obtain ⟨baseline, hbaseline, hbetter⟩ := hgains happroved
  exact ⟨baseline, recordBaseline_kept hbaselines hbaseline, hkeeps.measuredBetter hbetter⟩

/-- What the measurement of a standard experiment confirms. -/
theorem measure_gains {experimentId genomeHash : String}
    {input : ReviewInput} (hlookup : reviewLookup db experimentId genomeHash = .ok input)
    (hstandard : Standard p db input.experiment) {evidence : HoldoutEvidence}
    (hmeasure : input.measure p = .ok evidence)
    (himproves : evidence.comparison.conclusion = .likelyImprovement) :
    MeasuredBetter p input.dataset db input.experiment.applicationId
      (input.baselineHash p) genomeHash := by
  obtain ⟨-, -, -, hresult, hcandidate, -, -⟩ := reviewLookup_ok hlookup
  obtain ⟨r, hr, hcontent⟩ := hstandard.baseline _ hresult
  obtain ⟨r', hr', hcandidate, -, -⟩ := getGenome_eq_some hcandidate
  unfold ReviewInput.measure at hmeasure
  dsimp only at hmeasure
  split at hmeasure
  · rename_i measured hmeasured
    obtain ⟨evaluate, hevaluate, hmeasured⟩ := bind_eq_ok.mp hmeasured
    rw [← Except.ok.inj hmeasure] at himproves
    have hgains := evaluateOnHoldout_gains hmeasured himproves
    rw [hstandard.margin, ← hcontent, hcandidate] at hgains
    rw [hstandard.provider] at hevaluate
    exact ⟨_, _,
      holdoutScores_eq_some.mpr ⟨_, evaluate, r, hstandard.domain, hevaluate, hr, rfl⟩,
      holdoutScores_eq_some.mpr ⟨_, evaluate, r', hstandard.domain, hevaluate, hr', rfl⟩, hgains⟩
  · cases hmeasure

/-- The genome of a review is one of the experiment's application. -/
theorem systemOf_reviewed {experimentId genomeHash : String} {input : ReviewInput}
    (hlookup : reviewLookup db experimentId genomeHash = .ok input) :
    systemOf db genomeHash = some input.experiment.applicationId := by
  obtain ⟨-, -, -, -, hcandidate, hsystem, -⟩ := reviewLookup_ok hlookup
  obtain ⟨-, -, -, -, howner⟩ := getGenome_eq_some hcandidate
  rw [howner, hsystem]

/-- What the evidence of a review confirms, whether it is fresh or stored. -/
theorem settleEvidence_gains (h : Evidenced p dataset systemId db) {experimentId genomeHash : String}
    {input : ReviewInput} (hlookup : reviewLookup db experimentId genomeHash = .ok input)
    (happlication : input.experiment.applicationId = systemId) (hdataset : input.dataset = dataset)
    {used : HoldoutEvidence × Bool} {settled : Database}
    (hsettled : settleEvidence p db input = .ok (used, settled))
    (himproves : used.1.comparison.conclusion = .likelyImprovement) :
    MeasuredBetter p dataset db systemId (input.baselineHash p) genomeHash := by
  obtain ⟨-, hgenome, hexperiment, -, -, -, hstored⟩ := reviewLookup_ok hlookup
  have hstandard := h.standard _ _ hexperiment
  have hfresh (hmeasure : input.measure p = .ok used.1) :
      MeasuredBetter p dataset db systemId (input.baselineHash p) genomeHash := by
    rw [← hdataset, ← happlication]
    exact measure_gains hlookup hstandard hmeasure himproves
  rcases settleEvidence_ok (hgenome ▸ hstored) hsettled with
    ⟨r, hr, -, hbase, hused⟩ | ⟨-, -, -, -, hmeasure⟩ | ⟨-, hmeasure, -⟩
  · rw [hstored] at hr
    have hsubject : r.genomeHash = genomeHash := congrArg Prod.fst (key_of_getHoldoutEvaluation hr)
    rcases h.measured r (List.mem_of_find?_eq_some hr) with ⟨other, hother, hne⟩ | hgains
    · rw [hsubject, systemOf_reviewed hlookup, Option.some_inj] at hother
      exact absurd (hother.symm.trans happlication) hne
    · rw [hbase, hsubject] at hgains
      exact hgains (hused ▸ himproves)
  · exact hfresh hmeasure
  · exact hfresh hmeasure

theorem reviewsOn_iff {experimentId genomeHash : String} {input : ReviewInput}
    (hlookup : reviewLookup db experimentId genomeHash = .ok input) :
    ReviewsOn dataset systemId db (.requestPromotion experimentId genomeHash) ↔
      (input.experiment.applicationId = systemId → input.dataset = dataset ∧
        input.experiment.config.promotionGates.requireStatisticallySignificantImprovement =
          true) := by
  simp only [ReviewsOn, hlookup]

/-- The decision of a review records the baseline the review was against. -/
theorem recordBaseline_concluded (hwf : WellFormed p.genomeDigest db)
    {experimentId genomeHash : String} {input : ReviewInput}
    (hlookup : reviewLookup db experimentId genomeHash = .ok input)
    (hexperiments : db'.experiments = db.experiments) {d : PromotionRecord}
    (hid : d.experimentId = some input.experimentId) :
    recordBaseline db' d = some (input.baselineHash p) := by
  obtain ⟨hname, -, hexperiment, hresult, -, -, -⟩ := reviewLookup_ok hlookup
  obtain ⟨-, -, hash, hhash, -, hmeasured⟩ := hwf.experiments _ _ hexperiment
  rw [recordBaseline, hid, Option.bind_some, getExperiment, hexperiments, ← getExperiment, hname,
    hexperiment, Option.bind_some, hhash]
  exact congrArg some (hmeasured _ hresult).symm

theorem review_evidenced (hwf : WellFormed p.genomeDigest db)
    (h : Evidenced p dataset systemId db) {experimentId genomeHash : String} {now : ℕ}
    {review : PromotionReview}
    (hreview : reviewPromotion p db experimentId genomeHash now = .ok (review, db'))
    (hon : ReviewsOn dataset systemId db (.requestPromotion experimentId genomeHash)) :
    Evidenced p dataset systemId db' := by
  have hkeeps := keepsMeasure_review hreview
  have hexperiments := experiments_review hreview
  obtain ⟨input, used, settled, hlookup, hsettled, -, rfl⟩ := reviewPromotion_ok hreview
  obtain ⟨-, hgenome, -, -, -, -, hstored⟩ := reviewLookup_ok hlookup
  rw [reviewsOn_iff hlookup] at hon
  have hnew : Elsewhere db systemId genomeHash ∨
      ((used.1.comparison.conclusion = .likelyImprovement →
          MeasuredBetter p dataset db systemId (input.baselineHash p) genomeHash) ∧
        ((input.decision used.1).approved = true →
          used.1.comparison.conclusion = .likelyImprovement)) := by
    by_cases happlication : input.experiment.applicationId = systemId
    · obtain ⟨hdataset, hrequired⟩ := hon happlication
      exact .inr ⟨settleEvidence_gains h hlookup happlication hdataset hsettled,
        improvement_of_approved hrequired⟩
    · exact .inl ⟨_, systemOf_reviewed hlookup, happlication⟩
  refine ⟨h.standard.keep hkeeps hexperiments, fun row hrow => ?_, fun d hd => ?_⟩
  · rw [holdouts_conclude] at hrow
    have hrow : row ∈ db.holdouts ∨
        row = input.row used.1 ∧ used.1.baselineHash = input.baselineHash p := by
      rcases settleEvidence_ok (hgenome ▸ hstored) hsettled with
        ⟨r, -, rfl, -⟩ | ⟨r, -, rfl, -⟩ | ⟨-, hmeasure, rfl⟩
      · exact .inl hrow
      · exact .inl hrow
      · rcases List.mem_append.mp hrow with hold | hadded
        · exact .inl hold
        · exact .inr ⟨List.mem_singleton.mp hadded, (measure_ok hmeasure).1⟩
    rcases hrow with hold | ⟨rfl, hbase⟩
    · exact (h.measured row hold).keep hkeeps
    · refine hnew.imp (hgenome ▸ Elsewhere.keep hkeeps) fun hgains himproves => ?_
      refine hkeeps.measuredBetter ?_
      rw [show (input.row used.1).genomeHash = genomeHash from hgenome,
        show (input.row used.1).evidence.baselineHash = _ from hbase]
      exact hgains.1 himproves
  · have hsame : settled.decisions = db.decisions := by
      rcases settleEvidence_ok (hgenome ▸ hstored) hsettled with
        ⟨r, -, rfl, -⟩ | ⟨r, -, rfl, -⟩ | ⟨-, -, rfl⟩
      all_goals rfl
    rw [decisions_conclude, hsame] at hd
    rcases List.mem_append.mp hd with hold | hadded
    · exact (h.approved d hold).keep hkeeps (KeepsBaselines.of_eq hexperiments)
    · obtain rfl := List.mem_singleton.mp hadded
      refine hnew.imp (hgenome ▸ Elsewhere.keep hkeeps) fun hgains happroved => ?_
      refine ⟨_, recordBaseline_concluded hwf hlookup hexperiments rfl, ?_⟩
      rw [hgenome]
      exact hkeeps.measuredBetter (hgains.1 (hgains.2 happroved))

/-- Every request keeps what approvals rest on, if the reviews of the application are on the
    dataset version. -/
theorem Served.evidenced {now : ℕ} {request : Request} (hsound : Sound p db)
    (hserved : Served p db now request db') (hposs : Possible db request)
    (hon : ReviewsOn dataset systemId db request) (h : Evidenced p dataset systemId db) :
    Evidenced p dataset systemId db' := by
  have hkeeps := hserved.keepsMeasure
  obtain ⟨locked, heffect⟩ := hserved.effect hsound hposs
  rcases hserved.reviews with hsame | ⟨experimentId, genomeHash, review, rfl, hreview⟩
  · refine ⟨hserved.allStandard hsound.wellFormed hposs h.standard, fun row hrow => ?_,
      fun d hd => ?_⟩
    · rw [hsame.holdouts] at hrow
      exact (h.measured row hrow).keep hkeeps
    · rw [hsame.decisions] at hd
      exact (h.approved d hd).keep hkeeps heffect.baselines
  · exact review_evidenced hsound.wellFormed h hreview hon

end Reviews

end NeuroForge
