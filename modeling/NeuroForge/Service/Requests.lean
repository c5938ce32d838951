/-
  `apps/api/neuroforge_api/main.py`: the requests of the promotion pipeline, served one
  after another.

  `serve` answers one request: a reply, and the database its transactions leave. A request
  that is refused is rolled back; only a run that fails leaves a mark, on its experiment.
  A run carries what the engine answered and a canary what its simulation measured;
  `Possible` says what a run's answer can be (`returned_resultOf`). Authentication, audit
  log and the interfaces that only read are left out.
-/
import NeuroForge.Experiments.Runner
import NeuroForge.Promotion.Review

namespace NeuroForge

open Fallible Database

structure HttpError where
  status : ℕ
  detail : String
  deriving DecidableEq, Repr

/-- `_PRODUCTION_STATUS` -/
def ProductionError.status (e : ProductionError) : ℕ :=
  if e.kind = "not_found" then 404 else if e.kind = "conflict" then 409 else 400

def ProductionError.message : ProductionError → String
  | .unknownGenome m | .alreadyPromoted m | .notPromotable m | .staleBaseline m
  | .nothingInProduction m | .unknownBaseline m => m

/-- A production error as the interface reports it. -/
def production {α : Type} : Except ProductionError α → Except HttpError α
  | .ok a => .ok a
  | .error e => .error ⟨e.status, e.message⟩

def RunnerError.http : RunnerError → HttpError
  | .unknownExperiment m => ⟨404, m⟩
  | .runnerError m => ⟨400, m⟩
  | .engineError m => ⟨500, m⟩

def ReviewFailure.http : ReviewFailure → HttpError
  | .reviewError m => ⟨400, m⟩
  | .integrityError => ⟨500, "Internal Server Error"⟩

/-! ## Creating an experiment -/

/-- `ID_PATTERN`: a letter or a digit, then up to 99 more characters. -/
def validIdentifier (text : String) : Bool :=
  match text.toList with
  | [] => false
  | c :: cs => c.isAlphanum && decide (cs.length ≤ 99) &&
      cs.all fun c => c.isAlphanum || c ∈ ['.', '_', '-']

/-- A text that names an application, a dataset or an experiment. -/
abbrev Identifier := { text : String // validIdentifier text = true }

theorem Identifier.ne_empty (name : Identifier) : name.1 ≠ "" := by
  obtain ⟨text, h⟩ := name
  rintro rfl
  cases h

/-- The body of `POST /experiments`. The search space and the objectives are what
    `build_search_space` and `build_objectives` make of its dimensions and weights. -/
structure ExperimentCreateRequest where
  experimentId : Identifier
  systemId : Identifier
  domain : String := "forge-support"
  datasetId : Option Identifier := none
  strategy : String := "evolutionary"
  seed : ℤ := 42
  batchSize : ℕ := 16
  maxBatches : ℕ := 20
  budget : Option ExperimentBudget := none
  baseline : String := "champion"
  promotionGates : Option PromotionGateConfig := none
  safetyConstraints : Option SafetyConstraints := none
  searchSpace : Except String SearchSpace
  objectives : Except String ObjectiveSpec

/-- Which domain generated a dataset, from its first challenge's id. -/
def datasetDomain (challenge : Challenge) : String :=
  let idPrefix := challenge.challengeId.toList.takeWhile (· ≠ '-')
  if idPrefix = "sql".toList then "sql-agent"
  else if idPrefix = "ra".toList then "research-agent"
  else "forge-support"

/-- A configuration error as the interface reports it. -/
def configured {α : Type} : Except String α → Except HttpError α
  | .ok a => .ok a
  | .error message => .error ⟨400, message⟩

def checkNew (db : Database) (body : ExperimentCreateRequest) : Except HttpError Unit :=
  match db.getExperiment body.experimentId.1 with
  | some _ => .error ⟨409, s!"experiment '{body.experimentId.1}' already exists"⟩
  | none => .ok ()

def checkDomain (db : Database) (body : ExperimentCreateRequest) : Except HttpError Unit :=
  match db.applications.find? (·.id = body.systemId.1) with
  | some app =>
      if app.domainName = body.domain then .ok ()
      else .error ⟨400, s!"application '{body.systemId.1}' uses domain '{app.domainName}', " ++
        s!"not '{body.domain}'"⟩
  | none => .ok ()

/-- The application has a v1: an empty genome is saved as one if it has none. -/
def withOriginal (digest : GenomeDigest) (db : Database) (systemId : String) : Database :=
  match originalBaseline db systemId with
  | some _ => db
  | none => db.saveGenome digest { systemId := systemId, version := 1 }

/-- The dataset of a new experiment: the latest version, or a freshly seeded one. -/
def withDataset (p : Platform) (db : Database) (body : ExperimentCreateRequest)
    (datasetId : String) : Except HttpError Database :=
  match db.latestDatasetVersion datasetId with
  | none => .ok (db.saveDatasetVersion (p.seedDataset body.domain datasetId body.seed))
  | some dataset =>
      match dataset.challenges.head? with
      | some challenge =>
          if datasetDomain challenge = body.domain then .ok db
          else .error ⟨400, s!"dataset '{datasetId}' belongs to domain " ++
            s!"'{datasetDomain challenge}', not '{body.domain}'"⟩
      | none => .ok db

def requireBaseline (systemId : String) :
    Option GenomeRecord → Except HttpError GenomeRecord
  | some record => .ok record
  | none => .error ⟨400, s!"no baseline genome for '{systemId}'"⟩

/-- The configuration a new experiment is stored with. -/
def createdConfig (db : Database) (body : ExperimentCreateRequest) (datasetId : String)
    (baseline : GenomeRecord) (searchSpace : SearchSpace) (objectives : ObjectiveSpec) :
    ExperimentConfig where
  experimentId := body.experimentId.1
  domainName := body.domain
  datasetId := some datasetId
  baselineHash := some baseline.hash
  promotionGates := body.promotionGates.getD .defaults
  safetyConstraints := body.safetyConstraints.getD .defaults
  firstCandidateVersion := some (db.nextCandidateVersion body.systemId.1)
  searchStrategy := body.strategy
  searchSpace := searchSpace
  objectives := objectives
  batchSize := body.batchSize
  maxBatches := body.maxBatches
  seed := body.seed
  budget := body.budget.getD
    { maxCandidates := 200, maxRequests := 1000000, maxCostUsd := 100, maxDurationMinutes := 60 }

def createExperiment (p : Platform) (db : Database) (body : ExperimentCreateRequest) :
    Except HttpError Database := do
  let datasetId := (body.datasetId.map (·.1)).getD (body.systemId.1 ++ "-dataset")
  checkNew db body
  checkDomain db body
  let withApp := db.upsertApplication body.systemId.1 body.systemId.1 body.domain
  let withV1 := withOriginal p.genomeDigest withApp body.systemId.1
  let found ← production (resolveBaseline withV1 body.systemId.1 body.baseline)
  let baseline ← requireBaseline body.systemId.1 found
  let seeded ← withDataset p withV1 body datasetId
  let searchSpace ← configured body.searchSpace
  let objectives ← configured body.objectives
  return seeded.saveExperiment body.systemId.1
    (createdConfig seeded body datasetId baseline searchSpace objectives) none .created

/-! ## Canaries -/

/-- The body of `POST /canaries` and what the simulation came to. -/
structure CanaryRequest where
  baselineIdent : String
  candidateIdent : String
  datasetId : String
  simulated : Except String (ℚ × Bool)

/-- `_resolve_genome`: a hash or `<system>@v<N>`. -/
def resolveGenome (db : Database) (ident : String) : Except HttpError SystemGenome :=
  match partitionVersion ident.toList with
  | some (systemId, digits) =>
      match parseDigits digits with
      | none => .error ⟨400, s!"malformed genome identifier '{ident}' " ++
          "(expected <system>@v<number>)"⟩
      | some version =>
          match (db.listGenomesForSystem (String.ofList systemId)).find?
              (·.version = version) with
          | some record => .ok (genomeFromRecord record)
          | none => .error ⟨404, s!"no genome found for {ident}"⟩
  | none =>
      match db.getGenome ident with
      | some genome => .ok genome
      | none => .error ⟨404, s!"no genome found with hash {ident}"⟩

def canaryDataset (db : Database) (datasetId : String) : Except HttpError DatasetVersion :=
  match db.latestDatasetVersion datasetId with
  | none => .error ⟨404, s!"unknown dataset '{datasetId}'"⟩
  | some dataset =>
      if dataset.challenges = [] then
        .error ⟨400, s!"dataset '{dataset.datasetId}' has no challenges"⟩
      else .ok dataset

/-- What a canary has read: the candidate as loaded, the baseline, and the outcome. -/
structure CanaryInput where
  candidate : SystemGenome
  baseline : SystemGenome
  trafficSplit : ℚ
  rollbackTriggered : Bool

def canaryLookup (db : Database) (body : CanaryRequest) : Except HttpError CanaryInput := do
  let baseline ← resolveGenome db body.baselineIdent
  let candidate ← resolveGenome db body.candidateIdent
  let _ ← canaryDataset db body.datasetId
  let simulated ← configured body.simulated
  return ⟨candidate, baseline, simulated.1, simulated.2⟩

def recordCanary (digest : GenomeDigest) (db : Database) (input : CanaryInput) (now : ℕ) :
    Database :=
  db.saveCanaryResult (input.candidate.hash digest) (input.baseline.hash digest)
    input.trafficSplit input.rollbackTriggered input.candidate.status now

/-! ## Serving requests -/

inductive Request where
  | createExperiment (body : ExperimentCreateRequest)
  /-- run an experiment from the checkpoint on its disk -/
  | runExperiment (experimentId : String) (checkpoint : Option ExperimentCheckpoint)
      (answer : Except String ExperimentResult)
  | requestPromotion (experimentId genomeHash : String)
  | runCanary (body : CanaryRequest)
  | finalizePromotion (genomeHash : String) (experimentId : Option String)
      (approvedBy : String)
  | rollbackPromotion (systemId approvedBy : String)
  /-- a dataset version is seeded or evolved -/
  | saveDataset (dataset : DatasetVersion)

/-- A request and the time at which it writes. -/
structure Timed where
  now : ℕ
  request : Request

/-- The reply to a request: nothing, or the error it is refused with. -/
abbrev Reply := Option HttpError

/-- A transaction that raises is rolled back. -/
def transact (db : Database) : Except HttpError Database → Reply × Database
  | .ok db' => (none, db')
  | .error e => (some e, db)

def serveRun (p : Platform) (db : Database) (experimentId : String)
    (checkpoint : Option ExperimentCheckpoint) (answer : Except String ExperimentResult) :
    Reply × Database :=
  match loadRun db experimentId with
  | .error e => (some e.http, db)
  | .ok record =>
      match startRun db record checkpoint with
      | .error e =>
          (some e.http, markExperiment db record.applicationId record.config .failed)
      | .ok input =>
          match answer with
          | .error message =>
              (some (RunnerError.engineError message).http,
                markExperiment db input.applicationId input.config .failed)
          | .ok result =>
              (none, finishRun p.genomeDigest
                (markExperiment db input.applicationId input.config .running) input result)

def serve (p : Platform) (db : Database) (t : Timed) : Reply × Database :=
  match t.request with
  | .createExperiment body => transact db (createExperiment p db body)
  | .runExperiment experimentId checkpoint answer =>
      serveRun p db experimentId checkpoint answer
  | .requestPromotion experimentId genomeHash =>
      match reviewPromotion p db experimentId genomeHash t.now with
      | .ok review => (none, review.2)
      | .error e => (some e.http, db)
  | .runCanary body => transact db do
      let input ← canaryLookup db body
      return recordCanary p.genomeDigest db input t.now
  | .finalizePromotion genomeHash experimentId approvedBy => transact db do
      let outcome ← production (promoteToProduction db genomeHash experimentId approvedBy t.now)
      return outcome.2
  | .rollbackPromotion systemId approvedBy => transact db do
      let outcome ← production (rollbackProduction db systemId approvedBy t.now)
      return outcome.2
  | .saveDataset dataset => (none, db.saveDatasetVersion dataset)

/-- What a run can have answered: a failure, or a result of its own. -/
def Possible (db : Database) : Request → Prop
  | .runExperiment experimentId checkpoint (.ok result) =>
      match loadRun db experimentId with
      | .error _ => True
      | .ok record =>
          match startRun db record checkpoint with
          | .error _ => True
          | .ok input => ResultOf input.baseline input.dataset result
  | _ => True

instance (db : Database) (r : Request) : Decidable (Possible db r) := by
  unfold Possible
  split
  · split
    · infer_instance
    · split <;> infer_instance
  · infer_instance

/-- A history of the service: requests, each served to its end before the next. -/
def serialStep (p : Platform) (db : Database) (t : Timed) : Option Database :=
  if Possible db t.request then some (serve p db t).2 else none

section Example

/-- A readable digest of the configurations the examples use. -/
def exampleDigest (content : GenomeContent) : String :=
  content.systemId ++ "-" ++ toString content.config.retrieval.topK.1.toNat

/-- Quality grows with how many passages are retrieved. -/
def topKEvaluator : Evaluator := fun content c =>
  { challengeId := c.challengeId, genomeHash := exampleDigest content
    metrics := [("quality", content.config.retrieval.topK.1 / 50)]
    costUsd := 1 / 100, latencyMs := 500, failed := false }

/-- The examples' platform, with a generator and a domain of one's choice. -/
def platformWith (numpy : Numpy) (evaluator : Evaluator) : Platform where
  genomeDigest := exampleDigest
  genomeDigest_ne := by
    intro content h
    have hlen := congrArg String.length h
    simp [exampleDigest] at hlen
  numpy := numpy
  evaluator _ _ := .ok evaluator
  seedDataset _ datasetId _ := { exampleDataset with datasetId := datasetId }

def examplePlatform : Platform := platformWith exampleNumpy topKEvaluator

def exampleGenome (version : ℕ) (topK : IntIn 1 50) : SystemGenome where
  systemId := "app"
  version := version
  config := { GenomeConfig.defaults with
    retrieval := { GenomeConfig.defaults.retrieval with topK := topK } }

/-- The experiments of the examples. -/
def exp1 : Identifier := ⟨"exp-1", by decide⟩

def exp2 : Identifier := ⟨"exp-2", by decide⟩

def exp3 : Identifier := ⟨"exp-3", by decide⟩

def exp4 : Identifier := ⟨"exp-4", by decide⟩

/-- The floors for quality the examples ask for. -/
def usualFloor : RatIn 0 1 := ⟨3 / 5, by norm_num⟩

def highFloor : RatIn 0 1 := ⟨9 / 10, by norm_num⟩

/-- An experiment on the application `app`, from the given baseline and with the given floor
    for quality. -/
def exampleBody (experimentId : Identifier) (baseline : String) (seed : ℤ)
    (minQuality : RatIn 0 1) : ExperimentCreateRequest where
  experimentId := experimentId
  systemId := ⟨"app", by decide⟩
  baseline := baseline
  seed := seed
  promotionGates := some { exampleGates with minQuality := minQuality }
  searchSpace := .ok exampleSpace
  objectives := .ok defaultObjectives

def exampleCreate (experimentId : Identifier) (baseline : String) (seed : ℤ)
    (minQuality : RatIn 0 1) : Request :=
  .createExperiment (exampleBody experimentId baseline seed minQuality)

/-- A result that found `best`. -/
def exampleResult (baseline best : SystemGenome) : ExperimentResult where
  experimentId := ""
  status := .completed
  stopReason := "max_batches reached"
  generationsCompleted := 1
  candidatesEvaluated := 1
  baselineGenome := baseline
  bestGenome := best
  baselineMetrics := []
  bestMetrics := []
  comparison := ⟨0, 0, 0, 0, 0, 19 / 20, .inconclusive⟩
  budgetUtilization := []
  fitnessHistory := []
  recommendation := ""
  datasetId := "app-dataset"
  datasetVersion := 1
  selectedFeasible := true
  validationSafety := ⟨0, 19 / 20, false, 0, 0, 1, 1⟩

/-- The v1 of `app`, with the status it is loaded with. -/
def exampleOriginal : SystemGenome := exampleGenome 1 GenomeConfig.defaults.retrieval.topK

/-- A better genome of `app`, and one that is better still. -/
def exampleBetter : SystemGenome := exampleGenome 2 ⟨40, by norm_num⟩

def exampleBest : SystemGenome := exampleGenome 202 ⟨45, by norm_num⟩

/-- A run of `exp-1` that found the better genome. -/
def exampleRun : Request :=
  .runExperiment "exp-1" none (.ok (exampleResult exampleOriginal exampleBetter))

def exampleCanary (candidate : String) : Request :=
  .runCanary ⟨"app-5", candidate, "app-dataset", .ok (1 / 10, false)⟩

/-- An experiment is created and run, its best genome reviewed, canaried and promoted. -/
def exampleHistory : List Timed :=
  [⟨1, exampleCreate exp1 "champion" 1 usualFloor⟩, ⟨2, exampleRun⟩,
    ⟨3, .requestPromotion "exp-1" "app-40"⟩, ⟨4, exampleCanary "app-40"⟩,
    ⟨5, .finalizePromotion "app-40" (some "exp-1") "admin"⟩]

end Example

end NeuroForge
