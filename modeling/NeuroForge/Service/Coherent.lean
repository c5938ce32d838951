/-
  What every step of every client keeps.

  A step keeps the database well formed; no row, recorded baseline or stored measurement
  gets lost; only the holder of an application's lock changes what is in production there
  (`Effect`, `Move.effect`). What a client has read of its genome and its experiment is
  therefore true until it commits (`Phase.Fits`), and no two clients hold one lock or have
  measurements inserted under one key (`Apart`). `coherent_of_run` says so of every run.
-/
import NeuroForge.Service.Concurrent
import NeuroForge.Service.Effects

namespace NeuroForge

open Fallible Database Interleaving

variable {p : Platform} {n : ℕ}

/-! ## The effect of a step -/

/-- The same is in production. -/
structure SameProduction (db db' : Database) (systemId : String) : Prop where
  stack : productionHashes db' systemId = productionHashes db systemId
  hash : ∀ hash, productionHash db systemId = some hash → productionHash db' systemId = some hash

/-- A step of a client that holds the lock `locked`. -/
structure Effect (p : Platform) (locked : Option String) (db db' : Database) : Prop where
  wellFormed : WellFormed p.genomeDigest db'
  rows : ∀ hash systemId, systemOf db hash = some systemId → systemOf db' hash = some systemId
  baselines : KeepsBaselines db db'
  holdouts : KeepsHoldouts db db'
  production : ∀ systemId, locked ≠ some systemId → SameProduction db db' systemId

section Effect

variable {db db' : Database} {locked : Option String}

theorem sameProduction_of_originals {systemId : String}
    (hstack : productionHashes db' systemId = productionHashes db systemId)
    (horiginal : ∀ r, originalBaseline db systemId = some r →
      ∃ r', originalBaseline db' systemId = some r' ∧ r'.hash = r.hash) :
    SameProduction db db' systemId := by
  refine ⟨hstack, fun hash hprod => ?_⟩
  rw [productionHash_eq] at hprod ⊢
  rw [hstack]
  rcases Option.or_eq_some_iff.mp hprod with htop | ⟨hnone, horig⟩
  · rw [htop, Option.some_or]
  · obtain ⟨r, hr, hhash⟩ := Option.map_eq_some_iff.mp horig
    obtain ⟨r', hr', hsame⟩ := horiginal r hr
    rw [hnone, hr', Option.none_or, Option.map_some, hsame, hhash]

/-- Nothing is written. -/
theorem Effect.refl (hwf : WellFormed p.genomeDigest db) : Effect p locked db db where
  wellFormed := hwf
  rows := fun _ _ h => h
  baselines := KeepsBaselines.of_eq rfl
  holdouts := KeepsHoldouts.of_eq rfl
  production := fun _ _ => ⟨rfl, fun _ h => h⟩

theorem Effect.trans {db'' : Database} (h₁ : Effect p locked db db')
    (h₂ : Effect p locked db' db'') : Effect p locked db db'' where
  wellFormed := h₂.wellFormed
  rows := fun hash systemId h => h₂.rows hash systemId (h₁.rows hash systemId h)
  baselines := h₁.baselines.trans h₂.baselines
  holdouts := h₁.holdouts.trans h₂.holdouts
  production := fun systemId hne =>
    ⟨(h₂.production systemId hne).stack.trans (h₁.production systemId hne).stack,
      fun hash h =>
        (h₂.production systemId hne).hash hash ((h₁.production systemId hne).hash hash h)⟩

/-- A write that is no production change. -/
theorem Effect.of_log (hwf : WellFormed p.genomeDigest db)
    (hwf' : WellFormed p.genomeDigest db') (hlog : KeepsLog db db')
    (hbaselines : KeepsBaselines db db') (hholdouts : KeepsHoldouts db db') :
    Effect p locked db db' where
  wellFormed := hwf'
  rows := fun _ _ h => hlog.systemOf h
  baselines := hbaselines
  holdouts := hholdouts
  production := fun systemId _ => sameProduction_of_originals
    (hlog.productionHashes hwf.known systemId) (hlog.originals systemId)

/-- A production change of an application. -/
theorem Effect.of_change (hwf : WellFormed p.genomeDigest db) {hash systemId : String}
    (hsys : systemOf db hash = some systemId) (loaded : String → Option PromotionStatus)
    (experimentId : Option String) (approvedBy : String) (action : ApprovalAction) (now : ℕ) :
    Effect p (some systemId) db (reconcileProductionStatuses
      (db.savePromotionApproval hash experimentId approvedBy action now) loaded systemId) := by
  have herase := @eraseStatus_reconcile
    (db.savePromotionApproval hash experimentId approvedBy action now) loaded systemId
  refine ⟨?_, fun hash' systemId' h => ?_, ?_, ?_, fun systemId' hne => ?_⟩
  · exact (hwf.savePromotionApproval hsys experimentId approvedBy action now).of_eraseStatus
      herase
  · rw [systemOf_congr herase]
    exact h
  · have hexperiments := experiments_of_eraseStatus herase
    exact KeepsBaselines.of_eq hexperiments
  · exact KeepsHoldouts.of_eq
      (sameReviews_productionChange hash experimentId approvedBy action now loaded
        systemId).holdouts
  · have hother : systemOf db hash ≠ some systemId' := by
      rw [hsys]
      exact hne
    refine sameProduction_of_originals ?_ fun r hr => ?_
    · rw [productionHashes_congr herase, productionHashes_savePromotionApproval_of_ne hother]
    · have horiginal := originalBaseline_congr herase systemId'
      have hsame : originalBaseline
          (db.savePromotionApproval hash experimentId approvedBy action now) systemId' =
          originalBaseline db systemId' := rfl
      rw [hsame, hr] at horiginal
      exact Option.map_eq_some_iff.mp horiginal

end Effect

/-! ## What a client has read stays true -/

/-- A review's experiment is stored with the baseline its result was measured against, and
    its genome has a row. -/
structure ReviewFits (p : Platform) (db : Database) (input : ReviewInput) : Prop where
  experiment : ∃ e, db.getExperiment input.experimentId = some e ∧
    e.config.baselineHash = some (input.baselineHash p)
  row : systemOf db input.genomeHash = some input.candidate.systemId

def Phase.Fits (p : Platform) (db : Database) : Phase → Prop
  | .idle => True
  | .reviewing input _ | .inserted input _ | .conflicted input _ => ReviewFits p db input
  | .canarying input =>
      systemOf db (input.candidate.hash p.genomeDigest) = some input.candidate.systemId
  | .running input => RunFits p db input
  | .promoting txn _ => systemOf db txn.genome.hash = some txn.genome.systemId
  | .rollingBack systemId _ current _ => systemOf db current.hash = some systemId

theorem ReviewFits.kept {db db' : Database} {input : ReviewInput} (h : ReviewFits p db input)
    {locked : Option String} (heffect : Effect p locked db db') : ReviewFits p db' input := by
  obtain ⟨⟨e, he, hbase⟩, hrow⟩ := h
  obtain ⟨e', he', hbase'⟩ := heffect.baselines _ e he
  exact ⟨⟨e', he', hbase'.trans hbase⟩, heffect.rows _ _ hrow⟩

theorem Phase.Fits.kept {db db' : Database} {phase : Phase} (h : phase.Fits p db)
    {locked : Option String} (heffect : Effect p locked db db') : phase.Fits p db' := by
  cases phase with
  | idle => trivial
  | reviewing input planned => exact ReviewFits.kept h heffect
  | inserted input evidence => exact ReviewFits.kept h heffect
  | conflicted input evidence => exact ReviewFits.kept h heffect
  | canarying input => exact heffect.rows _ _ h
  | running input =>
      obtain ⟨hstored, hbase, hrow⟩ := h
      exact ⟨hstored.kept heffect.baselines, hbase, heffect.rows _ _ hrow⟩
  | promoting txn stage => exact heffect.rows _ _ h
  | rollingBack systemId approvedBy current loaded => exact heffect.rows _ _ h

theorem reviewLookup_fits {db : Database} (hwf : WellFormed p.genomeDigest db)
    {experimentId genomeHash : String} {input : ReviewInput}
    (h : reviewLookup db experimentId genomeHash = .ok input) : ReviewFits p db input := by
  obtain ⟨hid, hgenome, hexp, hresult, hcandidate, -, -⟩ := reviewLookup_ok h
  obtain ⟨-, -, hash, hbase, -, hmeasured⟩ := hwf.experiments _ _ hexp
  obtain ⟨-, -, -, -, hsystem⟩ := getGenome_eq_some hcandidate
  refine ⟨⟨input.experiment, hid ▸ hexp, ?_⟩, hgenome ▸ hsystem⟩
  rw [hbase, ReviewInput.baselineHash, hmeasured _ hresult]

/-! ## One step -/

section Step

variable {s : Clients n} {phase phase' : Phase} {a : Action} {shared' : Service}

theorem wellFormed_insert {db stored : Database} (hwf : WellFormed p.genomeDigest db)
    {row : HoldoutEvaluationRecord} (h : db.saveHoldoutEvaluation row = some stored) :
    WellFormed p.genomeDigest stored ∧ KeepsLog db stored ∧ KeepsBaselines db stored ∧
      KeepsHoldouts db stored := by
  obtain ⟨-, rfl⟩ := saveHoldoutEvaluation_ok h
  exact ⟨hwf.of_eq rfl rfl rfl, KeepsLog.of_eq rfl rfl, KeepsBaselines.of_eq rfl,
    KeepsHoldouts.of_append rfl⟩

theorem effect_conclude {db : Database} (hwf : WellFormed p.genomeDigest db)
    {locked : Option String} (input : ReviewInput) (evidence : HoldoutEvidence) (now : ℕ) :
    Effect p locked db (conclude db input evidence now) := by
  have hadd : KeepsLog db (db.addDecision input.genomeHash (some input.experimentId)
      (input.decision evidence) now) := KeepsLog.of_eq rfl rfl
  have herase := @eraseStatus_writeStatus (db.addDecision input.genomeHash
    (some input.experimentId) (input.decision evidence) now) input.genomeHash
    (reviewStatus input.candidate.status (input.decision evidence))
  have hexperiments := experiments_of_eraseStatus herase
  exact Effect.of_log hwf (wellFormed_conclude hwf input evidence now)
    (hadd.trans (KeepsLog.of_eraseStatus herase)) (KeepsBaselines.of_eq hexperiments)
    (KeepsHoldouts.of_eq (holdouts_conclude input evidence now))

theorem effect_recordCanary {db : Database} (hwf : WellFormed p.genomeDigest db)
    {locked : Option String} (input : CanaryInput) (now : ℕ) :
    Effect p locked db (recordCanary p.genomeDigest db input now) := by
  have hadd : KeepsLog db (db.addCanary (input.candidate.hash p.genomeDigest)
      (input.baseline.hash p.genomeDigest) input.trafficSplit input.rollbackTriggered now) :=
    KeepsLog.of_eq rfl rfl
  have herase := @eraseStatus_writeStatus (db.addCanary (input.candidate.hash p.genomeDigest)
    (input.baseline.hash p.genomeDigest) input.trafficSplit input.rollbackTriggered now)
    (input.candidate.hash p.genomeDigest)
    (canaryStatus input.candidate.status input.rollbackTriggered)
  have hexperiments := experiments_of_eraseStatus herase
  exact Effect.of_log hwf (wellFormed_recordCanary hwf input now)
    (hadd.trans (KeepsLog.of_eraseStatus herase)) (KeepsBaselines.of_eq hexperiments)
    (KeepsHoldouts.of_eq (sameReviews_recordCanary input now).holdouts)

theorem effect_markExperiment {db : Database} (hwf : WellFormed p.genomeDigest db)
    {locked : Option String} {config : ExperimentConfig} (hstored : Stored db config)
    (applicationId : String) (status : ExperimentStatus) :
    Effect p locked db (markExperiment db applicationId config status) :=
  Effect.of_log hwf (wellFormed_markExperiment hwf hstored applicationId status)
    (preserves_markExperiment applicationId config status).log
    (keepsBaselines_markExperiment hstored applicationId status)
    (sameReviews_saveExperiment ..).keepsHoldouts

theorem effect_saveDatasetVersion {db : Database} (hwf : WellFormed p.genomeDigest db)
    {locked : Option String} (dataset : DatasetVersion) :
    Effect p locked db (db.saveDatasetVersion dataset) :=
  Effect.of_log hwf (hwf.of_eq (by simp) (by simp) (by simp))
    (KeepsLog.of_eq (by simp) (by simp)) (KeepsBaselines.of_eq (by simp))
    (sameReviews_saveDatasetVersion dataset).keepsHoldouts

/-- What a step does to the database. -/
theorem Move.effect (hwf : WellFormed p.genomeDigest s.shared.db)
    (hfits : phase.Fits p s.shared.db) (h : Move p s phase a shared' phase') :
    Effect p phase.lockedSystem s.shared.db shared'.db := by
  cases h with
  | create hcreate =>
      obtain ⟨hwf', hpreserves⟩ := createExperiment_ok hwf hcreate
      exact Effect.of_log hwf hwf' hpreserves.log (keepsBaselines_createExperiment hcreate)
        (sameReviews_createExperiment hcreate).keepsHoldouts
  | saveDataset => exact effect_saveDatasetVersion hwf _
  | failedStart hload => exact effect_markExperiment hwf (stored_of_loadRun hwf hload) _ _
  | startRun hload hstart =>
      exact effect_markExperiment hwf (startRun_fits hwf hload hstart).experiment _ _
  | failedRun => exact effect_markExperiment hwf (RunFits.experiment hfits) _ _
  | endRun hresult =>
      obtain ⟨hwf', hpreserves⟩ := finishRun_ok hwf hfits hresult
      exact Effect.of_log hwf hwf' hpreserves.log (keepsBaselines_finishRun hfits _)
        (sameReviews_finishRun _ _).keepsHoldouts
  | commitSettled => exact effect_conclude hwf _ _ _
  | commitInserted hstored =>
      obtain ⟨hwf', hlog, hbase, hhold⟩ := wellFormed_insert hwf hstored
      exact (Effect.of_log hwf hwf' hlog hbase hhold).trans (effect_conclude hwf' _ _ _)
  | commitCanary => exact effect_recordCanary hwf _ _
  | commitPromotion => exact Effect.of_change hwf hfits _ _ _ _ _
  | commitRollback => exact Effect.of_change hwf hfits _ _ _ _ _
  | _ => exact Effect.refl hwf

/-- What a client has read when it enters a phase. -/
theorem Move.fits (hwf : WellFormed p.genomeDigest s.shared.db)
    (hfits : phase.Fits p s.shared.db) (h : Move p s phase a shared' phase') :
    phase'.Fits p shared'.db := by
  have heffect := h.effect hwf hfits
  cases h with
  | @startRun _ _ _ input hload hstart =>
      have hrun : Phase.Fits p s.shared.db (.running input) := startRun_fits hwf hload hstart
      exact hrun.kept heffect
  | review hlookup hplan => exact reviewLookup_fits hwf hlookup
  | conflict htaken => exact hfits
  | insert hstored hunclaimed => exact hfits
  | lookupWinner hused => exact hfits
  | advanceSettled => exact ⟨hfits.experiment, hfits.row⟩
  | advanceInserted => exact ⟨hfits.experiment, hfits.row⟩
  | canary hlookup => exact (canaryLookup_ok hwf hlookup).2
  | advanceCanary => exact hfits
  | promote hgenome hstatus hunlocked =>
      have hrow := loadGenome_ok hgenome
      rw [← hash_of_getGenomeRecord hrow] at hrow
      exact systemOf_of_row hrow
  | check hcheck => exact hfits
  | reloadPromotion => exact hfits
  | rollback hcurrent hunlocked => exact systemOf_champion (championToRollBack_ok hcurrent)
  | reloadRollback => exact hfits
  | _ => trivial

/-- Two clients hold different locks and have inserted under different keys. -/
structure Phase.Apart (x y : Phase) : Prop where
  locks : ∀ systemId, x.lockedSystem = some systemId → y.lockedSystem ≠ some systemId
  keys : ∀ key, x.pendingKey = some key → y.pendingKey ≠ some key

theorem Phase.Apart.symm {x y : Phase} (h : x.Apart y) : y.Apart x where
  locks := fun systemId hy hx => h.locks systemId hx hy
  keys := fun key hy hx => h.keys key hx hy

/-- A client without lock and without an inserted measurement. -/
theorem Phase.apart_of_none {x y : Phase} (hlock : x.lockedSystem = none)
    (hkey : x.pendingKey = none) : x.Apart y := by
  refine ⟨fun systemId h => ?_, fun key h => ?_⟩
  · rw [hlock] at h
    cases h
  · rw [hkey] at h
    cases h

theorem Move.apart {j : Fin n} (hapart : phase.Apart (s.phase j))
    (h : Move p s phase a shared' phase') : phase'.Apart (s.phase j) := by
  cases h with
  | insert hstored hunclaimed =>
      refine ⟨fun systemId hlock => ?_, fun key hkey => ?_⟩
      · cases hlock
      · rw [← hkey]
        exact hunclaimed j
  | advanceInserted => exact ⟨hapart.locks, hapart.keys⟩
  | promote hgenome hstatus hunlocked =>
      refine ⟨fun systemId hlock => ?_, fun key hkey => ?_⟩
      · rw [← hlock]
        exact hunlocked j
      · cases hkey
  | check hcheck => exact ⟨hapart.locks, hapart.keys⟩
  | reloadPromotion => exact ⟨hapart.locks, hapart.keys⟩
  | rollback hcurrent hunlocked =>
      refine ⟨fun systemId hlock => ?_, fun key hkey => ?_⟩
      · rw [← hlock]
        exact hunlocked j
      · cases hkey
  | reloadRollback => exact ⟨hapart.locks, hapart.keys⟩
  | _ => exact Phase.apart_of_none rfl rfl

end Step

/-! ## All runs -/

/-- What every step keeps. -/
abbrev Coherent (p : Platform) (s : Clients n) : Prop :=
  Holds (fun shared : Service => WellFormed p.genomeDigest shared.db)
    (fun shared phase => Phase.Fits p shared.db phase) Phase.Apart s

theorem coherent_start (p : Platform) (n : ℕ) : Coherent p (Clients.start n) where
  shared := wellFormed_empty p.genomeDigest
  own := fun _ => trivial
  apart := fun _ _ _ => Phase.apart_of_none rfl rfl

/-- A step as its moves, and what it does. -/
theorem Coherent.move {s : Clients n} (h : Coherent p s) {i : Fin n} {a : Action}
    {r : Service × Phase} (hnext : next p s i a = some r) :
    Move p s (s.phase i) a r.1 r.2 ∧ Effect p (s.phase i).lockedSystem s.shared.db r.1.db := by
  have hmove := move_of_next p hnext
  exact ⟨hmove, hmove.effect h.shared (h.own i)⟩

theorem Coherent.step {s s' : Clients n} {a : Fin n × Action} (h : Coherent p s)
    (hstep : concurrentStep p s a = some s') : Coherent p s' := by
  refine Holds.step (fun _ _ hxy => hxy.symm) h hstep (fun r hr => ?_) (fun r hr j hj => ?_)
  · obtain ⟨hmove, heffect⟩ := h.move hr
    exact ⟨heffect.wellFormed, hmove.fits h.shared (h.own a.1), fun j hj =>
      hmove.apart (h.apart a.1 j (Ne.symm hj))⟩
  · obtain ⟨-, heffect⟩ := h.move hr
    exact (h.own j).kept heffect

theorem coherent_of_run {s : Clients n} {actions : List (Fin n × Action)}
    (h : Transition.run (concurrentStep p) (Clients.start n) actions = some s) : Coherent p s :=
  Transition.run_invariant (fun _ _ _ hs hstep => Coherent.step hs hstep)
    (coherent_start p n) h

end NeuroForge
