/-
  Requests served one after another keep the status column and the approval log in step.

  A request that is no production change preserves the log and the production statuses
  (`Served.preserves`), a production change keeps them in agreement (`Served.sound`) and
  commits one row to the log (`Served.commits`), and by induction every history does.
  `status_column_agrees` states this of the rows themselves, for every history and for every
  further request.
-/
import NeuroForge.Lib.KeyedLog
import NeuroForge.Service.Effects

namespace NeuroForge

open Fallible Database

/-- The two requests that change what is in production. -/
def Request.IsProductionChange : Request → Prop
  | .finalizePromotion _ _ _ | .rollbackPromotion _ _ => True
  | _ => False

/-- A database as the requests of a history leave it. -/
structure Sound (p : Platform) (db : Database) : Prop where
  wellFormed : WellFormed p.genomeDigest db
  agree : StatusesAgree db

theorem sound_empty (p : Platform) : Sound p {} := by
  refine ⟨wellFormed_empty p.genomeDigest, ?_⟩
  intro systemId hash status hsys
  cases hsys

section Requests

variable {p : Platform} {db : Database}

theorem Sound.preserved {db' : Database} (h : Sound p db)
    (hnew : WellFormed p.genomeDigest db' ∧ Preserves db db') : Sound p db' :=
  ⟨hnew.1, h.agree.preserved h.wellFormed.known hnew.2⟩

theorem review_preserves (hwf : WellFormed p.genomeDigest db) {experimentId genomeHash : String}
    {now : ℕ} {review : PromotionReview} {db' : Database}
    (h : reviewPromotion p db experimentId genomeHash now = .ok (review, db')) :
    WellFormed p.genomeDigest db' ∧ Preserves db db' := by
  obtain ⟨input, used, settled, hlookup, hsettled, -, rfl⟩ := reviewPromotion_ok h
  obtain ⟨-, hgenome, -, -, hcandidate, -, hstored⟩ := reviewLookup_ok hlookup
  have hsettle : WellFormed p.genomeDigest settled ∧ Preserves db settled ∧
      settled.genomes = db.genomes := by
    rcases settleEvidence_ok (hgenome ▸ hstored) hsettled with
      ⟨r, -, rfl, -⟩ | ⟨r, -, rfl, -⟩ | ⟨-, -, rfl⟩
    · exact ⟨hwf, Preserves.refl _, rfl⟩
    · exact ⟨hwf, Preserves.refl _, rfl⟩
    · exact ⟨hwf.of_eq rfl rfl rfl, Preserves.of_eq rfl rfl, rfl⟩
  obtain ⟨hwf', hpreserves, hgenomes⟩ := hsettle
  refine ⟨wellFormed_conclude hwf' input used.1 now, hpreserves.trans (preserves_conclude ?_)⟩
  intro status hstatus
  obtain ⟨-, -, -, hloaded, -⟩ := getGenome_eq_some hcandidate
  rw [statusOf, getGenomeRecord, hgenomes, hgenome] at hstatus
  rw [statusOf, getGenomeRecord, hstatus] at hloaded
  exact Option.some.inj hloaded

theorem canary_preserves (hwf : WellFormed p.genomeDigest db) {body : CanaryRequest}
    {input : CanaryInput} (h : canaryLookup db body = .ok input) (now : ℕ) :
    WellFormed p.genomeDigest (recordCanary p.genomeDigest db input now) ∧
      Preserves db (recordCanary p.genomeDigest db input now) := by
  refine ⟨wellFormed_recordCanary hwf input now, preserves_saveCanaryResult ?_⟩
  intro status hstatus
  rw [(canaryLookup_ok hwf h).1] at hstatus
  exact (Option.some.inj hstatus).symm

/-- A run that returns stores its result. -/
theorem run_preserves (hwf : WellFormed p.genomeDigest db) {experimentId : String}
    {checkpoint : Option ExperimentCheckpoint} {result : ExperimentResult}
    {record : ExperimentRecord} {input : RunInput}
    (hload : loadRun db experimentId = .ok record)
    (hstart : startRun db record checkpoint = .ok input)
    (hposs : Possible db (.runExperiment experimentId checkpoint (.ok result))) :
    WellFormed p.genomeDigest (finishRun p.genomeDigest
        (markExperiment db input.applicationId input.config .running) input result) ∧
      Preserves db (finishRun p.genomeDigest
        (markExperiment db input.applicationId input.config .running) input result) := by
  have hfit := startRun_fits hwf hload hstart
  have hres : ResultOf input.baseline input.dataset result := by
    unfold Possible at hposs
    simp only [hload, hstart] at hposs
    exact hposs
  have hwf' := wellFormed_markExperiment hwf hfit.experiment input.applicationId .running
  have hpres : Preserves db (markExperiment db input.applicationId input.config .running) :=
    preserves_markExperiment _ _ _
  obtain ⟨hdone, hpreserves⟩ :=
    finishRun_ok hwf' (hfit.marked input.applicationId .running) hres
  exact ⟨hdone, hpres.trans hpreserves⟩

/-- A request that is no production change preserves the log and the production statuses. -/
theorem Served.preserves (hwf : WellFormed p.genomeDigest db) {now : ℕ} {request : Request}
    {db' : Database} (h : Served p db now request db') (hposs : Possible db request)
    (hchange : ¬ request.IsProductionChange) :
    WellFormed p.genomeDigest db' ∧ Preserves db db' := by
  cases h with
  | unchanged => exact ⟨hwf, Preserves.refl db⟩
  | created hcreated => exact createExperiment_ok hwf hcreated
  | failed hload =>
      exact ⟨wellFormed_markExperiment hwf (stored_of_loadRun hwf hload) _ _,
        preserves_markExperiment _ _ _⟩
  | ran hload hstart => exact run_preserves hwf hload hstart hposs
  | reviewed hreview => exact review_preserves hwf hreview
  | canaried hlookup => exact canary_preserves hwf hlookup now
  | promoted | rolledBack => exact absurd trivial hchange
  | saved dataset =>
      exact ⟨hwf.of_eq (by simp) (by simp) (by simp), Preserves.of_eq (by simp) (by simp)⟩

theorem Sound.change (h : Sound p db) {hash systemId : String}
    (hsys : systemOf db hash = some systemId) (experimentId : Option String)
    (approvedBy : String) (action : ApprovalAction) (now : ℕ) :
    Sound p (reconcileProductionStatuses
      (db.savePromotionApproval hash experimentId approvedBy action now) db.statusOf
      systemId) := by
  obtain ⟨hwf, hagree⟩ := productionChange_ok h.wellFormed h.agree hsys (h.agree.loaded systemId)
    experimentId approvedBy action now
  exact ⟨hwf, hagree⟩

/-- Every request keeps the database sound. -/
theorem Served.sound (h : Sound p db) {now : ℕ} {request : Request} {db' : Database}
    (hserved : Served p db now request db') (hposs : Possible db request) : Sound p db' := by
  by_cases hchange : request.IsProductionChange
  · cases hserved with
    | promoted hrow => exact h.change (systemOf_of_row hrow) _ _ _ _
    | rolledBack hcurrent => exact h.change (systemOf_champion hcurrent) _ _ _ _
    | unchanged => exact h
    | _ => exact absurd hchange id
  · exact h.preserved (hserved.preserves h.wellFormed hposs hchange)

/-- Every history of requests leaves a sound database. -/
theorem sound_of_history {history : List Timed}
    (h : Transition.run (serialStep p) {} history = some db) : Sound p db := by
  refine Transition.run_invariant (fun s t s' hs hstep => ?_) (sound_empty p) h
  obtain ⟨hposs, hserved⟩ := serialStep_did hstep
  exact hserved.sound hs hposs

/-- A refused request leaves the log and every status as they were. -/
theorem refused_unchanged {t : Timed} (h : (serve p db t).1 ≠ none) :
    (serve p db t).2.approvals = db.approvals ∧
      ∀ hash, (serve p db t).2.statusOf hash = db.statusOf hash := by
  obtain ⟨now, request⟩ := t
  have htransact : ∀ x : Except HttpError Database, (transact db x).1 ≠ none →
      (transact db x).2 = db := by
    intro x hx
    rcases x with e | db'
    · rfl
    · exact absurd rfl hx
  have hsame : ∀ db' : Database, db' = db → db'.approvals = db.approvals ∧
      ∀ hash, db'.statusOf hash = db.statusOf hash := by
    rintro db' rfl
    exact ⟨rfl, fun _ => rfl⟩
  have hmark : ∀ (applicationId : String) (config : ExperimentConfig)
      (status : ExperimentStatus),
      (markExperiment db applicationId config status).approvals = db.approvals ∧
      ∀ hash, (markExperiment db applicationId config status).statusOf hash =
        db.statusOf hash := by
    intro applicationId config status
    refine ⟨approvals_saveExperiment .., fun hash => ?_⟩
    rw [statusOf, getGenomeRecord, markExperiment, genomes_saveExperiment, statusOf,
      getGenomeRecord]
  cases request with
  | createExperiment body => exact hsame _ (htransact _ h)
  | runExperiment experimentId checkpoint answer =>
      show (serveRun p db experimentId checkpoint answer).2.approvals = _ ∧ _
      unfold serve serveRun at h
      unfold serve serveRun
      dsimp only at h ⊢
      split at h
      · exact ⟨rfl, fun _ => rfl⟩
      · split at h
        · exact hmark _ _ _
        · split at h
          · exact hmark _ _ _
          · exact absurd rfl h
  | requestPromotion experimentId genomeHash =>
      unfold serve at h ⊢
      dsimp only at h ⊢
      split at h
      · exact absurd rfl h
      · exact ⟨rfl, fun _ => rfl⟩
  | runCanary body => exact hsame _ (htransact _ h)
  | finalizePromotion genomeHash experimentId approvedBy => exact hsame _ (htransact _ h)
  | rollbackPromotion systemId approvedBy => exact hsame _ (htransact _ h)
  | saveDataset dataset => exact absurd rfl h

end Requests

/-! ## What a request commits -/

/-- The rows of the approval log that concern one application, as they were committed. -/
def committedApprovals (db : Database) (systemId : String) : List PromotionApprovalRecord :=
  db.approvals.filter fun a => systemOf db a.genomeHash = some systemId

section Commits

variable {p : Platform} {db db' : Database} {now : ℕ} {systemId : String}

/-- The row `a` is committed: it changes what `systemId` has in production. -/
structure Commits (db db' : Database) (now : ℕ) (systemId : String)
    (a : PromotionApprovalRecord) : Prop where
  approvals : db'.approvals = db.approvals ++ [a]
  id : a.id = db.approvals.length + 1
  stamp : a.createdAt = now
  rows : ∀ hash, systemOf db' hash = systemOf db hash
  known : systemOf db a.genomeHash = some systemId
  changes : (approvalEvent a).Changes (productionHashes db systemId)

theorem commits_of_change {hash : String} (hsys : systemOf db hash = some systemId)
    (experimentId : Option String) (approvedBy : String) (action : ApprovalAction)
    (hchanges : (approvalEvent ⟨db.approvals.length + 1, hash, experimentId, approvedBy,
      some action, now⟩).Changes (productionHashes db systemId)) :
    Commits db (reconcileProductionStatuses
        (db.savePromotionApproval hash experimentId approvedBy action now) db.statusOf
        systemId) now systemId
      ⟨db.approvals.length + 1, hash, experimentId, approvedBy, some action, now⟩ := by
  have herase : (reconcileProductionStatuses
      (db.savePromotionApproval hash experimentId approvedBy action now) db.statusOf
      systemId).eraseStatus =
      (db.savePromotionApproval hash experimentId approvedBy action now).eraseStatus :=
    eraseStatus_reconcile systemId
  refine ⟨approvals_of_eraseStatus herase, rfl, rfl, fun hash' => ?_, hsys, hchanges⟩
  exact (systemOf_congr herase hash').trans (systemOf_savePromotionApproval hash')

/-- What a request does to the log: nothing, or it commits one row. -/
theorem Served.commits (h : Sound p db) {request : Request}
    (hserved : Served p db now request db') (hposs : Possible db request) :
    Preserves db db' ∨ ∃ systemId a, Commits db db' now systemId a := by
  by_cases hchange : request.IsProductionChange
  · cases hserved with
    | promoted hrow hstatus =>
        -- what is not PROMOTED is not on top
        have hsys := systemOf_of_row hrow
        refine .inr ⟨_, _, commits_of_change hsys _ _ _ fun htop => hstatus ?_⟩
        rw [← h.agree.promoted_iff hsys, statusOf, hrow] at htop
        exact Option.some.inj htop
    | rolledBack hcurrent =>
        refine .inr ⟨_, _, commits_of_change (systemOf_champion hcurrent) _ _ _ ?_⟩
        show (productionHashes db _).getLast? = _
        rw [getLast?_productionHashes, hcurrent]
        rfl
    | unchanged => exact .inl (Preserves.refl db)
    | _ => exact absurd hchange id
  · exact .inl (hserved.preserves h.wellFormed hposs hchange).2

section Row

variable {a : PromotionApprovalRecord}

theorem Commits.committedApprovals (h : Commits db db' now systemId a) :
    NeuroForge.committedApprovals db' systemId =
      NeuroForge.committedApprovals db systemId ++ [a] := by
  unfold NeuroForge.committedApprovals
  simp only [h.approvals, h.rows, List.filter_append]
  congr 1
  simp [h.known]

theorem Commits.committedApprovals_of_ne {other : String}
    (h : Commits db db' now systemId a) (hne : systemId ≠ other) :
    NeuroForge.committedApprovals db' other = NeuroForge.committedApprovals db other := by
  unfold NeuroForge.committedApprovals
  simp only [h.approvals, h.rows, List.filter_append]
  simp [h.known, hne]

end Row

end Commits

/-! ## The column, row by row -/

/-- Where a database stands with the status column, and what one more request does to it. -/
structure StatusColumnAgrees (p : Platform) (db : Database) : Prop where
  stack_nodup : ∀ systemId, ((productionStack db systemId).map (·.hash)).Nodup
  promoted : ∀ r ∈ db.genomes, r.status = .promoted ↔
    (productionStack db r.systemId).getLast?.map (·.hash) = some r.hash
  superseded : ∀ r ∈ db.genomes, r.status = .superseded ↔
    r.hash ∈ (productionStack db r.systemId).map (·.hash) ∧
      (productionStack db r.systemId).getLast?.map (·.hash) ≠ some r.hash
  at_most_one : ∀ r ∈ db.genomes, ∀ r' ∈ db.genomes, r.systemId = r'.systemId →
    r.status = .promoted → r'.status = .promoted → r = r'
  untouched : ∀ t : Timed, Possible db t.request → ¬ t.request.IsProductionChange →
    ∀ hash status, (status = .promoted ∨ status = .superseded) →
      ((serve p db t).2.statusOf hash = some status ↔ db.statusOf hash = some status)
  refused : ∀ t : Timed, (serve p db t).1 ≠ none →
    (serve p db t).2.approvals = db.approvals ∧
      ∀ hash, (serve p db t).2.statusOf hash = db.statusOf hash

/-- **The status column agrees with the approval log.** After every history of requests,
    over any applications and genomes, a genome is PROMOTED exactly when it is on top of
    its application's production stack and SUPERSEDED exactly when it lies under the top;
    the stack repeats no genome and at most one genome of an application is PROMOTED. A
    further request that is no production change neither creates nor removes these two
    statuses, and a refused one changes neither the log nor any status. The times of the
    requests play no part: the stack and the statuses are read off the same replay. -/
theorem status_column_agrees (p : Platform) (history : List Timed) (db : Database)
    (h : Transition.run (serialStep p) {} history = some db) : StatusColumnAgrees p db := by
  obtain ⟨hwf, hagree⟩ := sound_of_history h
  have hrow : ∀ r ∈ db.genomes, systemOf db r.hash = some r.systemId ∧
      db.statusOf r.hash = some r.status := by
    intro r hr
    have hget := getGenomeRecord_of_mem hwf.nodup hr
    rw [systemOf, statusOf, hget]
    exact ⟨rfl, rfl⟩
  have hpromoted : ∀ r ∈ db.genomes, r.status = .promoted ↔
      (productionStack db r.systemId).getLast?.map (·.hash) = some r.hash := by
    intro r hr
    obtain ⟨hsys, hstatus⟩ := hrow r hr
    have hiff := hagree.promoted_iff hsys
    rw [hstatus, Option.some_inj, getLast?_productionHashes] at hiff
    exact hiff
  refine ⟨fun systemId => productionHashes_nodup systemId, hpromoted, ?_, ?_, ?_, ?_⟩
  · intro r hr
    obtain ⟨hsys, hstatus⟩ := hrow r hr
    have hiff := hagree.superseded_iff hsys
    rw [hstatus, Option.some_inj, getLast?_productionHashes] at hiff
    exact hiff
  · intro r hr r' hr' hsame hp hp'
    rw [hpromoted r hr, hsame] at hp
    rw [hpromoted r' hr', hp, Option.some_inj] at hp'
    exact List.inj_on_of_nodup_map hwf.nodup hr hr' hp'
  · intro t hposs hchange
    exact ((serve_did t).preserves hwf hposs hchange).2.statuses
  · intro t ht
    exact refused_unchanged ht

/-- The genome the example promotes is the only one PROMOTED. -/
theorem status_column_agrees_promotion : ∃ db,
    Transition.run (serialStep examplePlatform) {} exampleHistory = some db ∧
      productionHashes db "app" = ["app-40"] ∧ StatusColumnAgrees examplePlatform db := by
  have hrun : ((Transition.run (serialStep examplePlatform) {} exampleHistory).map
      fun db => productionHashes db "app") = some ["app-40"] := by
    decide +kernel
  obtain ⟨db, hdb, hstack⟩ := Option.map_eq_some_iff.mp hrun
  exact ⟨db, hdb, hstack, status_column_agrees examplePlatform exampleHistory db hdb⟩

end NeuroForge
