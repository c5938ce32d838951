/-
  The status column repairs itself: `reconcile_production_statuses` over whole histories.

  The approval log is the authority and the status column a cache of it, which a race or an
  older version of the code may have left wrong. Served from such a database, the first
  promotion or rollback of an application that goes through sets every genome its log
  mentions right, whatever the column said, and every request after it keeps them right
  (`column_repairs_itself`). A genome the log does not mention is out of its reach: it has
  the status of a genome in production only if it had it before.
-/
import NeuroForge.Service.Coherent
import NeuroForge.Service.Rollback

namespace NeuroForge

open Fallible Database Transition

/-- The status of a genome that is in production or lies under one that is. -/
def InProductionStatus (status : PromotionStatus) : Prop :=
  status = .promoted ∨ status = .superseded

/-- The genomes the log of an application mentions have the statuses it gives them. -/
def LogAgrees (db : Database) (systemId : String) : Prop :=
  ∀ hash ∈ mentioned db systemId, ∀ status, db.statusOf hash = some status →
    if hash ∈ productionHashes db systemId then status = stackStatus db systemId hash
    else ¬ InProductionStatus status

/-- What requests make of an application since `db₀`, whatever its statuses were. -/
structure Repairing (p : Platform) (db₀ : Database) (systemId : String) (db : Database) :
    Prop where
  wellFormed : WellFormed p.genomeDigest db
  /-- its log has lost no event -/
  grows : (productionLog db₀ systemId).Sublist (productionLog db systemId)
  /-- its log is as it was, or its column has been repaired -/
  repaired : productionLog db systemId = productionLog db₀ systemId ∨ LogAgrees db systemId
  unmentioned : ∀ hash, systemOf db hash = some systemId → hash ∉ mentioned db systemId →
    ∀ status, InProductionStatus status → db.statusOf hash = some status →
      db₀.statusOf hash = some status

/-! ## The log grows -/

instance : Std.Total approvalOrder := ⟨fun _ _ => le_total _ _⟩

instance : IsTrans PromotionApprovalRecord approvalOrder := ⟨fun _ _ _ => le_trans⟩

section Growth

variable {α : Type} {r : α → α → Prop} [DecidableRel r] [Std.Total r] [IsTrans α r]

/-- Whatever is written later, and wherever the order puts it, what there was is read in the
    order in which it was read. -/
theorem insertionSort_append_sublist (l m : List α) :
    (l.insertionSort r).Sublist ((l ++ m).insertionSort r) := by
  induction l with
  | nil => exact List.nil_sublist _
  | cons a l ih =>
      rw [List.cons_append, List.insertionSort_cons, List.insertionSort_cons]
      exact ih.orderedInsert_sublist a (List.pairwise_insertionSort r _)

end Growth

theorem productionLog_sublist_savePromotionApproval (db : Database) (systemId hash : String)
    (experimentId : Option String) (approvedBy : String) (action : ApprovalAction) (now : ℕ) :
    (productionLog db systemId).Sublist (productionLog
      (db.savePromotionApproval hash experimentId approvedBy action now) systemId) := by
  unfold productionLog systemApprovals savePromotionApproval
  rw [List.filter_append]
  exact (insertionSort_append_sublist _ _).map approvalEvent

section Steps

variable {p : Platform} {db₀ db db' : Database} {systemId : String}

/-! ## Requests that leave the log alone -/

theorem mentioned_of_log (h : productionLog db' systemId = productionLog db systemId) :
    mentioned db' systemId = mentioned db systemId := by
  unfold mentioned
  rw [h]

theorem LogAgrees.preserved (h : LogAgrees db systemId) (hknown : ApprovalsKnown db)
    (hpreserves : Preserves db db') : LogAgrees db' systemId := by
  have hlog := hpreserves.log.productionLog hknown systemId
  intro hash hmem status hstatus
  rw [mentioned_of_log hlog] at hmem
  rw [stackStatus, hpreserves.log.productionHashes hknown, ← stackStatus]
  obtain ⟨old, hold⟩ := isSome_statusOf (mem_mentioned.mp hmem).2
  have hagree := h hash hmem old hold
  split_ifs at hagree ⊢ with hin
  · have hcases : InProductionStatus old := hagree ▸ stackStatus_cases db systemId hash
    have hnew := (hpreserves.statuses hash old hcases).mpr hold
    rw [hstatus] at hnew
    rw [Option.some.inj hnew, hagree]
  · intro hproduction
    have hbefore := (hpreserves.statuses hash status hproduction).mp hstatus
    rw [hold] at hbefore
    exact hagree (Option.some.inj hbefore ▸ hproduction)

theorem Repairing.preserved (h : Repairing p db₀ systemId db)
    (hnew : WellFormed p.genomeDigest db' ∧ Preserves db db') :
    Repairing p db₀ systemId db' := by
  obtain ⟨hwf', hpreserves⟩ := hnew
  have hknown := h.wellFormed.known
  have hlog := hpreserves.log.productionLog hknown systemId
  refine ⟨hwf', hlog ▸ h.grows, ?_, ?_⟩
  · rcases h.repaired with hsame | hagrees
    · exact .inl (hlog.trans hsame)
    · exact .inr (hagrees.preserved hknown hpreserves)
  · intro hash hsystem hout status hproduction hstatus
    rw [mentioned_of_log hlog] at hout
    have hbefore := (hpreserves.statuses hash status hproduction).mp hstatus
    obtain ⟨r, hr, -⟩ := Option.map_eq_some_iff.mp hbefore
    have hrow : systemOf db hash = some r.systemId := by
      rw [systemOf, hr]
      rfl
    have hsame := hpreserves.log.systemOf hrow
    rw [hsystem] at hsame
    exact h.unmentioned hash (hrow.trans hsame.symm) hout status hproduction hbefore

/-! ## Promotions and rollbacks -/

section Change

variable {hash changed approvedBy : String} {experimentId : Option String}
  {action : ApprovalAction} {now : ℕ}

/-- A change of the application repairs its column. -/
theorem logAgrees_change :
    LogAgrees (reconcileProductionStatuses
      (db.savePromotionApproval hash experimentId approvedBy action now) db.statusOf systemId)
      systemId := by
  have herase := @eraseStatus_reconcile
    (db.savePromotionApproval hash experimentId approvedBy action now) db.statusOf systemId
  intro hash' hmem status hstatus
  rw [mentioned_of_log (productionLog_congr herase systemId)] at hmem
  rw [productionHashes_congr herase, stackStatus_congr herase]
  rw [statusOf_reconcile] at hstatus
  obtain ⟨old, hold, hnew⟩ := Option.map_eq_some_iff.mp hstatus
  have hloaded : db.statusOf hash' = some old := hold
  rw [hloaded] at hnew
  split_ifs at hnew ⊢ with hin hwrong hproduction
  · exact hnew.symm
  · rw [not_not, Option.some_inj] at hwrong
    rw [← hnew, hwrong]
  · rw [← hnew]
    rintro (h | h) <;> cases h
  · intro hmember
    rw [← hnew] at hmember
    exact hproduction ⟨hmem, hmember.imp (congrArg some) (congrArg some)⟩

/-- A change of any application. -/
theorem Repairing.change (h : Repairing p db₀ systemId db)
    (hsystem : systemOf db hash = some changed) :
    Repairing p db₀ systemId (reconcileProductionStatuses
      (db.savePromotionApproval hash experimentId approvedBy action now) db.statusOf changed) := by
  have herase := @eraseStatus_reconcile
    (db.savePromotionApproval hash experimentId approvedBy action now) db.statusOf changed
  refine ⟨(Effect.of_change h.wellFormed hsystem db.statusOf experimentId approvedBy action
    now).wellFormed, ?_, ?_, ?_⟩
  · rw [productionLog_congr herase systemId]
    exact h.grows.trans (productionLog_sublist_savePromotionApproval ..)
  · by_cases hown : changed = systemId
    · subst hown
      exact .inr logAgrees_change
    · have hother : systemOf db hash ≠ some systemId := by
        rw [hsystem]
        exact fun heq => hown (Option.some.inj heq)
      have hlog : productionLog (reconcileProductionStatuses
          (db.savePromotionApproval hash experimentId approvedBy action now) db.statusOf changed)
          systemId = productionLog db systemId :=
        (productionLog_congr herase systemId).trans
          (productionLog_savePromotionApproval_of_ne hother)
      refine h.repaired.imp hlog.trans fun hagrees hash' hmem status hstatus => ?_
      rw [mentioned_of_log hlog] at hmem
      have hforeign : systemOf (db.savePromotionApproval hash experimentId approvedBy action now)
          hash' ≠ some changed := by
        rw [systemOf_savePromotionApproval, (mem_mentioned.mp hmem).2]
        exact fun heq => hown (Option.some.inj heq).symm
      rw [statusOf_reconcile_of_ne hforeign] at hstatus
      rw [stackStatus, productionHashes_eq, hlog, ← productionHashes_eq, ← stackStatus]
      exact hagrees hash' hmem status hstatus
  · intro hash' hown hout status hproduction hstatus
    rw [systemOf_congr herase] at hown
    rw [mentioned_of_log (productionLog_congr herase systemId)] at hout
    refine h.unmentioned hash' hown (fun hmem => hout (mentioned_savePromotionApproval hmem))
      status hproduction ?_
    -- the reconciliation writes to the genomes that the log mentions only
    have hnot : hash' ∉ mentioned
        (db.savePromotionApproval hash experimentId approvedBy action now) changed := by
      intro hmem
      have hsame := (mem_mentioned.mp hmem).2
      rw [hown] at hsame
      exact hout (Option.some.inj hsame ▸ hmem)
    have hfree : hash' ∉ productionHashes
        (db.savePromotionApproval hash experimentId approvedBy action now) changed :=
      fun hmem => hnot (mentioned_of_mem_productionHashes hmem)
    rw [statusOf_reconcile] at hstatus
    simp only [hfree, hnot, false_and, if_false, Option.map_id'] at hstatus
    exact hstatus

end Change

theorem Repairing.served (h : Repairing p db₀ systemId db) {now : ℕ} {request : Request}
    (hserved : Served p db now request db') (hposs : Possible db request) :
    Repairing p db₀ systemId db' := by
  by_cases hchange : request.IsProductionChange
  · cases hserved with
    | promoted hrow => exact h.change (systemOf_of_row hrow)
    | rolledBack hcurrent => exact h.change (systemOf_champion hcurrent)
    | unchanged => exact h
    | _ => exact absurd hchange id
  · exact h.preserved (hserved.preserves h.wellFormed hposs hchange)

/-- Any history of requests. -/
theorem repairing_of_run (hwf : WellFormed p.genomeDigest db₀) {history : List Timed}
    (h : run (serialStep p) db₀ history = some db) : Repairing p db₀ systemId db := by
  refine run_invariant (fun s t s' hs hstep => ?_)
    ⟨hwf, List.Sublist.refl _, .inl rfl, fun _ _ _ _ _ hstatus => hstatus⟩ h
  obtain ⟨hposs, hserved⟩ := serialStep_did hstep
  exact hs.served hserved hposs

end Steps

/-- **The column repairs itself.** Take a database whose rows and log are sound and whose
    status column is anything at all, and any history of requests from there. The log of an
    application never loses an event. Once it has grown, each genome it mentions has the
    status the log gives it (the champion PROMOTED, the genomes under it SUPERSEDED, those
    taken out neither), and has it after whatever requests come later. Where the log mentions
    a genome not at all, it has such a status only if it had it at first. -/
theorem column_repairs_itself (p : Platform) (db₀ : Database)
    (hwf : WellFormed p.genomeDigest db₀) (history : List Timed) (db : Database)
    (h : run (serialStep p) db₀ history = some db) (systemId : String) :
    (productionLog db₀ systemId).Sublist (productionLog db systemId) ∧
      (productionLog db systemId ≠ productionLog db₀ systemId →
        LogAgrees db systemId ∧
          ∀ later db', run (serialStep p) db later = some db' → LogAgrees db' systemId) ∧
      ∀ hash, systemOf db hash = some systemId → hash ∉ mentioned db systemId →
        ∀ status, InProductionStatus status → db.statusOf hash = some status →
          db₀.statusOf hash = some status := by
  have hend : Repairing p db₀ systemId db := repairing_of_run hwf h
  refine ⟨hend.grows, fun hgrown => ⟨hend.repaired.resolve_left hgrown, ?_⟩, hend.unmentioned⟩
  intro later db' hlater
  have hrest : (productionLog db systemId).Sublist (productionLog db' systemId) :=
    (repairing_of_run hend.wellFormed hlater).grows
  have hwhole : run (serialStep p) db₀ (history ++ later) = some db' := by
    rw [run_append, h]
    exact hlater
  -- a log that has grown is longer for ever
  refine (repairing_of_run hwf hwhole).repaired.resolve_left fun hsame => hgrown ?_
  rw [hsame] at hrest
  exact hrest.antisymm hend.grows

/-- The column says nothing is in production. -/
def misled (db : Database) : Database :=
  (db.setGenomeStatus "app-45" .canary).setGenomeStatus "app-40" .approved

/-- The rollback of the second sets the first right. -/
theorem column_repairs_itself_rollback : ∃ db₀ db : Database,
    db₀.statusOf "app-40" = some .approved ∧
      run (serialStep examplePlatform) db₀ [⟨11, .rollbackPromotion "app" "admin"⟩] = some db ∧
      db.statusOf "app-40" = some .promoted ∧ LogAgrees db "app" ∧
      ∀ later db', run (serialStep examplePlatform) db later = some db' →
        LogAgrees db' "app" := by
  have hrun : ((run (serialStep examplePlatform) {} promotedOver).bind fun db₀ =>
      (run (serialStep examplePlatform) (misled db₀)
        [⟨11, .rollbackPromotion "app" "admin"⟩]).map fun db =>
          ((misled db₀).statusOf "app-40", db.statusOf "app-40",
            decide (productionLog db "app" ≠ productionLog (misled db₀) "app"))) =
      some (some .approved, some .promoted, true) := by
    decide +kernel
  obtain ⟨start, hstart, hrun⟩ := Option.bind_eq_some_iff.mp hrun
  obtain ⟨db, hdb, hread⟩ := Option.map_eq_some_iff.mp hrun
  obtain ⟨hwrong, hread⟩ := Prod.mk.inj hread
  obtain ⟨hright, hgrown⟩ := Prod.mk.inj hread
  have herase : (misled start).eraseStatus = start.eraseStatus := by
    unfold misled
    rw [eraseStatus_setGenomeStatus, eraseStatus_setGenomeStatus]
  have hwf := (sound_of_history hstart).wellFormed.of_eraseStatus herase
  exact ⟨misled start, db, hwrong, hdb, hright,
    (column_repairs_itself examplePlatform _ hwf _ db hdb "app").2.1
      (of_decide_eq_true hgrown)⟩

end NeuroForge
