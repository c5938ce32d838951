/-
  The status column when reviews and canaries race with production changes.

  A review or a canary reads its genome's status in one step and writes in another, without
  the production lock. A write is stale when its genome is in the production stack at the
  commit (`StaleWrite`): the status it was computed from is then not the genome's. As long
  as no write is stale every step keeps the column and the log in agreement, and what a
  production change has loaded of the statuses of its application stays current. A stale
  write breaks the agreement at once, hence `production_statuses_iff`.
-/
import NeuroForge.Service.Coherent

namespace NeuroForge

open Fallible Database Interleaving

variable {p : Platform} {n : ℕ}

/-- The commit of a review or a canary writes a status onto a member of the stack. -/
def Phase.Stale (p : Platform) (db : Database) (phase : Phase) (a : Action) : Prop :=
  match phase, a with
  | .reviewing input (.settled evidence _), .commit _ | .inserted input evidence, .commit _ =>
      reviewStatus input.candidate.status (input.decision evidence) ≠ none ∧
        input.genomeHash ∈ productionHashes db input.candidate.systemId
  | .canarying input, .commit _ =>
      canaryStatus input.candidate.status input.rollbackTriggered ≠ none ∧
        input.candidate.hash p.genomeDigest ∈ productionHashes db input.candidate.systemId
  | _, _ => False

def StaleWrite (p : Platform) (s : Clients n) (a : Fin n × Action) : Prop :=
  (s.phase a.1).Stale p s.shared.db a.2

/-- The champion is PROMOTED, every other member of a stack SUPERSEDED. -/
def ProductionStatuses (db : Database) : Prop :=
  ∀ systemId, ∀ r ∈ productionStack db systemId,
    r.status = if currentChampion db systemId = some r then .promoted else .superseded

section Statuses

variable {db : Database}

/-- The status of a member of the stack is that of its row. -/
theorem statusOf_of_mem_stack {systemId : String} {r : GenomeRecord}
    (h : r ∈ productionStack db systemId) : db.statusOf r.hash = some r.status := by
  obtain ⟨hget, -⟩ := getGenomeRecord_of_mem_stack h
  rw [statusOf, hget]
  rfl

theorem productionStatuses_iff : ProductionStatuses db ↔
    ∀ systemId, ∀ hash ∈ productionHashes db systemId,
      db.statusOf hash = some (stackStatus db systemId hash) := by
  have hsame : ∀ systemId, ∀ r ∈ productionStack db systemId,
      (if currentChampion db systemId = some r then PromotionStatus.promoted else .superseded) =
        stackStatus db systemId r.hash := by
    intro systemId r hr
    have hiff : currentChampion db systemId = some r ↔
        (productionHashes db systemId).getLast? = some r.hash := by
      rw [getLast?_productionHashes, Option.map_eq_some_iff]
      constructor
      · intro h
        exact ⟨r, h, rfl⟩
      · rintro ⟨c, hc, hhash⟩
        have hcmem : c ∈ productionStack db systemId := List.mem_of_getLast? hc
        rw [hc, List.inj_on_of_nodup_map (productionHashes_nodup systemId) hcmem hr hhash]
    unfold stackStatus
    simp only [hiff]
  constructor
  · intro h systemId hash hhash
    obtain ⟨r, hr, rfl⟩ := List.mem_map.mp hhash
    rw [statusOf_of_mem_stack hr, h systemId r hr, hsame systemId r hr]
  · intro h systemId r hr
    have hstatus := h systemId r.hash (List.mem_map_of_mem hr)
    rw [statusOf_of_mem_stack hr] at hstatus
    rw [Option.some.inj hstatus, hsame systemId r hr]

theorem StatusesAgree.productionStatuses (h : StatusesAgree db) : ProductionStatuses db := by
  rw [productionStatuses_iff]
  intro systemId hash hhash
  have hsys := systemOf_of_mem_productionHashes hhash
  obtain ⟨status, hstatus⟩ := isSome_statusOf hsys
  have hagree := h systemId hash status hsys hstatus
  rw [if_pos hhash] at hagree
  rw [hstatus, hagree]

/-- A genome outside the stack of its application has no member's status. -/
theorem StatusesAgree.outside (h : StatusesAgree db) {systemId hash : String}
    (hsys : systemOf db hash = some systemId) (hout : hash ∉ productionHashes db systemId)
    {status : PromotionStatus} (hstatus : db.statusOf hash = some status) :
    status ≠ .promoted ∧ status ≠ .superseded := by
  have hagree := h systemId hash status hsys hstatus
  rw [if_neg hout] at hagree
  exact hagree

/-! ## What a production change has loaded -/

/-- What is known of a status that was loaded for a genome: that of a member of the stack
    is current, and that of no other genome of the application is a member's. -/
structure LoadedStatus (db : Database) (systemId hash : String)
    (loaded : Option PromotionStatus) : Prop where
  member : hash ∈ productionHashes db systemId → loaded = db.statusOf hash
  other : hash ∉ productionHashes db systemId →
    (∀ systemId', systemOf db hash = some systemId' → systemId' = systemId) →
    loaded ≠ some .promoted ∧ loaded ≠ some .superseded

theorem StatusesAgree.loadedStatus (h : StatusesAgree db) (systemId hash : String) :
    LoadedStatus db systemId hash (db.statusOf hash) := by
  refine ⟨fun _ => rfl, fun hout hsame => ?_⟩
  rcases hstatus : db.statusOf hash with _ | status
  · exact ⟨by simp, by simp⟩
  · obtain ⟨r, hr, -⟩ := Option.map_eq_some_iff.mp hstatus
    have hsys : systemOf db hash = some r.systemId := by
      rw [systemOf, hr]
      rfl
    rw [← hsame _ hsys] at hout
    obtain ⟨hp, hsup⟩ := h.outside hsys hout hstatus
    exact ⟨fun heq => hp (Option.some.inj heq), fun heq => hsup (Option.some.inj heq)⟩

theorem loaded_of_loadedStatus {systemId : String} {loaded : String → Option PromotionStatus}
    (h : ∀ hash, LoadedStatus db systemId hash (loaded hash)) : Loaded db systemId loaded where
  stack := fun hash hmem => (h hash).member hmem
  other := by
    intro hash hout hsys
    refine (h hash).other hout fun systemId' hsys' => ?_
    rw [hsys] at hsys'
    exact (Option.some.inj hsys').symm

theorem LoadedStatus.kept {db' : Database} {systemId hash : String}
    {loaded : Option PromotionStatus} (h : LoadedStatus db systemId hash loaded)
    (hrows : ∀ hash systemId, systemOf db hash = some systemId →
      systemOf db' hash = some systemId)
    (hstack : productionHashes db' systemId = productionHashes db systemId)
    (hmembers : ∀ hash ∈ productionHashes db systemId, db'.statusOf hash = db.statusOf hash) :
    LoadedStatus db' systemId hash loaded where
  member := by
    intro hmem
    rw [hstack] at hmem
    rw [hmembers hash hmem]
    exact h.member hmem
  other := by
    intro hout hsame
    rw [hstack] at hout
    exact h.other hout fun systemId' hsys => hsame systemId' (hrows hash systemId' hsys)

end Statuses

/-- What a production change has loaded of the statuses of its application. -/
def Phase.Current (db : Database) : Phase → Prop
  | .promoting txn (.ready _ _ loaded) =>
      ∀ hash, LoadedStatus db txn.genome.systemId hash (loaded hash)
  | .promoting txn _ =>
      LoadedStatus db txn.genome.systemId txn.genome.hash (some txn.genome.status)
  | .rollingBack systemId _ _ loaded => ∀ hash, LoadedStatus db systemId hash (loaded hash)
  | _ => True

/-! ## One step -/

section Step

variable {s : Clients n} {phase phase' : Phase} {a : Action} {shared' : Service}

/-- A review whose write is not stale. -/
theorem preserves_conclude_of_fresh {db stored : Database} (hagree : StatusesAgree db)
    {input : ReviewInput} (hfits : ReviewFits p db input) {evidence : HoldoutEvidence}
    (hgenomes : stored.genomes = db.genomes) (happrovals : stored.approvals = db.approvals)
    (hfresh : ¬ (reviewStatus input.candidate.status (input.decision evidence) ≠ none ∧
      input.genomeHash ∈ productionHashes db input.candidate.systemId)) (now : ℕ) :
    Preserves db (conclude stored input evidence now) := by
  have hstored : Preserves db stored := Preserves.of_eq hgenomes happrovals
  refine hstored.trans (preserves_savePromotionDecision_of_outside (fun hwrite old hold => ?_)
    (nextStatus_decision input evidence))
  have hout : input.genomeHash ∉ productionHashes db input.candidate.systemId := fun hmem =>
    hfresh ⟨hwrite, hmem⟩
  rw [statusOf, getGenomeRecord, hgenomes] at hold
  exact hagree.outside hfits.row hout hold

/-- A step whose write is not stale preserves the log and the production statuses, or it is
    a production change that knows the statuses of its application. -/
theorem Move.statuses (hwf : WellFormed p.genomeDigest s.shared.db)
    (hagree : StatusesAgree s.shared.db) (hfits : phase.Fits p s.shared.db)
    (hcurrent : phase.Current s.shared.db) (hfresh : ¬ phase.Stale p s.shared.db a)
    (h : Move p s phase a shared' phase') :
    Preserves s.shared.db shared'.db ∨
      ∃ hash systemId loaded experimentId approvedBy action now,
        phase.lockedSystem = some systemId ∧ systemOf s.shared.db hash = some systemId ∧
        (∀ hash, LoadedStatus s.shared.db systemId hash (loaded hash)) ∧
        shared'.db = reconcileProductionStatuses
          (s.shared.db.savePromotionApproval hash experimentId approvedBy action now) loaded
          systemId := by
  cases h with
  | create hcreate => exact .inl (createExperiment_ok hwf hcreate).2
  | saveDataset => exact .inl (Preserves.of_eq (genomes_saveDatasetVersion _)
      (approvals_saveDatasetVersion _))
  | failedStart hload => exact .inl (preserves_markExperiment _ _ _)
  | startRun hload hstart => exact .inl (preserves_markExperiment _ _ _)
  | failedRun => exact .inl (preserves_markExperiment _ _ _)
  | endRun hresult => exact .inl (finishRun_ok hwf hfits hresult).2
  | commitSettled => exact .inl (preserves_conclude_of_fresh hagree hfits rfl rfl hfresh _)
  | @commitInserted input evidence stored now hstored =>
      obtain ⟨-, hdb⟩ := saveHoldoutEvaluation_ok hstored
      exact .inl (preserves_conclude_of_fresh hagree hfits (by rw [hdb]) (by rw [hdb]) hfresh now)
  | @commitCanary input now =>
      refine .inl (preserves_saveCanaryResult_of_outside fun hwrite old hold => ?_)
      have hout : input.candidate.hash p.genomeDigest ∉
          productionHashes s.shared.db input.candidate.systemId := fun hmem =>
        hfresh ⟨hwrite, hmem⟩
      exact hagree.outside hfits hout hold
  | commitPromotion => exact .inr ⟨_, _, _, _, _, _, _, rfl, hfits, hcurrent, rfl⟩
  | commitRollback => exact .inr ⟨_, _, _, _, _, _, _, rfl, hfits, hcurrent, rfl⟩
  | _ => exact .inl (Preserves.refl _)

theorem Move.agree (hwf : WellFormed p.genomeDigest s.shared.db)
    (hagree : StatusesAgree s.shared.db) (hfits : phase.Fits p s.shared.db)
    (hcurrent : phase.Current s.shared.db) (hfresh : ¬ phase.Stale p s.shared.db a)
    (h : Move p s phase a shared' phase') : StatusesAgree shared'.db := by
  rcases h.statuses hwf hagree hfits hcurrent hfresh with hpreserves |
    ⟨hash, systemId, loaded, experimentId, approvedBy, action, now, -, hsys, hloaded, hdb⟩
  · exact hagree.preserved hwf.known hpreserves
  · rw [hdb]
    exact hagree.change hsys (loaded_of_loadedStatus hloaded)

/-- The members of a stack keep their statuses unless the holder of its lock acts. -/
theorem Move.members (hwf : WellFormed p.genomeDigest s.shared.db)
    (hagree : StatusesAgree s.shared.db) (hfits : phase.Fits p s.shared.db)
    (hcurrent : phase.Current s.shared.db) (hfresh : ¬ phase.Stale p s.shared.db a)
    (h : Move p s phase a shared' phase') {systemId : String}
    (hlock : phase.lockedSystem ≠ some systemId) :
    ∀ hash ∈ productionHashes s.shared.db systemId,
      shared'.db.statusOf hash = s.shared.db.statusOf hash := by
  intro hash hmem
  have hsys := systemOf_of_mem_productionHashes hmem
  rcases h.statuses hwf hagree hfits hcurrent hfresh with hpreserves |
    ⟨hash', systemId', loaded, experimentId, approvedBy, action, now, hlocked, -, -, hdb⟩
  · obtain ⟨status, hstatus⟩ := isSome_statusOf hsys
    have hmember := hagree systemId hash status hsys hstatus
    rw [if_pos hmem] at hmember
    have hcases := stackStatus_cases s.shared.db systemId hash
    rw [← hmember] at hcases
    rw [hstatus]
    exact (hpreserves.statuses hash status hcases).mpr hstatus
  · have hne : systemOf (s.shared.db.savePromotionApproval hash' experimentId approvedBy action
        now) hash ≠ some systemId' := by
      rw [systemOf_savePromotionApproval, hsys]
      intro heq
      exact hlock (hlocked.trans heq.symm)
    rw [hdb, statusOf_reconcile_of_ne hne]
    rfl

/-- What a production change has loaded when it enters a phase. -/
theorem Move.current (hagree : StatusesAgree s.shared.db) (hcurrent : phase.Current s.shared.db)
    (h : Move p s phase a shared' phase') : phase'.Current shared'.db := by
  have hfresh : ∀ systemId hash, LoadedStatus s.shared.db systemId hash
      (s.shared.db.statusOf hash) := fun systemId hash => hagree.loadedStatus systemId hash
  have hreload : ∀ {systemId : String} {loaded : String → Option PromotionStatus}
      {hash' : String}, (∀ hash, LoadedStatus s.shared.db systemId hash (loaded hash)) →
      ∀ hash, LoadedStatus s.shared.db systemId hash
        (reloadStatus s.shared.db loaded hash' hash) := by
    intro systemId loaded hash' hloaded hash
    unfold reloadStatus
    split_ifs
    · exact hfresh systemId hash
    · exact hloaded hash
  cases h with
  | @promote genomeHash experimentId approvedBy genome hgenome hstatus hunlocked =>
      have hrow := loadGenome_ok hgenome
      rw [← hash_of_getGenomeRecord hrow] at hrow
      have hloaded : s.shared.db.statusOf genome.hash = some genome.status := by
        rw [statusOf, hrow]
        rfl
      show LoadedStatus s.shared.db genome.systemId genome.hash (some genome.status)
      rw [← hloaded]
      exact hfresh _ _
  | @check txn stage stage' hcheck =>
      cases stage with
      | locked =>
          obtain ⟨decision, -, rfl⟩ := Option.map_eq_some_iff.mp hcheck
          exact hcurrent
      | approved decision =>
          obtain ⟨-, -, rfl⟩ := Option.map_eq_some_iff.mp hcheck
          exact hcurrent
      | canaried decision =>
          obtain rfl := Option.some.inj hcheck
          exact hcurrent
      | validated decision latest against =>
          obtain ⟨-, -, rfl⟩ := Option.map_eq_some_iff.mp hcheck
          intro hash
          show LoadedStatus s.shared.db txn.genome.systemId hash
            (if hash = txn.genome.hash then some txn.genome.status
              else s.shared.db.statusOf hash)
          split_ifs with hhash
          · rw [hhash]
            exact hcurrent
          · exact hfresh _ _
      | ready decision latest loaded => cases hcheck
  | reloadPromotion => exact hreload hcurrent
  | rollback hcurrent' hunlocked => exact hfresh _
  | reloadRollback => exact hreload hcurrent
  | _ => trivial

/-- What another production change has loaded stays current. -/
theorem Phase.Current.kept {other : Phase} (hother : other.Current s.shared.db)
    (hapart : phase.Apart other)
    (heffect : Effect p phase.lockedSystem s.shared.db shared'.db)
    (hmembers : ∀ systemId, phase.lockedSystem ≠ some systemId →
      ∀ hash ∈ productionHashes s.shared.db systemId,
        shared'.db.statusOf hash = s.shared.db.statusOf hash) : other.Current shared'.db := by
  have hkept : ∀ systemId, other.lockedSystem = some systemId → ∀ hash loaded,
      LoadedStatus s.shared.db systemId hash loaded →
      LoadedStatus shared'.db systemId hash loaded := by
    intro systemId hlocked hash loaded hloaded
    have hlock : phase.lockedSystem ≠ some systemId := fun hlock =>
      hapart.locks systemId hlock hlocked
    exact hloaded.kept heffect.rows (heffect.production systemId hlock).stack
      (hmembers systemId hlock)
  unfold Phase.Current at hother ⊢
  split at hother
  · exact fun hash => hkept _ rfl hash _ (hother hash)
  · exact hkept _ rfl _ _ hother
  · exact fun hash => hkept _ rfl hash _ (hother hash)
  · trivial

/-- A member of a stack without a member's status. -/
theorem not_productionStatuses {db : Database} {systemId hash : String}
    {status : PromotionStatus} (hmem : hash ∈ productionHashes db systemId)
    (hstatus : db.statusOf hash = some status)
    (hout : status ≠ .promoted ∧ status ≠ .superseded) : ¬ ProductionStatuses db := by
  rw [productionStatuses_iff]
  intro h
  have hmember := h systemId hash hmem
  rw [hstatus] at hmember
  rcases stackStatus_cases db systemId hash with hcase | hcase
  · exact hout.1 ((Option.some.inj hmember).trans hcase)
  · exact hout.2 ((Option.some.inj hmember).trans hcase)

/-- The status a written genome has. -/
theorem statusOf_writeStatus_self {db : Database} {hash systemId : String}
    (hsys : systemOf db hash = some systemId) {write : Option PromotionStatus}
    {status : PromotionStatus} (hwrite : write = some status) :
    (db.writeStatus hash write).statusOf hash = some status := by
  obtain ⟨old, hold⟩ := isSome_statusOf hsys
  rw [statusOf_writeStatus, hold, hwrite]
  simp

/-- The write of a review onto a member of a stack. -/
theorem conclude_breaks {db : Database} {input : ReviewInput} {evidence : HoldoutEvidence}
    {now : ℕ} {systemId : String} (hsys : systemOf db input.genomeHash = some systemId)
    (hwrite : reviewStatus input.candidate.status (input.decision evidence) ≠ none)
    (hmem : input.genomeHash ∈ productionHashes (conclude db input evidence now) systemId) :
    ¬ ProductionStatuses (conclude db input evidence now) := by
  obtain ⟨status, hstatus⟩ := Option.ne_none_iff_exists'.mp hwrite
  have hsys' : systemOf (db.addDecision input.genomeHash (some input.experimentId)
      (input.decision evidence) now) input.genomeHash = some systemId := hsys
  refine not_productionStatuses hmem (statusOf_writeStatus_self hsys' hstatus) ?_
  rw [(reviewStatus_eq_some hstatus).1]
  exact nextStatus_decision input evidence

/-- A stale write takes a member's status away. -/
theorem Move.breaks (hfits : phase.Fits p s.shared.db)
    (heffect : Effect p phase.lockedSystem s.shared.db shared'.db)
    (hstale : phase.Stale p s.shared.db a) (h : Move p s phase a shared' phase') :
    ¬ ProductionStatuses shared'.db := by
  cases h with
  | @commitSettled input evidence reused now =>
      obtain ⟨hwrite, hmem⟩ := hstale
      rw [← (heffect.production input.candidate.systemId (by simp [Phase.lockedSystem])).stack]
        at hmem
      exact conclude_breaks (ReviewFits.row hfits) hwrite hmem
  | @commitInserted input evidence stored now hstored =>
      obtain ⟨hwrite, hmem⟩ := hstale
      rw [← (heffect.production input.candidate.systemId (by simp [Phase.lockedSystem])).stack]
        at hmem
      obtain ⟨-, rfl⟩ := saveHoldoutEvaluation_ok hstored
      have hrow : systemOf s.shared.db input.genomeHash = some input.candidate.systemId :=
        ReviewFits.row hfits
      exact conclude_breaks hrow hwrite hmem
  | @commitCanary input now =>
      obtain ⟨hwrite, hmem⟩ := hstale
      rw [← (heffect.production input.candidate.systemId (by simp [Phase.lockedSystem])).stack]
        at hmem
      obtain ⟨status, hstatus⟩ := Option.ne_none_iff_exists'.mp hwrite
      have hsys : systemOf (s.shared.db.addCanary (input.candidate.hash p.genomeDigest)
          (input.baseline.hash p.genomeDigest) input.trafficSplit input.rollbackTriggered now)
          (input.candidate.hash p.genomeDigest) = some input.candidate.systemId := hfits
      exact not_productionStatuses hmem (statusOf_writeStatus_self hsys hstatus)
        (canaryStatus_eq_some hstatus).1
  | abort =>
      unfold Phase.Stale at hstale
      split at hstale <;> simp_all
  | _ => cases hstale

end Step

/-! ## All runs -/

/-- The column and the log agree, and production changes know the statuses they compare. -/
structure InStep (p : Platform) (s : Clients n) : Prop where
  coherent : Coherent p s
  statuses : Holds (fun shared : Service => StatusesAgree shared.db)
    (fun shared phase => Phase.Current shared.db phase) (fun _ _ => True) s

theorem inStep_start (p : Platform) (n : ℕ) : InStep p (Clients.start n) where
  coherent := coherent_start p n
  statuses := by
    refine ⟨?_, fun _ => trivial, fun _ _ _ => trivial⟩
    intro systemId hash status hsys
    cases hsys

theorem InStep.step {s s' : Clients n} {a : Fin n × Action} (h : InStep p s)
    (hfresh : ¬ StaleWrite p s a) (hstep : concurrentStep p s a = some s') : InStep p s' := by
  obtain ⟨hcoherent, hstatuses⟩ := h
  refine ⟨hcoherent.step hstep, Holds.step (fun _ _ _ => trivial) hstatuses hstep
    (fun r hr => ?_) (fun r hr j hj => ?_)⟩
  · obtain ⟨hmove, -⟩ := hcoherent.move hr
    exact ⟨hmove.agree hcoherent.shared hstatuses.shared (hcoherent.own a.1)
      (hstatuses.own a.1) hfresh, hmove.current hstatuses.shared (hstatuses.own a.1),
      fun _ _ => trivial⟩
  · obtain ⟨hmove, heffect⟩ := hcoherent.move hr
    exact (hstatuses.own j).kept (hcoherent.apart a.1 j (Ne.symm hj)) heffect fun _ hlock =>
      hmove.members hcoherent.shared hstatuses.shared (hcoherent.own a.1) (hstatuses.own a.1)
        hfresh hlock

/-- **Production statuses survive until a stale write.** In a run of any number of clients,
    the champion of every application is PROMOTED and every other member of its stack
    SUPERSEDED in all states, once all transactions have committed as well as in between,
    exactly when no review and no canary commits a status onto a genome that is in the
    stack at that moment. -/
theorem production_statuses_iff (p : Platform) (n : ℕ) (actions : List (Fin n × Action))
    (s : Clients n)
    (hrun : Transition.run (concurrentStep p) (Clients.start n) actions = some s) :
    (∀ before, before <+: actions → ∀ t,
      Transition.run (concurrentStep p) (Clients.start n) before = some t →
        ProductionStatuses t.shared.db) ↔
      Transition.Guarded (concurrentStep p) (fun t a => ¬ StaleWrite p t a) (Clients.start n)
        actions := by
  refine Transition.guarded_iff (fun t ht => ?_) (fun t a t' ht hfresh hstep => ?_)
    (fun t a t' ht hstep hgood => ?_) (inStep_start p n) hrun
  · exact ht.statuses.shared.productionStatuses
  · exact ht.step hfresh hstep
  · intro hstale
    obtain ⟨r, hr, rfl⟩ := step_eq_some.mp hstep
    obtain ⟨hmove, heffect⟩ := ht.coherent.move hr
    exact hmove.breaks (ht.coherent.own a.1) heffect hstale hgood

section Example

def Phase.isIdle : Phase → Bool
  | .idle => true
  | _ => false

theorem Phase.eq_idle {phase : Phase} (h : phase.isIdle = true) : phase = .idle := by
  cases phase with
  | idle => rfl
  | _ => cases h

/-- A second review of a genome, under a stricter experiment, has read its status when the
    genome is promoted, and commits its rejection afterwards. -/
def rejectedChampion : List (Fin 2 × Action) :=
  [(c₀, .create (exampleBody exp1 "champion" 1 usualFloor)),
    (c₀, .startRun "exp-1" none),
    (c₀, .endRun (.ok (exampleResult exampleOriginal exampleBetter))),
    (c₀, .create (exampleBody exp2 "champion" 2 highFloor)),
    (c₀, .startRun "exp-2" none),
    (c₀, .endRun (.ok (exampleResult exampleOriginal exampleBetter))),
    (c₀, .review "exp-1" "app-40"), (c₀, .insert), (c₀, .commit 7),
    (c₀, .canary ⟨"app-5", "app-40", "app-dataset", .ok (1 / 10, false)⟩), (c₀, .commit 8),
    (c₁, .review "exp-2" "app-40"), (c₁, .advance),
    (c₀, .promote "app-40" (some "exp-1") "admin"), (c₀, .check), (c₀, .check), (c₀, .check),
    (c₀, .check), (c₀, .commit 9), (c₁, .commit 10)]

/-- When everybody has committed the champion is REJECTED. -/
theorem champion_rejected : ∃ s,
    Transition.run (concurrentStep examplePlatform) (Clients.start 2) rejectedChampion =
      some s ∧ (∀ i, s.phase i = .idle) ∧ ¬ ProductionStatuses s.shared.db := by
  have hrun : ((Transition.run (concurrentStep examplePlatform) (Clients.start 2)
      rejectedChampion).map fun s => (decide (∀ i, (s.phase i).isIdle = true),
        productionHashes s.shared.db "app", s.shared.db.statusOf "app-40")) =
      some (true, ["app-40"], some .rejected) := by
    decide +kernel
  obtain ⟨s, hs, hvalues⟩ := Option.map_eq_some_iff.mp hrun
  simp only [Prod.mk.injEq] at hvalues
  obtain ⟨hidle, hstack, hstatus⟩ := hvalues
  have hmem : "app-40" ∈ productionHashes s.shared.db "app" := by
    rw [hstack]
    exact List.mem_singleton_self _
  exact ⟨s, hs, fun i => Phase.eq_idle (of_decide_eq_true hidle i),
    not_productionStatuses hmem hstatus ⟨by decide, by decide⟩⟩

theorem production_statuses_fails : ¬ ∀ (p : Platform) (n : ℕ)
    (actions : List (Fin n × Action)) (s : Clients n),
    Transition.run (concurrentStep p) (Clients.start n) actions = some s →
    (∀ i, s.phase i = .idle) → ProductionStatuses s.shared.db := by
  intro hall
  obtain ⟨s, hs, hidle, hrejected⟩ := champion_rejected
  exact hrejected (hall examplePlatform 2 rejectedChampion s hs hidle)

/-- That commit was a stale write. -/
theorem production_statuses_iff_rejected : ∃ s,
    Transition.run (concurrentStep examplePlatform) (Clients.start 2) rejectedChampion =
      some s ∧ ¬ ProductionStatuses s.shared.db ∧
    ¬ Transition.Guarded (concurrentStep examplePlatform)
      (fun t a => ¬ StaleWrite examplePlatform t a) (Clients.start 2) rejectedChampion := by
  obtain ⟨s, hs, -, hrejected⟩ := champion_rejected
  refine ⟨s, hs, hrejected, fun hguarded => ?_⟩
  exact hrejected ((production_statuses_iff examplePlatform 2 rejectedChampion s hs).mpr hguarded
    rejectedChampion List.prefix_rfl s hs)

end Example

end NeuroForge
