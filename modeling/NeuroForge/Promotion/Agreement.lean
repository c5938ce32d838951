/-
  The status column agrees with the approval log.

  `StatusesAgree` is the agreement. Writes that are no production change preserve it since
  they give no genome the status of a stack member and take it from none (`Preserves`); a
  production change preserves it since it reconciles (`StatusesAgree.change`).
-/
import NeuroForge.Promotion.StatusColumn

namespace NeuroForge

open Database

section Agreement

variable {db : Database}

theorem mem_mentioned {systemId hash : String} :
    hash ∈ mentioned db systemId ↔
      hash ∈ db.approvals.map (·.genomeHash) ∧ systemOf db hash = some systemId := by
  rw [mentioned_eq, List.mem_map, List.mem_map]
  constructor
  · rintro ⟨event, hevent, rfl⟩
    obtain ⟨happ, hget, hsys⟩ := mem_listProductionEvents.mp hevent
    have hhash := hash_of_getGenomeRecord hget
    refine ⟨⟨event.1, happ, hhash.symm⟩, ?_⟩
    unfold systemOf
    rw [hhash, hget, ← hsys]
    rfl
  · rintro ⟨⟨a, ha, rfl⟩, hsys⟩
    obtain ⟨g, hg, hgsys⟩ := Option.map_eq_some_iff.mp hsys
    exact ⟨(a, g), mem_listProductionEvents.mpr ⟨ha, hg, hgsys⟩, hash_of_getGenomeRecord hg⟩

/-- A member of the stack has been promoted. -/
theorem mentioned_of_mem_productionHashes {systemId hash : String}
    (h : hash ∈ productionHashes db systemId) : hash ∈ mentioned db systemId := by
  rw [productionHashes_eq] at h
  exact List.mem_map_of_mem (f := StackReplay.Event.subject) (StackReplay.push_of_mem_replay h)

/-- Every status agrees with the approval log: a member of an application's stack has the
    status of its place, and no other genome has the status of a member. -/
def StatusesAgree (db : Database) : Prop :=
  ∀ systemId hash status, systemOf db hash = some systemId → db.statusOf hash = some status →
    if hash ∈ productionHashes db systemId then status = stackStatus db systemId hash
    else status ≠ .promoted ∧ status ≠ .superseded

theorem isSome_statusOf {systemId hash : String} (h : systemOf db hash = some systemId) :
    ∃ status, db.statusOf hash = some status := by
  obtain ⟨g, hg, -⟩ := Option.map_eq_some_iff.mp h
  exact ⟨g.status, by rw [statusOf, hg]; rfl⟩

theorem StatusesAgree.promoted_iff (h : StatusesAgree db) {systemId hash : String}
    (hsys : systemOf db hash = some systemId) :
    db.statusOf hash = some .promoted ↔ (productionHashes db systemId).getLast? = some hash := by
  obtain ⟨status, hstatus⟩ := isSome_statusOf hsys
  have hagree := h systemId hash status hsys hstatus
  rw [hstatus, Option.some_inj]
  split_ifs at hagree with hmem
  · rw [hagree, stackStatus]
    split_ifs with hlast <;> simp [hlast]
  · have hnot : (productionHashes db systemId).getLast? ≠ some hash := fun hlast =>
      hmem (List.mem_of_getLast? hlast)
    simp [hagree.1, hnot]

theorem StatusesAgree.superseded_iff (h : StatusesAgree db) {systemId hash : String}
    (hsys : systemOf db hash = some systemId) :
    db.statusOf hash = some .superseded ↔ hash ∈ productionHashes db systemId ∧
      (productionHashes db systemId).getLast? ≠ some hash := by
  obtain ⟨status, hstatus⟩ := isSome_statusOf hsys
  have hagree := h systemId hash status hsys hstatus
  rw [hstatus, Option.some_inj]
  split_ifs at hagree with hmem
  · rw [hagree, stackStatus]
    split_ifs with hlast <;> simp [hmem, hlast]
  · simp [hagree.2, hmem]

/-- The log is that of the approvals, while their genomes keep their rows. -/
theorem productionLog_of_rows {db' : Database} (happ : db'.approvals = db.approvals)
    (hsys : ∀ a ∈ db.approvals, systemOf db' a.genomeHash = systemOf db a.genomeHash)
    (systemId : String) : productionLog db' systemId = productionLog db systemId := by
  have hfilter : (db'.approvals.filter fun a => systemOf db' a.genomeHash = some systemId) =
      db.approvals.filter fun a => systemOf db a.genomeHash = some systemId := by
    rw [happ]
    refine List.filter_congr fun a ha => ?_
    rw [hsys a ha]
  rw [productionLog, productionLog, systemApprovals, systemApprovals, hfilter]

/-- What only production changes change: the approval log. Rows keep the data of their
    genomes and an application its original. -/
structure KeepsLog (db db' : Database) : Prop where
  approvals : db'.approvals = db.approvals
  data : ∀ hash r, db.getGenomeRecord hash = some r →
    ∃ r', db'.getGenomeRecord hash = some r' ∧ r'.data = r.data
  originals : ∀ systemId r, originalBaseline db systemId = some r →
    ∃ r', originalBaseline db' systemId = some r' ∧ r'.hash = r.hash

theorem KeepsLog.refl (db : Database) : KeepsLog db db :=
  ⟨rfl, fun _ r hr => ⟨r, hr, rfl⟩, fun _ r hr => ⟨r, hr, rfl⟩⟩

theorem KeepsLog.trans {db₁ db₂ db₃ : Database} (h₁ : KeepsLog db₁ db₂)
    (h₂ : KeepsLog db₂ db₃) : KeepsLog db₁ db₃ where
  approvals := h₂.approvals.trans h₁.approvals
  data := by
    intro hash r hr
    obtain ⟨r', hr', hdata⟩ := h₁.data hash r hr
    obtain ⟨r'', hr'', hdata'⟩ := h₂.data hash r' hr'
    exact ⟨r'', hr'', hdata'.trans hdata⟩
  originals := by
    intro systemId r hr
    obtain ⟨r', hr', hhash⟩ := h₁.originals systemId r hr
    obtain ⟨r'', hr'', hhash'⟩ := h₂.originals systemId r' hr'
    exact ⟨r'', hr'', hhash'.trans hhash⟩

theorem KeepsLog.of_eq {db' : Database} (hgenomes : db'.genomes = db.genomes)
    (happrovals : db'.approvals = db.approvals) : KeepsLog db db' where
  approvals := happrovals
  data := fun hash r hr => ⟨r, by rw [getGenomeRecord, hgenomes]; exact hr, rfl⟩
  originals := fun systemId r hr =>
    ⟨r, by rw [originalBaseline_eq, hgenomes, ← originalBaseline_eq]; exact hr, rfl⟩

/-- The status column may change. -/
theorem KeepsLog.of_eraseStatus {db' : Database} (h : db'.eraseStatus = db.eraseStatus) :
    KeepsLog db db' where
  approvals := approvals_of_eraseStatus h
  data := by
    intro hash r hr
    have hget := congrArg (·.getGenomeRecord hash) h
    rw [getGenomeRecord_eraseStatus, getGenomeRecord_eraseStatus, hr] at hget
    obtain ⟨r', hr', heq⟩ := Option.map_eq_some_iff.mp hget
    have hdata := congrArg GenomeRecord.data heq
    exact ⟨r', hr', hdata⟩
  originals := by
    intro systemId r hr
    have hsame := originalBaseline_congr h systemId
    rw [hr] at hsame
    obtain ⟨r', hr', hhash⟩ := Option.map_eq_some_iff.mp hsame
    exact ⟨r', hr', hhash⟩

/-- What no review, canary or save changes as long as it knows its genome's status: the log,
    and which genomes have the status of a member of a stack. -/
structure Preserves (db db' : Database) : Prop where
  log : KeepsLog db db'
  statuses : ∀ hash status, (status = .promoted ∨ status = .superseded) →
    (db'.statusOf hash = some status ↔ db.statusOf hash = some status)

theorem Preserves.refl (db : Database) : Preserves db db :=
  ⟨KeepsLog.refl db, fun _ _ _ => Iff.rfl⟩

theorem Preserves.trans {db₁ db₂ db₃ : Database} (h₁ : Preserves db₁ db₂)
    (h₂ : Preserves db₂ db₃) : Preserves db₁ db₃ where
  log := h₁.log.trans h₂.log
  statuses := fun hash status hst =>
    (h₂.statuses hash status hst).trans (h₁.statuses hash status hst)

theorem Preserves.of_eq {db' : Database} (hgenomes : db'.genomes = db.genomes)
    (happrovals : db'.approvals = db.approvals) : Preserves db db' where
  log := KeepsLog.of_eq hgenomes happrovals
  statuses := fun hash status _ => by
    unfold statusOf getGenomeRecord
    rw [hgenomes]

theorem KeepsLog.systemOf {db' : Database} (h : KeepsLog db db') {hash systemId : String}
    (hs : NeuroForge.systemOf db hash = some systemId) :
    NeuroForge.systemOf db' hash = some systemId := by
  obtain ⟨r, hr, hsys⟩ := Option.map_eq_some_iff.mp hs
  obtain ⟨r', hr', hdata⟩ := h.data hash r hr
  unfold NeuroForge.systemOf
  rw [hr', ← hsys, GenomeRecord.systemId, ← hdata]
  rfl

/-- Every approval is of a genome that has a row. -/
def ApprovalsKnown (db : Database) : Prop :=
  ∀ a ∈ db.approvals, ∃ systemId, systemOf db a.genomeHash = some systemId

theorem KeepsLog.productionLog {db' : Database} (h : KeepsLog db db')
    (hknown : ApprovalsKnown db) (systemId : String) :
    NeuroForge.productionLog db' systemId = NeuroForge.productionLog db systemId := by
  refine productionLog_of_rows h.approvals (fun a ha => ?_) systemId
  obtain ⟨s, hs⟩ := hknown a ha
  rw [h.systemOf hs, hs]

theorem KeepsLog.productionHashes {db' : Database} (h : KeepsLog db db')
    (hknown : ApprovalsKnown db) (systemId : String) :
    NeuroForge.productionHashes db' systemId = NeuroForge.productionHashes db systemId := by
  rw [productionHashes_eq, h.productionLog hknown, productionHashes_eq]

/-- What preserves the log and the production statuses preserves their agreement. -/
theorem StatusesAgree.preserved {db' : Database} (hagree : StatusesAgree db)
    (hknown : ApprovalsKnown db) (h : Preserves db db') : StatusesAgree db' := by
  intro systemId hash status hs hst
  rw [stackStatus, h.log.productionHashes hknown, ← stackStatus]
  split_ifs with hmem
  · have hold := systemOf_of_mem_productionHashes hmem
    obtain ⟨old, hst'⟩ := isSome_statusOf hold
    have hag := hagree systemId hash old hold hst'
    rw [if_pos hmem] at hag
    have hcases := stackStatus_cases db systemId hash
    rw [← hag] at hcases
    have hnew := (h.statuses hash old hcases).mpr hst'
    rw [hst] at hnew
    rw [Option.some.inj hnew, hag]
  · have hnot : ∀ wanted, (wanted = .promoted ∨ wanted = .superseded) → status ≠ wanted := by
      rintro wanted hwanted rfl
      have hst' := (h.statuses hash status hwanted).mp hst
      obtain ⟨r, hr, -⟩ := Option.map_eq_some_iff.mp hst'
      have hold : systemOf db hash = some r.systemId := by
        unfold systemOf
        rw [hr]
        rfl
      have hsame := h.log.systemOf hold
      rw [hs] at hsame
      rw [← Option.some.inj hsame] at hold
      have hag := hagree systemId hash status hold hst'
      rw [if_neg hmem] at hag
      rcases hwanted with hw | hw
      · exact hag.1 hw
      · exact hag.2 hw
    exact ⟨hnot .promoted (.inl rfl), hnot .superseded (.inr rfl)⟩

/-! ## The writes that are no production changes -/

/-- A stored v1 stays the original. -/
theorem originalBaseline_saveGenome {digest : GenomeDigest} {g : SystemGenome}
    {systemId : String} {r : GenomeRecord} (h : originalBaseline db systemId = some r) :
    originalBaseline (db.saveGenome digest g) systemId = some r := by
  rw [originalBaseline_eq] at h ⊢
  unfold saveGenome
  split
  · exact h
  · dsimp only
    rw [List.find?_append, h]
    rfl

theorem keepsLog_saveGenome (digest : GenomeDigest) (g : SystemGenome) :
    KeepsLog db (db.saveGenome digest g) where
  approvals := approvals_saveGenome digest g
  data := by
    intro hash r hr
    refine ⟨r, ?_, rfl⟩
    rw [getGenomeRecord_saveGenome, hr]
    rfl
  originals := fun _ r hr => ⟨r, originalBaseline_saveGenome hr, rfl⟩

theorem preserves_saveGenome {digest : GenomeDigest} {g : SystemGenome}
    (h : db.getGenomeRecord (g.hash digest) = none →
      g.status ≠ .promoted ∧ g.status ≠ .superseded) :
    Preserves db (db.saveGenome digest g) := by
  refine ⟨keepsLog_saveGenome digest g, ?_⟩
  · intro hash status hst
    unfold statusOf
    rw [getGenomeRecord_saveGenome]
    rcases hold : db.getGenomeRecord hash with _ | r
    · rw [Option.none_or]
      split_ifs with hhash
      · subst hhash
        obtain ⟨hp, hsup⟩ := h hold
        simp only [Option.map_some, Option.map_none, Option.some_inj, reduceCtorEq, iff_false]
        rcases hst with rfl | rfl
        · exact hp
        · exact hsup
      · exact Iff.rfl
    · exact Iff.rfl

/-- A status write on a genome that is no member, of a status that is no member's. -/
theorem preserves_writeStatus {hash : String} {write : Option PromotionStatus}
    (h : ∀ new, write = some new → (new ≠ .promoted ∧ new ≠ .superseded) ∧
      ∀ old, db.statusOf hash = some old → old ≠ .promoted ∧ old ≠ .superseded) :
    Preserves db (db.writeStatus hash write) := by
  refine ⟨KeepsLog.of_eraseStatus (eraseStatus_writeStatus hash write), ?_⟩
  · intro hash' status hst
    rw [statusOf_writeStatus]
    by_cases hh : hash' = hash
    · subst hh
      rcases write with _ | new
      · simp
      · obtain ⟨⟨hp, hsup⟩, hold⟩ := h new rfl
        rcases hcur : db.statusOf hash' with _ | old
        · simp
        · obtain ⟨hp', hsup'⟩ := hold old hcur
          rcases hst with rfl | rfl
          · simp [hp, hp']
          · simp [hsup, hsup']
    · simp [hh]

/-- What a status write of `_advance_status` was allowed by. -/
theorem advancedStatus_eq_some {loaded new status : PromotionStatus}
    {onlyFrom : PromotionStatus → Bool} (h : advancedStatus loaded new onlyFrom = some status) :
    status = new ∧ loaded ≠ .promoted ∧ onlyFrom loaded = true := by
  unfold advancedStatus at h
  split_ifs at h with hp honly
  exact ⟨(Option.some.inj h).symm, hp, honly.1⟩

/-- A review writes only over a status that is no member's. -/
theorem reviewStatus_eq_some {loaded status : PromotionStatus} {decision : PromotionDecision}
    (h : reviewStatus loaded decision = some status) :
    status = decision.nextStatus ∧ loaded ≠ .promoted ∧ loaded ≠ .superseded := by
  obtain ⟨hnew, hp, honly⟩ := advancedStatus_eq_some h
  refine ⟨hnew, hp, ?_⟩
  unfold reviewOnlyFrom at honly
  rw [Bool.and_eq_true, decide_eq_true_eq] at honly
  exact honly.1.2

/-- A canary writes only over a status that is no member's, and writes none of a member. -/
theorem canaryStatus_eq_some {loaded status : PromotionStatus} {rollbackTriggered : Bool}
    (h : canaryStatus loaded rollbackTriggered = some status) :
    (status ≠ .promoted ∧ status ≠ .superseded) ∧ loaded ≠ .promoted ∧ loaded ≠ .superseded := by
  obtain ⟨hnew, hp, honly⟩ := advancedStatus_eq_some h
  unfold canaryOnlyFrom at honly
  rw [decide_eq_true_eq] at honly
  refine ⟨?_, hp, ?_⟩
  · rw [hnew]
    split_ifs
    · exact ⟨by decide, by decide⟩
    · exact ⟨by decide, by decide⟩
  · rintro rfl
    rcases honly with h | h | h <;> cases h

/-- A review writes no status, or writes it onto a genome without a member's status. -/
theorem preserves_savePromotionDecision_of_outside {genomeHash : String}
    {experimentId : Option String} {decision : PromotionDecision} {loaded : PromotionStatus}
    {now : ℕ}
    (hout : reviewStatus loaded decision ≠ none → ∀ old, db.statusOf genomeHash = some old →
      old ≠ .promoted ∧ old ≠ .superseded)
    (hnext : decision.nextStatus ≠ .promoted ∧ decision.nextStatus ≠ .superseded) :
    Preserves db (db.savePromotionDecision genomeHash experimentId decision loaded now) := by
  have hadd : Preserves db (db.addDecision genomeHash experimentId decision now) :=
    Preserves.of_eq rfl rfl
  refine hadd.trans (preserves_writeStatus fun new hnew => ?_)
  have hold := hout (by rw [hnew]; exact Option.some_ne_none new)
  obtain ⟨rfl, -, -⟩ := reviewStatus_eq_some hnew
  exact ⟨hnext, hold⟩

/-- A review's decision is written over the status its genome has, as loaded. -/
theorem preserves_savePromotionDecision {genomeHash : String} {experimentId : Option String}
    {decision : PromotionDecision} {loaded : PromotionStatus} {now : ℕ}
    (hloaded : ∀ status, db.statusOf genomeHash = some status → status = loaded)
    (hnext : decision.nextStatus ≠ .promoted ∧ decision.nextStatus ≠ .superseded) :
    Preserves db (db.savePromotionDecision genomeHash experimentId decision loaded now) := by
  refine preserves_savePromotionDecision_of_outside (fun hwrite old hold => ?_) hnext
  obtain ⟨new, hnew⟩ := Option.ne_none_iff_exists'.mp hwrite
  obtain ⟨-, hp, hsup⟩ := reviewStatus_eq_some hnew
  rw [hloaded old hold]
  exact ⟨hp, hsup⟩

theorem preserves_saveCanaryResult_of_outside {candidateHash baselineHash : String}
    {trafficSplit : ℚ} {rollbackTriggered : Bool} {loaded : PromotionStatus} {now : ℕ}
    (hout : canaryStatus loaded rollbackTriggered ≠ none →
      ∀ old, db.statusOf candidateHash = some old → old ≠ .promoted ∧ old ≠ .superseded) :
    Preserves db (db.saveCanaryResult candidateHash baselineHash trafficSplit rollbackTriggered
      loaded now) := by
  have hadd : Preserves db (db.addCanary candidateHash baselineHash trafficSplit
      rollbackTriggered now) := Preserves.of_eq rfl rfl
  refine hadd.trans (preserves_writeStatus fun new hnew => ?_)
  have hold := hout (by rw [hnew]; exact Option.some_ne_none new)
  obtain ⟨hstatus, -, -⟩ := canaryStatus_eq_some hnew
  exact ⟨hstatus, hold⟩

theorem preserves_saveCanaryResult {candidateHash baselineHash : String} {trafficSplit : ℚ}
    {rollbackTriggered : Bool} {loaded : PromotionStatus} {now : ℕ}
    (hloaded : ∀ status, db.statusOf candidateHash = some status → status = loaded) :
    Preserves db (db.saveCanaryResult candidateHash baselineHash trafficSplit rollbackTriggered
      loaded now) := by
  refine preserves_saveCanaryResult_of_outside fun hwrite old hold => ?_
  obtain ⟨new, hnew⟩ := Option.ne_none_iff_exists'.mp hwrite
  obtain ⟨-, hp, hsup⟩ := canaryStatus_eq_some hnew
  rw [hloaded old hold]
  exact ⟨hp, hsup⟩

/-! ## Production changes -/

/-- A reconciliation of one application leaves the genomes of the others alone. -/
theorem statusOf_reconcile_of_ne {loaded : String → Option PromotionStatus}
    {systemId hash : String} (h : systemOf db hash ≠ some systemId) :
    (reconcileProductionStatuses db loaded systemId).statusOf hash = db.statusOf hash := by
  rw [statusOf_reconcile]
  have hmem : hash ∉ productionHashes db systemId := fun hm =>
    h (systemOf_of_mem_productionHashes hm)
  have hmen : hash ∉ mentioned db systemId := fun hm => h (mem_mentioned.mp hm).2
  simp [hmem, hmen]

section Approval

variable {hash approvedBy : String} {experimentId : Option String} {action : ApprovalAction}
  {now : ℕ}

@[simp] theorem systemOf_savePromotionApproval (hash' : String) :
    systemOf (db.savePromotionApproval hash experimentId approvedBy action now) hash' =
      systemOf db hash' := rfl

/-- An approval of a genome of another application is no event of this one. -/
theorem productionLog_savePromotionApproval_of_ne {systemId : String}
    (h : systemOf db hash ≠ some systemId) :
    productionLog (db.savePromotionApproval hash experimentId approvedBy action now)
      systemId = productionLog db systemId := by
  unfold productionLog systemApprovals savePromotionApproval
  rw [List.filter_append]
  have hnil : ([⟨db.approvals.length + 1, hash, experimentId, approvedBy, some action, now⟩] :
      List PromotionApprovalRecord).filter (fun a => systemOf db a.genomeHash = some systemId) =
      [] := by
    simp [h]
  have happend := congrArg (fun l =>
    (db.approvals.filter (fun a => systemOf db a.genomeHash = some systemId)) ++ l) hnil
  rw [List.append_nil] at happend
  exact congrArg (fun l => (l.insertionSort approvalOrder).map approvalEvent) happend

theorem productionHashes_savePromotionApproval_of_ne {systemId : String}
    (h : systemOf db hash ≠ some systemId) :
    productionHashes (db.savePromotionApproval hash experimentId approvedBy action now)
      systemId = productionHashes db systemId := by
  rw [productionHashes_eq, productionLog_savePromotionApproval_of_ne h, productionHashes_eq]

theorem mentioned_savePromotionApproval {systemId hash' : String}
    (h : hash' ∈ mentioned db systemId) :
    hash' ∈ mentioned (db.savePromotionApproval hash experimentId approvedBy action now)
      systemId := by
  rw [mem_mentioned] at h ⊢
  refine ⟨?_, h.2⟩
  unfold savePromotionApproval
  rw [List.map_append]
  exact List.mem_append_left _ h.1

/-- What a session has loaded of the status column before it changes an application's
    production: the statuses of the stack as they are, and no member's status of any other
    genome. -/
structure Loaded (db : Database) (systemId : String)
    (loaded : String → Option PromotionStatus) : Prop where
  stack : ∀ hash ∈ productionHashes db systemId, loaded hash = db.statusOf hash
  other : ∀ hash ∉ productionHashes db systemId, systemOf db hash = some systemId →
    loaded hash ≠ some .promoted ∧ loaded hash ≠ some .superseded

/-- A production change keeps the column and the log in agreement. -/
theorem StatusesAgree.change (h : StatusesAgree db) {systemId : String}
    (hsys : systemOf db hash = some systemId) {loaded : String → Option PromotionStatus}
    (hloaded : Loaded db systemId loaded) :
    StatusesAgree (reconcileProductionStatuses
      (db.savePromotionApproval hash experimentId approvedBy action now) loaded systemId) := by
  intro systemId' hash' status hs hst
  rw [systemOf_congr (eraseStatus_reconcile systemId), systemOf_savePromotionApproval] at hs
  rw [productionHashes_congr (eraseStatus_reconcile systemId),
    stackStatus_congr (eraseStatus_reconcile systemId)]
  by_cases hne : systemId' = systemId
  · subst hne
    rw [statusOf_reconcile] at hst
    obtain ⟨old, hold, hnew⟩ := Option.map_eq_some_iff.mp hst
    have hagree := h systemId' hash' old hs hold
    by_cases hmem : hash' ∈ productionHashes
        (db.savePromotionApproval hash experimentId approvedBy action now) systemId'
    · rw [if_pos hmem] at hnew ⊢
      split_ifs at hnew with hsame
      · exact hnew.symm
      · rw [not_not] at hsame
        -- the loaded status is a member's, so the genome was in the stack before
        have hold' : hash' ∈ productionHashes db systemId' := by
          by_contra hn
          obtain ⟨hp, hsup⟩ := hloaded.other hash' hn hs
          rcases stackStatus_cases
            (db.savePromotionApproval hash experimentId approvedBy action now) systemId' hash'
            with hcase | hcase
          · exact hp (hsame.trans (congrArg some hcase))
          · exact hsup (hsame.trans (congrArg some hcase))
        have hnow : loaded hash' = some old := (hloaded.stack hash' hold').trans hold
        rw [← hnew, ← Option.some_inj, ← hnow, hsame]
    · rw [if_neg hmem] at hnew ⊢
      by_cases hin : hash' ∈ productionHashes db systemId'
      · -- it has just left the stack, with a member's status
        rw [if_pos hin] at hagree
        have hnow : loaded hash' = some old := (hloaded.stack hash' hin).trans hold
        have hmember : loaded hash' = some .promoted ∨ loaded hash' = some .superseded := by
          rw [hnow, hagree]
          exact (stackStatus_cases db systemId' hash').imp (congrArg some) (congrArg some)
        have hmen : hash' ∈ mentioned
            (db.savePromotionApproval hash experimentId approvedBy action now) systemId' :=
          mentioned_savePromotionApproval (mentioned_of_mem_productionHashes hin)
        rw [if_pos ⟨hmen, hmember⟩] at hnew
        rw [← hnew]
        exact ⟨by decide, by decide⟩
      · rw [if_neg hin] at hagree
        split_ifs at hnew
        · rw [← hnew]
          exact ⟨by decide, by decide⟩
        · rw [← hnew]
          exact hagree
  · have hother : systemOf db hash ≠ some systemId' := by
      rw [hsys]
      intro heq
      exact hne (Option.some.inj heq).symm
    have hother' : systemOf db hash' ≠ some systemId := by
      rw [hs]
      intro heq
      exact hne (Option.some.inj heq)
    rw [@statusOf_reconcile_of_ne (db.savePromotionApproval hash experimentId approvedBy action
      now) loaded systemId hash' hother'] at hst
    rw [stackStatus, productionHashes_savePromotionApproval_of_ne hother]
    exact h systemId' hash' status hs hst

/-- The statuses as they are, while they agree with the log. -/
theorem StatusesAgree.loaded (h : StatusesAgree db) (systemId : String) :
    Loaded db systemId db.statusOf where
  stack := fun _ _ => rfl
  other := by
    intro hash' hout hsys
    obtain ⟨status, hstatus⟩ := isSome_statusOf hsys
    have hagree := h systemId hash' status hsys hstatus
    rw [if_neg hout] at hagree
    rw [hstatus]
    exact ⟨fun heq => hagree.1 (Option.some.inj heq), fun heq => hagree.2 (Option.some.inj heq)⟩

end Approval

end Agreement

end NeuroForge
