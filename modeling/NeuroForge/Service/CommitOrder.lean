/-
  The approval log in the order of its commits.

  A production change appends a row (`Served.commits`), so the table holds the rows in the
  order they were committed, whatever the clocks of the hosts that stamped them say. The
  stack is replayed in the order of the stamps. `champion_as_committed_iff` says when the
  two agree: as long as every row is stamped no earlier than the older rows about its own
  genome and about the genome it finds in production. A rollback stamped before the
  promotion it takes back is replayed before it and has no effect.
-/
import NeuroForge.Service.StatusHistory

namespace NeuroForge

open Fallible Database

/-- What the log is sorted by. -/
def approvalKey (a : PromotionApprovalRecord) : Lex (ℕ × ℕ) := toLex (a.createdAt, a.id)

/-- The genome in production when the changes are applied in the order of their commits. -/
def committedChampion (db : Database) (systemId : String) : Option String :=
  (StackReplay.replay ((committedApprovals db systemId).map approvalEvent)).getLast?

/-- The current champion is the one the commits made. -/
def ChampionAsCommitted (db : Database) (systemId : String) : Prop :=
  (currentChampion db systemId).map (·.hash) = committedChampion db systemId

/-- The row is stamped no earlier than the older rows about its genome, and than those about
    the genome it finds in production. -/
def StampedInTime (db : Database) (systemId : String) (a : PromotionApprovalRecord) : Prop :=
  ∀ b ∈ db.approvals, b.genomeHash = a.genomeHash ∨
    committedChampion db systemId = some b.genomeHash → b.createdAt ≤ a.createdAt

instance (db : Database) (systemId : String) (a : PromotionApprovalRecord) :
    Decidable (StampedInTime db systemId a) :=
  inferInstanceAs (Decidable (∀ b ∈ db.approvals, _))

/-- The rows a request adds to the approval log. -/
def newApprovals (p : Platform) (db : Database) (t : Timed) : List PromotionApprovalRecord :=
  (serve p db t).2.approvals.drop db.approvals.length

/-- If the request changes what the application has in production, its row is stamped in
    time. -/
def ChangesInTime (p : Platform) (systemId : String) (db : Database) (t : Timed) : Prop :=
  ∀ a ∈ newApprovals p db t, systemOf db a.genomeHash = some systemId →
    StampedInTime db systemId a

instance (p : Platform) (systemId : String) (db : Database) (t : Timed) :
    Decidable (ChangesInTime p systemId db t) :=
  inferInstanceAs (Decidable (∀ a ∈ newApprovals p db t, _))

section Commits

variable {p : Platform} {db db' : Database} {now : ℕ} {systemId : String}

/-- The stack is replayed from the rows in the order of their keys. -/
theorem productionHashes_eq_byKey (systemId : String) : productionHashes db systemId =
    StackReplay.replay ((StackReplay.byKey approvalKey
      (committedApprovals db systemId)).map approvalEvent) :=
  productionHashes_eq systemId

@[simp] theorem subject_approvalEvent (a : PromotionApprovalRecord) :
    (approvalEvent a).subject = a.genomeHash := by
  unfold approvalEvent
  split_ifs <;> rfl

theorem committedApprovals_of_preserves (hknown : ApprovalsKnown db) (h : Preserves db db')
    (systemId : String) : committedApprovals db' systemId = committedApprovals db systemId := by
  unfold committedApprovals
  rw [h.log.approvals]
  refine List.filter_congr fun a ha => ?_
  obtain ⟨s, hs⟩ := hknown a ha
  rw [h.log.systemOf hs, hs]

/-- A database whose ids count the commits, and whose log reads as it was committed. -/
structure LogAsCommitted (p : Platform) (systemId : String) (db : Database) : Prop
    extends Sound p db where
  ids : db.approvals.map (·.id) = List.range' 1 db.approvals.length
  reads : StackReplay.ReadsAsWritten approvalKey approvalEvent (committedApprovals db systemId)

theorem logAsCommitted_empty (p : Platform) (systemId : String) :
    LogAsCommitted p systemId {} where
  toSound := sound_empty p
  ids := rfl
  reads := rfl

theorem LogAsCommitted.champion (h : LogAsCommitted p systemId db) :
    ChampionAsCommitted db systemId := by
  unfold ChampionAsCommitted committedChampion
  rw [← getLast?_productionHashes, productionHashes_eq_byKey, h.reads]

theorem LogAsCommitted.preserved (h : LogAsCommitted p systemId db)
    (hnew : WellFormed p.genomeDigest db' ∧ Preserves db db') : LogAsCommitted p systemId db' where
  toSound := h.toSound.preserved hnew
  ids := by
    rw [hnew.2.log.approvals]
    exact h.ids
  reads := by
    rw [committedApprovals_of_preserves h.wellFormed.known hnew.2]
    exact h.reads

section Row

variable {a : PromotionApprovalRecord}

theorem LogAsCommitted.ids_commit {other : String} (h : LogAsCommitted p systemId db)
    (hc : Commits db db' now other a) :
    db'.approvals.map (·.id) = List.range' 1 db'.approvals.length := by
  rw [hc.approvals, List.map_append, h.ids, List.map_singleton, hc.id, List.length_append,
    List.length_singleton, List.range'_concat, Nat.one_mul, Nat.add_comm 1]

theorem LogAsCommitted.id_lt (h : LogAsCommitted p systemId db) (hc : Commits db db' now systemId a)
    {b : PromotionApprovalRecord} (hb : b ∈ db.approvals) : b.id < a.id := by
  have hid : b.id ∈ db.approvals.map (·.id) := List.mem_map_of_mem hb
  rw [h.ids, List.mem_range'_1] at hid
  rw [hc.id]
  omega

/-- No two rows of the application have the same key. -/
theorem LogAsCommitted.keys_nodup (h : LogAsCommitted p systemId db)
    (hc : Commits db db' now systemId a) :
    ((committedApprovals db systemId ++ [a]).map approvalKey).Nodup := by
  have hids : (db'.approvals.map (·.id)).Nodup := by
    rw [h.ids_commit hc]
    exact List.nodup_range'
  rw [← hc.committedApprovals]
  have hsub : (committedApprovals db' systemId).Sublist db'.approvals := List.filter_sublist
  have hrows := hids.sublist (hsub.map (·.id))
  refine List.Nodup.of_map (fun key => (ofLex key).2) ?_
  rw [List.map_map]
  exact hrows

/-- The stamps decide, as ids grow. -/
theorem LogAsCommitted.inTime_iff (h : LogAsCommitted p systemId db)
    (hc : Commits db db' now systemId a) :
    StackReplay.InTime approvalKey approvalEvent (committedApprovals db systemId) a ↔
      StampedInTime db systemId a := by
  have hkey : ∀ b ∈ db.approvals, approvalKey b ≤ approvalKey a ↔ b.createdAt ≤ a.createdAt := by
    intro b hb
    have hid := h.id_lt hc hb
    unfold approvalKey
    rw [Prod.Lex.toLex_le_toLex]
    dsimp only
    omega
  have hmem : ∀ b, b ∈ committedApprovals db systemId ↔
      b ∈ db.approvals ∧ systemOf db b.genomeHash = some systemId := by
    intro b
    simp [committedApprovals]
  unfold StackReplay.InTime StampedInTime
  simp only [subject_approvalEvent]
  constructor
  · intro hin b hb habout
    refine (hkey b hb).mp (hin b ((hmem b).mpr ⟨hb, ?_⟩) habout)
    rcases habout with heq | htop
    · rw [heq]
      exact hc.known
    · obtain ⟨champion, hchampion, hhash⟩ := Option.map_eq_some_iff.mp (h.champion.trans htop)
      rw [← hhash]
      exact systemOf_champion hchampion
  · intro hin b hb habout
    have hrow := ((hmem b).mp hb).1
    exact (hkey b hrow).mpr (hin b hrow habout)

/-- A row stamped in time keeps the log as it was committed. -/
theorem LogAsCommitted.commit (h : LogAsCommitted p systemId db) (hsound : Sound p db')
    {other : String} (hc : Commits db db' now other a)
    (hok : systemOf db a.genomeHash = some systemId → StampedInTime db systemId a) :
    LogAsCommitted p systemId db' := by
  refine ⟨hsound, h.ids_commit hc, ?_⟩
  by_cases hother : other = systemId
  · subst hother
    rw [hc.committedApprovals]
    exact h.reads.concat (h.keys_nodup hc) ((h.inTime_iff hc).mpr (hok hc.known))
  · rw [hc.committedApprovals_of_ne hother]
    exact h.reads

/-- After a row that is not, the champion is another. -/
theorem LogAsCommitted.stampedInTime (h : LogAsCommitted p systemId db)
    (hc : Commits db db' now systemId a) (hchampion : ChampionAsCommitted db' systemId) :
    StampedInTime db systemId a := by
  have hchanges := hc.changes
  rw [productionHashes_eq_byKey, h.reads] at hchanges
  rw [← h.inTime_iff hc, ← h.reads.top_iff (h.keys_nodup hc) hchanges]
  unfold ChampionAsCommitted committedChampion at hchampion
  rw [← getLast?_productionHashes, productionHashes_eq_byKey, hc.committedApprovals] at hchampion
  exact hchampion

end Row

theorem newApprovals_step {t : Timed} (hstep : serialStep p db t = some db') :
    newApprovals p db t = db'.approvals.drop db.approvals.length := by
  unfold serialStep at hstep
  split_ifs at hstep
  rw [← Option.some.inj hstep]
  rfl

theorem LogAsCommitted.step {t : Timed} (h : LogAsCommitted p systemId db)
    (hok : ChangesInTime p systemId db t) (hstep : serialStep p db t = some db') :
    LogAsCommitted p systemId db' := by
  obtain ⟨hposs, hserved⟩ := serialStep_did hstep
  have hsound := hserved.sound h.toSound hposs
  rcases hserved.commits h.toSound hposs with hpreserves | ⟨other, a, hc⟩
  · exact h.preserved ⟨hsound.wellFormed, hpreserves⟩
  · refine h.commit hsound hc (hok a ?_)
    rw [newApprovals_step hstep, hc.approvals, List.drop_left]
    exact List.mem_singleton_self a

theorem LogAsCommitted.changesInTime {t : Timed} (h : LogAsCommitted p systemId db)
    (hstep : serialStep p db t = some db') (hchampion : ChampionAsCommitted db' systemId) :
    ChangesInTime p systemId db t := by
  obtain ⟨hposs, hserved⟩ := serialStep_did hstep
  intro a ha hsys
  rw [newApprovals_step hstep] at ha
  rcases hserved.commits h.toSound hposs with hpreserves | ⟨other, a', hc⟩
  · rw [hpreserves.log.approvals, List.drop_length] at ha
    cases ha
  · rw [hc.approvals, List.drop_left] at ha
    obtain rfl := List.mem_singleton.mp ha
    obtain rfl : other = systemId := Option.some.inj (hc.known.symm.trans hsys)
    exact h.stampedInTime hc hchampion

/-- The log is only appended to: it stands in the order of the commits. -/
theorem approvals_grow {history earlier : List Timed} (hpre : earlier <+: history)
    (hrun : Transition.run (serialStep p) {} history = some db) {s : Database}
    (hs : Transition.run (serialStep p) {} earlier = some s) : s.approvals <+: db.approvals := by
  obtain ⟨rest, rfl⟩ := hpre
  rw [Transition.run_append, hs, Option.bind_some] at hrun
  have hstep : ∀ d t d', Sound p d ∧ s.approvals <+: d.approvals →
      serialStep p d t = some d' → Sound p d' ∧ s.approvals <+: d'.approvals := by
    rintro d t d' ⟨hsound, hgrown⟩ hstep
    obtain ⟨hposs, hserved⟩ := serialStep_did hstep
    refine ⟨hserved.sound hsound hposs, hgrown.trans ?_⟩
    rcases hserved.commits hsound hposs with hpreserves | ⟨other, a, hc⟩
    · rw [hpreserves.log.approvals]
    · rw [hc.approvals]
      exact List.prefix_append _ _
  exact (Transition.run_invariant hstep ⟨sound_of_history hs, List.prefix_refl _⟩ hrun).2

end Commits

/-- **The champion is the one the commits made as long as changes are stamped in time.** Along
    a history of requests served one after the other, with any stamps, the current champion of
    an application is at every point the one that its changes make in the order of their
    commits, exactly when each of its changes is stamped no earlier than the older changes of
    the same genome and of the genome then in production. -/
theorem champion_as_committed_iff (p : Platform) (history : List Timed) (db : Database)
    (hrun : Transition.run (serialStep p) {} history = some db) (systemId : String) :
    (∀ earlier, earlier <+: history → ∀ s,
      Transition.run (serialStep p) {} earlier = some s → ChampionAsCommitted s systemId) ↔
    Transition.Guarded (serialStep p) (ChangesInTime p systemId) {} history :=
  Transition.guarded_iff (fun _ h => h.champion) (fun _ _ _ h hok hstep => h.step hok hstep)
    (fun _ _ _ h hstep hgood => h.changesInTime hstep hgood) (logAsCommitted_empty p systemId)
    hrun

/-- The first genome is promoted and rolled back at one time; the second is promoted by a host
    whose clock is behind. -/
def behindOnOthers : List Timed :=
  exampleHistory ++ [
    ⟨5, .rollbackPromotion "app" "admin"⟩, ⟨6, exampleCreate exp2 "original" 2 usualFloor⟩,
    ⟨7, .runExperiment "exp-2" none (.ok (exampleResult exampleOriginal exampleBest))⟩,
    ⟨8, .requestPromotion "exp-2" "app-45"⟩, ⟨9, exampleCanary "app-45"⟩,
    ⟨3, .finalizePromotion "app-45" (some "exp-2") "admin"⟩]

/-- The clock of the host that rolls the first genome back is behind. -/
def behindOnItself : List Timed := exampleHistory ++ [⟨4, .rollbackPromotion "app" "admin"⟩]

/-- A host whose clock is behind may promote a genome that has no older rows while nothing is
    in production. -/
theorem champion_as_committed_behindOnOthers : ∃ db,
    Transition.run (serialStep examplePlatform) {} behindOnOthers = some db ∧
      db.approvals.map (·.createdAt) = [5, 5, 3] ∧
      committedChampion db "app" = some "app-45" ∧ ChampionAsCommitted db "app" := by
  have hrun : ((Transition.run (serialStep examplePlatform) {} behindOnOthers).map fun db =>
      (db.approvals.map (·.createdAt), committedChampion db "app")) =
      some ([5, 5, 3], some "app-45") := by
    decide +kernel
  obtain ⟨db, hdb, hvalues⟩ := Option.map_eq_some_iff.mp hrun
  obtain ⟨hstamps, hcommitted⟩ := Prod.mk.inj hvalues
  exact ⟨db, hdb, hstamps, hcommitted,
    (champion_as_committed_iff examplePlatform behindOnOthers db hdb "app").mpr
      (by decide +kernel) _ (List.prefix_refl _) db hdb⟩

/-- The champion is not always the one the commits made: a rollback that was committed after
    the promotion, and stamped before it, is undone by the replay. -/
theorem champion_as_committed_fails : ¬ ∀ (p : Platform) (history : List Timed) (db : Database),
    Transition.run (serialStep p) {} history = some db →
    ∀ systemId, ChampionAsCommitted db systemId := by
  intro hall
  have hrun : ((Transition.run (serialStep examplePlatform) {} behindOnItself).map fun db =>
      ((currentChampion db "app").map (·.hash), committedChampion db "app")) =
      some (some "app-40", none) := by
    decide +kernel
  obtain ⟨db, hdb, hvalues⟩ := Option.map_eq_some_iff.mp hrun
  obtain ⟨hchampion, hcommitted⟩ := Prod.mk.inj hvalues
  have hsame : (currentChampion db "app").map (·.hash) = committedChampion db "app" :=
    hall examplePlatform behindOnItself db hdb "app"
  rw [hchampion, hcommitted] at hsame
  cases hsame

end NeuroForge
