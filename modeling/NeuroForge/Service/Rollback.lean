/-
  What a rollback restores.

  While the clock of the log does not run backwards the log is in the order of its writes
  (`LogInOrder`), so a rollback appends its event, and `StackReplay.replay_uncover` says
  what comes to light: of the stack as it was before the champion's last promotion, what has
  not been rolled back since. That is the predecessor of the champion unless the
  predecessor was itself rolled back in between, after a second promotion of its own.
-/
import NeuroForge.Service.StatusHistory

namespace NeuroForge

open Fallible Database

/-! ## The order of the log -/

/-- The approvals stand in the order the log is read in, and ids count them. -/
structure LogInOrder (db : Database) : Prop where
  sorted : db.approvals.Pairwise approvalOrder
  ids : ∀ a ∈ db.approvals, a.id ≤ db.approvals.length

/-- The clock a write reads is not behind any time in the log. -/
def ClockNotBehind (db : Database) (now : ℕ) : Prop := ∀ a ∈ db.approvals, a.createdAt ≤ now

instance (db : Database) (now : ℕ) : Decidable (ClockNotBehind db now) :=
  inferInstanceAs (Decidable (∀ a ∈ db.approvals, a.createdAt ≤ now))

section Order

variable {db db' : Database} {now : ℕ} {systemId : String} {a : PromotionApprovalRecord}

/-- A row that is committed when the clock is not behind is the last one. -/
theorem LogInOrder.commit (h : LogInOrder db) (hc : Commits db db' now systemId a)
    (hclock : ClockNotBehind db now) : LogInOrder db' := by
  have hnew := hc.id
  refine ⟨?_, fun b hb => ?_⟩
  · rw [hc.approvals]
    refine List.pairwise_append.mpr ⟨h.sorted, List.pairwise_singleton _ _, ?_⟩
    intro b hb b' hb'
    rw [List.mem_singleton.mp hb']
    unfold approvalOrder
    rw [Prod.Lex.toLex_le_toLex, hc.stamp]
    have hid := h.ids b hb
    have hstamp := hclock b hb
    dsimp only
    omega
  · rw [hc.approvals] at hb ⊢
    rw [List.length_append, List.length_singleton]
    rcases List.mem_append.mp hb with hb | hb
    · have hid := h.ids b hb
      omega
    · rw [List.mem_singleton.mp hb]
      omega

/-- A log in order is read as it was committed. -/
theorem LogInOrder.productionLog (h : LogInOrder db) (systemId : String) :
    NeuroForge.productionLog db systemId =
      (committedApprovals db systemId).map approvalEvent := by
  have hsorted := h.sorted.filter fun a => systemOf db a.genomeHash = some systemId
  unfold NeuroForge.productionLog systemApprovals
  rw [hsorted.insertionSort_eq]
  rfl

/-- A production change is the last event of its application's log. -/
theorem Commits.productionLog (hc : Commits db db' now systemId a) (h : LogInOrder db)
    (h' : LogInOrder db') : NeuroForge.productionLog db' systemId =
      NeuroForge.productionLog db systemId ++ [approvalEvent a] := by
  rw [h'.productionLog, hc.committedApprovals, List.map_append, List.map_singleton,
    h.productionLog]

theorem Commits.productionLog_of_ne (hc : Commits db db' now systemId a) {other : String}
    (hne : systemId ≠ other) :
    NeuroForge.productionLog db' other = NeuroForge.productionLog db other :=
  congrArg (fun rows => (rows.insertionSort approvalOrder).map approvalEvent)
    (hc.committedApprovals_of_ne hne)

end Order

/-! ## Histories -/

/-- A database whose log is in order and never promoted a champion again. -/
structure Ordered (p : Platform) (db : Database) : Prop extends Sound p db where
  inOrder : LogInOrder db
  noRepush : ∀ systemId, StackReplay.NoRepush (productionLog db systemId)

section History

variable {p : Platform} {db : Database}

theorem ordered_empty (p : Platform) : Ordered p {} where
  toSound := sound_empty p
  inOrder := ⟨List.Pairwise.nil, fun a ha => by simp at ha⟩
  noRepush := fun systemId => StackReplay.noRepush_nil

theorem Ordered.preserved {db' : Database} (h : Ordered p db)
    (hnew : WellFormed p.genomeDigest db' ∧ Preserves db db') : Ordered p db' where
  toSound := h.toSound.preserved hnew
  inOrder := ⟨hnew.2.log.approvals ▸ h.inOrder.sorted, hnew.2.log.approvals ▸ h.inOrder.ids⟩
  noRepush := fun systemId => by
    rw [hnew.2.log.productionLog h.wellFormed.known]
    exact h.noRepush systemId

/-- A production change whose clock is not behind: the event goes to the end of the log. -/
theorem Ordered.commit {db' : Database} (h : Ordered p db) (hsound : Sound p db') {now : ℕ}
    {systemId : String} {a : PromotionApprovalRecord} (hc : Commits db db' now systemId a)
    (hclock : ClockNotBehind db now) : Ordered p db' := by
  have horder := h.inOrder.commit hc hclock
  refine ⟨hsound, horder, fun other => ?_⟩
  by_cases hother : systemId = other
  · subst hother
    rw [hc.productionLog h.inOrder horder]
    refine (h.noRepush systemId).concat fun x hx htop => ?_
    have hchanges := hc.changes
    rw [hx, productionHashes_eq] at hchanges
    exact hchanges htop
  · rw [hc.productionLog_of_ne hother]
    exact h.noRepush other

/-- A request whose clock is not behind keeps the log in order. -/
theorem Served.ordered (h : Ordered p db) {now : ℕ} {request : Request} {db' : Database}
    (hserved : Served p db now request db') (hposs : Possible db request)
    (hclock : ClockNotBehind db now) : Ordered p db' := by
  have hsound := hserved.sound h.toSound hposs
  rcases hserved.commits h.toSound hposs with hpreserves | ⟨systemId, a, hc⟩
  · exact h.preserved ⟨hsound.wellFormed, hpreserves⟩
  · exact h.commit hsound hc hclock

/-- Every history whose clock does not run backwards leaves a log in order. -/
theorem ordered_of_history {history : List Timed}
    (hclock : Transition.Guarded (serialStep p) (fun db t => ClockNotBehind db t.now) {} history)
    (h : Transition.run (serialStep p) {} history = some db) : Ordered p db := by
  refine Transition.run_invariant_of_guarded (fun s t s' hs hok hstep => ?_)
    (ordered_empty p) hclock h
  obtain ⟨hposs, hserved⟩ := serialStep_did hstep
  exact hserved.ordered hs hposs hok

/-- A rollback finds the champion, and its event goes to the end of the log. -/
theorem rollbackProduction_ok (hlog : LogInOrder db) {systemId : String} {now : ℕ}
    (hclock : ClockNotBehind db now) {champion : GenomeRecord}
    (hchampion : currentChampion db systemId = some champion) (approvedBy : String) :
    ∃ outcome db', rollbackProduction db systemId approvedBy now = .ok (outcome, db') ∧
      outcome.rolledBack = champion ∧
      outcome.restored.map (·.hash) = (productionHashes db systemId).dropLast.getLast? ∧
      productionHashes db' systemId =
        StackReplay.replay (productionLog db systemId ++ [.remove champion.hash]) := by
  have htop : (productionHashes db systemId).getLast? = some champion.hash := by
    rw [getLast?_productionHashes, hchampion]
    rfl
  have hc : Commits db (reconcileProductionStatuses
      (db.savePromotionApproval champion.hash none approvedBy .rollback now) db.statusOf
      systemId) now systemId _ :=
    commits_of_change (systemOf_champion hchampion) none approvedBy .rollback htop
  unfold rollbackProduction championToRollBack
  rw [hchampion]
  refine ⟨_, _, rfl, rfl, ?_, ?_⟩
  · unfold productionHashes
    rw [← List.map_dropLast, List.getLast?_map]
  · rw [productionHashes_eq]
    exact congrArg StackReplay.replay (hc.productionLog hlog (hlog.commit hc hclock))

end History

/-! ## What a rollback restores -/

/-- **A rollback restores what the champion replaced, unless that was itself rolled back.**
    In every history whose clock does not run backwards, let the log be split at the last
    promotion of the champion. A rollback restores the newest genome that was in the stack
    just before it, other than the champion, and has not been rolled back since; it is the
    champion afterwards. Where the genome that was in production just before has not been
    rolled back since, it is that genome; where there was none, the original runs again. -/
theorem rollback_restores (p : Platform) (history : List Timed) (db : Database)
    (hclock : Transition.Guarded (serialStep p) (fun db t => ClockNotBehind db t.now) {} history)
    (hrun : Transition.run (serialStep p) {} history = some db) (systemId : String)
    (champion : GenomeRecord) (hchampion : currentChampion db systemId = some champion)
    (approvedBy : String) (now : ℕ) (hnow : ClockNotBehind db now) :
    ∃ pre post outcome db',
      StackReplay.splitLastPush champion.hash (productionLog db systemId) = some (pre, post) ∧
      rollbackProduction db systemId approvedBy now = .ok (outcome, db') ∧
      outcome.rolledBack = champion ∧
      outcome.restored.map (·.hash) = ((StackReplay.replay pre).filter fun hash =>
        hash ≠ champion.hash ∧ .remove hash ∉ post).getLast? ∧
      (currentChampion db' systemId).map (·.hash) = outcome.restored.map (·.hash) ∧
      (∀ before, (StackReplay.replay pre).getLast? = some before → .remove before ∉ post →
        outcome.restored.map (·.hash) = some before) ∧
      ((StackReplay.replay pre).getLast? = none → outcome.restored = none) := by
  have h := ordered_of_history hclock hrun
  have htop : (StackReplay.replay (productionLog db systemId)).getLast? =
      some champion.hash := by
    rw [← productionHashes_eq, getLast?_productionHashes, hchampion]
    rfl
  obtain ⟨outcome, db', hrollback, hrolled, hrestored, hafter⟩ :=
    rollbackProduction_ok h.inOrder hnow hchampion approvedBy
  rcases hsplit : StackReplay.splitLastPush champion.hash (productionLog db systemId) with
    _ | ⟨pre, post⟩
  · -- a champion has been promoted
    have hpush := StackReplay.push_of_mem_replay (List.mem_of_getLast? htop)
    exact absurd hpush (StackReplay.splitLastPush_eq_none.mp hsplit)
  · have huncover := StackReplay.replay_uncover hsplit htop
    have hunder : outcome.restored.map (·.hash) = ((StackReplay.replay pre).filter fun hash =>
        hash ≠ champion.hash ∧ .remove hash ∉ post).getLast? := by
      rw [hrestored, productionHashes_eq, ← StackReplay.replay_remove_top htop, huncover]
    refine ⟨pre, post, outcome, db', rfl, hrollback, hrolled, hunder, ?_, ?_, ?_⟩
    · rw [← getLast?_productionHashes, hafter, huncover, hunder]
    · intro before hbefore hkept
      obtain ⟨heq, -⟩ := StackReplay.splitLastPush_eq_some hsplit
      have hne : before ≠ champion.hash := by
        rintro rfl
        exact h.noRepush systemId pre _ post heq hbefore
      rw [hunder]
      obtain ⟨rest, hrest⟩ := List.getLast?_eq_some_iff.mp hbefore
      rw [hrest, List.filter_append, List.filter_cons_of_pos (by simp [hne, hkept]),
        List.filter_nil, List.getLast?_append_of_ne_nil _ (by simp)]
      rfl
    · intro hnone
      rw [List.getLast?_eq_none_iff.mp hnone] at hunder
      exact Option.map_eq_none_iff.mp hunder

/-- A second genome is promoted over the example's. -/
def promotedOver : List Timed :=
  exampleHistory ++ [
    ⟨6, exampleCreate exp2 "champion" 2 usualFloor⟩,
    ⟨7, .runExperiment "exp-2" none
      (.ok (exampleResult { exampleBetter with status := .promoted } exampleBest))⟩,
    ⟨8, .requestPromotion "exp-2" "app-45"⟩, ⟨9, exampleCanary "app-45"⟩,
    ⟨10, .finalizePromotion "app-45" (some "exp-2") "admin"⟩]

/-- Then the first is promoted again over the second, and rolled back. -/
def promotedAgain : List Timed :=
  promotedOver ++ [
    ⟨11, exampleCreate exp3 "champion" 3 usualFloor⟩,
    ⟨12, .runExperiment "exp-3" none
      (.ok (exampleResult { exampleBest with status := .promoted } exampleBetter))⟩,
    ⟨13, .requestPromotion "exp-3" "app-40"⟩,
    ⟨14, .finalizePromotion "app-40" (some "exp-3") "admin"⟩,
    ⟨15, .rollbackPromotion "app" "admin"⟩]

theorem promotedAgain_run : ∃ db champion,
    Transition.run (serialStep examplePlatform) {} promotedAgain = some db ∧
      currentChampion db "app" = some champion ∧ champion.hash = "app-45" ∧
      productionLog db "app" =
        [.push "app-40", .push "app-45", .push "app-40", .remove "app-40"] ∧
      ClockNotBehind db 16 ∧
      ((rollbackProduction db "app" "admin" 16).toOption.map
        fun rollback => rollback.1.restored.map (·.hash)) = some none := by
  have hrun : ((Transition.run (serialStep examplePlatform) {} promotedAgain).map fun db =>
      ((currentChampion db "app").map (·.hash), productionLog db "app",
        decide (ClockNotBehind db 16),
        (rollbackProduction db "app" "admin" 16).toOption.map
          fun rollback => rollback.1.restored.map (·.hash))) =
      some (some "app-45", [.push "app-40", .push "app-45", .push "app-40", .remove "app-40"],
        true, some none) := by
    decide +kernel
  obtain ⟨db, hdb, hvalues⟩ := Option.map_eq_some_iff.mp hrun
  obtain ⟨hchampion, hlog, hclock, hrestored⟩ := by
    simpa only [Prod.mk.injEq] using hvalues
  obtain ⟨champion, hfound, hhash⟩ := Option.map_eq_some_iff.mp hchampion
  exact ⟨db, champion, hdb, hfound, hhash, hlog, of_decide_eq_true hclock, hrestored⟩

/-- It is not always the predecessor: here the genome in production just before the
    champion's last promotion was promoted again and rolled back, and nothing is restored. -/
theorem rollback_restores_predecessor_fails : ¬ ∀ (p : Platform) (history : List Timed)
    (db : Database),
    Transition.Guarded (serialStep p) (fun db t => ClockNotBehind db t.now) {} history →
    Transition.run (serialStep p) {} history = some db →
    ∀ (systemId : String) (champion : GenomeRecord),
      currentChampion db systemId = some champion →
      ∀ (approvedBy : String) (now : ℕ), ClockNotBehind db now →
      ∀ pre post, StackReplay.splitLastPush champion.hash (productionLog db systemId) =
        some (pre, post) →
      ∃ outcome db', rollbackProduction db systemId approvedBy now = .ok (outcome, db') ∧
        outcome.restored.map (·.hash) = (StackReplay.replay pre).getLast? := by
  intro hall
  obtain ⟨db, champion, hrun, hchampion, hhash, hlog, hclock, hrestored⟩ := promotedAgain_run
  have hsplit : StackReplay.splitLastPush champion.hash (productionLog db "app") =
      some ([.push "app-40"], [.push "app-40", .remove "app-40"]) := by
    rw [hhash, hlog]
    decide
  obtain ⟨outcome, db', hrollback, hpredecessor⟩ := hall examplePlatform promotedAgain db
    (by decide +kernel) hrun "app" champion hchampion "admin" 16 hclock _ _ hsplit
  rw [hrollback] at hrestored
  have hnone : outcome.restored.map (·.hash) = none := Option.some.inj hrestored
  rw [hnone] at hpredecessor
  exact absurd hpredecessor (by decide)

/-- Reads off the champion, the log and the clock that a history leaves. -/
theorem champion_of_run {history : List Timed} {now : ℕ} {hash : String}
    {log : List (StackReplay.Event String)}
    (h : ((Transition.run (serialStep examplePlatform) {} history).map fun db =>
      ((currentChampion db "app").map (·.hash), productionLog db "app",
        decide (ClockNotBehind db now))) = some (some hash, log, true)) :
    ∃ db champion, Transition.run (serialStep examplePlatform) {} history = some db ∧
      currentChampion db "app" = some champion ∧ champion.hash = hash ∧
      productionLog db "app" = log ∧ ClockNotBehind db now := by
  obtain ⟨db, hdb, hvalues⟩ := Option.map_eq_some_iff.mp h
  obtain ⟨hchampion, hlog, hclock⟩ := by simpa only [Prod.mk.injEq] using hvalues
  obtain ⟨champion, hfound, hhash⟩ := Option.map_eq_some_iff.mp hchampion
  exact ⟨db, champion, hdb, hfound, hhash, hlog, of_decide_eq_true hclock⟩

/-- The champion promoted over the example's is rolled back and the example's restored; the
    example's is rolled back and the original runs again. -/
theorem rollback_restores_original :
    (∃ db outcome db', Transition.run (serialStep examplePlatform) {} promotedOver = some db ∧
      rollbackProduction db "app" "admin" 11 = .ok (outcome, db') ∧
      outcome.restored.map (·.hash) = some "app-40") ∧
    ∃ db outcome db', Transition.run (serialStep examplePlatform) {} exampleHistory = some db ∧
      rollbackProduction db "app" "admin" 6 = .ok (outcome, db') ∧ outcome.restored = none := by
  constructor
  · obtain ⟨db, champion, hdb, hfound, hhash, hlog, hclock⟩ :=
      @champion_of_run promotedOver 11 "app-45" [.push "app-40", .push "app-45"]
        (by decide +kernel)
    obtain ⟨pre, post, outcome, db', hsplit, hrollback, -, -, -, hbefore, -⟩ :=
      rollback_restores examplePlatform promotedOver db (by decide +kernel) hdb "app" champion
        hfound "admin" 11 hclock
    rw [hhash, hlog] at hsplit
    obtain ⟨hpre, hpost⟩ := Prod.mk.inj (Option.some.inj hsplit.symm)
    refine ⟨db, outcome, db', hdb, hrollback, hbefore "app-40" ?_ ?_⟩
    · rw [hpre]
      decide
    · rw [hpost]
      decide
  · obtain ⟨db, champion, hdb, hfound, hhash, hlog, hclock⟩ :=
      @champion_of_run exampleHistory 6 "app-40" [.push "app-40"] (by decide +kernel)
    obtain ⟨pre, post, outcome, db', hsplit, hrollback, -, -, -, -, hnone⟩ :=
      rollback_restores examplePlatform exampleHistory db (by decide +kernel) hdb "app" champion
        hfound "admin" 6 hclock
    rw [hhash, hlog] at hsplit
    have hpre : pre = [] := congrArg Prod.fst (Option.some.inj hsplit.symm)
    exact ⟨db, outcome, db', hdb, hrollback, hnone (by rw [hpre]; rfl)⟩

end NeuroForge
