/-
  What the gates come to for what is in production: the stack ascends in measured quality.

  A promotion wants the baseline its approval was measured against to be what is in
  production, so it puts a better genome on top (`promoteToProduction_better`); a rollback
  takes one out. Of reviews on one dataset version, `production_ascends` draws from this that
  each genome of the stack, from the original up, is measured better than every one beneath
  it, and how much the champion has gained on the original.
-/
import NeuroForge.Service.Evidenced
import NeuroForge.Service.HoldoutReuse
import NeuroForge.Service.Rollback

namespace NeuroForge

open Fallible Database Transition Sample

/-! ## The stack -/

/-- What runs or would run again after rollbacks, from the original up. -/
def standing (db : Database) (systemId : String) : List String :=
  ((originalBaseline db systemId).map (·.hash)).toList ++ productionHashes db systemId

/-- Every genome of the stack is measured better than those beneath it. -/
def Ascends (p : Platform) (dataset : DatasetVersion) (db : Database) (systemId : String) : Prop :=
  (standing db systemId).Pairwise (MeasuredBetter p dataset db systemId)

section Stack

variable {p : Platform} {dataset : DatasetVersion} {systemId : String} {db db' : Database}

/-- What is in production stands on top. -/
theorem getLast?_standing : (standing db systemId).getLast? = productionHash db systemId := by
  unfold standing
  rw [productionHash_eq, List.getLast?_append]
  cases originalBaseline db systemId with
  | none => rfl
  | some r => rfl

theorem ascends_empty : Ascends p dataset {} systemId := List.Pairwise.nil

/-- Where the log is kept the stack is kept; an application may get its original. -/
theorem Ascends.preserved (hwf : WellFormed p.genomeDigest db) (hpreserves : Preserves db db')
    (hkeeps : KeepsMeasure db db') (h : Ascends p dataset db systemId) :
    Ascends p dataset db' systemId := by
  have hstack : productionHashes db' systemId = productionHashes db systemId := by
    rw [productionHashes_eq, hpreserves.log.productionLog hwf.known, productionHashes_eq]
  cases horiginal : originalBaseline db systemId with
  | some r =>
      obtain ⟨r', hr', hhash⟩ := hpreserves.log.originals systemId r horiginal
      have hsame : standing db' systemId = standing db systemId := by
        rw [standing, standing, hstack, hr', horiginal, Option.map_some, Option.map_some, hhash]
      unfold Ascends
      rw [hsame]
      exact h.imp fun hbetter => hkeeps.measuredBetter hbetter
  | none =>
      -- no genome is stored, so none is in the stack
      have hnil : productionHashes db systemId = [] := by
        refine List.eq_nil_iff_forall_not_mem.mpr fun hash hmem => ?_
        obtain ⟨r, hr⟩ := hwf.original _ _ (systemOf_of_mem_productionHashes hmem)
        rw [hr] at horiginal
        cases horiginal
      unfold Ascends standing
      rw [hstack, hnil, List.append_nil]
      cases originalBaseline db' systemId with
      | none => exact List.Pairwise.nil
      | some r => exact List.pairwise_singleton _ _

/-- A production change that only puts a better genome on top. -/
theorem Ascends.change (h : Ascends p dataset db systemId) (hinOrder : LogInOrder db)
    (hinOrder' : LogInOrder db') (hkeeps : KeepsMeasure db db')
    (horiginal : (originalBaseline db' systemId).map (·.hash) =
      (originalBaseline db systemId).map (·.hash))
    {now : ℕ} {owner : String} {a : PromotionApprovalRecord} (hc : Commits db db' now owner a)
    (hbetter : owner = systemId → ∀ hash, approvalEvent a = .push hash →
      ∀ top, productionHash db systemId = some top →
        MeasuredBetter p dataset db systemId top hash) :
    Ascends p dataset db' systemId := by
  unfold Ascends standing
  rw [horiginal, productionHashes_eq]
  by_cases howner : owner = systemId
  · subst howner
    rw [hc.productionLog hinOrder hinOrder', StackReplay.replay_concat, ← productionHashes_eq]
    have htrans : ∀ x y z, MeasuredBetter p dataset db owner x y →
        MeasuredBetter p dataset db owner y z → MeasuredBetter p dataset db owner x z :=
      fun _ _ _ => MeasuredBetter.trans
    have hstack := StackReplay.pairwise_apply htrans h (e := approvalEvent a)
      fun hash hpush top htop => hbetter rfl hash hpush top (by
        rw [← getLast?_standing]
        exact htop)
    exact hstack.imp fun hab => hkeeps.measuredBetter hab
  · rw [hc.productionLog_of_ne howner, ← productionHashes_eq]
    exact h.imp fun hab => hkeeps.measuredBetter hab

/-- What a promotion puts on top is measured better than what is in production. -/
theorem promoteToProduction_better (howned : Owned p db) (h : Evidenced p dataset systemId db)
    {genomeHash : String} {experimentId : Option String} {approvedBy : String} {now : ℕ}
    {outcome : PromotionOutcome}
    (hpromote : promoteToProduction db genomeHash experimentId approvedBy now =
      .ok (outcome, db')) :
    ∃ genome, db.getGenomeRecord genome.hash = some genome ∧ genome.status ≠ .promoted ∧
      db' = reconcileProductionStatuses
        (db.savePromotionApproval genome.hash experimentId approvedBy .promote now) db.statusOf
        genome.systemId ∧
      (genome.systemId = systemId → ∀ top, productionHash db systemId = some top →
        MeasuredBetter p dataset db systemId top genome.hash) := by
  unfold promoteToProduction at hpromote
  obtain ⟨genome, hgenome, hpromote⟩ := bind_eq_ok.mp hpromote
  obtain ⟨_, hstatus, hpromote⟩ := bind_eq_ok.mp hpromote
  obtain ⟨d, hdecision, hpromote⟩ := bind_eq_ok.mp hpromote
  obtain ⟨_, -, hpromote⟩ := bind_eq_ok.mp hpromote
  obtain ⟨_, hvalidated, hpromote⟩ := bind_eq_ok.mp hpromote
  rw [pure_eq_ok] at hpromote
  obtain ⟨-, rfl⟩ := Prod.mk.inj hpromote
  have hget := loadGenome_ok hgenome
  have hhash := hash_of_getGenomeRecord hget
  refine ⟨genome, hhash ▸ hget, ?_, rfl, fun hsystem top htop => ?_⟩
  · unfold checkNotPromoted at hstatus
    split_ifs at hstatus with hpromoted
    exact hpromoted
  · obtain ⟨hlatest, happroved⟩ := approvedDecision_ok hdecision
    obtain ⟨hmem, hsubject⟩ := latestPromotionDecision_mem hlatest
    obtain ⟨e, hid, he, howner⟩ := howned.decided d hmem
    rcases h.approved d hmem with ⟨other, hother, hne⟩ | hgains
    · rw [hsubject, systemOf, hget, Option.map_some, hsystem] at hother
      exact absurd (Option.some.inj hother).symm hne
    · obtain ⟨baseline, hbaseline, hbetter⟩ := hgains happroved
      have hstarted : validatedAgainst db genome = some baseline := by
        rw [recordBaseline, hid, Option.bind_some, he, Option.bind_some] at hbaseline
        rw [validatedAgainst, hhash, hlatest, Option.bind_some,
          validatedBy_own howned.wellFormed hid he, startedFrom, hbaseline]
      unfold ensureValidatedAgainstProduction at hvalidated
      rw [hstarted] at hvalidated
      rw [hsubject, ← hhash] at hbetter
      have hexpected : productionHash db genome.systemId = some top := by
        rw [hsystem]
        exact htop
      rw [← checkValidated_ok hexpected hvalidated]
      exact hbetter

/-- A promotion of a better genome, or of one of another application. -/
theorem Ascends.promoted (h : Ascends p dataset db systemId) (hsound : Sound p db)
    (hinOrder : LogInOrder db) {genome : GenomeRecord}
    (hrow : db.getGenomeRecord genome.hash = some genome) (hstatus : genome.status ≠ .promoted)
    (experimentId : Option String) (approvedBy : String) {now : ℕ} (hclock : ClockNotBehind db now)
    (hbetter : genome.systemId = systemId → ∀ top, productionHash db systemId = some top →
      MeasuredBetter p dataset db systemId top genome.hash) :
    Ascends p dataset (reconcileProductionStatuses
      (db.savePromotionApproval genome.hash experimentId approvedBy .promote now) db.statusOf
      genome.systemId) systemId := by
  have hsys := systemOf_of_row hrow
  -- what is not PROMOTED is not on top
  have hnot : (productionHashes db genome.systemId).getLast? ≠ some genome.hash := by
    intro htop
    rw [← hsound.agree.promoted_iff hsys, statusOf, hrow] at htop
    exact hstatus (Option.some.inj htop)
  have hc : Commits db (reconcileProductionStatuses
      (db.savePromotionApproval genome.hash experimentId approvedBy .promote now) db.statusOf
      genome.systemId) now genome.systemId _ :=
    commits_of_change hsys experimentId approvedBy .promote hnot
  refine h.change hinOrder (hinOrder.commit hc hclock) (keepsMeasure_change ..)
    (originalBaseline_congr (eraseStatus_reconcile _) _) hc fun howner hash hpush top htop => ?_
  obtain rfl : genome.hash = hash := StackReplay.Event.push.inj hpush
  exact hbetter howner top htop

/-- A rollback takes one genome out. -/
theorem Ascends.rolledBack (h : Ascends p dataset db systemId) (hinOrder : LogInOrder db)
    {owner : String} {champion : GenomeRecord} (hchampion : currentChampion db owner = some champion)
    (approvedBy : String) {now : ℕ} (hclock : ClockNotBehind db now) :
    Ascends p dataset (reconcileProductionStatuses
      (db.savePromotionApproval champion.hash none approvedBy .rollback now) db.statusOf
      owner) systemId := by
  have htop : (productionHashes db owner).getLast? = some champion.hash := by
    rw [getLast?_productionHashes, hchampion]
    rfl
  have hc : Commits db (reconcileProductionStatuses
      (db.savePromotionApproval champion.hash none approvedBy .rollback now) db.statusOf
      owner) now owner _ :=
    commits_of_change (systemOf_champion hchampion) none approvedBy .rollback htop
  refine h.change hinOrder (hinOrder.commit hc hclock) (keepsMeasure_change ..)
    (originalBaseline_congr (eraseStatus_reconcile _) _) hc fun _ hash hpush => ?_
  cases hpush

/-- What carries the result along a history. -/
structure Ascending (p : Platform) (dataset : DatasetVersion) (systemId : String)
    (db : Database) : Prop where
  ordered : Ordered p db
  owned : Owned p db
  evidenced : Evidenced p dataset systemId db
  ascends : Ascends p dataset db systemId

/-- A promotion that is asked for: it is refused, or it puts a better genome on top. -/
theorem Ascending.finalized (h : Ascending p dataset systemId db) (genomeHash : String)
    (experimentId : Option String) (approvedBy : String) {now : ℕ}
    (hclock : ClockNotBehind db now) :
    Ascends p dataset (serve p db ⟨now, .finalizePromotion genomeHash experimentId approvedBy⟩).2
      systemId := by
  unfold serve
  dsimp only
  rcases hresult : promoteToProduction db genomeHash experimentId approvedBy now with
    e | ⟨outcome, promoted⟩
  · exact h.ascends
  · obtain ⟨genome, hrow, hstatus, rfl, hbetter⟩ :=
      promoteToProduction_better h.owned h.evidenced hresult
    exact h.ascends.promoted h.owned.toSound h.ordered.inOrder hrow hstatus _ _ hclock hbetter

/-- One request, whose clock is not behind and whose review, if it is one of the application,
    is on the dataset version. -/
theorem Ascending.step (h : Ascending p dataset systemId db) {t : Timed}
    (hclock : ClockNotBehind db t.now) (hon : ReviewsOn dataset systemId db t.request)
    (hstep : serialStep p db t = some db') : Ascending p dataset systemId db' := by
  obtain ⟨hposs, hserved⟩ := serialStep_did hstep
  have hsound := h.owned.toSound
  have hordered := hserved.ordered h.ordered hposs hclock
  have hkeeps := hserved.keepsMeasure
  refine ⟨hordered, hserved.owned h.owned hposs, hserved.evidenced hsound hposs hon h.evidenced, ?_⟩
  by_cases hchange : t.request.IsProductionChange
  · obtain ⟨now, request⟩ := t
    cases request with
    | finalizePromotion genomeHash experimentId approvedBy =>
        have hdb : (serve p db ⟨now, .finalizePromotion genomeHash experimentId approvedBy⟩).2 =
            db' := by
          unfold serialStep at hstep
          split_ifs at hstep
          exact Option.some.inj hstep
        rw [← hdb]
        exact h.finalized genomeHash experimentId approvedBy hclock
    | rollbackPromotion owner approvedBy =>
        cases hserved with
        | unchanged => exact h.ascends
        | rolledBack hchampion =>
            exact h.ascends.rolledBack h.ordered.inOrder hchampion approvedBy hclock
    | _ => exact absurd hchange id
  · exact h.ascends.preserved hsound.wellFormed
      (hserved.preserves hsound.wellFormed hposs hchange).2 hkeeps

end Stack

/-- **Production ascends in measured quality.** Take any history whose clock does not run
    backwards and whose reviews of one application are all on one dataset version and under
    the significance requirement. Of the original and the genomes promoted since and not
    rolled back, each is measured on the holdout split better than every one beneath it, by
    the least improvement at least. So the quality of the champion is that of the original,
    times the factor of the least improvement for every genome of the stack, or more. -/
theorem production_ascends (p : Platform) (dataset : DatasetVersion) (systemId : String)
    (history : List Timed) (db : Database)
    (hguarded : Guarded (serialStep p) (fun db t => ClockNotBehind db t.now ∧
      ReviewsOn dataset systemId db t.request) {} history)
    (hrun : run (serialStep p) {} history = some db) :
    (standing db systemId).Pairwise (MeasuredBetter p dataset db systemId) ∧
      ∀ original champion scores scores',
        originalBaseline db systemId = some original →
        currentChampion db systemId = some champion →
        holdoutScores p dataset db systemId original.hash = some scores →
        holdoutScores p dataset db systemId champion.hash = some scores' →
        (1 + leastImprovement) ^ (productionHashes db systemId).length * mean scores ≤
          mean scores' := by
  have hempty : Ascending p dataset systemId {} :=
    ⟨ordered_empty p, owned_empty p, evidenced_empty, ascends_empty⟩
  have h : Ascending p dataset systemId db :=
    run_invariant_of_guarded (fun s t s' hs hok hstep => hs.step hok.1 hok.2 hstep) hempty
      hguarded hrun
  refine ⟨h.ascends, fun original champion scores scores' horiginal hchampion hscores hscores' => ?_⟩
  -- the mean of a genome, for the list
  have hmean : ∀ hash scores, holdoutScores p dataset db systemId hash = some scores →
      mean ((holdoutScores p dataset db systemId hash).getD []) = mean scores := by
    intro hash scores hscores
    rw [hscores, Option.getD_some]
  have hstanding : standing db systemId = original.hash :: productionHashes db systemId := by
    rw [standing, horiginal]
    rfl
  have hpos : (0 : ℚ) ≤ leastImprovement := by
    unfold leastImprovement
    norm_num
  have hpairs : (original.hash :: productionHashes db systemId).Pairwise fun worse better =>
      (1 + leastImprovement) * mean ((holdoutScores p dataset db systemId worse).getD []) ≤
        mean ((holdoutScores p dataset db systemId better).getD []) := by
    rw [← hstanding]
    refine h.ascends.imp fun hbetter => ?_
    obtain ⟨worse, better, hworse, hbetter, hgains⟩ := hbetter
    rw [hmean _ _ hworse, hmean _ _ hbetter]
    exact hgains.mul_mean_le hpos
  have htop : (original.hash :: productionHashes db systemId).getLast? = some champion.hash := by
    rw [← hstanding, getLast?_standing, productionHash, inProduction, hchampion]
    rfl
  have hgrown := pow_mul_le_of_pairwise (by linarith) hpairs htop
  rw [hmean _ _ hscores, hmean _ _ hscores'] at hgrown
  exact hgrown

/-! ## Two promotions -/

section Example

/-- The examples' platform with a generator that draws one position. -/
def pointPlatform : Platform := platformWith seededNumpy topKEvaluator

/-- An experiment under the default gates. -/
def strictCreate (experimentId : Identifier) (seed : ℤ) : Request :=
  .createExperiment
    { exampleBody experimentId "champion" seed usualFloor with promotionGates := none }

/-- A better genome is promoted over the original, and one that is better still over it. -/
def twicePromoted : List Timed :=
  [⟨1, strictCreate exp1 1⟩, ⟨2, exampleRun⟩, ⟨3, .requestPromotion "exp-1" "app-40"⟩,
    ⟨4, exampleCanary "app-40"⟩, ⟨5, .finalizePromotion "app-40" (some "exp-1") "admin"⟩,
    ⟨6, strictCreate exp2 2⟩,
    ⟨7, .runExperiment "exp-2" none
      (.ok (exampleResult { exampleBetter with status := .promoted } exampleBest))⟩,
    ⟨8, .requestPromotion "exp-2" "app-45"⟩, ⟨9, exampleCanary "app-45"⟩,
    ⟨10, .finalizePromotion "app-45" (some "exp-2") "admin"⟩]

theorem production_ascends_twice : ∃ db,
    run (serialStep pointPlatform) {} twicePromoted = some db ∧
      standing db "app" = ["app-5", "app-40", "app-45"] ∧
      MeasuredBetter pointPlatform { exampleDataset with datasetId := "app-dataset" } db "app"
        "app-5" "app-45" := by
  have hrun : ((run (serialStep pointPlatform) {} twicePromoted).map
      fun db => standing db "app") = some ["app-5", "app-40", "app-45"] := by
    decide +kernel
  obtain ⟨db, hdb, hstanding⟩ := Option.map_eq_some_iff.mp hrun
  obtain ⟨hascends, -⟩ := production_ascends pointPlatform
    { exampleDataset with datasetId := "app-dataset" } "app" twicePromoted db
    (by decide +kernel) hdb
  rw [hstanding] at hascends
  exact ⟨db, hdb, hstanding, (List.pairwise_cons.mp hascends).1 "app-45" (by decide)⟩

end Example

end NeuroForge
