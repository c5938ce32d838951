/-
  What the lists of the API say about production: `_production_summary` and
  `_baseline_is_current` of `main.py`.

  The summary of an application names the champion with the row of the approval log that put
  it there: the last row of the log on that genome, a promotion (`summary_names_its_row`). An
  experiment is listed as current where it began from what is in production now. The list
  looks that up once for each application and remembers it, which changes no answer
  (`listed_as_plain`); and a promotion whose other checks pass is refused as stale exactly
  where the experiment of its decision is not listed as current (`finalize_mirrors_list`),
  because every decision is on a genome of its experiment's application (`Owned`).
-/
import NeuroForge.Service.CommitOrder
import NeuroForge.Service.Numbering
import NeuroForge.Service.Validated

namespace NeuroForge

open Fallible Database Transition

/-! ## The code -/

structure ProductionSummary where
  genomeHash : String
  version : ℕ
  promotedAt : Option ℕ
  promotedBy : Option String
  deriving DecidableEq

section Definitions

variable (db : Database)

/-- When and by whom a genome was promoted, as the loop over the log leaves it. -/
def lastPromotion (hash : String) (events : List (PromotionApprovalRecord × GenomeRecord)) :
    Option (ℕ × String) :=
  events.foldl (fun found event =>
    if event.2.hash = hash ∧ event.1.action.getD .promote = .promote then
      some (event.1.createdAt, event.1.approvedBy)
    else found) none

/-- `_production_summary` -/
def productionSummary (systemId : String) : Option ProductionSummary :=
  (currentChampion db systemId).map fun champion =>
    let promotion := lastPromotion champion.hash (db.listProductionEvents systemId)
    { genomeHash := champion.hash
      version := champion.version
      promotedAt := promotion.map Prod.fst
      promotedBy := promotion.map Prod.snd }

/-- The hash of what is in production. -/
def expectedBaseline (systemId : String) : Option String :=
  (inProduction db systemId).map (·.hash)

/-- The genome an experiment started from, the v1 if none is recorded. -/
def startedFrom (record : ExperimentRecord) : Option String :=
  match record.config.baselineHash with
  | some hash => some hash
  | none => (originalBaseline db record.applicationId).map (·.hash)

/-- The comparison of `_baseline_is_current`. -/
def isCurrent (expected : Option String) (record : ExperimentRecord) : Bool :=
  expected.isNone || startedFrom db record == expected

/-- `_baseline_is_current`, with the cache it may fill. -/
def baselineIsCurrent (record : ExperimentRecord) (cache : Dict String (Option String)) :
    Bool × Dict String (Option String) :=
  let cache := match Dict.get? cache record.applicationId with
    | some _ => cache
    | none => Dict.set cache record.applicationId (expectedBaseline db record.applicationId)
  (isCurrent db (Dict.getD cache record.applicationId none) record, cache)

/-- The flags of a list of experiments, with one cache for all of them. -/
def listCurrent : List ExperimentRecord → Dict String (Option String) → List Bool
  | [], _ => []
  | record :: records, cache =>
      let (current, cache) := baselineIsCurrent db record cache
      current :: listCurrent records cache

end Definitions

/-! ## The summary of production -/

section Summary

variable {db : Database} {systemId : String}

/-- A loop that keeps the last match. -/
theorem foldl_last {α β : Type} {q : α → Prop} [DecidablePred q] {f : α → β}
    {pre post : List α} {a : α} (ha : q a) (hpost : ∀ b ∈ post, ¬ q b) (start : Option β) :
    (pre ++ a :: post).foldl (fun found x => if q x then some (f x) else found) start =
      some (f a) := by
  rw [List.foldl_append, List.foldl_cons, if_pos ha]
  induction post with
  | nil => rfl
  | cons b post ih =>
      rw [List.foldl_cons, if_neg (hpost b List.mem_cons_self)]
      exact ih fun c hc => hpost c (List.mem_cons_of_mem _ hc)

/-- A row of the log puts a genome into production. -/
def Promotes (a : PromotionApprovalRecord) (hash : String) : Prop :=
  a.genomeHash = hash ∧ a.action.getD .promote = .promote

theorem promotes_of_approvalEvent {a : PromotionApprovalRecord} {hash : String}
    (h : approvalEvent a = .push hash) : Promotes a hash := by
  unfold approvalEvent at h
  split_ifs at h with hpush
  exact ⟨StackReplay.Event.push.inj h, hpush⟩

/-- **The summary names its row.** Where it names a champion, the log of the application, in
    the order it is read, has a promotion of that genome after which no row concerns it, and
    the summary has the time and the name of that row. -/
theorem summary_names_its_row {summary : ProductionSummary}
    (h : productionSummary db systemId = some summary) :
    ∃ before row after, systemApprovals db systemId = before ++ row :: after ∧
      Promotes row summary.genomeHash ∧ (∀ later ∈ after, later.genomeHash ≠ summary.genomeHash) ∧
      summary.promotedAt = some row.createdAt ∧ summary.promotedBy = some row.approvedBy := by
  obtain ⟨champion, hchampion, rfl⟩ := Option.map_eq_some_iff.mp h
  have hmem : champion.hash ∈ StackReplay.replay (productionLog db systemId) := by
    rw [← productionHashes_eq]
    exact List.mem_map_of_mem (List.mem_of_getLast? hchampion)
  obtain ⟨pre, post, hlog, hpost⟩ := StackReplay.exists_last_push hmem
  -- the events of the log are its rows with their genomes
  have hevents := hlog
  unfold productionLog at hevents
  rw [← listProductionEvents_approvals, List.map_map] at hevents
  obtain ⟨firsts, rest, hsplit, -, hrest⟩ := List.map_eq_append_iff.mp hevents
  obtain ⟨event, lasts, rfl, hevent, hlasts⟩ := List.map_eq_cons_iff.mp hrest
  have hhash : ∀ e ∈ db.listProductionEvents systemId, e.2.hash = e.1.genomeHash :=
    fun e he => hash_of_getGenomeRecord (mem_listProductionEvents.mp he).2.1
  have hpromotes := promotes_of_approvalEvent hevent
  have hlater : ∀ e ∈ lasts, e.1.genomeHash ≠ champion.hash := by
    intro e he heq
    refine hpost (List.mem_map.mpr ⟨approvalEvent e.1, ?_, ?_⟩)
    · rw [← hlasts]
      exact List.mem_map_of_mem (f := approvalEvent ∘ Prod.fst) he
    · rw [subject_approvalEvent, heq]
  have hlast : lastPromotion champion.hash (db.listProductionEvents systemId) =
      some (event.1.createdAt, event.1.approvedBy) := by
    have hin : ∀ e ∈ event :: lasts, e ∈ db.listProductionEvents systemId := by
      rw [hsplit]
      exact fun e he => List.mem_append_right _ he
    unfold lastPromotion
    rw [hsplit]
    refine foldl_last ⟨?_, hpromotes.2⟩ (fun e he hmatch => hlater e he ?_) none
    · rw [← hhash e (hin e (List.mem_cons_of_mem _ he)), hmatch.1]
    · rw [hhash event (hin event List.mem_cons_self), hpromotes.1]
  refine ⟨firsts.map Prod.fst, event.1, lasts.map Prod.fst, ?_, hpromotes, ?_, ?_, ?_⟩
  · rw [← listProductionEvents_approvals, hsplit, List.map_append, List.map_cons]
  · intro later hl
    obtain ⟨e, he, rfl⟩ := List.mem_map.mp hl
    exact hlater e he
  · dsimp only
    rw [hlast]
    rfl
  · dsimp only
    rw [hlast]
    rfl

/-- After the example's promotion the summary names its last row. -/
theorem summary_names_its_row_promotion : ∃ db row after,
    run (serialStep examplePlatform) {} exampleHistory = some db ∧
      systemApprovals db "app" = row :: after ∧ after = [] ∧ Promotes row "app-40" := by
  have hrun : ((run (serialStep examplePlatform) {} exampleHistory).map fun db =>
      (productionSummary db "app", (systemApprovals db "app").length)) =
      some (some ⟨"app-40", 2, some 5, some "admin"⟩, 1) := by
    decide +kernel
  obtain ⟨db, hdb, hread⟩ := Option.map_eq_some_iff.mp hrun
  obtain ⟨hsummary, hlength⟩ := Prod.mk.inj hread
  obtain ⟨before, row, after, hlog, hpromotes, -⟩ := summary_names_its_row hsummary
  rw [hlog, List.length_append, List.length_cons] at hlength
  have hbefore : before = [] := List.length_eq_zero_iff.mp (by omega)
  have hafter : after = [] := List.length_eq_zero_iff.mp (by omega)
  exact ⟨db, row, after, hdb, by rw [hlog, hbefore]; rfl, hafter, hpromotes⟩

end Summary

/-! ## The flags of a list -/

section Listed

variable {db : Database}

/-- What the cache remembers is what production is. -/
def CacheFits (db : Database) (cache : Dict String (Option String)) : Prop :=
  ∀ systemId expected, Dict.get? cache systemId = some expected →
    expected = expectedBaseline db systemId

theorem baselineIsCurrent_spec (record : ExperimentRecord)
    {cache : Dict String (Option String)} (h : CacheFits db cache) :
    (baselineIsCurrent db record cache).1 =
        isCurrent db (expectedBaseline db record.applicationId) record ∧
      CacheFits db (baselineIsCurrent db record cache).2 := by
  unfold baselineIsCurrent
  cases hget : Dict.get? cache record.applicationId with
  | some expected =>
      dsimp only
      rw [Dict.getD, hget, ← h _ _ hget]
      exact ⟨rfl, h⟩
  | none =>
      dsimp only
      rw [Dict.getD, Dict.get?_set_self]
      refine ⟨rfl, fun systemId expected hexpected => ?_⟩
      by_cases hsame : systemId = record.applicationId
      · rw [hsame, Dict.get?_set_self] at hexpected
        rw [hsame, ← Option.some.inj hexpected]
      · rw [Dict.get?_set_of_ne _ _ hsame] at hexpected
        exact h _ _ hexpected

/-- The list with a cache is the list without one. -/
theorem listed_as_plain (records : List ExperimentRecord)
    {cache : Dict String (Option String)} (h : CacheFits db cache) :
    listCurrent db records cache = records.map fun record =>
      isCurrent db (expectedBaseline db record.applicationId) record := by
  induction records generalizing cache with
  | nil => rfl
  | cons record records ih =>
      obtain ⟨hflag, hcache⟩ := baselineIsCurrent_spec record h
      rw [List.map_cons, ← hflag, ← ih hcache]
      rfl

end Listed

/-! ## Decisions and their experiments -/

section Owned

variable {p : Platform} {db db' : Database}

/-- The decision was made under an experiment of the genome's own application. -/
def OwnDecision (db : Database) (d : PromotionRecord) : Prop :=
  ∃ e, d.experimentId = some e.experimentId ∧ db.getExperiment e.experimentId = some e ∧
    systemOf db d.genomeHash = some e.applicationId

/-- What every history of requests leaves. -/
structure Owned (p : Platform) (db : Database) : Prop extends Sound p db where
  decided : ∀ d ∈ db.decisions, OwnDecision db d

/-- An experiment that keeps its baseline keeps its application. -/
theorem OwnDecision.keep {d : PromotionRecord} (h : OwnDecision db d)
    (hwf : WellFormed p.genomeDigest db) {locked : Option String}
    (heffect : Effect p locked db db') : OwnDecision db' d := by
  obtain ⟨e, hid, he, hsystem⟩ := h
  obtain ⟨e', he', hbaseline⟩ := heffect.baselines _ e he
  obtain ⟨hash, hhash, howner, -⟩ := (hwf.experiments _ e he).baseline
  obtain ⟨hash', hhash', howner', -⟩ := (heffect.wellFormed.experiments _ e' he').baseline
  have hsame : hash' = hash := by
    rw [hbaseline, hhash] at hhash'
    exact (Option.some.inj hhash').symm
  have happlication : e'.applicationId = e.applicationId := by
    have hnow := heffect.rows hash _ howner
    rw [← hsame, howner'] at hnow
    exact Option.some.inj hnow
  have hname : e'.experimentId = e.experimentId := experimentId_of_getExperiment he'
  refine ⟨e', ?_, ?_, ?_⟩
  · rw [hid, hname]
  · rw [hname]
    exact he'
  · rw [happlication]
    exact heffect.rows _ _ hsystem

/-- The new decision of a review. -/
theorem reviewed_decisions {experimentId genomeHash : String} {now : ℕ}
    {review : PromotionReview} (hwf : WellFormed p.genomeDigest db)
    (h : reviewPromotion p db experimentId genomeHash now = .ok (review, db')) :
    Effect p none db db' ∧ ∃ d, db'.decisions = db.decisions ++ [d] ∧ OwnDecision db d := by
  obtain ⟨input, used, settled, hlookup, hsettled, -, rfl⟩ := reviewPromotion_ok h
  obtain ⟨hid, hgenome, hexperiment, -, hcandidate, happlication, hstored⟩ :=
    reviewLookup_ok hlookup
  have hsettle : Effect p none db settled ∧ settled.decisions = db.decisions := by
    rcases settleEvidence_ok (hgenome ▸ hstored) hsettled with
      ⟨r, -, rfl, -⟩ | ⟨r, -, rfl, -⟩ | ⟨-, -, rfl⟩
    · exact ⟨Effect.refl hwf, rfl⟩
    · exact ⟨Effect.refl hwf, rfl⟩
    · exact ⟨Effect.of_log hwf (hwf.of_eq rfl rfl rfl) (KeepsLog.of_eq rfl rfl)
        (KeepsBaselines.of_eq rfl) (KeepsHoldouts.of_append rfl), rfl⟩
  obtain ⟨heffect, hdecisions⟩ := hsettle
  refine ⟨heffect.trans (effect_conclude heffect.wellFormed input used.1 now), _,
    by rw [decisions_conclude, hdecisions], input.experiment, ?_, ?_, ?_⟩
  · rw [hid, experimentId_of_getExperiment hexperiment]
  · rw [experimentId_of_getExperiment hexperiment]
    exact hexperiment
  · obtain ⟨-, -, -, -, hsystem⟩ := getGenome_eq_some hcandidate
    rw [hgenome, hsystem, happlication]

theorem Served.effect {now : ℕ} {request : Request} (h : Sound p db)
    (hserved : Served p db now request db') (hposs : Possible db request) :
    ∃ locked, Effect p locked db db' := by
  have hwf := h.wellFormed
  cases hserved with
  | unchanged => exact ⟨none, Effect.refl hwf⟩
  | created hcreated =>
      obtain ⟨hwf', hpreserves⟩ := createExperiment_ok hwf hcreated
      exact ⟨none, Effect.of_log hwf hwf' hpreserves.log (keepsBaselines_createExperiment hcreated)
        (sameReviews_createExperiment hcreated).keepsHoldouts⟩
  | failed hload =>
      exact ⟨none, effect_markExperiment hwf (stored_of_loadRun hwf hload) _ _⟩
  | @ran _ _ result record input hload hstart =>
      have hfit := startRun_fits hwf hload hstart
      obtain ⟨hwf', hpreserves⟩ := run_preserves hwf hload hstart hposs
      have hmarked := keepsBaselines_markExperiment hfit.experiment input.applicationId .running
      have hsame : SameReviews db (finishRun p.genomeDigest
          (markExperiment db input.applicationId input.config .running) input result) :=
        (sameReviews_saveExperiment ..).trans (sameReviews_finishRun input result)
      exact ⟨none, Effect.of_log hwf hwf' hpreserves.log (hmarked.trans
        (keepsBaselines_finishRun (hfit.marked input.applicationId .running) result))
        hsame.keepsHoldouts⟩
  | reviewed hreview =>
      obtain ⟨heffect, -⟩ := reviewed_decisions hwf hreview
      exact ⟨none, heffect⟩
  | canaried hlookup => exact ⟨none, effect_recordCanary hwf _ _⟩
  | promoted hrow hstatus => exact ⟨_, Effect.of_change hwf (systemOf_of_row hrow) _ _ _ _ _⟩
  | rolledBack hcurrent =>
      exact ⟨_, Effect.of_change hwf (systemOf_champion hcurrent) _ _ _ _ _⟩
  | saved dataset => exact ⟨none, effect_saveDatasetVersion hwf dataset⟩

/-- Decisions and measurements come from reviews only. -/
theorem Served.reviews {now : ℕ} {request : Request} (h : Served p db now request db') :
    SameReviews db db' ∨ ∃ experimentId genomeHash review,
      request = .requestPromotion experimentId genomeHash ∧
        reviewPromotion p db experimentId genomeHash now = .ok (review, db') := by
  cases h with
  | unchanged => exact .inl ⟨rfl, rfl⟩
  | created hcreated => exact .inl (sameReviews_createExperiment hcreated)
  | failed => exact .inl (sameReviews_saveExperiment ..)
  | ran => exact .inl ((sameReviews_saveExperiment ..).trans (sameReviews_finishRun _ _))
  | reviewed hreview => exact .inr ⟨_, _, _, rfl, hreview⟩
  | canaried => exact .inl (sameReviews_recordCanary _ _)
  | promoted | rolledBack => exact .inl (sameReviews_productionChange ..)
  | saved dataset => exact .inl (sameReviews_saveDatasetVersion dataset)

theorem Served.owned {now : ℕ} {request : Request} (h : Owned p db)
    (hserved : Served p db now request db') (hposs : Possible db request) : Owned p db' := by
  obtain ⟨locked, heffect⟩ := hserved.effect h.toSound hposs
  refine ⟨hserved.sound h.toSound hposs, fun d hd => ?_⟩
  rcases hserved.reviews with hsame | ⟨experimentId, genomeHash, review, -, hreview⟩
  · rw [hsame.decisions] at hd
    exact (h.decided d hd).keep h.wellFormed heffect
  · obtain ⟨-, new, hdecisions, hown⟩ := reviewed_decisions h.wellFormed hreview
    rw [hdecisions] at hd
    rcases List.mem_append.mp hd with hold | hnew
    · exact (h.decided d hold).keep h.wellFormed heffect
    · rw [List.mem_singleton.mp hnew]
      exact hown.keep h.wellFormed heffect

theorem owned_empty (p : Platform) : Owned p {} where
  toSound := sound_empty p
  decided := by
    intro d hd
    cases hd

theorem owned_of_history {history : List Timed}
    (h : Transition.run (serialStep p) {} history = some db) : Owned p db := by
  refine Transition.run_invariant (fun s t s' hs hstep => ?_) (owned_empty p) h
  obtain ⟨hposs, hserved⟩ := serialStep_did hstep
  exact hserved.owned hs hposs

/-- What a decision was validated against is what its experiment started from. -/
theorem validatedBy_own {d : PromotionRecord} {e : ExperimentRecord} (hwf :
    WellFormed p.genomeDigest db) (hid : d.experimentId = some e.experimentId)
    (he : db.getExperiment e.experimentId = some e) (systemId : String) :
    validatedBy db systemId d = startedFrom db e := by
  obtain ⟨-, hnamed, hash, hhash, hsystem, -⟩ := hwf.experiments _ e he
  unfold validatedBy
  rw [hid, nonEmpty_of_ne hnamed]
  simp only [Option.bind_eq_bind, Option.bind_some, he]
  rw [startedFrom, hhash, nonEmpty_of_ne (ne_empty_of_systemOf hwf hsystem)]

/-- The check of a promotion is the comparison of the list. -/
theorem checkValidated_own {e : ExperimentRecord} {g : GenomeRecord}
    (hsystem : g.systemId = e.applicationId) {hash : String} (hhash : startedFrom db e = some hash) :
    (isCurrent db (expectedBaseline db e.applicationId) e = true →
        checkValidated db (startedFrom db e) g = .ok ()) ∧
      (isCurrent db (expectedBaseline db e.applicationId) e = false →
        ∃ message, checkValidated db (startedFrom db e) g = .error (.staleBaseline message)) := by
  unfold isCurrent expectedBaseline checkValidated
  rw [hhash, hsystem]
  cases hproduction : inProduction db e.applicationId with
  | none => simp
  | some expected =>
      by_cases hsame : hash = expected.hash
      · simp [hsame]
      · simp [hsame]

end Owned

/-- **A promotion is refused as stale where the list says so.** After any history of requests,
    take a genome whose other checks pass: it is not in production, its latest decision
    approves it, and its latest canary did not roll back. The list of experiments, in whatever
    order its rows are read, has the experiment of that decision; where it lists it as current
    the promotion goes through, and where it does not the promotion is refused as stale. -/
theorem finalize_mirrors_list (p : Platform) (history : List Timed) (db : Database)
    (h : Transition.run (serialStep p) {} history = some db) (g : GenomeRecord)
    (hg : g ∈ db.genomes) (hfresh : g.status ≠ .promoted) (d : PromotionRecord)
    (happroved : approvedDecision db g.hash = .ok d) (hcanary : checkCanary db g.hash = .ok ())
    (records : List ExperimentRecord) (hrecords : records.Perm db.experiments) :
    ∃ e current, (e, current) ∈ records.zip (listCurrent db records []) ∧
      d.experimentId = some e.experimentId ∧
      ∀ experimentId approvedBy now,
        (current = true → promoteToProduction db g.hash experimentId approvedBy now =
          .ok (commitPromotion db db.statusOf g experimentId approvedBy now)) ∧
        (current = false → ∃ message, promoteToProduction db g.hash experimentId approvedBy now =
          .error (.staleBaseline message)) := by
  have howned := owned_of_history h
  have hwf := howned.wellFormed
  obtain ⟨hlatest, -⟩ := approvedDecision_ok happroved
  obtain ⟨hmem, hsubject⟩ := latestPromotionDecision_mem hlatest
  obtain ⟨e, hid, he, hsystem⟩ := howned.decided d hmem
  have hget := getGenomeRecord_of_mem hwf.nodup hg
  have hsame : g.systemId = e.applicationId := by
    rw [hsubject, systemOf, hget] at hsystem
    exact Option.some.inj hsystem
  obtain ⟨-, -, hash, hhash, -, -⟩ := hwf.experiments _ e he
  have hstarted : startedFrom db e = some hash := by rw [startedFrom, hhash]
  obtain ⟨hcurrent, hstale⟩ := checkValidated_own hsame hstarted
  have hvalidated : validatedAgainst db g = startedFrom db e := by
    rw [validatedAgainst, hlatest, Option.bind_some, validatedBy_own hwf hid he]
  have hload : loadGenome db g.hash = .ok g := by rw [loadGenome, hget]
  have hnot : checkNotPromoted g = .ok () := if_neg hfresh
  have hpromote : ∀ experimentId approvedBy now,
      promoteToProduction db g.hash experimentId approvedBy now =
        (checkValidated db (startedFrom db e) g).bind fun _ =>
          .ok (commitPromotion db db.statusOf g experimentId approvedBy now) := by
    intro experimentId approvedBy now
    unfold promoteToProduction ensureValidatedAgainstProduction
    rw [hload]
    show checkNotPromoted g >>= _ = _
    rw [hnot, happroved, hcanary, ← hvalidated]
    rfl
  refine ⟨e, isCurrent db (expectedBaseline db e.applicationId) e, ?_, hid, ?_⟩
  · have hfits : CacheFits db [] := by
      intro systemId expected hexpected
      cases hexpected
    rw [listed_as_plain records hfits, ← List.map_prod_left_eq_zip, List.mem_map]
    exact ⟨e, hrecords.mem_iff.mpr (mem_of_getExperiment he), rfl⟩
  · intro experimentId approvedBy now
    rw [hpromote]
    refine ⟨fun htrue => ?_, fun hfalse => ?_⟩
    · rw [hcurrent htrue]
      rfl
    · obtain ⟨message, hmessage⟩ := hstale hfalse
      refine ⟨message, ?_⟩
      rw [hmessage]
      rfl

/-- Two experiments from the same baseline; the winner of the first is promoted. -/
def rivalHistory : List Timed :=
  [⟨1, exampleCreate exp1 "champion" 1 usualFloor⟩,
    ⟨2, exampleCreate exp2 "champion" 2 usualFloor⟩, ⟨3, exampleRun⟩,
    ⟨4, .runExperiment "exp-2" none (.ok (exampleResult exampleOriginal exampleBest))⟩,
    ⟨5, .requestPromotion "exp-1" "app-40"⟩, ⟨6, .requestPromotion "exp-2" "app-45"⟩,
    ⟨7, exampleCanary "app-40"⟩, ⟨8, exampleCanary "app-45"⟩,
    ⟨9, .finalizePromotion "app-40" (some "exp-1") "admin"⟩]

/-- The winner of the second is refused, and neither experiment is listed as current. -/
theorem finalize_mirrors_list_rivals : ∃ db message,
    run (serialStep examplePlatform) {} rivalHistory = some db ∧
      listCurrent db db.experiments [] = [false, false] ∧
      (promoteToProduction db "app-45" (some "exp-2") "admin" 10).map (fun _ => ()) =
        .error (.staleBaseline message) := by
  have hrun : ((run (serialStep examplePlatform) {} rivalHistory).map fun db =>
      (listCurrent db db.experiments [], (approvedDecision db "app-45").toOption.isSome,
        checkCanary db "app-45", db.genomes.any fun g => g.hash = "app-45" ∧
          g.status ≠ .promoted)) = some ([false, false], true, .ok (), true) := by
    decide +kernel
  obtain ⟨db, hdb, hread⟩ := Option.map_eq_some_iff.mp hrun
  obtain ⟨hlisted, hread⟩ := Prod.mk.inj hread
  obtain ⟨hdecided, hread⟩ := Prod.mk.inj hread
  obtain ⟨hcanary, hfound⟩ := Prod.mk.inj hread
  obtain ⟨d, hd⟩ := Option.isSome_iff_exists.mp hdecided
  obtain ⟨g, hg, hmatch⟩ := List.any_eq_true.mp hfound
  obtain ⟨hhash, hfresh⟩ := of_decide_eq_true hmatch
  obtain ⟨e, current, hmem, -, hpromote⟩ := finalize_mirrors_list examplePlatform rivalHistory
    db hdb g hg hfresh d (hhash ▸ toOption_eq_some.mp hd) (hhash ▸ hcanary) db.experiments
    (List.Perm.refl _)
  have hstale : current = false := by
    have hflag := (List.of_mem_zip hmem).2
    rw [hlisted] at hflag
    simpa using hflag
  obtain ⟨message, hmessage⟩ := (hpromote (some "exp-2") "admin" 10).2 hstale
  refine ⟨db, message, hdb, hlisted, ?_⟩
  rw [← hhash, hmessage]
  rfl

end NeuroForge
