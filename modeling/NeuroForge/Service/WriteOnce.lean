/-
  The stored measurement is written once, whatever reviews race for it.

  Rows of the measurement store and decisions come from committing reviews only
  (`Move.reviews`). A review that has settled its evidence has seen a row under its key,
  and its evidence is that row's wherever the row was measured against its baseline
  (`Backed`); a review that holds an inserted measurement commits the first row there is.
  `holdout_written_once` draws this together for every run.
-/
import NeuroForge.Service.Coherent

namespace NeuroForge

open Fallible Database Interleaving

variable {p : Platform} {n : ℕ}

/-! ## What a committing review writes -/

section Reviews

variable {s : Clients n} {phase phase' : Phase} {a : Action} {shared' : Service}

/-- A step writes no decision and no measurement, or it is the commit of a review. -/
theorem Move.reviews (h : Move p s phase a shared' phase') :
    (SameReviews s.shared.db shared'.db ∧ shared'.decided = s.shared.decided) ∨
      ∃ input evidence stored now, shared' = s.shared.decide stored input evidence now ∧
        ((∃ reused, phase = .reviewing input (.settled evidence reused) ∧
            stored = s.shared.db) ∨
          (phase = .inserted input evidence ∧
            s.shared.db.saveHoldoutEvaluation (input.row evidence) = some stored)) := by
  cases h with
  | create hcreate => exact .inl ⟨sameReviews_createExperiment hcreate, rfl⟩
  | saveDataset => exact .inl ⟨sameReviews_saveDatasetVersion _, rfl⟩
  | failedStart hload => exact .inl ⟨sameReviews_saveExperiment .., rfl⟩
  | startRun hload hstart => exact .inl ⟨sameReviews_saveExperiment .., rfl⟩
  | failedRun => exact .inl ⟨sameReviews_saveExperiment .., rfl⟩
  | endRun hresult => exact .inl ⟨sameReviews_finishRun _ _, rfl⟩
  | @commitSettled input evidence reused now =>
      exact .inr ⟨input, evidence, _, now, rfl, .inl ⟨reused, rfl, rfl⟩⟩
  | @commitInserted input evidence stored now hstored =>
      exact .inr ⟨input, evidence, stored, now, rfl, .inr ⟨rfl, hstored⟩⟩
  | commitCanary => exact .inl ⟨sameReviews_recordCanary _ _, rfl⟩
  | commitPromotion => exact .inl ⟨sameReviews_productionChange _ _ _ _ _ _ _, rfl⟩
  | commitRollback => exact .inl ⟨sameReviews_productionChange _ _ _ _ _ _ _, rfl⟩
  | _ => exact .inl ⟨⟨rfl, rfl⟩, rfl⟩

/-- The measurements only grow. -/
theorem Move.holdouts_grow (h : Move p s phase a shared' phase') :
    s.shared.db.holdouts <+: shared'.db.holdouts := by
  rcases h.reviews with ⟨hsame, -⟩ | ⟨input, evidence, stored, now, rfl, hfrom⟩
  · rw [hsame.holdouts]
  · have hconclude : (s.shared.decide stored input evidence now).db.holdouts =
        stored.holdouts := holdouts_conclude input evidence now
    rw [hconclude]
    rcases hfrom with ⟨reused, -, rfl⟩ | ⟨-, hstored⟩
    · exact List.prefix_rfl
    · obtain ⟨-, rfl⟩ := saveHoldoutEvaluation_ok hstored
      exact List.prefix_append _ _

end Reviews

theorem holdouts_grow_of_run {s s' : Clients n} {actions : List (Fin n × Action)}
    (h : Transition.run (concurrentStep p) s actions = some s') :
    s.shared.db.holdouts <+: s'.shared.db.holdouts := by
  have hstep : ∀ (t : Clients n) (a : Fin n × Action) (t' : Clients n),
      s.shared.db.holdouts <+: t.shared.db.holdouts → concurrentStep p t a = some t' →
      s.shared.db.holdouts <+: t'.shared.db.holdouts := by
    intro t a t' ht hstep
    obtain ⟨r, hr, rfl⟩ := step_eq_some.mp hstep
    exact ht.trans (move_of_next p hr).holdouts_grow
  exact Transition.run_invariant hstep List.prefix_rfl h

/-! ## Where evidence comes from -/

/-- There is a row under the review's key, and the evidence is that row's if the row was
    measured against the review's baseline. -/
def Backed (p : Platform) (db : Database) (input : ReviewInput) (evidence : HoldoutEvidence) :
    Prop :=
  ∃ row, db.getHoldoutEvaluation input.genomeHash input.dataset.datasetId
      input.dataset.version = some row ∧
    (row.evidence.baselineHash = input.baselineHash p → evidence = row.evidence)

theorem Backed.kept {db db' : Database} {input : ReviewInput} {evidence : HoldoutEvidence}
    (h : Backed p db input evidence) (hkeeps : KeepsHoldouts db db') :
    Backed p db' input evidence := by
  obtain ⟨row, hrow, hused⟩ := h
  exact ⟨row, hkeeps _ _ _ row hrow, hused⟩

/-- A measurement of this review names its baseline and its key. -/
structure Measured (p : Platform) (input : ReviewInput) (evidence : HoldoutEvidence) :
    Prop where
  baseline : evidence.baselineHash = input.baselineHash p
  key : (input.row evidence).key = input.key

/-- What a review knows of its evidence. -/
def Phase.Evident (p : Platform) (db : Database) : Phase → Prop
  | .reviewing input (.settled evidence _) =>
      evidence.baselineHash = input.baselineHash p ∧ Backed p db input evidence
  | .reviewing input (.store evidence) | .conflicted input evidence => Measured p input evidence
  | .inserted input evidence => Measured p input evidence ∧
      input.key ∉ db.holdouts.map (·.key)
  | _ => True

/-- What a committed decision was computed from. -/
structure Decided.Fits (p : Platform) (db : Database) (x : Decided) : Prop where
  experiment : ∃ e, db.getExperiment x.input.experimentId = some e ∧
    e.config.baselineHash = some (x.input.baselineHash p)
  baseline : x.evidence.baselineHash = x.input.baselineHash p
  backed : Backed p db x.input x.evidence
  record : ∃ id now, x.record = ⟨id, x.input.genomeHash, some x.input.experimentId,
    (x.input.decision x.evidence).approved, (x.input.decision x.evidence).nextStatus,
    (x.input.decision x.evidence).reasons, (x.input.decision x.evidence).evidence, now⟩

theorem Decided.Fits.kept {db db' : Database} {x : Decided} (h : x.Fits p db)
    {locked : Option String} (heffect : Effect p locked db db') : x.Fits p db' := by
  obtain ⟨⟨e, he, hbase⟩, hbaseline, hbacked, hrecord⟩ := h
  obtain ⟨e', he', hbase'⟩ := heffect.baselines _ e he
  exact ⟨⟨e', he', hbase'.trans hbase⟩, hbaseline, hbacked.kept heffect.holdouts, hrecord⟩

/-- The measurements and the decisions of the shared state. -/
structure Service.Recorded (p : Platform) (shared : Service) : Prop where
  nodup : (shared.db.holdouts.map (·.key)).Nodup
  decisions : shared.db.decisions = shared.decided.map (·.record)
  decided : ∀ x ∈ shared.decided, x.Fits p shared.db

/-- The measurements are written once and every decision rests on them. -/
abbrev WrittenOnce (p : Platform) (s : Clients n) : Prop :=
  Holds (Service.Recorded p) (fun shared phase => Phase.Evident p shared.db phase)
    (fun _ _ => True) s

/-! ## One step -/

section Step

variable {s : Clients n} {phase phase' : Phase} {a : Action} {shared' : Service}

theorem decisions_conclude (db : Database) (input : ReviewInput) (evidence : HoldoutEvidence)
    (now : ℕ) : (conclude db input evidence now).decisions = db.decisions ++
      [⟨db.decisions.length + 1, input.genomeHash, some input.experimentId,
        (input.decision evidence).approved, (input.decision evidence).nextStatus,
        (input.decision evidence).reasons, (input.decision evidence).evidence, now⟩] := by
  have herase := @eraseStatus_writeStatus (db.addDecision input.genomeHash
    (some input.experimentId) (input.decision evidence) now) input.genomeHash
    (reviewStatus input.candidate.status (input.decision evidence))
  exact (sameReviews_of_eraseStatus herase).decisions

/-- A measurement that has been stored is found under its key. -/
theorem getHoldoutEvaluation_insert {db stored : Database} {input : ReviewInput}
    {evidence : HoldoutEvidence} (hmeasured : Measured p input evidence)
    (h : db.saveHoldoutEvaluation (input.row evidence) = some stored) :
    stored.getHoldoutEvaluation input.genomeHash input.dataset.datasetId
      input.dataset.version = some (input.row evidence) := by
  obtain ⟨hfree, rfl⟩ := saveHoldoutEvaluation_ok h
  rw [hmeasured.key] at hfree
  have hnone : db.holdouts.find? (fun r => r.key = input.key) = none :=
    getHoldoutEvaluation_eq_none.mpr hfree
  show (db.holdouts ++ [input.row evidence]).find? (fun r => r.key = input.key) = _
  rw [List.find?_append, hnone, Option.none_or]
  exact List.find?_cons_of_pos (by simpa using hmeasured.key)

/-- What a review knows when it has looked everything up. -/
theorem plan_evident {db : Database} {experimentId genomeHash : String} {input : ReviewInput}
    {planned : ReviewPlan} (hlookup : reviewLookup db experimentId genomeHash = .ok input)
    (hplan : plan p input = .ok planned) : Phase.Evident p db (.reviewing input planned) := by
  obtain ⟨-, hgenome, -, -, -, -, hstored⟩ := reviewLookup_ok hlookup
  rw [← hgenome] at hstored
  rcases plan_ok hplan with ⟨r, hr, hbase, rfl⟩ | ⟨r, evidence, hr, hbase, hmeasure, rfl⟩ |
    ⟨-, evidence, hmeasure, rfl⟩
  · exact ⟨hbase, r, hstored ▸ hr, fun _ => rfl⟩
  · exact ⟨(measure_ok hmeasure).1, r, hstored ▸ hr, fun h => absurd h hbase⟩
  · exact ⟨(measure_ok hmeasure).1, (measure_ok hmeasure).2⟩

/-- The loser of a race settles on the winner's evidence if that serves its baseline. -/
theorem afterConflict_evident {db : Database} {input : ReviewInput}
    {evidence : HoldoutEvidence} {used : HoldoutEvidence × Bool}
    (hmeasured : Measured p input evidence) (h : afterConflict p db input evidence = .ok used) :
    Phase.Evident p db (.reviewing input (.settled used.1 used.2)) := by
  obtain ⟨winner, hwinner, hused⟩ := afterConflict_ok h
  by_cases hbase : winner.evidence.baselineHash = input.baselineHash p
  · rw [if_pos hbase] at hused
    exact ⟨hused.symm ▸ hbase, winner, hwinner, fun _ => hused⟩
  · rw [if_neg hbase] at hused
    exact ⟨hused.symm ▸ hmeasured.baseline, winner, hwinner, fun h => absurd h hbase⟩

theorem Move.evident (hevident : phase.Evident p s.shared.db)
    (h : Move p s phase a shared' phase') : phase'.Evident p shared'.db := by
  cases h with
  | review hlookup hplan => exact plan_evident hlookup hplan
  | conflict htaken => exact hevident
  | insert hstored hunclaimed =>
      obtain ⟨hfree, -⟩ := saveHoldoutEvaluation_ok hstored
      have hmeasured : Measured p _ _ := hevident
      rw [hmeasured.key] at hfree
      exact ⟨hmeasured, hfree⟩
  | lookupWinner hused => exact afterConflict_evident hevident hused
  | advanceSettled => exact hevident
  | advanceInserted =>
      obtain ⟨hmeasured, hfree⟩ := hevident
      exact ⟨⟨hmeasured.baseline, hmeasured.key⟩, hfree⟩
  | _ => trivial

/-- What another review knows stays true: rows stay, and a row that is added is not under a
    key this one has inserted. -/
theorem Phase.Evident.kept {other : Phase} (hother : other.Evident p s.shared.db)
    (hown : phase.Evident p s.shared.db) (hapart : phase.Apart other)
    (hkeeps : KeepsHoldouts s.shared.db shared'.db) (h : Move p s phase a shared' phase') :
    other.Evident p shared'.db := by
  unfold Phase.Evident at hother ⊢
  split at hother
  · exact ⟨hother.1, hother.2.kept hkeeps⟩
  · exact hother
  · exact hother
  · rename_i input evidence
    refine ⟨hother.1, ?_⟩
    rcases h.reviews with ⟨hsame, -⟩ | ⟨input', evidence', stored, now, rfl, hfrom⟩
    · rw [hsame.holdouts]
      exact hother.2
    · have hconclude : (s.shared.decide stored input' evidence' now).db.holdouts =
          stored.holdouts := holdouts_conclude input' evidence' now
      rw [hconclude]
      rcases hfrom with ⟨reused, -, rfl⟩ | ⟨rfl, hstored⟩
      · exact hother.2
      · obtain ⟨-, rfl⟩ := saveHoldoutEvaluation_ok hstored
        have hmeasured : Measured p input' evidence' := hown.1
        have hne : input'.key ≠ input.key := fun heq =>
          hapart.keys _ rfl (congrArg some heq.symm)
        show input.key ∉ (s.shared.db.holdouts ++ [input'.row evidence']).map (·.key)
        rw [List.map_append, List.mem_append, not_or]
        refine ⟨hother.2, ?_⟩
        rw [List.map_singleton, List.mem_singleton, hmeasured.key]
        exact hne.symm
  · trivial

/-- The commit of a review, or no review at all, keeps the store and the decisions in
    order. -/
theorem Move.recorded (hrecorded : s.shared.Recorded p) (hfits : phase.Fits p s.shared.db)
    (hevident : phase.Evident p s.shared.db)
    (heffect : Effect p phase.lockedSystem s.shared.db shared'.db)
    (h : Move p s phase a shared' phase') : shared'.Recorded p := by
  rcases h.reviews with ⟨hsame, hdecided⟩ | ⟨input, evidence, stored, now, rfl, hfrom⟩
  · refine ⟨?_, ?_, fun x hx => ?_⟩
    · rw [hsame.holdouts]
      exact hrecorded.nodup
    · rw [hsame.decisions, hdecided]
      exact hrecorded.decisions
    · rw [hdecided] at hx
      exact (hrecorded.decided x hx).kept heffect
  · have hholdouts : (s.shared.decide stored input evidence now).db.holdouts =
        stored.holdouts := holdouts_conclude input evidence now
    have hstored : stored.decisions = s.shared.db.decisions ∧
        (stored.holdouts.map (·.key)).Nodup ∧
        ReviewFits p s.shared.db input ∧ evidence.baselineHash = input.baselineHash p ∧
        Backed p stored input evidence := by
      rcases hfrom with ⟨reused, rfl, rfl⟩ | ⟨rfl, hsaved⟩
      · exact ⟨rfl, hrecorded.nodup, hfits, hevident.1, hevident.2⟩
      · have hmeasured : Measured p input evidence := hevident.1
        have hrow := getHoldoutEvaluation_insert hmeasured hsaved
        obtain ⟨hfree, rfl⟩ := saveHoldoutEvaluation_ok hsaved
        refine ⟨rfl, ?_, hfits, hmeasured.baseline, _, hrow, fun _ => rfl⟩
        rw [List.map_append]
        exact hrecorded.nodup.append (List.nodup_singleton _) (by simpa using hfree)
    obtain ⟨hdecisions, hnodup, hreview, hbase, hbacked⟩ := hstored
    refine ⟨?_, ?_, fun x hx => ?_⟩
    · rw [hholdouts]
      exact hnodup
    · show (conclude stored input evidence now).decisions = _
      rw [decisions_conclude, hdecisions, hrecorded.decisions]
      show _ = (s.shared.decided ++ _).map (·.record)
      rw [List.map_append, List.map_singleton, hdecisions, hrecorded.decisions]
    · rcases List.mem_append.mp hx with hx | hx
      · exact (hrecorded.decided x hx).kept heffect
      · rw [List.mem_singleton.mp hx]
        obtain ⟨e, he, hexp⟩ := hreview.experiment
        obtain ⟨e', he', hsame⟩ := heffect.baselines _ e he
        exact ⟨⟨e', he', hsame.trans hexp⟩, hbase,
          hbacked.kept (KeepsHoldouts.of_eq hholdouts), _, now, rfl⟩

end Step

/-! ## All runs -/

theorem writtenOnce_start (p : Platform) (n : ℕ) : WrittenOnce p (Clients.start n) where
  shared := ⟨List.nodup_nil, rfl, fun _ hx => by cases hx⟩
  own := fun _ => trivial
  apart := fun _ _ _ => trivial

theorem WrittenOnce.step {s s' : Clients n} {a : Fin n × Action} (h : WrittenOnce p s)
    (hcoherent : Coherent p s) (hstep : concurrentStep p s a = some s') : WrittenOnce p s' := by
  refine Holds.step (fun _ _ _ => trivial) h hstep (fun r hr => ?_) (fun r hr j hj => ?_)
  · obtain ⟨hmove, heffect⟩ := hcoherent.move hr
    exact ⟨hmove.recorded h.shared (hcoherent.own a.1) (h.own a.1) heffect,
      hmove.evident (h.own a.1), fun _ _ => trivial⟩
  · obtain ⟨hmove, heffect⟩ := hcoherent.move hr
    exact (h.own j).kept (h.own a.1) (hcoherent.apart a.1 j (Ne.symm hj)) heffect.holdouts hmove

theorem writtenOnce_of_run {s : Clients n} {actions : List (Fin n × Action)}
    (h : Transition.run (concurrentStep p) (Clients.start n) actions = some s) :
    Coherent p s ∧ WrittenOnce p s := by
  have hstep : ∀ (t : Clients n) (a : Fin n × Action) (t' : Clients n),
      Coherent p t ∧ WrittenOnce p t → concurrentStep p t a = some t' →
      Coherent p t' ∧ WrittenOnce p t' := by
    rintro t a t' ⟨hcoherent, hwritten⟩ hstep
    exact ⟨hcoherent.step hstep, hwritten.step hcoherent hstep⟩
  have hstart : Coherent p (Clients.start n) ∧ WrittenOnce p (Clients.start n) :=
    ⟨coherent_start p n, writtenOnce_start p n⟩
  exact Transition.run_invariant hstep hstart h

/-- The measurement store of a state, seen from a later one. -/
structure HoldoutWrittenOnce (s s' : Clients n) : Prop where
  one_row : (s.shared.db.holdouts.map (·.key)).Nodup
  unchanged : s.shared.db.holdouts <+: s'.shared.db.holdouts
  /-- the decisions are those the reviews have computed from their evidence -/
  decisions : s.shared.db.decisions = s.shared.decided.map (·.record)
  computed : ∀ x ∈ s.shared.decided, ∃ id now,
    x.record = ⟨id, x.input.genomeHash, some x.input.experimentId,
      (x.input.decision x.evidence).approved, (x.input.decision x.evidence).nextStatus,
      (x.input.decision x.evidence).reasons, (x.input.decision x.evidence).evidence, now⟩
  same_evidence : ∀ x ∈ s.shared.decided, ∀ row ∈ s.shared.db.holdouts,
    row.key = x.input.key →
    (∃ e, s.shared.db.getExperiment x.input.experimentId = some e ∧
      e.config.baselineHash = some row.evidence.baselineHash) →
    x.evidence = row.evidence

/-- **The stored measurement is written once.** However the lookups, inserts, conflict
    lookups, commits and roll-backs of any number of clients interleave, there is at most
    one row per genome, dataset and version, no row changes in any continuation, and every
    committed decision whose experiment has the row's baseline was computed from the row's
    evidence. -/
theorem holdout_written_once (p : Platform) (n : ℕ) (before after : List (Fin n × Action))
    (s s' : Clients n)
    (hbefore : Transition.run (concurrentStep p) (Clients.start n) before = some s)
    (hafter : Transition.run (concurrentStep p) s after = some s') : HoldoutWrittenOnce s s' := by
  obtain ⟨-, hwritten⟩ := writtenOnce_of_run hbefore
  obtain ⟨hnodup, hdecisions, hdecided⟩ := hwritten.shared
  refine ⟨hnodup, holdouts_grow_of_run hafter, hdecisions,
    fun x hx => (hdecided x hx).record, fun x hx row hrow hkey hexp => ?_⟩
  obtain ⟨⟨e, he, hbase⟩, -, ⟨found, hfound, hused⟩, -⟩ := hdecided x hx
  have hsame : found = row := by
    have hmem : found ∈ s.shared.db.holdouts := List.mem_of_find?_eq_some hfound
    have hfoundKey : found.key = x.input.key := key_of_getHoldoutEvaluation hfound
    exact List.inj_on_of_nodup_map hnodup hmem hrow (hfoundKey.trans hkey.symm)
  obtain ⟨e', he', hbase'⟩ := hexp
  rw [he] at he'
  rw [← Option.some.inj he', hbase] at hbase'
  rw [← hsame] at hbase' ⊢
  exact hused (Option.some.inj hbase').symm

section Example

/-- Two clients review one genome; both find no row, and the second one's insert fails. -/
def racingReviews : List (Fin 2 × Action) :=
  [(c₀, .create (exampleBody exp1 "champion" 1 usualFloor)), (c₀, .startRun "exp-1" none),
    (c₀, .endRun (.ok (exampleResult exampleOriginal exampleBetter))),
    (c₀, .review "exp-1" "app-40"), (c₁, .review "exp-1" "app-40"), (c₀, .insert),
    (c₀, .commit 4), (c₁, .insert), (c₁, .lookupWinner), (c₁, .commit 5)]

/-- Both decide from the first one's measurement. -/
theorem holdout_written_once_racing : ∃ s,
    Transition.run (concurrentStep examplePlatform) (Clients.start 2) racingReviews = some s ∧
      s.shared.decided.length = 2 ∧ s.shared.db.holdouts.length = 1 ∧
      HoldoutWrittenOnce s s := by
  have hrun : ((Transition.run (concurrentStep examplePlatform) (Clients.start 2)
      racingReviews).map fun s => (s.shared.decided.length, s.shared.db.holdouts.length)) =
      some (2, 1) := by
    decide +kernel
  obtain ⟨s, hs, hlengths⟩ := Option.map_eq_some_iff.mp hrun
  obtain ⟨hdecided, hholdouts⟩ := Prod.mk.inj hlengths
  exact ⟨s, hs, hdecided, hholdouts,
    holdout_written_once examplePlatform 2 racingReviews [] s s hs rfl⟩

end Example

end NeuroForge
