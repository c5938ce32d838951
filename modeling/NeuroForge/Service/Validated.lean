/-
  What a promotion was validated against, with reviews committing between its checks.

  A promotion reads the genome's latest decision twice: its first check wants it to
  approve, `_validated_against` takes the baseline from it. The lock keeps production as it
  was when the promotion started, but no review takes the lock, so the two reads can find
  two decisions. `promotion_validated_iff` says when the approving decision was measured
  against what is in production, and what then holds of two promotions in a row.
-/
import NeuroForge.Service.WriteOnce

namespace NeuroForge

open Fallible Database Interleaving

variable {p : Platform} {n : ℕ}

/-! ## The baseline of a decision -/

/-- The baseline that a decision's experiment records. -/
def recordBaseline (db : Database) (record : PromotionRecord) : Option String :=
  record.experimentId.bind fun id => (db.getExperiment id).bind (·.config.baselineHash)

/-- The decision has been committed by a review. -/
def Service.HasDecided (shared : Service) (record : PromotionRecord) : Prop :=
  ∃ x ∈ shared.decided, x.record = record

section Baseline

variable {shared : Service}

theorem recordBaseline_eq {db : Database} {x : Decided} (h : x.Fits p db) :
    recordBaseline db x.record = some (x.input.baselineHash p) := by
  obtain ⟨⟨e, he, hbase⟩, -, -, id, now, hrecord⟩ := h
  rw [recordBaseline, hrecord]
  show (db.getExperiment x.input.experimentId).bind _ = _
  rw [he, Option.bind_some, hbase]

/-- The baseline a decision records stays the same. -/
theorem recordBaseline_kept {db db' : Database} (h : KeepsBaselines db db')
    {record : PromotionRecord} {hash : String} (hbase : recordBaseline db record = some hash) :
    recordBaseline db' record = some hash := by
  obtain ⟨id, hid, hbase⟩ := Option.bind_eq_some_iff.mp hbase
  obtain ⟨e, he, hbase⟩ := Option.bind_eq_some_iff.mp hbase
  obtain ⟨e', he', hsame⟩ := h id e he
  rw [recordBaseline, hid, Option.bind_some, he', Option.bind_some, hsame, hbase]

/-- What the validation takes from a decision is the baseline its experiment records. -/
theorem validatedBy_eq {db : Database} (hwf : WellFormed p.genomeDigest db) {x : Decided}
    (h : x.Fits p db) (systemId : String) :
    validatedBy db systemId x.record = recordBaseline db x.record := by
  rw [recordBaseline_eq h]
  obtain ⟨⟨e, he, hbase⟩, -, -, id, now, hrecord⟩ := h
  obtain ⟨-, hnamed, hash, hhash, hsys, -⟩ := hwf.experiments _ e he
  rw [experimentId_of_getExperiment he] at hnamed
  rw [hbase] at hhash
  have hne : x.input.baselineHash p ≠ "" := by
    rw [Option.some.inj hhash]
    exact ne_empty_of_systemOf hwf hsys
  have hid : nonEmpty x.record.experimentId = some x.input.experimentId := by
    rw [hrecord]
    exact nonEmpty_of_ne hnamed
  unfold validatedBy
  rw [hid]
  simp only [Option.bind_eq_bind, Option.bind_some, he]
  rw [hbase, nonEmpty_of_ne hne]

theorem hasDecided_of_mem (hrecorded : shared.Recorded p) {record : PromotionRecord}
    (h : record ∈ shared.db.decisions) : shared.HasDecided record := by
  rw [hrecorded.decisions] at h
  obtain ⟨x, hx, hrecord⟩ := List.mem_map.mp h
  exact ⟨x, hx, hrecord⟩

/-- The latest decision on a genome is one of its decisions. -/
theorem latestPromotionDecision_mem {db : Database} {genomeHash : String}
    {record : PromotionRecord} (h : db.latestPromotionDecision genomeHash = some record) :
    record ∈ db.decisions ∧ record.genomeHash = genomeHash := by
  have hmem := List.argmax_mem h
  rw [List.mem_filter, decide_eq_true_eq] at hmem
  exact hmem

theorem approvedDecision_ok {db : Database} {genomeHash : String} {record : PromotionRecord}
    (h : approvedDecision db genomeHash = .ok record) :
    db.latestPromotionDecision genomeHash = some record ∧ record.approved = true := by
  unfold approvedDecision at h
  split at h
  · rename_i found hfound
    split_ifs at h with happroved
    rw [← Except.ok.inj h]
    exact ⟨hfound, happroved⟩
  · cases h

/-- A genome that has been decided on has a latest decision. -/
theorem exists_latestPromotionDecision {db : Database} {record : PromotionRecord}
    (h : record ∈ db.decisions) :
    ∃ latest, db.latestPromotionDecision record.genomeHash = some latest := by
  rcases hlatest : db.latestPromotionDecision record.genomeHash with _ | latest
  · have hnil := List.argmax_eq_none.mp hlatest
    have hmem : record ∈ db.decisions.filter (·.genomeHash = record.genomeHash) := by
      rw [List.mem_filter]
      exact ⟨h, by simp⟩
    rw [hnil] at hmem
    cases hmem
  · exact ⟨latest, rfl⟩

/-- The comparison passes where something is in production and it is what was validated
    against. -/
theorem checkValidated_ok {db : Database} {genome : GenomeRecord} {hash expected : String}
    (hprod : productionHash db genome.systemId = some expected)
    (h : checkValidated db (some hash) genome = .ok ()) : hash = expected := by
  unfold productionHash at hprod
  obtain ⟨r, hr, rfl⟩ := Option.map_eq_some_iff.mp hprod
  unfold checkValidated at h
  rw [hr] at h
  dsimp only at h
  split_ifs at h with heq
  exact heq

end Baseline

/-! ## A promotion between its checks -/

/-- A decision on the promotion's genome that a review has committed. -/
structure Reads (shared : Service) (txn : Promoting) (record : PromotionRecord) : Prop where
  decided : shared.HasDecided record
  genome : record.genomeHash = txn.genome.hash

/-- While a promotion holds the lock, production is what it was at its start, and every
    earlier promotion of the application was committed before. -/
structure Promoting.Fits (shared : Service) (txn : Promoting) : Prop where
  production : ∃ hash, txn.production = some hash ∧
    productionHash shared.db txn.genome.systemId = some hash
  started : txn.started < shared.steps
  alone : ∀ q ∈ shared.promoted, q.txn.genome.systemId = txn.genome.systemId →
    q.committed < txn.started

/-- The decision a promotion's validation has read, and the baseline it took from it. -/
def ValidatedBy (shared : Service) (txn : Promoting) (latest : Option PromotionRecord)
    (against : Option String) : Prop :=
  ∃ record hash, latest = some record ∧ Reads shared txn record ∧
    recordBaseline shared.db record = some hash ∧ against = some hash

def PromotionStage.Fits (shared : Service) (txn : Promoting) : PromotionStage → Prop
  | .locked => True
  | .approved decision | .canaried decision =>
      Reads shared txn decision ∧ decision.approved = true
  | .validated decision latest against =>
      (Reads shared txn decision ∧ decision.approved = true) ∧
        ValidatedBy shared txn latest against
  | .ready decision latest _ =>
      (Reads shared txn decision ∧ decision.approved = true) ∧
        ValidatedBy shared txn latest txn.production

def Phase.Validated (shared : Service) : Phase → Prop
  | .promoting txn stage => txn.Fits shared ∧ stage.Fits shared txn
  | _ => True

/-- A committed promotion. -/
structure Promoted.Fits (shared : Service) (q : Promoted) : Prop where
  committed : q.committed < shared.steps
  decision : Reads shared q.txn q.decision ∧ q.decision.approved = true
  latest : ValidatedBy shared q.txn q.latest q.txn.production

/-- The committed promotions, one after the other on each application. -/
structure Service.Serialized (shared : Service) : Prop where
  promoted : ∀ q ∈ shared.promoted, q.Fits shared
  serialized : shared.promoted.Pairwise fun q r =>
    q.txn.genome.systemId = r.txn.genome.systemId → q.committed < r.txn.started

/-- What every later state keeps of the decisions. -/
structure Later (shared shared' : Service) : Prop where
  steps : shared.steps < shared'.steps
  decided : ∀ x ∈ shared.decided, x ∈ shared'.decided
  baselines : KeepsBaselines shared.db shared'.db

section Later

variable {shared shared' : Service} (h : Later shared shared')
include h

theorem Reads.later {txn : Promoting} {record : PromotionRecord}
    (hreads : Reads shared txn record) : Reads shared' txn record := by
  obtain ⟨⟨x, hx, hrecord⟩, hgenome⟩ := hreads
  exact ⟨⟨x, h.decided x hx, hrecord⟩, hgenome⟩

theorem ValidatedBy.later {txn : Promoting} {latest : Option PromotionRecord}
    {against : Option String} (hvalidated : ValidatedBy shared txn latest against) :
    ValidatedBy shared' txn latest against := by
  obtain ⟨record, hash, hlatest, hreads, hbase, hagainst⟩ := hvalidated
  exact ⟨record, hash, hlatest, hreads.later h, recordBaseline_kept h.baselines hbase, hagainst⟩

theorem PromotionStage.Fits.later {txn : Promoting} {stage : PromotionStage}
    (hfits : stage.Fits shared txn) : stage.Fits shared' txn := by
  cases stage with
  | locked => trivial
  | approved decision => exact ⟨hfits.1.later h, hfits.2⟩
  | canaried decision => exact ⟨hfits.1.later h, hfits.2⟩
  | validated decision latest against =>
      obtain ⟨⟨hreads, happroved⟩, hvalidated⟩ := hfits
      exact ⟨⟨hreads.later h, happroved⟩, hvalidated.later h⟩
  | ready decision latest loaded =>
      obtain ⟨⟨hreads, happroved⟩, hvalidated⟩ := hfits
      exact ⟨⟨hreads.later h, happroved⟩, hvalidated.later h⟩

theorem Promoted.Fits.later {q : Promoted} (hfits : q.Fits shared) : q.Fits shared' where
  committed := hfits.committed.trans h.steps
  decision := ⟨hfits.decision.1.later h, hfits.decision.2⟩
  latest := hfits.latest.later h

end Later

section Step

variable {s : Clients n} {phase phase' : Phase} {a : Action} {shared' : Service}

theorem Move.steps (h : Move p s phase a shared' phase') :
    shared'.steps = s.shared.steps + 1 := by
  cases h <;> rfl

theorem Move.later (heffect : Effect p phase.lockedSystem s.shared.db shared'.db)
    (h : Move p s phase a shared' phase') : Later s.shared shared' where
  steps := by
    have hsteps := h.steps
    omega
  decided := by
    intro x hx
    rcases h.reviews with ⟨-, hdecided⟩ | ⟨input, evidence, stored, now, rfl, -⟩
    · rw [hdecided]
      exact hx
    · exact List.mem_append_left _ hx
  baselines := heffect.baselines

/-- A step commits no promotion, or it is the commit of one. -/
theorem Move.promoted (h : Move p s phase a shared' phase') :
    shared'.promoted = s.shared.promoted ∨
      ∃ txn decision latest loaded, phase = .promoting txn (.ready decision latest loaded) ∧
        shared'.promoted = s.shared.promoted ++ [⟨txn, decision, latest, s.shared.steps⟩] := by
  cases h with
  | commitPromotion => exact .inr ⟨_, _, _, _, rfl, rfl⟩
  | _ => exact .inl rfl

/-- The checks of a promotion, each on what the one before it has read. -/
theorem checkPromotion_fits (hwf : WellFormed p.genomeDigest s.shared.db)
    (hrecorded : s.shared.Recorded p) {txn : Promoting} (htxn : txn.Fits s.shared)
    {stage stage' : PromotionStage} (hstage : stage.Fits s.shared txn)
    (h : checkPromotion s.shared.db txn stage = some stage') : stage'.Fits s.shared txn := by
  have hreads : ∀ record, s.shared.db.latestPromotionDecision txn.genome.hash = some record →
      Reads s.shared txn record := by
    intro record hlatest
    obtain ⟨hmem, hgenome⟩ := latestPromotionDecision_mem hlatest
    exact ⟨hasDecided_of_mem hrecorded hmem, hgenome⟩
  cases stage with
  | locked =>
      obtain ⟨decision, hdecision, rfl⟩ := Option.map_eq_some_iff.mp h
      obtain ⟨hlatest, happroved⟩ := approvedDecision_ok (toOption_eq_some.mp hdecision)
      exact ⟨hreads decision hlatest, happroved⟩
  | approved decision =>
      obtain ⟨-, -, rfl⟩ := Option.map_eq_some_iff.mp h
      exact hstage
  | canaried decision =>
      obtain rfl := Option.some.inj h
      refine ⟨hstage, ?_⟩
      -- the first check's decision is still there, so there is a latest one
      obtain ⟨x, hx, hrecord⟩ := hstage.1.decided
      have hmem : decision ∈ s.shared.db.decisions := by
        rw [hrecorded.decisions, ← hrecord]
        exact List.mem_map_of_mem hx
      obtain ⟨latest, hlatest⟩ := exists_latestPromotionDecision hmem
      rw [hstage.1.genome] at hlatest
      have hlatestReads := hreads latest hlatest
      obtain ⟨y, hy, rfl⟩ := hlatestReads.decided
      have hfits := hrecorded.decided y hy
      refine ⟨y.record, _, hlatest, hlatestReads, recordBaseline_eq hfits, ?_⟩
      rw [validatedAgainst, hlatest, Option.bind_some, validatedBy_eq hwf hfits,
        recordBaseline_eq hfits]
  | validated decision latest against =>
      obtain ⟨_, hcheck, rfl⟩ := Option.map_eq_some_iff.mp h
      obtain ⟨hdecision, record, hash, hlatest, hrecord, hbase, rfl⟩ := hstage
      obtain ⟨expected, hproduction, hprod⟩ := htxn.production
      have heq := checkValidated_ok hprod (toOption_eq_some.mp hcheck)
      exact ⟨hdecision, record, hash, hlatest, hrecord, hbase, heq ▸ hproduction⟩
  | ready decision latest loaded => cases h

/-- A promotion keeps what it knows as long as nobody else changes its application. -/
theorem Promoting.Fits.later {shared shared' : Service} {txn : Promoting}
    (h : txn.Fits shared) (hlater : Later shared shared')
    (hsame : SameProduction shared.db shared'.db txn.genome.systemId)
    (hpromoted : ∀ q ∈ shared'.promoted, q.txn.genome.systemId = txn.genome.systemId →
      q ∈ shared.promoted) : txn.Fits shared' := by
  obtain ⟨⟨hash, hhash, hprod⟩, hstarted, halone⟩ := h
  exact ⟨⟨hash, hhash, hsame.hash hash hprod⟩, hstarted.trans hlater.steps,
    fun q hq hsys => halone q (hpromoted q hq hsys) hsys⟩

/-- Something is in production in an application with a genome. -/
theorem exists_productionHash {db : Database} (hwf : WellFormed p.genomeDigest db)
    {hash systemId : String} (hsys : systemOf db hash = some systemId) :
    ∃ production, productionHash db systemId = some production := by
  obtain ⟨r, hr⟩ := hwf.original hash systemId hsys
  rw [productionHash_eq, hr]
  rcases (productionHashes db systemId).getLast? with _ | top
  · exact ⟨r.hash, rfl⟩
  · exact ⟨top, rfl⟩

theorem Move.validated (hwf : WellFormed p.genomeDigest s.shared.db)
    (hrecorded : s.shared.Recorded p) (hserialized : s.shared.Serialized)
    (hvalidated : phase.Validated s.shared)
    (heffect : Effect p phase.lockedSystem s.shared.db shared'.db)
    (h : Move p s phase a shared' phase') : phase'.Validated shared' := by
  have hlater := h.later heffect
  cases h with
  | @promote genomeHash experimentId approvedBy genome hgenome hstatus hunlocked =>
      have hrow := loadGenome_ok hgenome
      rw [← hash_of_getGenomeRecord hrow] at hrow
      obtain ⟨hash, hprod⟩ := exists_productionHash hwf (systemOf_of_row hrow)
      refine ⟨⟨⟨hash, hprod, hprod⟩, Nat.lt_succ_self _, fun q hq _ => ?_⟩, trivial⟩
      exact (hserialized.promoted q hq).committed
  | check hcheck =>
      obtain ⟨htxn, hstage⟩ := hvalidated
      have hnext := checkPromotion_fits hwf hrecorded htxn hstage hcheck
      exact ⟨htxn.later hlater ⟨rfl, fun _ hprod => hprod⟩ fun _ hq _ => hq, hnext.later hlater⟩
  | reloadPromotion =>
      obtain ⟨htxn, hdecision, hlatest⟩ := hvalidated
      exact ⟨htxn.later hlater ⟨rfl, fun _ hprod => hprod⟩ fun _ hq _ => hq,
        ⟨hdecision.1.later hlater, hdecision.2⟩, hlatest.later hlater⟩
  | _ => trivial

/-- What another promotion knows stays true: the acting client does not hold its lock. -/
theorem Phase.Validated.kept {other : Phase} (hother : other.Validated s.shared)
    (hapart : phase.Apart other)
    (heffect : Effect p phase.lockedSystem s.shared.db shared'.db)
    (h : Move p s phase a shared' phase') : other.Validated shared' := by
  have hlater := h.later heffect
  cases other with
  | promoting txn stage =>
      obtain ⟨htxn, hstage⟩ := hother
      have hlock : phase.lockedSystem ≠ some txn.genome.systemId := fun hlock =>
        hapart.locks _ hlock rfl
      refine ⟨htxn.later hlater (heffect.production _ hlock) (fun q hq hsys => ?_),
        hstage.later hlater⟩
      rcases h.promoted with hpromoted | ⟨txn', decision, latest, loaded, rfl, hpromoted⟩
      · rw [← hpromoted]
        exact hq
      · rw [hpromoted] at hq
        rcases List.mem_append.mp hq with hq | hq
        · exact hq
        · rw [List.mem_singleton.mp hq] at hsys
          exact absurd (congrArg some hsys) hlock
  | _ => trivial

theorem Move.serialized (hserialized : s.shared.Serialized)
    (hvalidated : phase.Validated s.shared)
    (heffect : Effect p phase.lockedSystem s.shared.db shared'.db)
    (h : Move p s phase a shared' phase') : shared'.Serialized := by
  have hlater := h.later heffect
  have hkept : ∀ q ∈ s.shared.promoted, q.Fits shared' := fun q hq =>
    (hserialized.promoted q hq).later hlater
  have hsteps := h.steps
  rcases h.promoted with hpromoted | ⟨txn, decision, latest, loaded, rfl, hpromoted⟩
  · refine ⟨?_, ?_⟩
    · rw [hpromoted]
      exact hkept
    · rw [hpromoted]
      exact hserialized.serialized
  · obtain ⟨htxn, hdecision, hlatest⟩ := hvalidated
    refine ⟨fun q hq => ?_, ?_⟩
    · rw [hpromoted] at hq
      rcases List.mem_append.mp hq with hq | hq
      · exact hkept q hq
      · rw [List.mem_singleton.mp hq]
        refine ⟨?_, ⟨hdecision.1.later hlater, hdecision.2⟩, hlatest.later hlater⟩
        show s.shared.steps < shared'.steps
        omega
    · rw [hpromoted, List.pairwise_append]
      refine ⟨hserialized.serialized, List.pairwise_singleton _ _, fun q hq r hr hsys => ?_⟩
      rw [List.mem_singleton.mp hr] at hsys ⊢
      exact htxn.alone q hq hsys

end Step

/-! ## All runs -/

/-- Every promotion was validated, under its lock. -/
abbrev Validated (s : Clients n) : Prop :=
  Holds Service.Serialized (fun shared phase => Phase.Validated shared phase)
    (fun _ _ => True) s

theorem Validated.step {s s' : Clients n} {a : Fin n × Action} (h : Validated s)
    (hcoherent : Coherent p s) (hwritten : WrittenOnce p s)
    (hstep : concurrentStep p s a = some s') : Validated s' := by
  refine Holds.step (fun _ _ _ => trivial) h hstep (fun r hr => ?_) (fun r hr j hj => ?_)
  · obtain ⟨hmove, heffect⟩ := hcoherent.move hr
    exact ⟨hmove.serialized h.shared (h.own a.1) heffect,
      hmove.validated hcoherent.shared hwritten.shared h.shared (h.own a.1) heffect,
      fun _ _ => trivial⟩
  · obtain ⟨hmove, heffect⟩ := hcoherent.move hr
    exact (h.own j).kept (hcoherent.apart a.1 j (Ne.symm hj)) heffect hmove

theorem validated_of_run {s : Clients n} {actions : List (Fin n × Action)}
    (h : Transition.run (concurrentStep p) (Clients.start n) actions = some s) :
    WrittenOnce p s ∧ Validated s := by
  have hstep : ∀ (t : Clients n) (a : Fin n × Action) (t' : Clients n),
      (Coherent p t ∧ WrittenOnce p t) ∧ Validated t → concurrentStep p t a = some t' →
      (Coherent p t' ∧ WrittenOnce p t') ∧ Validated t' := by
    rintro t a t' ⟨⟨hcoherent, hwritten⟩, hvalidated⟩ hstep
    exact ⟨⟨hcoherent.step hstep, hwritten.step hcoherent hstep⟩,
      hvalidated.step hcoherent hwritten hstep⟩
  have hstart : (Coherent p (Clients.start n) ∧ WrittenOnce p (Clients.start n)) ∧
      Validated (Clients.start n) := by
    refine ⟨⟨coherent_start p n, writtenOnce_start p n⟩, ⟨fun q hq => ?_, List.Pairwise.nil⟩,
      fun _ => trivial, fun _ _ _ => trivial⟩
    cases hq
  obtain ⟨⟨-, hwritten⟩, hvalidated⟩ := Transition.run_invariant hstep hstart h
  exact ⟨hwritten, hvalidated⟩

/-- The latest approving decision a promotion has read. -/
def Promoted.approving (q : Promoted) : PromotionRecord :=
  match q.latest with
  | some latest => if latest.approved then latest else q.decision
  | none => q.decision

/-- A promotion's approving decision was computed from evidence against the given baseline. -/
def MeasuredAgainst (shared : Service) (q : Promoted) (baseline : String) : Prop :=
  ∃ x ∈ shared.decided, x.record = q.approving ∧ x.evidence.baselineHash = baseline

/-- The decision the validation has read approves too, or its experiment has the baseline of
    the one the first check has read. -/
def SecondReadAgrees (db : Database) (q : Promoted) : Prop :=
  ∃ latest, q.latest = some latest ∧
    (latest.approved = true ∨ recordBaseline db latest = recordBaseline db q.decision)

/-- The baseline of a decision's experiment is that of its evidence. -/
theorem recordBaseline_of_decided {shared : Service} (hrecorded : shared.Recorded p)
    {x : Decided} (hx : x ∈ shared.decided) :
    recordBaseline shared.db x.record = some x.evidence.baselineHash := by
  have hfits := hrecorded.decided x hx
  rw [recordBaseline_eq hfits, hfits.baseline]

theorem MeasuredAgainst.unique {shared : Service} (hrecorded : shared.Recorded p)
    {q : Promoted} {baseline baseline' : String} (h : MeasuredAgainst shared q baseline)
    (h' : MeasuredAgainst shared q baseline') : baseline = baseline' := by
  obtain ⟨x, hx, hxrecord, rfl⟩ := h
  obtain ⟨y, hy, hyrecord, rfl⟩ := h'
  have hxbase := recordBaseline_of_decided hrecorded hx
  have hybase := recordBaseline_of_decided hrecorded hy
  rw [hxrecord] at hxbase
  rw [hyrecord, hxbase] at hybase
  exact Option.some.inj hybase

theorem measuredAgainst_iff {s : Clients n} (hrecorded : s.shared.Recorded p) {q : Promoted}
    (hfits : q.Fits s.shared) :
    (∃ baseline, q.txn.production = some baseline ∧ MeasuredAgainst s.shared q baseline) ↔
      SecondReadAgrees s.shared.db q := by
  obtain ⟨-, ⟨⟨⟨x, hx, hxrecord⟩, -⟩, happroved⟩, latest, hash, hlatest,
    ⟨⟨y, hy, hyrecord⟩, -⟩, hbase, hproduction⟩ := hfits
  have hbaseline : ∀ z ∈ s.shared.decided, _ := fun z hz =>
    recordBaseline_of_decided hrecorded hz
  constructor
  · rintro ⟨baseline, hprod, z, hz, hzrecord, hzbase⟩
    refine ⟨latest, hlatest, ?_⟩
    by_cases happroves : latest.approved = true
    · exact .inl happroves
    · -- the approving decision is the first one
      have hfirst : q.approving = q.decision := by
        unfold Promoted.approving
        rw [hlatest]
        exact if_neg happroves
      have hz' := hbaseline z hz
      rw [hzrecord, hfirst, hzbase] at hz'
      rw [hproduction] at hprod
      exact .inr (by rw [hbase, hz', hprod])
  · rintro ⟨latest', hlatest', hagrees⟩
    rw [hlatest] at hlatest'
    obtain rfl := Option.some.inj hlatest'
    refine ⟨hash, hproduction, ?_⟩
    by_cases happroves : latest.approved = true
    · refine ⟨y, hy, ?_, ?_⟩
      · unfold Promoted.approving
        rw [hlatest, hyrecord]
        exact (if_pos happroves).symm
      · have hy' := hbaseline y hy
        rw [hyrecord, hbase] at hy'
        exact (Option.some.inj hy').symm
    · have hsame := hagrees.resolve_left happroves
      refine ⟨x, hx, ?_, ?_⟩
      · unfold Promoted.approving
        rw [hlatest, hxrecord]
        exact (if_neg happroves).symm
      · have hx' := hbaseline x hx
        rw [hxrecord, ← hsame, hbase] at hx'
        exact (Option.some.inj hx').symm

/-- **What a promotion was measured against.** However promotions, rollbacks, reviews and
    runs interleave, the latest approving decision a promotion has read was computed from
    holdout evidence against the genome that was in production when the promotion took its
    lock, exactly when the decision its validation read agrees with the one its first check
    read. And of two promotions of an application the second starts after the first was
    committed; if both were measured against one baseline and the second's reads agree,
    that baseline was in production again. -/
theorem promotion_validated_iff (p : Platform) (n : ℕ) (actions : List (Fin n × Action))
    (s : Clients n)
    (hrun : Transition.run (concurrentStep p) (Clients.start n) actions = some s) :
    (∀ q ∈ s.shared.promoted,
      (∃ baseline, q.txn.production = some baseline ∧ MeasuredAgainst s.shared q baseline) ↔
        SecondReadAgrees s.shared.db q) ∧
    s.shared.promoted.Pairwise fun q r =>
      q.txn.genome.systemId = r.txn.genome.systemId →
      q.committed < r.txn.started ∧
        ∀ baseline, MeasuredAgainst s.shared q baseline → MeasuredAgainst s.shared r baseline →
          SecondReadAgrees s.shared.db r → r.txn.production = some baseline := by
  obtain ⟨hwritten, hvalidated⟩ := validated_of_run hrun
  have hrecorded := hwritten.shared
  obtain ⟨hpromoted, hserialized⟩ := hvalidated.shared
  refine ⟨fun q hq => measuredAgainst_iff hrecorded (hpromoted q hq), ?_⟩
  refine hserialized.imp_of_mem fun {q r} _ hr horder hsys => ⟨horder hsys, ?_⟩
  intro baseline _ hmeasured hagrees
  obtain ⟨baseline', hproduction, hmeasured'⟩ :=
    (measuredAgainst_iff hrecorded (hpromoted r hr)).mpr hagrees
  rw [hproduction, hmeasured.unique hrecorded hmeasured']

section Example

/-- Two genomes are approved against the original and one of them is promoted. While the
    other's promotion is between its checks, a review against the new champion rejects it. -/
def staleApproval : List (Fin 2 × Action) :=
  [(c₀, .create (exampleBody exp1 "champion" 1 usualFloor)),
    (c₀, .startRun "exp-1" none),
    (c₀, .endRun (.ok (exampleResult exampleOriginal exampleBetter))),
    (c₀, .create (exampleBody exp2 "champion" 2 usualFloor)),
    (c₀, .startRun "exp-2" none),
    (c₀, .endRun (.ok (exampleResult exampleOriginal exampleBest))),
    (c₀, .review "exp-1" "app-40"), (c₀, .insert), (c₀, .commit 7),
    (c₀, .canary ⟨"app-5", "app-40", "app-dataset", .ok (1 / 10, false)⟩), (c₀, .commit 8),
    (c₀, .review "exp-2" "app-45"), (c₀, .insert), (c₀, .commit 9),
    (c₀, .canary ⟨"app-5", "app-45", "app-dataset", .ok (1 / 10, false)⟩), (c₀, .commit 10),
    (c₀, .promote "app-45" (some "exp-2") "admin"), (c₀, .check), (c₀, .check), (c₀, .check),
    (c₀, .check), (c₀, .commit 11),
    (c₀, .create (exampleBody exp3 "champion" 3 highFloor)),
    (c₀, .startRun "exp-3" none),
    (c₀, .endRun (.ok (exampleResult { exampleBest with status := .promoted } exampleBetter))),
    (c₁, .promote "app-40" (some "exp-1") "admin"), (c₁, .check),
    (c₀, .review "exp-3" "app-40"), (c₀, .commit 12),
    (c₁, .check), (c₁, .check), (c₁, .check), (c₁, .commit 13)]

/-- The promotion goes through on the approval of before. -/
theorem stale_approval_promoted : ∃ s,
    Transition.run (concurrentStep examplePlatform) (Clients.start 2) staleApproval = some s ∧
      ∃ q ∈ s.shared.promoted, q.txn.production = some "app-45" ∧
        ¬ MeasuredAgainst s.shared q "app-45" := by
  have hrun : ((Transition.run (concurrentStep examplePlatform) (Clients.start 2)
      staleApproval).map fun s => decide (∃ q ∈ s.shared.promoted,
        q.txn.production = some "app-45" ∧ ∀ x ∈ s.shared.decided,
          x.record.id = q.approving.id → x.evidence.baselineHash ≠ "app-45")) = some true := by
    decide +kernel
  obtain ⟨s, hs, hstale⟩ := Option.map_eq_some_iff.mp hrun
  obtain ⟨q, hq, hproduction, hother⟩ := of_decide_eq_true hstale
  refine ⟨s, hs, q, hq, hproduction, ?_⟩
  rintro ⟨x, hx, hrecord, hbaseline⟩
  exact hother x hx (congrArg PromotionRecord.id hrecord) hbaseline

theorem promotion_validated_fails : ¬ ∀ (p : Platform) (n : ℕ)
    (actions : List (Fin n × Action)) (s : Clients n),
    Transition.run (concurrentStep p) (Clients.start n) actions = some s →
    ∀ q ∈ s.shared.promoted, ∃ baseline, q.txn.production = some baseline ∧
      MeasuredAgainst s.shared q baseline := by
  intro hall
  obtain ⟨s, hs, q, hq, hproduction, hstale⟩ := stale_approval_promoted
  obtain ⟨baseline, hbaseline, hmeasured⟩ := hall examplePlatform 2 staleApproval s hs q hq
  rw [hproduction] at hbaseline
  rw [← Option.some.inj hbaseline] at hmeasured
  exact hstale hmeasured

/-- The two reads of that promotion do not agree. -/
theorem promotion_validated_iff_stale : ∃ (s : Clients 2) (q : Promoted),
    Transition.run (concurrentStep examplePlatform) (Clients.start 2) staleApproval = some s ∧
      q ∈ s.shared.promoted ∧ q.txn.production = some "app-45" ∧
      ((∃ baseline, q.txn.production = some baseline ∧ MeasuredAgainst s.shared q baseline) ↔
        SecondReadAgrees s.shared.db q) ∧
      ¬ SecondReadAgrees s.shared.db q := by
  obtain ⟨s, hs, q, hq, hproduction, hstale⟩ := stale_approval_promoted
  have hiff := (promotion_validated_iff examplePlatform 2 staleApproval s hs).1 q hq
  refine ⟨s, q, hs, hq, hproduction, hiff, fun hagrees => ?_⟩
  obtain ⟨baseline, hbaseline, hmeasured⟩ := hiff.mpr hagrees
  rw [hproduction] at hbaseline
  rw [← Option.some.inj hbaseline] at hmeasured
  exact hstale hmeasured

end Example

end NeuroForge
