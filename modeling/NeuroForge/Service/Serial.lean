/-
  A request that nobody interrupts.

  While the others wait, a client takes a request through its steps one after the other, and
  leaves the database that `serve` leaves (`serve_alone`). So every serialized history is a
  run of the concurrent service, whoever sends its requests (`serial_interleaved`).
-/
import NeuroForge.Service.Concurrent
import NeuroForge.Service.Effects

namespace NeuroForge

open Fallible Database Interleaving Transition

variable (p : Platform) {n : ℕ}

/-- Everybody waits but one client. -/
def alone (i : Fin n) (shared : Service) (phase : Phase) : Clients n :=
  ⟨shared, Function.update (fun _ => .idle) i phase⟩

@[simp] theorem phase_alone (i : Fin n) (shared : Service) (phase : Phase) :
    (alone i shared phase).phase i = phase := by
  simp [alone]

@[simp] theorem shared_alone (i : Fin n) (shared : Service) (phase : Phase) :
    (alone i shared phase).shared = shared := rfl

@[simp] theorem Service.db_tick (shared : Service) : shared.tick.db = shared.db := rfl

theorem alone_idle (i j : Fin n) (shared : Service) :
    alone i shared .idle = alone j shared .idle := by
  unfold alone
  rw [Function.update_eq_self_iff.mpr rfl, Function.update_eq_self_iff.mpr rfl]

theorem phase_alone_idle (i j : Fin n) (shared : Service) :
    (alone i shared .idle).phase j = .idle := by
  rw [alone_idle i j]
  exact phase_alone j shared .idle

/-- A client that has not claimed a key leaves it to itself. -/
theorem unclaimed_alone {i : Fin n} {shared : Service} {phase : Phase}
    {key : String × String × ℕ} (h : phase.pendingKey = none) :
    Unclaimed (alone i shared phase) key := by
  intro j
  by_cases hj : j = i
  · subst hj
    rw [phase_alone, h]
    exact nofun
  · unfold alone
    dsimp only
    rw [Function.update_of_ne hj]
    exact nofun

theorem unlocked_alone (i : Fin n) (shared : Service) (systemId : String) :
    Unlocked (alone i shared .idle) systemId := by
  intro j
  rw [phase_alone_idle]
  exact nofun

theorem step_alone {i : Fin n} {shared shared' : Service} {phase phase' : Phase} {a : Action}
    (h : next p (alone i shared phase) i a = some (shared', phase')) :
    concurrentStep p (alone i shared phase) (i, a) = some (alone i shared' phase') := by
  refine step_eq_some.mpr ⟨_, h, ?_⟩
  unfold alone
  dsimp only
  rw [Function.update_idem]

/-- Left alone, the client can finish what it is at, and the database is then `db`. -/
def Finishes (i : Fin n) (shared : Service) (phase : Phase) (db : Database) : Prop :=
  ∃ as shared', run (concurrentStep p) (alone i shared phase) as =
    some (alone i shared' .idle) ∧ shared'.db = db

namespace Finishes

variable {p} {i : Fin n} {shared shared' : Service} {phase phase' : Phase} {db : Database}

theorem done (i : Fin n) (shared : Service) : Finishes p i shared .idle shared.db :=
  ⟨[], shared, rfl, rfl⟩

theorem step (a : Action) (hnext : next p (alone i shared phase) i a = some (shared', phase'))
    (h : Finishes p i shared' phase' db) : Finishes p i shared phase db := by
  obtain ⟨as, last, hrun, hdb⟩ := h
  refine ⟨(i, a) :: as, last, ?_, hdb⟩
  rw [run_cons, step_alone p hnext]
  exact hrun

end Finishes

/-! ## The requests -/

section Requests

variable {p} {i : Fin n} {shared : Service} {db' : Database}

theorem create_alone {body : ExperimentCreateRequest}
    (h : createExperiment p shared.db body = .ok db') : Finishes p i shared .idle db' := by
  have hcreate : next p (alone i shared .idle) i (.create body) =
      some (shared.write db', .idle) := by
    unfold next
    simp only [phase_alone, shared_alone, h]
    rfl
  exact .step _ hcreate (.done i _)

theorem run_alone {experimentId : String} {checkpoint : Option ExperimentCheckpoint}
    {answer : Except String ExperimentResult}
    (hposs : Possible shared.db (.runExperiment experimentId checkpoint answer)) :
    Finishes p i shared .idle (serveRun p shared.db experimentId checkpoint answer).2 := by
  unfold serveRun
  cases hload : loadRun shared.db experimentId with
  | error e => exact .done i shared
  | ok record =>
      dsimp only
      cases hstart : startRun shared.db record checkpoint with
      | error e =>
          have hfailed : next p (alone i shared .idle) i (.startRun experimentId checkpoint) =
              some (shared.write (markExperiment shared.db record.applicationId record.config
                .failed), .idle) := by
            unfold next
            simp only [phase_alone, shared_alone, hload, hstart]
          exact .step _ hfailed (.done i _)
      | ok input =>
          have hstarted : next p (alone i shared .idle) i (.startRun experimentId checkpoint) =
              some (shared.write (markExperiment shared.db input.applicationId input.config
                .running), .running input) := by
            unfold next
            simp only [phase_alone, shared_alone, hload, hstart]
          cases answer with
          | error message =>
              have hended : next p (alone i (shared.write (markExperiment shared.db
                  input.applicationId input.config .running)) (.running input)) i
                  (.endRun (.error message)) = some ((shared.write (markExperiment shared.db
                  input.applicationId input.config .running)).write (markExperiment
                  (markExperiment shared.db input.applicationId input.config .running)
                  input.applicationId input.config .failed), .idle) := by
                unfold next
                simp only [phase_alone]
                rfl
              have hfinish := Finishes.step _ hstarted (.step _ hended (.done i _))
              dsimp only [Service.write] at hfinish
              rwa [markExperiment_again] at hfinish
          | ok result =>
              have hresult : ResultOf input.baseline input.dataset result := by
                unfold Possible at hposs
                simpa only [hload, hstart] using hposs
              have hended : next p (alone i (shared.write (markExperiment shared.db
                  input.applicationId input.config .running)) (.running input)) i
                  (.endRun (.ok result)) = some ((shared.write (markExperiment shared.db
                  input.applicationId input.config .running)).write (finishRun p.genomeDigest
                  (markExperiment shared.db input.applicationId input.config .running)
                  input result), .idle) := by
                unfold next
                simp only [phase_alone, if_pos hresult]
                rfl
              exact .step _ hstarted (.step _ hended (.done i _))

theorem review_alone {experimentId genomeHash : String} {now : ℕ} {review : PromotionReview}
    (h : reviewPromotion p shared.db experimentId genomeHash now = .ok (review, db')) :
    Finishes p i shared .idle db' := by
  obtain ⟨input, used, settled, hlookup, hsettle, -, rfl⟩ := reviewPromotion_ok h
  unfold settleEvidence at hsettle
  obtain ⟨planned, hplan, hsettle⟩ := bind_eq_ok.mp hsettle
  have hread : next p (alone i shared .idle) i (.review experimentId genomeHash) =
      some (shared.tick, .reviewing input planned) := by
    unfold next
    simp only [phase_alone, shared_alone, hlookup, hplan]
    rfl
  refine .step _ hread ?_
  have hcommit (shared' : Service) (evidence : HoldoutEvidence) (reused : Bool) :
      Finishes p i shared' (.reviewing input (.settled evidence reused))
        (conclude shared'.db input evidence now) := by
    refine .step (.commit now) ?_ (.done i (shared'.decide shared'.db input evidence now))
    unfold next
    simp only [phase_alone]
    rfl
  cases planned with
  | settled evidence reused =>
      obtain ⟨rfl, rfl⟩ := Prod.mk.inj (pure_eq_ok.mp hsettle)
      exact hcommit shared.tick evidence reused
  | store evidence =>
      dsimp only at hsettle
      split at hsettle
      · rename_i stored hstored
        obtain ⟨rfl, rfl⟩ := Prod.mk.inj (pure_eq_ok.mp hsettle)
        have hunclaimed : Unclaimed (alone i shared.tick (.reviewing input (.store evidence)))
            input.key :=
          unclaimed_alone rfl
        have hinsert : next p (alone i shared.tick (.reviewing input (.store evidence))) i
            .insert = some (shared.tick.tick, .inserted input evidence) := by
          unfold next
          simp only [phase_alone, shared_alone, Service.db_tick, hstored, if_pos hunclaimed]
        have hconclude : next p (alone i shared.tick.tick (.inserted input evidence)) i
            (.commit now) = some (shared.tick.tick.decide stored input evidence now, .idle) := by
          unfold next
          simp only [phase_alone, shared_alone, Service.db_tick, hstored]
          rfl
        exact .step _ hinsert (.step _ hconclude (.done i _))
      · rename_i htaken
        obtain ⟨winner, hwinner, hsettle⟩ := bind_eq_ok.mp hsettle
        obtain ⟨rfl, rfl⟩ := Prod.mk.inj (pure_eq_ok.mp hsettle)
        have hinsert : next p (alone i shared.tick (.reviewing input (.store evidence))) i
            .insert = some (shared.tick.tick, .conflicted input evidence) := by
          unfold next
          simp only [phase_alone, shared_alone, Service.db_tick, htaken]
        have hloser : next p (alone i shared.tick.tick (.conflicted input evidence)) i
            .lookupWinner = some (shared.tick.tick.tick,
              .reviewing input (.settled winner.1 winner.2)) := by
          unfold next
          simp only [phase_alone, shared_alone, Service.db_tick, hwinner]
          rfl
        exact .step _ hinsert (.step _ hloser (hcommit shared.tick.tick.tick _ _))

theorem canary_alone {body : CanaryRequest} {input : CanaryInput} (now : ℕ)
    (h : canaryLookup shared.db body = .ok input) :
    Finishes p i shared .idle (recordCanary p.genomeDigest shared.db input now) := by
  have hread : next p (alone i shared .idle) i (.canary body) =
      some (shared.tick, .canarying input) := by
    unfold next
    simp only [phase_alone, shared_alone, h]
    rfl
  have hcommit : next p (alone i shared.tick (.canarying input)) i (.commit now) =
      some (shared.tick.write (recordCanary p.genomeDigest shared.db input now), .idle) := by
    unfold next
    simp only [phase_alone]
    rfl
  exact .step _ hread (.step _ hcommit (.done i _))

theorem rollback_alone {systemId approvedBy : String} {now : ℕ} {outcome : RollbackOutcome}
    (h : rollbackProduction shared.db systemId approvedBy now = .ok (outcome, db')) :
    Finishes p i shared .idle db' := by
  unfold rollbackProduction at h
  obtain ⟨current, hcurrent, h⟩ := bind_eq_ok.mp h
  rw [pure_eq_ok] at h
  obtain ⟨-, rfl⟩ := Prod.mk.inj h
  have hread : next p (alone i shared .idle) i (.rollback systemId approvedBy) =
      some (shared.tick, .rollingBack systemId approvedBy current shared.db.statusOf) := by
    unfold next
    simp only [phase_alone, shared_alone, hcurrent, if_pos (unlocked_alone i shared systemId)]
  have hcommit : next p (alone i shared.tick
      (.rollingBack systemId approvedBy current shared.db.statusOf)) i (.commit now) =
      some (shared.tick.write (commitRollback shared.db shared.db.statusOf systemId current
        approvedBy now).2, .idle) := by
    unfold next
    simp only [phase_alone]
    rfl
  exact .step _ hread (.step _ hcommit (.done i _))

/-- A promotion whose checks all pass. -/
theorem checks_alone {txn : Promoting} {decision : PromotionRecord}
    (hrow : shared.db.getGenomeRecord txn.genome.hash = some txn.genome)
    (hdecision : approvedDecision shared.db txn.genome.hash = .ok decision)
    (hcanary : checkCanary shared.db txn.genome.hash = .ok ())
    (hvalidated : ensureValidatedAgainstProduction shared.db txn.genome = .ok ()) (now : ℕ) :
    Finishes p i shared (.promoting txn .locked) (commitPromotion shared.db shared.db.statusOf
      txn.genome txn.experimentId txn.approvedBy now).2 := by
  have hcheck (shared' : Service) (hdb : shared'.db = shared.db)
      {stage stage' : PromotionStage} {db' : Database}
      (hpass : checkPromotion shared.db txn stage = some stage')
      (h : Finishes p i shared'.tick (.promoting txn stage') db') :
      Finishes p i shared' (.promoting txn stage) db' := by
    refine .step .check ?_ h
    unfold next
    simp only [phase_alone, shared_alone, hdb, hpass]
    rfl
  have happroved : checkPromotion shared.db txn .locked = some (.approved decision) := by
    simp only [checkPromotion, hdecision]
    rfl
  have hcanaried : checkPromotion shared.db txn (.approved decision) =
      some (.canaried decision) := by
    simp only [checkPromotion, hcanary]
    rfl
  have hread : checkPromotion shared.db txn (.canaried decision) = some (.validated decision
      (shared.db.latestPromotionDecision txn.genome.hash)
      (validatedAgainst shared.db txn.genome)) := rfl
  have hloaded : (fun h => if h = txn.genome.hash then some txn.genome.status
      else shared.db.statusOf h) = shared.db.statusOf := by
    funext h
    split_ifs with hh
    · rw [hh]
      unfold statusOf
      rw [hrow]
      rfl
    · rfl
  have hready : checkPromotion shared.db txn (.validated decision
      (shared.db.latestPromotionDecision txn.genome.hash)
      (validatedAgainst shared.db txn.genome)) = some (.ready decision
        (shared.db.latestPromotionDecision txn.genome.hash) shared.db.statusOf) := by
    unfold ensureValidatedAgainstProduction at hvalidated
    simp only [checkPromotion, hvalidated, hloaded]
    rfl
  refine hcheck shared rfl happroved (hcheck shared.tick rfl hcanaried
    (hcheck shared.tick.tick rfl hread (hcheck shared.tick.tick.tick rfl hready ?_)))
  refine .step (.commit now) ?_ (.done i (shared.tick.tick.tick.tick.promote txn decision
    (shared.db.latestPromotionDecision txn.genome.hash) shared.db.statusOf now))
  unfold next
  simp only [phase_alone]
  rfl

theorem promote_alone {genomeHash approvedBy : String} {experimentId : Option String} {now : ℕ}
    {outcome : PromotionOutcome}
    (h : promoteToProduction shared.db genomeHash experimentId approvedBy now =
      .ok (outcome, db')) : Finishes p i shared .idle db' := by
  unfold promoteToProduction at h
  obtain ⟨genome, hgenome, h⟩ := bind_eq_ok.mp h
  obtain ⟨_, hstatus, h⟩ := bind_eq_ok.mp h
  obtain ⟨decision, hdecision, h⟩ := bind_eq_ok.mp h
  obtain ⟨_, hcanary, h⟩ := bind_eq_ok.mp h
  obtain ⟨_, hvalidated, h⟩ := bind_eq_ok.mp h
  obtain ⟨-, rfl⟩ := Prod.mk.inj (pure_eq_ok.mp h)
  obtain rfl : genome.hash = genomeHash := hash_of_getGenomeRecord (loadGenome_ok hgenome)
  have hbegin : next p (alone i shared .idle) i
      (.promote genome.hash experimentId approvedBy) = some (shared.tick,
        .promoting ⟨genome, experimentId, approvedBy, shared.steps,
          productionHash shared.db genome.systemId⟩ .locked) := by
    unfold next
    simp only [phase_alone, beginPromotion, shared_alone, hgenome, hstatus,
      if_pos (unlocked_alone i shared genome.systemId)]
  exact .step _ hbegin (checks_alone (loadGenome_ok hgenome) hdecision hcanary hvalidated now)

/-- Whatever is requested, a client left alone gets it served. -/
theorem serve_alone (t : Timed) (hposs : Possible shared.db t.request) :
    Finishes p i shared .idle (serve p shared.db t).2 := by
  obtain ⟨now, request⟩ := t
  unfold serve
  cases request with
  | createExperiment body =>
      dsimp only
      cases h : createExperiment p shared.db body with
      | error e => exact .done i shared
      | ok db' => exact create_alone h
  | runExperiment experimentId checkpoint answer => exact run_alone hposs
  | requestPromotion experimentId genomeHash =>
      dsimp only
      cases h : reviewPromotion p shared.db experimentId genomeHash now with
      | error e => exact .done i shared
      | ok review => exact review_alone h
  | runCanary body =>
      dsimp only
      cases h : canaryLookup shared.db body with
      | error e => exact .done i shared
      | ok input => exact canary_alone now h
  | finalizePromotion genomeHash experimentId approvedBy =>
      dsimp only
      cases h : promoteToProduction shared.db genomeHash experimentId approvedBy now with
      | error e => exact .done i shared
      | ok outcome => exact promote_alone h
  | rollbackPromotion systemId approvedBy =>
      dsimp only
      cases h : rollbackProduction shared.db systemId approvedBy now with
      | error e => exact .done i shared
      | ok outcome => exact rollback_alone h
  | saveDataset dataset =>
      have hsaved : next p (alone i shared .idle) i (.saveDataset dataset) =
          some (shared.write (shared.db.saveDatasetVersion dataset), .idle) := by
        unfold next
        simp only [phase_alone, shared_alone]
      exact .step _ hsaved (.done i _)

end Requests

/-- Nobody is in a transaction, and this is the database. -/
def Rests (db : Database) (s : Clients n) : Prop := s.shared.db = db ∧ ∀ j, s.phase j = .idle

/-- **Serialized histories are runs of the concurrent service.** Whoever sends the requests
    of a history that is served one request at a time, the clients' steps can be taken in an
    order that leads to the same database, with nobody left in a transaction. -/
theorem serial_interleaved {history : List (Fin n × Timed)} {db : Database}
    (h : run (fun db a => serialStep p db a.2) {} history = some db) :
    ∃ as s, run (concurrentStep p) (Clients.start n) as = some s ∧ Rests db s := by
  refine run_implements (fun db s a db' hrests hstep => ?_) ⟨rfl, fun _ => rfl⟩ h
  obtain ⟨i, t⟩ := a
  obtain ⟨rfl, hidle⟩ := hrests
  unfold serialStep at hstep
  split_ifs at hstep with hposs
  obtain rfl := Option.some.inj hstep
  have halone : s = alone i s.shared .idle := by
    obtain ⟨shared, phase⟩ := s
    obtain rfl : phase = fun _ => .idle := funext hidle
    unfold alone
    rw [Function.update_eq_self_iff.mpr rfl]
  obtain ⟨as, shared', hrun, hdb⟩ := serve_alone t hposs
  rw [← halone] at hrun
  exact ⟨as, _, hrun, hdb, fun j => phase_alone_idle i j shared'⟩

end NeuroForge
