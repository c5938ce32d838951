/-
  Status reads that declare a run dead.

  A read that finds the row running for too long tests the run lock and, if nobody holds it,
  sets the row to failed when its request ends. The lock is released before the result is
  committed, so a run can look dead when it has just succeeded; if its result is committed
  before the read is, the read overwrites it. `result_stands_iff`: the row has the status of
  the last result, until there is another attempt or an enqueue, exactly when no read commits
  its verdict on a row that holds a result.
-/
import NeuroForge.Service.RunControl

namespace NeuroForge.RunControl

variable {ι : Type}

/-- The status a run is about to record. -/
def Phase.resultStatus : Phase → Option ExperimentStatus
  | .cleaning _ (.answered status) => some status
  | .recording _ status => some status
  | _ => none

section Effects

variable {s t : State ι} {i : ι} {move : Move} {x y : Phase}

/-- What a step does to the row: nothing, or another attempt or an enqueue, a result, or the
    verdict of a read. -/
theorem Did.row (h : Did s i move x t y) :
    t.status = s.status ∧ t.committed = s.committed ∨ t.committed = none ∨
      (∃ status, x.resultStatus = some status ∧ t.status = status ∧ t.committed = some status) ∨
      move = .request .commitVerdict ∧ t.status = .failed ∧ t.committed = s.committed := by
  cases h with
  | begin => exact .inr (.inl rfl)
  | giveUp => exact .inr (.inl rfl)
  | save => exact .inr (.inl rfl)
  | markFailed => exact .inr (.inl rfl)
  | enqueue => exact .inr (.inl rfl)
  | pushFailed => exact .inr (.inl rfl)
  | record background status => exact .inr (.inr (.inl ⟨status, rfl, rfl, rfl⟩))
  | commitVerdict => exact .inr (.inr (.inr ⟨rfl, rfl, rfl⟩))
  | _ => exact .inl ⟨rfl, rfl⟩

theorem resultStatus_afterAttempt (background : Bool) (outcome : Outcome) :
    (afterAttempt background outcome).resultStatus = none := by
  cases background <;> rfl

/-- A run that answers has not failed. -/
theorem Did.result (h : Did s i move x t y)
    (hx : ∀ status, x.resultStatus = some status → status ≠ .failed) {status : ExperimentStatus}
    (hy : y.resultStatus = some status) : status ≠ .failed := by
  cases h with
  | releaseCancelled =>
      rw [← Option.some.inj hy]
      intro heq
      cases heq
  | releaseCompleted =>
      rw [← Option.some.inj hy]
      intro heq
      cases heq
  | cleanAnswered => exact hx status hy
  | wait => exact hx status hy
  | giveUp background => exact nomatch (resultStatus_afterAttempt _ _).symm.trans hy
  | cleanOther => exact nomatch (resultStatus_afterAttempt _ _).symm.trans hy
  | record => exact nomatch (resultStatus_afterAttempt _ _).symm.trans hy
  | noFile purpose y hanswer => rcases hanswer with rfl | rfl <;> cases hy
  | unlock purpose y hanswer => rcases hanswer with rfl | rfl <;> cases hy
  | _ => cases hy

end Effects

/-! ## Results and verdicts -/

/-- The row has the status of the last result. -/
def ResultStands (s : Clients ι) : Prop :=
  ∀ status, s.shared.committed = some status → s.shared.status = status

/-- A read commits its verdict on a row that holds no result. -/
def VerdictInTime (s : Clients ι) (a : ι × Move) : Prop :=
  a.2 = .request .commitVerdict → s.shared.committed = none

/-- Results are not failures. -/
structure Succeeds (s : Clients ι) : Prop where
  stands : ResultStands s
  committed : ∀ status, s.shared.committed = some status → status ≠ .failed
  results : ∀ i status, (s.phase i).resultStatus = some status → status ≠ .failed

theorem succeeds_start : Succeeds (start : Clients ι) where
  stands _ h := nomatch h
  committed _ h := nomatch h
  results _ _ h := nomatch h

variable [DecidableEq ι] {s s' : Clients ι} {a : ι × Move}

theorem Succeeds.step (h : Succeeds s) (hok : VerdictInTime s a)
    (hstep : RunControl.step s a = some s') : Succeeds s' := by
  obtain ⟨hdid, hothers⟩ := step_did hstep
  have hresults : ∀ i status, (s'.phase i).resultStatus = some status → status ≠ .failed := by
    intro i status hi
    by_cases hia : i = a.1
    · subst hia
      exact hdid.result (h.results a.1) hi
    · rw [hothers i hia] at hi
      exact h.results i status hi
  rcases hdid.row with ⟨hstatus, hcommitted⟩ | hnone | ⟨result, hx, hstatus, hcommitted⟩ |
    ⟨hmove, -, hcommitted⟩
  · refine ⟨fun status hst => ?_, fun status hst => ?_, hresults⟩
    · rw [hcommitted] at hst
      rw [hstatus]
      exact h.stands status hst
    · rw [hcommitted] at hst
      exact h.committed status hst
  · refine ⟨fun status hst => ?_, fun status hst => ?_, hresults⟩ <;>
    · rw [hnone] at hst
      cases hst
  · refine ⟨fun status hst => ?_, fun status hst => ?_, hresults⟩
    · rw [hcommitted] at hst
      rw [hstatus, ← Option.some.inj hst]
    · rw [hcommitted] at hst
      rw [← Option.some.inj hst]
      exact h.results a.1 result hx
  · refine ⟨fun status hst => ?_, fun status hst => ?_, hresults⟩ <;>
    · rw [hcommitted, hok hmove] at hst
      cases hst

/-- A verdict on a row that holds a result replaces its status. -/
theorem verdictInTime_of_stands (h : Succeeds s) (hstep : RunControl.step s a = some s')
    (hstands : ResultStands s') : VerdictInTime s a := by
  intro hmove
  have hdid := (step_did hstep).1
  rw [hmove] at hdid
  have hverdict : s'.shared.status = .failed ∧ s'.shared.committed = s.shared.committed := by
    generalize s.phase a.1 = x, s'.phase a.1 = y, s'.shared = t at hdid ⊢
    cases hdid with
    | commitVerdict => exact ⟨rfl, rfl⟩
  rcases hcommitted : s.shared.committed with _ | status
  · rfl
  · have hfailed := hstands status (by rw [hverdict.2, hcommitted])
    rw [hverdict.1] at hfailed
    exact absurd hfailed.symm (h.committed status hcommitted)

/-- **Results are not overwritten by reads.** However attempts and status reads interleave,
    the row has the status of the last committed result in every state, until there is another
    attempt or an enqueue, exactly when no read commits its verdict on a row that holds a
    result. -/
theorem result_stands_iff {as : List (ι × Move)}
    (hrun : Transition.run step start as = some s) :
    (∀ pre, pre <+: as → ∀ t, Transition.run step start pre = some t → ResultStands t) ↔
      Transition.Guarded step VerdictInTime start as :=
  Transition.guarded_iff (fun _ (ht : Succeeds _) => ht.stands)
    (fun _ _ _ ht hok hstep => ht.step hok hstep)
    (fun _ _ _ ht hstep hstands => verdictInTime_of_stands ht hstep hstands)
    succeeds_start hrun

section Example

/-- Client `true` reads the row 16 seconds into the run of client `false` and finds the lock
    released; it commits its verdict after the result. -/
def lateVerdict : List (Bool × Move) :=
  [(false, .attempt (.begin false)), (false, .attempt .save), (false, .attempt .openLock),
    (false, .attempt .lock), (false, .wait 16000000), (true, .request (.read .report false)),
    (false, .attempt .leave), (false, .attempt .unlink), (false, .attempt .release),
    (true, .request .lockExists), (true, .request .tryLock), (true, .request .unlock),
    (false, .attempt .cleanUp), (false, .attempt .record), (true, .request .commitVerdict)]

end Example

theorem result_stands_late : ¬ Transition.Guarded step VerdictInTime start lateVerdict := by
  intro hguarded
  have hrun : Transition.run step start lateVerdict = some _ := rfl
  have hstands := (result_stands_iff hrun).mpr hguarded lateVerdict List.prefix_rfl _ hrun
  have hfailed := hstands .completed rfl
  cases hfailed

/-- A run that has succeeded is recorded as failed. -/
theorem result_overwritten : ∃ s : Clients Bool,
    Transition.run step start lateVerdict = some s ∧
      s.shared.committed = some .completed ∧ s.shared.status = .failed :=
  ⟨_, rfl, rfl, rfl⟩

end NeuroForge.RunControl
