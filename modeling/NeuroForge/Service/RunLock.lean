/-
  Exclusion of runs, and its probes.

  The lock is held by at most one client, so at most one run is inside its critical section
  (`run_exclusion_iff`, first part). But `run_lock_is_held` finds out about the lock by
  taking it: while a probe holds it, an attempt is refused and another probe answers `True`
  with no run there. Refusals and answers are about runs exactly when nobody tries the lock
  while a probe holds it (second part).
-/
import NeuroForge.Service.RunControl

namespace NeuroForge.RunControl

open AdvisoryLock

variable {ι : Type} [DecidableEq ι] {s s' : Clients ι} {i : ι} {a : ι × Move}

/-! ## Tries of the lock -/

/-- The step makes an attempt raise `ExperimentAlreadyRunning`. -/
def RaisesAlreadyRunning (a : ι × Move) (s' : Clients ι) : Prop :=
  a.2 = .attempt .lock ∧ ∃ background, s'.phase a.1 = .cleaning background .refused

/-- The step makes a probe answer `True`. -/
def AnswersTrue (a : ι × Move) (s' : Clients ι) : Prop :=
  a.2 = .request .tryLock ∧ ∀ purpose, s'.phase a.1 ≠ .testing purpose

/-- A refusal or an answer `True` is given only while another client's run is inside its
    critical section. -/
def TellsOfRun (s : Clients ι) (a : ι × Move) : Prop :=
  ∀ s', step s a = some s' → RaisesAlreadyRunning a s' ∨ AnswersTrue a s' →
    ∃ j, j ≠ a.1 ∧ (s.phase j).inCritical = true

/-- The lock is tried, by an attempt or by a probe, only while no probe holds it. -/
def NoProbeHolds (s : Clients ι) (a : ι × Move) : Prop :=
  a.2 = .attempt .lock ∨ a.2 = .request .tryLock → ∀ j purpose, s.phase j ≠ .testing purpose

/-- An attempt that tries the lock gets it or is refused. -/
theorem lock_cases (h : step s (i, .attempt .lock) = some s') : ∃ background,
    s.phase i = .opened background ∧
      (s.shared.lockedBy = none ∧ s'.phase i = .critical background s.shared.ended .searching ∨
        s.shared.lockedBy ≠ none ∧ s'.phase i = .cleaning background .refused) := by
  have hdid : Did s.shared i (.attempt .lock) (s.phase i) s'.shared (s'.phase i) := (step_did h).1
  generalize s.phase i = x, s'.phase i = y, s'.shared = t at hdid ⊢
  cases hdid with
  | lock background hfree => exact ⟨background, rfl, .inl ⟨hfree, rfl⟩⟩
  | refused background hheld => exact ⟨background, rfl, .inr ⟨hheld, rfl⟩⟩

/-- A probe that tries the lock gets it or answers `True`. -/
theorem tryLock_cases (h : step s (i, .request .tryLock) = some s') : ∃ purpose,
    s.phase i = .trying purpose ∧
      (s.shared.lockedBy = none ∧ s'.phase i = .testing purpose ∨
        s.shared.lockedBy ≠ none ∧ ∀ purpose', s'.phase i ≠ .testing purpose') := by
  have hdid : Did s.shared i (.request .tryLock) (s.phase i) s'.shared (s'.phase i) :=
    (step_did h).1
  generalize s.phase i = x, s'.phase i = y, s'.shared = t at hdid ⊢
  cases hdid with
  | tryHeld purpose hheld =>
      refine ⟨purpose, rfl, .inr ⟨hheld, fun purpose' heq => ?_⟩⟩
      cases heq
  | acceptHeld hheld =>
      refine ⟨.cancel, rfl, .inr ⟨hheld, fun purpose' heq => ?_⟩⟩
      cases heq
  | tryFree purpose hfree => exact ⟨purpose, rfl, .inl ⟨hfree, rfl⟩⟩

/-- A step that is refused, or answers `True`, has found the lock held. -/
theorem held_of_fails (h : step s a = some s')
    (hfails : RaisesAlreadyRunning a s' ∨ AnswersTrue a s') :
    s.shared.lockedBy ≠ none ∧ (s.phase a.1).holdsLock = false := by
  obtain ⟨i, move⟩ := a
  rcases hfails with ⟨hmove, background', hrefused⟩ | ⟨hmove, hanswer⟩
  · obtain rfl : move = .attempt .lock := hmove
    obtain ⟨background, hx, ⟨-, hgot⟩ | ⟨hheld, -⟩⟩ := lock_cases h
    · rw [hgot] at hrefused
      cases hrefused
    · exact ⟨hheld, by rw [hx]; rfl⟩
  · obtain rfl : move = .request .tryLock := hmove
    obtain ⟨purpose, hx, ⟨-, hgot⟩ | ⟨hheld, -⟩⟩ := tryLock_cases h
    · exact absurd hgot (hanswer purpose)
    · exact ⟨hheld, by rw [hx]; rfl⟩

/-- A try of a lock that is held fails. -/
theorem fails_of_held (h : step s a = some s')
    (htry : a.2 = .attempt .lock ∨ a.2 = .request .tryLock) (hheld : s.shared.lockedBy ≠ none) :
    RaisesAlreadyRunning a s' ∨ AnswersTrue a s' := by
  obtain ⟨i, move⟩ := a
  rcases htry with hmove | hmove
  · obtain rfl : move = .attempt .lock := hmove
    obtain ⟨background, -, ⟨hfree, -⟩ | ⟨-, hrefused⟩⟩ := lock_cases h
    · exact absurd hfree hheld
    · exact .inl ⟨rfl, background, hrefused⟩
  · obtain rfl : move = .request .tryLock := hmove
    obtain ⟨purpose, -, ⟨hfree, -⟩ | ⟨-, hanswer⟩⟩ := tryLock_cases h
    · exact absurd hfree hheld
    · exact .inr ⟨rfl, hanswer⟩

/-- A step tells of a run exactly when it does not try the lock of a probe. -/
theorem tellsOfRun_iff (howned : LockOwned s) (h : step s a = some s') :
    TellsOfRun s a ↔ NoProbeHolds s a := by
  constructor
  · intro htells htry j purpose hj
    have hlocked := (howned j).mp (by rw [hj]; rfl)
    have hheld : s.shared.lockedBy ≠ none := by
      rw [hlocked]
      exact Option.some_ne_none j
    obtain ⟨k, -, hk⟩ := htells s' h (fails_of_held h htry hheld)
    have hsame := howned.exclusive (holdsLock_of_inCritical hk) ((howned j).mpr hlocked)
    rw [hsame, hj] at hk
    cases hk
  · intro hprobe t ht hfails
    obtain ⟨hheld, hnot⟩ := held_of_fails ht hfails
    obtain ⟨j, hj⟩ := Option.ne_none_iff_exists'.mp hheld
    have hholds := (howned j).mpr hj
    have htry : a.2 = .attempt .lock ∨ a.2 = .request .tryLock :=
      hfails.imp (fun hr => hr.1) (fun hr => hr.1)
    refine ⟨j, fun heq => ?_, ?_⟩
    · rw [heq, hnot] at hholds
      cases hholds
    · cases hx : s.phase j with
      | critical background run stage => rfl
      | testing purpose => exact absurd hx (hprobe htry j purpose)
      | _ =>
          rw [hx] at hholds
          cases hholds

/-! ## Runs -/

/-- **Run exclusion.** However attempts and probes interleave, at most one run is inside its
    critical section; and refusals of attempts and answers `True` of probes are all about
    a run exactly when the lock is never tried while a probe holds it. -/
theorem run_exclusion_iff {as : List (ι × Move)} (hrun : Transition.run step start as = some s) :
    (∀ i j, (s.phase i).inCritical = true → (s.phase j).inCritical = true → i = j) ∧
      (Transition.Guarded step TellsOfRun start as ↔
        Transition.Guarded step NoProbeHolds start as) := by
  refine ⟨fun i j hi hj => ?_, ?_⟩
  · have howned := lockOwned_of_run hrun
    exact howned.exclusive (holdsLock_of_inCritical hi) (holdsLock_of_inCritical hj)
  · exact Transition.guarded_congr (fun _ _ _ (hs : LockOwned _) hstep => hs.step hstep)
      (fun _ _ _ hs hstep => tellsOfRun_iff hs hstep) lockOwned_start hrun

section Example

/-- Client `false` is about to try the lock for its run when client `true` has got it to test
    it. -/
def probed : List (Bool × Move) :=
  [(false, .attempt (.begin false)), (false, .attempt .save), (false, .attempt .openLock),
    (true, .request .ask), (true, .request .lockExists), (true, .request .tryLock)]

def probedAttempt : List (Bool × Move) := probed ++ [(false, .attempt .lock)]

end Example

theorem run_exclusion_probed : ¬ Transition.Guarded step TellsOfRun start probedAttempt := by
  intro htells
  have hprobes := (run_exclusion_iff (show Transition.run step start probedAttempt = some _
    from rfl)).2.mp htells
  have hlast := (hprobes.2 _ rfl).2 _ rfl |>.2 _ rfl |>.2 _ rfl |>.2 _ rfl |>.2 _ rfl |>.1
  exact hlast (.inl rfl) true .ask rfl

/-- An attempt that is refused while nobody runs. -/
theorem refused_by_probe : ∃ s s' : Clients Bool, Transition.run step start probed = some s ∧
    step s (false, .attempt .lock) = some s' ∧
    RaisesAlreadyRunning (false, .attempt .lock) s' ∧ ∀ j, (s.phase j).inCritical = false := by
  refine ⟨_, _, rfl, rfl, ⟨rfl, false, rfl⟩, ?_⟩
  decide

end NeuroForge.RunControl
