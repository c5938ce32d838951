/-
  The cancel flag: which run a cancel request reaches.

  The flag is one file. A run removes it when it finds it and when it ends; the clean-ups of
  `run_recorded_experiment` and `_run_in_background` remove it too, also for an attempt that
  was refused and whatever run holds the lock by then (`cancel_kept_iff`). And a cancel is
  accepted before its flag is created, so the flag may appear after the run it was meant for
  has ended. As long as no flag outlives the end of a run, by either way, only runs end as
  cancelled that a cancel was accepted for (`cancel_reaches_its_run`).
-/
import NeuroForge.Service.RunControl

namespace NeuroForge.RunControl

open AdvisoryLock

variable {ι : Type}

/-! ## What steps do to the flag -/

/-- The clean-ups after a run. -/
def CleansUp (move : Move) : Prop := move = .attempt .cleanUp ∨ move = .attempt .withdraw

/-- An attempt that has been refused and is on its way out. -/
def Phase.refused : Phase → Bool
  | .cleaning _ .refused => true
  | .withdrawing .refused => true
  | _ => false

section Effects

variable {s t : State ι} {i : ι} {move : Move} {x y : Phase}

/-- The flag is removed by the engine, inside its critical section, and by the clean-ups. -/
theorem Did.flag (h : Did s i move x t y) : t.flag = s.flag ∨ t.flag = true ∨
    t.flag = false ∧ (x.inCritical = true ∨ CleansUp move) := by
  cases h with
  | touch run => exact .inr (.inl rfl)
  | unlinkCaught => exact .inr (.inr ⟨rfl, .inl rfl⟩)
  | unlinkLeaving => exact .inr (.inr ⟨rfl, .inl rfl⟩)
  | cleanAnswered => exact .inr (.inr ⟨rfl, .inr (.inl rfl)⟩)
  | cleanOther => exact .inr (.inr ⟨rfl, .inr (.inl rfl)⟩)
  | withdraw => exact .inr (.inr ⟨rfl, .inr (.inr rfl)⟩)
  | _ => exact .inl rfl

theorem Did.of_cleansUp (h : Did s i move x t y) (hclean : CleansUp move) :
    t.flag = false ∧ x.inCritical = false := by
  rcases hclean with rfl | rfl
  · cases h with
    | cleanAnswered => exact ⟨rfl, rfl⟩
    | cleanOther => exact ⟨rfl, rfl⟩
  · cases h with
    | withdraw => exact ⟨rfl, rfl⟩

/-- A refused attempt touches the flag in its clean-ups only. -/
theorem Did.of_refused (h : Did s i move x t y) (hx : x.refused = true) :
    t.flag = s.flag ∨ CleansUp move := by
  cases h with
  | cleanOther => exact .inr (.inl rfl)
  | withdraw => exact .inr (.inr rfl)
  | wait => exact .inl rfl
  | crash => exact .inl rfl
  | _ => cases hx

end Effects

/-! ## Who removes the flag -/

variable [DecidableEq ι] {s s' : Clients ι} {a : ι × Move}

/-- While a run is inside its critical section the flag is removed by that run only, and a
    refused attempt leaves the flag as it finds it. -/
def KeepsCancel (s : Clients ι) (a : ι × Move) : Prop :=
  ∀ s', step s a = some s' →
    (∀ i, (s.phase i).inCritical = true → s.shared.flag = true → s'.shared.flag = false →
      a.1 = i) ∧
    ((s.phase a.1).refused = true → s'.shared.flag = s.shared.flag)

/-- No flag is on disk when a refused attempt cleans up, or any attempt while a run is inside
    its critical section. -/
def NothingToWithdraw (s : Clients ι) (a : ι × Move) : Prop :=
  CleansUp a.2 → (s.phase a.1).refused = true ∨ (∃ i, (s.phase i).inCritical = true) →
    s.shared.flag = false

theorem keepsCancel_iff (howned : LockOwned s) (h : step s a = some s') :
    KeepsCancel s a ↔ NothingToWithdraw s a := by
  constructor
  · intro hkeeps hclean hwho
    obtain ⟨hremoved, hnot⟩ := (step_did h).1.of_cleansUp hclean
    obtain ⟨hown, hrefused⟩ := hkeeps s' h
    rcases hwho with hx | ⟨i, hi⟩
    · rw [← hrefused hx, hremoved]
    · cases hflag : s.shared.flag with
      | false => rfl
      | true =>
          -- the run would have to be the attempt itself
          rw [← hown i hi hflag hremoved, hnot] at hi
          cases hi
  · intro hnothing t ht
    obtain ⟨hdid, -⟩ := step_did ht
    constructor
    · intro i hi hflag hremoved
      rcases hdid.flag with hsame | hset | ⟨-, hown | hclean⟩
      · rw [hsame, hflag] at hremoved
        cases hremoved
      · rw [hset] at hremoved
        cases hremoved
      · exact howned.exclusive (holdsLock_of_inCritical hown) (holdsLock_of_inCritical hi)
      · rw [hnothing hclean (.inr ⟨i, hi⟩)] at hflag
        cases hflag
    · intro hx
      rcases hdid.of_refused hx with hsame | hclean
      · exact hsame
      · rw [(hdid.of_cleansUp hclean).1, hnothing hclean (.inl hx)]

/-- **Cancels are not withdrawn.** However attempts and cancels interleave, the flag of a
    running run is removed by that run only, and never by a refused attempt, exactly when no
    flag is on disk whenever a refused attempt cleans up or any attempt cleans up during a
    run. -/
theorem cancel_kept_iff {as : List (ι × Move)} (hrun : Transition.run step start as = some s) :
    Transition.Guarded step KeepsCancel start as ↔
      Transition.Guarded step NothingToWithdraw start as :=
  Transition.guarded_congr (fun _ _ _ (hs : LockOwned _) hstep => hs.step hstep)
    (fun _ _ _ hs hstep => keepsCancel_iff hs hstep) lockOwned_start hrun

section Example

/-- Client `false` runs; client `true` cancels the run and then makes an attempt, which is
    refused. -/
def refusedAttempt : List (Bool × Move) :=
  [(false, .attempt (.begin false)), (false, .attempt .save), (false, .attempt .openLock),
    (false, .attempt .lock), (true, .request .cancelCli), (true, .request .touch),
    (true, .attempt (.begin false)), (true, .attempt .save), (true, .attempt .openLock),
    (true, .attempt .lock)]

end Example

theorem cancel_kept_refused : ¬ Transition.Guarded step KeepsCancel start
    (refusedAttempt ++ [(true, .attempt .cleanUp)]) := by
  intro hkeeps
  have hrun : Transition.run step start (refusedAttempt ++ [(true, .attempt .cleanUp)]) =
      some _ := rfl
  have hnothing := (cancel_kept_iff hrun).mp hkeeps
  have hlast := (hnothing.2 _ rfl).2 _ rfl |>.2 _ rfl |>.2 _ rfl |>.2 _ rfl |>.2 _ rfl
    |>.2 _ rfl |>.2 _ rfl |>.2 _ rfl |>.2 _ rfl |>.1
  have hflag := hlast (.inl rfl) (.inl rfl)
  cases hflag

/-- A refused attempt that removes the flag of the run that is going on. -/
theorem refused_attempt_withdraws : ∃ s s' : Clients Bool,
    Transition.run step start refusedAttempt = some s ∧
      step s (true, .attempt .cleanUp) = some s' ∧ (s.phase false).inCritical = true ∧
      s.phase true = .cleaning false .refused ∧ s.shared.flag = true ∧
      s'.shared.flag = false :=
  ⟨_, _, rfl, rfl, rfl, rfl, rfl, rfl⟩

/-! ## Which run a cancel reaches -/

section Ghosts

variable {ι : Type} {s t : State ι} {i : ι} {move : Move} {x y : Phase}

/-- A run ends only by a step of its own. -/
theorem Did.ended (h : Did s i move x t y) :
    t.ended = s.ended ∨ x.inCritical = true ∧ y.inCritical = false := by
  cases h with
  | releaseCancelled => exact .inr ⟨rfl, rfl⟩
  | releaseCompleted => exact .inr ⟨rfl, rfl⟩
  | releaseRaising => exact .inr ⟨rfl, rfl⟩
  | crashRun => exact .inr ⟨rfl, rfl⟩
  | _ => exact .inl rfl

theorem afterAttempt_ne_accepted {background : Bool} {outcome : Outcome} {k : ℕ} :
    afterAttempt background outcome ≠ .accepted k := by
  rcases afterAttempt_cases background outcome with heq | heq <;> rw [heq] <;> nofun

theorem afterAttempt_ne_critical {background background' : Bool} {outcome : Outcome} {k : ℕ}
    {stage : Stage} : afterAttempt background outcome ≠ .critical background' k stage := by
  rcases afterAttempt_cases background outcome with heq | heq <;> rw [heq] <;> nofun

theorem mem_accept {k : ℕ} (h : k ∈ s.accepted) : k ∈ s.accept.accepted :=
  List.mem_cons_of_mem _ h

/-- What was accepted stays accepted. -/
theorem Did.accepted (h : Did s i move x t y) {k : ℕ} (hk : k ∈ s.accepted) :
    k ∈ t.accepted := by
  cases h with
  | accept => exact mem_accept hk
  | acceptCli => exact mem_accept hk
  | acceptHeld => exact mem_accept hk
  | _ => exact hk

/-- A cancel that waits for its flag has been accepted. -/
theorem Did.pending (h : Did s i move x t y) {k : ℕ} (hy : y = .accepted k) :
    k ∈ t.accepted ∨ x = .accepted k := by
  cases h with
  | accept =>
      obtain rfl := Phase.accepted.inj hy
      exact .inl List.mem_cons_self
  | acceptCli =>
      obtain rfl := Phase.accepted.inj hy
      exact .inl List.mem_cons_self
  | acceptHeld =>
      obtain rfl := Phase.accepted.inj hy
      exact .inl List.mem_cons_self
  | wait => exact .inr hy
  | giveUp => exact absurd hy afterAttempt_ne_accepted
  | cleanOther => exact absurd hy afterAttempt_ne_accepted
  | record => exact absurd hy afterAttempt_ne_accepted
  | noFile purpose y hanswer => rcases hanswer with rfl | rfl <;> cases hy
  | unlock purpose y hanswer => rcases hanswer with rfl | rfl <;> cases hy
  | _ => cases hy

/-- The flag is created for the cancel whose step it is. -/
theorem Did.flagFor (h : Did s i move x t y) {k : ℕ} (hk : k ∈ t.flagFor) :
    k ∈ s.flagFor ∨ x = .accepted k := by
  cases h with
  | touch run =>
      rcases List.mem_cons.mp hk with rfl | hk
      · exact .inr rfl
      · exact .inl hk
  | unlinkCaught => exact absurd hk List.not_mem_nil
  | unlinkLeaving => exact absurd hk List.not_mem_nil
  | cleanAnswered => exact absurd hk List.not_mem_nil
  | cleanOther => exact absurd hk List.not_mem_nil
  | withdraw => exact absurd hk List.not_mem_nil
  | _ => exact .inl hk

theorem Did.flag_of_touch (h : Did s i move x t y) (hflag : t.flag = true) :
    s.flag = true ∨ ∃ k, x = .accepted k ∧ move = .request .touch := by
  cases h with
  | touch run => exact .inr ⟨run, rfl, rfl⟩
  | unlinkCaught => cases hflag
  | unlinkLeaving => cases hflag
  | cleanAnswered => cases hflag
  | cleanOther => cases hflag
  | withdraw => cases hflag
  | _ => exact .inl hflag

/-- A run is recorded as cancelled when it ends so. -/
theorem Did.cancelled (h : Did s i move x t y) {k : ℕ} (hk : k ∈ t.cancelled) :
    k ∈ s.cancelled ∨ ∃ background, x = .critical background k (.finalizing true) := by
  cases h with
  | releaseCancelled background run =>
      rcases List.mem_cons.mp hk with rfl | hk
      · exact .inr ⟨background, rfl⟩
      · exact .inl hk
  | _ => exact .inl hk

/-- A run has just taken the lock, or it was running and is cancelled only if it was before
    or has found the flag. -/
theorem Did.running (h : Did s i move x t y) {background : Bool} {k : ℕ} {stage : Stage}
    (hy : y = .critical background k stage) :
    (move = .attempt .lock ∧ s.lockedBy = none ∧ k = s.ended ∧ t.flag = s.flag ∧
        stage.cancelled = false) ∨
      ∃ stage', x = .critical background k stage' ∧
        (stage.cancelled = true → stage'.cancelled = true ∨ s.flag = true) := by
  cases h with
  | lock background' hfree =>
      obtain ⟨-, rfl, rfl⟩ := Phase.critical.inj hy
      exact .inl ⟨rfl, hfree, rfl, rfl, rfl⟩
  | goesOn =>
      obtain ⟨rfl, rfl, rfl⟩ := Phase.critical.inj hy
      exact .inr ⟨_, rfl, fun h => .inl h⟩
  | caught background' run hflag =>
      obtain ⟨rfl, rfl, rfl⟩ := Phase.critical.inj hy
      exact .inr ⟨_, rfl, fun _ => .inr hflag⟩
  | leave =>
      obtain ⟨rfl, rfl, rfl⟩ := Phase.critical.inj hy
      exact .inr ⟨_, rfl, fun h => nomatch h⟩
  | unlinkCaught =>
      obtain ⟨rfl, rfl, rfl⟩ := Phase.critical.inj hy
      exact .inr ⟨_, rfl, fun _ => .inl rfl⟩
  | unlinkLeaving =>
      obtain ⟨rfl, rfl, rfl⟩ := Phase.critical.inj hy
      exact .inr ⟨_, rfl, fun h => nomatch h⟩
  | raise =>
      obtain ⟨rfl, rfl, rfl⟩ := Phase.critical.inj hy
      exact .inr ⟨_, rfl, fun h => nomatch h⟩
  | wait => exact .inr ⟨stage, hy, fun h => .inl h⟩
  | giveUp => exact absurd hy afterAttempt_ne_critical
  | cleanOther => exact absurd hy afterAttempt_ne_critical
  | record => exact absurd hy afterAttempt_ne_critical
  | noFile purpose y hanswer => rcases hanswer with rfl | rfl <;> cases hy
  | unlock purpose y hanswer => rcases hanswer with rfl | rfl <;> cases hy
  | _ => cases hy

end Ghosts

/-- How many runs had ended when the cancel was accepted that a client is about to make a flag
    for. -/
def Phase.acceptedAfter : Phase → Option ℕ
  | .accepted run => some run
  | _ => none

/-- A flag is created before the run it was accepted for has ended, and a run that takes the
    lock finds no flag but one created for a cancel accepted since the last run ended. -/
def FlagInTime (s : Clients ι) (a : ι × Move) : Prop :=
  (a.2 = .request .touch → ∀ k ∈ (s.phase a.1).acceptedAfter, k = s.shared.ended) ∧
  (a.2 = .attempt .lock → s.shared.lockedBy = none → s.shared.flag = true →
    s.shared.ended ∈ s.shared.flagFor)

instance (s : Clients ι) (a : ι × Move) : Decidable (FlagInTime s a) := by
  unfold FlagInTime
  infer_instance

/-- The run that is going on is numbered by those before it; it can only find a flag, and has
    only found one, if a cancel was accepted for it. -/
structure RunsOwnCancels (s : Clients ι) : Prop where
  owned : LockOwned s
  created : ∀ k ∈ s.shared.flagFor, k ∈ s.shared.accepted
  pending : ∀ i k, s.phase i = .accepted k → k ∈ s.shared.accepted
  numbered : ∀ i background k stage, s.phase i = .critical background k stage →
    k = s.shared.ended
  reached : ∀ i background k stage, s.phase i = .critical background k stage →
    s.shared.flag = true ∨ stage.cancelled = true → k ∈ s.shared.accepted
  cancelled : ∀ k ∈ s.shared.cancelled, k ∈ s.shared.accepted

omit [DecidableEq ι] in
theorem runsOwnCancels_start : RunsOwnCancels (start : Clients ι) where
  owned := lockOwned_start
  created _ hk := absurd hk List.not_mem_nil
  pending _ _ hi := nomatch hi
  numbered _ _ _ _ hi := nomatch hi
  reached _ _ _ _ hi := nomatch hi
  cancelled _ hk := absurd hk List.not_mem_nil

/-- While another client is inside its critical section nobody's step ends a run. -/
theorem ended_of_other {s s' : Clients ι} {a : ι × Move} (howned : LockOwned s)
    (h : step s a = some s') {j : ι} (hj : j ≠ a.1) (hcritical : (s.phase j).inCritical = true) :
    s'.shared.ended = s.shared.ended := by
  rcases (step_did h).1.ended with hsame | ⟨hx, -⟩
  · exact hsame
  · exact absurd (howned.exclusive (holdsLock_of_inCritical hcritical)
      (holdsLock_of_inCritical hx)) hj

theorem RunsOwnCancels.step {s s' : Clients ι} {a : ι × Move} (h : RunsOwnCancels s)
    (hok : FlagInTime s a) (hstep : RunControl.step s a = some s') : RunsOwnCancels s' := by
  obtain ⟨hdid, hothers⟩ := step_did hstep
  -- a flag that is new was accepted for the run that is going on
  have hflag : s'.shared.flag = true → s.shared.flag = true ∨
      s.shared.ended ∈ s.shared.accepted := by
    intro hset
    rcases hdid.flag_of_touch hset with hold | ⟨k, hx, hmove⟩
    · exact .inl hold
    · have hk : k = s.shared.ended := hok.1 hmove k (by rw [hx]; rfl)
      exact .inr (hk ▸ h.pending a.1 k hx)
  have hcreated : ∀ k ∈ s'.shared.flagFor, k ∈ s'.shared.accepted := by
    intro k hk
    rcases hdid.flagFor hk with hold | hx
    · exact hdid.accepted (h.created k hold)
    · exact hdid.accepted (h.pending a.1 k hx)
  refine ⟨h.owned.step hstep, hcreated, fun j k hj => ?_, fun j background k stage hj => ?_,
    fun j background k stage hj hfound => ?_, fun k hk => ?_⟩
  · by_cases hja : j = a.1
    · subst hja
      rcases hdid.pending hj with hnew | hx
      · exact hnew
      · exact hdid.accepted (h.pending a.1 k hx)
    · rw [hothers j hja] at hj
      exact hdid.accepted (h.pending j k hj)
  · by_cases hja : j = a.1
    · subst hja
      have hended : s'.shared.ended = s.shared.ended := by
        rcases hdid.ended with hsame | ⟨-, hy⟩
        · exact hsame
        · rw [hj] at hy
          cases hy
      rw [hended]
      rcases hdid.running hj with ⟨-, -, hk, -⟩ | ⟨stage', hx, -⟩
      · exact hk
      · exact h.numbered a.1 _ _ _ hx
    · rw [hothers j hja] at hj
      rw [ended_of_other h.owned hstep hja (by rw [hj]; rfl)]
      exact h.numbered j _ _ _ hj
  · by_cases hja : j = a.1
    · subst hja
      rcases hdid.running hj with ⟨hmove, hfree, hk, hsame, hfresh⟩ | ⟨stage', hx, hcaught⟩
      · -- the run has just begun
        rcases hfound with hset | hcancelled
        · rw [hsame] at hset
          rw [hk]
          exact hdid.accepted (h.created _ (hok.2 hmove hfree hset))
        · rw [hfresh] at hcancelled
          cases hcancelled
      · refine hdid.accepted ?_
        rcases hfound with hset | hcancelled
        · rcases hflag hset with hold | haccepted
          · exact h.reached a.1 _ _ _ hx (.inl hold)
          · exact h.numbered a.1 _ _ _ hx ▸ haccepted
        · exact h.reached a.1 _ _ _ hx (hcaught hcancelled).symm
    · rw [hothers j hja] at hj
      refine hdid.accepted ?_
      rcases hfound with hset | hcancelled
      · rcases hflag hset with hold | haccepted
        · exact h.reached j _ _ _ hj (.inl hold)
        · exact h.numbered j _ _ _ hj ▸ haccepted
      · exact h.reached j _ _ _ hj (.inr hcancelled)
  · rcases hdid.cancelled hk with hold | ⟨background, hx⟩
    · exact hdid.accepted (h.cancelled k hold)
    · exact hdid.accepted (h.reached a.1 _ _ _ hx (.inr rfl))

/-- **Cancels reach their run.** In every run whose flags are created and found in time, a
    run that ends as cancelled had a cancel accepted for it: after the run before it had
    ended, and before it ended itself. -/
theorem cancel_reaches_its_run {as : List (ι × Move)} {s : Clients ι}
    (hrun : Transition.run step start as = some s)
    (hok : Transition.Guarded step FlagInTime start as) :
    ∀ k ∈ s.shared.cancelled, k ∈ s.shared.accepted :=
  (Transition.run_invariant_of_guarded (fun _ _ _ (hs : RunsOwnCancels _) ha hstep =>
    hs.step ha hstep) runsOwnCancels_start hok hrun).cancelled

section Example

/-- A run that is cancelled, found by its next check. -/
def cancelledRun : List (Bool × Move) :=
  [(false, .attempt (.begin false)), (false, .attempt .save), (false, .attempt .openLock),
    (false, .attempt .lock), (true, .request .cancelCli), (true, .request .touch),
    (false, .attempt .check), (false, .attempt .unlink), (false, .attempt .release)]

/-- A cancel that is accepted during the first run, and its flag created after that run. -/
def lateFlag : List (Bool × Move) :=
  [(false, .attempt (.begin false)), (false, .attempt .save), (false, .attempt .openLock),
    (false, .attempt .lock), (true, .request .cancelCli), (false, .attempt .leave),
    (false, .attempt .unlink), (false, .attempt .release), (false, .attempt .cleanUp),
    (false, .attempt .record), (true, .request .touch),
    (false, .attempt (.begin false)), (false, .attempt .save), (false, .attempt .openLock),
    (false, .attempt .lock), (false, .attempt .check), (false, .attempt .unlink),
    (false, .attempt .release)]

end Example

theorem cancel_reaches_cancelled_run : ∃ s : Clients Bool,
    Transition.run step start cancelledRun = some s ∧ s.shared.cancelled = [0] ∧
      ∀ k ∈ s.shared.cancelled, k ∈ s.shared.accepted := by
  have hrun : Transition.run step start cancelledRun = some _ := rfl
  have hok : Transition.Guarded step FlagInTime start cancelledRun := by
    decide +kernel
  exact ⟨_, hrun, rfl, cancel_reaches_its_run hrun hok⟩

/-- The second run ends as cancelled; the only cancel was accepted during the first one. -/
theorem late_flag_cancels_next_run : ∃ s : Clients Bool,
    Transition.run step start lateFlag = some s ∧
      1 ∈ s.shared.cancelled ∧ 1 ∉ s.shared.accepted := by
  refine ⟨_, rfl, ?_, ?_⟩ <;> decide

end NeuroForge.RunControl
