/-
  The places of background runs.

  Never more than six places are taken, every place is backed by one request or one
  future that will give it back, and no two of them are for one experiment
  (`places_accounted`). When nothing that was begun can go on, no place is taken
  (`no_place_leaks`). Runs begin in the order they were submitted, two at a time, and none
  after a shutdown (`runs_begin_in_order`).

  The invariant has three parts, of which each step keeps each with the help of the others:
  how far a request and its future can be (`InStep`), what the queue and the threads of the
  pool have (`Queued`), and who has which place (`Places`).
-/
import Mathlib.Tactic.FinCases
import NeuroForge.Lib.Register
import NeuroForge.Service.RunPool

namespace NeuroForge.RunPool

open Register

/-! ## The lock, the pool and the futures -/

/-- The thread of the pool that took the future is not free again. -/
def FuturePhase.onThread : FuturePhase → Bool
  | .running | .ending | .cleaning => true
  | _ => false

/-- A thread has taken the future. -/
def FuturePhase.begun : FuturePhase → Bool
  | .running | .ending | .cleaning | .done => true
  | _ => false

/-- The future will give a place back, or the shutdown will do it. -/
def FuturePhase.holding : FuturePhase → Bool
  | .pending | .running | .ending | .cancelled => true
  | _ => false

/-- The request has a place of its own. -/
def RequestPhase.holding : RequestPhase → Bool
  | .reserved | .admitted | .recording | .refusing _ => true
  | _ => false

/-- How far a request and its future can be, `locks` if the request keeps the lock. -/
structure Fits (stop : StopPhase) (locks : Prop) (request : RequestPhase)
    (future : FuturePhase) : Prop where
  locked : request = .recording ↔ locks
  submitted : future ≠ .none ↔ request = .recording ∨ request = .accepted
  recording : request = .recording → future.holding = true
  serving : stop = .serving → future ≠ .cancelled ∧ future ≠ .withdrawn
  stopping : stop = .stopping → future ≠ .withdrawn
  shut : stop ≠ .serving → future ≠ .pending
  swept : stop = .swept → request ≠ .recording ∧ future ≠ .cancelled

section Invariants

variable {ι : Type} [DecidableEq ι] {target : ι → String} {s s' : State ι}

/-- The lock, the requests and the futures agree. -/
def InStep (s : State ι) : Prop :=
  ∀ i, Fits s.stop (s.lockedBy = some i) (s.request i) (s.future i)

omit [DecidableEq ι] in
theorem inStep_start : InStep (State.start : State ι) := by
  intro i
  constructor <;> simp [State.start]

/-- Where request `i` stands with the pool, by its future. -/
structure Stands (s : State ι) (i : ι) : Prop where
  waiting : i ∈ s.queue.waiting ↔ s.future i = .pending
  handedOut : i ∈ s.queue.handedOut ↔ (s.future i).begun = true
  dropped : i ∈ s.queue.dropped ↔ s.future i = .cancelled ∨ s.future i = .withdrawn
  busy : i ∈ s.busy ↔ (s.future i).onThread = true

/-- The queue of the pool, its threads and the futures agree. -/
structure Queued (s : State ι) : Prop where
  once : s.queue.pushed.Nodup
  threads : s.busy.Nodup ∧ s.busy.length ≤ maxWorkers
  stands : ∀ i, Stands s i

omit [DecidableEq ι] in
theorem queued_start : Queued (State.start : State ι) := by
  refine ⟨?_, ?_, fun i => ?_⟩
  · simp [State.start]
  · simp [State.start]
  · constructor <;> simp [State.start, FuturePhase.begun, FuturePhase.onThread]

/-- The experiment whose place a request or its future has to give back. -/
def State.place (target : ι → String) (s : State ι) (i : ι) : Option String :=
  if (s.request i).holding = true ∨ (s.future i).holding = true then some (target i) else none

/-- Who has which place. -/
structure Places (target : ι → String) (s : State ι) : Prop where
  registered : Registered (s.place target) s.active
  bounded : s.active.length ≤ maxActiveRuns
  submitted : ∀ e, e ∈ s.submitted ↔
    target e.2 = e.1 ∧ s.request e.2 = .accepted ∧ (s.future e.2).holding = true

omit [DecidableEq ι] in
theorem places_start : Places target (State.start : State ι) := by
  refine ⟨registered_nil, ?_, fun e => ?_⟩
  · simp [State.start]
  · simp [State.start]

omit [DecidableEq ι] in
theorem State.place_eq_some {i : ι} {id : String} : s.place target i = some id ↔
    ((s.request i).holding = true ∨ (s.future i).holding = true) ∧ target i = id := by
  unfold State.place
  split_ifs with h <;> simp [h]

omit [DecidableEq ι] in
/-- While nobody keeps the lock, every cancelled future has its entry. -/
theorem Places.cancelled_mem (h : Places target s) (hin : InStep s) (hlock : s.lockedBy = none)
    {i : ι} (hcancelled : s.future i = .cancelled) : (target i, i) ∈ s.submitted := by
  have hi := hin i
  have hrecording : s.request i ≠ .recording := fun hrecording => by
    rw [hi.locked, hlock] at hrecording
    cases hrecording
  have haccepted : s.request i = .accepted :=
    (hi.submitted.mp (by rw [hcancelled]; simp)).resolve_left hrecording
  exact (h.submitted (target i, i)).mpr ⟨rfl, haccepted, by rw [hcancelled]; rfl⟩

/-- So the sweep withdraws all of them. -/
theorem Places.swept_future (h : Places target s) (hin : InStep s) (hlock : s.lockedBy = none) :
    (fun i => if s.future i = .cancelled ∧ s.submitted.any (fun e => e.2 = i) then .withdrawn
      else s.future i) = fun i => if s.future i = .cancelled then .withdrawn else s.future i := by
  funext i
  by_cases hcancelled : s.future i = .cancelled
  · have hany : s.submitted.any (fun e => e.2 = i) = true :=
      List.any_eq_true.mpr ⟨_, h.cancelled_mem hin hlock hcancelled, by simp⟩
    rw [if_pos ⟨hcancelled, hany⟩, if_pos hcancelled]
  · rw [if_neg fun hboth => hcancelled hboth.1, if_neg hcancelled]

/-! ## What a step keeps -/

/-- A step that leaves all but request `i` and its future alone has to be looked at there. -/
theorem InStep.of_actor (h : InStep s) {i : ι} (hstop : s'.stop = s.stop)
    (hothers : ∀ j, j ≠ i → s'.request j = s.request j ∧ s'.future j = s.future j ∧
      (s'.lockedBy = some j ↔ s.lockedBy = some j))
    (hself : Fits s.stop (s'.lockedBy = some i) (s'.request i) (s'.future i)) : InStep s' := by
  intro j
  rw [hstop]
  by_cases hj : j = i
  · rw [hj]
    exact hself
  · obtain ⟨hrequest, hfuture, hlock⟩ := hothers j hj
    rw [hrequest, hfuture, hlock]
    exact h j

theorem InStep.step (h : InStep s) (hqueued : Queued s) (hplaces : Places target s)
    (hdid : Did target s s') : InStep s' := by
  cases hdid with
  | refused i code hidle =>
      have hi := h i
      refine h.of_actor rfl (fun j hj => ?_) (i := i) ?_
      · simp [State.ask, hj]
      · simp only [State.ask, Function.update_self]
        grind [Fits]
  | reserved i hidle hfree hroom =>
      have hi := h i
      refine h.of_actor rfl (fun j hj => ?_) (i := i) ?_
      · simp [State.ask, hj]
      · simp only [State.ask, Function.update_self]
        grind [Fits]
  | checked i phase hreserved hphase =>
      have hi := h i
      refine h.of_actor rfl (fun j hj => ?_) (i := i) ?_
      · simp [State.ask, hj]
      · simp only [State.ask, Function.update_self]
        grind [Fits]
  | submitted i hadmitted hlock hserving =>
      have hi := h i
      refine h.of_actor rfl (fun j hj => ?_) (i := i) ?_
      · simp [State.ask, State.become, hj, hlock, Ne.symm hj]
      · simp only [State.ask, State.become, Function.update_self]
        grind [Fits, FuturePhase.holding]
  | recorded i hrecording =>
      have hi := h i
      have hlock : s.lockedBy = some i := hi.locked.mp hrecording
      refine h.of_actor rfl (fun j hj => ?_) (i := i) ?_
      · simp [State.ask, hj, hlock, Ne.symm hj]
      · simp only [State.ask, Function.update_self]
        grind [Fits]
  | gaveBack i code hrefusing =>
      have hi := h i
      refine h.of_actor rfl (fun j hj => ?_) (i := i) ?_
      · simp [State.ask, State.discard, hj]
      · simp only [State.ask, State.discard, Function.update_self]
        grind [Fits]
  | took i queue hroom hqueue =>
      have hi := h i
      have hpending : s.future i = .pending := by
        rw [← (hqueued.stands i).waiting, (Fifo.handOut_eq_some hqueue).1]
        exact List.mem_cons_self
      refine h.of_actor rfl (fun j hj => ?_) (i := i) ?_
      · simp [State.become, hj]
      · simp only [State.become, Function.update_self]
        grind [Fits, FuturePhase.holding]
  | finished i hrunning =>
      have hi := h i
      refine h.of_actor rfl (fun j hj => ?_) (i := i) ?_
      · simp [State.become, hj]
      · simp only [State.become, Function.update_self]
        grind [Fits, FuturePhase.holding]
  | released i hending hlock =>
      have hi := h i
      refine h.of_actor rfl (fun j hj => ?_) (i := i) ?_
      · simp [State.become, State.discard, hj]
      · simp only [State.become, State.discard, Function.update_self]
        grind [Fits, FuturePhase.holding]
  | cleaned i hcleaning =>
      have hi := h i
      refine h.of_actor rfl (fun j hj => ?_) (i := i) ?_
      · simp [State.become, hj]
      · simp only [State.become, Function.update_self]
        grind [Fits, FuturePhase.holding]
  | shutDown hserving =>
      intro i
      have hi := h i
      have hw := (hqueued.stands i).waiting
      by_cases hwaiting : i ∈ s.queue.waiting
      · simp only [if_pos hwaiting]
        grind [Fits, FuturePhase.holding]
      · simp only [if_neg hwaiting]
        grind [Fits]
  | swept hstopping hlock =>
      intro i
      have hi := h i
      rw [hplaces.swept_future h hlock]
      by_cases hcancelled : s.future i = .cancelled
      · simp only [if_pos hcancelled]
        grind [Fits, FuturePhase.holding]
      · simp only [if_neg hcancelled]
        grind [Fits]

omit [DecidableEq ι] in
/-- The entries of the queue are told apart by their futures. -/
theorem Queued.not_pushed (h : Queued s) {i : ι} (hnone : s.future i = .none) :
    i ∉ s.queue.pushed := by
  have hi := h.stands i
  rw [← (Fifo.perm_pushed s.queue).mem_iff, List.mem_append, List.mem_append, hi.handedOut,
    hi.dropped, hi.waiting, hnone]
  simp [FuturePhase.begun]

omit [DecidableEq ι] in
theorem Queued.of_eq (h : Queued s) (hqueue : s'.queue = s.queue) (hbusy : s'.busy = s.busy)
    (hfuture : s'.future = s.future) : Queued s' := by
  refine ⟨hqueue ▸ h.once, hbusy ▸ h.threads, fun i => ?_⟩
  obtain ⟨hwaiting, hhandedOut, hdropped, hbusy'⟩ := h.stands i
  constructor <;> simp only [hqueue, hbusy, hfuture] <;> assumption

/-- A step that leaves all futures but that of request `i` alone, and the others where they
    stand. -/
theorem Queued.of_actor (h : Queued s) {i : ι} (honce : s'.queue.pushed.Nodup)
    (hthreads : s'.busy.Nodup ∧ s'.busy.length ≤ maxWorkers)
    (hothers : ∀ j, j ≠ i → s'.future j = s.future j ∧
      (j ∈ s'.queue.waiting ↔ j ∈ s.queue.waiting) ∧
      (j ∈ s'.queue.handedOut ↔ j ∈ s.queue.handedOut) ∧
      (j ∈ s'.queue.dropped ↔ j ∈ s.queue.dropped) ∧ (j ∈ s'.busy ↔ j ∈ s.busy))
    (hself : Stands s' i) : Queued s' := by
  refine ⟨honce, hthreads, fun j => ?_⟩
  by_cases hj : j = i
  · rw [hj]
    exact hself
  · obtain ⟨hfuture, hwaiting, hhandedOut, hdropped, hbusy⟩ := hothers j hj
    have hj := h.stands j
    constructor
    · rw [hfuture, hwaiting]
      exact hj.waiting
    · rw [hfuture, hhandedOut]
      exact hj.handedOut
    · rw [hfuture, hdropped]
      exact hj.dropped
    · rw [hfuture, hbusy]
      exact hj.busy

theorem Queued.step (h : Queued s) (hin : InStep s) (hdid : Did target s s') : Queued s' := by
  cases hdid with
  | refused i code hidle => exact h.of_eq rfl rfl rfl
  | reserved i hidle hfree hroom => exact h.of_eq rfl rfl rfl
  | checked i phase hreserved hphase => exact h.of_eq rfl rfl rfl
  | recorded i hrecording => exact h.of_eq rfl rfl rfl
  | gaveBack i code hrefusing => exact h.of_eq rfl rfl rfl
  | submitted i hadmitted hlock hserving =>
      have hi := h.stands i
      have hnone : s.future i = .none := by
        have hfits := (hin i).submitted
        grind
      refine h.of_actor (i := i) ?_ h.threads (fun j hj => ?_) ?_
      · have hnew : i ∉ s.queue.pushed := h.not_pushed hnone
        exact List.nodup_append.mpr ⟨h.once, List.pairwise_singleton _ _, fun j hj k hk hjk =>
          hnew (by rwa [← List.mem_singleton.mp hk, ← hjk])⟩
      · simp [State.ask, State.become, hj]
      · constructor <;> simp [State.ask, State.become, hi.handedOut, hi.dropped, hi.busy, hnone,
          FuturePhase.begun, FuturePhase.onThread]
  | took i queue hroom hqueue =>
      have hi := h.stands i
      obtain ⟨hwaiting, hpushed, hhandedOut, hdropped⟩ := Fifo.handOut_eq_some hqueue
      have hpending : s.future i = .pending := by
        rw [← hi.waiting, hwaiting]
        exact List.mem_cons_self
      have hrest : i ∉ queue.waiting := by
        have hsub : s.queue.waiting.Sublist s.queue.pushed :=
          (List.sublist_append_right _ _).trans (Fifo.handedOut_waiting_sublist s.queue)
        have hnodup := h.once.sublist hsub
        rw [hwaiting] at hnodup
        exact (List.nodup_cons.mp hnodup).1
      refine h.of_actor (i := i) (hpushed ▸ h.once) ?_ (fun j hj => ?_) ?_
      · refine ⟨List.nodup_cons.mpr ⟨?_, h.threads.1⟩, hroom⟩
        rw [hi.busy, hpending]
        simp [FuturePhase.onThread]
      · simp [State.become, hj, hwaiting, hhandedOut, hdropped]
      · constructor <;> simp [State.become, hrest, hhandedOut, hdropped, hi.dropped, hpending,
          FuturePhase.begun, FuturePhase.onThread]
  | finished i hrunning =>
      have hi := h.stands i
      refine h.of_actor (i := i) h.once h.threads (fun j hj => ?_) ?_
      · simp [State.become, hj]
      · constructor <;> simp [State.become, hi.waiting, hi.handedOut, hi.dropped, hi.busy, hrunning,
          FuturePhase.begun, FuturePhase.onThread]
  | released i hending hlock =>
      have hi := h.stands i
      refine h.of_actor (i := i) h.once h.threads (fun j hj => ?_) ?_
      · simp [State.become, State.discard, hj]
      · constructor <;> simp [State.become, State.discard, hi.waiting, hi.handedOut, hi.dropped,
          hi.busy, hending, FuturePhase.begun, FuturePhase.onThread]
  | cleaned i hcleaning =>
      have hi := h.stands i
      refine h.of_actor (i := i) h.once ?_ (fun j hj => ?_) ?_
      · exact ⟨h.threads.1.filter _, (List.length_filter_le _ _).trans h.threads.2⟩
      · simp [State.become, hj]
      · constructor <;> simp [State.become, hi.waiting, hi.handedOut, hi.dropped, hcleaning,
          FuturePhase.begun, FuturePhase.onThread]
  | shutDown hserving =>
      refine ⟨h.once, h.threads, fun i => ?_⟩
      have hi := h.stands i
      have hserv := (hin i).serving hserving
      by_cases hwaiting : i ∈ s.queue.waiting
      · have hpending := hi.waiting.mp hwaiting
        constructor <;> simp [hwaiting, hi.handedOut, hi.busy, hpending, FuturePhase.begun,
          FuturePhase.onThread]
      · have hpending : s.future i ≠ .pending := fun hp => hwaiting (hi.waiting.mpr hp)
        constructor <;> simp [hwaiting, hi.handedOut, hi.busy, hi.dropped, hpending]
  | swept hstopping hlock =>
      refine ⟨h.once, h.threads, fun i => ?_⟩
      have hi := h.stands i
      by_cases hsweep : s.future i = .cancelled ∧ s.submitted.any (fun e => e.2 = i) = true
      · constructor <;> simp [hsweep, hi.waiting, hi.handedOut, hi.dropped, hi.busy,
          FuturePhase.begun, FuturePhase.onThread]
      · constructor <;> simp only [if_neg hsweep]
        · exact hi.waiting
        · exact hi.handedOut
        · exact hi.dropped
        · exact hi.busy

omit [DecidableEq ι] in
/-- A step that changes nothing that places depend on. -/
theorem Places.of_holding (h : Places target s) (hactive : s'.active = s.active)
    (hsubmitted : s'.submitted = s.submitted)
    (hplace : ∀ i, s'.place target i = s.place target i)
    (hentry : ∀ i, s'.request i = .accepted ∧ (s'.future i).holding = true ↔
      s.request i = .accepted ∧ (s.future i).holding = true) : Places target s' := by
  refine ⟨?_, hactive ▸ h.bounded, fun e => ?_⟩
  · rw [funext hplace, hactive]
    exact h.registered
  · rw [hsubmitted, hentry]
    exact h.submitted e

theorem State.place_of_actor {i : ι}
    (hothers : ∀ j, j ≠ i → s'.request j = s.request j ∧ s'.future j = s.future j) :
    s'.place target = Function.update (s.place target) i (s'.place target i) := by
  funext j
  by_cases hj : j = i
  · rw [hj, Function.update_self]
  · rw [Function.update_of_ne hj]
    unfold State.place
    rw [(hothers j hj).1, (hothers j hj).2]

/-- A step of one request, or of its future, that changes nothing that places depend on. -/
theorem Places.of_actor (h : Places target s) {i : ι} (hactive : s'.active = s.active)
    (hsubmitted : s'.submitted = s.submitted)
    (hothers : ∀ j, j ≠ i → s'.request j = s.request j ∧ s'.future j = s.future j)
    (hplace : (s'.request i).holding = true ∨ (s'.future i).holding = true ↔
      (s.request i).holding = true ∨ (s.future i).holding = true)
    (hentry : s'.request i = .accepted ∧ (s'.future i).holding = true ↔
      s.request i = .accepted ∧ (s.future i).holding = true) : Places target s' := by
  refine h.of_holding hactive hsubmitted (fun j => ?_) fun j => ?_
  · by_cases hj : j = i
    · subst hj
      unfold State.place
      simp only [hplace]
    · unfold State.place
      rw [(hothers j hj).1, (hothers j hj).2]
  · by_cases hj : j = i
    · subst hj
      exact hentry
    · rw [(hothers j hj).1, (hothers j hj).2]

omit [DecidableEq ι] in
theorem InStep.none_of_unsubmitted (h : InStep s) {i : ι} (hrecording : s.request i ≠ .recording)
    (haccepted : s.request i ≠ .accepted) : s.future i = .none := by
  by_contra hnone
  rcases (h i).submitted.mp hnone with hrec | hacc
  · exact hrecording hrec
  · exact haccepted hacc

theorem Places.reserve (h : Places target s) (hin : InStep s) {i : ι}
    (hidle : s.request i = .idle) (hfree : target i ∉ s.active)
    (hroom : s.active.length < maxActiveRuns) :
    Places target { s.ask i .reserved with active := target i :: s.active } := by
  have hnone : s.future i = .none :=
    hin.none_of_unsubmitted (by simp [hidle]) (by simp [hidle])
  refine ⟨?_, ?_, fun e => ?_⟩
  · rw [State.place_of_actor (s := s) (i := i) fun j hj => by simp [State.ask, hj]]
    have hplace : s.place target i = none := by
      simp [State.place, hidle, hnone, RequestPhase.holding, FuturePhase.holding]
    have htakes : State.place target { s.ask i .reserved with active := target i :: s.active } i =
        some (target i) := by
      simp [State.place, State.ask, RequestPhase.holding]
    rw [htakes]
    exact h.registered.take hplace hfree
  · exact hroom
  · refine (h.submitted e).trans ?_
    by_cases he : e.2 = i
    · simp [State.ask, he, hidle]
    · simp [State.ask, he]

theorem Places.record (h : Places target s) (hin : InStep s) {i : ι}
    (hrecording : s.request i = .recording) :
    Places target { s.ask i .accepted with
      lockedBy := none
      submitted := Dict.set s.submitted (target i) i } := by
  have hholding := (hin i).recording hrecording
  have hmine : s.place target i = some (target i) :=
    State.place_eq_some.mpr ⟨.inr hholding, rfl⟩
  have hnew : target i ∉ Dict.keys s.submitted := by
    intro hmem
    obtain ⟨e, he, hkey⟩ := List.mem_map.mp hmem
    obtain ⟨htarget, haccepted, hfuture⟩ := (h.submitted e).mp he
    have htheirs : s.place target e.2 = some (target i) :=
      State.place_eq_some.mpr ⟨.inr hfuture, htarget.trans hkey⟩
    have heq : e.2 = i := h.registered.single _ _ _ htheirs hmine
    rw [heq, hrecording] at haccepted
    cases haccepted
  refine ⟨?_, h.bounded, fun e => ?_⟩
  · have hplace : ∀ j, State.place target { s.ask i .accepted with
        lockedBy := none
        submitted := Dict.set s.submitted (target i) i } j = s.place target j := by
      intro j
      by_cases hj : j = i
      · subst hj
        rw [hmine]
        simp [State.place, State.ask, hholding]
      · simp [State.place, State.ask, hj]
    rw [funext hplace]
    exact h.registered
  · have hset : Dict.set s.submitted (target i) i = s.submitted ++ [(target i, i)] := if_neg hnew
    simp only [hset, List.mem_append, List.mem_singleton, h.submitted]
    by_cases he : e.2 = i
    · subst he
      simp [State.ask, hrecording, hholding, Prod.ext_iff, eq_comm]
    · simp [State.ask, he, Prod.ext_iff]

theorem Places.giveBack (h : Places target s) (hin : InStep s) {i : ι} {code : ℕ}
    (hrefusing : s.request i = .refusing code) :
    Places target ((s.ask i (.refused code)).discard (target i)) := by
  have hnone : s.future i = .none :=
    hin.none_of_unsubmitted (by simp [hrefusing]) (by simp [hrefusing])
  refine ⟨?_, (List.length_filter_le _ _).trans h.bounded, fun e => ?_⟩
  · rw [State.place_of_actor (s := s) (i := i) fun j hj => by simp [State.ask, State.discard, hj]]
    have hplace : s.place target i = some (target i) := by
      simp [State.place, hrefusing, RequestPhase.holding]
    have hdrops : State.place target ((s.ask i (.refused code)).discard (target i)) i = none := by
      simp [State.place, State.ask, State.discard, hnone, RequestPhase.holding,
        FuturePhase.holding]
    rw [hdrops]
    exact h.registered.dropOne hplace
  · refine (h.submitted e).trans ?_
    by_cases he : e.2 = i
    · simp [State.ask, State.discard, he, hrefusing]
    · simp [State.ask, State.discard, he]

theorem Places.release (h : Places target s) (hin : InStep s) {i : ι}
    (hending : s.future i = .ending) (hlock : s.lockedBy = none) :
    Places target { (s.become i .cleaning).discard (target i) with
      submitted := s.submitted.filter fun e => e.1 ≠ target i } := by
  have hi := hin i
  have haccepted : s.request i = .accepted := by
    refine (hi.submitted.mp (by simp [hending])).resolve_left fun hrecording => ?_
    rw [hi.locked, hlock] at hrecording
    cases hrecording
  have hmine : s.place target i = some (target i) := by
    simp [State.place, hending, FuturePhase.holding]
  refine ⟨?_, (List.length_filter_le _ _).trans h.bounded, fun e => ?_⟩
  · rw [State.place_of_actor (s := s) (i := i) fun j hj => by simp [State.become, State.discard, hj]]
    have hdrops : State.place target { (s.become i .cleaning).discard (target i) with
        submitted := s.submitted.filter fun e => e.1 ≠ target i } i = none := by
      simp [State.place, State.become, State.discard, haccepted, RequestPhase.holding,
        FuturePhase.holding]
    rw [hdrops]
    exact h.registered.dropOne hmine
  · have hapart : (s.future e.2).holding = true → target e.2 = e.1 → (e.1 ≠ target i ↔ e.2 ≠ i) := by
      intro hholding htarget
      have htheirs : s.place target e.2 = some e.1 :=
        State.place_eq_some.mpr ⟨.inr hholding, htarget⟩
      constructor
      · rintro hne rfl
        exact hne htarget.symm
      · intro hne heq
        exact hne (h.registered.single _ _ _ (heq ▸ htheirs) hmine)
    simp only [List.mem_filter, h.submitted, decide_eq_true_eq]
    by_cases he : e.2 = i
    · have hfuture : (State.future { (s.become i .cleaning).discard (target i) with
          submitted := s.submitted.filter fun e => e.1 ≠ target i } e.2).holding = false := by
        simp [State.become, State.discard, he, FuturePhase.holding]
      rw [hfuture]
      constructor
      · rintro ⟨⟨htarget, -, hholding⟩, hne⟩
        exact absurd he ((hapart hholding htarget).mp hne)
      · rintro ⟨-, -, hfalse⟩
        cases hfalse
    · simp only [State.become, State.discard, Function.update_of_ne he]
      constructor
      · exact fun hboth => hboth.1
      · rintro ⟨htarget, hacc, hholding⟩
        exact ⟨⟨htarget, hacc, hholding⟩, (hapart hholding htarget).mpr he⟩

theorem Places.sweep (h : Places target s) (hin : InStep s) (hlock : s.lockedBy = none) :
    Places target { s with
      stop := .swept
      active := s.active.filter fun id =>
        !s.submitted.any fun e => e.1 = id ∧ s.future e.2 = .cancelled
      submitted := s.submitted.filter fun e => s.future e.2 ≠ .cancelled
      future := fun i =>
        if s.future i = .cancelled ∧ s.submitted.any (fun e => e.2 = i) then .withdrawn
        else s.future i } := by
  rw [h.swept_future hin hlock]
  have hcancelled : ∀ i, s.future i = .cancelled →
      (s.request i).holding = false ∧ s.place target i = some (target i) := by
    intro i hi
    have haccepted := ((h.submitted _).mp (h.cancelled_mem hin hlock hi)).2.1
    simp [State.place, haccepted, hi, RequestPhase.holding, FuturePhase.holding]
  -- a place is kept exactly if its party's future is not cancelled
  have hkept : ∀ i id, s.place target i = some id →
      ((!s.submitted.any fun e => e.1 = id ∧ s.future e.2 = .cancelled) = true ↔
        s.future i ≠ .cancelled) := by
    intro i id hplace
    obtain ⟨-, htarget⟩ := State.place_eq_some.mp hplace
    rw [Bool.not_eq_true', List.any_eq_false]
    constructor
    · intro hnone hi
      exact hnone _ (h.cancelled_mem hin hlock hi) (by simp [htarget, hi])
    · intro hi e he hboth
      obtain ⟨hkey, hfuture⟩ := of_decide_eq_true hboth
      have htheirs : s.place target e.2 = some id := by
        rw [(hcancelled e.2 hfuture).2, ((h.submitted e).mp he).1, hkey]
      rw [h.registered.single _ _ _ htheirs hplace] at hfuture
      exact hi hfuture
  refine ⟨h.registered.drop _ (fun i id hplace => ?_) fun i id hplace hp => ?_,
    (List.length_filter_le _ _).trans h.bounded, fun e => ?_⟩
  · obtain ⟨hholding, htarget⟩ := State.place_eq_some.mp hplace
    have hi : s.future i ≠ .cancelled := by
      intro hi
      simp [hi, (hcancelled i hi).1, FuturePhase.holding] at hholding
    have hbefore : s.place target i = some id := by
      rw [State.place_eq_some]
      simpa [hi] using And.intro hholding htarget
    exact ⟨hbefore, (hkept i id hbefore).mpr hi⟩
  · have hi := (hkept i id hplace).mp hp
    rw [State.place_eq_some] at hplace ⊢
    simpa [hi] using hplace
  · simp only [List.mem_filter, h.submitted, decide_eq_true_eq]
    by_cases he : s.future e.2 = .cancelled
    · simp [he, FuturePhase.holding]
    · simp [he]

theorem Places.step (h : Places target s) (hin : InStep s) (hqueued : Queued s)
    (hdid : Did target s s') : Places target s' := by
  cases hdid with
  | refused i code hidle =>
      refine h.of_actor (i := i) rfl rfl (fun j hj => ?_) ?_ ?_
      · simp [State.ask, hj]
      · simp [State.ask, hidle, RequestPhase.holding]
      · simp [State.ask, hidle]
  | reserved i hidle hfree hroom => exact h.reserve hin hidle hfree hroom
  | checked i phase hreserved hphase =>
      refine h.of_actor (i := i) rfl rfl (fun j hj => ?_) ?_ ?_
      · simp [State.ask, hj]
      · rcases hreserved with hreq | hreq <;> rcases hphase with rfl | ⟨code, rfl⟩ <;>
          simp [State.ask, hreq, RequestPhase.holding]
      · rcases hreserved with hreq | hreq <;> rcases hphase with rfl | ⟨code, rfl⟩ <;>
          simp [State.ask, hreq]
  | submitted i hadmitted hlock hserving =>
      refine h.of_actor (i := i) rfl rfl (fun j hj => ?_) ?_ ?_
      · simp [State.ask, State.become, hj]
      · simp [State.ask, State.become, hadmitted, RequestPhase.holding]
      · simp [State.ask, State.become, hadmitted]
  | recorded i hrecording => exact h.record hin hrecording
  | gaveBack i code hrefusing => exact h.giveBack hin hrefusing
  | took i queue hroom hqueue =>
      have hpending : s.future i = .pending := by
        rw [← (hqueued.stands i).waiting, (Fifo.handOut_eq_some hqueue).1]
        exact List.mem_cons_self
      refine h.of_actor (i := i) rfl rfl (fun j hj => ?_) ?_ ?_
      · simp [State.become, hj]
      · simp [State.become, hpending, FuturePhase.holding]
      · simp [State.become, hpending, FuturePhase.holding]
  | finished i hrunning =>
      refine h.of_actor (i := i) rfl rfl (fun j hj => ?_) ?_ ?_
      · simp [State.become, hj]
      · simp [State.become, hrunning, FuturePhase.holding]
      · simp [State.become, hrunning, FuturePhase.holding]
  | released i hending hlock => exact h.release hin hending hlock
  | cleaned i hcleaning =>
      refine h.of_actor (i := i) rfl rfl (fun j hj => ?_) ?_ ?_
      · simp [State.become, hj]
      · simp [State.become, hcleaning, FuturePhase.holding]
      · simp [State.become, hcleaning, FuturePhase.holding]
  | shutDown hserving =>
      have hholding : ∀ i, FuturePhase.holding
          (if i ∈ s.queue.waiting then .cancelled else s.future i) = (s.future i).holding := by
        intro i
        split_ifs with hwaiting
        · rw [(hqueued.stands i).waiting.mp hwaiting]
          rfl
        · rfl
      refine h.of_holding rfl rfl (fun i => ?_) fun i => ?_
      · unfold State.place
        simp only [hholding]
      · simp only [hholding]
  | swept hstopping hlock => exact h.sweep hin hlock

/-- All of it, for a run. -/
structure Inv (target : ι → String) (s : State ι) : Prop where
  inStep : InStep s
  queued : Queued s
  places : Places target s

theorem Inv.step (h : Inv target s) (hdid : Did target s s') : Inv target s' :=
  ⟨h.inStep.step h.queued h.places hdid, h.queued.step h.inStep hdid,
    h.places.step h.inStep h.queued hdid⟩

theorem inv_of_run {as : List (Action ι)} (hr : Transition.run (step target) State.start as = some s) :
    Inv target s := by
  have hstep : ∀ t (a : Action ι) t', Inv target t → RunPool.step target t a = some t' →
      Inv target t' := fun t a t' h ht => h.step (step_did ht)
  exact Transition.run_invariant hstep ⟨inStep_start, queued_start, places_start⟩ hr

/-! ## The results -/

/-- Request `i`, or the future it submitted, has a place to give back. -/
def State.Holding (s : State ι) (i : ι) : Prop :=
  (s.request i).holding = true ∨ (s.future i).holding = true

/-- At most six places are taken. Each is that of exactly one request or future, which has it to
    give back, and nobody else has one: two live runs of a process are never of one experiment. -/
theorem places_accounted {as : List (Action ι)}
    (hr : Transition.run (step target) State.start as = some s) :
    s.active.Nodup ∧ s.active.length ≤ maxActiveRuns ∧
      (∀ id ∈ s.active, ∃! i, s.Holding i ∧ target i = id) ∧
      (∀ i, s.Holding i → target i ∈ s.active) ∧
      ∀ e, e ∈ s.submitted ↔
        target e.2 = e.1 ∧ s.request e.2 = .accepted ∧ (s.future e.2).holding = true := by
  obtain ⟨-, -, hregistered, hbounded, hsubmitted⟩ := inv_of_run hr
  refine ⟨hregistered.nodup, hbounded, fun id hid => ?_, fun i hi => ?_, hsubmitted⟩
  · obtain ⟨i, hi⟩ := (hregistered.listed id).mp hid
    refine ⟨i, State.place_eq_some.mp hi, fun j hj => ?_⟩
    exact hregistered.single j i id (State.place_eq_some.mpr hj) hi
  · exact hregistered.held_mem (State.place_eq_some.mpr ⟨hi, rfl⟩)

/-- Three starts, of `exp-1`, `exp-2` and `exp-1` again. -/
def exampleTarget : Fin 3 → String
  | 1 => "exp-2"
  | _ => "exp-1"

/-- A thread runs the first to its end before its future is recorded, the second is unknown, and
    the third is refused. -/
def exampleActions : List (Action (Fin 3)) :=
  [.reserve 0, .check 0 (some .created) false, .reserve 1, .submit 0, .take, .finish 0, .record 0,
    .reserve 2, .check 1 none true, .giveBack 1, .release 0, .clean 0]

theorem places_accounted_midway : ∃ s,
    Transition.run (step exampleTarget) State.start (exampleActions.take 9) = some s ∧
      s.active = ["exp-2", "exp-1"] ∧ ∃! i, s.Holding i ∧ exampleTarget i = "exp-2" := by
  have hactive : (Transition.run (step exampleTarget) State.start (exampleActions.take 9)).map
      State.active = some ["exp-2", "exp-1"] := by decide
  obtain ⟨s, hs, hplaces⟩ := Option.map_eq_some_iff.mp hactive
  exact ⟨s, hs, hplaces, (places_accounted hs).2.2.1 _ (by rw [hplaces]; exact List.mem_cons_self)⟩

/-- A step that is neither a new start nor a shutdown. -/
def Action.GoesOn : Action ι → Prop
  | .reserve _ | .shutdown => False
  | _ => True

section Stuck

variable (hstuck : ∀ a : Action ι, a.GoesOn → step target s a = none)
include hstuck

theorem lock_free_of_stuck (h : Inv target s) : s.lockedBy = none := by
  by_contra hlock
  obtain ⟨i, hi⟩ := Option.ne_none_iff_exists'.mp hlock
  have hrecording := (h.inStep i).locked.mpr hi
  have hrecord := hstuck (.record i) trivial
  simp [step, hrecording] at hrecord

theorem no_thread_of_stuck (h : Inv target s) : s.busy = [] := by
  rw [List.eq_nil_iff_forall_not_mem]
  intro i hi
  have hthread := (h.queued.stands i).busy.mp hi
  have hlock := lock_free_of_stuck hstuck h
  cases hfuture : s.future i with
  | running =>
      have hfinish := hstuck (.finish i) trivial
      simp [step, hfuture] at hfinish
  | ending =>
      have hrelease := hstuck (.release i) trivial
      simp [step, hfuture, hlock] at hrelease
  | cleaning =>
      have hclean := hstuck (.clean i) trivial
      simp [step, hfuture] at hclean
  | none => simp [hfuture, FuturePhase.onThread] at hthread
  | pending => simp [hfuture, FuturePhase.onThread] at hthread
  | done => simp [hfuture, FuturePhase.onThread] at hthread
  | cancelled => simp [hfuture, FuturePhase.onThread] at hthread
  | withdrawn => simp [hfuture, FuturePhase.onThread] at hthread

theorem no_request_of_stuck (h : Inv target s) (i : ι) : (s.request i).holding = false := by
  have hlock := lock_free_of_stuck hstuck h
  cases hrequest : s.request i with
  | reserved =>
      have hraise := hstuck (.checkRaises i) trivial
      simp [step, hrequest] at hraise
  | admitted =>
      have hsubmit := hstuck (.submit i) trivial
      simp [step, hrequest, hlock] at hsubmit
  | recording =>
      have hrecord := hstuck (.record i) trivial
      simp [step, hrequest] at hrecord
  | refusing code =>
      have hgive := hstuck (.giveBack i) trivial
      simp [step, hrequest, hlock] at hgive
  | idle => rfl
  | refused code => rfl
  | accepted => rfl

theorem no_future_of_stuck (h : Inv target s) (i : ι) : (s.future i).holding = false := by
  have hlock := lock_free_of_stuck hstuck h
  have hbusy := no_thread_of_stuck hstuck h
  have hi := h.queued.stands i
  have hthread : (s.future i).onThread = false := by
    rw [← Bool.not_eq_true, ← hi.busy, hbusy]
    exact List.not_mem_nil
  cases hfuture : s.future i with
  | pending =>
      have hwaiting : s.queue.waiting ≠ [] := List.ne_nil_of_mem (hi.waiting.mpr hfuture)
      have htake := hstuck .take trivial
      simp [step, hbusy, maxWorkers, Fifo.handOut_eq_none, hwaiting] at htake
  | cancelled =>
      have hfits := h.inStep i
      have hstopping : s.stop = .stopping := by
        cases hstop : s.stop with
        | stopping => rfl
        | serving => exact absurd hfuture (hfits.serving hstop).1
        | swept => exact absurd hfuture (hfits.swept hstop).2
      have hsweep := hstuck .sweep trivial
      simp [step, hstopping, hlock] at hsweep
  | running => simp [hfuture, FuturePhase.onThread] at hthread
  | ending => simp [hfuture, FuturePhase.onThread] at hthread
  | none => rfl
  | cleaning => rfl
  | done => rfl
  | withdrawn => rfl

end Stuck

/-- Nothing leaks: when nothing that was begun can go on, every place has been given back. -/
theorem no_place_leaks {as : List (Action ι)}
    (hr : Transition.run (step target) State.start as = some s)
    (hstuck : ∀ a : Action ι, a.GoesOn → step target s a = none) :
    s.active = [] ∧ s.submitted = [] ∧ s.busy = [] ∧ s.lockedBy = none := by
  have h := inv_of_run hr
  have hrequest := no_request_of_stuck hstuck h
  have hfuture := no_future_of_stuck hstuck h
  refine ⟨h.places.registered.eq_nil fun i => ?_, ?_, no_thread_of_stuck hstuck h,
    lock_free_of_stuck hstuck h⟩
  · simp [State.place, hrequest, hfuture]
  · rw [List.eq_nil_iff_forall_not_mem]
    intro e he
    have hholding := ((h.places.submitted e).mp he).2.2
    rw [hfuture] at hholding
    cases hholding

theorem no_place_leaks_example : ∃ s,
    Transition.run (step exampleTarget) State.start exampleActions = some s ∧ s.active = [] := by
  have hphases : (Transition.run (step exampleTarget) State.start exampleActions).map (fun s =>
      (s.stop, s.queue.waiting, s.request 0, s.request 1, s.request 2, s.future 0, s.future 1,
        s.future 2)) =
      some (.serving, [], .accepted, .refused 404, .refused 409, .done, .none, .none) := rfl
  obtain ⟨s, hs, hphases⟩ := Option.map_eq_some_iff.mp hphases
  obtain ⟨hstop, hwaiting, h0, h1, h2, hf0, hf1, hf2⟩ :
      s.stop = .serving ∧ s.queue.waiting = [] ∧ s.request 0 = .accepted ∧
        s.request 1 = .refused 404 ∧ s.request 2 = .refused 409 ∧ s.future 0 = .done ∧
        s.future 1 = .none ∧ s.future 2 = .none := by
    simpa only [Prod.mk.injEq] using hphases
  have hstuck : ∀ a : Action (Fin 3), a.GoesOn → step exampleTarget s a = none := by
    intro a ha
    cases a with
    | reserve i => cases ha
    | shutdown => cases ha
    | take => simp [step, Fifo.handOut_eq_none.mpr hwaiting]
    | sweep => simp [step, hstop]
    | check i row lockHeld => fin_cases i <;> simp [step, h0, h1, h2]
    | checkRaises i => fin_cases i <;> simp [step, h0, h1, h2]
    | submit i => fin_cases i <;> simp [step, h0, h1, h2]
    | record i => fin_cases i <;> simp [step, h0, h1, h2]
    | giveBack i => fin_cases i <;> simp [step, h0, h1, h2]
    | finish i => fin_cases i <;> simp [step, hf0, hf1, hf2]
    | release i => fin_cases i <;> simp [step, hf0, hf1, hf2]
    | clean i => fin_cases i <;> simp [step, hf0, hf1, hf2]
  exact ⟨s, hs, (no_place_leaks hs hstuck).1⟩

/-- After a shutdown nothing is submitted and nothing leaves the queue. -/
theorem queue_closed (h : Inv target s) (hstop : s.stop ≠ .serving) (hdid : Did target s s') :
    s'.stop ≠ .serving ∧ s'.queue = s.queue := by
  cases hdid with
  | submitted i hadmitted hlock hserving => exact absurd hserving hstop
  | took i queue hroom hqueue =>
      have hpending : s.future i = .pending := by
        rw [← (h.queued.stands i).waiting, (Fifo.handOut_eq_some hqueue).1]
        exact List.mem_cons_self
      exact absurd hpending ((h.inStep i).shut hstop)
  | shutDown hserving => exact absurd hserving hstop
  | swept hstopping hlock => exact ⟨by simp, rfl⟩
  | _ => exact ⟨hstop, rfl⟩

/-- Runs begin in the order they were submitted, each once, and no more than two are under way.
    None is dropped before a shutdown, and after one nothing is submitted and nothing begins. -/
theorem runs_begin_in_order {as : List (Action ι)}
    (hr : Transition.run (step target) State.start as = some s) :
    s.queue.pushed.Nodup ∧ (s.queue.handedOut ++ s.queue.waiting).Sublist s.queue.pushed ∧
      (s.stop = .serving → s.queue.pushed = s.queue.handedOut ++ s.queue.waiting) ∧
      (s.busy.Nodup ∧ s.busy.length ≤ maxWorkers) ∧
      (s.stop ≠ .serving → s.queue.waiting = [] ∧
        ∀ bs t, Transition.run (step target) s bs = some t → t.queue = s.queue) := by
  have h := inv_of_run hr
  refine ⟨h.queued.once, Fifo.handedOut_waiting_sublist _, fun hserving => ?_, h.queued.threads,
    fun hstop => ⟨?_, fun bs t ht => ?_⟩⟩
  · refine Fifo.pushed_eq_of_dropped_nil (List.eq_nil_iff_forall_not_mem.mpr fun i hi => ?_)
    have hserv := (h.inStep i).serving hserving
    rcases (h.queued.stands i).dropped.mp hi with hcancelled | hwithdrawn
    · exact hserv.1 hcancelled
    · exact hserv.2 hwithdrawn
  · rw [List.eq_nil_iff_forall_not_mem]
    intro i hi
    exact (h.inStep i).shut hstop ((h.queued.stands i).waiting.mp hi)
  · have hstep : ∀ u (a : Action ι) u',
        (Inv target u ∧ u.stop ≠ .serving ∧ u.queue = s.queue) →
        RunPool.step target u a = some u' →
        (Inv target u' ∧ u'.stop ≠ .serving ∧ u'.queue = s.queue) := by
      rintro u a u' ⟨hinv, hustop, hqueue⟩ hu
      have hdid := step_did hu
      obtain ⟨hstop', hqueue'⟩ := queue_closed hinv hustop hdid
      exact ⟨hinv.step hdid, hstop', hqueue'.trans hqueue⟩
    exact (Transition.run_invariant hstep ⟨h, hstop, rfl⟩ ht).2.2

theorem runs_begin_in_order_example : ∃ s,
    Transition.run (step exampleTarget) State.start exampleActions = some s ∧
      s.queue.pushed = s.queue.handedOut ++ s.queue.waiting := by
  have hstop : (Transition.run (step exampleTarget) State.start exampleActions).map State.stop =
      some .serving := by decide
  obtain ⟨s, hs, hserving⟩ := Option.map_eq_some_iff.mp hstop
  exact ⟨s, hs, (runs_begin_in_order hs).2.2.1 hserving⟩

end Invariants

end NeuroForge.RunPool
