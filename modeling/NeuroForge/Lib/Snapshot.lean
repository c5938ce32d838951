/-
  Writes that are prepared from a snapshot of a store and committed later.

  A client reads the store, prepares a write from what it saw and keeps both; its commit
  applies the write to the store of then, unless a constraint refuses it. Any number of
  clients do so at once. What keeps a store good is a statement about one commit: the write
  was prepared from an older store, and `Fresh` says how far the present one may have moved
  from it. `always_good_iff` turns what one commit does into a statement about all runs.
-/
import NeuroForge.Lib.Interleaving

namespace Snapshot

open Interleaving

variable {ι σ π ρ : Type*}

/-- A prepared write, and the store it was prepared from. -/
structure Pending (σ π : Type*) where
  seen : σ
  write : π
  deriving DecidableEq

inductive Action (ρ : Type*) where
  /-- a client reads the store for a request -/
  | read (request : ρ)
  | commit
  | abort

/-- The store and its clients, each with at most one prepared write. -/
abbrev Clients (ι σ π : Type*) := System ι σ (Option (Pending σ π))

def start (store : σ) : Clients ι σ π := ⟨store, fun _ => none⟩

/-- What `prepare` makes of a request is what is written, if anything; `apply` is a commit,
    `none` where it is refused and rolled back. -/
def next (prepare : σ → ρ → Option π) (apply : σ → π → Option σ) (s : Clients ι σ π) (i : ι) :
    Action ρ → Option (σ × Option (Pending σ π))
  | .read request =>
      match s.phase i with
      | none => some (s.shared, (prepare s.shared request).map fun write => ⟨s.shared, write⟩)
      | some _ => none
  | .commit =>
      match s.phase i with
      | some p => some ((apply s.shared p.write).getD s.shared, none)
      | none => none
  | .abort =>
      match s.phase i with
      | some _ => some (s.shared, none)
      | none => none

section Rule

variable [DecidableEq ι] {prepare : σ → ρ → Option π} {apply : σ → π → Option σ}

/-- Whatever a client commits is fresh. -/
def CommitsFresh (apply : σ → π → Option σ) (Fresh : σ → Pending σ π → Prop)
    (s : Clients ι σ π) (a : ι × Action ρ) : Prop :=
  ∀ p store', a.2 matches .commit → s.phase a.1 = some p → apply s.shared p.write = some store' →
    Fresh s.shared p

/-- A good store, and what holds of every prepared write against it. -/
structure Sound (Good : σ → Prop) (Local : σ → Pending σ π → Prop) (s : Clients ι σ π) :
    Prop where
  good : Good s.shared
  pending : ∀ i p, s.phase i = some p → Local s.shared p

variable {Good : σ → Prop} {Local Fresh : σ → Pending σ π → Prop}

omit [DecidableEq ι] in
theorem sound_start {store : σ} (h : Good store) :
    Sound Good Local (start store : Clients ι σ π) :=
  ⟨h, fun _ _ hp => nomatch hp⟩

/-- The rule of one step. -/
theorem Sound.step
    (hread : ∀ store request write, Good store → prepare store request = some write →
      Local store ⟨store, write⟩)
    (hcommit : ∀ store p store', Good store → Local store p → apply store p.write = some store' →
      Fresh store p → Good store' ∧ ∀ q, Local store q → Local store' q)
    {s s' : Clients ι σ π} {a : ι × Action ρ} (h : Sound Good Local s)
    (hfresh : CommitsFresh apply Fresh s a)
    (hstep : Interleaving.step (next prepare apply) s a = some s') : Sound Good Local s' := by
  obtain ⟨i, a⟩ := a
  obtain ⟨r, hr, rfl⟩ := step_eq_some.mp hstep
  -- it is enough to follow the store and the phase of the acting client
  suffices hnext : Good r.1 ∧ (∀ p, r.2 = some p → Local r.1 p) ∧
      ∀ q, Local s.shared q → Local r.1 q by
    refine ⟨hnext.1, fun j p hp => ?_⟩
    change Function.update s.phase i r.2 j = some p at hp
    by_cases hj : j = i
    · subst hj
      rw [Function.update_self] at hp
      exact hnext.2.1 p hp
    · rw [Function.update_of_ne hj] at hp
      exact hnext.2.2 p (h.pending j p hp)
  have hnone : ∀ store q, (none : Option (Pending σ π)) = some q → Local store q := by
    intro store q hq
    cases hq
  cases a with
  | read request =>
      dsimp only [next] at hr
      split at hr
      · rw [← Option.some.inj hr]
        refine ⟨h.good, fun p hp => ?_, fun q hq => hq⟩
        obtain ⟨write, hwrite, rfl⟩ := Option.map_eq_some_iff.mp hp
        exact hread _ _ _ h.good hwrite
      · cases hr
  | commit =>
      dsimp only [next] at hr
      split at hr
      · rename_i p hp
        rw [← Option.some.inj hr]
        rcases happly : apply s.shared p.write with _ | store'
        · exact ⟨h.good, hnone _, fun q hq => hq⟩
        · have hp' := h.pending i p hp
          obtain ⟨hgood, hlocal⟩ :=
            hcommit _ p store' h.good hp' happly (hfresh p store' rfl hp happly)
          exact ⟨hgood, hnone _, hlocal⟩
      · cases hr
  | abort =>
      dsimp only [next] at hr
      split at hr
      · rw [← Option.some.inj hr]
        exact ⟨h.good, hnone _, fun q hq => hq⟩
      · cases hr

/-- If a write that is not fresh spoils the store, the store is good all along a run exactly
    when every commit of the run is fresh. -/
theorem always_good_iff (Local : σ → Pending σ π → Prop)
    (hread : ∀ store request write, Good store → prepare store request = some write →
      Local store ⟨store, write⟩)
    (hcommit : ∀ store p store', Good store → Local store p → apply store p.write = some store' →
      Fresh store p → Good store' ∧ ∀ q, Local store q → Local store' q)
    (hspoilt : ∀ store p store', Good store → Local store p → apply store p.write = some store' →
      Good store' → Fresh store p)
    {store : σ} (hstart : Good store) {as : List (ι × Action ρ)} {s : Clients ι σ π}
    (hrun : Transition.run (Interleaving.step (next prepare apply)) (start store) as = some s) :
    (∀ pre, pre <+: as → ∀ t,
      Transition.run (Interleaving.step (next prepare apply)) (start store) pre = some t →
        Good t.shared) ↔
    Transition.Guarded (Interleaving.step (next prepare apply)) (CommitsFresh apply Fresh)
      (start store) as := by
  refine Transition.guarded_iff (fun t (ht : Sound Good Local t) => ht.good)
    (fun t a t' ht hok hstep => ht.step hread hcommit hok hstep) ?_ (sound_start hstart) hrun
  rintro t ⟨i, a⟩ t' ht hstep hgood p store' ha hp happly
  obtain ⟨r, hr, rfl⟩ := step_eq_some.mp hstep
  cases a with
  | commit =>
      simp only [next, hp, happly, Option.getD_some, Option.some.injEq] at hr
      rw [← hr] at hgood
      exact hspoilt _ p store' ht.good (ht.pending i p hp) happly hgood
  | read request => cases ha
  | abort => cases ha

end Rule

end Snapshot
