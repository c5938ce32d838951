/-
  Runs whose actions carry the reading of a clock that never goes back.

  `InOrder time c as` says that the readings of `as` come in order and none lies before `c`.
  What is said of a state may speak of the last reading: `run_invariant` carries such an
  invariant along a run, and `answers_eq_of_simulation` shows that two systems that answer
  alike from related states give the same answers all along. `occurrences` counts the steps
  of a run that meet a condition in the state they are taken in. Where every such step costs
  one unit of a potential that lies between 0 and `capacity`, and time gives back `rate` of it
  at most, no window of time holds more of them than `capacity` and `rate` times its length
  (`occurrences_le_of_potential`).
-/
import NeuroForge.Lib.Transition
import Mathlib.Algebra.Order.Field.Basic
import Mathlib.Tactic.Linarith
import Mathlib.Tactic.Ring

namespace Clocked

open Transition

variable {σ τ α β K : Type*}

section Order

variable [LinearOrder K] {time : α → K}

/-- No reading lies before the one before it, and the first not before `c`. -/
def InOrder (time : α → K) : K → List α → Prop
  | _, [] => True
  | c, a :: as => c ≤ time a ∧ InOrder time (time a) as

theorem InOrder.le {c : K} {as : List α} (h : InOrder time c as) : ∀ a ∈ as, c ≤ time a := by
  induction as generalizing c with
  | nil => exact fun a ha => absurd ha List.not_mem_nil
  | cons a as ih =>
      intro b hb
      rcases List.mem_cons.mp hb with rfl | hmem
      · exact h.1
      · exact h.1.trans (ih h.2 b hmem)

/-- A list of readings in order has one that none of them lies before. -/
theorem exists_inOrder [Nonempty K] {as : List α}
    (h : as.Pairwise fun a b => time a ≤ time b) : ∃ c, InOrder time c as := by
  cases as with
  | nil => exact ⟨Classical.arbitrary K, trivial⟩
  | cons a as =>
      refine ⟨time a, le_rfl, ?_⟩
      induction as generalizing a with
      | nil => trivial
      | cons b bs ih =>
          have hab := List.pairwise_cons.mp h
          exact ⟨hab.1 b List.mem_cons_self, ih b hab.2⟩

/-! ## What holds all along -/

theorem run_invariant {step : σ → α → Option σ} {ok : σ → α → Prop} {Inv : K → σ → Prop}
    (hstep : ∀ c s a s', Inv c s → c ≤ time a → ok s a → step s a = some s' → Inv (time a) s')
    {c : K} {s s' : σ} {as : List α} (hs : Inv c s) (hclock : InOrder time c as)
    (hok : Guarded step ok s as) (hr : run step s as = some s') :
    ∃ c', c ≤ c' ∧ Inv c' s' ∧ ∀ rest, InOrder time c (as ++ rest) → InOrder time c' rest := by
  induction as generalizing c s with
  | nil =>
      obtain rfl := Option.some.inj hr
      exact ⟨c, le_rfl, hs, fun rest h => h⟩
  | cons a as ih =>
      rw [run_cons] at hr
      obtain ⟨u, hu, hr⟩ := Option.bind_eq_some_iff.mp hr
      obtain ⟨c', hc', hInv, hrest⟩ :=
        ih (hstep c s a u hs hclock.1 hok.1 hu) hclock.2 (hok.2 u hu) hr
      exact ⟨c', hclock.1.trans hc', hInv, fun rest h => hrest rest h.2⟩

/-- The answers a run gives, one for each of its actions. -/
def answers (step : σ → α → Option σ) (answer : σ → α → β) : σ → List α → List β
  | _, [] => []
  | s, a :: as => answer s a :: (step s a).elim [] fun s' => answers step answer s' as

theorem answers_eq_of_simulation {step : σ → α → Option σ} {answer : σ → α → β}
    {step' : τ → α → Option τ} {answer' : τ → α → β} {ok : σ → α → Prop}
    {R : K → σ → τ → Prop}
    (hR : ∀ c s t a, R c s t → c ≤ time a → ok s a → answer s a = answer' t a ∧
      Option.Rel (R (time a)) (step s a) (step' t a))
    {c : K} {s : σ} {t : τ} {as : List α} (h : R c s t) (hclock : InOrder time c as)
    (hok : Guarded step ok s as) : answers step answer s as = answers step' answer' t as := by
  induction as generalizing c s t with
  | nil => rfl
  | cons a as ih =>
      obtain ⟨hanswer, hnext⟩ := hR c s t a h hclock.1 hok.1
      have hguarded := hok.2
      unfold answers
      rw [hanswer]
      generalize step s a = o, step' t a = o' at hnext hguarded
      cases hnext with
      | none => rfl
      | some h' => exact congrArg _ (ih h' hclock.2 (hguarded _ rfl))

end Order

/-! ## How often a step of a kind is taken -/

/-- The number of steps of a run that meet `P` in the state they are taken in. -/
def occurrences (step : σ → α → Option σ) (P : σ → α → Prop) [∀ s a, Decidable (P s a)] :
    σ → List α → ℕ
  | _, [] => 0
  | s, a :: as =>
      (if P s a then 1 else 0) + (step s a).elim 0 fun s' => occurrences step P s' as

section Count

variable {step : σ → α → Option σ} {P Q : σ → α → Prop} [∀ s a, Decidable (P s a)]
  [∀ s a, Decidable (Q s a)]

theorem occurrences_eq_zero {s : σ} {as : List α} (h : ∀ s, ∀ a ∈ as, ¬ P s a) :
    occurrences step P s as = 0 := by
  induction as generalizing s with
  | nil => rfl
  | cons a as ih =>
      have hrest : ∀ s, ∀ b ∈ as, ¬ P s b := fun s b hb => h s b (List.mem_cons_of_mem a hb)
      unfold occurrences
      rw [if_neg (h s a List.mem_cons_self)]
      cases step s a with
      | none => rfl
      | some s' =>
          rw [Nat.zero_add]
          exact ih hrest

theorem occurrences_congr {s : σ} {as : List α} (h : ∀ s, ∀ a ∈ as, (P s a ↔ Q s a)) :
    occurrences step P s as = occurrences step Q s as := by
  induction as generalizing s with
  | nil => rfl
  | cons a as ih =>
      have hrest : ∀ s, ∀ b ∈ as, (P s b ↔ Q s b) :=
        fun s b hb => h s b (List.mem_cons_of_mem a hb)
      unfold occurrences
      simp only [h s a List.mem_cons_self]
      cases step s a with
      | none => rfl
      | some s' => exact congrArg _ (ih hrest)

end Count

section Potential

variable [Field K] [LinearOrder K] [IsStrictOrderedRing K] {time : α → K}
  {step : σ → α → Option σ} {ok : σ → α → Prop} {P : σ → α → Prop} [∀ s a, Decidable (P s a)]
  {Inv : K → σ → Prop} {potential : K → σ → K} {capacity rate : K}

/-- A step keeps the invariant, and what it costs is paid from the potential and from what
    the time since the last reading gave back. -/
def Pays (time : α → K) (step : σ → α → Option σ) (ok P : σ → α → Prop)
    [∀ s a, Decidable (P s a)] (Inv : K → σ → Prop) (potential : K → σ → K) (rate : K) : Prop :=
  ∀ c s a s', Inv c s → c ≤ time a → ok s a → step s a = some s' →
    Inv (time a) s' ∧
      (if P s a then 1 else 0) + potential (time a) s' ≤ potential c s + rate * (time a - c)

/-- Up to the time `last` a run spends what it starts with and what time gives it. -/
theorem occurrences_until_le (hpays : Pays time step ok P Inv potential rate)
    (hnonneg : ∀ c s, Inv c s → 0 ≤ potential c s) (hrate : 0 ≤ rate)
    (henabled : ∀ s a, P s a → ∃ s', step s a = some s')
    {c last : K} {s : σ} {as : List α} (hs : Inv c s) (hclock : InOrder time c as)
    (hok : Guarded step ok s as) (hlast : c ≤ last) :
    (occurrences step (fun s a => P s a ∧ time a ≤ last) s as : K) ≤
      potential c s + rate * (last - c) := by
  induction as generalizing c s with
  | nil =>
      have hgain : 0 ≤ rate * (last - c) := mul_nonneg hrate (sub_nonneg.mpr hlast)
      have hpot := hnonneg c s hs
      simp only [occurrences, Nat.cast_zero]
      linarith
  | cons a as ih =>
      have hgain : 0 ≤ rate * (last - c) := mul_nonneg hrate (sub_nonneg.mpr hlast)
      have hpot := hnonneg c s hs
      by_cases htime : time a ≤ last
      · unfold occurrences
        cases hstep : step s a with
        | none =>
            have hnot : ¬ (P s a ∧ time a ≤ last) := by
              rintro ⟨hP, -⟩
              obtain ⟨s', hs'⟩ := henabled s a hP
              rw [hstep] at hs'
              cases hs'
            rw [if_neg hnot]
            simp only [Option.elim_none, Nat.zero_add, Nat.cast_zero]
            linarith
        | some s' =>
            obtain ⟨hs', hcost⟩ := hpays c s a s' hs hclock.1 hok.1 hstep
            have hrest := ih hs' hclock.2 (hok.2 s' hstep) htime
            have hsplit : rate * (last - c) =
                rate * (time a - c) + rate * (last - time a) := by
              ring
            simp only [Option.elim_some, htime, and_true, Nat.cast_add, Nat.cast_ite,
              Nat.cast_one, Nat.cast_zero] at hrest ⊢
            linarith
      · have hnone : occurrences step (fun s a => P s a ∧ time a ≤ last) s (a :: as) = 0 := by
          refine occurrences_eq_zero fun s b hb hPb => ?_
          rcases List.mem_cons.mp hb with rfl | hmem
          · exact htime hPb.2
          · exact htime ((hclock.2.le b hmem).trans hPb.2)
        rw [hnone, Nat.cast_zero]
        linarith

/-- No window of time holds more of the steps that cost one than `capacity` and what time
    gives back within the window. -/
theorem occurrences_le_of_potential (hpays : Pays time step ok P Inv potential rate)
    (hnonneg : ∀ c s, Inv c s → 0 ≤ potential c s)
    (hcapacity : ∀ c s, Inv c s → potential c s ≤ capacity) (hrate : 0 ≤ rate)
    (hwait : ∀ c c' s, Inv c s → c ≤ c' → Inv c' s)
    (henabled : ∀ s a, P s a → ∃ s', step s a = some s')
    {c first last : K} {s : σ} {as : List α} (hs : Inv c s) (hclock : InOrder time c as)
    (hok : Guarded step ok s as) (hwindow : first ≤ last) :
    (occurrences step (fun s a => P s a ∧ first ≤ time a ∧ time a ≤ last) s as : K) ≤
      capacity + rate * (last - first) := by
  have hgain : 0 ≤ rate * (last - first) := mul_nonneg hrate (sub_nonneg.mpr hwindow)
  have hfull : 0 ≤ capacity := (hnonneg c s hs).trans (hcapacity c s hs)
  induction as generalizing c s with
  | nil =>
      simp only [occurrences, Nat.cast_zero]
      linarith
  | cons a as ih =>
      rcases lt_or_ge (time a) first with hearly | hin
      · -- Before the window nothing is counted.
        have hnot : ¬ (P s a ∧ first ≤ time a ∧ time a ≤ last) := fun h =>
          absurd h.2.1 (not_le.mpr hearly)
        unfold occurrences
        rw [if_neg hnot]
        cases hstep : step s a with
        | none =>
            simp only [Option.elim_none, Nat.zero_add, Nat.cast_zero]
            linarith
        | some s' =>
            have hs' := (hpays c s a s' hs hclock.1 hok.1 hstep).1
            simp only [Option.elim_some, Nat.zero_add]
            exact ih hs' hclock.2 (hok.2 s' hstep)
      · -- From the first reading of the window on, only its end matters.
        have hsame : occurrences step (fun s a => P s a ∧ first ≤ time a ∧ time a ≤ last) s
            (a :: as) = occurrences step (fun s a => P s a ∧ time a ≤ last) s (a :: as) := by
          refine occurrences_congr fun u b hb => ?_
          have hb' : first ≤ time b := by
            rcases List.mem_cons.mp hb with rfl | hmem
            · exact hin
            · exact hin.trans (hclock.2.le b hmem)
          simp [hb']
        rw [hsame]
        rcases le_or_gt (time a) last with hbefore | hafter
        · have hwaited := hwait c (time a) s hs hclock.1
          have hfrom : InOrder time (time a) (a :: as) := ⟨le_rfl, hclock.2⟩
          have hspent := occurrences_until_le hpays hnonneg hrate henabled hwaited hfrom hok
            hbefore
          have hpot := hcapacity (time a) s hwaited
          have hless : rate * (last - time a) ≤ rate * (last - first) :=
            mul_le_mul_of_nonneg_left (by linarith) hrate
          linarith
        · have hnone :
              occurrences step (fun s a => P s a ∧ time a ≤ last) s (a :: as) = 0 := by
            refine occurrences_eq_zero fun u b hb hPb => ?_
            rcases List.mem_cons.mp hb with rfl | hmem
            · exact absurd hPb.2 (not_le.mpr hafter)
            · exact absurd ((hclock.2.le b hmem).trans hPb.2) (not_le.mpr hafter)
          rw [hnone, Nat.cast_zero]
          linarith

end Potential

end Clocked
