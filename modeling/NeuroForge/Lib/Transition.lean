/-
  Partial step functions and their runs.

  A system is a function `step : σ → α → Option σ`: in state `s` the action `a` either is
  not enabled (`none`) or leads to one state. `run` chains actions. Safety is proved from
  one step: an invariant of `step` is an invariant of `run` (`run_invariant`), also when
  only the runs whose steps all meet a condition on the state before them are considered
  (`run_invariant_of_guarded`). `run_map` carries a run along a function that commutes
  with the step, `run_simulation` along a relation, `run_implements` into a system that takes
  several steps for one. The last section is on relations that lower a measure or have one
  successor at most.
-/
import Mathlib.Data.List.Basic
import Mathlib.Logic.Relation

namespace Transition

variable {σ τ α : Type*}

/-- The state after the actions `as`, if every one of them is enabled in its turn. -/
def run (step : σ → α → Option σ) (s : σ) : List α → Option σ
  | [] => some s
  | a :: as => (step s a).bind fun s' => run step s' as

@[simp] theorem run_nil (step : σ → α → Option σ) (s : σ) : run step s [] = some s := rfl

theorem run_cons (step : σ → α → Option σ) (s : σ) (a : α) (as : List α) :
    run step s (a :: as) = (step s a).bind fun s' => run step s' as := rfl

theorem run_append (step : σ → α → Option σ) (s : σ) (as bs : List α) :
    run step s (as ++ bs) = (run step s as).bind fun s' => run step s' bs := by
  induction as generalizing s with
  | nil => rfl
  | cons a as ih =>
      simp only [List.cons_append, run_cons, Option.bind_assoc]
      exact congrArg _ (funext fun s' => ih s')

/-- Every step of the run `as` from `s` meets the condition `ok` in the state it is taken. -/
def Guarded (step : σ → α → Option σ) (ok : σ → α → Prop) (s : σ) : List α → Prop
  | [] => True
  | a :: as => ok s a ∧ ∀ s', step s a = some s' → Guarded step ok s' as

theorem guarded_true (step : σ → α → Option σ) (s : σ) (as : List α) :
    Guarded step (fun _ _ => True) s as := by
  induction as generalizing s with
  | nil => trivial
  | cons a as ih => exact ⟨trivial, fun s' _ => ih s'⟩

theorem Guarded.and_mem {step : σ → α → Option σ} {ok : σ → α → Prop} {P : α → Prop} {s : σ}
    {as : List α} (hg : Guarded step ok s as) (h : ∀ a ∈ as, P a) :
    Guarded step (fun s a => ok s a ∧ P a) s as := by
  induction as generalizing s with
  | nil => trivial
  | cons a as ih =>
      exact ⟨⟨hg.1, h a List.mem_cons_self⟩, fun s' hs' =>
        ih (hg.2 s' hs') fun b hb => h b (List.mem_cons_of_mem _ hb)⟩

/-- A condition that can be decided at every step can be decided along a run. -/
instance Guarded.decidable {step : σ → α → Option σ} {ok : σ → α → Prop}
    [∀ s a, Decidable (ok s a)] : ∀ (s : σ) (as : List α), Decidable (Guarded step ok s as)
  | _, [] => .isTrue trivial
  | s, a :: as =>
      match h : step s a with
      | none => decidable_of_iff (ok s a)
          ⟨fun hok => ⟨hok, fun s' hs' => by rw [h] at hs'; cases hs'⟩, fun hg => hg.1⟩
      | some t =>
          have : Decidable (Guarded step ok t as) := Guarded.decidable t as
          decidable_of_iff (ok s a ∧ Guarded step ok t as)
            ⟨fun hg => ⟨hg.1, fun s' hs' => by rw [h] at hs'; cases hs'; exact hg.2⟩,
              fun hg => ⟨hg.1, hg.2 t h⟩⟩

/-- The induction over a guarded run, done once. -/
theorem run_invariant_of_guarded {step : σ → α → Option σ} {ok : σ → α → Prop}
    {Inv : σ → Prop}
    (hstep : ∀ s a s', Inv s → ok s a → step s a = some s' → Inv s')
    {s s' : σ} {as : List α} (hs : Inv s) (hok : Guarded step ok s as)
    (hr : run step s as = some s') : Inv s' := by
  induction as generalizing s with
  | nil =>
      cases hr
      exact hs
  | cons a as ih =>
      rw [run_cons] at hr
      obtain ⟨t, ht, hr⟩ := Option.bind_eq_some_iff.mp hr
      exact ih (hstep s a t hs hok.1 ht) (hok.2 t ht) hr

theorem Guarded.initial {step : σ → α → Option σ} {ok : σ → α → Prop} {s : σ}
    {as bs : List α} (h : Guarded step ok s bs) (hpre : as <+: bs) : Guarded step ok s as := by
  induction as generalizing s bs with
  | nil => trivial
  | cons a as ih =>
      obtain ⟨rest, rfl⟩ := hpre
      exact ⟨h.1, fun s' hs' => ih (h.2 s' hs') (List.prefix_append as rest)⟩

/-- A condition that keeps an invariant, and without which a step leads out of `Good`, is
    met all along a run exactly when the run never leaves `Good`. -/
theorem guarded_iff {step : σ → α → Option σ} {ok : σ → α → Prop} {Inv Good : σ → Prop}
    (hgood : ∀ s, Inv s → Good s)
    (hstep : ∀ s a s', Inv s → ok s a → step s a = some s' → Inv s')
    (hback : ∀ s a s', Inv s → step s a = some s' → Good s' → ok s a)
    {s s' : σ} {as : List α} (hs : Inv s) (hr : run step s as = some s') :
    (∀ pre, pre <+: as → ∀ t, run step s pre = some t → Good t) ↔ Guarded step ok s as := by
  constructor
  · intro halways
    induction as generalizing s with
    | nil => trivial
    | cons a as ih =>
        rw [run_cons] at hr
        obtain ⟨t, ht, hr⟩ := Option.bind_eq_some_iff.mp hr
        have hone : run step s [a] = some t := by
          rw [run_cons, ht]
          rfl
        have hok : ok s a := hback s a t hs ht (halways [a] (List.prefix_append [a] as) t hone)
        refine ⟨hok, fun t' ht' => ?_⟩
        obtain rfl : t = t' := Option.some.inj (ht.symm.trans ht')
        refine ih (hstep s a t hs hok ht) hr fun pre hpre u hu => ?_
        refine halways (a :: pre) ((List.cons_prefix_cons).mpr ⟨rfl, hpre⟩) u ?_
        rw [run_cons, ht]
        exact hu
  · intro hguarded pre hpre t ht
    exact hgood t (run_invariant_of_guarded hstep hs (hguarded.initial hpre) ht)

/-- Conditions that say the same of every step that can be taken say the same of a run. -/
theorem guarded_congr {step : σ → α → Option σ} {ok ok' : σ → α → Prop} {Inv : σ → Prop}
    (hstep : ∀ s a s', Inv s → step s a = some s' → Inv s')
    (hiff : ∀ s a s', Inv s → step s a = some s' → (ok s a ↔ ok' s a))
    {s s' : σ} {as : List α} (hs : Inv s) (hr : run step s as = some s') :
    Guarded step ok s as ↔ Guarded step ok' s as := by
  induction as generalizing s with
  | nil => exact Iff.rfl
  | cons a as ih =>
      rw [run_cons] at hr
      obtain ⟨t, ht, hr⟩ := Option.bind_eq_some_iff.mp hr
      have hrest := ih (hstep s a t hs ht) hr
      have honly : ∀ {P : σ → Prop}, (∀ u, step s a = some u → P u) ↔ P t := by
        intro P
        constructor
        · exact fun h => h t ht
        · intro h u hu
          rw [ht] at hu
          exact Option.some.inj hu ▸ h
      unfold Guarded
      rw [hiff s a t hs ht, honly, honly, hrest]

/-- What every step preserves holds after every run. -/
theorem run_invariant {step : σ → α → Option σ} {Inv : σ → Prop}
    (hstep : ∀ s a s', Inv s → step s a = some s' → Inv s')
    {s s' : σ} {as : List α} (hs : Inv s) (hr : run step s as = some s') : Inv s' :=
  run_invariant_of_guarded (fun s a s' h _ => hstep s a s' h) hs (guarded_true step s as) hr

/-- A function that commutes with the step commutes with the run. -/
theorem run_map {step : σ → α → Option σ} {step' : τ → α → Option τ} (f : σ → τ)
    (hf : ∀ s a, step' (f s) a = (step s a).map f) (s : σ) (as : List α) :
    run step' (f s) as = (run step s as).map f := by
  induction as generalizing s with
  | nil => rfl
  | cons a as ih =>
      rw [run_cons, run_cons, hf]
      cases step s a with
      | none => rfl
      | some s' => exact ih s'

/-- Two systems whose steps agree from related states, in whether they are enabled and up
    to the relation in where they lead, have related runs. -/
theorem run_simulation {step : σ → α → Option σ} {step' : τ → α → Option τ}
    {R : σ → τ → Prop} (hR : ∀ s t a, R s t → Option.Rel R (step s a) (step' t a))
    {s : σ} {t : τ} (as : List α) (h : R s t) :
    Option.Rel R (run step s as) (run step' t as) := by
  induction as generalizing s t with
  | nil => exact .some h
  | cons a as ih =>
      rw [run_cons, run_cons]
      have hstep := hR s t a h
      generalize step s a = o, step' t a = o' at hstep ⊢
      cases hstep with
      | none => exact .none
      | some h' => exact ih h'

/-- A system whose every step is matched by a run of another has its runs matched too. -/
theorem run_implements {β : Type*} {step : σ → α → Option σ} {step' : τ → β → Option τ}
    {R : σ → τ → Prop}
    (hR : ∀ s t a s', R s t → step s a = some s' → ∃ bs t', run step' t bs = some t' ∧ R s' t')
    {s s' : σ} {t : τ} {as : List α} (h : R s t) (hr : run step s as = some s') :
    ∃ bs t', run step' t bs = some t' ∧ R s' t' := by
  induction as generalizing s t with
  | nil =>
      obtain rfl := Option.some.inj hr
      exact ⟨[], t, rfl, h⟩
  | cons a as ih =>
      obtain ⟨s₁, hstep, hr⟩ := Option.bind_eq_some_iff.mp hr
      obtain ⟨bs, t₁, hrun, h₁⟩ := hR s t a s₁ h hstep
      obtain ⟨bs', t', hrun', h'⟩ := ih h₁ hr
      refine ⟨bs ++ bs', t', ?_, h'⟩
      rw [run_append, hrun]
      exact hrun'

/-! ## Measures -/

/-- A run takes no more of the steps that lower a measure than the measure allows, if its other
    steps do not raise it. -/
theorem countP_le_of_measure {step : σ → α → Option σ} {own : α → Prop} [DecidablePred own]
    {allowed : α → Prop} {μ : σ → ℕ}
    (hother : ∀ s a s', allowed a → step s a = some s' → μ s' ≤ μ s)
    (hown : ∀ s a s', own a → step s a = some s' → μ s' < μ s)
    {s s' : σ} {as : List α} (hallowed : ∀ a ∈ as, allowed a) (hr : run step s as = some s') :
    as.countP (fun a => decide (own a)) + μ s' ≤ μ s := by
  induction as generalizing s with
  | nil =>
      obtain rfl := Option.some.inj hr
      simp
  | cons a as ih =>
      rw [run_cons] at hr
      obtain ⟨t, ht, hr⟩ := Option.bind_eq_some_iff.mp hr
      have hrest := ih (fun b hb => hallowed b (List.mem_cons_of_mem a hb)) hr
      rw [List.countP_cons]
      by_cases ha : own a
      · have hless := hown s a t ha ht
        simp only [ha, decide_true, if_true]
        omega
      · have hle := hother s a t (hallowed a List.mem_cons_self) ht
        simp only [ha, decide_false, Bool.false_eq_true, if_false]
        omega

/-! ## Deterministic chains -/

/-- Where every state has at most one successor, all states reached from one state lead
    to the one among them that has none. -/
theorem reaches_terminal {r : σ → σ → Prop} (hr : Relator.RightUnique r) {a b c : σ}
    (hab : Relation.ReflTransGen r a b) (hac : Relation.ReflTransGen r a c)
    (hc : ∀ d, ¬ r c d) : Relation.ReflTransGen r b c := by
  rcases Relation.ReflTransGen.total_of_right_unique hr hab hac with h | h
  · exact h
  · rcases Relation.ReflTransGen.cases_head h with heq | ⟨d, hd, -⟩
    · rw [heq]
    · exact absurd hd (hc d)

/-- Where every state is an end or leads on to one of less measure, every state leads to an
    end. -/
theorem exists_end_of_measure {r : σ → σ → Prop} {Good End : σ → Prop} (μ : σ → ℕ)
    (hstep : ∀ a, Good a → End a ∨ ∃ b, Good b ∧ r a b ∧ μ b < μ a) {a : σ} (ha : Good a) :
    ∃ b, Good b ∧ End b ∧ Relation.ReflTransGen r a b := by
  induction hn : μ a using Nat.strongRecOn generalizing a with
  | ind n ih =>
      rcases hstep a ha with hend | ⟨b, hb, hab, hless⟩
      · exact ⟨a, ha, hend, .refl⟩
      · obtain ⟨c, hc, hend, hbc⟩ := ih (μ b) (hn ▸ hless) hb rfl
        exact ⟨c, hc, hend, .head hab hbc⟩

/-- A relation that lowers a measure lowers it along every chain. -/
theorem lt_of_transGen {r : σ → σ → Prop} {μ : σ → ℕ} (hstep : ∀ a b, r a b → μ b < μ a)
    {a b : σ} (hab : Relation.TransGen r a b) : μ b < μ a := by
  induction hab with
  | single h => exact hstep _ _ h
  | tail _ h ih => exact Nat.lt_trans (hstep _ _ h) ih

end Transition
