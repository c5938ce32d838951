/-
  Replay of a search strategy from its recorded rounds.

  A checkpoint keeps the points and the fitness of every round, not the strategy. Resuming
  builds a fresh strategy and drives it by `replay_ask(len(batch)); tell(batch)` for each
  round (`replay`). `ask_replayAsk` is the one fact per strategy: the replayed ask leads to
  the state the real ask led to, whatever number was asked for. From it the replayed
  strategy is in the state of the live one (`replay_of_live`), so no continuation tells
  them apart (`replay_fidelity`).
-/
import NeuroForge.Optimization.Registry

namespace NeuroForge

open Fallible

variable {ρ : Type}

/-- One round of replay. -/
def replayRound (rt : Runtime ρ) (s : SearchStrategy ρ) (batch : List Observation) :
    Except String (SearchStrategy ρ) := do
  let s ← s.replayAsk rt batch.length
  s.tell rt batch

/-- The replay loop of `ExperimentEngine._run`. -/
def replay (rt : Runtime ρ) (s : SearchStrategy ρ) (tellBatches : List (List Observation)) :
    Except String (SearchStrategy ρ) := tellBatches.foldlM (replayRound rt) s

/-- Rounds played live: each `ask(n)` returned a non-empty batch, possibly of fewer than
    `n` points, and `tell` reported a fitness for exactly its points. -/
inductive Live (rt : Runtime ρ) :
    SearchStrategy ρ → List (List Observation) → SearchStrategy ρ → Prop where
  | start (s : SearchStrategy ρ) : Live rt s [] s
  | round {s s₁ s₂ s' : SearchStrategy ρ} {n : ℕ} {batch : List Point}
      {observations : List Observation} {rest : List (List Observation)}
      (hn : 1 ≤ n) (hask : s.ask rt n = .ok (batch, s₁)) (hne : batch ≠ [])
      (hpoints : observations.map (·.point) = batch)
      (htell : s₁.tell rt observations = .ok s₂) (hrest : Live rt s₂ rest s') :
      Live rt s (observations :: rest) s'

/-! ## What a strategy shows -/

inductive Call where
  | ask (n : ℕ)
  | tell (observations : List Observation)

/-- What a caller sees: the points of an `ask`, the convergence state, an exception. -/
inductive Answer where
  | points (batch : List Point)
  | convergence (state : Except String ConvergenceState)
  | raised (message : String)

/-- Everything seen over a sequence of calls, with `convergence()` before each call and
    at the end. An exception ends the sequence. -/
def observe (rt : Runtime ρ) : List Call → SearchStrategy ρ → List Answer
  | [], s => [.convergence s.convergence]
  | .ask n :: calls, s => .convergence s.convergence ::
      match s.ask rt n with
      | .ok (batch, s') => .points batch :: observe rt calls s'
      | .error e => [.raised e]
  | .tell observations :: calls, s => .convergence s.convergence ::
      match s.tell rt observations with
      | .ok s' => observe rt calls s'
      | .error e => [.raised e]

/-! ## Fidelity -/

theorem RandomSearchStrategy.length_ask (rt : Runtime ρ) (n : ℕ)
    (s : RandomSearchStrategy ρ) : (s.ask rt n).1.length = n :=
  length_drawMany (s.space.sample rt.rng) n s.rng

/-- No strategy returns more points than it was asked for, if it was asked for one. -/
theorem SearchStrategy.length_ask_le {rt : Runtime ρ} {n : ℕ} {s s' : SearchStrategy ρ}
    {batch : List Point} (h : s.ask rt n = .ok (batch, s')) : batch.length ≤ max 1 n := by
  have htake : ∀ points : List Point, (points.take n).length ≤ max 1 n := by
    intro points
    rw [List.length_take]
    omega
  cases s with
  | random s =>
      obtain ⟨hb, -⟩ := Prod.mk.inj (Except.ok.inj h)
      rw [← hb, RandomSearchStrategy.length_ask]
      exact le_max_right 1 n
  | grid s =>
      obtain ⟨hb, -⟩ := Prod.mk.inj (Except.ok.inj h)
      rw [← hb]
      exact htake s.points
  | evolutionary s =>
      obtain ⟨hb, -⟩ := Prod.mk.inj (Except.ok.inj h)
      rw [← hb]
      exact htake s.pending
  | bayesian s =>
      obtain ⟨⟨points, s₁⟩, hask, h⟩ := bind_eq_ok.mp h
      obtain ⟨hb, -⟩ := Prod.mk.inj (Except.ok.inj h)
      rw [← hb]
      exact BayesianSearchStrategy.length_ask_le hask
  | bandit s =>
      obtain ⟨⟨points, s₁⟩, hask, h⟩ := bind_eq_ok.mp h
      obtain ⟨hb, -⟩ := Prod.mk.inj (Except.ok.inj h)
      rw [← hb, BanditSearchStrategy.length_ask hask]
      exact le_max_right 1 n

/-- Asking the grid for as many points as it had left to give is asking for more. -/
theorem GridSearchStrategy.ask_length (n : ℕ) (s : GridSearchStrategy) :
    s.ask (s.ask n).1.length = s.ask n := by
  have hlen : (s.points.take n).length = min n s.points.length := List.length_take
  have htake : s.points.take (min n s.points.length) = s.points.take n := by
    rw [List.take_eq_take_min (i := n)]
  have hdrop : s.points.drop (min n s.points.length) = s.points.drop n := by
    rcases Nat.le_total n s.points.length with hle | hle
    · rw [Nat.min_eq_left hle]
    · rw [Nat.min_eq_right hle, List.drop_length, List.drop_eq_nil_of_le hle]
  unfold GridSearchStrategy.ask
  simp only [hlen, htake, hdrop]

/-- The replayed ask advances the strategy exactly as the ask did that returned `batch`. -/
theorem ask_replayAsk {rt : Runtime ρ} {n : ℕ} {s s' : SearchStrategy ρ}
    {batch : List Point} (h : s.ask rt n = .ok (batch, s')) :
    s.replayAsk rt batch.length = .ok s' := by
  cases s with
  | random s =>
      obtain ⟨hb, hs⟩ := Prod.mk.inj (Except.ok.inj h)
      rw [← hb, RandomSearchStrategy.length_ask, ← hs]
      rfl
  | grid s =>
      obtain ⟨hb, hs⟩ := Prod.mk.inj (Except.ok.inj h)
      have hgrid := congrArg Prod.snd (GridSearchStrategy.ask_length n s)
      rw [← hb, ← hs]
      exact congrArg (fun g => Except.ok (SearchStrategy.grid g)) hgrid
  | evolutionary s =>
      -- `ask` only reads the pending population
      obtain ⟨-, hs⟩ := Prod.mk.inj (Except.ok.inj h)
      rw [← hs]
      rfl
  | bayesian s =>
      obtain ⟨⟨points, s₁⟩, hask, h⟩ := bind_eq_ok.mp h
      obtain ⟨hb, hs⟩ := Prod.mk.inj (Except.ok.inj h)
      have hrep := BayesianSearchStrategy.ask_replay hask
      rw [← hs, ← hb]
      exact congrArg (fun b => Except.ok (SearchStrategy.bayesian b)) hrep
  | bandit s =>
      obtain ⟨⟨points, s₁⟩, hask, hret⟩ := bind_eq_ok.mp h
      obtain ⟨hb, hs⟩ := Prod.mk.inj (Except.ok.inj hret)
      have hlen : batch.length = n := by
        rw [← hb]
        exact BanditSearchStrategy.length_ask hask
      rw [hlen]
      exact bind_eq_ok.mpr ⟨_, h, rfl⟩

theorem replay_cons {rt : Runtime ρ} {s s₂ : SearchStrategy ρ} {batch : List Observation}
    {rest : List (List Observation)} (h : replayRound rt s batch = .ok s₂) :
    replay rt s (batch :: rest) = replay rt s₂ rest := by
  rw [replay, List.foldlM_cons, h]
  rfl

/-- A round that was played leads to the same state when it is replayed. -/
theorem replayRound_of_live {rt : Runtime ρ} {n : ℕ} {s s₁ s₂ : SearchStrategy ρ}
    {batch : List Point} {observations : List Observation}
    (hask : s.ask rt n = .ok (batch, s₁)) (hpoints : observations.map (·.point) = batch)
    (htell : s₁.tell rt observations = .ok s₂) :
    replayRound rt s observations = .ok s₂ := by
  have hlen : observations.length = batch.length := by
    rw [← hpoints, List.length_map]
  refine bind_eq_ok.mpr ⟨s₁, ?_, htell⟩
  rw [hlen]
  exact ask_replayAsk hask

theorem replay_of_live {rt : Runtime ρ} {s s' : SearchStrategy ρ}
    {history : List (List Observation)} (h : Live rt s history s') :
    replay rt s history = .ok s' := by
  induction h with
  | start s => rfl
  | round hn hask hne hpoints htell _ ih =>
      rw [replay_cons (replayRound_of_live hask hpoints htell)]
      exact ih

/-- **Replay fidelity.** For every strategy, search space, seed and batch size: a fresh
    strategy driven through the recorded rounds answers every continuation of calls as the
    live one does. -/
theorem replay_fidelity (rt : Runtime ρ) (name : StrategyName) (space : SearchSpace)
    (seed : ℤ) (batchSize : Option ℕ) (history : List (List Observation))
    (live : SearchStrategy ρ)
    (h : Live rt (getStrategy rt name space seed batchSize) history live) :
    ∃ replayed, replay rt (getStrategy rt name space seed batchSize) history = .ok replayed ∧
      ∀ calls, observe rt calls replayed = observe rt calls live :=
  ⟨live, replay_of_live h, fun _ => rfl⟩

section Example

/-- A generator that counts its draws. -/
def countingRuntime : Runtime ℕ where
  rng :=
    { seeded := Int.toNat
      random := fun s => (0, s + 1)
      randbelow := fun n h s => (⟨s % n, Nat.mod_lt _ h⟩, s + 1)
      positions := fun _ _ h s => (Fin.castLEEmb h, s + 1) }
  sqrt := id
  log := id
  exp := id
  normCdf := id
  normPdf := id
  pinv := id
  argsort xs := List.range xs.length

def exampleSpace : SearchSpace where
  parameters := [("retrieval.top_k", .categorical [.int 3, .int 8] (by simp))]

/-- Two generations, the second bred from the first. -/
def exampleRounds : List (List Observation) :=
  [[⟨[("retrieval.top_k", .int 8)], 1 / 2⟩, ⟨[("retrieval.top_k", .int 3)], 1 / 3⟩],
    [⟨[("retrieval.top_k", .int 8)], 1 / 2⟩, ⟨[("retrieval.top_k", .int 8)], 1 / 2⟩]]

/-- Evolution from seed 1, played live for these rounds. -/
theorem exampleRounds_live : ∃ live, Live countingRuntime
    (getStrategy countingRuntime .evolutionary exampleSpace 1 (some 2)) exampleRounds live := by
  have hplayed : (do
      let first ← (getStrategy countingRuntime .evolutionary exampleSpace 1 (some 2)).ask
        countingRuntime 2
      let bred ← first.2.tell countingRuntime exampleRounds[0]
      let second ← bred.ask countingRuntime 2
      let _ ← second.2.tell countingRuntime exampleRounds[1]
      return [first.1, second.1]) =
      Except.ok (exampleRounds.map fun round => round.map (·.point)) := by
    decide +kernel
  obtain ⟨first, hfirst, hplayed⟩ := bind_eq_ok.mp hplayed
  obtain ⟨bred, hbred, hplayed⟩ := bind_eq_ok.mp hplayed
  obtain ⟨second, hsecond, hplayed⟩ := bind_eq_ok.mp hplayed
  obtain ⟨live, hlive, hplayed⟩ := bind_eq_ok.mp hplayed
  obtain ⟨hpoints₁, hrest⟩ := List.cons.inj (Except.ok.inj hplayed)
  have hpoints₂ : second.1 = exampleRounds[1].map (·.point) := (List.cons.inj hrest).1
  refine ⟨live, .round (n := 2) (by decide) hfirst ?_ hpoints₁.symm hbred
    (.round (n := 2) (by decide) hsecond ?_ hpoints₂.symm hlive (.start live))⟩
  · rw [hpoints₁]
    exact List.cons_ne_nil _ _
  · rw [hpoints₂]
    exact List.cons_ne_nil _ _

end Example

/-- Two rounds of evolutionary search. -/
theorem replay_fidelity_evolution : ∃ live,
    Live countingRuntime (getStrategy countingRuntime .evolutionary exampleSpace 1 (some 2))
        exampleRounds live ∧
      ∃ replayed, replay countingRuntime
          (getStrategy countingRuntime .evolutionary exampleSpace 1 (some 2)) exampleRounds =
          .ok replayed ∧
        ∀ calls, observe countingRuntime calls replayed = observe countingRuntime calls live := by
  obtain ⟨live, hlive⟩ := exampleRounds_live
  exact ⟨live, hlive, replay_fidelity countingRuntime .evolutionary exampleSpace 1 (some 2)
    exampleRounds live hlive⟩

end NeuroForge
