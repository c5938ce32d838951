/-
  Completeness of the grid search across batches and resumes.

  The strategy keeps a walk over the grid that is consumed lazily, a cursor, and a total
  computed on its own. `Walked proposed g` ties the three: what was proposed, followed by
  what the walk has yet to yield, is the grid, and the cursor counts what was proposed. An
  `ask` moves points from the walk to the proposals (`Walked.ask`), and so does the replay of
  a recorded batch into a fresh strategy, which yields the recorded points again
  (`Walked.replayRound`).

  A session asks, records what was asked with its fitness, and is interrupted at any time. A
  batch that was not on record then is lost and proposed again by the strategy that is built
  next; `lost` keeps it.
-/
import NeuroForge.Lib.Transition
import NeuroForge.Optimization.Replay

namespace NeuroForge

open Fallible Transition

variable {ρ : Type}

/-- The points of a recorded round. -/
def pointsOf (batch : List Observation) : List Point := batch.map (·.point)

inductive GridEvent where
  | ask (n : ℤ)
  | record (fitness : List ℚ)
  | restart

structure GridSession where
  strategy : GridSearchStrategy
  /-- `ckpt.tell_batches`. -/
  recorded : List (List Observation) := []
  /-- Batches asked for since, oldest first. -/
  outstanding : List (List Point) := []
  /-- Every batch any of the strategies returned. -/
  proposed : List (List Point) := []
  lost : List (List Point) := []

namespace GridSession

def start (space : SearchSpace) (steps : ℕ) : GridSession where
  strategy := .fresh space steps

/-- What a session does on an event. A fitness list is taken only with the right length, as
    `zip(.., strict=True)` has it. -/
def next (rt : Runtime ρ) (space : SearchSpace) (steps : ℕ) (c : GridSession) :
    GridEvent → Option GridSession
  | .ask n =>
      let (batch, strategy) := c.strategy.ask n.toNat
      some { c with
        strategy := strategy
        outstanding := c.outstanding ++ [batch]
        proposed := c.proposed ++ [batch] }
  | .record fitness =>
      match c.outstanding with
      | [] => none
      | batch :: outstanding =>
          if batch.length = fitness.length then
            let observations := List.zipWith Observation.mk batch fitness
            some { c with
              strategy := c.strategy.tell observations
              recorded := c.recorded ++ [observations]
              outstanding := outstanding }
          else none
  | .restart =>
      match replay rt (.grid (.fresh space steps)) c.recorded with
      | .ok (.grid strategy) =>
          some { c with
            strategy := strategy
            outstanding := []
            lost := c.lost ++ c.outstanding }
      | _ => none

/-- The points on record and those asked for since. -/
def covered (c : GridSession) : List Point :=
  (c.recorded.map pointsOf).flatten ++ c.outstanding.flatten

end GridSession

/-! ## The walk and its proposals -/

/-- The strategy `g` has proposed exactly `proposed` of the grid. -/
structure Walked (space : SearchSpace) (steps : ℕ) (proposed : List Point)
    (g : GridSearchStrategy) : Prop where
  total : g.total = space.gridSize steps
  walk : proposed ++ g.points = space.iterGrid steps
  cursor : g.cursor = proposed.length

namespace Walked

variable {space : SearchSpace} {steps : ℕ} {proposed : List Point} {g : GridSearchStrategy}

theorem fresh (space : SearchSpace) (steps : ℕ) :
    Walked space steps [] (.fresh space steps) := ⟨rfl, rfl, rfl⟩

theorem ask (h : Walked space steps proposed g) (n : ℕ) :
    Walked space steps (proposed ++ (g.ask n).1) (g.ask n).2 where
  total := h.total
  walk := by
    show proposed ++ g.points.take n ++ g.points.drop n = _
    rw [List.append_assoc, List.take_append_drop]
    exact h.walk
  cursor := by
    show g.cursor + (g.points.take n).length = _
    rw [h.cursor, List.length_append]
    rfl

theorem tell (h : Walked space steps proposed g) (observations : List Observation) :
    Walked space steps proposed (g.tell observations) := ⟨h.total, h.walk, h.cursor⟩

theorem points_eq (h : Walked space steps proposed g) :
    g.points = (space.iterGrid steps).drop proposed.length := by
  rw [← h.walk, List.drop_left]

theorem exhausted_iff (h : Walked space steps proposed g) :
    g.exhausted = true ↔ g.points = [] := by
  have hlen := congrArg List.length h.walk
  rw [List.length_append, space.length_iterGrid] at hlen
  unfold GridSearchStrategy.exhausted
  rw [decide_eq_true_iff, h.total, h.cursor, ← List.length_eq_zero_iff]
  omega

theorem exhausted_iff_eq (h : Walked space steps proposed g) :
    g.exhausted = true ↔ proposed = space.iterGrid steps := by
  rw [h.exhausted_iff, ← h.walk]
  exact ⟨fun hnil => by rw [hnil, List.append_nil], fun heq => by simpa using heq⟩

theorem exhausted_iff_length (h : Walked space steps proposed g) :
    g.exhausted = true ↔ proposed.length = space.gridSize steps := by
  have hpre : proposed <+: space.iterGrid steps := ⟨g.points, h.walk⟩
  rw [h.exhausted_iff_eq, ← space.length_iterGrid]
  exact ⟨congrArg List.length, hpre.eq_of_length⟩

/-- A batch of at least one is empty only where nothing is left. -/
theorem ask_eq_nil_iff (h : Walked space steps proposed g) {n : ℕ} (hn : 1 ≤ n) :
    (g.ask n).1 = [] ↔ g.exhausted = true := by
  rw [h.exhausted_iff]
  show g.points.take n = [] ↔ _
  rw [List.take_eq_nil_iff]
  exact or_iff_right (by omega)

/-- Replaying a batch that comes next in the grid proposes it again. -/
theorem replayRound (h : Walked space steps proposed g) (rt : Runtime ρ)
    {batch : List Observation} (hnext : proposed ++ pointsOf batch <+: space.iterGrid steps) :
    ∃ g', NeuroForge.replayRound rt (.grid g) batch = .ok (.grid g') ∧
      Walked space steps (proposed ++ pointsOf batch) g' := by
  obtain ⟨rest, hrest⟩ := hnext
  have hpoints : g.points = pointsOf batch ++ rest := by
    have hsame := h.walk.trans hrest.symm
    rw [List.append_assoc] at hsame
    exact List.append_cancel_left hsame
  have hlen : (pointsOf batch).length = batch.length := List.length_map _
  have hagain : (g.ask batch.length).1 = pointsOf batch := by
    show g.points.take batch.length = _
    rw [hpoints, ← hlen, List.take_left]
  refine ⟨(g.ask batch.length).2.tell batch, rfl, ?_⟩
  rw [← hagain]
  exact (h.ask batch.length).tell batch

theorem replay (h : Walked space steps proposed g) (rt : Runtime ρ)
    {batches : List (List Observation)}
    (hnext : proposed ++ (batches.map pointsOf).flatten <+: space.iterGrid steps) :
    ∃ g', NeuroForge.replay rt (.grid g) batches = .ok (.grid g') ∧
      Walked space steps (proposed ++ (batches.map pointsOf).flatten) g' := by
  induction batches generalizing proposed g with
  | nil => exact ⟨g, rfl, by simpa using h⟩
  | cons batch batches ih =>
      rw [List.map_cons, List.flatten_cons, ← List.append_assoc] at hnext ⊢
      obtain ⟨g₁, hround, hwalked⟩ :=
        h.replayRound rt ((List.prefix_append _ _).trans hnext)
      obtain ⟨g₂, hreplay, hwalked⟩ := ih hwalked hnext
      exact ⟨g₂, (replay_cons hround).trans hreplay, hwalked⟩

end Walked

/-! ## Sessions -/

namespace GridSession

variable {space : SearchSpace} {steps : ℕ} {c c' : GridSession}

/-- The strategy in use has proposed what is on record or was asked for since, and, less
    what was lost, that is everything that was ever proposed. -/
structure InStep (space : SearchSpace) (steps : ℕ) (c : GridSession) : Prop where
  walked : Walked space steps c.covered c.strategy
  proposed : c.lost = [] → c.proposed = c.recorded.map pointsOf ++ c.outstanding

theorem InStep.start (space : SearchSpace) (steps : ℕ) : InStep space steps (.start space steps) :=
  ⟨.fresh space steps, fun _ => rfl⟩

theorem pointsOf_zipWith {batch : List Point} {fitness : List ℚ}
    (h : batch.length = fitness.length) :
    pointsOf (List.zipWith Observation.mk batch fitness) = batch := by
  unfold pointsOf
  rw [List.map_zipWith]
  exact List.map_uncurry_zip_eq_zipWith.symm.trans (List.map_fst_zip h.le)

theorem InStep.restart (h : InStep space steps c) (rt : Runtime ρ) :
    ∃ strategy, replay rt (.grid (.fresh space steps)) c.recorded = .ok (.grid strategy) ∧
      Walked space steps (c.recorded.map pointsOf).flatten strategy := by
  have hpre : (c.recorded.map pointsOf).flatten <+: space.iterGrid steps :=
    (List.prefix_append _ _).trans ⟨c.strategy.points, h.walked.walk⟩
  exact (Walked.fresh space steps).replay rt hpre

theorem InStep.next {rt : Runtime ρ} {event : GridEvent} (h : InStep space steps c)
    (hnext : c.next rt space steps event = some c') : InStep space steps c' := by
  cases event with
  | ask n =>
      cases hnext
      refine ⟨?_, fun hlost => ?_⟩
      · have hcovered : covered { c with
            outstanding := c.outstanding ++ [(c.strategy.ask n.toNat).1] } =
            c.covered ++ (c.strategy.ask n.toNat).1 := by
          simp [covered]
        have hask := h.walked.ask n.toNat
        rw [← hcovered] at hask
        exact hask
      · show c.proposed ++ _ = _
        rw [h.proposed hlost, List.append_assoc]
  | record fitness =>
      unfold GridSession.next at hnext
      cases hout : c.outstanding with
      | nil => simp [hout] at hnext
      | cons batch outstanding =>
          simp only [hout, Option.ite_none_right_eq_some, Option.some.injEq] at hnext
          obtain ⟨hlen, rfl⟩ := hnext
          have hpoints := pointsOf_zipWith hlen
          refine ⟨?_, fun hlost => ?_⟩
          · have hcovered : c.covered = (c.recorded.map pointsOf).flatten ++
                (batch ++ outstanding.flatten) := by
              rw [covered, hout, List.flatten_cons]
            have htell := h.walked.tell (List.zipWith Observation.mk batch fitness)
            rw [hcovered] at htell
            simpa [covered, hpoints] using htell
          · show c.proposed = _
            rw [h.proposed hlost, hout]
            simp [hpoints]
  | restart =>
      obtain ⟨strategy, hreplay, hwalked⟩ := h.restart rt
      simp only [GridSession.next, hreplay, Option.some.injEq] at hnext
      obtain rfl := hnext
      refine ⟨by simpa [covered] using hwalked, fun hlost => ?_⟩
      obtain ⟨hlost, hout⟩ := List.append_eq_nil_iff.mp hlost
      show c.proposed = c.recorded.map pointsOf ++ []
      rw [h.proposed hlost, hout]

/-- **Grid completeness.** Over any asks, records and restarts, the points on record and
    under way are a prefix of the grid, in its order; that is all that was proposed unless a
    restart lost a batch that was not on record. The search is exhausted exactly when they
    are the whole grid, an ask for at least one point returns none exactly then, and a
    restart never fails. -/
theorem gridSearch_complete (rt : Runtime ρ) (space : SearchSpace) (steps : ℕ)
    (events : List GridEvent) (c : GridSession)
    (hrun : run (GridSession.next rt space steps) (.start space steps) events = some c) :
    c.covered <+: space.iterGrid steps ∧
    (c.lost = [] → c.proposed.flatten = c.covered) ∧
    (c.strategy.exhausted = true ↔ c.covered = space.iterGrid steps) ∧
    (c.strategy.exhausted = true ↔ c.covered.length = space.gridSize steps) ∧
    (∀ n : ℤ, (c.strategy.ask n.toNat).1 =
      ((space.iterGrid steps).drop c.covered.length).take n.toNat) ∧
    (∀ n : ℤ, 1 ≤ n → ((c.strategy.ask n.toNat).1 = [] ↔ c.strategy.exhausted = true)) ∧
    ∃ c', c.next rt space steps .restart = some c' := by
  have hinstep : InStep space steps c :=
    run_invariant (fun s a s' => InStep.next) (InStep.start space steps) hrun
  have hwalked := hinstep.walked
  refine ⟨⟨_, hwalked.walk⟩, ?_, hwalked.exhausted_iff_eq, hwalked.exhausted_iff_length, ?_, ?_,
    ?_⟩
  · intro hlost
    rw [hinstep.proposed hlost, List.flatten_append, covered]
  · intro n
    rw [← hwalked.points_eq]
    rfl
  · intro n hn
    exact hwalked.ask_eq_nil_iff (by omega)
  · obtain ⟨strategy, hreplay, -⟩ := hinstep.restart rt
    unfold GridSession.next
    rw [hreplay]
    exact ⟨_, rfl⟩

/-- One point on record, a restart, and an ask for more points than are left. -/
def resumedSession : List GridEvent := [.ask 1, .record [1 / 2], .restart, .ask 5]

theorem gridSearch_complete_resumed : ∃ c,
    run (GridSession.next countingRuntime exampleSpace 4) (.start exampleSpace 4)
      resumedSession = some c ∧
    c.strategy.exhausted = true ∧ c.covered = exampleSpace.iterGrid 4 := by
  have hfacts : (run (GridSession.next countingRuntime exampleSpace 4) (.start exampleSpace 4)
      resumedSession).map (·.strategy.exhausted) = some true := by
    decide +kernel
  obtain ⟨c, hc, hexhausted⟩ := Option.map_eq_some_iff.mp hfacts
  obtain ⟨-, -, hiff, -⟩ :=
    gridSearch_complete countingRuntime exampleSpace 4 resumedSession c hc
  exact ⟨c, hc, hexhausted, hiff.mp hexhausted⟩

end GridSession

end NeuroForge
