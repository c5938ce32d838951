/-
  The books of the bandit over whole runs, and the order in which it plays its arms.

  A pull is reserved on its arm when it is proposed, its reward is credited when the batch is
  told, through the indices remembered from the ask. `Books log pending s` says what the
  counters hold in between: pulls count what was told (`log`) and what is still out
  (`pending`), rewards and the total only what was told. A pull adds its arm to `pending`
  (`Books.pull`), a tell moves all of `pending` to the log (`Books.tell`).

  What a pull chooses is read off the counters, so the books turn it into a statement about
  the proposals made so far. The source divides by the pulls of an arm and takes the
  logarithm of the total; `checkedUcb` is the same score with both operations refused where
  Python refuses them.
-/
import NeuroForge.Lib.Tally
import NeuroForge.Optimization.Replay

namespace NeuroForge

open Fallible

variable {ρ : Type}

/-! ## Sessions -/

/-- A bandit with its history: the arms proposed and told with their fitness, and the points
    that were returned. -/
structure BanditSession (ρ : Type) where
  strategy : BanditSearchStrategy ρ
  log : List (ℕ × ℚ) := []
  proposed : List Point := []

namespace BanditSession

def start (rt : Runtime ρ) (space : SearchSpace) (seed : ℤ) (nArms : ℕ) : BanditSession ρ where
  strategy := .fresh rt space seed nArms

/-- One round: `ask` for as many points as there are values, and `tell` these values of the
    points that came. -/
def round (rt : Runtime ρ) (c : BanditSession ρ) (fitness : List ℚ) :
    Except String (BanditSession ρ) := do
  let (batch, s) ← c.strategy.ask rt fitness.length
  return {
    strategy := s.tell (List.zipWith Observation.mk batch fitness)
    log := c.log ++ s.lastBatch.zip fitness
    proposed := c.proposed ++ batch }

def rounds (rt : Runtime ρ) (c : BanditSession ρ) (fitnesses : List (List ℚ)) :
    Except String (BanditSession ρ) :=
  fitnesses.foldlM (round rt) c

end BanditSession

/-! ## Distinct arms -/

theorem sameKey_self (p : Point) : sameKey p p = true := by
  unfold sameKey
  rw [beq_self_eq_true, Bool.true_and]
  refine all_zip_self (fun x => ?_) _
  rw [beq_self_eq_true, Value.pyEq_self]
  rfl

/-- Only points whose key was not seen become arms. -/
theorem nodup_buildArms (rt : Runtime ρ) (space : SearchSpace) (nArms attempts : ℕ)
    {arms : List Point} (h : arms.Nodup) (rng : ρ) :
    (BanditSearchStrategy.buildArms rt space nArms attempts arms rng).1.Nodup := by
  induction attempts generalizing arms rng with
  | zero => exact h
  | succ attempts ih =>
      unfold BanditSearchStrategy.buildArms
      dsimp only
      split_ifs with hroom hseen
      · exact ih h _
      · refine ih (List.nodup_append.mpr ⟨h, List.nodup_singleton _, fun a ha b hb hab => ?_⟩) _
        rw [List.mem_singleton] at hb
        refine hseen (List.any_eq_true.mpr ⟨a, ha, ?_⟩)
        rw [hab, hb]
        exact sameKey_self _
      · exact h

/-- Among positions of a list without duplicates, proposing a position and proposing what is
    there are the same. -/
theorem count_map_getD {arms : List Point} (harms : arms.Nodup) {idxs : List ℕ}
    (hidxs : ∀ j ∈ idxs, j < arms.length) {i : ℕ} (hi : i < arms.length) :
    (idxs.map fun j => arms.getD j []).count (arms.getD i []) = idxs.count i := by
  unfold List.count
  rw [List.countP_map]
  refine List.countP_congr fun j hj => ?_
  have hget : ∀ k, (hk : k < arms.length) → arms.getD k [] = arms[k] := fun k hk => by
    rw [List.getD_eq_getElem?_getD, List.getElem?_eq_getElem hk]
    rfl
  show (arms.getD j [] == arms.getD i []) = true ↔ (j == i) = true
  rw [beq_iff_eq, beq_iff_eq, hget j (hidxs j hj), hget i hi]
  exact harms.getElem_inj_iff

/-! ## The score -/

/-- `a / b`. -/
def checkedDiv (a b : ℚ) : Except String ℚ :=
  if b = 0 then .error "division by zero" else .ok (a / b)

/-- `math.log(x)`. -/
def checkedLog (rt : Runtime ρ) (x : ℚ) : Except String ℚ :=
  if x ≤ 0 then .error "math domain error" else .ok (rt.log x)

/-- `_ucb_score` with the operations that can raise. -/
def checkedUcb (rt : Runtime ρ) (s : BanditSearchStrategy ρ) (idx : ℕ) :
    Except String (WithTop ℚ) :=
  if s.pulls.getD idx 0 = 0 then .ok ⊤
  else do
    let mean ← checkedDiv (s.rewardSum.getD idx 0) (s.pulls.getD idx 0)
    let logTotal ← checkedLog rt (max 1 s.totalPulls)
    let squared ← checkedDiv (2 * logTotal) (s.pulls.getD idx 0)
    return ((mean + rt.sqrt squared : ℚ) : WithTop ℚ)

/-- The score of an arm that was pulled. -/
def ucb (rt : Runtime ρ) (s : BanditSearchStrategy ρ) (idx : ℕ) : ℚ :=
  s.rewardSum.getD idx 0 / s.pulls.getD idx 0 +
    rt.sqrt (2 * rt.log (max 1 s.totalPulls) / s.pulls.getD idx 0)

theorem ucbScore_eq_ucb (rt : Runtime ρ) (s : BanditSearchStrategy ρ) {idx : ℕ}
    (h : s.pulls.getD idx 0 ≠ 0) : s.ucbScore rt idx = (ucb rt s idx : WithTop ℚ) := by
  unfold BanditSearchStrategy.ucbScore
  rw [if_neg h]
  rfl

/-- In no state does scoring an arm divide by zero or leave the domain of the logarithm. -/
theorem checkedUcb_eq (rt : Runtime ρ) (s : BanditSearchStrategy ρ) (idx : ℕ) :
    checkedUcb rt s idx = .ok (s.ucbScore rt idx) := by
  unfold checkedUcb
  by_cases h : s.pulls.getD idx 0 = 0
  · unfold BanditSearchStrategy.ucbScore
    rw [if_pos h, if_pos h]
  · have hpulls : (s.pulls.getD idx 0 : ℚ) ≠ 0 := Nat.cast_ne_zero.mpr h
    have htotal : ¬ max 1 (s.totalPulls : ℚ) ≤ 0 :=
      not_le.mpr (lt_of_lt_of_le one_pos (le_max_left _ _))
    unfold checkedDiv checkedLog
    simp only [h, hpulls, htotal, if_false, ok_bind, ucbScore_eq_ucb rt s h]
    rfl

/-! ## The books -/

/-- What the counters hold when `log` was told and the arms `pending` are proposed and not
    told yet. -/
structure Books (log : List (ℕ × ℚ)) (pending : List ℕ) (s : BanditSearchStrategy ρ) :
    Prop where
  lengthPulls : s.pulls.length = s.arms.length
  lengthRewards : s.rewardSum.length = s.arms.length
  arms : ∀ i ∈ log.map Prod.fst ++ pending, i < s.arms.length
  pulls : ∀ i, s.pulls.getD i 0 = (log.map Prod.fst ++ pending).count i
  pullsSum : s.pulls.sum = log.length + pending.length
  rewards : ∀ i, s.rewardSum.getD i 0 = Tally.totalOf log i
  total : s.totalPulls = log.length

namespace Books

variable {log : List (ℕ × ℚ)} {pending : List ℕ} {s s' : BanditSearchStrategy ρ}
  {rt : Runtime ρ}

theorem fresh (rt : Runtime ρ) (space : SearchSpace) (seed : ℤ) (nArms : ℕ) :
    Books [] [] (BanditSearchStrategy.fresh rt space seed nArms) where
  lengthPulls := List.length_replicate
  lengthRewards := List.length_replicate
  arms := fun _ hi => absurd hi List.not_mem_nil
  pulls := fun i => Tally.getD_replicate_zero _ i
  pullsSum := by
    show (List.replicate _ 0).sum = 0
    rw [List.sum_replicate, smul_zero]
  rewards := fun i => (Tally.getD_replicate_zero _ i).trans (Tally.totalOf_nil i).symm
  total := rfl

theorem pulls_eq_zero_iff (h : Books log pending s) {i : ℕ} :
    s.pulls.getD i 0 = 0 ↔ i ∉ log.map Prod.fst ++ pending := by
  rw [h.pulls, List.count_eq_zero]

/-- Reserving a pull of an arm. -/
theorem reserve (h : Books log pending s) {idx : ℕ} (hidx : idx < s.arms.length) (rng : ρ) :
    Books log (pending ++ [idx])
      { s with rng := rng, pulls := s.pulls.set idx (s.pulls.getD idx 0 + 1) } where
  lengthPulls := by
    rw [List.length_set]
    exact h.lengthPulls
  lengthRewards := h.lengthRewards
  arms := by
    intro i hi
    rw [← List.append_assoc] at hi
    rcases List.mem_append.mp hi with hi | hi
    · exact h.arms i hi
    · rw [List.mem_singleton.mp hi]
      exact hidx
  pulls := by
    intro i
    have hlt : idx < s.pulls.length := by
      rw [h.lengthPulls]
      exact hidx
    have hadd := Tally.getD_add hlt 1 i
    refine hadd.trans ?_
    rw [← List.append_assoc, List.count_append, ← h.pulls, List.count_singleton]
    by_cases hi : i = idx
    · rw [if_pos hi, hi, beq_self_eq_true, if_pos rfl]
    · rw [if_neg hi, beq_false_of_ne (Ne.symm hi)]
      rfl
  pullsSum := by
    have hlt : idx < s.pulls.length := by
      rw [h.lengthPulls]
      exact hidx
    have hadd := Tally.sum_add hlt 1
    refine hadd.trans ?_
    rw [h.pullsSum, List.length_append, List.length_singleton]
    omega
  rewards := h.rewards
  total := h.total

/-- The arms that `pull` finds unplayed are those never proposed. -/
theorem mem_unplayed (h : Books log pending s) {i : ℕ} :
    i ∈ ((List.range s.arms.length).filter fun i => s.pulls.getD i 0 = 0) ↔
      i < s.arms.length ∧ i ∉ log.map Prod.fst ++ pending := by
  rw [List.mem_filter, List.mem_range, decide_eq_true_iff, h.pulls_eq_zero_iff]

/-- What one pull does: it chooses an arm and reserves the pull. While some arm was never
    proposed it is such an arm, and afterwards one with the greatest score. -/
theorem pull (h : Books log pending s) {idx : ℕ} (hpull : s.pull rt = .ok (idx, s')) :
    idx < s.arms.length ∧ s'.arms = s.arms ∧ Books log (pending ++ [idx]) s' ∧
      ((∃ i < s.arms.length, i ∉ log.map Prod.fst ++ pending) →
        idx ∉ log.map Prod.fst ++ pending) ∧
      ((∀ i < s.arms.length, i ∈ log.map Prod.fst ++ pending) →
        ∀ i < s.arms.length, ucb rt s i ≤ ucb rt s idx) := by
  unfold BanditSearchStrategy.pull at hpull
  dsimp only at hpull
  split_ifs at hpull with hunplayed
  · -- some arm is unplayed, and the choice is among those
    obtain ⟨hidx, hs'⟩ := Prod.mk.inj (Except.ok.inj hpull)
    have hmem : idx ∈ ((List.range s.arms.length).filter fun i => s.pulls.getD i 0 = 0) := by
      rw [← hidx]
      exact List.get_mem _ _
    obtain ⟨hlt, hnew⟩ := h.mem_unplayed.mp hmem
    rw [hidx] at hs'
    rw [← hs']
    refine ⟨hlt, rfl, h.reserve hlt _, fun _ => hnew, fun hall => ?_⟩
    exact absurd (hall idx hlt) hnew
  · -- every arm was played, and the choice is an argmax
    have hplayed : ∀ i < s.arms.length, i ∈ log.map Prod.fst ++ pending := by
      intro i hi
      by_contra hnew
      exact hunplayed (List.ne_nil_of_mem (h.mem_unplayed.mpr ⟨hi, hnew⟩))
    cases hmax : (List.range s.arms.length).argmax (s.ucbScore rt) with
    | none =>
        rw [hmax] at hpull
        cases hpull
    | some best =>
        rw [hmax] at hpull
        obtain ⟨rfl, rfl⟩ := Prod.mk.inj (Except.ok.inj hpull)
        have hlt : best < s.arms.length := List.mem_range.mp (List.argmax_mem hmax)
        refine ⟨hlt, rfl, h.reserve hlt _, ?_, fun _ i hi => ?_⟩
        · rintro ⟨i, hi, hnew⟩
          exact absurd (hplayed i hi) hnew
        · have hne : ∀ j < s.arms.length, s.pulls.getD j 0 ≠ 0 := fun j hj hzero =>
            h.pulls_eq_zero_iff.mp hzero (hplayed j hj)
          have hle := List.le_of_mem_argmax (List.mem_range.mpr hi) hmax
          rw [ucbScore_eq_ucb rt s (hne i hi), ucbScore_eq_ucb rt s (hne best hlt)] at hle
          exact WithTop.coe_le_coe.mp hle

/-- A bandit with an arm always has one to choose. -/
theorem exists_pull (rt : Runtime ρ) {s : BanditSearchStrategy ρ} (harms : s.arms ≠ []) :
    ∃ idx s', s.pull rt = .ok (idx, s') := by
  unfold BanditSearchStrategy.pull
  dsimp only
  split_ifs with hunplayed
  · exact ⟨_, _, rfl⟩
  · cases hmax : (List.range s.arms.length).argmax (s.ucbScore rt) with
    | none =>
        rw [List.argmax_eq_none, List.range_eq_nil, List.length_eq_zero_iff] at hmax
        exact absurd hmax harms
    | some best => exact ⟨best, _, rfl⟩

theorem pullMany (h : Books log pending s) {n : ℕ} {idxs : List ℕ}
    (hpulls : BanditSearchStrategy.pullMany rt n s = .ok (idxs, s')) :
    s'.arms = s.arms ∧ Books log (pending ++ idxs) s' := by
  induction n generalizing pending s idxs with
  | zero =>
      cases hpulls
      exact ⟨rfl, by simpa using h⟩
  | succ n ih =>
      obtain ⟨⟨idx, s₁⟩, hpull, hrest⟩ := bind_eq_ok.mp hpulls
      obtain ⟨⟨rest, s₂⟩, hmany, hret⟩ := bind_eq_ok.mp hrest
      cases hret
      obtain ⟨-, harms₁, h₁, -⟩ := h.pull hpull
      obtain ⟨harms₂, h₂⟩ := ih h₁ hmany
      rw [List.append_assoc] at h₂
      exact ⟨harms₂.trans harms₁, h₂⟩

theorem pullMany_ok (h : Books log pending s) (rt : Runtime ρ) (harms : s.arms ≠ []) (n : ℕ) :
    ∃ idxs s', BanditSearchStrategy.pullMany rt n s = .ok (idxs, s') := by
  induction n generalizing pending s with
  | zero => exact ⟨[], s, rfl⟩
  | succ n ih =>
      obtain ⟨idx, s₁, hpull⟩ := exists_pull rt harms
      obtain ⟨-, harms₁, h₁, -⟩ := h.pull hpull
      obtain ⟨idxs, s₂, hmany⟩ := ih h₁ (by rw [harms₁]; exact harms)
      exact ⟨idx :: idxs, s₂, bind_eq_ok.mpr ⟨_, hpull, bind_eq_ok.mpr ⟨_, hmany, rfl⟩⟩⟩

end Books

/-! ## Telling -/

/-- The loop of `tell` over the observations and their arms. -/
theorem foldl_credit (credits : List (Observation × ℕ)) (s : BanditSearchStrategy ρ) :
    credits.foldl (fun s (e : Observation × ℕ) =>
        { s with
          rewardSum := s.rewardSum.set e.2 (s.rewardSum.getD e.2 0 + e.1.fitness)
          totalPulls := s.totalPulls + 1 }) s =
      { s with
        rewardSum := Tally.enter s.rewardSum (credits.map fun e => (e.2, e.1.fitness))
        totalPulls := s.totalPulls + credits.length } := by
  induction credits generalizing s with
  | nil => rfl
  | cons e credits ih =>
      rw [List.foldl_cons, ih, List.map_cons, List.length_cons]
      congr 1
      show s.totalPulls + 1 + credits.length = _
      omega

/-- `tell` credits the remembered arms and, but for the best of the round, nothing else. -/
theorem BanditSearchStrategy.tell_counters (observations : List Observation)
    (s : BanditSearchStrategy ρ) :
    (s.tell observations).arms = s.arms ∧ (s.tell observations).pulls = s.pulls ∧
      (s.tell observations).rewardSum = Tally.enter s.rewardSum
        ((observations.zip s.lastBatch).map fun e => (e.2, e.1.fitness)) ∧
      (s.tell observations).totalPulls =
        s.totalPulls + (observations.zip s.lastBatch).length := by
  unfold BanditSearchStrategy.tell
  rw [foldl_credit]
  cases (observations.map (·.fitness)).max? with
  | none => exact ⟨rfl, rfl, rfl, rfl⟩
  | some best => exact ⟨rfl, rfl, rfl, rfl⟩

/-- The credits of a batch told with these values. -/
theorem credits_eq {batch : List Point} (idxs : List ℕ) {fitness : List ℚ}
    (hbatch : batch.length = fitness.length) :
    ((List.zipWith Observation.mk batch fitness).zip idxs).map
      (fun e => (e.2, e.1.fitness)) = idxs.zip fitness := by
  induction batch generalizing idxs fitness with
  | nil =>
      obtain rfl := List.length_eq_zero_iff.mp hbatch.symm
      simp
  | cons p batch ih =>
      cases fitness with
      | nil => cases hbatch
      | cons q fitness =>
          cases idxs with
          | nil => rfl
          | cons i idxs =>
              exact congrArg ((i, q) :: ·) (ih idxs (Nat.succ.inj hbatch))

theorem Books.tell {log : List (ℕ × ℚ)} {pending : List ℕ} {s : BanditSearchStrategy ρ}
    (h : Books log pending s) (hlast : s.lastBatch = pending) {batch : List Point}
    {fitness : List ℚ} (hbatch : batch.length = fitness.length)
    (hpending : pending.length = fitness.length) :
    Books (log ++ pending.zip fitness) []
      (s.tell (List.zipWith Observation.mk batch fitness)) := by
  obtain ⟨harms, hpulls, hrewards, htotal⟩ :=
    s.tell_counters (List.zipWith Observation.mk batch fitness)
  have hcredits := credits_eq pending hbatch
  have hlen := congrArg List.length hcredits
  rw [hlast, hcredits] at hrewards
  rw [List.length_map, ← hlast] at hlen
  rw [hlen, hlast] at htotal
  have hfst : (log ++ pending.zip fitness).map Prod.fst ++ [] = log.map Prod.fst ++ pending := by
    rw [List.append_nil, List.map_append, List.map_fst_zip hpending.le]
  have hzip : (pending.zip fitness).length = pending.length := by
    rw [List.length_zip, hpending, min_self]
  refine ⟨?_, ?_, ?_, ?_, ?_, ?_, ?_⟩
  · rw [hpulls, harms]
    exact h.lengthPulls
  · rw [hrewards, Tally.length_enter, harms]
    exact h.lengthRewards
  · rw [hfst, harms]
    exact h.arms
  · rw [hfst, hpulls]
    exact h.pulls
  · rw [hpulls, h.pullsSum, List.length_append, hzip]
    rfl
  · intro i
    have hpositions : ∀ e ∈ pending.zip fitness, e.1 < s.rewardSum.length := by
      intro e he
      rw [h.lengthRewards]
      exact h.arms e.1 (List.mem_append_right _ (List.of_mem_zip he).1)
    rw [hrewards, Tally.getD_enter hpositions, h.rewards, Tally.totalOf_append]
  · rw [htotal, h.total, List.length_append]

/-! ## Rounds -/

namespace BanditSession

variable {rt : Runtime ρ} {c c' : BanditSession ρ}

/-- Between rounds nothing is out, and what was returned are the arms on the log. -/
structure Settled (c : BanditSession ρ) : Prop where
  books : Books c.log [] c.strategy
  proposed : c.proposed = c.log.map fun e => c.strategy.arms.getD e.1 []

theorem Settled.round (h : c.Settled) {fitness : List ℚ} (hround : c.round rt fitness = .ok c') :
    c'.Settled ∧ c'.strategy.arms = c.strategy.arms := by
  obtain ⟨⟨batch, s⟩, hask, hret⟩ := bind_eq_ok.mp hround
  have hlen : batch.length = fitness.length := BanditSearchStrategy.length_ask hask
  obtain ⟨⟨idxs, s₁⟩, hpulls, hret'⟩ := bind_eq_ok.mp hask
  cases hret'
  cases hret
  obtain ⟨harms, hbooks⟩ := h.books.pullMany hpulls
  have hidxs : idxs.length = fitness.length := BanditSearchStrategy.length_pullMany hpulls
  -- remembering the batch changes none of the counters
  have hbooks' : Books c.log idxs { s₁ with lastBatch := idxs } :=
    ⟨hbooks.lengthPulls, hbooks.lengthRewards, hbooks.arms, hbooks.pulls, hbooks.pullsSum,
      hbooks.rewards, hbooks.total⟩
  have harms' := (BanditSearchStrategy.tell_counters
    (List.zipWith Observation.mk (idxs.map fun i => s₁.arms.getD i []) fitness)
    { s₁ with lastBatch := idxs }).1
  refine ⟨⟨hbooks'.tell rfl hlen hidxs, ?_⟩, harms'.trans harms⟩
  have hmap : (idxs.zip fitness).map (fun e => s₁.arms.getD e.1 []) =
      idxs.map fun i => s₁.arms.getD i [] := by
    conv_rhs => rw [← List.map_fst_zip hidxs.le, List.map_map]
    rfl
  show c.proposed ++ (idxs.map fun i => s₁.arms.getD i []) = _
  rw [harms', List.map_append, hmap, h.proposed, harms]

theorem Settled.rounds (h : c.Settled) {fitnesses : List (List ℚ)}
    (hrounds : c.rounds rt fitnesses = .ok c') :
    c'.Settled ∧ c'.strategy.arms = c.strategy.arms := by
  induction fitnesses generalizing c with
  | nil =>
      cases hrounds
      exact ⟨h, rfl⟩
  | cons fitness fitnesses ih =>
      unfold BanditSession.rounds at hrounds
      rw [List.foldlM_cons] at hrounds
      obtain ⟨c₁, hround, hrest⟩ := bind_eq_ok.mp hrounds
      obtain ⟨h₁, harms₁⟩ := h.round hround
      obtain ⟨h', harms'⟩ := ih h₁ hrest
      exact ⟨h', harms'.trans harms₁⟩

end BanditSession

end NeuroForge
