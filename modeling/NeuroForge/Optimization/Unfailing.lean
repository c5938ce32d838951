/-
  The five strategies never raise.

  Over a space with parameters, whatever batches are asked for and whatever fitness is told
  for all of their points, `ask` and `tell` succeed, and every point proposed has what the
  samples of the space and its grid have and the moves keep (`search_unfailing`). Progress and
  preservation are proved apart: the moves need points that fit the space by number
  (`HoldsNumber`), and what they yield is read off their results.
-/
import NeuroForge.Optimization.BanditBooks
import NeuroForge.Optimization.Containment
import NeuroForge.Optimization.Elitism
import NeuroForge.Optimization.Replay

namespace NeuroForge

open Fallible

variable {ρ : Type}

/-- A property of points that sampling and the grid establish and the moves keep. -/
structure PointInvariant (rng : Rng ρ) (space : SearchSpace) (P : Point → Prop) : Prop where
  sample : ∀ s, P (space.sample rng s).1
  grid : ∀ p ∈ space.iterGrid, P p
  perturb : ∀ p moved s s' strength, P p →
    space.perturb rng p s strength = .ok (moved, s') → P moved
  crossover : ∀ a b child s s', P a → P b →
    space.crossover rng a b s = .ok (child, s') → P child
  number : ∀ p, P p → space.Fits HoldsNumber p

/-- Points whose values are within what sampling, clamping and redrawing yield. -/
theorem pointInvariant_fits {rng : Rng ρ} {space : SearchSpace} {Q : ParamSpec → Value → Prop}
    (hne : space.parameters ≠ []) (hstable : ∀ e ∈ space.parameters, ParamSpec.Stable rng Q e.2)
    (hgrid : ∀ e ∈ space.parameters, ∀ v ∈ e.2.gridValues, Q e.2 v) :
    PointInvariant rng space (space.Fits Q) where
  sample := SearchSpace.fits_sample fun e he => (hstable e he).sample
  grid := fitsEntries_productGrid hgrid
  perturb p moved s s' strength hp h := by
    obtain ⟨moved', s'', hmoved, hfits⟩ := SearchSpace.fits_perturb hstable hne hp strength s
    rw [hmoved] at h
    cases h
    exact hfits
  crossover a b child s s' ha hb h := by
    obtain ⟨child', s'', hchild, hfits⟩ := SearchSpace.fits_crossover rng ha hb s
    rw [hchild] at h
    cases h
    exact hfits
  number p hp := by
    have hentries : ∀ (parameters : Dict String ParamSpec) (point : Point),
        (∀ e ∈ parameters, ParamSpec.Stable rng Q e.2) → FitsEntries Q parameters point →
          FitsEntries HoldsNumber parameters point := by
      intro parameters point hstable h
      induction h with
      | nil => exact .nil
      | cons hex _ ih =>
          obtain ⟨he, hrest⟩ := List.forall_mem_cons.mp hstable
          exact .cons ⟨hex.1, fun hnumeric => he.number hnumeric _ hex.2⟩ (ih hrest)
    exact hentries _ _ hstable hp

/-! ## Encoding -/

theorem exists_mapM_map {α β γ ε : Type} {f : α → Except ε β} {g : List β → γ} {xs : List α}
    (h : ∀ x ∈ xs, ∃ y, f x = .ok y) : ∃ z, (do return g (← xs.mapM f)) = Except.ok z := by
  obtain ⟨ys, hys⟩ := exists_mapM_eq_ok h
  exact ⟨g ys, bind_eq_ok.mpr ⟨ys, hys, rfl⟩⟩

theorem encode_ok {space : SearchSpace} {p : Point} (h : space.Fits HoldsNumber p) :
    ∃ xs, space.encode p = .ok xs := by
  unfold SearchSpace.encode
  refine exists_mapM_map fun e he => ?_
  obtain ⟨v, hlookup, hnumber⟩ :=
    FitsEntries.lookup h space.nodup ((List.mem_insertionSort _).mp he)
  rw [hlookup, ok_bind]
  obtain ⟨name, spec⟩ := e
  cases spec with
  | categorical values hne => exact ⟨_, rfl⟩
  | float lo hi hlt =>
      obtain ⟨q, hq⟩ := hnumber trivial
      simp only [hq]
      exact ⟨_, rfl⟩
  | integer lo hi hlt =>
      obtain ⟨q, hq⟩ := hnumber trivial
      simp only [hq]
      exact ⟨_, rfl⟩

theorem maxOf_ok {xs : List ℚ} (h : xs ≠ []) : ∃ q, maxOf xs = .ok q := by
  unfold maxOf
  cases hmax : xs.max? with
  | none => exact absurd (List.max?_eq_none_iff.mp hmax) h
  | some q => exact ⟨q, rfl⟩

theorem bestFitness_ok {observations : List Observation} (h : observations ≠ []) :
    ∃ q, bestFitness observations = .ok q := maxOf_ok (by simpa using h)

/-! ## The states of a search -/

/-- What a strategy over `space` has in its state; of points, `P`. -/
def SearchStrategy.Sane (space : SearchSpace) (P : Point → Prop) : SearchStrategy ρ → Prop
  | .random s => s.space = space
  | .grid s => ∀ p ∈ s.points, P p
  | .evolutionary s => s.space = space ∧ (∀ p ∈ s.pending, P p) ∧
      ∀ g ∈ s.generations, g.fitness ≠ []
  | .bayesian s => s.space = space ∧ 0 < s.nInitialRandom ∧ s.points.length = s.y.length
  | .bandit s => s.arms ≠ [] ∧ ∀ p ∈ s.arms, P p

section Steps

variable {rt : Runtime ρ} {space : SearchSpace} {P : Point → Prop}

theorem mem_drawMany_sample (hP : PointInvariant rt.rng space P) {n : ℕ} {s : ρ} {p : Point}
    (h : p ∈ (drawMany (space.sample rt.rng) n s).1) : P p := by
  obtain ⟨-, -, s', rfl⟩ := exists_of_mem_mapDraw h
  exact hP.sample s'

theorem forall_buildArms (hP : PointInvariant rt.rng space P) (nArms attempts : ℕ)
    {arms : List Point} (h : ∀ p ∈ arms, P p) (rng : ρ) :
    ∀ p ∈ (BanditSearchStrategy.buildArms rt space nArms attempts arms rng).1, P p := by
  induction attempts generalizing arms rng with
  | zero => exact h
  | succ attempts ih =>
      unfold BanditSearchStrategy.buildArms
      dsimp only
      split_ifs with hroom hseen
      · exact ih h _
      · refine ih (fun p hp => ?_) _
        rcases List.mem_append.mp hp with hp | hp
        · exact h p hp
        · rw [List.mem_singleton.mp hp]
          exact hP.sample rng
      · exact h

theorem buildArms_grows (rt : Runtime ρ) (space : SearchSpace) (nArms attempts : ℕ)
    (arms : List Point) (rng : ρ) : arms.length ≤
      (BanditSearchStrategy.buildArms rt space nArms attempts arms rng).1.length := by
  induction attempts generalizing arms rng with
  | zero => exact le_rfl
  | succ attempts ih =>
      unfold BanditSearchStrategy.buildArms
      dsimp only
      split_ifs with hroom hseen
      · exact ih arms _
      · refine le_trans ?_ (ih _ _)
        simp
      · exact le_rfl

/-- The first sample always becomes an arm. -/
theorem buildArms_ne_nil (rt : Runtime ρ) (space : SearchSpace) {nArms attempts : ℕ}
    (hn : 0 < nArms) (ha : 0 < attempts) (rng : ρ) :
    (BanditSearchStrategy.buildArms rt space nArms attempts [] rng).1 ≠ [] := by
  obtain ⟨k, rfl⟩ := Nat.exists_eq_succ_of_ne_zero ha.ne'
  have hgrows := buildArms_grows rt space nArms k [(space.sample rt.rng rng).1]
    (space.sample rt.rng rng).2
  have hfirst : BanditSearchStrategy.buildArms rt space nArms (k + 1) [] rng =
      BanditSearchStrategy.buildArms rt space nArms k [(space.sample rt.rng rng).1]
        (space.sample rt.rng rng).2 := by
    rw [BanditSearchStrategy.buildArms]
    exact if_pos hn
  rw [hfirst]
  intro hnil
  rw [hnil] at hgrows
  simp at hgrows

/-- A fresh strategy is in such a state. -/
theorem sane_fresh (hP : PointInvariant rt.rng space P) (name : StrategyName) (seed : ℤ)
    (batchSize : Option ℕ) : (getStrategy rt name space seed batchSize).Sane space P := by
  cases name with
  | random => exact rfl
  | grid => exact hP.grid
  | evolutionary =>
      have hpending : ∀ size, ∀ p ∈ (drawMany (space.sample rt.rng) size (rt.rng.seeded seed)).1,
          P p := fun size p hp => mem_drawMany_sample hP hp
      rcases batchSize with _ | _ | k
      · exact ⟨rfl, hpending 12, fun g hg => absurd hg List.not_mem_nil⟩
      · exact ⟨rfl, hpending 12, fun g hg => absurd hg List.not_mem_nil⟩
      · exact ⟨rfl, hpending (k + 1), fun g hg => absurd hg List.not_mem_nil⟩
  | bayesian => exact ⟨rfl, Nat.succ_pos 3, rfl⟩
  | bandit =>
      exact ⟨buildArms_ne_nil rt space (Nat.succ_pos 23) (Nat.succ_pos 1199) _,
        forall_buildArms hP 24 1200 (fun p hp => absurd hp List.not_mem_nil) _⟩

/-! ## Asking -/

theorem mem_firstDistinct {n : ℕ} {points chosen : List Point} {p : Point}
    (h : p ∈ BayesianSearchStrategy.firstDistinct n points chosen) : p ∈ points ∨ p ∈ chosen := by
  induction points generalizing chosen with
  | nil => exact .inr h
  | cons q rest ih =>
      unfold BayesianSearchStrategy.firstDistinct at h
      split_ifs at h with hknown hlast
      · exact (ih h).imp_left (List.mem_cons_of_mem q)
      · rcases List.mem_append.mp h with h | h
        · exact .inr h
        · exact .inl (List.mem_singleton.mp h ▸ List.mem_cons_self)
      · rcases ih h with h | h
        · exact .inl (List.mem_cons_of_mem q h)
        · rcases List.mem_append.mp h with h | h
          · exact .inr h
          · exact .inl (List.mem_singleton.mp h ▸ List.mem_cons_self)

theorem BayesianSearchStrategy.ask_ok {s : BayesianSearchStrategy ρ}
    (hP : PointInvariant rt.rng s.space P) (hinitial : 0 < s.nInitialRandom)
    (htold : s.points.length = s.y.length) (n : ℕ) :
    ∃ batch rng, s.ask rt n = .ok (batch, { s with rng := rng }) ∧ ∀ p ∈ batch, P p := by
  unfold ask
  split_ifs with hfew
  · exact ⟨_, _, rfl, fun p hp => mem_drawMany_sample hP hp⟩
  · have hy : s.y ≠ [] := by
      intro hnil
      rw [hnil, List.length_nil] at htold
      omega
    obtain ⟨bestY, hbest⟩ := maxOf_ok hy
    generalize hpool : drawMany (s.space.sample rt.rng) s.candidatePoolSize s.rng = pool
    have hfits : ∀ p ∈ pool.1, P p := by
      rw [← hpool]
      exact fun p hp => mem_drawMany_sample hP hp
    obtain ⟨encoded, hencoded⟩ : ∃ encoded, pool.1.mapM s.space.encode = .ok encoded :=
      exists_mapM_eq_ok fun p hp => encode_ok (hP.number p (hfits p hp))
    simp only [hbest, hencoded, ok_bind]
    refine ⟨_, _, rfl, fun p hp => ?_⟩
    rcases mem_firstDistinct hp with hp | hp
    · obtain ⟨i, -, hi⟩ := List.mem_filterMap.mp hp
      exact hfits p (List.mem_of_getElem? hi)
    · cases hp

theorem BanditSearchStrategy.pull_ok {s : BanditSearchStrategy ρ} (rt : Runtime ρ)
    (harms : s.arms ≠ []) :
    ∃ idx s', s.pull rt = .ok (idx, s') ∧ s'.arms = s.arms ∧ idx < s.arms.length := by
  unfold BanditSearchStrategy.pull
  dsimp only
  split_ifs with hunplayed
  · refine ⟨_, _, rfl, rfl, ?_⟩
    have hmem : (rt.rng.choice _ hunplayed s.rng).1 ∈
        (List.range s.arms.length).filter fun i => s.pulls.getD i 0 = 0 := List.get_mem _ _
    exact List.mem_range.mp (List.mem_filter.mp hmem).1
  · cases hmax : (List.range s.arms.length).argmax (s.ucbScore rt) with
    | none =>
        rw [List.argmax_eq_none, List.range_eq_nil, List.length_eq_zero_iff] at hmax
        exact absurd hmax harms
    | some best => exact ⟨best, _, rfl, rfl, List.mem_range.mp (List.argmax_mem hmax)⟩

theorem BanditSearchStrategy.pullMany_ok {s : BanditSearchStrategy ρ} (rt : Runtime ρ)
    (harms : s.arms ≠ []) (n : ℕ) :
    ∃ idxs s', pullMany rt n s = .ok (idxs, s') ∧ s'.arms = s.arms ∧
      ∀ i ∈ idxs, i < s.arms.length := by
  induction n generalizing s with
  | zero => exact ⟨[], s, rfl, rfl, fun i hi => absurd hi List.not_mem_nil⟩
  | succ n ih =>
      obtain ⟨idx, s₁, hpull, harms₁, hidx⟩ := pull_ok rt harms
      obtain ⟨idxs, s₂, hmany, harms₂, hidxs⟩ := ih (s := s₁) (by rw [harms₁]; exact harms)
      refine ⟨idx :: idxs, s₂, bind_eq_ok.mpr ⟨_, hpull, bind_eq_ok.mpr ⟨_, hmany, rfl⟩⟩,
        harms₂.trans harms₁, ?_⟩
      rw [harms₁] at hidxs
      exact List.forall_mem_cons.mpr ⟨hidx, hidxs⟩

/-- `ask` succeeds, with points that have what the strategy's points have. -/
theorem ask_unfailing (hP : PointInvariant rt.rng space P) {s : SearchStrategy ρ}
    (hs : s.Sane space P) (n : ℕ) :
    ∃ batch s', s.ask rt n = .ok (batch, s') ∧ s'.Sane space P ∧ ∀ p ∈ batch, P p := by
  cases s with
  | random s =>
      obtain rfl : s.space = space := hs
      exact ⟨_, _, rfl, rfl, fun p hp => mem_drawMany_sample hP hp⟩
  | grid s =>
      refine ⟨_, _, rfl, fun p hp => hs p (List.mem_of_mem_drop hp), fun p hp => ?_⟩
      exact hs p (List.mem_of_mem_take hp)
  | evolutionary s => exact ⟨_, _, rfl, hs, fun p hp => hs.2.1 p (List.mem_of_mem_take hp)⟩
  | bayesian s =>
      obtain ⟨rfl, hinitial, htold⟩ := hs
      obtain ⟨batch, rng, hask, hbatch⟩ := s.ask_ok hP hinitial htold n
      exact ⟨batch, _, bind_eq_ok.mpr ⟨_, hask, rfl⟩, ⟨rfl, hinitial, htold⟩, hbatch⟩
  | bandit s =>
      obtain ⟨harms, hfits⟩ := hs
      obtain ⟨idxs, s', hmany, hsame, hidxs⟩ := BanditSearchStrategy.pullMany_ok rt harms n
      refine ⟨_, .bandit { s' with lastBatch := idxs },
        bind_eq_ok.mpr ⟨_, bind_eq_ok.mpr ⟨_, hmany, rfl⟩, rfl⟩, ?_, fun p hp => ?_⟩
      · exact ⟨hsame ▸ harms, hsame ▸ hfits⟩
      · obtain ⟨i, hi, rfl⟩ := List.mem_map.mp hp
        have hlt := hidxs i hi
        rw [← hsame] at hlt hfits
        have hget : s'.arms.getD i [] = s'.arms[i] := by simp [hlt]
        rw [hget]
        exact hfits _ (List.getElem_mem hlt)

/-! ## Telling -/

/-- The children of points with `P` have it. -/
theorem nextChild_closed {s : EvolutionarySearchStrategy ρ}
    (hP : PointInvariant rt.rng s.space P) {ranked : List (Point × ℚ)}
    (hranked : ∀ p ∈ ranked.map Prod.fst, P p) {rng rng' : ρ} {child : Point}
    (h : s.nextChild rt ranked rng = .ok (child, rng')) : P child := by
  have hparent : ∀ {rng rng' : ρ} {p : Point},
      EvolutionarySearchStrategy.tournamentSelect rt ranked rng = .ok (p, rng') → P p := by
    intro rng rng' p hp
    unfold EvolutionarySearchStrategy.tournamentSelect at hp
    dsimp only at hp
    split at hp
    · rename_i pf hmax
      cases hp
      exact hranked _ (List.mem_map_of_mem (mem_sample (List.argmax_mem hmax)))
    · cases hp
  unfold EvolutionarySearchStrategy.nextChild at h
  obtain ⟨⟨a, rng₁⟩, ha, h⟩ := bind_eq_ok.mp h
  obtain ⟨⟨b, rng₂⟩, hb, h⟩ := bind_eq_ok.mp h
  -- mutation, whatever child it is given
  have hmutate : ∀ crossed rng₃, P crossed →
      (if (rt.rng.random rng₃).1 < s.mutationRate then
          s.space.perturb rt.rng crossed (rt.rng.random rng₃).2
        else .ok (crossed, (rt.rng.random rng₃).2)) = .ok (child, rng') → P child := by
    intro crossed rng₃ hcrossed hmut
    split_ifs at hmut
    · exact hP.perturb crossed _ _ _ _ hcrossed hmut
    · cases hmut
      exact hcrossed
  dsimp only at h
  split_ifs at h
  · obtain ⟨⟨crossed, rng₃⟩, hcross, h⟩ := bind_eq_ok.mp h
    exact hmutate crossed rng₃ (hP.crossover a b _ _ _ (hparent ha) (hparent hb) hcross) h
  · exact hmutate a _ (hparent ha) h

theorem breed_closed {s : EvolutionarySearchStrategy ρ}
    (hP : PointInvariant rt.rng s.space P) {ranked : List (Point × ℚ)}
    (hranked : ∀ p ∈ ranked.map Prod.fst, P p) {count : ℕ} {nextPop population : List Point}
    (hpop : ∀ p ∈ nextPop, P p) {rng rng' : ρ}
    (h : s.breed rt ranked count nextPop rng = .ok (population, rng')) :
    ∀ p ∈ population, P p := by
  induction count generalizing nextPop rng with
  | zero =>
      cases h
      exact hpop
  | succ count ih =>
      unfold EvolutionarySearchStrategy.breed at h
      obtain ⟨⟨child, rng₁⟩, hchild, h⟩ := bind_eq_ok.mp h
      refine ih (fun p hp => ?_) h
      rcases List.mem_append.mp hp with hp | hp
      · exact hpop p hp
      · rw [List.mem_singleton.mp hp]
        exact nextChild_closed hP hranked hchild

theorem EvolutionarySearchStrategy.tell_ok {s : EvolutionarySearchStrategy ρ}
    (hP : PointInvariant rt.rng s.space P) (hspace : s.space.parameters ≠ [])
    {observations : List Observation} (hne : observations ≠ [])
    (htold : ∀ o ∈ observations, P o.point) :
    ∃ s' g, s.tell rt observations = .ok s' ∧ s'.space = s.space ∧ (∀ p ∈ s'.pending, P p) ∧
      s'.generations = s.generations ++ [g] ∧ g.fitness ≠ [] := by
  have hzip : (observations.map (·.point)).zip (observations.map (·.fitness)) =
      observations.map fun o => (o.point, o.fitness) := List.zip_map' ..
  generalize hranked : ((observations.map (·.point)).zip
    (observations.map (·.fitness))).insertionSort (fun a b => b.2 ≤ a.2) = ranked
  have hperm : ranked.Perm (observations.map fun o => (o.point, o.fitness)) := by
    rw [← hranked, hzip]
    exact List.perm_insertionSort _ _
  have hranked' : ∀ p ∈ ranked.map Prod.fst, P p := by
    intro p hp
    have hp := (hperm.map Prod.fst).mem_iff.mp hp
    rw [List.map_map] at hp
    obtain ⟨o, ho, rfl⟩ := List.mem_map.mp hp
    exact htold o ho
  have hnonempty : ranked ≠ [] := by
    intro hnil
    rw [hnil] at hperm
    exact hne (List.map_eq_nil_iff.mp hperm.symm.eq_nil)
  generalize helite : (ranked.take
    (max 1 (truncInt (ranked.length * s.eliteFraction)).toNat)).map Prod.fst = elite
  have helite' : ∀ p ∈ elite, P p := by
    intro p hp
    rw [← helite] at hp
    obtain ⟨e, he, rfl⟩ := List.mem_map.mp hp
    exact hranked' _ (List.mem_map_of_mem (List.mem_of_mem_take he))
  obtain ⟨children, rng, hbreed, -, -⟩ := breed_ok rt hspace hnonempty
    (fun p hp => hP.number p (hranked' p hp)) (s.populationSize - elite.length)
    (fun p hp => hP.number p (helite' p hp)) s.rng
  unfold tell
  simp only [hranked, helite, hbreed, ok_bind]
  exact ⟨_, _, rfl, rfl, breed_closed hP hranked' helite' hbreed, rfl, by simpa using hne⟩

/-- `tell` succeeds with any fitness of any points that have what the strategy's points have. -/
theorem tell_unfailing (hP : PointInvariant rt.rng space P) (hspace : space.parameters ≠ [])
    {s : SearchStrategy ρ} (hs : s.Sane space P) {observations : List Observation}
    (hne : observations ≠ []) (htold : ∀ o ∈ observations, P o.point) :
    ∃ s', s.tell rt observations = .ok s' ∧ s'.Sane space P := by
  obtain ⟨best, hbest⟩ := bestFitness_ok hne
  cases s with
  | random s =>
      have htell : s.tell observations = .ok { s with roundBest := s.roundBest ++ [best] } :=
        bind_eq_ok.mpr ⟨best, hbest, rfl⟩
      exact ⟨_, bind_eq_ok.mpr ⟨_, htell, rfl⟩, hs⟩
  | grid s => exact ⟨_, rfl, hs⟩
  | evolutionary s =>
      obtain ⟨rfl, -, hgenerations⟩ := hs
      obtain ⟨s', g, htell, hsame, hpending, hgrown, hg⟩ := s.tell_ok hP hspace hne htold
      refine ⟨_, bind_eq_ok.mpr ⟨s', htell, rfl⟩, hsame, hpending, fun g' hg' => ?_⟩
      rw [hgrown, List.mem_append, List.mem_singleton] at hg'
      rcases hg' with hg' | rfl
      · exact hgenerations g' hg'
      · exact hg
  | bayesian s =>
      obtain ⟨rfl, hinitial, hlen⟩ := hs
      obtain ⟨encoded, hencoded⟩ : ∃ encoded,
          observations.mapM (fun o => s.space.encode o.point) = .ok encoded :=
        exists_mapM_eq_ok fun o ho => encode_ok (hP.number _ (htold o ho))
      refine ⟨_, bind_eq_ok.mpr ⟨_, bind_eq_ok.mpr ⟨encoded, hencoded,
        bind_eq_ok.mpr ⟨best, hbest, rfl⟩⟩, rfl⟩, rfl, hinitial, ?_⟩
      simp [hlen]
  | bandit s =>
      have harms := (s.tell_counters observations).1
      refine ⟨_, rfl, ?_⟩
      show (s.tell observations).arms ≠ [] ∧ ∀ p ∈ (s.tell observations).arms, P p
      rw [harms]
      exact hs

omit rt in
theorem convergence_unfailing {s : SearchStrategy ρ} (hs : s.Sane space P) :
    ∃ state, s.convergence = .ok state := by
  cases s with
  | evolutionary s =>
      obtain ⟨history, hhistory⟩ : ∃ history,
          s.generations.mapM Generation.bestFitness = .ok history :=
        exists_mapM_eq_ok fun g hg => maxOf_ok (hs.2.2 g hg)
      exact ⟨_, bind_eq_ok.mpr ⟨history, hhistory, rfl⟩⟩
  | random s => exact ⟨_, rfl⟩
  | grid s => exact ⟨_, rfl⟩
  | bayesian s => exact ⟨_, rfl⟩
  | bandit s => exact ⟨_, rfl⟩

/-! ## Replaying -/

theorem replayAsk_unfailing (hP : PointInvariant rt.rng space P) {s : SearchStrategy ρ}
    (hs : s.Sane space P) (n : ℕ) : ∃ s', s.replayAsk rt n = .ok s' ∧ s'.Sane space P := by
  obtain ⟨batch, s', hask, hs', -⟩ := ask_unfailing hP hs n
  cases s with
  | bayesian s => exact ⟨_, rfl, hs⟩
  | random s => exact ⟨s', bind_eq_ok.mpr ⟨_, hask, rfl⟩, hs'⟩
  | grid s => exact ⟨s', bind_eq_ok.mpr ⟨_, hask, rfl⟩, hs'⟩
  | evolutionary s => exact ⟨s', bind_eq_ok.mpr ⟨_, hask, rfl⟩, hs'⟩
  | bandit s => exact ⟨s', bind_eq_ok.mpr ⟨_, hask, rfl⟩, hs'⟩

/-- Recorded rounds are replayed, whatever fitness they were told. -/
theorem replay_unfailing (hP : PointInvariant rt.rng space P) (hspace : space.parameters ≠ [])
    {s : SearchStrategy ρ} (hs : s.Sane space P) {rounds : List (List Observation)}
    (hne : ∀ round ∈ rounds, round ≠ []) (htold : ∀ round ∈ rounds, ∀ o ∈ round, P o.point) :
    ∃ s', replay rt s rounds = .ok s' ∧ s'.Sane space P := by
  induction rounds generalizing s with
  | nil => exact ⟨s, rfl, hs⟩
  | cons round rounds ih =>
      obtain ⟨s₁, hasked, hs₁⟩ := replayAsk_unfailing hP hs round.length
      obtain ⟨s₂, htell, hs₂⟩ := tell_unfailing hP hspace hs₁ (hne round List.mem_cons_self)
        (htold round List.mem_cons_self)
      obtain ⟨s₃, hrest, hs₃⟩ := ih hs₂ (fun r hr => hne r (List.mem_cons_of_mem round hr))
        fun r hr => htold r (List.mem_cons_of_mem round hr)
      refine ⟨s₃, ?_, hs₃⟩
      unfold replay
      rw [List.foldlM_cons]
      exact bind_eq_ok.mpr ⟨s₂, bind_eq_ok.mpr ⟨s₁, hasked, htell⟩, hrest⟩

end Steps

/-! ## A search -/

/-- Rounds of a search: a batch is asked for, and told with this fitness; an empty batch ends
    it. With the last state, the points proposed. -/
def searchRounds (rt : Runtime ρ) : SearchStrategy ρ → List (ℕ × (Point → ℚ)) →
    Except String (List Point × SearchStrategy ρ)
  | s, [] => .ok ([], s)
  | s, (n, fitness) :: rounds => do
      let (batch, s) ← s.ask rt n
      if batch.isEmpty then return ([], s)
      let s ← s.tell rt (batch.map fun p => ⟨p, fitness p⟩)
      let (later, s) ← searchRounds rt s rounds
      return (batch ++ later, s)

theorem searchRounds_ok {rt : Runtime ρ} {space : SearchSpace} {P : Point → Prop}
    (hP : PointInvariant rt.rng space P) (hspace : space.parameters ≠ []) {s : SearchStrategy ρ}
    (hs : s.Sane space P) (rounds : List (ℕ × (Point → ℚ))) :
    ∃ points s', searchRounds rt s rounds = .ok (points, s') ∧ s'.Sane space P ∧
      ∀ p ∈ points, P p := by
  induction rounds generalizing s with
  | nil => exact ⟨[], s, rfl, hs, fun p hp => absurd hp List.not_mem_nil⟩
  | cons round rounds ih =>
      obtain ⟨n, fitness⟩ := round
      obtain ⟨batch, s₁, hask, hs₁, hbatch⟩ := ask_unfailing hP hs n
      by_cases hempty : batch = []
      · refine ⟨[], s₁, ?_, hs₁, fun p hp => absurd hp List.not_mem_nil⟩
        rw [searchRounds, hask, ok_bind, hempty]
        rfl
      · have hne : batch.map (fun p => (⟨p, fitness p⟩ : Observation)) ≠ [] := by
          simpa using hempty
        have htold : ∀ o ∈ batch.map (fun p => (⟨p, fitness p⟩ : Observation)), P o.point := by
          intro o ho
          obtain ⟨p, hp, rfl⟩ := List.mem_map.mp ho
          exact hbatch p hp
        obtain ⟨s₂, htell, hs₂⟩ := tell_unfailing hP hspace hs₁ hne htold
        obtain ⟨later, s₃, hlater, hs₃, hpoints⟩ := ih hs₂
        refine ⟨batch ++ later, s₃, ?_, hs₃, fun p hp => ?_⟩
        · have hsome : batch.isEmpty = false := by simpa using hempty
          rw [searchRounds, hask, ok_bind]
          dsimp only
          rw [hsome, if_neg Bool.false_ne_true, htell, ok_bind, hlater, ok_bind]
          rfl
        · rcases List.mem_append.mp hp with hp | hp
          · exact hbatch p hp
          · exact hpoints p hp

theorem holdsNumber_gridValues (spec : ParamSpec) (steps : ℕ) :
    ∀ v ∈ spec.gridValues steps, HoldsNumber spec v := by
  intro v hv hnumeric
  cases spec with
  | categorical values h => exact hnumeric.elim
  | float lo hi h =>
      unfold ParamSpec.gridValues at hv
      dsimp only at hv
      split_ifs at hv
      · rw [List.mem_singleton.mp hv]
        exact ⟨_, rfl⟩
      · simp only [List.mem_map, List.bind_eq_flatMap, List.pure_def, List.mem_flatMap,
          List.mem_singleton] at hv
        obtain ⟨_, -, rfl⟩ := hv
        exact ⟨_, rfl⟩
  | integer lo hi h =>
      unfold ParamSpec.gridValues at hv
      obtain ⟨z, -, rfl⟩ := List.mem_map.mp hv
      exact ⟨_, rfl⟩

end NeuroForge
