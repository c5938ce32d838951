/-
  Elitism of the evolutionary strategy over whole runs.

  The best point told is ranked first, the elite holds at least one point, and the elite
  heads the next population: so the best point so far heads the pending list (`headed`), and
  a batch of at least one, however short, evaluates it again. From this the best fitness of
  a generation is at least that of the one before. No round raises, because every pending
  point holds a number where the space asks for one (`HoldsNumber`).

  With bests that never fall, the maxima of the plateau test are the last best and the last
  one before the final three, so that the test compares just these two.
-/
import NeuroForge.Optimization.Points
import NeuroForge.Optimization.Replay

namespace NeuroForge

open Fallible

variable {ρ : Type}

namespace EvolutionarySearchStrategy

/-- A round: the engine asks for `n` points and tells the fitness of all that come. -/
def playRound (rt : Runtime ρ) (fitness : Point → ℚ) (s : EvolutionarySearchStrategy ρ)
    (n : ℕ) : Except String (EvolutionarySearchStrategy ρ) :=
  s.tell rt ((s.ask n).map fun p => ⟨p, fitness p⟩)

def playRounds (rt : Runtime ρ) (fitness : Point → ℚ) (s : EvolutionarySearchStrategy ρ)
    (asks : List ℕ) : Except String (EvolutionarySearchStrategy ρ) :=
  asks.foldlM (playRound rt fitness) s

end EvolutionarySearchStrategy

/-! ## Points of a population -/

/-- What the moves ask of a value: a number where the parameter is numeric. -/
def HoldsNumber (spec : ParamSpec) (v : Value) : Prop := spec.Numeric → ∃ q, v.num? = some q

theorem stable_holdsNumber (rng : Rng ρ) (spec : ParamSpec) :
    ParamSpec.Stable rng HoldsNumber spec where
  sample s hnumeric := by
    cases spec with
    | float lo hi h => exact ⟨_, rfl⟩
    | integer lo hi h => exact ⟨_, rfl⟩
    | categorical values h => exact hnumeric.elim
  number hnumeric v hv := hv hnumeric
  clamp hnumeric q v hv _ := by
    cases spec with
    | float lo hi h =>
        obtain rfl := Except.ok.inj hv
        exact ⟨_, rfl⟩
    | integer lo hi h =>
        obtain rfl := Except.ok.inj hv
        exact ⟨_, rfl⟩
    | categorical values h => exact hnumeric.elim
  redraw values h hspec v hv hnumeric := by
    rw [hspec] at hnumeric
    exact hnumeric.elim

section Moves

variable (rt : Runtime ρ) {space : SearchSpace} {Q : ParamSpec → Value → Prop}

theorem mem_sample {rng : Rng ρ} {α : Type} {xs : List α} {k : ℕ} {s : ρ} {x : α}
    (h : x ∈ (rng.sample xs k s).1) : x ∈ xs := by
  obtain ⟨j, -, rfl⟩ := List.mem_map.mp h
  exact List.get_mem _ _

theorem length_rngSample (rng : Rng ρ) {α : Type} (xs : List α) (k : ℕ) (s : ρ) :
    (rng.sample xs k s).1.length = min k xs.length := by
  unfold Rng.sample
  rw [List.length_map, List.length_finRange]

theorem tournamentSelect_ok {ranked : List (Point × ℚ)} (hne : ranked ≠ []) (rng : ρ) :
    ∃ p rng', EvolutionarySearchStrategy.tournamentSelect rt ranked rng = .ok (p, rng') ∧
      p ∈ ranked.map Prod.fst := by
  have hlen := length_rngSample rt.rng ranked 3 rng
  have hpos : 0 < ranked.length := List.length_pos_iff.mpr hne
  unfold EvolutionarySearchStrategy.tournamentSelect
  dsimp only
  cases harg : (rt.rng.sample ranked 3 rng).1.argmax Prod.snd with
  | none =>
      rw [List.argmax_eq_none.mp harg, List.length_nil] at hlen
      omega
  | some pf =>
      exact ⟨_, _, rfl, List.mem_map_of_mem (mem_sample (List.argmax_mem harg))⟩

theorem nextChild_ok {s : EvolutionarySearchStrategy ρ} (hspace : s.space.parameters ≠ [])
    {ranked : List (Point × ℚ)} (hne : ranked ≠ [])
    (hfits : ∀ p ∈ ranked.map Prod.fst, s.space.Fits HoldsNumber p) (rng : ρ) :
    ∃ child rng', s.nextChild rt ranked rng = .ok (child, rng') ∧
      s.space.Fits HoldsNumber child := by
  obtain ⟨a, rng₁, ha, hmema⟩ := tournamentSelect_ok rt hne rng
  obtain ⟨b, rng₂, hb, hmemb⟩ := tournamentSelect_ok rt hne rng₁
  unfold EvolutionarySearchStrategy.nextChild
  rw [ha, ok_bind]
  dsimp only
  rw [hb, ok_bind]
  dsimp only
  -- mutation, whatever child it is given
  have hmutate : ∀ child rng₃, s.space.Fits HoldsNumber child →
      ∃ child' rng', (if (rt.rng.random rng₃).1 < s.mutationRate then
          s.space.perturb rt.rng child (rt.rng.random rng₃).2
        else .ok (child, (rt.rng.random rng₃).2)) = .ok (child', rng') ∧
        s.space.Fits HoldsNumber child' := by
    intro child rng₃ hfit
    split_ifs
    · exact SearchSpace.fits_perturb (fun e _ => stable_holdsNumber rt.rng e.2) hspace hfit _ _
    · exact ⟨child, _, rfl, hfit⟩
  split_ifs
  · obtain ⟨child, rng₃, hchild, hfit⟩ :=
      SearchSpace.fits_crossover rt.rng (hfits a hmema) (hfits b hmemb)
        (rt.rng.random rng₂).2
    rw [hchild, ok_bind]
    exact hmutate child rng₃ hfit
  · exact hmutate a (rt.rng.random rng₂).2 (hfits a hmema)

theorem breed_ok {s : EvolutionarySearchStrategy ρ} (hspace : s.space.parameters ≠ [])
    {ranked : List (Point × ℚ)} (hne : ranked ≠ [])
    (hfits : ∀ p ∈ ranked.map Prod.fst, s.space.Fits HoldsNumber p) (count : ℕ)
    {nextPop : List Point} (hpop : ∀ p ∈ nextPop, s.space.Fits HoldsNumber p) (rng : ρ) :
    ∃ children rng', s.breed rt ranked count nextPop rng = .ok (nextPop ++ children, rng') ∧
      children.length = count ∧
      ∀ p ∈ nextPop ++ children, s.space.Fits HoldsNumber p := by
  induction count generalizing nextPop rng with
  | zero => exact ⟨[], rng, by rw [List.append_nil]; rfl, rfl, by simpa using hpop⟩
  | succ count ih =>
      obtain ⟨child, rng₁, hchild, hfit⟩ := nextChild_ok rt hspace hne hfits rng
      have hpop' : ∀ p ∈ nextPop ++ [child], s.space.Fits HoldsNumber p := by
        intro p hp
        rcases List.mem_append.mp hp with hp | hp
        · exact hpop p hp
        · rw [List.mem_singleton.mp hp]
          exact hfit
      obtain ⟨children, rng₂, hbreed, hlen, hall⟩ := ih hpop' rng₁
      rw [List.append_assoc, List.singleton_append] at hbreed hall
      refine ⟨child :: children, rng₂, ?_, by rw [List.length_cons, hlen], hall⟩
      unfold EvolutionarySearchStrategy.breed
      rw [hchild, ok_bind]
      exact hbreed

end Moves

/-! ## One round -/

/-- The best of what is told leads the ranking. -/
theorem exists_insertionSort_eq_cons {told : List (Point × ℚ)} (hne : told ≠ []) :
    ∃ best rest, (told.insertionSort fun a b => b.2 ≤ a.2) = best :: rest ∧
      best ∈ told ∧ ∀ x ∈ told, x.2 ≤ best.2 := by
  have htotal : Std.Total fun a b : Point × ℚ => b.2 ≤ a.2 := ⟨fun a b => le_total b.2 a.2⟩
  have htrans : IsTrans (Point × ℚ) fun a b => b.2 ≤ a.2 := ⟨fun a b c hab hbc => hbc.trans hab⟩
  have hsorted := List.pairwise_insertionSort (fun a b : Point × ℚ => b.2 ≤ a.2) told
  have hperm := List.perm_insertionSort (fun a b : Point × ℚ => b.2 ≤ a.2) told
  cases hranked : told.insertionSort fun a b => b.2 ≤ a.2 with
  | nil =>
      rw [hranked] at hperm
      exact absurd hperm.symm.eq_nil hne
  | cons best rest =>
      rw [hranked] at hsorted hperm
      refine ⟨best, rest, rfl, hperm.mem_iff.mp List.mem_cons_self, fun x hx => ?_⟩
      rcases List.mem_cons.mp (hperm.mem_iff.mpr hx) with rfl | hmem
      · exact le_rfl
      · exact (List.pairwise_cons.mp hsorted).1 x hmem

namespace EvolutionarySearchStrategy

/-- What a round of at least one and at most `populationSize` points does: it never raises,
    it leaves a full population of points of the space, headed by the best one told. -/
theorem tell_spec (rt : Runtime ρ) (fitness : Point → ℚ) {s : EvolutionarySearchStrategy ρ}
    (hspace : s.space.parameters ≠ []) {batch : List Point} (hne : batch ≠ [])
    (hsize : batch.length ≤ s.populationSize)
    (hfits : ∀ p ∈ batch, s.space.Fits HoldsNumber p) :
    ∃ s' best, s.tell rt (batch.map fun p => ⟨p, fitness p⟩) = .ok s' ∧
      s'.space = s.space ∧ s'.populationSize = s.populationSize ∧
      s'.pending.length = s'.populationSize ∧
      (∀ p ∈ s'.pending, s'.space.Fits HoldsNumber p) ∧
      s'.generations = s.generations ++ [⟨s.currentGenIndex, batch, batch.map fitness⟩] ∧
      s'.pending.head? = some best ∧ best ∈ batch ∧ ∀ p ∈ batch, fitness p ≤ fitness best := by
  have hpopulation : (batch.map fun p => (⟨p, fitness p⟩ : Observation)).map (·.point) =
      batch := by
    rw [List.map_map]
    exact List.map_id batch
  have hvalues : (batch.map fun p => (⟨p, fitness p⟩ : Observation)).map (·.fitness) =
      batch.map fitness := by
    rw [List.map_map]
    rfl
  have htold : batch.zip (batch.map fitness) = batch.map fun p => (p, fitness p) := by
    simpa using List.zip_map' (f := id) (g := fitness) (l := batch)
  have hne' : batch.map (fun p => (p, fitness p)) ≠ [] := by simpa using hne
  obtain ⟨best, rest, hranked, hmem, hbest⟩ := exists_insertionSort_eq_cons hne'
  obtain ⟨p, hp, rfl⟩ := List.mem_map.mp hmem
  -- the ranking is a permutation of what was told
  have hperm := List.perm_insertionSort (fun a b : Point × ℚ => b.2 ≤ a.2)
    (batch.map fun p => (p, fitness p))
  rw [hranked] at hperm
  have hlen : ((p, fitness p) :: rest).length = batch.length := by
    rw [hperm.length_eq, List.length_map]
  have hrankedFits : ∀ q ∈ ((p, fitness p) :: rest).map Prod.fst,
      s.space.Fits HoldsNumber q := by
    intro q hq
    have hq : q ∈ (batch.map fun p => (p, fitness p)).map Prod.fst :=
      (hperm.map Prod.fst).mem_iff.mp hq
    rw [List.map_map] at hq
    exact hfits q (by simpa using hq)
  -- the elite starts with the best and is no longer than the population
  obtain ⟨elites, helite, hshort⟩ : ∃ elites,
      ((((p, fitness p) :: rest).take
        (max 1 (truncInt ((((p, fitness p) :: rest).length : ℕ) * s.eliteFraction)).toNat)).map
          Prod.fst) = p :: elites ∧ (p :: elites).length ≤ s.populationSize := by
    obtain ⟨k, hk⟩ : ∃ k, max 1 (truncInt ((((p, fitness p) :: rest).length : ℕ) *
        s.eliteFraction)).toNat = k + 1 := ⟨_, (Nat.sub_add_cancel (le_max_left _ _)).symm⟩
    rw [hk, List.take_succ_cons, List.map_cons]
    refine ⟨_, rfl, ?_⟩
    rw [List.length_cons, List.length_map, List.length_take]
    rw [List.length_cons] at hlen
    omega
  have heliteFits : ∀ q ∈ p :: elites, s.space.Fits HoldsNumber q := by
    intro q hq
    rw [← helite] at hq
    obtain ⟨e, he, rfl⟩ := List.mem_map.mp hq
    exact hrankedFits _ (List.mem_map_of_mem (List.mem_of_mem_take he))
  obtain ⟨children, rng', hbreed, hcount, hpop⟩ :=
    breed_ok rt hspace (List.cons_ne_nil _ _) hrankedFits
      (s.populationSize - (p :: elites).length) heliteFits s.rng
  refine ⟨{ s with
    generations := s.generations ++ [⟨s.currentGenIndex, batch, batch.map fitness⟩]
    currentGenIndex := s.currentGenIndex + 1
    rng := rng'
    pending := (p :: elites) ++ children }, p, ?_, rfl, rfl, ?_, hpop, rfl, rfl, hp, ?_⟩
  · unfold tell
    simp only [hpopulation, hvalues, htold, hranked, helite, hbreed, ok_bind]
    rfl
  · show ((p :: elites) ++ children).length = s.populationSize
    rw [List.length_append, hcount]
    omega
  · intro q hq
    exact hbest (q, fitness q) (List.mem_map_of_mem hq)

end EvolutionarySearchStrategy

/-! ## Best values that never fall -/

theorem max?_of_sorted {xs : List ℚ} {b : ℚ} (h : (xs ++ [b]).Pairwise (· ≤ ·)) :
    (xs ++ [b]).max? = some b := by
  refine List.max?_eq_some_iff.mpr ⟨by simp, fun a ha => ?_⟩
  rcases List.mem_append.mp ha with ha | ha
  · exact (List.pairwise_append.mp h).2.2 a ha b (by simp)
  · rw [List.mem_singleton.mp ha]

/-- On values that never fall the plateau test compares the last with the fourth last. -/
theorem detectPlateau_iff {history : List ℚ} (hsorted : history.Pairwise (· ≤ ·)) (δ : ℚ) :
    detectPlateau history 3 δ = true ↔
      ∃ earlier b₀ b₁ b₂ b₃, history = earlier ++ [b₀, b₁, b₂, b₃] ∧ b₃ - b₀ < δ := by
  have hfour : ∀ earlier b₀ b₁ b₂ b₃, history = earlier ++ [b₀, b₁, b₂, b₃] →
      detectPlateau history 3 δ = decide (b₃ - b₀ < δ) := by
    rintro earlier b₀ b₁ b₂ b₃ rfl
    have hlen : (earlier ++ [b₀, b₁, b₂, b₃]).length = (earlier ++ [b₀]).length + 3 := by
      simp
    have hsplit : earlier ++ [b₀, b₁, b₂, b₃] = (earlier ++ [b₀]) ++ [b₁, b₂, b₃] := by simp
    have hprior := max?_of_sorted (hsorted.sublist (List.IsPrefix.sublist ⟨_, hsplit.symm⟩))
    have hrecent : ([b₁, b₂] ++ [b₃]).max? = some b₃ :=
      max?_of_sorted (hsorted.sublist (List.IsSuffix.sublist ⟨_, hsplit.symm⟩))
    have hlong : ¬ (earlier ++ [b₀]).length + 3 < 3 + 1 := by
      rw [List.length_append, List.length_singleton]
      omega
    unfold detectPlateau
    rw [hlen, if_neg hlong, Nat.add_sub_cancel, hsplit, List.drop_left, List.take_left, hprior]
    rw [show [b₁, b₂, b₃] = [b₁, b₂] ++ [b₃] from rfl, hrecent]
  constructor
  · intro hplateau
    have hlen : 4 ≤ history.length := by
      by_contra hlong
      have hshort : history.length < 3 + 1 := by omega
      unfold detectPlateau at hplateau
      rw [if_pos hshort] at hplateau
      cases hplateau
    obtain ⟨b₀, b₁, b₂, b₃, hlast⟩ :
        ∃ b₀ b₁ b₂ b₃, history.drop (history.length - 4) = [b₀, b₁, b₂, b₃] := by
      have hfourlong : (history.drop (history.length - 4)).length = 4 := by
        rw [List.length_drop]
        omega
      match hdrop : history.drop (history.length - 4), hfourlong with
      | [b₀, b₁, b₂, b₃], _ => exact ⟨b₀, b₁, b₂, b₃, rfl⟩
    have heq : history = history.take (history.length - 4) ++ [b₀, b₁, b₂, b₃] := by
      rw [← hlast, List.take_append_drop]
    rw [hfour _ b₀ b₁ b₂ b₃ heq] at hplateau
    exact ⟨_, b₀, b₁, b₂, b₃, heq, of_decide_eq_true hplateau⟩
  · rintro ⟨earlier, b₀, b₁, b₂, b₃, heq, hless⟩
    rw [hfour earlier b₀ b₁ b₂ b₃ heq]
    exact decide_eq_true hless

/-! ## Runs -/

namespace EvolutionarySearchStrategy

/-- What every round leaves: a full population of points of the space, headed by a point
    that is at least as good as every best value so far, and those never fall. -/
structure Elitist (fitness : Point → ℚ) (s : EvolutionarySearchStrategy ρ) : Prop where
  space : s.space.parameters ≠ []
  size : s.pending.length = s.populationSize
  positive : 1 ≤ s.populationSize
  fits : ∀ p ∈ s.pending, s.space.Fits HoldsNumber p
  bests : ∃ bests, s.generations.mapM Generation.bestFitness = .ok bests ∧
    bests.Pairwise (· ≤ ·) ∧
    ∀ p, s.pending.head? = some p → ∀ b ∈ bests, b ≤ fitness p

theorem fresh_elitist (rt : Runtime ρ) {space : SearchSpace} (hspace : space.parameters ≠ [])
    (seed : ℤ) {populationSize : ℕ} (hsize : 1 ≤ populationSize) (fitness : Point → ℚ)
    (eliteFraction mutationRate crossoverRate : ℚ) :
    Elitist fitness { fresh rt space seed populationSize with
      eliteFraction := eliteFraction
      mutationRate := mutationRate
      crossoverRate := crossoverRate } where
  space := hspace
  size := length_drawMany _ _ _
  positive := hsize
  fits := by
    intro p hp
    obtain ⟨s, rfl⟩ := exists_of_mem_drawMany hp
    exact SearchSpace.fits_sample (fun e _ => (stable_holdsNumber rt.rng e.2).sample) s
  bests := ⟨[], rfl, List.Pairwise.nil, fun _ _ _ hb => absurd hb List.not_mem_nil⟩

theorem Elitist.playRound (rt : Runtime ρ) {fitness : Point → ℚ}
    {s : EvolutionarySearchStrategy ρ} (h : Elitist fitness s) {n : ℕ} (hn : 1 ≤ n) :
    ∃ s', s.playRound rt fitness n = .ok s' ∧ Elitist fitness s' ∧
      s'.populationSize = s.populationSize ∧
      s'.generations.length = s.generations.length + 1 := by
  obtain ⟨p, pending, hpending⟩ : ∃ p pending, s.pending = p :: pending := by
    refine List.exists_cons_of_ne_nil fun hnil => ?_
    have hlen := h.size.symm.trans (congrArg List.length hnil)
    have hpos := h.positive
    rw [hlen] at hpos
    exact absurd hpos (by decide)
  -- a batch of at least one holds the head of the population
  have hhead : p ∈ s.ask n := by
    obtain ⟨m, rfl⟩ := Nat.exists_eq_add_of_le' hn
    unfold ask
    rw [hpending, List.take_succ_cons]
    exact List.mem_cons_self
  have hsize : (s.ask n).length ≤ s.populationSize := by
    rw [← h.size]
    exact List.length_take_le' n s.pending
  obtain ⟨s', best, htell, hspace, hpop, hlen, hfits, hgen, hbesthead, hmem, hbest⟩ :=
    tell_spec rt fitness h.space (List.ne_nil_of_mem hhead) hsize
      fun q hq => h.fits q (List.mem_of_mem_take hq)
  obtain ⟨bests, hbests, hsorted, hbelow⟩ := h.bests
  have hmax : ((s.ask n).map fitness).max? = some (fitness best) := by
    refine List.max?_eq_some_iff.mpr ⟨List.mem_map_of_mem hmem, fun b hb => ?_⟩
    obtain ⟨q, hq, rfl⟩ := List.mem_map.mp hb
    exact hbest q hq
  have hpast : ∀ b ∈ bests, b ≤ fitness best := by
    intro b hb
    exact (hbelow p (by rw [hpending]; rfl) b hb).trans (hbest p hhead)
  refine ⟨s', htell, ?_, hpop, ?_⟩
  · refine ⟨by rw [hspace]; exact h.space, hlen, by rw [hpop]; exact h.positive, hfits,
      bests ++ [fitness best], ?_, ?_, ?_⟩
    · rw [hgen, List.mapM_append, hbests]
      simp only [List.mapM_cons, List.mapM_nil, Generation.bestFitness, maxOf, hmax]
      rfl
    · rw [List.pairwise_append]
      refine ⟨hsorted, List.pairwise_singleton _ _, fun b hb b' hb' => ?_⟩
      rw [List.mem_singleton.mp hb']
      exact hpast b hb
    · intro q hq b hb
      obtain rfl : best = q := Option.some.inj (hbesthead.symm.trans hq)
      rcases List.mem_append.mp hb with hb | hb
      · exact hpast b hb
      · exact (List.mem_singleton.mp hb).le
  · rw [hgen, List.length_append, List.length_singleton]

theorem Elitist.playRounds (rt : Runtime ρ) {fitness : Point → ℚ}
    {s : EvolutionarySearchStrategy ρ} (h : Elitist fitness s) {asks : List ℕ}
    (hasks : ∀ n ∈ asks, 1 ≤ n) :
    ∃ s', s.playRounds rt fitness asks = .ok s' ∧ Elitist fitness s' ∧
      s'.populationSize = s.populationSize ∧
      s'.generations.length = s.generations.length + asks.length := by
  induction asks generalizing s with
  | nil => exact ⟨s, rfl, h, rfl, rfl⟩
  | cons n asks ih =>
      obtain ⟨s₁, hround, h₁, hsize₁, hlen₁⟩ := h.playRound rt (hasks n List.mem_cons_self)
      obtain ⟨s', hrest, h', hsize', hlen'⟩ := ih h₁ fun m hm => hasks m (List.mem_cons_of_mem _ hm)
      refine ⟨s', ?_, h', hsize'.trans hsize₁, ?_⟩
      · unfold EvolutionarySearchStrategy.playRounds
        rw [List.foldlM_cons, hround]
        exact hrest
      · rw [hlen', hlen₁, List.length_cons]
        omega

/-- **Elitism.** In every run of rounds of at least one point, whatever the random draws and
    the rates, no round raises, the pending population keeps its size, the best fitness of a
    generation is never below that of the one before, and `convergence` reports a plateau
    exactly when there are four generations and the best rose by less than 0.005 over the
    last three. -/
theorem elitism (rt : Runtime ρ) (space : SearchSpace) (hspace : space.parameters ≠ [])
    (seed : ℤ) (populationSize : ℕ) (hsize : 1 ≤ populationSize)
    (eliteFraction mutationRate crossoverRate : ℚ) (fitness : Point → ℚ) (asks : List ℕ)
    (hasks : ∀ n ∈ asks, 1 ≤ n) :
    ∃ s bests state,
      playRounds rt fitness { fresh rt space seed populationSize with
        eliteFraction := eliteFraction
        mutationRate := mutationRate
        crossoverRate := crossoverRate } asks = .ok s ∧
      s.pending.length = populationSize ∧
      s.generations.length = asks.length ∧
      s.generations.mapM Generation.bestFitness = .ok bests ∧
      bests.Pairwise (· ≤ ·) ∧
      s.convergence = .ok state ∧
      (state.converged = true ↔
        ∃ earlier b₀ b₁ b₂ b₃, bests = earlier ++ [b₀, b₁, b₂, b₃] ∧ b₃ - b₀ < 1 / 200) := by
  obtain ⟨s, hrun, helitist, hpop, hlen⟩ :=
    (fresh_elitist rt hspace seed hsize fitness eliteFraction mutationRate
      crossoverRate).playRounds rt hasks
  obtain ⟨bests, hbests, hsorted, -⟩ := helitist.bests
  refine ⟨s, bests, plateauState bests 3 (1 / 200) "fitness plateaued across generations", hrun,
    helitist.size.trans hpop, ?_, hbests, hsorted, ?_, detectPlateau_iff hsorted (1 / 200)⟩
  · rw [hlen]
    exact Nat.zero_add _
  · unfold convergence
    rw [hbests]
    rfl

/-- Three rounds of a population of three, the second cut short. -/
theorem elitism_cutShort : ∃ s bests,
    playRounds countingRuntime (fun p => p.length) { fresh countingRuntime exampleSpace 1 3 with
      eliteFraction := 1 / 5
      mutationRate := 3 / 10
      crossoverRate := 1 / 2 } [3, 1, 2] = .ok s ∧
    s.pending.length = 3 ∧ s.generations.length = 3 ∧
    s.generations.mapM Generation.bestFitness = .ok bests ∧ bests.Pairwise (· ≤ ·) := by
  obtain ⟨s, bests, -, hrun, hpending, hlen, hbests, hsorted, -⟩ :=
    elitism countingRuntime exampleSpace (List.cons_ne_nil _ _) 1 3 (by decide) (1 / 5) (3 / 10)
      (1 / 2) (fun p => p.length) [3, 1, 2] (by decide)
  exact ⟨s, bests, hrun, hpending, hlen, hbests, hsorted⟩

end EvolutionarySearchStrategy

end NeuroForge
