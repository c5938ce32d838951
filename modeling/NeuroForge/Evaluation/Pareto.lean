/-
  `evaluation/pareto.py`: which candidates no other candidate beats, and which ones beat
  the rest.

  A metric is read as a member of a linear order: all that is done with it is to compare it,
  and without NaN that is what floats are, the infinities included.

  Dominance, where both points have a value for every objective, is a strict order on points
  (`Dominates`), whatever mix of directions it is taken over; the loop that decides it may
  stop early, and the value it had found so far is then not returned. Distinct ids make
  "another candidate" and "a candidate with another id" the same, and what is left is about
  any finite set under a strict order.
-/
import NeuroForge.Evaluation.Objectives
import NeuroForge.Lib.Dict
import NeuroForge.Lib.Fallible
import NeuroForge.Lib.Frontier

namespace NeuroForge

open Fallible Frontier

structure ParetoPoint (α : Type) where
  candidateId : String
  metrics : Dict String α

structure ParetoResult where
  candidateId : String
  isParetoOptimal : Bool
  dominatedBy : List String
  explanation : String
  deriving DecidableEq, Repr

section
variable {α : Type} [LinearOrder α]

/-- `metrics[key]`. -/
def metricOf (metrics : Dict String α) (key : String) : Except String α :=
  match Dict.get? metrics key with
  | some v => .ok v
  | none => .error s!"KeyError: {key}"

/-- `better, worse_or_equal`: the second says "at least as good", as the source computes it. -/
def Direction.compare : Direction → α → α → Bool × Bool
  | .maximize, av, bv => (decide (bv < av), decide (bv ≤ av))
  | .minimize, av, bv => (decide (av < bv), decide (av ≤ bv))

/-- The loop of `_dominates`, with `strictly_better_somewhere` as it stands. -/
def dominatesFrom (a b : Dict String α) : Dict String Direction → Bool → Except String Bool
  | [], strictlyBetterSomewhere => .ok strictlyBetterSomewhere
  | (key, direction) :: directions, strictlyBetterSomewhere => do
      let av ← metricOf a key
      let bv ← metricOf b key
      let (better, worseOrEqual) := direction.compare av bv
      if !worseOrEqual then .ok false
      else dominatesFrom a b directions (strictlyBetterSomewhere || better)

/-- `_dominates`. -/
def dominates (a b : Dict String α) (directions : Dict String Direction) :
    Except String Bool :=
  dominatesFrom a b directions false

/-- The comprehension over `points` that collects what dominates `p`. -/
def dominators (directions : Dict String Direction) (p : ParetoPoint α) :
    List (ParetoPoint α) → Except String (List String)
  | [] => .ok []
  | other :: points => do
      let taken ← if other.candidateId ≠ p.candidateId then
          dominates other.metrics p.metrics directions
        else .ok false
      let rest ← dominators directions p points
      .ok (if taken then other.candidateId :: rest else rest)

def ParetoPoint.result (p : ParetoPoint α) (dominators : List String) : ParetoResult where
  candidateId := p.candidateId
  isParetoOptimal := dominators.isEmpty
  dominatedBy := dominators
  explanation :=
    if dominators.isEmpty then
      "Pareto-optimal: no other candidate is at least as good on every objective " ++
        "and strictly better on at least one."
    else "Dominated by " ++ ", ".intercalate dominators ++ ": " ++
        "each of them matches or beats this candidate on every objective and beats it " ++
        "on at least one, so this candidate is strictly worse in every useful sense."

def paretoFrontier (points : List (ParetoPoint α)) (directions : Dict String Direction) :
    Except String (List ParetoResult) :=
  points.mapM fun p => do
    let dominators ← dominators directions p points
    .ok (p.result dominators)

/-- The ids of the optimal candidates. -/
def optimalIds (results : List ParetoResult) : List String :=
  (results.filter (·.isParetoOptimal)).map (·.candidateId)

/-! ## Dominance -/

def Direction.Better : Direction → α → α → Prop
  | .maximize, x, y => y < x
  | .minimize, x, y => x < y

def Direction.AtLeastAsGood : Direction → α → α → Prop
  | .maximize, x, y => y ≤ x
  | .minimize, x, y => x ≤ y

instance (direction : Direction) (x y : α) : Decidable (direction.Better x y) := by
  cases direction <;> exact inferInstanceAs (Decidable (_ < _))

instance (direction : Direction) (x y : α) : Decidable (direction.AtLeastAsGood x y) := by
  cases direction <;> exact inferInstanceAs (Decidable (_ ≤ _))

/-- `p` is at least as good as `q` on every objective and strictly better on one. -/
def Dominates (directions : Dict String Direction) (p q : ParetoPoint α) : Prop :=
  (∀ e ∈ directions, ∃ x ∈ Dict.get? p.metrics e.1, ∃ y ∈ Dict.get? q.metrics e.1,
      e.2.AtLeastAsGood x y) ∧
    ∃ e ∈ directions, ∃ x ∈ Dict.get? p.metrics e.1, ∃ y ∈ Dict.get? q.metrics e.1,
      e.2.Better x y

instance (directions : Dict String Direction) (p q : ParetoPoint α) :
    Decidable (Dominates directions p q) :=
  inferInstanceAs (Decidable (_ ∧ _))

/-- Every objective has a value in `metrics`. -/
def Measures (directions : Dict String Direction) (metrics : Dict String α) : Prop :=
  ∀ key ∈ Dict.keys directions, key ∈ Dict.keys metrics

theorem Direction.compare_eq (direction : Direction) (x y : α) :
    direction.compare x y =
      (decide (direction.Better x y), decide (direction.AtLeastAsGood x y)) := by
  cases direction <;> rfl

theorem Direction.AtLeastAsGood.trans {direction : Direction} {x y z : α}
    (hxy : direction.AtLeastAsGood x y) (hyz : direction.AtLeastAsGood y z) :
    direction.AtLeastAsGood x z := by
  cases direction with
  | maximize => exact le_trans hyz hxy
  | minimize => exact le_trans hxy hyz

theorem Direction.Better.trans_atLeastAsGood {direction : Direction} {x y z : α}
    (hxy : direction.Better x y) (hyz : direction.AtLeastAsGood y z) :
    direction.Better x z := by
  cases direction with
  | maximize => exact lt_of_le_of_lt hyz hxy
  | minimize => exact lt_of_lt_of_le hxy hyz

theorem Direction.Better.irrefl (direction : Direction) (x : α) :
    ¬ direction.Better x x := by
  cases direction with
  | maximize => exact lt_irrefl x
  | minimize => exact lt_irrefl x

theorem dominates_irrefl (directions : Dict String Direction) (p : ParetoPoint α) :
    ¬ Dominates directions p p := by
  rintro ⟨-, e, -, x, hx, y, hy, hbetter⟩
  obtain rfl : x = y := Option.some.inj (hx.symm.trans hy)
  exact Direction.Better.irrefl e.2 x hbetter

theorem Dominates.trans {directions : Dict String Direction} {p q o : ParetoPoint α}
    (hpq : Dominates directions p q) (hqo : Dominates directions q o) :
    Dominates directions p o := by
  constructor
  · intro e he
    obtain ⟨x, hx, y, hy, hxy⟩ := hpq.1 e he
    obtain ⟨y', hy', z, hz, hyz⟩ := hqo.1 e he
    obtain rfl : y = y' := Option.some.inj (hy.symm.trans hy')
    exact ⟨x, hx, z, hz, hxy.trans hyz⟩
  · -- the objective on which `p` beats `q` is one on which `q` is as good as `o`
    obtain ⟨e, he, x, hx, y, hy, hxy⟩ := hpq.2
    obtain ⟨y', hy', z, hz, hyz⟩ := hqo.1 e he
    obtain rfl : y = y' := Option.some.inj (hy.symm.trans hy')
    exact ⟨e, he, x, hx, z, hz, hxy.trans_atLeastAsGood hyz⟩

instance (directions : Dict String Direction) :
    IsStrictOrder (ParetoPoint α) (Dominates directions) where
  irrefl := dominates_irrefl directions
  trans _ _ _ := Dominates.trans

/-! ## The loops compute it -/

omit [LinearOrder α] in
theorem metricOf_eq_ok {metrics : Dict String α} {key : String} {x : α}
    (h : Dict.get? metrics key = some x) : metricOf metrics key = .ok x := by
  unfold metricOf
  rw [h]

omit [LinearOrder α] in
theorem get?_of_metricOf {metrics : Dict String α} {key : String} {x : α}
    (h : metricOf metrics key = .ok x) : Dict.get? metrics key = some x := by
  unfold metricOf at h
  cases hget : Dict.get? metrics key with
  | none =>
      rw [hget] at h
      cases h
  | some y =>
      rw [hget] at h
      rw [Except.ok.inj h]

omit [LinearOrder α] in
theorem Measures.exists_get? {directions : Dict String Direction} {metrics : Dict String α}
    (h : Measures directions metrics) {key : String} (hkey : key ∈ Dict.keys directions) :
    ∃ x, Dict.get? metrics key = some x := by
  refine Option.ne_none_iff_exists'.mp fun hnone => ?_
  exact Dict.get?_eq_none.mp hnone (h key hkey)

/-- The loop over the directions that are left: `true` when the rest is at least as good
    throughout and something was better, before or in the rest. -/
theorem dominatesFrom_eq {directions : Dict String Direction} {p q : ParetoPoint α}
    (hp : Measures directions p.metrics) (hq : Measures directions q.metrics)
    (found : Bool) :
    dominatesFrom p.metrics q.metrics directions found = .ok (decide (
      (∀ e ∈ directions, ∃ x ∈ Dict.get? p.metrics e.1, ∃ y ∈ Dict.get? q.metrics e.1,
        e.2.AtLeastAsGood x y) ∧
      (found = true ∨ ∃ e ∈ directions, ∃ x ∈ Dict.get? p.metrics e.1,
        ∃ y ∈ Dict.get? q.metrics e.1, e.2.Better x y))) := by
  induction directions generalizing found with
  | nil => simp [dominatesFrom]
  | cons e directions ih =>
      obtain ⟨key, direction⟩ := e
      have hkey : key ∈ Dict.keys ((key, direction) :: directions) := List.mem_cons_self
      obtain ⟨x, hx⟩ := hp.exists_get? hkey
      obtain ⟨y, hy⟩ := hq.exists_get? hkey
      have hp' : Measures directions p.metrics := fun k hk => hp k (List.mem_cons_of_mem _ hk)
      have hq' : Measures directions q.metrics := fun k hk => hq k (List.mem_cons_of_mem _ hk)
      unfold dominatesFrom
      rw [metricOf_eq_ok hx, metricOf_eq_ok hy, ok_bind, ok_bind, Direction.compare_eq]
      by_cases hgood : direction.AtLeastAsGood x y
      · have hstep := ih hp' hq' (found || decide (direction.Better x y))
        simp only [hgood, decide_true, Bool.not_true, Bool.false_eq_true, if_false, hstep]
        rw [Except.ok.injEq, decide_eq_decide]
        simp [hgood, hx, hy, or_assoc]
      · -- the early exit
        have hnot : ¬ ∀ e ∈ (key, direction) :: directions, ∃ x ∈ Dict.get? p.metrics e.1,
            ∃ y ∈ Dict.get? q.metrics e.1, e.2.AtLeastAsGood x y := by
          rw [List.forall_mem_cons]
          simp [hgood, hx, hy]
        simp only [hgood, decide_false, Bool.not_false, if_true]
        rw [Except.ok.injEq, eq_comm, decide_eq_false_iff_not]
        exact fun h => hnot h.1

theorem dominates_eq {directions : Dict String Direction} {p q : ParetoPoint α}
    (hp : Measures directions p.metrics) (hq : Measures directions q.metrics) :
    dominates p.metrics q.metrics directions = .ok (decide (Dominates directions p q)) := by
  unfold dominates
  rw [dominatesFrom_eq hp hq, Except.ok.injEq, decide_eq_decide, Dominates]
  simp

theorem dominators_eq {directions : Dict String Direction} {p : ParetoPoint α}
    (hp : Measures directions p.metrics) {points : List (ParetoPoint α)}
    (hpoints : ∀ o ∈ points, Measures directions o.metrics) :
    dominators directions p points = .ok ((points.filter fun o =>
      decide (o.candidateId ≠ p.candidateId ∧ Dominates directions o p)).map
        (·.candidateId)) := by
  induction points with
  | nil => rfl
  | cons o points ih =>
      have ho : Measures directions o.metrics := hpoints o List.mem_cons_self
      unfold dominators
      rw [ih fun o' ho' => hpoints o' (List.mem_cons_of_mem _ ho'), dominates_eq ho hp]
      by_cases hid : o.candidateId = p.candidateId
      · simp [hid]
      · by_cases hdom : Dominates directions o p <;> simp [hid, hdom]

/-- Where ids are distinct, excluding the point's own id excludes nothing that dominates it. -/
theorem filter_dominators {points : List (ParetoPoint α)}
    (hids : (points.map (·.candidateId)).Nodup) (directions : Dict String Direction)
    {p : ParetoPoint α} (hp : p ∈ points) :
    (points.filter fun o =>
        decide (o.candidateId ≠ p.candidateId ∧ Dominates directions o p)) =
      points.filter fun o => decide (Dominates directions o p) := by
  refine List.filter_congr fun o ho => ?_
  rw [decide_eq_decide]
  refine ⟨And.right, fun hdom => ⟨fun hid => ?_, hdom⟩⟩
  obtain rfl : o = p := List.inj_on_of_nodup_map hids ho hp hid
  exact dominates_irrefl directions o hdom

/-! ## The frontier -/

/-- The ids of the points that dominate `p`, in the order of `points`. -/
def dominatorIds (directions : Dict String Direction) (points : List (ParetoPoint α))
    (p : ParetoPoint α) : List String :=
  (points.filter fun o => decide (Dominates directions o p)).map (·.candidateId)

theorem dominatorIds_eq_nil {directions : Dict String Direction}
    {points : List (ParetoPoint α)} {p : ParetoPoint α} :
    dominatorIds directions points p = [] ↔ ∀ o ∈ points, ¬ Dominates directions o p := by
  simp [dominatorIds]

theorem mem_dominatorIds {directions : Dict String Direction} {points : List (ParetoPoint α)}
    {p o : ParetoPoint α} (ho : o ∈ points) (hdom : Dominates directions o p) :
    o.candidateId ∈ dominatorIds directions points p :=
  List.mem_map_of_mem (List.mem_filter.mpr ⟨ho, decide_eq_true hdom⟩)

theorem paretoFrontier_eq {points : List (ParetoPoint α)} {directions : Dict String Direction}
    (hids : (points.map (·.candidateId)).Nodup)
    (hall : ∀ p ∈ points, Measures directions p.metrics) :
    paretoFrontier points directions =
      .ok (points.map fun p => p.result (dominatorIds directions points p)) := by
  refine mapM_eq_ok fun p hp => ?_
  rw [dominators_eq (hall p hp) hall, filter_dominators hids directions hp]
  rfl

omit [LinearOrder α] in
theorem ParetoPoint.isParetoOptimal_result {p : ParetoPoint α} {ids : List String} :
    (p.result ids).isParetoOptimal = true ↔ ids = [] :=
  List.isEmpty_iff

/-- The optimal points are the undominated members of the set of points. -/
theorem undominated_iff {directions : Dict String Direction} {points : List (ParetoPoint α)}
    {p : ParetoPoint α} :
    Undominated (Dominates directions) {o | o ∈ points} p ↔
      p ∈ points ∧ dominatorIds directions points p = [] :=
  and_congr_right' dominatorIds_eq_nil.symm

theorem mem_optimalIds {directions : Dict String Direction} {points : List (ParetoPoint α)}
    {id : String} :
    id ∈ optimalIds (points.map fun p => p.result (dominatorIds directions points p)) ↔
      ∃ p, Undominated (Dominates directions) {o | o ∈ points} p ∧ p.candidateId = id := by
  unfold optimalIds
  simp only [List.mem_map, List.mem_filter, undominated_iff]
  constructor
  · rintro ⟨r, ⟨⟨p, hp, rfl⟩, hopt⟩, rfl⟩
    exact ⟨p, ⟨hp, ParetoPoint.isParetoOptimal_result.mp hopt⟩, rfl⟩
  · rintro ⟨p, ⟨hp, hnil⟩, rfl⟩
    exact ⟨_, ⟨⟨p, hp, rfl⟩, ParetoPoint.isParetoOptimal_result.mpr hnil⟩, rfl⟩

/-- `pareto_frontier` lists for each point exactly what dominates it; some point is optimal,
    every other one has an optimal point in its list, and neither the order of the points nor
    the points that are not optimal matter to which ones are. -/
theorem paretoFrontier_exact (points : List (ParetoPoint α))
    (directions : Dict String Direction)
    (hids : (points.map (·.candidateId)).Nodup)
    (hall : ∀ p ∈ points, Measures directions p.metrics) :
    ∃ results, paretoFrontier points directions = .ok results ∧
      List.Forall₂ (fun p r => r.candidateId = p.candidateId ∧
          r.dominatedBy = (points.filter fun o => decide (Dominates directions o p)).map
            (·.candidateId) ∧
          (r.isParetoOptimal = true ↔ ∀ o ∈ points, ¬ Dominates directions o p))
        points results ∧
      (points ≠ [] → ∃ r ∈ results, r.isParetoOptimal = true) ∧
      (∀ r ∈ results, r.isParetoOptimal = false → ∃ best ∈ results,
        best.isParetoOptimal = true ∧ best.candidateId ∈ r.dominatedBy) ∧
      ∀ kept : List (ParetoPoint α), kept.Subperm points →
        (∀ p ∈ points, p ∉ kept → ∃ o ∈ points, Dominates directions o p) →
        ∃ results', paretoFrontier kept directions = .ok results' ∧
          ∀ id, id ∈ optimalIds results' ↔ id ∈ optimalIds results := by
  have hfinite : {o | o ∈ points}.Finite := List.finite_toSet points
  refine ⟨_, paretoFrontier_eq hids hall, ?_, ?_, ?_, ?_⟩
  · refine List.forall₂_map_right_iff.mpr (List.forall₂_same.mpr fun p _ => ⟨rfl, rfl, ?_⟩)
    exact ParetoPoint.isParetoOptimal_result.trans dominatorIds_eq_nil
  · intro hne
    obtain ⟨p, hp⟩ := exists_undominated (Dominates directions) hfinite
      (List.exists_mem_of_ne_nil points hne)
    obtain ⟨hmem, hnil⟩ := undominated_iff.mp hp
    exact ⟨_, List.mem_map_of_mem hmem, ParetoPoint.isParetoOptimal_result.mpr hnil⟩
  · intro r hr hnot
    obtain ⟨p, hp, rfl⟩ := List.mem_map.mp hr
    rcases undominated_or_beaten (Dominates directions) hfinite hp with hund | ⟨o, ho, hdom⟩
    · rw [ParetoPoint.isParetoOptimal_result.mpr (undominated_iff.mp hund).2] at hnot
      cases hnot
    · obtain ⟨hmem, hnil⟩ := undominated_iff.mp ho
      exact ⟨_, List.mem_map_of_mem hmem, ParetoPoint.isParetoOptimal_result.mpr hnil,
        mem_dominatorIds hmem hdom⟩
  · intro kept hsub hgone
    have hids' : (kept.map (·.candidateId)).Nodup := by
      obtain ⟨l, hperm, hsublist⟩ := hsub
      exact (hperm.map _).nodup_iff.mp (hids.sublist (hsublist.map _))
    have hall' : ∀ p ∈ kept, Measures directions p.metrics :=
      fun p hp => hall p (hsub.subset hp)
    refine ⟨_, paretoFrontier_eq hids' hall', fun id => ?_⟩
    rw [mem_optimalIds, mem_optimalIds]
    refine exists_congr fun p => and_congr_left' ?_
    refine undominated_iff_of_subset (Dominates directions) hfinite hsub.subset ?_
    -- what is undominated among all points was not taken out
    intro o ho
    by_contra hmiss
    obtain ⟨o', ho', hdom⟩ := hgone o ho.1 hmiss
    exact ho.2 o' ho' hdom

end

def qualityAgainstCost : Dict String Direction := [("quality", .maximize), ("cost", .minimize)]

/-- `A` is good and dear, `B` cheap, and `C` worse than `A` on both counts. -/
def pointA : ParetoPoint ℚ := ⟨"A", [("quality", 47 / 50), ("cost", 9 / 500)]⟩
def pointB : ParetoPoint ℚ := ⟨"B", [("quality", 91 / 100), ("cost", 3 / 500)]⟩
def pointC : ParetoPoint ℚ := ⟨"C", [("quality", 4 / 5), ("cost", 1 / 50)]⟩

/-- Without `C`, and in the other order, the same points are optimal. -/
theorem paretoFrontier_exact_ABC :
    ∃ results, paretoFrontier [pointA, pointB, pointC] qualityAgainstCost = .ok results ∧
      (∃ r ∈ results, r.isParetoOptimal = true) ∧
      ∃ results', paretoFrontier [pointB, pointA] qualityAgainstCost = .ok results' ∧
        ∀ id, id ∈ optimalIds results' ↔ id ∈ optimalIds results := by
  have hall : ∀ p ∈ [pointA, pointB, pointC], Measures qualityAgainstCost p.metrics := by
    simp [Measures, Dict.keys, qualityAgainstCost, pointA, pointB, pointC]
  obtain ⟨results, hresults, -, hsome, -, hkept⟩ :=
    paretoFrontier_exact [pointA, pointB, pointC] qualityAgainstCost (by decide) hall
  have hC : Dominates qualityAgainstCost pointA pointC := by decide +kernel
  have hsub : List.Subperm [pointB, pointA] [pointA, pointB, pointC] :=
    ⟨[pointA, pointB], List.Perm.swap _ _ _, by simp⟩
  refine ⟨results, hresults, hsome (List.cons_ne_nil _ _), hkept _ hsub ?_⟩
  intro p hp hgone
  obtain rfl : p = pointC := by
    simp only [List.mem_cons, List.not_mem_nil, or_false] at hp hgone
    tauto
  exact ⟨pointA, List.mem_cons_self, hC⟩

end NeuroForge
