/-
  What listed weights mean, and when `build_objectives` gives it.

  `share` is the part of the whole a metric is to have: its listed weight, or its part of
  the rest. The shares are rounded, and a remainder of either sign goes to one metric. As
  long as the total of the weights is a finite float, the result is what the user asked for
  exactly under `RoundsToOne`: the others are the weightings with a remainder on a metric
  that is to have no share, or on one that is listed, or that drive a weight below zero,
  where the build is refused with the wrong error (`buildObjectives_raises`). Where the total
  is infinite all shares are computed as 0, and one metric gets the whole. Both together are
  `Settles` (`buildObjectives_honours_iff`).
-/
import Mathlib.Algebra.BigOperators.Ring.List
import NeuroForge.Experiments.Configure

namespace NeuroForge

open Fallible Rounding Shares

/-- Weights a user may list: known metrics, each once, with finite weights that are not
    negative and not all zero. -/
structure Weighting where
  weights : Dict String ℚ
  known : ∀ name ∈ Dict.keys weights, name ∈ objectiveNames
  once : (Dict.keys weights).Nodup
  nonneg : ∀ e ∈ weights, 0 ≤ e.2
  positive : 0 < (weights.map Prod.snd).sum

def defaultWeight (name : String) : ℚ :=
  match Dict.get? defaultObjectives.objectives name with
  | some objective => objective.weight
  | none => 0

namespace Weighting

variable (w : Weighting)

/-- The weights as the request has them. -/
def requested : Dict String RequestedWeight := w.weights.map fun e => (e.1, .finite e.2)

def total : ℚ := (w.weights.map Prod.snd).sum

def unlisted : List String := objectiveNames.filter fun name => name ∉ Dict.keys w.weights

def unlistedDefault : ℚ := (w.unlisted.map defaultWeight).sum

/-- A listed metric has its weight as its share, scaled down where the weights come to more
    than 1; the others have the rest in proportion to their defaults. -/
def share (name : String) : ℚ :=
  match Dict.get? w.weights name with
  | some weight => weight / max 1 w.total
  | none => defaultWeight name / w.unlistedDefault * (1 - w.total / max 1 w.total)

/-- What the code computes for it: 0, where the total is infinite. -/
def computedShare (name : String) : ℚ :=
  if w.total < overflowThreshold then w.share name else 0

/-- The objectives say what the listed weights mean. -/
structure HonouredBy (spec : ObjectiveSpec) : Prop where
  directions : (spec.objectives.map fun e => (e.1, e.2.direction)) =
    defaultObjectives.objectives.map fun e => (e.1, e.2.direction)
  sum : roundTo 6 (spec.objectives.map fun e => (e.2.weight : ℚ)).sum = 1
  listed : ∀ e ∈ spec.objectives, e.1 ∈ Dict.keys w.weights →
    (e.2.weight : ℚ) = roundTo 6 (w.share e.1)
  /-- six other shares are rounded, each by half a millionth at most -/
  proportional : ∀ e ∈ spec.objectives, e.1 ∉ Dict.keys w.weights →
    |(e.2.weight : ℚ) - w.share e.1| ≤ 6 * (1 / 2 / 10 ^ 6)
  filled : 1 ≤ w.total → ∀ e ∈ spec.objectives, e.1 ∉ Dict.keys w.weights →
    (e.2.weight : ℚ) = 0

/-- The shares as they round leave no remainder, or one that an unlisted metric can take. -/
def RoundsToOne : Prop :=
  roundedTotal 6 objectiveNames w.share = 1 ∨
    w.total < 1 ∧ ∃ name ∈ w.unlisted,
      roundedTotal 6 objectiveNames w.share ≤ 1 + roundTo 6 (w.share name)

/-- The total is a finite float and the shares round to 1; or it is infinite, every metric is
    listed and the first of them has everything but for the rounding. -/
def Settles : Prop :=
  w.total < overflowThreshold ∧ w.RoundsToOne ∨
    overflowThreshold ≤ w.total ∧ w.unlisted = [] ∧ roundTo 6 (w.share "quality") = 1

end Weighting

theorem defaultWeight_of_mem {e : String × Objective} (he : e ∈ defaultObjectives.objectives) :
    defaultWeight e.1 = e.2.weight := by
  unfold defaultWeight
  rw [Dict.get?_of_mem objectiveNames_nodup he]

theorem defaultWeight_pos {name : String} (h : name ∈ objectiveNames) :
    0 < defaultWeight name := by
  have hpos : ∀ name ∈ objectiveNames, 0 < defaultWeight name := by decide +kernel
  exact hpos name h

namespace Weighting

variable {w : Weighting}

theorem mem_unlisted {name : String} :
    name ∈ w.unlisted ↔ name ∈ objectiveNames ∧ name ∉ Dict.keys w.weights := by
  unfold unlisted
  rw [List.mem_filter, decide_eq_true_eq]

theorem total_pos : 0 < w.total := w.positive

theorem unlisted_defaults_nonneg : ∀ q ∈ w.unlisted.map defaultWeight, 0 ≤ q := by
  intro q hq
  obtain ⟨name, hname, rfl⟩ := List.mem_map.mp hq
  exact (defaultWeight_pos (mem_unlisted.mp hname).1).le

theorem unlistedDefault_nonneg : 0 ≤ w.unlistedDefault := List.sum_nonneg unlisted_defaults_nonneg

theorem unlistedDefault_pos {name : String} (h : name ∈ w.unlisted) : 0 < w.unlistedDefault := by
  have hle : defaultWeight name ≤ w.unlistedDefault :=
    List.single_le_sum unlisted_defaults_nonneg _ (List.mem_map_of_mem h)
  exact (defaultWeight_pos (mem_unlisted.mp h).1).trans_le hle

theorem rest_nonneg : 0 ≤ 1 - w.total / max 1 w.total := by
  have hpos : (0 : ℚ) < max 1 w.total := lt_max_of_lt_left one_pos
  have hle : w.total / max 1 w.total ≤ 1 := (div_le_one hpos).mpr (le_max_right _ _)
  linarith

theorem share_of_listed {e : String × ℚ} (he : e ∈ w.weights) :
    w.share e.1 = e.2 / max 1 w.total := by
  unfold share
  rw [Dict.get?_of_mem w.once he]

theorem share_of_unlisted {name : String} (h : name ∈ w.unlisted) :
    w.share name =
      defaultWeight name / w.unlistedDefault * (1 - w.total / max 1 w.total) := by
  unfold share
  rw [Dict.get?_eq_none.mpr (mem_unlisted.mp h).2]

theorem share_of_full (h : 1 ≤ w.total) (name : String) :
    w.share name =
      match Dict.get? w.weights name with
      | some weight => weight / w.total
      | none => 0 := by
  unfold share
  rw [max_eq_right h, div_self total_pos.ne', sub_self]
  simp only [mul_zero]

theorem share_of_room (h : w.total < 1) (name : String) :
    w.share name =
      match Dict.get? w.weights name with
      | some weight => weight
      | none => defaultWeight name / w.unlistedDefault * (1 - w.total) := by
  unfold share
  rw [max_eq_left h.le]
  simp only [div_one]

theorem share_nonneg {name : String} (h : name ∈ objectiveNames) : 0 ≤ w.share name := by
  by_cases hlisted : name ∈ Dict.keys w.weights
  · obtain ⟨e, he, rfl⟩ := List.mem_map.mp hlisted
    rw [share_of_listed he]
    exact div_nonneg (w.nonneg e he) (le_max_of_le_left zero_le_one)
  · have hunlisted := mem_unlisted.mpr ⟨h, hlisted⟩
    rw [share_of_unlisted hunlisted]
    exact mul_nonneg (div_nonneg (defaultWeight_pos h).le unlistedDefault_nonneg) rest_nonneg

/-- The listed shares come to what the listed weights are of the whole. -/
theorem sum_share_listed :
    ((objectiveNames.filter fun name => name ∈ Dict.keys w.weights).map w.share).sum =
      w.total / max 1 w.total := by
  have hperm : (objectiveNames.filter fun name => name ∈ Dict.keys w.weights).Perm
      (Dict.keys w.weights) := by
    rw [List.perm_ext_iff_of_nodup (objectiveNames_nodup.filter _) w.once]
    intro name
    rw [List.mem_filter, decide_eq_true_eq, and_iff_right_iff_imp]
    exact w.known name
  have hmap : (Dict.keys w.weights).map w.share =
      w.weights.map fun e => e.2 * (max 1 w.total)⁻¹ := by
    unfold Dict.keys
    rw [List.map_map]
    refine List.map_congr_left ?_
    intro e he
    rw [Function.comp_apply, share_of_listed he, div_eq_mul_inv]
  rw [(hperm.map w.share).sum_eq, hmap, List.sum_map_mul_right, div_eq_mul_inv]
  rfl

/-- The other shares come to the rest, if there are others. -/
theorem sum_share_unlisted : (w.unlisted.map w.share).sum =
    w.unlistedDefault / w.unlistedDefault * (1 - w.total / max 1 w.total) := by
  have hmap : w.unlisted.map w.share = w.unlisted.map fun name => defaultWeight name *
      (w.unlistedDefault⁻¹ * (1 - w.total / max 1 w.total)) := by
    refine List.map_congr_left ?_
    intro name hname
    rw [share_of_unlisted hname, div_eq_mul_inv, mul_assoc]
  rw [hmap, List.sum_map_mul_right, ← mul_assoc, div_eq_mul_inv]
  rfl

theorem sum_share : (objectiveNames.map w.share).sum =
    w.total / max 1 w.total +
      w.unlistedDefault / w.unlistedDefault * (1 - w.total / max 1 w.total) := by
  have hperm := List.filter_append_perm (fun name => decide (name ∈ Dict.keys w.weights))
    objectiveNames
  have hsplit := (hperm.map w.share).sum_eq
  rw [List.map_append, List.sum_append, sum_share_listed] at hsplit
  have hunlisted : objectiveNames.filter (fun name => !decide (name ∈ Dict.keys w.weights)) =
      w.unlisted := by
    unfold unlisted
    simp only [decide_not]
  rw [hunlisted, sum_share_unlisted] at hsplit
  exact hsplit.symm

theorem sum_share_eq_one {name : String} (h : name ∈ w.unlisted) :
    (objectiveNames.map w.share).sum = 1 := by
  rw [sum_share, div_self (unlistedDefault_pos h).ne', one_mul]
  ring

theorem share_le_one {name : String} (h : name ∈ objectiveNames) : w.share name ≤ 1 := by
  have hle : w.share name ≤ (objectiveNames.map w.share).sum := by
    refine List.single_le_sum ?_ _ (List.mem_map_of_mem h)
    intro q hq
    obtain ⟨name, hname, rfl⟩ := List.mem_map.mp hq
    exact share_nonneg hname
  have hrest := mul_le_mul_of_nonneg_right (div_self_le_one w.unlistedDefault)
    (rest_nonneg (w := w))
  rw [sum_share] at hle
  linarith

theorem computedShare_of_finite (h : w.total < overflowThreshold) :
    w.computedShare = w.share := funext fun _ => if_pos h

theorem computedShare_of_infinite (h : overflowThreshold ≤ w.total) (name : String) :
    w.computedShare name = 0 := if_neg h.not_gt

theorem computedShare_nonneg {name : String} (h : name ∈ objectiveNames) :
    0 ≤ w.computedShare name := by
  unfold computedShare
  split_ifs
  · exact share_nonneg h
  · exact le_refl 0

theorem computedShare_le_one {name : String} (h : name ∈ objectiveNames) :
    w.computedShare name ≤ 1 := by
  unfold computedShare
  split_ifs
  · exact share_le_one h
  · exact zero_le_one

theorem one_lt_overflowThreshold : (1 : ℚ) < overflowThreshold := by decide +kernel

theorem pinnedTotal_of_finite (h : w.total < overflowThreshold) :
    pinnedTotal w.weights = (w.total : WithTop ℚ) := if_pos h

theorem pinnedTotal_of_infinite (h : overflowThreshold ≤ w.total) :
    pinnedTotal w.weights = ⊤ := if_neg h.not_gt

theorem pinnedTotal_pos : 0 < pinnedTotal w.weights := by
  rcases lt_or_ge w.total overflowThreshold with hfinite | hinfinite
  · rw [pinnedTotal_of_finite hfinite]
    exact WithTop.coe_pos.mpr total_pos
  · rw [pinnedTotal_of_infinite hinfinite]
    exact WithTop.top_pos

/-- The code weighs every metric by its share. -/
theorem unroundedWeights_of_finite (hfinite : w.total < overflowThreshold) :
    unroundedWeights w.weights = objectiveNames.map fun name => (name, w.share name) := by
  have hothers : ((defaultObjectives.objectives.filter fun e =>
      e.1 ∉ Dict.keys w.weights).map fun e => (e.2.weight : ℚ)).sum = w.unlistedDefault := by
    unfold unlistedDefault unlisted objectiveNames Dict.keys
    rw [List.filter_map, List.map_map]
    congr 1
    refine List.map_congr_left ?_
    intro e he
    exact (defaultWeight_of_mem (List.mem_of_mem_filter he)).symm
  unfold unroundedWeights
  rw [pinnedTotal_of_finite hfinite]
  simp only [hothers]
  unfold objectiveNames Dict.keys
  rw [List.map_map]
  rcases le_or_gt 1 w.total with htotal | htotal
  · rw [if_pos htotal]
    refine List.map_congr_left ?_
    intro e he
    exact congrArg (Prod.mk e.1) (share_of_full htotal e.1).symm
  · rw [if_neg htotal.not_ge]
    refine List.map_congr_left ?_
    intro e he
    refine congrArg (Prod.mk e.1) ?_
    rw [share_of_room htotal, defaultWeight_of_mem he]
    cases Dict.get? w.weights e.1 with
    | some weight => rfl
    | none =>
        by_cases hzero : w.unlistedDefault = 0
        · simp [hzero]
        · rw [if_neg hzero]

theorem unroundedWeights_eq : unroundedWeights w.weights =
    objectiveNames.map fun name => (name, w.computedShare name) := by
  rcases lt_or_ge w.total overflowThreshold with hfinite | hinfinite
  · rw [unroundedWeights_of_finite hfinite, computedShare_of_finite hfinite]
  · unfold unroundedWeights
    rw [pinnedTotal_of_infinite hinfinite]
    simp only [computedShare_of_infinite hinfinite]
    unfold objectiveNames Dict.keys
    rw [List.map_map]
    rfl

end Weighting

/-! ## What the code builds -/

namespace Weighting

variable {w : Weighting} {spare : String}

/-- The rounded shares with the remainder on `spare`. -/
def settledWeights (w : Weighting) (spare : String) : Dict String ℚ :=
  objectiveNames.map fun name => (name, settled 6 objectiveNames w.computedShare spare name)

theorem finite_requested :
    (w.requested.mapM fun e => e.2.value?.map fun q => (e.1, q)) = some w.weights := by
  unfold requested
  induction w.weights with
  | nil => rfl
  | cons e weights ih =>
      rw [List.map_cons, List.mapM_cons, ih]
      rfl

theorem keys_requested : Dict.keys w.requested = Dict.keys w.weights := by
  unfold Dict.keys requested
  rw [List.map_map]
  rfl

theorem requested_ne_nil : w.requested ≠ [] := by
  intro hnil
  have hpositive := w.positive
  unfold requested at hnil
  rw [List.map_eq_nil_iff.mp hnil] at hpositive
  exact absurd hpositive (lt_irrefl 0)

/-- The remainder of shares that are all 0 is the whole, and it goes to the first of the
    metrics if all are listed. -/
theorem withRemainder_infinite (hinfinite : overflowThreshold ≤ w.total)
    (hall : w.unlisted = []) :
    withRemainder (Dict.keys w.weights)
        (objectiveNames.map fun name => (name, w.computedShare name)) =
      w.settledWeights "quality" := by
  have hzero : w.computedShare = fun _ => 0 :=
    funext fun name => computedShare_of_infinite hinfinite name
  have hnames : Dict.keys ((objectiveNames.map fun name => (name, (0 : ℚ))).map fun e =>
      (e.1, roundTo 6 e.2)) = objectiveNames := by
    decide +kernel
  unfold withRemainder settledWeights
  rw [hzero]
  dsimp only
  rw [hnames]
  unfold unlisted at hall
  rw [hall, if_pos rfl]
  decide +kernel

variable (w) in
/-- No check refuses the weights: what is left to fail is the validation of the result. -/
theorem buildObjectives_eq : ∃ spare ∈ objectiveNames,
    (∀ name ∈ w.unlisted, spare ∈ w.unlisted ∧
      roundTo 6 (w.computedShare name) ≤ roundTo 6 (w.computedShare spare)) ∧
    (overflowThreshold ≤ w.total → w.unlisted = [] → spare = "quality") ∧
    buildObjectives (some w.requested) =
      (validateObjectives (w.settledWeights spare) >>= ObjectiveSpec.validate).mapError
        .validation := by
  have hbuild : buildObjectives (some w.requested) =
      (validateObjectives (withRemainder (Dict.keys w.weights)
        (objectiveNames.map fun name => (name, w.computedShare name))) >>=
          ObjectiveSpec.validate).mapError .validation := by
    have hknown : (Dict.keys w.requested).filter (fun name => name ∉ objectiveNames) = [] := by
      rw [keys_requested, List.filter_eq_nil_iff]
      intro name hname
      simpa using w.known name hname
    have hnonneg : ¬ ∃ e ∈ w.weights, e.2 < 0 := by
      rintro ⟨e, he, hneg⟩
      exact absurd (w.nonneg e he) hneg.not_ge
    unfold buildObjectives
    simp only [Option.getD_some]
    rw [if_neg requested_ne_nil, hknown, if_neg (not_not.mpr rfl), finite_requested]
    simp only [if_neg hnonneg]
    rw [if_neg pinnedTotal_pos.not_ge, unroundedWeights_eq]
  rw [hbuild]
  by_cases hfirst : overflowThreshold ≤ w.total ∧ w.unlisted = []
  · refine ⟨"quality", by decide, ?_, fun _ _ => rfl, ?_⟩
    · intro name hname
      rw [hfirst.2] at hname
      cases hname
    · rw [withRemainder_infinite hfirst.1 hfirst.2]
  · obtain ⟨spare, hspare, hlargest, hremainder⟩ :=
      withRemainder_tabulate (Dict.keys w.weights) w.computedShare
    refine ⟨spare, hspare, ?_, fun hinfinite hall => absurd ⟨hinfinite, hall⟩ hfirst, ?_⟩
    · intro name hname
      obtain ⟨hname, hpinned⟩ := mem_unlisted.mp hname
      obtain ⟨hspare', hle⟩ := hlargest name hname hpinned
      exact ⟨mem_unlisted.mpr ⟨hspare, hspare'⟩, hle⟩
    · rw [hremainder]
      rfl

theorem sum_settledWeights (hspare : spare ∈ objectiveNames) :
    ((w.settledWeights spare).map Prod.snd).sum = 1 := by
  unfold settledWeights
  rw [List.map_map]
  exact sum_settled objectiveNames_nodup hspare

theorem settled_bounds_iff (hspare : spare ∈ objectiveNames) :
    (∀ e ∈ w.settledWeights spare, 0 ≤ e.2 ∧ e.2 ≤ 1) ↔
      roundedTotal 6 objectiveNames w.computedShare ≤ 1 + roundTo 6 (w.computedShare spare) := by
  rw [← settled_mem_iff hspare fun name hname => computedShare_nonneg hname]
  constructor
  · intro h
    have hspared := h _ (List.mem_map_of_mem hspare)
    exact hspared
  · intro h e he
    obtain ⟨name, hname, rfl⟩ := List.mem_map.mp he
    by_cases hself : name = spare
    · rwa [hself]
    · rw [settled_of_ne hself]
      exact ⟨roundTo_nonneg 6 (computedShare_nonneg hname),
        roundTo_le_one 6 (computedShare_le_one hname)⟩

/-- The spec has the settled weights, and the directions of the defaults. -/
structure SettledOn (w : Weighting) (spare : String) (spec : ObjectiveSpec) : Prop where
  weights : (spec.objectives.map fun e => (e.1, (e.2.weight : ℚ))) = w.settledWeights spare
  directions : (spec.objectives.map fun e => (e.1, e.2.direction)) =
    defaultObjectives.objectives.map fun e => (e.1, e.2.direction)

theorem sum_of_settled {objectives : Dict String Objective} (hspare : spare ∈ objectiveNames)
    (hweights : (objectives.map fun e => (e.1, (e.2.weight : ℚ))) = w.settledWeights spare) :
    (objectives.map fun e => (e.2.weight : ℚ)).sum = 1 := by
  have hvalues := congrArg (fun final => (final.map Prod.snd).sum) hweights
  rw [List.map_map] at hvalues
  exact hvalues.trans (sum_settledWeights hspare)

/-- The validation passes as long as the remainder leaves `spare` a weight. -/
theorem validated_of_le (hspare : spare ∈ objectiveNames)
    (h : roundedTotal 6 objectiveNames w.computedShare ≤
      1 + roundTo 6 (w.computedShare spare)) :
    ∃ spec, validateObjectives (w.settledWeights spare) >>= ObjectiveSpec.validate = .ok spec ∧
      w.SettledOn spare spec := by
  obtain ⟨objectives, hok, hweights, hdirections⟩ :=
    validateObjectives_of_bounds ((settled_bounds_iff hspare).mpr h)
  have hvalid : 99 / 100 ≤ (objectives.map fun e => (e.2.weight : ℚ)).sum ∧
      (objectives.map fun e => (e.2.weight : ℚ)).sum ≤ 101 / 100 := by
    rw [sum_of_settled hspare hweights]
    norm_num
  refine ⟨⟨objectives, hvalid⟩, ?_, hweights, ?_⟩
  · rw [hok, ok_bind]
    exact dif_pos hvalid
  · rw [hdirections]
    unfold settledWeights objectiveNames Dict.keys
    rw [List.map_map, List.map_map]
    refine List.map_congr_left ?_
    intro e he
    exact congrArg (Prod.mk e.1) (defaultDirection_of_mem he)

theorem raised_of_not_le (hspare : spare ∈ objectiveNames)
    (h : ¬ roundedTotal 6 objectiveNames w.computedShare ≤
      1 + roundTo 6 (w.computedShare spare)) :
    validateObjectives (w.settledWeights spare) >>= ObjectiveSpec.validate =
      .error ⟨"weight", "input should be between 0 and 1"⟩ := by
  have hbounds : ∃ e ∈ w.settledWeights spare, ¬ (0 ≤ e.2 ∧ e.2 ≤ 1) := by
    by_contra hnone
    refine h ((settled_bounds_iff hspare).mp ?_)
    intro e he
    by_contra hout
    exact hnone ⟨e, he, hout⟩
  rw [validateObjectives_of_out_of_bounds hbounds]
  rfl

theorem RoundsToOne.le_of_largest (h : w.RoundsToOne) (hspare : spare ∈ objectiveNames)
    (hlargest : ∀ name ∈ w.unlisted, roundTo 6 (w.share name) ≤ roundTo 6 (w.share spare)) :
    roundedTotal 6 objectiveNames w.share ≤ 1 + roundTo 6 (w.share spare) := by
  rcases h with hexact | ⟨-, name, hname, hle⟩
  · have hnonneg := roundTo_nonneg 6 (share_nonneg (w := w) hspare)
    linarith
  · have hshare := hlargest name hname
    linarith

/-- Listed weights that leave 28 millionths or more to the others are honoured. -/
theorem roundsToOne_of_room {name : String} (hname : name ∈ w.unlisted)
    (h : w.total + 28 / 10 ^ 6 ≤ 1) : w.RoundsToOne := by
  have htotal : w.total < 1 := by linarith
  -- the seven metrics share what is left, so one of the unlisted ones has a seventh of it
  have hseventh : ∃ name ∈ w.unlisted, (1 - w.total) / 7 ≤ w.share name := by
    refine List.exists_le_of_sum_le (fun hnil => ?_) (fun _ => (1 - w.total) / 7) w.share ?_
    · rw [hnil] at hname
      cases hname
    · have hlength : w.unlisted.length ≤ 7 := List.length_filter_le _ objectiveNames
      have hcast : (w.unlisted.length : ℚ) ≤ 7 := by exact_mod_cast hlength
      have hroom : 0 ≤ (1 - w.total) / 7 := by linarith
      have hmul := mul_le_mul_of_nonneg_right hcast hroom
      rw [sum_share_unlisted, div_self (unlistedDefault_pos hname).ne', max_eq_left htotal.le,
        List.map_const', List.sum_replicate, nsmul_eq_mul]
      linarith
  obtain ⟨name, hname, hshare⟩ := hseventh
  have hround := abs_le.mp (abs_roundTo_sub_le 6 (w.share name))
  have hsum := abs_le.mp (abs_roundedTotal_sub_le 6 objectiveNames w.share)
  rw [sum_share_eq_one hname] at hsum
  have hlength : objectiveNames.length = 7 := rfl
  rw [hlength, Nat.cast_ofNat] at hsum
  refine .inr ⟨htotal, name, hname, ?_⟩
  linarith [hround.1, hsum.2]

/-- Where the listed weights fill the total the others have no share. -/
theorem share_of_full_of_unlisted (h : 1 ≤ w.total) {name : String}
    (hname : name ∉ Dict.keys w.weights) : w.share name = 0 := by
  rw [share_of_full h, Dict.get?_eq_none.mpr hname]

/-- Where one share rounds to 1 the others round to nothing. -/
theorem roundTo_share_of_whole {name : String} (hwhole : roundTo 6 (w.share spare) = 1)
    (hspare : spare ∈ objectiveNames) (hname : name ∈ objectiveNames) (hne : name ≠ spare) :
    roundTo 6 (w.share name) = 0 := by
  have hnear := (abs_le.mp (abs_roundTo_sub_le 6 (w.share spare))).2
  rw [hwhole] at hnear
  have hsum : (objectiveNames.map w.share).sum ≤ 1 := by
    have hrest := mul_le_mul_of_nonneg_right (div_self_le_one w.unlistedDefault)
      (rest_nonneg (w := w))
    rw [sum_share]
    linarith
  have hpair : w.share name + w.share spare ≤ (objectiveNames.map w.share).sum := by
    rw [← List.sum_map_erase w.share hspare, add_comm]
    have hmem : name ∈ objectiveNames.erase spare := (List.mem_erase_of_ne hne).mpr hname
    refine add_le_add_right (List.single_le_sum ?_ _ (List.mem_map_of_mem hmem)) _
    intro q hq
    obtain ⟨other, hother, rfl⟩ := List.mem_map.mp hq
    exact share_nonneg (List.mem_of_mem_erase hother)
  have hhalf : roundTo 6 (1 / 2 / 10 ^ 6) = 0 := by decide +kernel
  refine le_antisymm ?_ (roundTo_nonneg 6 (share_nonneg hname))
  rw [← hhalf]
  exact roundTo_mono 6 (by linarith)

namespace SettledOn

variable {spec : ObjectiveSpec}

theorem weight (h : w.SettledOn spare spec) {e : String × Objective}
    (he : e ∈ spec.objectives) :
    (e.2.weight : ℚ) = settled 6 objectiveNames w.computedShare spare e.1 := by
  have hmem : (e.1, (e.2.weight : ℚ)) ∈ w.settledWeights spare := by
    rw [← h.weights]
    exact List.mem_map_of_mem he
  obtain ⟨name, -, heq⟩ := List.mem_map.mp hmem
  obtain ⟨hfst, hsnd⟩ := Prod.mk.inj heq
  rw [← hfst, ← hsnd]

theorem exists_spare (h : w.SettledOn spare spec) (hspare : spare ∈ objectiveNames) :
    ∃ e ∈ spec.objectives, e.1 = spare := by
  have hmem : (spare, settled 6 objectiveNames w.computedShare spare spare) ∈
      w.settledWeights spare := List.mem_map_of_mem hspare
  rw [← h.weights] at hmem
  obtain ⟨e, he, heq⟩ := List.mem_map.mp hmem
  exact ⟨e, he, (Prod.mk.inj heq).1⟩

theorem roundTo_sum (h : w.SettledOn spare spec) (hspare : spare ∈ objectiveNames) :
    roundTo 6 (spec.objectives.map fun e => (e.2.weight : ℚ)).sum = 1 := by
  rw [sum_of_settled hspare h.weights]
  exact roundTo_of_mem_decimals (one_mem_decimals 6)

/-- Without a remainder every metric has its rounded share. -/
theorem honouredBy_of_exact (h : w.SettledOn spare spec) (hspare : spare ∈ objectiveNames)
    (hfinite : w.total < overflowThreshold)
    (hexact : roundedTotal 6 objectiveNames w.share = 1) : w.HonouredBy spec := by
  have hweight : ∀ e ∈ spec.objectives, (e.2.weight : ℚ) = roundTo 6 (w.share e.1) := by
    intro e he
    rw [h.weight he, computedShare_of_finite hfinite, settled_of_exact hexact]
  refine ⟨h.directions, h.roundTo_sum hspare, ?_, ?_, ?_⟩
  · intro e he _
    exact hweight e he
  · intro e he _
    rw [hweight e he]
    calc |roundTo 6 (w.share e.1) - w.share e.1| ≤ 1 / 2 / 10 ^ 6 := abs_roundTo_sub_le 6 _
      _ ≤ 6 * (1 / 2 / 10 ^ 6) := by norm_num
  · intro htotal e he hunlisted
    rw [hweight e he, share_of_full_of_unlisted htotal hunlisted, roundTo_zero]

/-- A remainder on an unlisted metric is within the rounding, and no listed one is touched. -/
theorem honouredBy_of_room (h : w.SettledOn spare spec) (hspare : spare ∈ w.unlisted)
    (htotal : w.total < 1) : w.HonouredBy spec := by
  have hfinite := computedShare_of_finite (htotal.trans one_lt_overflowThreshold)
  obtain ⟨hname, hpinned⟩ := mem_unlisted.mp hspare
  refine ⟨h.directions, h.roundTo_sum hname, ?_, ?_, ?_⟩
  · intro e he hlisted
    have hne : e.1 ≠ spare := by
      intro heq
      exact hpinned (heq ▸ hlisted)
    rw [h.weight he, hfinite, settled_of_ne hne]
  · intro e he _
    rw [h.weight he, hfinite]
    exact abs_settled_sub_le hname (by decide) (sum_share_eq_one hspare)
  · intro hfull
    exact absurd htotal hfull.not_gt

/-- The remainder shows on the metric that has it, unless there is room for it. -/
theorem honouredBy_iff_of_finite (h : w.SettledOn spare spec) (hspare : spare ∈ objectiveNames)
    (hfinite : w.total < overflowThreshold)
    (hunlisted : ∀ name ∈ w.unlisted, spare ∈ w.unlisted)
    (hle : roundedTotal 6 objectiveNames w.share ≤ 1 + roundTo 6 (w.share spare)) :
    w.HonouredBy spec ↔ w.RoundsToOne := by
  constructor
  · intro honoured
    obtain ⟨e, he, rfl⟩ := h.exists_spare hspare
    have hweight := h.weight he
    rw [settled_self, computedShare_of_finite hfinite] at hweight
    by_cases hpinned : e.1 ∈ Dict.keys w.weights
    · have hlisted := honoured.listed e he hpinned
      left
      linarith
    · rcases lt_or_ge w.total 1 with htotal | htotal
      · exact .inr ⟨htotal, e.1, mem_unlisted.mpr ⟨hspare, hpinned⟩, hle⟩
      · have hfilled := honoured.filled htotal e he hpinned
        rw [share_of_full_of_unlisted htotal hpinned, roundTo_zero] at hweight
        left
        linarith
  · rintro (hexact | ⟨htotal, name, hname, -⟩)
    · exact h.honouredBy_of_exact hspare hfinite hexact
    · exact h.honouredBy_of_room (hunlisted name hname) htotal

/-- Where the total is infinite one metric has the whole. -/
theorem weight_of_infinite (h : w.SettledOn spare spec)
    (hinfinite : overflowThreshold ≤ w.total) {e : String × Objective}
    (he : e ∈ spec.objectives) : (e.2.weight : ℚ) = if e.1 = spare then 1 else 0 := by
  have hzero : roundedTotal 6 objectiveNames w.computedShare = 0 := by
    unfold roundedTotal
    simp only [computedShare_of_infinite hinfinite, roundTo_zero]
    decide +kernel
  rw [h.weight he, settled, computedShare_of_infinite hinfinite, hzero, roundTo_zero, zero_add,
    sub_zero]

/-- That is right if all metrics are listed, and this one comes to 1 by its own. -/
theorem honouredBy_iff_of_infinite (h : w.SettledOn spare spec) (hspare : spare ∈ objectiveNames)
    (hinfinite : overflowThreshold ≤ w.total)
    (hunlisted : ∀ name ∈ w.unlisted, spare ∈ w.unlisted) :
    w.HonouredBy spec ↔ w.unlisted = [] ∧ roundTo 6 (w.share spare) = 1 := by
  have hfull : 1 ≤ w.total := one_lt_overflowThreshold.le.trans hinfinite
  obtain ⟨e, he, hname⟩ := h.exists_spare hspare
  have hwhole := h.weight_of_infinite hinfinite he
  rw [if_pos hname] at hwhole
  constructor
  · intro honoured
    by_cases hpinned : spare ∈ Dict.keys w.weights
    · refine ⟨List.eq_nil_iff_forall_not_mem.mpr fun name hmem => ?_, ?_⟩
      · exact (mem_unlisted.mp (hunlisted name hmem)).2 hpinned
      · rw [← hname, ← honoured.listed e he (hname ▸ hpinned), hwhole]
    · -- an unlisted metric is to have nothing
      have hnone := honoured.filled hfull e he (hname ▸ hpinned)
      rw [hwhole] at hnone
      exact absurd hnone one_ne_zero
  · rintro ⟨hall, hround⟩
    have hlisted : ∀ name ∈ objectiveNames, name ∈ Dict.keys w.weights := by
      intro name hname
      by_contra hpinned
      exact List.not_mem_nil (hall ▸ mem_unlisted.mpr ⟨hname, hpinned⟩)
    have hknown : ∀ e ∈ spec.objectives, e.1 ∈ objectiveNames := by
      intro e he
      have hmem : (e.1, (e.2.weight : ℚ)) ∈ w.settledWeights spare := by
        rw [← h.weights]
        exact List.mem_map_of_mem he
      obtain ⟨name, hname, heq⟩ := List.mem_map.mp hmem
      rw [← (Prod.mk.inj heq).1]
      exact hname
    refine ⟨h.directions, h.roundTo_sum hspare, ?_, ?_, ?_⟩
    · intro e he _
      rw [h.weight_of_infinite hinfinite he]
      split_ifs with hself
      · rw [hself, hround]
      · exact (roundTo_share_of_whole hround hspare (hknown e he) hself).symm
    · intro e he hpinned
      exact absurd (hlisted e.1 (hknown e he)) hpinned
    · intro _ e he hpinned
      exact absurd (hlisted e.1 (hknown e he)) hpinned

end SettledOn

end Weighting

/-- Where no unlisted metric can bear what the rounding has too much, the build fails, and not
    with a `ConfigError`. -/
theorem buildObjectives_raises {w : Weighting} {name : String} (hname : name ∈ w.unlisted)
    (hfinite : w.total < overflowThreshold)
    (h : ∀ name ∈ w.unlisted,
      1 + roundTo 6 (w.share name) < roundedTotal 6 objectiveNames w.share) :
    buildObjectives (some w.requested) =
      .error (.validation ⟨"weight", "input should be between 0 and 1"⟩) := by
  obtain ⟨spare, hspare, hlargest, -, hbuild⟩ := w.buildObjectives_eq
  have hnot := (h spare (hlargest name hname).1).not_ge
  rw [← Weighting.computedShare_of_finite hfinite] at hnot
  rw [hbuild, Weighting.raised_of_not_le hspare hnot]
  rfl

/-- Two weights whose total is infinite get nothing, and a metric that is not listed gets the
    whole. -/
example : (buildObjectives
    (some [("quality", .finite (10 ^ 308)), ("cost_usd", .finite (10 ^ 308))])).toOption.map
      (fun spec => spec.objectives.map fun e => (e.1, (e.2.weight : ℚ))) =
    some [("quality", 0), ("task_success", 1), ("policy_compliance", 0), ("safety_score", 0),
      ("latency_ms", 0), ("cost_usd", 0), ("failure_rate", 0)] := by decide +kernel

/-- Six of the seven metrics, all with the same weight. -/
def Weighting.sixAlike : Weighting where
  weights := [("quality", 1), ("task_success", 1), ("policy_compliance", 1),
    ("safety_score", 1), ("latency_ms", 1), ("cost_usd", 1)]
  known := by decide
  once := by decide
  nonneg := by decide
  positive := by norm_num

end NeuroForge
