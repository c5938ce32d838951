/-
  `experiments/configure.py`: the objectives of an experiment whose user lists some weights.

  The shares are rounded one by one, and one metric takes what the rounding leaves
  (`withRemainder_tabulate`). The metrics are validated as they are built.

  Weights are exact, but their total is a float: from `overflowThreshold` on it is infinite.
-/
import Mathlib.Data.List.MinMax
import Mathlib.Data.List.Sort
import Mathlib.Order.WithBot
import NeuroForge.Evaluation.Objectives
import NeuroForge.Lib.Fallible
import NeuroForge.Lib.Shares

namespace NeuroForge

open Fallible Rounding Shares

/-- A weight as a user sends it; `math.isfinite` has one answer for the rest. -/
inductive RequestedWeight where
  | finite (w : ℚ)
  | notFinite
  deriving DecidableEq

def RequestedWeight.value? : RequestedWeight → Option ℚ
  | .finite w => some w
  | .notFinite => none

inductive ConfigError where
  | unknownObjectives (unknown known : List String)
  | message (text : String)
  deriving DecidableEq

/-- What `build_objectives` raises: its own error, or the one of the model it builds. -/
inductive ObjectivesError where
  | config (error : ConfigError)
  | validation (error : FieldError)
  deriving DecidableEq

/-- The metrics that have a default weight. -/
def objectiveNames : List String := Dict.keys defaultObjectives.objectives

/-- `defaults[name].direction`; every name asked for is one of the defaults. -/
def defaultDirection (name : String) : Direction :=
  match Dict.get? defaultObjectives.objectives name with
  | some objective => objective.direction
  | none => .maximize

/-- The midpoint above the largest float: a number from here on rounds to the infinite one. -/
def overflowThreshold : ℚ := 2 ^ 1024 - 2 ^ 970

/-- `sum(weights.values())`; `⊤` is the infinite float. -/
def pinnedTotal (weights : Dict String ℚ) : WithTop ℚ :=
  let total := (weights.map Prod.snd).sum
  if total < overflowThreshold then total else ⊤

/-- The weights before they are rounded. -/
def unroundedWeights (weights : Dict String ℚ) : Dict String ℚ :=
  let defaults := defaultObjectives.objectives
  match pinnedTotal weights with
  -- a weight divided by the infinite float is 0
  | ⊤ => defaults.map fun e => (e.1, 0)
  | (pinnedTotal : ℚ) =>
      if 1 ≤ pinnedTotal then
        defaults.map fun e => (e.1,
          match Dict.get? weights e.1 with
          | some w => w / pinnedTotal
          | none => 0)
      else
        let others := defaults.filter fun e => e.1 ∉ Dict.keys weights
        let othersTotal := (others.map fun e => (e.2.weight : ℚ)).sum
        let room := 1 - pinnedTotal
        defaults.map fun e => (e.1,
          match Dict.get? weights e.1 with
          | some w => w
          | none => if othersTotal = 0 then 0 else e.2.weight / othersTotal * room)

/-- The weights rounded, and what the rounding leaves put on the largest that is not
    pinned. -/
def withRemainder (pinned : List String) (unrounded : Dict String ℚ) : Dict String ℚ :=
  let final := unrounded.map fun e => (e.1, roundTo 6 e.2)
  let drift := roundTo 6 (1 - (final.map Prod.snd).sum)
  let unpinned := (Dict.keys final).filter fun name => name ∉ pinned
  let adjustable := if unpinned = [] then Dict.keys final else unpinned
  -- `max` of the names; there always are some
  match adjustable.argmax fun name => Dict.getD final name 0 with
  | some name => Dict.set final name (Dict.getD final name 0 + drift)
  | none => final

def validateObjectives (final : Dict String ℚ) : Except FieldError (Dict String Objective) :=
  final.mapM fun e => do
    let objective ← Objective.validate (defaultDirection e.1) e.2
    return (e.1, objective)

def buildObjectives (weights : Option (Dict String RequestedWeight)) :
    Except ObjectivesError ObjectiveSpec :=
  let requested := weights.getD []
  let unknown := (Dict.keys requested).filter fun name => name ∉ objectiveNames
  if requested = [] then .ok defaultObjectives
  else if unknown ≠ [] then
    .error (.config (.unknownObjectives (unknown.insertionSort (· ≤ ·))
      (objectiveNames.insertionSort (· ≤ ·))))
  else
    match requested.mapM fun e => e.2.value?.map fun w => (e.1, w) with
    | none => .error (.config (.message "objective weights must be finite numbers"))
    | some weights =>
        if ∃ e ∈ weights, e.2 < 0 then
          .error (.config (.message "objective weights must be >= 0"))
        else if pinnedTotal weights ≤ 0 then
          .error (.config (.message "at least one objective weight must be positive"))
        else
          let final := withRemainder (Dict.keys weights) (unroundedWeights weights)
          (validateObjectives final >>= ObjectiveSpec.validate).mapError .validation

theorem objectiveNames_nodup : objectiveNames.Nodup := by decide

theorem defaultDirection_of_mem {e : String × Objective}
    (he : e ∈ defaultObjectives.objectives) : defaultDirection e.1 = e.2.direction := by
  unfold defaultDirection
  rw [Dict.get?_of_mem objectiveNames_nodup he]

theorem exists_argmax {names : List String} (value : String → ℚ) (h : names ≠ []) :
    ∃ spare ∈ names, (∀ name ∈ names, value name ≤ value spare) ∧
      names.argmax value = some spare := by
  cases hargmax : names.argmax value with
  | none => exact absurd (List.argmax_eq_none.mp hargmax) h
  | some spare =>
      exact ⟨spare, List.argmax_mem hargmax, fun name hname =>
        List.le_of_mem_argmax hname hargmax, rfl⟩

theorem exists_argmax_adjustable (pinned : List String) (value : String → ℚ) :
    ∃ spare ∈ objectiveNames,
      (∀ name ∈ objectiveNames, name ∉ pinned → spare ∉ pinned ∧ value name ≤ value spare) ∧
      (if (objectiveNames.filter fun name => name ∉ pinned) = [] then objectiveNames
        else objectiveNames.filter fun name => name ∉ pinned).argmax value = some spare := by
  have hmem : ∀ name, name ∈ (objectiveNames.filter fun name => name ∉ pinned) ↔
      name ∈ objectiveNames ∧ name ∉ pinned := by
    intro name
    rw [List.mem_filter, decide_eq_true_eq]
  by_cases hempty : (objectiveNames.filter fun name => name ∉ pinned) = []
  · have hnames : objectiveNames ≠ [] := by decide
    obtain ⟨spare, hspare, -, hargmax⟩ := exists_argmax value hnames
    refine ⟨spare, hspare, ?_, by rwa [if_pos hempty]⟩
    intro name hname hpinned
    have hnone := (hmem name).mpr ⟨hname, hpinned⟩
    rw [hempty] at hnone
    cases hnone
  · obtain ⟨spare, hspare, hlargest, hargmax⟩ := exists_argmax value hempty
    obtain ⟨hname, hunpinned⟩ := (hmem spare).mp hspare
    refine ⟨spare, hname, ?_, by rwa [if_neg hempty]⟩
    intro name hname' hpinned
    exact ⟨hunpinned, hlargest name ((hmem name).mpr ⟨hname', hpinned⟩)⟩

/-- One metric takes the remainder: of the unpinned ones, where there are any, the largest. -/
theorem withRemainder_tabulate (pinned : List String) (share : String → ℚ) :
    ∃ spare ∈ objectiveNames,
      (∀ name ∈ objectiveNames, name ∉ pinned →
        spare ∉ pinned ∧ roundTo 6 (share name) ≤ roundTo 6 (share spare)) ∧
      withRemainder pinned (objectiveNames.map fun name => (name, share name)) =
        objectiveNames.map fun name => (name, settled 6 objectiveNames share spare name) := by
  have hread : ∀ name ∈ objectiveNames,
      Dict.getD (objectiveNames.map fun name => (name, roundTo 6 (share name))) name 0 =
        roundTo 6 (share name) := by
    intro name hname
    unfold Dict.getD
    rw [Dict.get?_tabulate (fun name => roundTo 6 (share name)), if_pos hname]
    rfl
  have hsum : ((objectiveNames.map fun name => (name, roundTo 6 (share name))).map
      Prod.snd).sum = roundedTotal 6 objectiveNames share := by
    rw [List.map_map]
    rfl
  obtain ⟨spare, hspare, hlargest, hargmax⟩ := exists_argmax_adjustable pinned fun name =>
    Dict.getD (objectiveNames.map fun name => (name, roundTo 6 (share name))) name 0
  refine ⟨spare, hspare, ?_, ?_⟩
  · intro name hname hpinned
    have hle := hlargest name hname hpinned
    rwa [hread name hname, hread spare hspare] at hle
  · unfold withRemainder
    simp only [List.map_map, Function.comp_def, Dict.keys_tabulate] at hsum ⊢
    rw [hargmax, hsum, roundTo_remainder]
    simp only [hread spare hspare]
    rw [Dict.set_tabulate (fun name => roundTo 6 (share name)) _ _ hspare]
    refine List.map_congr_left ?_
    intro name _
    unfold settled
    refine congrArg (Prod.mk name) ?_
    split_ifs with h
    · rw [h]
    · rfl

theorem validateObjectives_cons (e : String × ℚ) (final : Dict String ℚ) :
    validateObjectives (e :: final) = do
      let objective ← Objective.validate (defaultDirection e.1) e.2
      let objectives ← validateObjectives final
      return (e.1, objective) :: objectives := by
  unfold validateObjectives
  rw [List.mapM_cons]
  simp only [bind_assoc, pure_bind]

theorem validateObjectives_of_bounds {final : Dict String ℚ}
    (h : ∀ e ∈ final, 0 ≤ e.2 ∧ e.2 ≤ 1) :
    ∃ objectives, validateObjectives final = .ok objectives ∧
      (objectives.map fun e => (e.1, (e.2.weight : ℚ))) = final ∧
      (objectives.map fun e => (e.1, e.2.direction)) =
        final.map fun e => (e.1, defaultDirection e.1) := by
  induction final with
  | nil => exact ⟨[], rfl, rfl, rfl⟩
  | cons e final ih =>
      obtain ⟨he, hfinal⟩ := List.forall_mem_cons.mp h
      obtain ⟨objectives, hok, hweights, hdirections⟩ := ih hfinal
      have hobjective : Objective.validate (defaultDirection e.1) e.2 =
          .ok ⟨defaultDirection e.1, e.2, he⟩ := dif_pos he
      refine ⟨(e.1, ⟨defaultDirection e.1, e.2, he⟩) :: objectives, ?_, ?_, ?_⟩
      · rw [validateObjectives_cons, hobjective, hok]
        rfl
      · rw [List.map_cons, hweights]
      · rw [List.map_cons, List.map_cons, hdirections]

theorem validateObjectives_of_out_of_bounds {final : Dict String ℚ}
    (h : ∃ e ∈ final, ¬ (0 ≤ e.2 ∧ e.2 ≤ 1)) :
    validateObjectives final = .error ⟨"weight", "input should be between 0 and 1"⟩ := by
  induction final with
  | nil =>
      obtain ⟨e, he, -⟩ := h
      cases he
  | cons e final ih =>
      rw [validateObjectives_cons]
      unfold Objective.validate
      by_cases he : 0 ≤ e.2 ∧ e.2 ≤ 1
      · have hfinal : ∃ e ∈ final, ¬ (0 ≤ e.2 ∧ e.2 ≤ 1) := by
          obtain ⟨e', hmem, hout⟩ := h
          rcases List.mem_cons.mp hmem with rfl | hmem
          · exact absurd he hout
          · exact ⟨e', hmem, hout⟩
        rw [dif_pos he, ih hfinal]
        rfl
      · rw [dif_neg he]
        rfl

end NeuroForge
