/-
  Shares of a whole, each rounded to a number of decimals.

  The rounded shares need not add up to the whole. `settled` gives what is missing to one
  key, or takes what is too much from it. The shares then add up (`sum_settled`), and no key
  is further from its own share than the roundings of the others allow
  (`abs_settled_sub_le`). The one key keeps a share between 0 and 1 exactly as long as its
  rounded share covers what the sum is above 1 (`settled_mem_iff`).
-/
import NeuroForge.Lib.Rounding
import Mathlib.Algebra.BigOperators.Group.List.Basic
import Mathlib.Algebra.Group.Submonoid.BigOperators
import Mathlib.Algebra.Order.BigOperators.Group.List

namespace Shares

open Rounding

variable {κ : Type*} (d : ℕ) (keys : List κ) (share : κ → ℚ)

/-- What the rounded shares add up to. -/
def roundedTotal : ℚ := (keys.map fun k => roundTo d (share k)).sum

theorem roundedTotal_mem_decimals : roundedTotal d keys share ∈ decimals d := by
  refine list_sum_mem ?_
  intro q hq
  obtain ⟨k, -, rfl⟩ := List.mem_map.mp hq
  exact roundTo_mem_decimals d (share k)

/-- What the rounding leaves is a number of whole units. -/
theorem roundTo_remainder :
    roundTo d (1 - roundedTotal d keys share) = 1 - roundedTotal d keys share :=
  roundTo_of_mem_decimals
    (AddSubgroup.sub_mem _ (one_mem_decimals d) (roundedTotal_mem_decimals d keys share))

/-- A sum of rounded shares is off by one rounding a key at most. -/
theorem abs_roundedTotal_sub_le :
    |roundedTotal d keys share - (keys.map share).sum| ≤ keys.length * (1 / 2 / 10 ^ d) := by
  unfold roundedTotal
  induction keys with
  | nil => simp
  | cons k keys ih =>
      have hk := abs_roundTo_sub_le d (share k)
      rw [abs_le] at ih hk ⊢
      simp only [List.map_cons, List.sum_cons, List.length_cons]
      push_cast
      constructor <;> linarith

variable [DecidableEq κ]

/-- The rounded shares, with what they leave of 1 put on `spare`. -/
def settled (spare k : κ) : ℚ :=
  if k = spare then roundTo d (share k) + (1 - roundedTotal d keys share)
  else roundTo d (share k)

variable {d keys share} {spare k : κ}

theorem settled_self : settled d keys share spare spare =
    roundTo d (share spare) + (1 - roundedTotal d keys share) :=
  if_pos rfl

theorem settled_of_ne (h : k ≠ spare) : settled d keys share spare k = roundTo d (share k) :=
  if_neg h

theorem settled_of_exact (h : roundedTotal d keys share = 1) :
    settled d keys share spare k = roundTo d (share k) := by
  unfold settled
  rw [h, sub_self, add_zero, ite_self]

theorem sum_settled (hnodup : keys.Nodup) (hspare : spare ∈ keys) :
    (keys.map (settled d keys share spare)).sum = 1 := by
  unfold settled
  rw [List.sum_map_ite_eq, List.count_eq_one_of_mem hnodup hspare, one_nsmul]
  change roundTo d (share spare) + (1 - roundedTotal d keys share) - roundTo d (share spare) +
    roundedTotal d keys share = 1
  ring

theorem sum_erase_eq (f : κ → ℚ) (hspare : spare ∈ keys) :
    ((keys.erase spare).map f).sum = (keys.map f).sum - f spare := by
  rw [← List.sum_map_erase f hspare]
  ring

/-- What `spare` gets is what the other rounded shares leave. -/
theorem settled_self_eq (hspare : spare ∈ keys) :
    settled d keys share spare spare = 1 - roundedTotal d (keys.erase spare) share := by
  have herase : roundedTotal d (keys.erase spare) share =
      roundedTotal d keys share - roundTo d (share spare) := sum_erase_eq _ hspare
  rw [settled_self, herase]
  ring

theorem settled_mem_iff (hspare : spare ∈ keys) (hnonneg : ∀ k ∈ keys, 0 ≤ share k) :
    (0 ≤ settled d keys share spare spare ∧ settled d keys share spare spare ≤ 1) ↔
      roundedTotal d keys share ≤ 1 + roundTo d (share spare) := by
  have hothers : 0 ≤ roundedTotal d (keys.erase spare) share := by
    refine List.sum_nonneg ?_
    intro q hq
    obtain ⟨k, hk, rfl⟩ := List.mem_map.mp hq
    exact roundTo_nonneg d (hnonneg k (List.mem_of_mem_erase hk))
  have hle : settled d keys share spare spare ≤ 1 := by
    rw [settled_self_eq hspare]
    linarith
  rw [and_iff_left hle, settled_self]
  constructor <;> intro h <;> linarith

/-- Every key is off by one rounding, `spare` by the roundings of all the others. -/
theorem abs_settled_sub_le (hspare : spare ∈ keys) (htwo : 2 ≤ keys.length)
    (hsum : (keys.map share).sum = 1) :
    |settled d keys share spare k - share k| ≤ (keys.length - 1 : ℕ) * (1 / 2 / 10 ^ d) := by
  by_cases hk : k = spare
  · have hothers := abs_roundedTotal_sub_le d (keys.erase spare) share
    rw [List.length_erase_of_mem hspare, sum_erase_eq share hspare, hsum, abs_sub_comm]
      at hothers
    rw [hk, settled_self_eq hspare]
    convert hothers using 2
    ring
  · rw [settled_of_ne hk]
    have hone : (1 : ℚ) ≤ (keys.length - 1 : ℕ) := by
      exact_mod_cast Nat.le_sub_one_of_lt htwo
    calc |roundTo d (share k) - share k| ≤ 1 / 2 / 10 ^ d := abs_roundTo_sub_le d (share k)
      _ = 1 * (1 / 2 / 10 ^ d) := (one_mul _).symm
      _ ≤ (keys.length - 1 : ℕ) * (1 / 2 / 10 ^ d) := by gcongr

end Shares
