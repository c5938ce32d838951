/-
  Grouping the elements of a list by a key, into a dictionary of lists.

  Every group has the elements with its key in the order they came (`get?_groupBy`), and there
  is one group for each key that occurs and no other (`mem_keys_groupBy`, `nodup_keys_groupBy`).
-/
import NeuroForge.Lib.Dict

namespace Grouping

variable {α κ : Type*} [DecidableEq κ] (key : α → κ)

/-- `groups.setdefault(key(x), []).append(x)`. -/
def collect (groups : Dict κ (List α)) (x : α) : Dict κ (List α) :=
  Dict.set groups (key x) (Dict.getD groups (key x) [] ++ [x])

def groupBy (xs : List α) : Dict κ (List α) := xs.foldl (collect key) []

theorem groupBy_concat (xs : List α) (x : α) :
    groupBy key (xs ++ [x]) = collect key (groupBy key xs) x := by
  unfold groupBy
  rw [List.foldl_append, List.foldl_cons, List.foldl_nil]

theorem get?_groupBy (xs : List α) (k : κ) :
    Dict.get? (groupBy key xs) k =
      if ∃ x ∈ xs, key x = k then some (xs.filter fun x => key x = k) else none := by
  induction xs using List.reverseRecOn with
  | nil => simp [groupBy]
  | append_singleton xs x ih =>
      rw [groupBy_concat, collect]
      by_cases hk : key x = k
      · -- the group of the new element
        have hold : Dict.getD (groupBy key xs) k [] = xs.filter fun x => key x = k := by
          rw [Dict.getD, ih]
          split_ifs with hsome
          · rfl
          · have hnone : ∀ x ∈ xs, ¬ key x = k := fun x hx hkx => hsome ⟨x, hx, hkx⟩
            rw [List.filter_eq_nil_iff.mpr (by simpa using hnone)]
            rfl
        have hhere : ∃ y ∈ xs ++ [x], key y = k := ⟨x, by simp, hk⟩
        rw [hk, Dict.get?_set_self, hold, if_pos hhere, List.filter_append]
        simp [hk]
      · have hsame : (∃ y ∈ xs ++ [x], key y = k) ↔ ∃ y ∈ xs, key y = k := by
          simp [or_and_right, exists_or, hk]
        rw [Dict.get?_set_of_ne _ _ (Ne.symm hk), ih, List.filter_append]
        simp only [hsame]
        simp [hk]

theorem mem_keys_groupBy {xs : List α} {k : κ} :
    k ∈ Dict.keys (groupBy key xs) ↔ ∃ x ∈ xs, key x = k := by
  rw [← not_iff_not, ← Dict.get?_eq_none, get?_groupBy]
  split_ifs with h
  · simp [h]
  · simp [h]

theorem nodup_keys_groupBy (xs : List α) : (Dict.keys (groupBy key xs)).Nodup := by
  induction xs using List.reverseRecOn with
  | nil => exact List.nodup_nil
  | append_singleton xs x ih =>
      rw [groupBy_concat]
      exact Dict.nodup_keys_set ih _ _

end Grouping
