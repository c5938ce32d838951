/-
  Tallies: a list of totals, one for each position, to which amounts are added one by one.

  What a position holds after a list of entries is what it held before and the sum of the
  amounts entered for it (`getD_enter`); the sum of the whole tally grows by every amount
  (`sum_add`). Entries must name positions that exist.
-/
import Mathlib.Algebra.BigOperators.Group.List.Basic

namespace Tally

variable {M : Type*} [AddCommMonoid M]

/-- `xs[i] += x`. -/
def add (xs : List M) (i : ℕ) (x : M) : List M := xs.set i (xs.getD i 0 + x)

/-- The entries `(position, amount)` in turn. -/
def enter (xs : List M) (entries : List (ℕ × M)) : List M :=
  entries.foldl (fun xs e => add xs e.1 e.2) xs

/-- The amounts entered for position `i`. -/
def totalOf (entries : List (ℕ × M)) (i : ℕ) : M :=
  ((entries.filter fun e => e.1 = i).map Prod.snd).sum

theorem getD_replicate_zero (n i : ℕ) : (List.replicate n (0 : M)).getD i 0 = 0 := by
  rw [List.getD_eq_getElem?_getD, List.getElem?_replicate]
  split_ifs <;> rfl

@[simp] theorem length_add (xs : List M) (i : ℕ) (x : M) : (add xs i x).length = xs.length :=
  List.length_set

theorem getD_add {xs : List M} {i : ℕ} (hi : i < xs.length) (x : M) (j : ℕ) :
    (add xs i x).getD j 0 = xs.getD j 0 + if j = i then x else 0 := by
  unfold add
  rw [List.getD_eq_getElem?_getD, List.getElem?_set]
  by_cases hj : i = j
  · rw [if_pos hj, if_pos hi, if_pos hj.symm, hj]
    rfl
  · rw [if_neg hj, if_neg (Ne.symm hj), add_zero, List.getD_eq_getElem?_getD]

theorem sum_add {xs : List M} {i : ℕ} (hi : i < xs.length) (x : M) :
    (add xs i x).sum = xs.sum + x := by
  induction xs generalizing i with
  | nil => exact absurd hi (Nat.not_lt_zero i)
  | cons y ys ih =>
      cases i with
      | zero =>
          show (y + x) + ys.sum = y + ys.sum + x
          rw [add_right_comm]
      | succ i =>
          show y + (add ys i x).sum = y + ys.sum + x
          rw [ih (Nat.lt_of_succ_lt_succ hi), add_assoc]

theorem totalOf_nil (i : ℕ) : totalOf ([] : List (ℕ × M)) i = 0 := rfl

theorem totalOf_cons (e : ℕ × M) (entries : List (ℕ × M)) (i : ℕ) :
    totalOf (e :: entries) i = (if i = e.1 then e.2 else 0) + totalOf entries i := by
  unfold totalOf
  by_cases h : e.1 = i
  · simp [h]
  · simp [h, Ne.symm h]

theorem totalOf_append (entries entries' : List (ℕ × M)) (i : ℕ) :
    totalOf (entries ++ entries') i = totalOf entries i + totalOf entries' i := by
  unfold totalOf
  rw [List.filter_append, List.map_append, List.sum_append]

@[simp] theorem length_enter (xs : List M) (entries : List (ℕ × M)) :
    (enter xs entries).length = xs.length := by
  induction entries generalizing xs with
  | nil => rfl
  | cons e entries ih => exact (ih (add xs e.1 e.2)).trans (length_add xs e.1 e.2)

theorem getD_enter {xs : List M} {entries : List (ℕ × M)}
    (h : ∀ e ∈ entries, e.1 < xs.length) (j : ℕ) :
    (enter xs entries).getD j 0 = xs.getD j 0 + totalOf entries j := by
  induction entries generalizing xs with
  | nil => exact (add_zero _).symm
  | cons e entries ih =>
      have hrest : ∀ e' ∈ entries, e'.1 < (add xs e.1 e.2).length := fun e' he' => by
        rw [length_add]
        exact h e' (List.mem_cons_of_mem _ he')
      show (enter (add xs e.1 e.2) entries).getD j 0 = _
      rw [ih hrest, getD_add (h e List.mem_cons_self), totalOf_cons, add_assoc]

end Tally
