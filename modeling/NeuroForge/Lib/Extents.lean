/-
  Rows that own intervals, one behind the other.

  A row owns `[first r, after r)` among the rows of its key. New rows are put behind all
  others and a row may be resized later. `InOrder` is what makes it enough to look at the
  first places of the other rows then (`InOrder.resize`): those before the row end where it
  begins, and one behind it begins inside the new interval as soon as the two overlap.
-/
import Mathlib.Data.List.Pairwise
import Mathlib.Data.List.Nodup
import Mathlib.Order.Lattice

namespace NeuroForge

namespace Extents

variable {α κ ι β : Type*} [LinearOrder β] {key : α → κ} {first after : α → β}

/-- The rows of one key end before the next one begins. -/
def InOrder (key : α → κ) (first after : α → β) (rows : List α) : Prop :=
  rows.Pairwise fun r r' => key r = key r' → after r ≤ first r'

theorem inOrder_append {rows : List α} {r : α} (h : InOrder key first after rows)
    (hbehind : ∀ r' ∈ rows, key r' = key r → after r' ≤ first r) :
    InOrder key first after (rows ++ [r]) := by
  refine List.pairwise_append.mpr ⟨h, List.pairwise_singleton _ _, fun r' hr' r'' hr'' => ?_⟩
  rw [List.mem_singleton.mp hr'']
  exact hbehind r' hr'

/-- The row `i` gets another end, inside of which no other row begins. -/
theorem InOrder.resize {rows : List α} (h : InOrder key first after rows) {id : α → ι}
    (hids : (rows.map id).Nodup) {i : ι} {f : α → α} (hkey : ∀ r ∈ rows, key (f r) = key r)
    (hfirst : ∀ r ∈ rows, first (f r) = first r)
    (hother : ∀ r ∈ rows, id r ≠ i → after (f r) = after r)
    (hnonempty : ∀ r ∈ rows, first r ≤ after r)
    (hclash : ∀ r ∈ rows, id r = i → ∀ r' ∈ rows, id r' ≠ i → key r = key r' →
      ¬ (first r ≤ first r' ∧ first r' < after (f r))) :
    InOrder key first after (rows.map f) := by
  have hdistinct : rows.Pairwise fun r r' => id r ≠ id r' := List.pairwise_map.mp hids
  refine List.pairwise_map.mpr ((h.and hdistinct).imp_of_mem ?_)
  rintro r r' hr hr' ⟨hordered, hne⟩ hsame
  rw [hkey r hr, hkey r' hr'] at hsame
  rw [hfirst r' hr']
  by_cases hi : id r = i
  · have hi' : id r' ≠ i := fun h' => hne (hi.trans h'.symm)
    have hbegins : first r ≤ first r' := (hnonempty r hr).trans (hordered hsame)
    by_contra hafter
    exact hclash r hr hi r' hr' hi' hsame ⟨hbegins, not_le.mp hafter⟩
  · rw [hother r hr hi]
    exact hordered hsame

end Extents

end NeuroForge
