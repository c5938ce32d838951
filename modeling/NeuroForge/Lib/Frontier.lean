/-
  The undominated members of a finite set under a strict order.

  On a finite set a strict order is well founded, so that going from a member to one that
  beats it ends at a member that nothing beats. From this: a non-empty set has undominated
  members, every other member is beaten by one of them, and a part of the set that still
  holds all of them has the same ones.
-/
import Mathlib.Order.WellFoundedSet

namespace Frontier

variable {α : Type*} (r : α → α → Prop)

/-- `x` is a member of `s` that no member of `s` beats; `r y x` reads "`y` beats `x`". -/
def Undominated (s : Set α) (x : α) : Prop := x ∈ s ∧ ∀ y ∈ s, ¬ r y x

variable [IsStrictOrder α r] {s t : Set α} {x : α}

theorem undominated_or_beaten (hs : s.Finite) (hx : x ∈ s) :
    Undominated r s x ∨ ∃ y, Undominated r s y ∧ r y x := by
  have hwf : s.WellFoundedOn r := hs.wellFoundedOn
  refine hwf.induction hx
    (P := fun x => Undominated r s x ∨ ∃ y, Undominated r s y ∧ r y x) fun x hx ih => ?_
  by_cases h : ∃ y ∈ s, r y x
  · obtain ⟨y, hy, hyx⟩ := h
    -- either `y` ends the chain, or what ends the chain from `y` beats `x` too
    rcases ih y hy hyx with hund | ⟨z, hz, hzy⟩
    · exact Or.inr ⟨y, hund, hyx⟩
    · exact Or.inr ⟨z, hz, IsTrans.trans _ _ _ hzy hyx⟩
  · exact Or.inl ⟨hx, fun y hy hyx => h ⟨y, hy, hyx⟩⟩

theorem exists_undominated (hs : s.Finite) (hne : s.Nonempty) : ∃ x, Undominated r s x := by
  obtain ⟨x, hx⟩ := hne
  rcases undominated_or_beaten r hs hx with h | ⟨y, hy, -⟩
  · exact ⟨x, h⟩
  · exact ⟨y, hy⟩

/-- A part that holds every undominated member has the same undominated members. -/
theorem undominated_iff_of_subset (hs : s.Finite) (hts : t ⊆ s)
    (hkeep : ∀ y, Undominated r s y → y ∈ t) : Undominated r t x ↔ Undominated r s x := by
  constructor
  · rintro ⟨hx, hnone⟩
    rcases undominated_or_beaten r hs (hts hx) with h | ⟨y, hy, hyx⟩
    · exact h
    · exact absurd hyx (hnone y (hkeep y hy))
  · intro h
    exact ⟨hkeep x h, fun y hy => h.2 y (hts hy)⟩

end Frontier
