/-
  Fields that are read freely and written one at a time, where a write may be refused.

  Whether a value is accepted depends on the field alone, a write leaves all other fields
  alone, and a value of the field's own kind reads back as it was written. So what a list of
  assignments to distinct fields does can be read off the list (`get_setAll_of_mem`,
  `get_setAll_of_not_mem`); and any list that assigns the same values to the fields that
  change gives the same result: another order, or no more than the changes
  (`setAll_of_subset`).
-/
import NeuroForge.Lib.Fallible
import Mathlib.Data.List.Nodup

/-- Records `C` with fields `F` that hold values `V`. -/
structure Assignable (C F V ε : Type) where
  get : C → F → V
  set : C → F → V → Except ε C
  /-- The values a field holds just as they are. -/
  Own : F → V → Prop
  get_set : ∀ {c c' f v}, set c f v = .ok c' → Own f v → get c' f = v
  get_set_of_ne : ∀ {c c' f g v}, set c f v = .ok c' → g ≠ f → get c' g = get c g
  set_any : ∀ {c c' f v}, set c f v = .ok c' → ∀ d, ∃ d', set d f v = .ok d'
  ext_get : ∀ {c d}, (∀ f, get c f = get d f) → c = d

namespace Assignable

open Fallible

variable {C F V ε : Type} (A : Assignable C F V ε)

/-- The assignments in turn. -/
def setAll (c : C) (es : List (F × V)) : Except ε C :=
  es.foldlM (fun c e => A.set c e.1 e.2) c

variable {A} {c c' : C} {es es' : List (F × V)}

theorem setAll_cons {e : F × V} : A.setAll c (e :: es) = .ok c' ↔
    ∃ d, A.set c e.1 e.2 = .ok d ∧ A.setAll d es = .ok c' := by
  unfold setAll
  rw [List.foldlM_cons, bind_eq_ok]

theorem get_setAll_of_not_mem (h : A.setAll c es = .ok c') {f : F} (hf : f ∉ es.map Prod.fst) :
    A.get c' f = A.get c f := by
  induction es generalizing c with
  | nil =>
      cases h
      rfl
  | cons e es ih =>
      obtain ⟨d, hd, hrest⟩ := setAll_cons.mp h
      rw [List.map_cons, List.mem_cons, not_or] at hf
      rw [ih hrest hf.2, A.get_set_of_ne hd hf.1]

theorem get_setAll_of_mem (h : A.setAll c es = .ok c') (hnodup : (es.map Prod.fst).Nodup)
    (hown : ∀ e ∈ es, A.Own e.1 e.2) {e : F × V} (he : e ∈ es) : A.get c' e.1 = e.2 := by
  induction es generalizing c with
  | nil => cases he
  | cons first es ih =>
      obtain ⟨d, hd, hrest⟩ := setAll_cons.mp h
      obtain ⟨hfirst, hnodup'⟩ := List.nodup_cons.mp hnodup
      rcases List.mem_cons.mp he with rfl | he
      · rw [get_setAll_of_not_mem hrest hfirst, A.get_set hd (hown e List.mem_cons_self)]
      · exact ih hrest hnodup' (fun e he => hown e (List.mem_cons_of_mem first he)) he

/-- The value is accepted for its field, in whatever record. -/
def Accepts (A : Assignable C F V ε) (e : F × V) : Prop := ∀ d, ∃ d', A.set d e.1 e.2 = .ok d'

theorem accepts_of_setAll (h : A.setAll c es = .ok c') : ∀ e ∈ es, A.Accepts e := by
  induction es generalizing c with
  | nil => exact fun e he => nomatch he
  | cons first es ih =>
      obtain ⟨d, hd, hrest⟩ := setAll_cons.mp h
      intro e he
      rcases List.mem_cons.mp he with rfl | he
      · exact A.set_any hd
      · exact ih hrest e he

theorem setAll_of_accepts (h : ∀ e ∈ es, A.Accepts e) (c : C) :
    ∃ c', A.setAll c es = .ok c' := by
  induction es generalizing c with
  | nil => exact ⟨c, rfl⟩
  | cons first es ih =>
      obtain ⟨d, hd⟩ := h first List.mem_cons_self c
      obtain ⟨c', hc'⟩ := ih (fun e he => h e (List.mem_cons_of_mem first he)) d
      exact ⟨c', setAll_cons.mpr ⟨d, hd, hc'⟩⟩

/-- Assignments that leave out nothing but what the record already holds give the same
    record, in whatever order they are made. -/
theorem setAll_of_subset (h : A.setAll c es = .ok c') (hnodup : (es.map Prod.fst).Nodup)
    (hown : ∀ e ∈ es, A.Own e.1 e.2) (hnodup' : (es'.map Prod.fst).Nodup)
    (hsub : ∀ e ∈ es', e ∈ es) (hrest : ∀ e ∈ es, e ∉ es' → A.get c e.1 = e.2) :
    A.setAll c es' = .ok c' := by
  have haccepts : ∀ e ∈ es', A.Accepts e := fun e he => accepts_of_setAll h e (hsub e he)
  obtain ⟨d, hd⟩ := setAll_of_accepts haccepts c
  have hagree : ∀ f, A.get d f = A.get c' f := by
    intro f
    by_cases hf' : f ∈ es'.map Prod.fst
    · -- assigned in both
      obtain ⟨e, he, rfl⟩ := List.mem_map.mp hf'
      rw [get_setAll_of_mem hd hnodup' (fun e he => hown e (hsub e he)) he,
        get_setAll_of_mem h hnodup hown (hsub e he)]
    · rw [get_setAll_of_not_mem hd hf']
      by_cases hf : f ∈ es.map Prod.fst
      · -- assigned what was there before
        obtain ⟨e, he, rfl⟩ := List.mem_map.mp hf
        have hnot : e ∉ es' := fun he' => hf' (List.mem_map_of_mem he')
        rw [get_setAll_of_mem h hnodup hown he, hrest e he hnot]
      · rw [get_setAll_of_not_mem h hf]
  rw [hd, A.ext_get hagree]

/-- The order of assignments to distinct fields does not matter. -/
theorem setAll_of_perm (h : A.setAll c es = .ok c') (hnodup : (es.map Prod.fst).Nodup)
    (hown : ∀ e ∈ es, A.Own e.1 e.2) (hperm : es'.Perm es) : A.setAll c es' = .ok c' :=
  setAll_of_subset h hnodup hown ((hperm.map Prod.fst).nodup_iff.mpr hnodup)
    (fun _ he => hperm.mem_iff.mp he) fun _ he hnot => absurd (hperm.mem_iff.mpr he) hnot

/-- Only the assignments that change something are needed. -/
theorem setAll_filter (h : A.setAll c es = .ok c') (hnodup : (es.map Prod.fst).Nodup)
    (hown : ∀ e ∈ es, A.Own e.1 e.2) {p : F × V → Bool}
    (hp : ∀ e ∈ es, p e = false → A.get c e.1 = e.2) :
    A.setAll c (es.filter p) = .ok c' := by
  refine setAll_of_subset h hnodup hown (hnodup.sublist (List.filter_sublist.map _))
    (fun e he => (List.mem_filter.mp he).1) fun e he hnot => hp e he ?_
  by_contra hpe
  exact hnot (List.mem_filter.mpr ⟨he, Bool.not_eq_false _ ▸ hpe⟩)

/-- What is assigned to nothing but the fields' own values changes nothing. -/
theorem eq_of_setAll (h : A.setAll c es = .ok c') (hnodup : (es.map Prod.fst).Nodup)
    (hown : ∀ e ∈ es, A.Own e.1 e.2) : c' = c ↔ ∀ e ∈ es, A.get c e.1 = e.2 := by
  constructor
  · rintro rfl e he
    exact get_setAll_of_mem h hnodup hown he
  · intro hsame
    have hnil : A.setAll c [] = .ok c' := setAll_of_subset h hnodup hown List.nodup_nil nofun
      fun e he _ => hsame e he
    exact (Except.ok.inj hnil).symm

end Assignable
