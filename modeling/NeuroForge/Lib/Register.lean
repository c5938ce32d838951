/-
  A register of keys that parties hold.

  Every party holds one key or none (`held`). `Registered` says that the register lists
  exactly the keys held, none twice, and that no two parties hold the same one. Taking a key
  that is not listed keeps it (`Registered.take`); so does dropping any number of keys
  together with their entries (`Registered.drop`).
-/
import Mathlib.Data.List.Nodup
import Mathlib.Logic.Function.Basic

namespace Register

variable {ι κ : Type*} {held held' : ι → Option κ} {register : List κ}

structure Registered (held : ι → Option κ) (register : List κ) : Prop where
  nodup : register.Nodup
  listed : ∀ k, k ∈ register ↔ ∃ i, held i = some k
  single : ∀ i j k, held i = some k → held j = some k → i = j

theorem registered_nil : Registered (fun _ : ι => (none : Option κ)) [] := by
  refine ⟨List.nodup_nil, fun k => ?_, fun i j k hi => ?_⟩
  · simp
  · simp at hi

theorem Registered.held_mem (h : Registered held register) {i : ι} {k : κ}
    (hi : held i = some k) : k ∈ register := (h.listed k).mpr ⟨i, hi⟩

/-- A party that holds nothing takes a key that is not listed. -/
theorem Registered.take [DecidableEq ι] (h : Registered held register) {i : ι} {k : κ}
    (hi : held i = none) (hk : k ∉ register) :
    Registered (Function.update held i (some k)) (k :: register) := by
  have hfree : ∀ j, held j ≠ some k := fun j hj => hk (h.held_mem hj)
  refine ⟨List.nodup_cons.mpr ⟨hk, h.nodup⟩, fun k' => ?_, fun j j' k' hj hj' => ?_⟩
  · rw [List.mem_cons, h.listed]
    constructor
    · rintro (rfl | ⟨j, hj⟩)
      · exact ⟨i, Function.update_self ..⟩
      · have hne : j ≠ i := fun hji => by rw [hji, hi] at hj; cases hj
        exact ⟨j, by rw [Function.update_of_ne hne]; exact hj⟩
    · rintro ⟨j, hj⟩
      by_cases hji : j = i
      · subst hji
        rw [Function.update_self] at hj
        exact .inl (Option.some.inj hj).symm
      · rw [Function.update_of_ne hji] at hj
        exact .inr ⟨j, hj⟩
  · by_cases hji : j = i <;> by_cases hji' : j' = i
    · rw [hji, hji']
    · subst hji
      rw [Function.update_self] at hj
      rw [Function.update_of_ne hji', ← Option.some.inj hj] at hj'
      exact absurd hj' (hfree j')
    · subst hji'
      rw [Function.update_self] at hj'
      rw [Function.update_of_ne hji, ← Option.some.inj hj'] at hj
      exact absurd hj (hfree j)
    · rw [Function.update_of_ne hji] at hj
      rw [Function.update_of_ne hji'] at hj'
      exact h.single j j' k' hj hj'

/-- Some parties drop their keys, and the register keeps those still held. -/
theorem Registered.drop (h : Registered held register) (p : κ → Bool)
    (hsome : ∀ i k, held' i = some k → held i = some k ∧ p k = true)
    (hkept : ∀ i k, held i = some k → p k = true → held' i = some k) :
    Registered held' (register.filter p) := by
  refine ⟨h.nodup.filter p, fun k => ?_, fun i j k hi hj => ?_⟩
  · rw [List.mem_filter, h.listed]
    constructor
    · rintro ⟨⟨i, hi⟩, hp⟩
      exact ⟨i, hkept i k hi hp⟩
    · rintro ⟨i, hi⟩
      exact ⟨⟨i, (hsome i k hi).1⟩, (hsome i k hi).2⟩
  · exact h.single i j k (hsome i k hi).1 (hsome j k hj).1

/-- One party drops its key. -/
theorem Registered.dropOne [DecidableEq ι] [DecidableEq κ] (h : Registered held register)
    {i : ι} {k : κ} (hi : held i = some k) :
    Registered (Function.update held i none) (register.filter fun k' => k' ≠ k) := by
  refine h.drop _ (fun j k' hj => ?_) fun j k' hj hp => ?_
  · have hji : j ≠ i := fun hji => by simp [hji] at hj
    rw [Function.update_of_ne hji] at hj
    refine ⟨hj, ?_⟩
    have hne : k' ≠ k := fun hk => hji (h.single j i k (hk ▸ hj) hi)
    simpa using hne
  · have hji : j ≠ i := fun hji => by
      rw [hji, hi] at hj
      simp [Option.some.inj hj] at hp
    rw [Function.update_of_ne hji]
    exact hj

/-- A register of parties that hold nothing is empty. -/
theorem Registered.eq_nil (h : Registered held register) (hnone : ∀ i, held i = none) :
    register = [] := by
  rw [List.eq_nil_iff_forall_not_mem]
  intro k hk
  obtain ⟨i, hi⟩ := (h.listed k).mp hk
  rw [hnone i] at hi
  cases hi

end Register
