/-
  A seeded pseudo-random generator as an abstract state.

  Every draw is a function of the state alone and returns the next state, so that two
  generators in the same state draw the same values forever. `choice`, `randint`,
  `uniform` and `sample` are the usual derived draws; `mapDraw` threads the state through
  a list.
-/
import Mathlib.Data.Fin.Embedding
import Mathlib.Data.List.Basic
import Mathlib.Data.List.Forall2
import Mathlib.Data.Rat.Defs
import Mathlib.Logic.Embedding.Basic

/-- The primitive draws of a generator with states `ρ`. -/
structure Rng (ρ : Type) where
  seeded : ℤ → ρ
  /-- A float in `[0, 1)`. -/
  random : ρ → ℚ × ρ
  /-- A position below `n`. -/
  randbelow : (n : ℕ) → 0 < n → ρ → Fin n × ρ
  /-- `k` distinct positions below `n`. -/
  positions : (n k : ℕ) → k ≤ n → ρ → (Fin k ↪ Fin n) × ρ

namespace Rng

variable {ρ α β : Type}

/-- The floats it draws are in `[0, 1)`. -/
def Lawful (rng : Rng ρ) : Prop := ∀ s, 0 ≤ (rng.random s).1 ∧ (rng.random s).1 < 1

def uniform (rng : Rng ρ) (lo hi : ℚ) (s : ρ) : ℚ × ρ :=
  let (u, s) := rng.random s
  (lo + (hi - lo) * u, s)

/-- An integer from `lo` to `hi`, both included, for `lo ≤ hi`. -/
def randint (rng : Rng ρ) (lo hi : ℤ) (s : ρ) : ℤ × ρ :=
  let (i, s) := rng.randbelow ((hi - lo).toNat + 1) (Nat.succ_pos _) s
  (lo + i.val, s)

def choice (rng : Rng ρ) (xs : List α) (h : xs ≠ []) (s : ρ) : α × ρ :=
  let (i, s) := rng.randbelow xs.length (List.length_pos_iff.mpr h) s
  (xs.get i, s)

/-- `min k` of the length elements, in the order drawn. -/
def sample (rng : Rng ρ) (xs : List α) (k : ℕ) (s : ρ) : List α × ρ :=
  let (f, s) := rng.positions xs.length (min k xs.length) (min_le_right _ _) s
  ((List.finRange (min k xs.length)).map fun j => xs.get (f j), s)

end Rng

/-- Draws one value for each element, in order. -/
def mapDraw {ρ α β : Type} (f : α → ρ → β × ρ) : List α → ρ → List β × ρ
  | [], s => ([], s)
  | a :: as, s =>
      let (b, s) := f a s
      let (bs, s) := mapDraw f as s
      (b :: bs, s)

/-- The same draw `n` times. -/
def drawMany {ρ β : Type} (f : ρ → β × ρ) (n : ℕ) (s : ρ) : List β × ρ :=
  mapDraw (fun _ : ℕ => f) (List.range n) s

theorem length_mapDraw {ρ α β : Type} (f : α → ρ → β × ρ) (as : List α) (s : ρ) :
    (mapDraw f as s).1.length = as.length := by
  induction as generalizing s with
  | nil => rfl
  | cons a as ih =>
      rw [mapDraw, List.length_cons, List.length_cons]
      exact congrArg (· + 1) (ih (f a s).2)

@[simp] theorem length_drawMany {ρ β : Type} (f : ρ → β × ρ) (n : ℕ) (s : ρ) :
    (drawMany f n s).1.length = n := by
  rw [drawMany, length_mapDraw, List.length_range]

/-- Every value drawn was drawn in some state. -/
theorem exists_of_mem_mapDraw {ρ α β : Type} {f : α → ρ → β × ρ} {as : List α} {s : ρ} {b : β}
    (h : b ∈ (mapDraw f as s).1) : ∃ a ∈ as, ∃ s', (f a s').1 = b := by
  induction as generalizing s with
  | nil => cases h
  | cons a as ih =>
      rw [mapDraw] at h
      rcases List.mem_cons.mp h with rfl | h
      · exact ⟨a, List.mem_cons_self, s, rfl⟩
      · obtain ⟨a', ha', hs'⟩ := ih h
        exact ⟨a', List.mem_cons_of_mem _ ha', hs'⟩

/-- What holds of every draw for an element holds of the value drawn for it. -/
theorem forall₂_mapDraw {ρ α β : Type} {f : α → ρ → β × ρ} {R : α → β → Prop}
    (h : ∀ a s, R a (f a s).1) (as : List α) (s : ρ) : List.Forall₂ R as (mapDraw f as s).1 := by
  induction as generalizing s with
  | nil => exact List.Forall₂.nil
  | cons a as ih => exact List.Forall₂.cons (h a s) (ih (f a s).2)

/-- A list of draws none of which is refused. -/
theorem mapM_id_of_forall₂ {α β : Type} {P : α → β → Prop} {as : List α}
    {os : List (Option β)} (h : List.Forall₂ (fun a o => ∃ b, o = some b ∧ P a b) as os) :
    ∃ bs, os.mapM id = some bs ∧ List.Forall₂ P as bs := by
  induction h with
  | nil => exact ⟨[], rfl, List.Forall₂.nil⟩
  | cons hab _ ih =>
      obtain ⟨b, rfl, hb⟩ := hab
      obtain ⟨bs, hbs, hP⟩ := ih
      exact ⟨b :: bs, by simp [List.mapM_cons, hbs], List.Forall₂.cons hb hP⟩

theorem mem_of_mapM_id {β : Type} {os : List (Option β)} {bs : List β}
    (h : os.mapM id = some bs) {b : β} (hb : b ∈ bs) : some b ∈ os := by
  induction os generalizing bs with
  | nil =>
      rw [List.mapM_nil] at h
      cases h
      cases hb
  | cons o os ih =>
      rw [List.mapM_cons] at h
      obtain ⟨b', ho, hrest⟩ := Option.bind_eq_some_iff.mp h
      obtain ⟨bs', hbs', hpure⟩ := Option.bind_eq_some_iff.mp hrest
      cases hpure
      rcases List.mem_cons.mp hb with rfl | hb
      · exact List.mem_cons.mpr (Or.inl ho.symm)
      · exact List.mem_cons_of_mem _ (ih hbs' hb)

/-- Two views of a list that agree element by element. -/
theorem map_eq_map_of_forall₂ {α β γ : Type} {R : α → β → Prop} {f : β → γ} {f' : α → γ}
    {as : List α} {bs : List β} (h : List.Forall₂ R as bs) (hR : ∀ a b, R a b → f b = f' a) :
    bs.map f = as.map f' := by
  induction h with
  | nil => rfl
  | cons hab _ ih => rw [List.map_cons, List.map_cons, hR _ _ hab, ih]

theorem exists_of_mem_drawMany {ρ β : Type} {f : ρ → β × ρ} {n : ℕ} {s : ρ} {b : β}
    (h : b ∈ (drawMany f n s).1) : ∃ s', (f s').1 = b := by
  obtain ⟨-, -, hs'⟩ := exists_of_mem_mapDraw h
  exact hs'

/-! ## A generator that never varies -/

/-- Always the float `r`, and the position `j` where there is one. -/
def constantRng (r : ℚ) (j : ℕ) : Rng Unit where
  seeded _ := ()
  random _ := (r, ())
  randbelow n h _ := (⟨min j (n - 1), by omega⟩, ())
  positions _ _ h _ := (Fin.castLEEmb h, ())

theorem constantRng_lawful {r : ℚ} (h : 0 ≤ r) (h' : r < 1) (j : ℕ) : (constantRng r j).Lawful :=
  fun _ => ⟨h, h'⟩

theorem exists_choice_eq {α : Type} {xs : List α} {x : α} (hx : x ∈ xs) :
    ∃ j, ∀ r h, ((constantRng r j).choice xs h ()).1 = x := by
  obtain ⟨j, hj, rfl⟩ := List.getElem_of_mem hx
  refine ⟨j, fun r h => ?_⟩
  have hmin : min j (xs.length - 1) = j := by omega
  show xs[min j (xs.length - 1)] = xs[j]
  simp only [hmin]
