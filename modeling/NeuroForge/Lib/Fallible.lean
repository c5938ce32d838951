/-
  Computations that return a value or an error.

  `bind_eq_ok` takes a successful sequence apart into its two successful parts; a proof
  about a function written with `do` peels it with this lemma, one line at a time.
-/
import Mathlib.Init

namespace Fallible

variable {ε α β : Type}

theorem bind_eq_ok {x : Except ε α} {f : α → Except ε β} {b : β} :
    x >>= f = .ok b ↔ ∃ a, x = .ok a ∧ f a = .ok b := by
  cases x with
  | error e =>
      constructor
      · intro h
        cases h
      · rintro ⟨a, ha, -⟩
        cases ha
  | ok a =>
      constructor
      · exact fun h => ⟨a, rfl, h⟩
      · rintro ⟨a', ha, h⟩
        cases ha
        exact h

theorem bind_eq_error {x : Except ε α} {f : α → Except ε β} {e : ε} :
    x >>= f = .error e ↔ x = .error e ∨ ∃ a, x = .ok a ∧ f a = .error e := by
  cases x with
  | error e' => simp [Bind.bind, Except.bind]
  | ok a => simp [Bind.bind, Except.bind]

@[simp] theorem pure_eq_ok {a b : α} : (pure a : Except ε α) = .ok b ↔ a = b :=
  ⟨fun h => Except.ok.inj h, fun h => h ▸ rfl⟩

@[simp] theorem ok_bind (a : α) (f : α → Except ε β) :
    (Except.ok a : Except ε α) >>= f = f a := rfl

/-- Where every member gives a value, `mapM` is `map`. -/
theorem mapM_eq_ok {α β : Type} {f : α → Except ε β} {g : α → β} {xs : List α}
    (h : ∀ x ∈ xs, f x = .ok (g x)) : xs.mapM f = .ok (xs.map g) := by
  induction xs with
  | nil => rfl
  | cons x xs ih =>
      rw [List.mapM_cons, h x List.mem_cons_self, ih fun y hy => h y (List.mem_cons_of_mem x hy)]
      rfl

/-- Where every member gives some value, so does `mapM`. -/
theorem exists_mapM_eq_ok {α β : Type} {f : α → Except ε β} {xs : List α}
    (h : ∀ x ∈ xs, ∃ y, f x = .ok y) : ∃ ys, xs.mapM f = .ok ys := by
  induction xs with
  | nil => exact ⟨[], rfl⟩
  | cons x xs ih =>
      obtain ⟨hx, hxs⟩ := List.forall_mem_cons.mp h
      obtain ⟨y, hy⟩ := hx
      obtain ⟨ys, hys⟩ := ih hxs
      exact ⟨y :: ys, by rw [List.mapM_cons, hy, ok_bind, hys]; rfl⟩

/-- What a reader undoes for each member it undoes for a list. -/
theorem mapM_map_self {α β : Type} {f : β → Except ε α} {g : α → β} (xs : List α)
    (h : ∀ x, f (g x) = .ok x) : (xs.map g).mapM f = .ok xs := by
  have hall := mapM_eq_ok (f := f ∘ g) (g := id) fun x (_ : x ∈ xs) => h x
  rw [List.mapM_map, hall, List.map_id]

/-- Where every member gives a value or is passed over, `filterMapM` is `filter` and `map`. -/
theorem filterMapM_map_eq_ok {α β γ : Type} {f : β → Except ε (Option γ)} {h : α → β}
    {p : α → Bool} {g : α → γ} {xs : List α}
    (hf : ∀ x ∈ xs, f (h x) = .ok (if p x then some (g x) else none)) :
    (xs.map h).filterMapM f = .ok ((xs.filter p).map g) := by
  induction xs with
  | nil => rfl
  | cons x xs ih =>
      rw [List.map_cons, List.filterMapM_cons, hf x List.mem_cons_self,
        ih fun y hy => hf y (List.mem_cons_of_mem x hy)]
      cases hp : p x with
      | true =>
          rw [List.filter_cons_of_pos hp]
          rfl
      | false =>
          rw [List.filter_cons_of_neg (by simp [hp])]
          rfl

/-- Two scans that answer alike on every member give the same members. -/
theorem filterMapM_map_comm {α α' β β' : Type} {f : α → Except ε (Option β)}
    {k : α' → Except ε (Option β')} {h : α → α'} {g : β → β'} {xs : List α}
    (hf : ∀ x ∈ xs, k (h x) = (f x).map (Option.map g)) :
    (xs.map h).filterMapM k = (xs.filterMapM f).map (List.map g) := by
  induction xs with
  | nil => rfl
  | cons x xs ih =>
      rw [List.map_cons, List.filterMapM_cons, List.filterMapM_cons, hf x List.mem_cons_self,
        ih fun y hy => hf y (List.mem_cons_of_mem x hy)]
      cases f x with
      | error err => rfl
      | ok found =>
          cases found with
          | none => cases xs.filterMapM f <;> rfl
          | some b => cases xs.filterMapM f <;> rfl

theorem toOption_eq_some {x : Except ε α} {a : α} : x.toOption = some a ↔ x = .ok a := by
  cases x with
  | error e => simp [Except.toOption]
  | ok b => simp [Except.toOption]

end Fallible
