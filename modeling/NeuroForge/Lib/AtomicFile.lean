/-
  A file that is replaced by writing a temporary one and renaming it.

  A save creates the temporary file, or empties one left behind, writes the text into it and
  renames it over the file. A crash leaves what has been done so far: a save that is cut off
  before its rename has not touched the file (`file_cut`), the rename alone replaces it, by
  the whole text (`file_save`). So whatever saves were cut off wherever, the file is the text
  of the last save that was renamed (`file_saves`).
-/
import Mathlib.Data.List.Induction

namespace AtomicFile

variable {β α : Type*}

/-- The file and the temporary one beside it. -/
structure Files (β : Type*) where
  file : Option (List β) := none
  temporary : Option (List β) := none

inductive Step (β : Type*) where
  | create
  | write (b : β)
  | rename

/-- A rename without a temporary file is refused. -/
def Files.apply (d : Files β) : Step β → Files β
  | .create => { d with temporary := some [] }
  | .write b => { d with temporary := d.temporary.map (· ++ [b]) }
  | .rename =>
      match d.temporary with
      | some text => { file := some text, temporary := none }
      | none => d

def Files.applyAll (d : Files β) (steps : List (Step β)) : Files β := steps.foldl Files.apply d

/-- The steps of saving a text. -/
def saveSteps (text : List β) : List (Step β) := .create :: (text.map .write ++ [.rename])

theorem length_saveSteps (text : List β) : (saveSteps text).length = text.length + 2 := by
  simp [saveSteps]

theorem applyAll_append (d : Files β) (steps more : List (Step β)) :
    d.applyAll (steps ++ more) = (d.applyAll steps).applyAll more := List.foldl_append

/-- Before the rename nothing touches the file. -/
theorem file_applyAll {d : Files β} {steps : List (Step β)} (h : Step.rename ∉ steps) :
    (d.applyAll steps).file = d.file := by
  induction steps generalizing d with
  | nil => rfl
  | cons step steps ih =>
      have hrest : Step.rename ∉ steps := fun hmem => h (List.mem_cons_of_mem step hmem)
      show ((d.apply step).applyAll steps).file = d.file
      rw [ih hrest]
      cases step with
      | create => rfl
      | write b => rfl
      | rename => exact absurd List.mem_cons_self h

theorem temporary_writes (d : Files β) (written text : List β) (h : d.temporary = some written) :
    (d.applyAll (text.map .write)).temporary = some (written ++ text) := by
  induction text generalizing d written with
  | nil =>
      rw [List.append_nil]
      exact h
  | cons b text ih =>
      show ((d.apply (.write b)).applyAll (text.map .write)).temporary = _
      have hwritten : (d.apply (.write b)).temporary = some (written ++ [b]) := by
        show d.temporary.map (· ++ [b]) = _
        rw [h]
        rfl
      rw [ih _ _ hwritten, List.append_assoc]
      rfl

/-- A save that is cut off before its rename leaves the file alone. -/
theorem file_cut (d : Files β) (text : List β) {k : ℕ} (h : k < (saveSteps text).length) :
    (d.applyAll ((saveSteps text).take k)).file = d.file := by
  apply file_applyAll
  intro hmem
  rw [length_saveSteps] at h
  have hbefore : (saveSteps text).take k = (Step.create :: text.map .write).take k := by
    rw [saveSteps, ← List.cons_append]
    apply List.take_append_of_le_length
    rw [List.length_cons, List.length_map]
    omega
  rw [hbefore] at hmem
  have hmem := List.mem_of_mem_take hmem
  simp at hmem

/-- A save that gets to its end leaves its whole text. -/
theorem file_save (d : Files β) (text : List β) {k : ℕ} (h : (saveSteps text).length ≤ k) :
    (d.applyAll ((saveSteps text).take k)).file = some text := by
  rw [List.take_of_length_le h]
  have hwritten : ((d.apply .create).applyAll (text.map .write)).temporary = some text := by
    rw [temporary_writes _ [] text rfl, List.nil_append]
  show (((d.apply .create).applyAll (text.map .write ++ [.rename])).file) = some text
  rw [applyAll_append]
  show (((d.apply .create).applyAll (text.map .write)).apply .rename).file = some text
  unfold Files.apply at hwritten ⊢
  rw [hwritten]

/-! ## Any number of saves -/

/-- A save of `value` of which the first `steps` steps are done. -/
structure Attempt (α : Type*) where
  value : α
  steps : ℕ

variable (text : α → List β)

/-- The attempt got to its rename. -/
def Renamed (a : Attempt α) : Prop := (saveSteps (text a.value)).length ≤ a.steps

instance (a : Attempt α) : Decidable (Renamed text a) :=
  inferInstanceAs (Decidable ((saveSteps (text a.value)).length ≤ a.steps))

/-- What the attempts leave, one after the other. -/
def Files.saves (d : Files β) (attempts : List (Attempt α)) : Files β :=
  attempts.foldl (fun d a => d.applyAll ((saveSteps (text a.value)).take a.steps)) d

/-- The value of the last attempt that got to its rename. -/
def lastRenamed (attempts : List (Attempt α)) : Option α :=
  ((attempts.filter fun a => Renamed text a).getLast?).map (·.value)

theorem mem_of_lastRenamed {attempts : List (Attempt α)} {value : α}
    (h : lastRenamed text attempts = some value) : ∃ a ∈ attempts, a.value = value := by
  obtain ⟨a, hlast, hvalue⟩ := Option.map_eq_some_iff.mp h
  exact ⟨a, (List.mem_filter.mp (List.mem_of_mem_getLast? hlast)).1, hvalue⟩

theorem lastRenamed_concat (attempts : List (Attempt α)) (a : Attempt α) :
    lastRenamed text (attempts ++ [a]) =
      if Renamed text a then some a.value else lastRenamed text attempts := by
  unfold lastRenamed
  rw [List.filter_append]
  by_cases h : Renamed text a
  · have hlast : [a].filter (fun a => Renamed text a) = [a] := by simp [h]
    rw [if_pos h, hlast, List.getLast?_concat]
    rfl
  · have hlast : [a].filter (fun a => Renamed text a) = [] := by simp [h]
    rw [if_neg h, hlast, List.append_nil]

/-- The file is the text of the last save that was renamed. -/
theorem file_saves (leftover : Option (List β)) (attempts : List (Attempt α)) :
    (Files.saves text ⟨none, leftover⟩ attempts).file = (lastRenamed text attempts).map text := by
  induction attempts using List.reverseRecOn with
  | nil => rfl
  | append_singleton attempts a ih =>
      rw [lastRenamed_concat, Files.saves, List.foldl_append, List.foldl_cons, List.foldl_nil]
      by_cases h : Renamed text a
      · rw [if_pos h, file_save _ _ h]
        rfl
      · rw [if_neg h, file_cut _ _ (Nat.lt_of_not_le h)]
        exact ih

end AtomicFile
