/-
  What separates a genome from the one it was derived from.

  The values a child was derived with are assignments to leaf fields (`Overrides`). Kept as
  records where they change something, they say exactly where the configurations differ
  (`recordedDiff`). Digests that tell all contents apart are shown to exist.
-/
import Mathlib.Data.Countable.Basic
import Mathlib.Data.Rat.Encodable
import Mathlib.Logic.Equiv.List
import NeuroForge.Genomes.Fields

namespace NeuroForge

open Assignable

/-- Assignments of values of the fields' own types to distinct leaf fields. -/
structure Overrides (es : List (GenomeField × Value)) : Prop where
  nodup : (es.map Prod.fst).Nodup
  own : ∀ e ∈ es, e.1.kind.Holds e.2

/-- What is changed of `base`: the path, the old value and the new one. -/
def changesOf (base : GenomeConfig) (es : List (GenomeField × Value)) :
    List (String × Value × Value) :=
  (es.filter fun e => base.get e.1 ≠ e.2).map fun e => (e.1.path, base.get e.1, e.2)

/-- What a record says, its type and its reason apart. -/
def MutationRecord.change (r : MutationRecord) : String × Value × Value :=
  (r.fieldPath, r.oldValue, r.newValue)

/-- The records name exactly the fields in which the configurations differ, each once, with
    the old value and the new one. -/
structure RecordedDiff (base child : GenomeConfig) (records : List MutationRecord) : Prop where
  exact : ∀ path, path ∈ records.map (·.fieldPath) ↔
    getFieldByPath child path ≠ getFieldByPath base path
  once : (records.map (·.fieldPath)).Nodup
  values : ∀ r ∈ records, getFieldByPath base r.fieldPath = .ok r.oldValue ∧
    getFieldByPath child r.fieldPath = .ok r.newValue

section
variable {base child : GenomeConfig} {es : List (GenomeField × Value)}

theorem getFieldByPath_of_mem (hes : Overrides es) (h : configFields.setAll base es = .ok child)
    {e : GenomeField × Value} (he : e ∈ es) : getFieldByPath child e.1.path = .ok e.2 := by
  rw [getFieldByPath_path]
  exact congrArg Except.ok (get_setAll_of_mem (A := configFields) h hes.nodup hes.own he)

theorem getFieldByPath_of_not_mem (h : configFields.setAll base es = .ok child) {path : String}
    (hpath : path ∉ Dict.keys (spell es)) :
    getFieldByPath child path = getFieldByPath base path := by
  unfold getFieldByPath
  cases hget : Dict.get? fieldPaths path with
  | none => rfl
  | some f =>
      have hf : f ∉ es.map Prod.fst := by
        intro hmem
        apply hpath
        rw [keys_spell, ← path_of_get? hget]
        exact List.mem_map_of_mem hmem
      exact congrArg Except.ok (get_setAll_of_not_mem (A := configFields) h hf)

/-- The assignments that change something, as records. -/
theorem recordedDiff (hes : Overrides es) (h : configFields.setAll base es = .ok child)
    {records : List MutationRecord} (hrecords : records.map (·.change) = changesOf base es) :
    RecordedDiff base child records := by
  have hpaths : records.map (·.fieldPath) =
      ((es.filter fun e => base.get e.1 ≠ e.2).map Prod.fst).map GenomeField.path := by
    have hfst := congrArg (List.map Prod.fst) hrecords
    rw [changesOf, List.map_map, List.map_map] at hfst
    rw [List.map_map]
    exact hfst
  constructor
  · intro path
    rw [hpaths]
    constructor
    · intro hmem
      obtain ⟨f, hf, rfl⟩ := List.mem_map.mp hmem
      obtain ⟨e, he, rfl⟩ := List.mem_map.mp hf
      obtain ⟨he, hchanged⟩ := List.mem_filter.mp he
      rw [getFieldByPath_of_mem hes h he, getFieldByPath_path]
      exact fun heq => of_decide_eq_true hchanged (Except.ok.inj heq).symm
    · intro hdiffer
      by_contra hnot
      apply hdiffer
      by_cases hkey : path ∈ Dict.keys (spell es)
      · -- assigned what it held
        rw [keys_spell] at hkey
        obtain ⟨f, hf, rfl⟩ := List.mem_map.mp hkey
        obtain ⟨e, he, rfl⟩ := List.mem_map.mp hf
        have hsame : base.get e.1 = e.2 := by
          by_contra hchanged
          exact hnot (List.mem_map_of_mem (List.mem_map_of_mem
            (List.mem_filter.mpr ⟨he, decide_eq_true hchanged⟩)))
        rw [getFieldByPath_of_mem hes h he, getFieldByPath_path, hsame]
      · exact getFieldByPath_of_not_mem h hkey
  · rw [hpaths]
    exact (hes.nodup.sublist (List.filter_sublist.map _)).map path_injective
  · intro r hr
    have hchange : r.change ∈ changesOf base es := hrecords ▸ List.mem_map_of_mem hr
    obtain ⟨e, he, heq⟩ := List.mem_map.mp hchange
    obtain ⟨hpath, hvalues⟩ := Prod.mk.inj heq
    obtain ⟨hold, hnew⟩ := Prod.mk.inj hvalues
    rw [← hpath, ← hold, ← hnew]
    exact ⟨getFieldByPath_path _ _, getFieldByPath_of_mem hes h (List.mem_filter.mp he).1⟩

end

/-! ## Digests -/

instance countable_string : Countable String := by
  have hchar : Function.Injective Char.toNat := fun _ _ h => Char.toNat_inj.mp h
  have : Countable Char := hchar.countable
  have hinj : Function.Injective String.toList := fun _ _ h => String.toList_inj.mp h
  exact hinj.countable

instance : Countable Scalar := by
  have hinj : Function.Injective fun s : Scalar => match s with
      | .null => (Sum.inl () : Unit ⊕ Bool ⊕ ℤ ⊕ ℚ ⊕ String)
      | .bool b => .inr (.inl b)
      | .int z => .inr (.inr (.inl z))
      | .float q => .inr (.inr (.inr (.inl q)))
      | .str s => .inr (.inr (.inr (.inr s))) := by
    intro a b h
    cases a <;> cases b <;> simp_all
  exact hinj.countable

instance : Countable Value := by
  have hinj : Function.Injective fun v : Value => match v with
      | .scalar s => (Sum.inl s : Scalar ⊕ List Scalar)
      | .list xs => .inr xs := by
    intro a b h
    cases a <;> cases b <;> simp_all
  exact hinj.countable

/-- Countably many things can be told apart by texts. -/
theorem exists_injective_text (α : Type) [Countable α] :
    ∃ text : α → String, Function.Injective text := by
  obtain ⟨number, hnumber⟩ := exists_injective_nat α
  refine ⟨fun a => Nat.repr (number a), fun a b h => hnumber ?_⟩
  have hvalue := congrArg (fun s : String => Nat.ofDigitChars 10 s.toList 0) h
  simpa using hvalue

instance : Countable GenomeContent := by
  have hinj : Function.Injective fun content : GenomeContent =>
      (content.systemId, fieldPaths.map fun e => content.config.get e.2) := by
    intro a b h
    obtain ⟨hsystem, hfields⟩ := Prod.mk.inj h
    have hconfig : a.config = b.config := by
      refine GenomeConfig.ext_get fun f => ?_
      exact List.map_inj_left.mp hfields _ (Dict.mem_of_get? (get?_path f))
    cases a
    cases b
    simp_all
  exact hinj.countable

/-- There are digests that tell all contents apart. -/
theorem exists_injective_digest : ∃ digest : GenomeDigest, Function.Injective digest :=
  exists_injective_text GenomeContent

end NeuroForge
