/-
  Candidates as diffs of the baseline.

  A search point sets every dimension at once. The child has the point's values and is the
  baseline everywhere else, in whatever order the point lists them; the records that the
  engine attaches are the changes as Python compares values. They say all there is to say
  about the child, and they alone make the same content again, but for one case: `0.0` and
  `-0.0` are equal and have different content hashes, so a temperature that changes its sign
  only changes the hash without a record (`deriveSigned_exact_iff`).

  `deriveSigned` is the engine's derivation with the signs kept; without them it is
  `deriveCandidate` (`deriveSigned_erase`).
-/
import NeuroForge.Experiments.Engine
import NeuroForge.Genomes.SignedZero

namespace NeuroForge

open Fallible Assignable

variable {ρ : Type}

/-- The value is of the type of the field it is for. -/
def OwnTyped (x : String × Value) : Prop :=
  ∀ f, Dict.get? fieldPaths x.1 = some f → f.kind.Holds x.2

theorem overrides_of_point {es : List (GenomeField × Value)}
    (hdict : (Dict.keys (spell es)).Nodup) (hown : ∀ x ∈ spell es, OwnTyped x) :
    Overrides es where
  nodup := by
    rw [keys_spell] at hdict
    exact hdict.of_map _
  own e he := hown (e.1.path, e.2) (List.mem_map_of_mem he) e.1 (get?_path e.1)

theorem perm_of_spell {V : Type} {es es' : List (GenomeField × V)}
    (h : (spell es').Perm (spell es)) : es'.Perm es := by
  have hinj : Function.Injective fun e : GenomeField × V => (e.1.path, e.2) := by
    intro a b hab
    obtain ⟨hpath, hvalue⟩ := Prod.mk.inj hab
    exact Prod.ext (path_injective hpath) hvalue
  exact (List.map_perm_map_iff hinj).mp h

namespace ExperimentEngine

variable (e : ExperimentEngine ρ)

/-- What the engine writes into the records. -/
def proposalType : String := e.config.searchStrategy ++ ".propose"

def proposalReason : String :=
  "Proposed by " ++ e.config.searchStrategy ++ " search to optimize the configured " ++
    "multi-objective fitness function."

/-- The records of the assignments that change the baseline. -/
def changeRecords (es : List (GenomeField × Value)) : List MutationRecord :=
  (es.filter fun x => e.baselineGenome.config.get x.1 ≠ x.2).map fun x =>
    ⟨e.proposalType, x.1.path, e.baselineGenome.config.get x.1, x.2, e.proposalReason⟩

theorem changed_iff {old new : Value} {k : FieldKind} (hold : k.Holds old) (hnew : k.Holds new) :
    changed old new = decide (old ≠ new) := by
  have heq := pyEq_iff_eq hold hnew
  unfold changed
  by_cases h : old = new
  · rw [heq.mpr h, decide_eq_false (not_not.mpr h)]
    rfl
  · rw [Bool.eq_false_iff.mpr fun hpy => h (heq.mp hpy), decide_eq_true h]
    rfl

/-- A candidate is derived from the assignments of its point, with the changes recorded. -/
theorem deriveCandidate_spell {es : List (GenomeField × Value)} (hes : Overrides es)
    (version index : ℕ) : e.deriveCandidate (spell es) version index =
      raiseField (e.baselineGenome.derive e.genomeDigest (e.changeRecords es) (spell es) version
        (e.baselineGenome.generation + 1 + index)) := by
  have hrecords : ((spell es).filterMapM fun (field : String × Value) => do
      let old ← raiseField (getFieldByPath e.baselineGenome.config field.1)
      return if changed old field.2 then
          some (MutationRecord.mk e.proposalType field.1 old field.2 e.proposalReason)
        else none) = .ok (e.changeRecords es) := by
    refine filterMapM_map_eq_ok fun x hx => ?_
    have hchanged := changed_iff (holds_get e.baselineGenome.config x.1) (hes.own x hx)
    show (raiseField (getFieldByPath e.baselineGenome.config x.1.path) >>= fun old =>
      pure (if changed old x.2 then
        some (MutationRecord.mk e.proposalType x.1.path old x.2 e.proposalReason) else none)) = _
    rw [getFieldByPath_path]
    show Except.ok (if changed (e.baselineGenome.config.get x.1) x.2 then _ else none) = _
    rw [hchanged]
  exact congrArg (fun records => records >>= fun records =>
    raiseField (e.baselineGenome.derive e.genomeDigest records (spell es) version
      (e.baselineGenome.generation + 1 + index))) hrecords

/-- The candidate of an assignment is the result of the assignments. -/
theorem deriveCandidate_spell_iff {es : List (GenomeField × Value)} (hes : Overrides es)
    {version index : ℕ} {child : SystemGenome} :
    e.deriveCandidate (spell es) version index = .ok child ↔
      ∃ config, configFields.setAll e.baselineGenome.config es = .ok config ∧
        child = {
          systemId := e.baselineGenome.systemId
          version := version
          parentHash := some (e.baselineGenome.hash e.genomeDigest)
          mutations := e.changeRecords es
          generation := e.baselineGenome.generation + 1 + index
          status := .generated
          config := config } := by
  rw [e.deriveCandidate_spell hes, SystemGenome.derive, deepSet_spell]
  cases configFields.setAll e.baselineGenome.config es with
  | error err =>
      constructor
      · intro h
        cases h
      · rintro ⟨config, hconfig, -⟩
        cases hconfig
  | ok config =>
      constructor
      · intro h
        cases h
        exact ⟨config, rfl, rfl⟩
      · rintro ⟨config', hconfig, rfl⟩
        cases hconfig
        rfl

end ExperimentEngine

/-! ## Candidates whose zeros have signs -/

namespace ExperimentEngine

variable (e : ExperimentEngine ρ)

/-- The proposed genome of one search point. -/
def deriveSigned (digest : SignedDigest) (baseline : SignedGenome) (point : SignedPoint)
    (version generationIndex : ℕ) : Except String SignedGenome := do
  let records ← point.filterMapM fun (field : String × SignedValue) => do
    let old ← raiseField (baseline.config.getFieldByPath field.1)
    return if !old.pyEq field.2 then
        some (SignedRecord.mk e.proposalType field.1 old field.2 e.proposalReason)
      else none
  raiseField (baseline.derive digest records point version
    (baseline.generation + 1 + generationIndex))

/-- Without the signs it is the candidate of the same point. -/
theorem deriveSigned_erase {digest : SignedDigest} {baseline : SignedGenome}
    (hbaseline : e.baselineGenome = baseline.erase)
    (hparent : baseline.erase.hash e.genomeDigest = baseline.hash digest) (point : SignedPoint)
    (version index : ℕ) :
    (e.deriveSigned digest baseline point version index).map SignedGenome.erase =
      e.deriveCandidate point.erase version index := by
  have hscan : ∀ field ∈ point, (do
      let old ← raiseField (getFieldByPath e.baselineGenome.config field.1)
      return if changed old field.2.erase then
          some (MutationRecord.mk e.proposalType field.1 old field.2.erase e.proposalReason)
        else none) = ((do
      let old ← raiseField (baseline.config.getFieldByPath field.1)
      return if !old.pyEq field.2 then
          some (SignedRecord.mk e.proposalType field.1 old field.2 e.proposalReason)
        else none) : Except String (Option SignedRecord)).map (Option.map SignedRecord.erase) := by
    intro field _
    rw [hbaseline, show baseline.erase.config = baseline.config.config from rfl,
      ← baseline.config.getFieldByPath_erase]
    cases baseline.config.getFieldByPath field.1 with
    | error err => rfl
    | ok old =>
        show Except.ok (if changed old.erase field.2.erase then _ else none) =
          Except.ok (Option.map _ (if !old.pyEq field.2 then _ else none))
        rw [apply_ite (Option.map SignedRecord.erase)]
        rfl
  have hrecords := filterMapM_map_comm (h := fun x : String × SignedValue => (x.1, x.2.erase))
    (k := fun field : String × Value => do
      let old ← raiseField (getFieldByPath e.baselineGenome.config field.1)
      return if changed old field.2 then
          some (MutationRecord.mk e.proposalType field.1 old field.2 e.proposalReason)
        else none) hscan
  refine Eq.trans ?_ (congrArg (· >>= fun records => raiseField (e.baselineGenome.derive
    e.genomeDigest records point.erase version (e.baselineGenome.generation + 1 + index)))
    hrecords.symm)
  unfold deriveSigned
  cases point.filterMapM (m := Except String) _ with
  | error err => rfl
  | ok records =>
      have hderived := SignedGenome.derive_erase hparent records point version
        (baseline.generation + 1 + index)
      rw [hbaseline]
      show (raiseField (baseline.derive digest records point version
        (baseline.generation + 1 + index))).map SignedGenome.erase =
        raiseField (baseline.erase.derive e.genomeDigest (records.map SignedRecord.erase)
          point.erase version (baseline.generation + 1 + index))
      rw [← hderived]
      cases baseline.derive digest records point version (baseline.generation + 1 + index) <;> rfl

/-- The records of the assignments that change the baseline, for Python. -/
def signedRecords (baseline : SignedConfig) (es : List (GenomeField × SignedValue)) :
    List SignedRecord :=
  (es.filter fun x => !(baseline.get x.1).pyEq x.2).map fun x =>
    ⟨e.proposalType, x.1.path, baseline.get x.1, x.2, e.proposalReason⟩

variable {e} {digest : SignedDigest} {baseline child : SignedGenome}
  {es : List (GenomeField × SignedValue)} {version index : ℕ}

/-- The candidate of an assignment is the result of the assignments. -/
theorem deriveSigned_spell_iff :
    e.deriveSigned digest baseline (spell es) version index = .ok child ↔
      ∃ config, signedFields.setAll baseline.config es = .ok config ∧
        child = {
          systemId := baseline.systemId
          version := version
          parentHash := some (baseline.hash digest)
          mutations := e.signedRecords baseline.config es
          generation := baseline.generation + 1 + index
          status := .generated
          config := config } := by
  have hrecords : ((spell es).filterMapM fun (field : String × SignedValue) => do
      let old ← raiseField (baseline.config.getFieldByPath field.1)
      return if !old.pyEq field.2 then
          some (SignedRecord.mk e.proposalType field.1 old field.2 e.proposalReason)
        else none) = .ok (e.signedRecords baseline.config es) := by
    refine filterMapM_map_eq_ok fun x _ => ?_
    rw [SignedConfig.getFieldByPath_path]
    rfl
  have hderived : e.deriveSigned digest baseline (spell es) version index =
      raiseField (baseline.derive digest (e.signedRecords baseline.config es) (spell es) version
        (baseline.generation + 1 + index)) :=
    congrArg (· >>= fun records => raiseField (baseline.derive digest records (spell es) version
      (baseline.generation + 1 + index))) hrecords
  rw [hderived, SignedGenome.derive, SignedConfig.deepSet_spell]
  cases signedFields.setAll baseline.config es with
  | error err =>
      constructor
      · intro h
        cases h
      · rintro ⟨config, hconfig, -⟩
        cases hconfig
  | ok config =>
      constructor
      · intro h
        cases h
        exact ⟨config, rfl, rfl⟩
      · rintro ⟨config', hconfig, rfl⟩
        cases hconfig
        rfl

end ExperimentEngine

/-- Python takes the values of a field to be different. -/
def Differ (base child : SignedConfig) (path : String) : Prop :=
  ∃ old new, base.getFieldByPath path = .ok old ∧ child.getFieldByPath path = .ok new ∧
    old.pyEq new = false

/-- The child is the baseline with the point's values, and its records name the fields that
    differ, each once, with the old value and the new one. -/
structure FramedDiff (baseline child : SignedGenome) (point : SignedPoint) : Prop where
  systemId : child.systemId = baseline.systemId
  outside : ∀ path ∉ Dict.keys point,
    child.config.getFieldByPath path = baseline.config.getFieldByPath path
  inside : ∀ x ∈ point, child.config.getFieldByPath x.1 = .ok x.2
  exact : ∀ path, path ∈ child.mutations.map (·.fieldPath) ↔
    Differ baseline.config child.config path
  once : (child.mutations.map (·.fieldPath)).Nodup
  values : ∀ r ∈ child.mutations, baseline.config.getFieldByPath r.fieldPath = .ok r.oldValue ∧
    child.config.getFieldByPath r.fieldPath = .ok r.newValue

/-- The records say all there is to say about the content of the child. -/
structure ExactDiff (digest : SignedDigest) (baseline child : SignedGenome)
    (point : SignedPoint) : Prop extends FramedDiff baseline child point where
  /-- Derived with the new values of the records alone, the content is the same. -/
  enough : ∀ mutations version generation, ∃ again,
    baseline.derive digest mutations (child.mutations.map fun r => (r.fieldPath, r.newValue))
      version generation = .ok again ∧ again.hash digest = child.hash digest
  hash_iff : child.hash digest = baseline.hash digest ↔ child.mutations = []

/-- The baseline's temperature and the point's are both zero, and one of them is negative. -/
def SignFlipped (baseline : SignedConfig) (point : SignedPoint) : Prop :=
  (baseline.config.model.temperature : ℚ) = 0 ∧ ∃ v, ("model.temperature", v) ∈ point ∧
    v.erase = .float 0 ∧ (v = .negativeZero ↔ baseline.negativeZero = false)

section Diff

variable {baseline config : SignedConfig} {es : List (GenomeField × SignedValue)}

theorem getFieldByPath_of_assigned (h : signedFields.setAll baseline es = .ok config)
    (hnodup : (es.map Prod.fst).Nodup) (hown : ∀ x ∈ es, x.1.kind.Holds x.2.erase)
    {x : GenomeField × SignedValue} (hx : x ∈ es) :
    config.getFieldByPath x.1.path = .ok x.2 := by
  rw [SignedConfig.getFieldByPath_path]
  exact congrArg Except.ok (get_setAll_of_mem (A := signedFields) h hnodup hown hx)

theorem getFieldByPath_of_unassigned (h : signedFields.setAll baseline es = .ok config)
    {path : String} (hpath : path ∉ Dict.keys (spell es)) :
    config.getFieldByPath path = baseline.getFieldByPath path := by
  unfold SignedConfig.getFieldByPath
  cases hget : Dict.get? fieldPaths path with
  | none => rfl
  | some f =>
      have hf : f ∉ es.map Prod.fst := by
        intro hmem
        apply hpath
        rw [keys_spell, ← path_of_get? hget]
        exact List.mem_map_of_mem hmem
      exact congrArg Except.ok (get_setAll_of_not_mem (A := signedFields) h hf)

/-- What differs is what is assigned and changed. -/
theorem differ_iff (h : signedFields.setAll baseline es = .ok config)
    (hnodup : (es.map Prod.fst).Nodup) (hown : ∀ x ∈ es, x.1.kind.Holds x.2.erase)
    {path : String} : Differ baseline config path ↔
      ∃ x ∈ es, x.1.path = path ∧ (baseline.get x.1).pyEq x.2 = false := by
  constructor
  · rintro ⟨old, new, hold, hnew, hdiffer⟩
    by_cases hkey : path ∈ Dict.keys (spell es)
    · rw [keys_spell] at hkey
      obtain ⟨f, hf, rfl⟩ := List.mem_map.mp hkey
      obtain ⟨x, hx, rfl⟩ := List.mem_map.mp hf
      rw [getFieldByPath_of_assigned h hnodup hown hx] at hnew
      rw [SignedConfig.getFieldByPath_path] at hold
      cases hold
      cases hnew
      exact ⟨x, hx, rfl, hdiffer⟩
    · -- a field that is not assigned is the same
      rw [getFieldByPath_of_unassigned h hkey, hold] at hnew
      cases hnew
      rw [SignedValue.pyEq, Value.pyEq_self] at hdiffer
      cases hdiffer
  · rintro ⟨x, hx, rfl, hdiffer⟩
    exact ⟨_, _, baseline.getFieldByPath_path x.1, getFieldByPath_of_assigned h hnodup hown hx,
      hdiffer⟩

/-- A zero whose sign is flipped is the one thing that is assigned, equal and not the same. -/
theorem signFlipped_iff (hown : ∀ x ∈ es, x.1.kind.Holds x.2.erase) :
    SignFlipped baseline (spell es) ↔
      ∃ x ∈ es, (baseline.get x.1).pyEq x.2 = true ∧ baseline.get x.1 ≠ x.2 := by
  have hpath : GenomeField.modelTemperature.path = "model.temperature" := by decide
  constructor
  · rintro ⟨hzero, v, hmem, hv, hsign⟩
    obtain ⟨x, hx, heq⟩ := List.mem_map.mp hmem
    obtain ⟨hname, rfl⟩ := Prod.mk.inj heq
    have hfield : x.1 = .modelTemperature := path_injective (hname.trans hpath.symm)
    have hsame : baseline.config.get x.1 = x.2.erase := by
      rw [hfield, hv]
      exact SignedConfig.temperature_eq_zero.mpr hzero
    exact ⟨x, hx, (SignedConfig.pyEq_get_iff (hown x hx)).mpr hsame,
      (SignedConfig.get_ne_iff hsame).mpr ⟨hfield, hv, hsign⟩⟩
  · rintro ⟨x, hx, hequal, hne⟩
    have hsame := (SignedConfig.pyEq_get_iff (hown x hx)).mp hequal
    obtain ⟨hfield, hv, hsign⟩ := (SignedConfig.get_ne_iff hsame).mp hne
    refine ⟨?_, x.2, ?_, hv, hsign⟩
    · rw [hfield, hv] at hsame
      exact SignedConfig.temperature_eq_zero.mp hsame
    · rw [← hpath, ← hfield]
      exact List.mem_map_of_mem hx

end Diff

namespace ExperimentEngine

variable {e : ExperimentEngine ρ} {digest : SignedDigest} {baseline child : SignedGenome}
  {es : List (GenomeField × SignedValue)} {version index : ℕ}

/-- What a derivation that succeeds gives, signs flipped or not. -/
theorem deriveSigned_framed (hnodup : (es.map Prod.fst).Nodup)
    (hown : ∀ x ∈ es, x.1.kind.Holds x.2.erase)
    (h : e.deriveSigned digest baseline (spell es) version index = .ok child) :
    FramedDiff baseline child (spell es) := by
  obtain ⟨config, hconfig, rfl⟩ := deriveSigned_spell_iff.mp h
  have hpaths : (e.signedRecords baseline.config es).map (·.fieldPath) =
      ((es.filter fun x => !(baseline.config.get x.1).pyEq x.2).map Prod.fst).map
        GenomeField.path := by
    rw [signedRecords, List.map_map, List.map_map]
    rfl
  refine ⟨rfl, ?_, ?_, ?_, ?_, ?_⟩
  · intro path hpath
    exact getFieldByPath_of_unassigned hconfig hpath
  · intro x hx
    obtain ⟨y, hy, rfl⟩ := List.mem_map.mp hx
    exact getFieldByPath_of_assigned hconfig hnodup hown hy
  · intro path
    rw [differ_iff hconfig hnodup hown, hpaths, List.map_map, List.mem_map]
    refine exists_congr fun x => ?_
    rw [List.mem_filter, Bool.not_eq_true', and_assoc]
    exact and_congr_right' and_comm
  · rw [hpaths]
    exact (hnodup.sublist (List.filter_sublist.map _)).map path_injective
  · intro r hr
    obtain ⟨x, hx, rfl⟩ := List.mem_map.mp hr
    exact ⟨baseline.config.getFieldByPath_path x.1,
      getFieldByPath_of_assigned hconfig hnodup hown (List.mem_filter.mp hx).1⟩

/-- The records make the child's content again exactly if no sign is flipped. -/
theorem setAll_changes_iff {config : SignedConfig}
    (hconfig : signedFields.setAll baseline.config es = .ok config)
    (hnodup : (es.map Prod.fst).Nodup) (hown : ∀ x ∈ es, x.1.kind.Holds x.2.erase) :
    signedFields.setAll baseline.config
        (es.filter fun x => !(baseline.config.get x.1).pyEq x.2) = .ok config ↔
      ¬ SignFlipped baseline.config (spell es) := by
  rw [signFlipped_iff hown]
  constructor
  · rintro hagain ⟨x, hx, hequal, hne⟩
    apply hne
    -- the field is left out of the records
    have hout : x.1 ∉ (es.filter fun x => !(baseline.config.get x.1).pyEq x.2).map Prod.fst := by
      intro hmem
      obtain ⟨y, hy, hfield⟩ := List.mem_map.mp hmem
      obtain ⟨hy, hchanged⟩ := List.mem_filter.mp hy
      rw [List.inj_on_of_nodup_map hnodup hy hx hfield, hequal] at hchanged
      cases hchanged
    have hleft := get_setAll_of_not_mem (A := signedFields) hagain hout
    have hset := get_setAll_of_mem (A := signedFields) hconfig hnodup hown hx
    exact hleft.symm.trans hset
  · intro hkept
    refine setAll_filter (A := signedFields) hconfig hnodup hown fun x hx hequal => ?_
    by_contra hne
    exact hkept ⟨x, hx, by simpa using hequal, hne⟩

/-- The content is the baseline's exactly if there is no record, and no sign is flipped. -/
theorem config_eq_iff {config : SignedConfig}
    (hconfig : signedFields.setAll baseline.config es = .ok config)
    (hnodup : (es.map Prod.fst).Nodup) (hown : ∀ x ∈ es, x.1.kind.Holds x.2.erase)
    (hkept : ¬ SignFlipped baseline.config (spell es)) :
    config = baseline.config ↔ e.signedRecords baseline.config es = [] := by
  rw [signFlipped_iff hown] at hkept
  rw [signedRecords, List.map_eq_nil_iff, List.filter_eq_nil_iff,
    eq_of_setAll (A := signedFields) hconfig hnodup hown]
  refine forall₂_congr fun x hx => ?_
  constructor
  · intro hsame
    have hequal : (baseline.config.get x.1).pyEq x.2 = true := by
      rw [← show baseline.config.get x.1 = x.2 from hsame]
      exact Value.pyEq_self _
    simp [hequal]
  · intro hequal
    by_contra hne
    exact hkept ⟨x, hx, by simpa using hequal, hne⟩

/-- The order of a point's entries does not matter. -/
theorem deriveSigned_perm (hnodup : (es.map Prod.fst).Nodup)
    (hown : ∀ x ∈ es, x.1.kind.Holds x.2.erase)
    (h : e.deriveSigned digest baseline (spell es) version index = .ok child)
    {es' : List (GenomeField × SignedValue)} (hperm : es'.Perm es) :
    ∃ child', e.deriveSigned digest baseline (spell es') version index = .ok child' ∧
      child'.content = child.content := by
  obtain ⟨config, hconfig, rfl⟩ := deriveSigned_spell_iff.mp h
  have hconfig' := setAll_of_perm hconfig hnodup hown hperm
  exact ⟨_, deriveSigned_spell_iff.mpr ⟨config, hconfig', rfl⟩, rfl⟩

/-- **Exact, framed diffs, but for the sign of a zero.** A candidate is the baseline with the
    point's values, whatever the order of its entries, and its records name the fields that
    differ, with the old values. The records alone make the same content again, and the
    content hash is the baseline's exactly if there is none, unless the point sets a
    temperature of `0.0` to `-0.0` or one of `-0.0` to `0.0`; then neither holds. -/
theorem deriveSigned_exact_iff (e : ExperimentEngine ρ) {digest : SignedDigest}
    (hdigest : Function.Injective digest) (baseline : SignedGenome) {point : SignedPoint}
    (hdict : (Dict.keys point).Nodup)
    (hleaf : ∀ path ∈ Dict.keys point, path ∈ Dict.keys fieldPaths)
    (hown : ∀ x ∈ point, OwnTyped (x.1, x.2.erase)) {version index : ℕ} {child : SignedGenome}
    (h : e.deriveSigned digest baseline point version index = .ok child) :
    (ExactDiff digest baseline child point ∧
      ∀ point' : SignedPoint, point'.Perm point → ∃ child',
        e.deriveSigned digest baseline point' version index = .ok child' ∧
          child'.content = child.content) ↔
      ¬ SignFlipped baseline.config point := by
  obtain ⟨es, rfl⟩ := exists_spell hleaf
  have hnodup : (es.map Prod.fst).Nodup := by
    rw [keys_spell] at hdict
    exact hdict.of_map _
  have hown' : ∀ x ∈ es, x.1.kind.Holds x.2.erase := fun x hx =>
    hown (x.1.path, x.2) (List.mem_map_of_mem hx) x.1 (get?_path x.1)
  have hframed := deriveSigned_framed hnodup hown' h
  obtain ⟨config, hconfig, hchild⟩ := deriveSigned_spell_iff.mp h
  have hnew : (child.mutations.map fun r => (r.fieldPath, r.newValue)) =
      spell (es.filter fun x => !(baseline.config.get x.1).pyEq x.2) := by
    rw [hchild, signedRecords, List.map_map]
    rfl
  constructor
  · rintro ⟨hexact, -⟩
    -- the records alone make the content again
    obtain ⟨again, hagain, hhash⟩ := hexact.enough [] 0 0
    rw [hnew, SignedGenome.derive, SignedConfig.deepSet_spell] at hagain
    obtain ⟨config', hconfig', hagain⟩ := bind_eq_ok.mp hagain
    have hcontent : again.content = child.content := hdigest hhash
    rw [← pure_eq_ok.mp hagain, hchild] at hcontent
    obtain rfl : config' = config := congrArg SignedContent.config hcontent
    exact (setAll_changes_iff hconfig hnodup hown').mp hconfig'
  · intro hkept
    refine ⟨⟨hframed, ?_, ?_⟩, ?_⟩
    · intro mutations version' generation
      rw [hnew, SignedGenome.derive, SignedConfig.deepSet_spell,
        (setAll_changes_iff hconfig hnodup hown').mpr hkept, hchild]
      exact ⟨_, rfl, rfl⟩
    · have hcontent := config_eq_iff (e := e) hconfig hnodup hown' hkept
      rw [hchild, ← hcontent]
      constructor
      · intro hhash
        exact congrArg SignedContent.config (hdigest hhash)
      · intro hsame
        rw [hsame]
        rfl
    · intro point' hperm
      have hleaf' : ∀ path ∈ Dict.keys point', path ∈ Dict.keys fieldPaths := fun path hpath =>
        hleaf path ((hperm.map Prod.fst).mem_iff.mp hpath)
      obtain ⟨es', rfl⟩ := exists_spell hleaf'
      exact deriveSigned_perm hnodup hown' h (perm_of_spell hperm)

/-! ## A sign that is flipped -/

section Example

theorem zero_degrees : (0 : ℚ) ≤ 0 ∧ (0 : ℚ) ≤ 2 := by norm_num

def coldConfig : GenomeConfig :=
  { GenomeConfig.defaults with
    model := { GenomeConfig.defaults.model with temperature := ⟨0, zero_degrees⟩ } }

/-- The original configuration with the temperature `0.0`. -/
def coldGenome : SignedGenome where
  systemId := "app"
  version := 1
  config := ⟨coldConfig, false, fun h => absurd h Bool.false_ne_true⟩

def coldPoint : SignedPoint := [("model.temperature", .negativeZero)]

/-- The point changes nothing, says Python; the content is another. -/
theorem coldPoint_unrecorded : ∃ digest child, Function.Injective digest ∧
    exampleEngine.deriveSigned digest coldGenome coldPoint 2 0 = .ok child ∧
    child.mutations = [] ∧ child.hash digest ≠ coldGenome.hash digest ∧
    ¬ ExactDiff digest coldGenome child coldPoint := by
  obtain ⟨digest, hdigest⟩ := exists_injective_signedDigest
  have hpoint : coldPoint = spell [(GenomeField.modelTemperature, SignedValue.negativeZero)] := by
    decide
  have haccepted : (signedFields.setAll coldGenome.config
      [(.modelTemperature, .negativeZero)]).toOption.isSome = true := by decide +kernel
  obtain ⟨config, hconfig⟩ := Option.isSome_iff_exists.mp haccepted
  have hconfig := toOption_eq_some.mp hconfig
  obtain ⟨child, hchild, hsame, hrecords⟩ : ∃ child,
      exampleEngine.deriveSigned digest coldGenome coldPoint 2 0 = .ok child ∧
        child.config = config ∧ child.mutations = exampleEngine.signedRecords coldGenome.config
          [(.modelTemperature, .negativeZero)] := by
    rw [hpoint]
    exact ⟨_, deriveSigned_spell_iff.mpr ⟨config, hconfig, rfl⟩, rfl, rfl⟩
  have hsign : config.get .modelTemperature = .negativeZero :=
    get_setAll_of_mem (A := signedFields) (e := (.modelTemperature, .negativeZero)) hconfig
      (List.nodup_singleton _) (by simpa using ⟨0, rfl⟩) (List.mem_singleton_self _)
  have hnone : exampleEngine.signedRecords coldGenome.config
      [(.modelTemperature, .negativeZero)] = [] := by decide +kernel
  rw [hnone] at hrecords
  have hhash : child.hash digest ≠ coldGenome.hash digest := by
    intro heq
    have hcold : child.config = coldGenome.config := congrArg SignedContent.config (hdigest heq)
    rw [← hsame, hcold] at hsign
    exact absurd hsign (by decide)
  exact ⟨digest, child, hdigest, hchild, hrecords, hhash, fun hexact =>
    hhash (hexact.hash_iff.mpr hrecords)⟩

/-- Three assignments, one of them of what the baseline has. -/
def exampleAssignments : List (GenomeField × SignedValue) :=
  [(.retrievalTopK, .plain (.int 7)), (.toolsEnabled, .plain (.list [.str "search"])),
    (.modelTemperature, .plain (.float (1/2)))]

theorem deriveSigned_exampleAssignments : ∃ digest child,
    Function.Injective digest ∧
      exampleEngine.deriveSigned digest coldGenome (spell exampleAssignments) 2 0 = .ok child ∧
      ExactDiff digest coldGenome child (spell exampleAssignments) ∧
      child.mutations.map (·.fieldPath) = ["retrieval.top_k", "model.temperature"] := by
  obtain ⟨digest, hdigest⟩ := exists_injective_signedDigest
  have hown : ∀ x ∈ exampleAssignments, x.1.kind.Holds x.2.erase := by
    simp only [exampleAssignments, List.forall_mem_cons]
    exact ⟨⟨7, rfl⟩, ⟨["search"], rfl⟩, ⟨1/2, rfl⟩, nofun⟩
  have haccepted : (signedFields.setAll coldGenome.config
      exampleAssignments).toOption.isSome = true := by decide +kernel
  obtain ⟨config, hconfig⟩ := Option.isSome_iff_exists.mp haccepted
  have hchild : exampleEngine.deriveSigned digest coldGenome (spell exampleAssignments) 2 0 =
      .ok _ := deriveSigned_spell_iff.mpr ⟨config, toOption_eq_some.mp hconfig, rfl⟩
  have hkept : ¬ SignFlipped coldGenome.config (spell exampleAssignments) := by
    rintro ⟨-, v, hv, hzero, -⟩
    obtain ⟨x, hx, heq⟩ := List.mem_map.mp hv
    obtain ⟨hname, rfl⟩ := Prod.mk.inj heq
    have hall : ∀ x ∈ exampleAssignments, x.1.path = "model.temperature" →
        x.2.erase ≠ .float 0 := by decide +kernel
    exact hall x hx hname hzero
  refine ⟨digest, _, hdigest, hchild, ((deriveSigned_exact_iff exampleEngine hdigest coldGenome
    (by decide) (by decide) ?_ hchild).mpr hkept).1, ?_⟩
  · intro x hx f hf
    obtain ⟨y, hy, rfl⟩ := List.mem_map.mp hx
    rw [get?_path] at hf
    cases hf
    exact hown y hy
  · show (exampleEngine.signedRecords coldGenome.config exampleAssignments).map (·.fieldPath) = _
    decide +kernel

end Example

end ExperimentEngine

end NeuroForge
