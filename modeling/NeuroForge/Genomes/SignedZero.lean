/-
  Configurations with the sign of a zero.

  A float is a rational in the rest of the model, with one zero. The source has two, which
  Python takes to be equal and `json.dumps` writes differently, so that the content hash
  tells them apart. The temperature is the only float of a configuration; here it keeps its
  sign. Without the sign (`erase`) everything is as in `Genomes.Schema`: `get_erase`,
  `set_erase`, `deepSet_erase`.
-/
import NeuroForge.Genomes.Diff

namespace NeuroForge

open Fallible Assignable

/-- A value, where a zero float may be negative. -/
inductive SignedValue where
  | plain (v : Value)
  /-- `-0.0` -/
  | negativeZero
  deriving DecidableEq

namespace SignedValue

def erase : SignedValue → Value
  | .plain v => v
  | .negativeZero => .float 0

/-- `==`, for which the two zeros are equal. -/
def pyEq (a b : SignedValue) : Bool := a.erase.pyEq b.erase

end SignedValue

/-- A configuration, and whether its temperature is `-0.0`. -/
structure SignedConfig where
  config : GenomeConfig
  negativeZero : Bool
  isZero : negativeZero = true → (config.model.temperature : ℚ) = 0
  deriving DecidableEq

/-- Validated as a float, a value keeps the sign of its zero. -/
def SignedConfig.signAfter (c : SignedConfig) (v : SignedValue) (f : GenomeField) : Bool :=
  if f = .modelTemperature then v = .negativeZero else c.negativeZero

namespace SignedConfig

variable {c : SignedConfig} {loc : String} {v : SignedValue} {f : GenomeField}

theorem temperature_eq_zero {config : GenomeConfig} :
    config.get .modelTemperature = .float 0 ↔ (config.model.temperature : ℚ) = 0 := by
  show Value.float _ = Value.float 0 ↔ _
  rw [Value.float, Value.float, Value.scalar.injEq, Scalar.float.injEq]

theorem isZero_signAfter {config : GenomeConfig} (h : c.config.set loc v.erase f = .ok config)
    (hsign : c.signAfter v f = true) : (config.model.temperature : ℚ) = 0 := by
  rw [← temperature_eq_zero]
  unfold signAfter at hsign
  split_ifs at hsign with hf
  · subst hf
    obtain rfl : v = .negativeZero := of_decide_eq_true hsign
    exact GenomeConfig.get_set h ⟨0, rfl⟩
  · rw [GenomeConfig.get_set_of_ne h (Ne.symm hf)]
    exact temperature_eq_zero.mpr (c.isZero hsign)

def get (c : SignedConfig) (f : GenomeField) : SignedValue :=
  if f = .modelTemperature ∧ c.negativeZero = true then .negativeZero else .plain (c.config.get f)

def set (c : SignedConfig) (loc : String) (v : SignedValue) (f : GenomeField) :
    Except FieldError SignedConfig :=
  match h : c.config.set loc v.erase f with
  | .ok config => .ok ⟨config, c.signAfter v f, isZero_signAfter h⟩
  | .error err => .error err

theorem set_eq_ok {c' : SignedConfig} : c.set loc v f = .ok c' ↔
    c.config.set loc v.erase f = .ok c'.config ∧ c'.negativeZero = c.signAfter v f := by
  obtain ⟨config', sign', hzero'⟩ := c'
  unfold set
  split
  · rename_i config h
    constructor
    · intro hsame
      obtain ⟨rfl, rfl⟩ := SignedConfig.mk.inj (Except.ok.inj hsame)
      exact ⟨h, rfl⟩
    · rintro ⟨hconfig, hsign⟩
      obtain rfl : config = config' := Except.ok.inj (h.symm.trans hconfig)
      obtain rfl : sign' = c.signAfter v f := hsign
      rfl
  · rename_i err h
    refine iff_of_false nofun fun hset => ?_
    cases h.symm.trans hset.1

/-! ## Without the sign -/

theorem get_erase (c : SignedConfig) (f : GenomeField) : (c.get f).erase = c.config.get f := by
  unfold get
  split_ifs with h
  · rw [h.1]
    exact (temperature_eq_zero.mpr (c.isZero h.2)).symm
  · rfl

theorem set_erase (c : SignedConfig) (loc : String) (v : SignedValue) (f : GenomeField) :
    (c.set loc v f).map SignedConfig.config = c.config.set loc v.erase f := by
  cases h : c.set loc v f with
  | ok c' => exact (set_eq_ok.mp h).1.symm
  | error err =>
      unfold set at h
      split at h
      · cases h
      · rename_i herr
        cases h
        exact herr.symm

end SignedConfig

/-- Only the temperature holds a float. -/
theorem eq_temperature_of_holds {f : GenomeField} {q : ℚ} (h : f.kind.Holds (.float q)) :
    f = .modelTemperature := by
  cases f
  all_goals first
    | rfl
    | (obtain ⟨_, hnot⟩ := h; cases hnot)

/-! ## Assignments -/

/-- The leaf fields of a configuration whose zeros have signs. -/
def signedFields : Assignable SignedConfig GenomeField SignedValue FieldError where
  get := SignedConfig.get
  set c f v := c.set f.path v f
  Own f v := f.kind.Holds v.erase
  get_set := by
    intro c c' f v h hown
    obtain ⟨hset, hsign⟩ := SignedConfig.set_eq_ok.mp h
    have herased := GenomeConfig.get_set hset hown
    unfold SignedConfig.get
    rw [hsign, herased]
    unfold SignedConfig.signAfter
    cases v with
    | plain w =>
        refine if_neg fun hnegative => ?_
        rw [if_pos hnegative.1] at hnegative
        exact absurd hnegative.2 (by simp)
    | negativeZero => simp [eq_temperature_of_holds hown]
  get_set_of_ne := by
    intro c c' f g v h hg
    obtain ⟨hset, hsign⟩ := SignedConfig.set_eq_ok.mp h
    unfold SignedConfig.get
    rw [GenomeConfig.get_set_of_ne hset hg]
    by_cases htemperature : g = .modelTemperature
    · have hf : f ≠ .modelTemperature := fun hf => hg (htemperature.trans hf.symm)
      have hkept : c'.negativeZero = c.negativeZero := by
        rw [hsign, SignedConfig.signAfter, if_neg hf]
      rw [hkept]
    · simp [htemperature]
  set_any := by
    intro c c' f v h d
    obtain ⟨config, hconfig⟩ := GenomeConfig.set_any (SignedConfig.set_eq_ok.mp h).1 d.config
    exact ⟨⟨config, d.signAfter v f, SignedConfig.isZero_signAfter hconfig⟩,
      SignedConfig.set_eq_ok.mpr ⟨hconfig, rfl⟩⟩
  ext_get := by
    intro c d h
    have hconfig : c.config = d.config := by
      refine GenomeConfig.ext_get fun f => ?_
      rw [← SignedConfig.get_erase, ← SignedConfig.get_erase]
      exact congrArg SignedValue.erase (h f)
    have hsign : c.negativeZero = d.negativeZero := by
      have htemperature := h .modelTemperature
      unfold SignedConfig.get at htemperature
      cases hc : c.negativeZero <;> cases hd : d.negativeZero <;> simp_all
    obtain ⟨config, sign, hzero⟩ := c
    obtain rfl := hconfig
    obtain rfl := hsign
    rfl

/-- Values of one type are equal for Python if they are the same but for the sign of a zero. -/
theorem SignedConfig.pyEq_get_iff {c : SignedConfig} {f : GenomeField} {v : SignedValue}
    (hv : f.kind.Holds v.erase) : (c.get f).pyEq v = true ↔ c.config.get f = v.erase := by
  unfold SignedValue.pyEq
  rw [c.get_erase]
  exact pyEq_iff_eq (holds_get c.config f) hv

/-- The same but for the sign: two zeros, one of them negative. -/
theorem SignedConfig.get_ne_iff {c : SignedConfig} {f : GenomeField} {v : SignedValue}
    (hsame : c.config.get f = v.erase) : c.get f ≠ v ↔
      f = .modelTemperature ∧ v.erase = .float 0 ∧
        (v = .negativeZero ↔ c.negativeZero = false) := by
  cases v with
  | plain w =>
      obtain rfl : c.config.get f = w := hsame
      unfold SignedConfig.get
      split_ifs with h
      · obtain ⟨rfl, hnegative⟩ := h
        have hzero := temperature_eq_zero.mpr (c.isZero hnegative)
        simp [SignedValue.erase, hzero, hnegative]
      · refine iff_of_false (fun hne => hne rfl) ?_
        rintro ⟨hf, -, hsign⟩
        have hplain : c.negativeZero ≠ false := fun hsign' => nomatch hsign.mpr hsign'
        exact h ⟨hf, Bool.eq_true_of_not_eq_false hplain⟩
  | negativeZero =>
      have hf : f = .modelTemperature := eq_temperature_of_holds (hsame ▸ holds_get c.config f)
      unfold SignedConfig.get
      cases hnegative : c.negativeZero <;> simp [hf, SignedValue.erase]

/-- A search point whose zeros have signs. -/
abbrev SignedPoint := Dict String SignedValue

def SignedPoint.erase (point : SignedPoint) : Point := point.map fun x => (x.1, x.2.erase)

namespace SignedConfig

def getFieldByPath (c : SignedConfig) (path : String) : Except FieldError SignedValue :=
  match Dict.get? fieldPaths path with
  | some f => .ok (c.get f)
  | none => .error ⟨path, "no such field"⟩

def deepSet (c : SignedConfig) (overrides : SignedPoint) : Except FieldError SignedConfig :=
  overrides.foldlM (fun c e =>
    match Dict.get? fieldPaths e.1 with
    | some f => c.set e.1 e.2 f
    | none => .error ⟨e.1, "no such field"⟩) c

theorem getFieldByPath_path (c : SignedConfig) (f : GenomeField) :
    c.getFieldByPath f.path = .ok (c.get f) := by
  rw [getFieldByPath, get?_path]

theorem getFieldByPath_erase (c : SignedConfig) (path : String) :
    (c.getFieldByPath path).map SignedValue.erase = NeuroForge.getFieldByPath c.config path := by
  unfold getFieldByPath NeuroForge.getFieldByPath
  cases Dict.get? fieldPaths path with
  | none => rfl
  | some f => exact congrArg Except.ok (c.get_erase f)

theorem deepSet_spell (c : SignedConfig) (es : List (GenomeField × SignedValue)) :
    c.deepSet (spell es) = signedFields.setAll c es := by
  induction es generalizing c with
  | nil => rfl
  | cons e es ih =>
      have hfirst : c.deepSet (spell (e :: es)) =
          c.set e.1.path e.2 e.1 >>= fun c => c.deepSet (spell es) := by
        unfold deepSet spell
        rw [List.map_cons, List.foldlM_cons, get?_path]
      have hrest : signedFields.setAll c (e :: es) =
          c.set e.1.path e.2 e.1 >>= fun c => signedFields.setAll c es := List.foldlM_cons
      rw [hfirst, hrest]
      exact bind_congr fun d => ih d

theorem deepSet_erase (c : SignedConfig) (overrides : SignedPoint) :
    (c.deepSet overrides).map SignedConfig.config =
      NeuroForge.deepSet c.config overrides.erase := by
  induction overrides generalizing c with
  | nil => rfl
  | cons e overrides ih =>
      unfold deepSet NeuroForge.deepSet SignedPoint.erase
      rw [List.map_cons, List.foldlM_cons, List.foldlM_cons]
      cases Dict.get? fieldPaths e.1 with
      | none => rfl
      | some f =>
          dsimp only
          rw [← c.set_erase e.1 e.2 f]
          cases c.set e.1 e.2 f with
          | error err => rfl
          | ok d => exact ih d

end SignedConfig

/-! ## Genomes -/

structure SignedRecord where
  mutationType : String
  fieldPath : String
  oldValue : SignedValue
  newValue : SignedValue
  reason : String
  deriving DecidableEq

def SignedRecord.erase (r : SignedRecord) : MutationRecord where
  mutationType := r.mutationType
  fieldPath := r.fieldPath
  oldValue := r.oldValue.erase
  newValue := r.newValue.erase
  reason := r.reason

structure SignedGenome where
  systemId : String
  version : ℕ
  parentHash : Option String := none
  mutations : List SignedRecord := []
  generation : ℕ := 0
  status : PromotionStatus := .generated
  config : SignedConfig

/-- `content_dict`, in which the two zeros are written differently. -/
structure SignedContent where
  systemId : String
  config : SignedConfig
  deriving DecidableEq

/-- The digest of a content dictionary. -/
abbrev SignedDigest := SignedContent → String

namespace SignedGenome

def content (g : SignedGenome) : SignedContent := ⟨g.systemId, g.config⟩

def hash (digest : SignedDigest) (g : SignedGenome) : String := digest g.content

def derive (digest : SignedDigest) (g : SignedGenome) (mutations : List SignedRecord)
    (overrides : SignedPoint) (newVersion generation : ℕ) : Except FieldError SignedGenome := do
  let config ← g.config.deepSet overrides
  return {
    systemId := g.systemId
    version := newVersion
    parentHash := some (g.hash digest)
    mutations := mutations
    generation := generation
    status := .generated
    config := config }

def erase (g : SignedGenome) : SystemGenome where
  systemId := g.systemId
  version := g.version
  parentHash := g.parentHash
  mutations := g.mutations.map SignedRecord.erase
  generation := g.generation
  status := g.status
  config := g.config.config

theorem derive_erase {digest : SignedDigest} {digest' : GenomeDigest} {g : SignedGenome}
    (hparent : g.erase.hash digest' = g.hash digest) (mutations : List SignedRecord)
    (overrides : SignedPoint) (newVersion generation : ℕ) :
    (g.derive digest mutations overrides newVersion generation).map erase =
      g.erase.derive digest' (mutations.map SignedRecord.erase) overrides.erase newVersion
        generation := by
  unfold derive SystemGenome.derive
  rw [hparent, show g.erase.config = g.config.config from rfl, ← g.config.deepSet_erase]
  cases g.config.deepSet overrides <;> rfl

end SignedGenome

/-- There are digests that tell all contents apart. -/
theorem exists_injective_signedDigest :
    ∃ digest : SignedDigest, Function.Injective digest := by
  have hinj : Function.Injective fun content : SignedContent =>
      ((⟨content.systemId, content.config.config⟩ : GenomeContent),
        content.config.negativeZero) := by
    rintro ⟨system, config, sign, hzero⟩ ⟨system', config', sign', hzero'⟩ h
    obtain ⟨hcontent, rfl⟩ := Prod.mk.inj h
    obtain ⟨rfl, rfl⟩ := GenomeContent.mk.inj hcontent
    rfl
  have : Countable SignedContent := hinj.countable
  exact exists_injective_text SignedContent

end NeuroForge
