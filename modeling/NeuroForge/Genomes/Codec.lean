/-
  The JSON form of a genome: `model_dump(mode="json")` and `model_validate`.

  The configuration is one object a section, one field a leaf; reading it starts from the
  defaults and assigns what is there, so that it is validated as any other assignment is.
  Since a configuration is determined by its leaf fields, it is read back exactly
  (`decodeConfig_encoded`), and so is a genome (`modelValidate_modelDump`). Tuples are written
  as lists. `created_at` and the generator version of a record are written and not read, as the
  model of a genome leaves them out.
-/
import NeuroForge.Genomes.Fields
import NeuroForge.Lib.Json

namespace NeuroForge

open Fallible Json Json.Codec Assignable

/-! ## Values -/

def encodeScalar : Scalar → Json
  | .null => .null
  | .bool b => .bool b
  | .int z => .int z
  | .float q => .float q
  | .str s => .str s

def decodeScalar : Json → Except Misfit Scalar
  | .null => .ok .null
  | .bool b => .ok (.bool b)
  | .int z => .ok (.int z)
  | .float q => .ok (.float q)
  | .str s => .ok (.str s)
  | _ => .error ⟨"", "Input should be a scalar"⟩

theorem decodeScalar_encodeScalar (s : Scalar) : decodeScalar (encodeScalar s) = .ok s := by
  cases s
  all_goals rfl

def scalarCodec : Codec Scalar := ⟨encodeScalar, decodeScalar, decodeScalar_encodeScalar⟩

/-- What a field or a search point holds. -/
def valueCodec : Codec Value where
  encode
    | .scalar s => encodeScalar s
    | .list xs => scalarCodec.list.encode xs
  decode
    | .arr items => (scalarCodec.list.decode (.arr items)).map .list
    | j => (decodeScalar j).map .scalar
  roundtrip v := by
    cases v with
    | scalar s =>
        cases s
        all_goals rfl
    | list xs =>
        show (scalarCodec.list.decode (scalarCodec.list.encode xs)).map Value.list = _
        rw [scalarCodec.list.roundtrip]
        rfl

/-- A schema error while a file is read. -/
def misfit {α : Type} : Except FieldError α → Except Misfit α
  | .ok a => .ok a
  | .error e => .error ⟨e.loc, e.msg⟩

/-- An enumeration by its spellings. -/
def literalCodec (α : Type) [DecidableEq α] [Literal α] [LawfulLiteral α] : Codec α where
  encode a := valueCodec.encode (Literal.text a)
  decode j := valueCodec.decode j >>= fun v => misfit (Literal.parse "" v)
  roundtrip a := by
    rw [valueCodec.roundtrip, ok_bind, LawfulLiteral.parse_text]
    rfl

instance : Literal PromotionStatus := ⟨[("GENERATED", .generated), ("VALIDATED", .validated),
  ("BENCHMARKED", .benchmarked), ("HOLDOUT_TESTED", .holdoutTested), ("APPROVED", .approved),
  ("CANARY", .canary), ("PROMOTED", .promoted), ("REJECTED", .rejected),
  ("ROLLED_BACK", .rolledBack), ("SUPERSEDED", .superseded)]⟩

instance : LawfulLiteral PromotionStatus :=
  .of_table (by decide) (by decide) (by rintro (_ | _ | _ | _ | _ | _ | _ | _ | _ | _) <;> decide)

/-! ## Configurations -/

/-- The sections of a genome, with the names of their fields. -/
def sections : List (String × List (String × GenomeField)) :=
  [("model", [("provider", .modelProvider), ("name", .modelName),
      ("temperature", .modelTemperature), ("max_tokens", .modelMaxTokens),
      ("reasoning_effort", .modelReasoningEffort)]),
    ("prompt", [("system_prompt", .promptSystemPrompt), ("strategy", .promptStrategy),
      ("include_examples", .promptIncludeExamples),
      ("max_instructions", .promptMaxInstructions)]),
    ("retrieval", [("chunk_size", .retrievalChunkSize),
      ("chunk_overlap", .retrievalChunkOverlap), ("top_k", .retrievalTopK),
      ("reranker", .retrievalReranker), ("query_transform", .retrievalQueryTransform)]),
    ("tools", [("enabled", .toolsEnabled), ("selection_policy", .toolsSelectionPolicy),
      ("max_tool_calls", .toolsMaxToolCalls)]),
    ("context", [("compression", .contextCompression), ("deduplicate", .contextDeduplicate),
      ("ordering", .contextOrdering)]),
    ("agent", [("planning_strategy", .agentPlanningStrategy),
      ("max_iterations", .agentMaxIterations),
      ("stopping_criteria", .agentStoppingCriteria)]),
    ("output", [("format", .outputFormat)])]

/-- One section, field by field. -/
def encodeSection (c : GenomeConfig) (fields : List (String × GenomeField)) : Dict String Json :=
  fields.map fun field => (field.1, valueCodec.encode (c.get field.2))

def encodeConfig (c : GenomeConfig) : Dict String Json :=
  sections.map fun s => (s.1, .obj (encodeSection c s.2))

/-- The leaf fields, each with its section and its name in it. -/
def leaves : List (String × String × GenomeField) :=
  sections.flatMap fun s => s.2.map fun field => (s.1, field.1, field.2)

/-- What an object has for a field of a section, if it has it. -/
def lookup (fields : Dict String Json) (section' name : String) : Except Misfit (Option Json) :=
  match Dict.get? fields section' with
  | none => .ok none
  | some j => (fieldsOf j).map fun inner => Dict.get? inner name

/-- Assigns one leaf field what the object has for it. -/
def decodeLeaf (fields : Dict String Json) (c : GenomeConfig)
    (leaf : String × String × GenomeField) : Except Misfit GenomeConfig := do
  match ← lookup fields leaf.1 leaf.2.1 with
  | none => return c
  | some j =>
      let v ← valueCodec.decode j
      misfit (c.set leaf.2.2.path v leaf.2.2)

def decodeConfig (fields : Dict String Json) : Except Misfit GenomeConfig :=
  leaves.foldlM (decodeLeaf fields) .defaults

theorem misfit_bind {α β : Type} (m : Except FieldError α) (k : α → Except FieldError β) :
    misfit (m >>= k) = misfit m >>= fun a => misfit (k a) := by
  cases m with
  | ok a => rfl
  | error e => rfl

theorem lookup_encoded {fields : Dict String Json} {c : GenomeConfig}
    (hfields : ∀ s ∈ sections, Dict.get? fields s.1 = some (.obj (encodeSection c s.2)))
    {leaf : String × String × GenomeField} (hleaf : leaf ∈ leaves) :
    lookup fields leaf.1 leaf.2.1 = .ok (some (valueCodec.encode (c.get leaf.2.2))) := by
  have hnodup : ∀ s ∈ sections, (s.2.map Prod.fst).Nodup := by decide
  obtain ⟨s, hs, hleaf⟩ := List.mem_flatMap.mp hleaf
  obtain ⟨field, hfield, rfl⟩ := List.mem_map.mp hleaf
  have hkeys : (Dict.keys (encodeSection c s.2)).Nodup := by
    rw [Dict.keys, encodeSection, List.map_map]
    exact hnodup s hs
  have hget := Dict.get?_of_mem hkeys (List.mem_map_of_mem hfield)
  rw [lookup, hfields s hs]
  exact congrArg Except.ok hget

/-- The values of the leaf fields, as assignments. -/
def assignments (c : GenomeConfig) (ls : List (String × String × GenomeField)) :
    List (GenomeField × Value) :=
  ls.map fun leaf => (leaf.2.2, c.get leaf.2.2)

theorem foldlM_decodeLeaf {fields : Dict String Json} {c : GenomeConfig}
    (hfields : ∀ s ∈ sections, Dict.get? fields s.1 = some (.obj (encodeSection c s.2)))
    (d : GenomeConfig) {ls : List (String × String × GenomeField)} (hls : ∀ l ∈ ls, l ∈ leaves) :
    ls.foldlM (decodeLeaf fields) d = misfit (configFields.setAll d (assignments c ls)) := by
  induction ls generalizing d with
  | nil => rfl
  | cons leaf ls ih =>
      have hfirst : decodeLeaf fields d leaf =
          misfit (configFields.set d leaf.2.2 (c.get leaf.2.2)) := by
        rw [decodeLeaf, lookup_encoded hfields (hls leaf List.mem_cons_self), ok_bind]
        dsimp only
        rw [valueCodec.roundtrip, ok_bind]
        rfl
      have hrest : configFields.setAll d (assignments c (leaf :: ls)) =
          configFields.set d leaf.2.2 (c.get leaf.2.2) >>= fun d =>
            configFields.setAll d (assignments c ls) := List.foldlM_cons
      rw [List.foldlM_cons, hfirst, hrest, misfit_bind]
      exact bind_congr fun d => ih d fun l hl => hls l (List.mem_cons_of_mem leaf hl)

theorem parseFloat_self (loc : String) {lo hi : ℚ} (x : RatIn lo hi) :
    parseFloat loc lo hi (.float x) = .ok x := dif_pos x.2

theorem parseInt_self (loc : String) {lo hi : ℤ} (x : IntIn lo hi) :
    parseInt loc lo hi (.int x) = .ok x := dif_pos x.2

theorem parseBool_self (loc : String) (b : Bool) : parseBool loc (.bool b) = .ok b := by
  cases b
  all_goals rfl

/-- A configuration's own values are accepted for its fields. -/
theorem accepts_get (c : GenomeConfig) (f : GenomeField) : configFields.Accepts (f, c.get f) := by
  intro d
  have haccepts : ∀ {α : Type} {m : Except FieldError α} {a : α} {F : α → GenomeConfig},
      m = .ok a → ∃ d', (do return F (← m)) = Except.ok (ε := FieldError) d' := by
    rintro α m a F rfl
    exact ⟨F a, rfl⟩
  cases f
  all_goals first
    | exact haccepts (LawfulLiteral.parse_text _ _)
    | exact haccepts (parseInt_self _ _)
    | exact haccepts (parseFloat_self _ _)
    | exact haccepts (parseBool_self _ _)
    | exact haccepts (parseStrTuple_strs _ _)
    | exact haccepts (m := parseStr _ (.str _)) rfl

/-- A configuration is read back from its sections. -/
theorem decodeConfig_encoded {fields : Dict String Json} {c : GenomeConfig}
    (hfields : ∀ s ∈ sections, Dict.get? fields s.1 = some (.obj (encodeSection c s.2))) :
    decodeConfig fields = .ok c := by
  have hall : ∀ f : GenomeField, ∃ l ∈ leaves, l.2.2 = f := by
    intro f
    cases f <;> decide
  have hnodup : ((assignments c leaves).map Prod.fst).Nodup := by
    rw [assignments, List.map_map]
    show (leaves.map fun l => l.2.2).Nodup
    decide
  have hmem : ∀ e ∈ assignments c leaves, e.2 = c.get e.1 := by
    intro e he
    obtain ⟨l, -, rfl⟩ := List.mem_map.mp he
    rfl
  have haccepts : ∀ e ∈ assignments c leaves, configFields.Accepts e := by
    intro e he
    have hget : e = (e.1, c.get e.1) := by rw [← hmem e he]
    rw [hget]
    exact accepts_get c e.1
  have hown : ∀ e ∈ assignments c leaves, configFields.Own e.1 e.2 := by
    intro e he
    rw [hmem e he]
    exact holds_get c e.1
  obtain ⟨c', hc'⟩ := setAll_of_accepts haccepts .defaults
  have hsame : c' = c := by
    apply GenomeConfig.ext_get
    intro f
    obtain ⟨l, hl, rfl⟩ := hall f
    exact get_setAll_of_mem hc' hnodup hown (List.mem_map_of_mem hl)
  rw [decodeConfig, foldlM_decodeLeaf hfields _ fun _ hl => hl, hc', hsame]
  rfl

/-! ## Genomes -/

def mutationRecordCodec : Codec MutationRecord where
  encode r := .obj [("mutation_type", str.encode r.mutationType),
    ("field_path", str.encode r.fieldPath), ("old_value", valueCodec.encode r.oldValue),
    ("new_value", valueCodec.encode r.newValue), ("reason", str.encode r.reason),
    ("generator_version", .str "1.0.0")]
  decode j := do
    let fields ← fieldsOf j
    return {
      mutationType := ← str.field fields "mutation_type"
      fieldPath := ← str.field fields "field_path"
      oldValue := ← valueCodec.fieldD fields "old_value" (.scalar .null)
      newValue := ← valueCodec.fieldD fields "new_value" (.scalar .null)
      reason := ← str.fieldD fields "reason" "" }
  roundtrip r := by
    show (fieldsOf (.obj _) >>= fun fields => _) = _
    rw [fieldsOf, ok_bind, field_encode (a := r.mutationType) rfl, ok_bind,
      field_encode (a := r.fieldPath) rfl, ok_bind, fieldD_encode (a := r.oldValue) _ rfl, ok_bind,
      fieldD_encode (a := r.newValue) _ rfl, ok_bind, fieldD_encode (a := r.reason) _ rfl, ok_bind]
    rfl

namespace SystemGenome

def parentHashCodec : Codec (Option String) := str.nullable nofun

/-- What a genome has besides its configuration. -/
def metadata (createdAt : String) (g : SystemGenome) : Dict String Json :=
  [("system_id", str.encode g.systemId), ("version", nat.encode g.version),
    ("parent_hash", parentHashCodec.encode g.parentHash),
    ("mutations", mutationRecordCodec.list.encode g.mutations),
    ("generation", nat.encode g.generation),
    ("status", (literalCodec PromotionStatus).encode g.status), ("created_at", .str createdAt)]

/-- `model_dump(mode="json")`. -/
def modelDump (createdAt : String) (g : SystemGenome) : Dict String Json :=
  g.metadata createdAt ++ encodeConfig g.config

/-- `model_validate` of an object. -/
def modelValidate (fields : Dict String Json) : Except Misfit SystemGenome := do
  return {
    systemId := ← str.field fields "system_id"
    version := ← nat.field fields "version"
    parentHash := ← parentHashCodec.fieldD fields "parent_hash" none
    mutations := ← mutationRecordCodec.list.fieldD fields "mutations" []
    generation := ← nat.fieldD fields "generation" 0
    status := ← (literalCodec PromotionStatus).fieldD fields "status" .generated
    config := ← decodeConfig fields }

variable (createdAt : String) (g : SystemGenome)

theorem get?_modelDump_section {s : String × List (String × GenomeField)} (hs : s ∈ sections) :
    Dict.get? (g.modelDump createdAt) s.1 = some (.obj (encodeSection g.config s.2)) := by
  have hmeta : ∀ s ∈ sections, s.1 ∉ ["system_id", "version", "parent_hash", "mutations",
    "generation", "status", "created_at"] := by decide
  have hnodup : (sections.map Prod.fst).Nodup := by decide
  have hkeys : (Dict.keys (encodeConfig g.config)).Nodup := by
    rw [Dict.keys, encodeConfig, List.map_map]
    exact hnodup
  have hnone : Dict.get? (g.metadata createdAt) s.1 = none := Dict.get?_eq_none.mpr (hmeta s hs)
  rw [modelDump, Dict.get?_append, hnone]
  exact Dict.get?_of_mem hkeys (List.mem_map_of_mem hs)

/-- A genome is read back from its dump. -/
theorem modelValidate_modelDump : modelValidate (g.modelDump createdAt) = .ok g := by
  have hconfig : decodeConfig (g.modelDump createdAt) = .ok g.config :=
    decodeConfig_encoded fun s hs => get?_modelDump_section createdAt g hs
  rw [modelValidate, field_encode (a := g.systemId) rfl, ok_bind,
    field_encode (a := g.version) rfl, ok_bind, fieldD_encode (a := g.parentHash) _ rfl, ok_bind,
    fieldD_encode (a := g.mutations) _ rfl, ok_bind, fieldD_encode (a := g.generation) _ rfl,
    ok_bind, fieldD_encode (a := g.status) _ rfl, ok_bind, hconfig]
  rfl

end SystemGenome

end NeuroForge
