/-
  The file of `experiments/checkpoint.py`: what `save` writes and `load_or_none` reads.

  `CheckpointRecord` has the fields of the source's class at their types there: points and the
  best genome are any JSON objects. The best fitness before the first candidate is no number
  in JSON; it is written as `null` and read back as what it was. A record is read back from
  its text (`load_modelDumpJson`), a save goes through a temporary file, and so the file always
  holds a whole record (`loadOrNone_file`). The engine's own checkpoints are such records, so
  that what it finds at the path is the last one it saved completely (`readDisk_saves`).

  Making the directory before a save changes neither file. The encoding of the text as bytes
  is left out.
-/
import NeuroForge.Experiments.Selection
import NeuroForge.Genomes.Codec
import NeuroForge.Lib.AtomicFile
import NeuroForge.Lib.JsonText

namespace NeuroForge

open Fallible Json Json.Codec AtomicFile

/-- `TellBatch`. -/
structure BatchRecord where
  points : List (Dict String Json)
  fitness : List ℚ

/-- `ExperimentCheckpoint`, with its fields' own types. -/
structure CheckpointRecord where
  experimentId : String
  strategyName : String
  seed : ℤ
  status : String := "running"
  stopReason : String := ""
  budgetState : Dict String ℚ := []
  tellBatches : List BatchRecord := []
  bestGenome : Option (Dict String Json) := none
  bestFitness : WithBot ℚ := ⊥
  bestFeasible : Bool := false
  datasetVersionHash : String := ""
  datasetVersion : ℤ := 0

def BatchRecord.codec : Codec BatchRecord where
  encode b := .obj [("points", any.dict.list.encode b.points),
    ("fitness", float.list.encode b.fitness)]
  decode j := do
    let fields ← fieldsOf j
    return {
      points := ← any.dict.list.field fields "points"
      fitness := ← float.list.field fields "fitness" }
  roundtrip b := by
    show (fieldsOf (.obj _) >>= fun fields => _) = _
    rw [fieldsOf, ok_bind, field_encode (a := b.points) rfl, ok_bind,
      field_encode (a := b.fitness) rfl, ok_bind]
    rfl

namespace CheckpointRecord

def bestGenomeCodec : Codec (Option (Dict String Json)) := any.dict.nullable nofun

def codec : Codec CheckpointRecord where
  encode c := .obj [("experiment_id", str.encode c.experimentId),
    ("strategy_name", str.encode c.strategyName), ("seed", int.encode c.seed),
    ("status", str.encode c.status), ("stop_reason", str.encode c.stopReason),
    ("budget_state", float.dict.encode c.budgetState),
    ("tell_batches", BatchRecord.codec.list.encode c.tellBatches),
    ("best_genome", bestGenomeCodec.encode c.bestGenome),
    ("best_fitness", bestFitnessCodec.encode c.bestFitness),
    ("best_feasible", bool.encode c.bestFeasible),
    ("dataset_version_hash", str.encode c.datasetVersionHash),
    ("dataset_version", int.encode c.datasetVersion)]
  decode j := do
    let fields ← fieldsOf j
    return {
      experimentId := ← str.field fields "experiment_id"
      strategyName := ← str.field fields "strategy_name"
      seed := ← int.field fields "seed"
      status := ← str.fieldD fields "status" "running"
      stopReason := ← str.fieldD fields "stop_reason" ""
      budgetState := ← float.dict.fieldD fields "budget_state" []
      tellBatches := ← BatchRecord.codec.list.fieldD fields "tell_batches" []
      bestGenome := ← bestGenomeCodec.fieldD fields "best_genome" none
      bestFitness := ← bestFitnessCodec.fieldD fields "best_fitness" ⊥
      bestFeasible := ← bool.fieldD fields "best_feasible" false
      datasetVersionHash := ← str.fieldD fields "dataset_version_hash" ""
      datasetVersion := ← int.fieldD fields "dataset_version" 0 }
  roundtrip c := by
    show (fieldsOf (.obj _) >>= fun fields => _) = _
    rw [fieldsOf, ok_bind, field_encode (a := c.experimentId) rfl, ok_bind,
      field_encode (a := c.strategyName) rfl, ok_bind, field_encode (a := c.seed) rfl, ok_bind,
      fieldD_encode (a := c.status) _ rfl, ok_bind, fieldD_encode (a := c.stopReason) _ rfl,
      ok_bind, fieldD_encode (a := c.budgetState) _ rfl, ok_bind,
      fieldD_encode (a := c.tellBatches) _ rfl, ok_bind,
      fieldD_encode (a := c.bestGenome) _ rfl, ok_bind,
      fieldD_encode (a := c.bestFitness) _ rfl, ok_bind,
      fieldD_encode (a := c.bestFeasible) _ rfl, ok_bind,
      fieldD_encode (a := c.datasetVersionHash) _ rfl, ok_bind,
      fieldD_encode (a := c.datasetVersion) _ rfl, ok_bind]
    rfl

/-! ## Saving and loading -/

variable (F : JsonText.Floats)

/-- `model_dump_json(indent=2)`: the text a save writes. -/
def modelDumpJson (c : CheckpointRecord) : List Char := JsonText.dumps F (codec.encode c)

def load (text : List Char) : Except Misfit CheckpointRecord :=
  match JsonText.loads F text with
  | some j => codec.decode j
  | none => .error ⟨"", "Expecting value"⟩

def loadOrNone (file : Option (List Char)) : Except Misfit (Option CheckpointRecord) :=
  match file with
  | none => .ok none
  | some text => (load F text).map some

/-- `best_genome_obj`; an empty object counts as none. -/
def bestGenomeObj (c : CheckpointRecord) : Except Misfit (Option SystemGenome) :=
  match c.bestGenome with
  | none => .ok none
  | some fields =>
      if fields.isEmpty then .ok none else (SystemGenome.modelValidate fields).map some

/-- The floats of the record survive their text and no key comes twice. -/
def Storable (c : CheckpointRecord) : Prop := JsonText.Storable F (codec.encode c)

instance : DecidablePred (Storable F) := fun c =>
  inferInstanceAs (Decidable (JsonText.Storable F (codec.encode c)))

theorem load_modelDumpJson {c : CheckpointRecord} (h : c.Storable F) :
    load F (c.modelDumpJson F) = .ok c := by
  have hloads : JsonText.loads F (c.modelDumpJson F) = some (codec.encode c) :=
    JsonText.loads_dumps F h
  rw [load, hloads]
  exact codec.roundtrip c

theorem bestGenomeObj_modelDump {c : CheckpointRecord} {createdAt : String} {g : SystemGenome}
    (h : c.bestGenome = some (g.modelDump createdAt)) : c.bestGenomeObj = .ok (some g) := by
  have hvalid := SystemGenome.modelValidate_modelDump createdAt g
  rw [bestGenomeObj, h]
  show (SystemGenome.modelValidate (g.modelDump createdAt)).map some = _
  rw [hvalid]
  rfl

/-- The file is a whole record, or there is none. -/
theorem loadOrNone_file (leftover : Option (List Char))
    (attempts : List (Attempt CheckpointRecord)) (h : ∀ a ∈ attempts, a.value.Storable F) :
    loadOrNone F (Files.saves (modelDumpJson F) ⟨none, leftover⟩ attempts).file =
      .ok (lastRenamed (modelDumpJson F) attempts) := by
  rw [file_saves]
  cases hlast : lastRenamed (modelDumpJson F) attempts with
  | none => rfl
  | some c =>
      obtain ⟨a, ha, rfl⟩ := mem_of_lastRenamed _ hlast
      show (load F (a.value.modelDumpJson F)).map some = _
      rw [load_modelDumpJson F (h a ha)]
      rfl

/-- Whatever saves were cut off wherever, what is loaded is the last record whose rename
    happened, with the best genome it was saved with. -/
theorem loadOrNone_saves (leftover : Option (List Char))
    (attempts : List (Attempt CheckpointRecord)) (h : ∀ a ∈ attempts, a.value.Storable F) :
    loadOrNone F (Files.saves (modelDumpJson F) ⟨none, leftover⟩ attempts).file =
        .ok (lastRenamed (modelDumpJson F) attempts) ∧
      ∀ c ∈ lastRenamed (modelDumpJson F) attempts, ∀ createdAt g,
        c.bestGenome = some (SystemGenome.modelDump createdAt g) → ∀ digest,
          c.bestGenomeObj.map (Option.map (SystemGenome.hash digest)) =
            .ok (some (g.hash digest)) := by
  refine ⟨loadOrNone_file F leftover attempts h, ?_⟩
  intro c _ createdAt g hgenome digest
  rw [bestGenomeObj_modelDump hgenome]
  rfl

/-- The floats in the records below are 0.2 and 0.75. -/
def exampleFloats : JsonText.Floats where
  shortest q :=
    let digits := if q = 1 / 5 then 2 else 75
    ⟨false, 0, Nat.toDigits 10 digits, none, NumberedText.allDigits_toDigits digits,
      .inl Nat.toDigits_ne_nil⟩
  nearest q := q

/-- Before the first candidate. -/
def freshRecord : CheckpointRecord := { experimentId := "x", strategyName := "random", seed := 1 }

def exampleGenome : SystemGenome := { systemId := "x", version := 2, parentHash := some "h" }

/-- After a batch of two candidates. -/
def evaluatedRecord : CheckpointRecord :=
  { freshRecord with
    budgetState := [("cost_used", 3 / 4)]
    tellBatches := [⟨[[("retrieval.top_k", .int 7)], [("tools.enabled", .arr [.str "search"])]],
      [3 / 4, 1 / 5]⟩]
    bestGenome := some (exampleGenome.modelDump "2026-01-01T00:00:00Z")
    bestFitness := ((3 / 4 : ℚ) : WithBot ℚ)
    bestFeasible := true }

/-- A save that is not cut off. -/
def completeSave (c : CheckpointRecord) : Attempt CheckpointRecord :=
  ⟨c, (saveSteps (c.modelDumpJson exampleFloats)).length⟩

def interruptedSaves : List (Attempt CheckpointRecord) :=
  [completeSave freshRecord, ⟨evaluatedRecord, 5⟩]

def resumedSaves : List (Attempt CheckpointRecord) :=
  interruptedSaves ++ [completeSave evaluatedRecord, ⟨freshRecord, 5⟩]

theorem renamed_completeSave (c : CheckpointRecord) :
    Renamed (modelDumpJson exampleFloats) (completeSave c) := Nat.le_refl _

theorem not_renamed {c : CheckpointRecord} {k : ℕ} (h : k < JsonText.weight (codec.encode c)) :
    ¬Renamed (modelDumpJson exampleFloats) ⟨c, k⟩ := by
  intro hrenamed
  have hlength : (saveSteps (c.modelDumpJson exampleFloats)).length ≤ k := hrenamed
  have hweight : JsonText.weight (codec.encode c) ≤ (c.modelDumpJson exampleFloats).length :=
    JsonText.weight_le exampleFloats 0 _
  rw [length_saveSteps] at hlength
  omega

theorem lastRenamed_interruptedSaves :
    lastRenamed (modelDumpJson exampleFloats) interruptedSaves = some freshRecord := by
  have hlist : interruptedSaves = ([] ++ [completeSave freshRecord]) ++ [⟨evaluatedRecord, 5⟩] :=
    rfl
  rw [hlist, lastRenamed_concat, if_neg (not_renamed (by decide +kernel)), lastRenamed_concat,
    if_pos (renamed_completeSave freshRecord)]
  rfl

theorem lastRenamed_resumedSaves :
    lastRenamed (modelDumpJson exampleFloats) resumedSaves = some evaluatedRecord := by
  have hlist : resumedSaves =
      (interruptedSaves ++ [completeSave evaluatedRecord]) ++ [⟨freshRecord, 5⟩] := rfl
  rw [hlist, lastRenamed_concat, if_neg (not_renamed (by decide +kernel)), lastRenamed_concat,
    if_pos (renamed_completeSave evaluatedRecord)]
  rfl

theorem storable_examples : freshRecord.Storable exampleFloats ∧
    evaluatedRecord.Storable exampleFloats := by
  decide +kernel

theorem loadOrNone_resumedSaves :
    loadOrNone exampleFloats (Files.saves (modelDumpJson exampleFloats) ⟨none, none⟩
        interruptedSaves).file = .ok (some freshRecord) ∧
      loadOrNone exampleFloats (Files.saves (modelDumpJson exampleFloats) ⟨none, none⟩
        resumedSaves).file = .ok (some evaluatedRecord) ∧
      evaluatedRecord.bestGenomeObj.map (Option.map (SystemGenome.hash (·.systemId))) =
        .ok (some "x") := by
  obtain ⟨hfresh, hevaluated⟩ := storable_examples
  have hinterrupted := loadOrNone_saves exampleFloats none interruptedSaves
    (by simp [interruptedSaves, completeSave, hfresh, hevaluated])
  have hresumed := loadOrNone_saves exampleFloats none resumedSaves
    (by simp [resumedSaves, interruptedSaves, completeSave, hfresh, hevaluated])
  rw [lastRenamed_interruptedSaves] at hinterrupted
  rw [lastRenamed_resumedSaves] at hresumed
  exact ⟨hinterrupted.1, hresumed.1,
    hresumed.2 evaluatedRecord rfl "2026-01-01T00:00:00Z" exampleGenome rfl (·.systemId)⟩

end CheckpointRecord

/-! ## The engine's checkpoint -/

instance : Literal RunStatus := ⟨[("running", .running), ("completed", .completed),
  ("cancelled", .cancelled)]⟩

def RunStatus.text : RunStatus → String
  | .running => "running"
  | .completed => "completed"
  | .cancelled => "cancelled"

/-- A batch with its points as JSON. -/
def TellBatch.toRecord (b : TellBatch) : BatchRecord :=
  ⟨b.points.map valueCodec.encodeEntries, b.fitness⟩

/-- The batch of a record whose points hold field values. -/
def TellBatch.ofRecord (r : BatchRecord) : Except Misfit TellBatch := do
  return { points := ← r.points.mapM valueCodec.decodeEntries, fitness := r.fitness }

theorem TellBatch.ofRecord_toRecord (b : TellBatch) : ofRecord b.toRecord = .ok b := by
  have hpoints := mapM_map_self b.points valueCodec.decodeEntries_encodeEntries
  show ((b.points.map valueCodec.encodeEntries).mapM valueCodec.decodeEntries >>= _) = _
  rw [hpoints, ok_bind]
  rfl

namespace ExperimentCheckpoint

/-- The record of a checkpoint, with its best genome as JSON. -/
def toRecord (createdAt : SystemGenome → String) (c : ExperimentCheckpoint) :
    CheckpointRecord where
  experimentId := c.experimentId
  strategyName := c.strategyName
  seed := c.seed
  status := c.status.text
  stopReason := c.stopReason
  budgetState := c.budgetState
  tellBatches := c.tellBatches.map TellBatch.toRecord
  bestGenome := c.bestGenome.map fun g => g.modelDump (createdAt g)
  bestFitness := c.bestFitness
  bestFeasible := c.bestFeasible
  datasetVersionHash := c.datasetVersionHash
  datasetVersion := c.datasetVersion

def ofRecord (r : CheckpointRecord) : Except Misfit ExperimentCheckpoint := do
  return {
    experimentId := r.experimentId
    strategyName := r.strategyName
    seed := r.seed
    status := ← misfit (Literal.parse "status" (.str r.status))
    stopReason := r.stopReason
    budgetState := r.budgetState
    tellBatches := ← r.tellBatches.mapM TellBatch.ofRecord
    bestGenome := ← r.bestGenomeObj
    bestFitness := r.bestFitness
    bestFeasible := r.bestFeasible
    datasetVersionHash := r.datasetVersionHash
    datasetVersion := ← nat.decode (int.encode r.datasetVersion) }

variable (createdAt : SystemGenome → String)

theorem bestGenomeObj_toRecord (c : ExperimentCheckpoint) :
    (c.toRecord createdAt).bestGenomeObj = .ok c.bestGenome := by
  have hrecord : (c.toRecord createdAt).bestGenome =
      c.bestGenome.map fun g => g.modelDump (createdAt g) := rfl
  cases hbest : c.bestGenome with
  | none => rw [CheckpointRecord.bestGenomeObj, hrecord, hbest, Option.map_none]
  | some g =>
      rw [hbest, Option.map_some] at hrecord
      exact CheckpointRecord.bestGenomeObj_modelDump hrecord

theorem ofRecord_toRecord (c : ExperimentCheckpoint) :
    ofRecord (c.toRecord createdAt) = .ok c := by
  have hstatus : misfit (Literal.parse "status" (.str c.status.text)) = .ok c.status := by
    cases c.status
    all_goals rfl
  have hbatches : (c.toRecord createdAt).tellBatches.mapM TellBatch.ofRecord =
      .ok c.tellBatches :=
    mapM_map_self c.tellBatches TellBatch.ofRecord_toRecord
  show (misfit (Literal.parse "status" (.str c.status.text)) >>= _) = _
  rw [hstatus, ok_bind, hbatches, ok_bind, bestGenomeObj_toRecord createdAt c, ok_bind]
  rfl

/-- What the engine finds at the path. -/
def readDisk (F : JsonText.Floats) (file : Option (List Char)) :
    Except Misfit (Option ExperimentCheckpoint) := do
  match ← CheckpointRecord.loadOrNone F file with
  | none => return none
  | some r => return some (← ofRecord r)

/-- What the engine finds is the last checkpoint it saved completely. -/
theorem readDisk_saves (F : JsonText.Floats) (leftover : Option (List Char))
    (attempts : List (Attempt ExperimentCheckpoint))
    (h : ∀ a ∈ attempts, (a.value.toRecord createdAt).Storable F) :
    readDisk F (Files.saves (fun c => (c.toRecord createdAt).modelDumpJson F) ⟨none, leftover⟩
      attempts).file =
        .ok (lastRenamed (fun c => (c.toRecord createdAt).modelDumpJson F) attempts) := by
  rw [file_saves]
  cases hlast : lastRenamed (fun c => (c.toRecord createdAt).modelDumpJson F) attempts with
  | none => rfl
  | some c =>
      obtain ⟨a, ha, rfl⟩ := mem_of_lastRenamed _ hlast
      have hload := CheckpointRecord.load_modelDumpJson F (h a ha)
      have hfound : CheckpointRecord.loadOrNone F
          (some ((a.value.toRecord createdAt).modelDumpJson F)) =
          .ok (some (a.value.toRecord createdAt)) := by
        rw [CheckpointRecord.loadOrNone, hload]
        rfl
      rw [Option.map_some, readDisk, hfound, ok_bind]
      show (ofRecord (a.value.toRecord createdAt) >>= _) = _
      rw [ofRecord_toRecord createdAt a.value]
      rfl

end ExperimentCheckpoint

end NeuroForge
