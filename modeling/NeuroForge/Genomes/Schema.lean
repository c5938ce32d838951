/-
  `genomes/schema.py`: the versioned, hashable configuration of an application.

  A `SystemGenome` is a `GenomeConfig` (the seven sections that take part in the content
  hash, with the application's id) and metadata. Bounded fields are subtypes and literal
  fields are enumerations, so a configuration the schema would refuse cannot be built;
  `GenomeConfig.set` is where an override is validated.

  The digest behind `hash` (SHA-256 of the canonical JSON, 16 hex digits) is a parameter.
  `created_at` is left out: nothing modelled reads it. Two inputs that the source lets pass
  are refused here, and no search space, operator or stored genome has them: a number spelled
  as a string, which pydantic converts, and an override of a further leaf of a section, which
  the schema ignores.
-/
import Mathlib.Data.Rat.Defs
import Mathlib.Tactic.NormNum
import NeuroForge.Lib.Dict
import NeuroForge.Lib.Fallible
import NeuroForge.Lib.Rounding

namespace NeuroForge

/-- A JSON scalar. -/
inductive Scalar where
  | null
  | bool (b : Bool)
  | int (z : ℤ)
  | float (q : ℚ)
  | str (s : String)
  deriving DecidableEq, Repr

/-- What a genome field or a search point holds: a scalar or a list of scalars. -/
inductive Value where
  | scalar (s : Scalar)
  | list (xs : List Scalar)
  deriving DecidableEq, Repr

namespace Value

def int (z : ℤ) : Value := .scalar (.int z)
def float (q : ℚ) : Value := .scalar (.float q)
def str (s : String) : Value := .scalar (.str s)
def bool (b : Bool) : Value := .scalar (.bool b)

end Value

/-- The number a scalar is, where it is one (`True` is 1). -/
def Scalar.num? : Scalar → Option ℚ
  | .bool b => some (if b then 1 else 0)
  | .int z => some z
  | .float q => some q
  | _ => none

def Value.num? : Value → Option ℚ
  | .scalar s => s.num?
  | .list _ => none

/-- `==` on scalars: numbers compare by value, whatever their type. -/
def Scalar.pyEq (a b : Scalar) : Bool :=
  match a.num?, b.num? with
  | some x, some y => x == y
  | none, none => a == b
  | _, _ => false

def Value.pyEq : Value → Value → Bool
  | .scalar a, .scalar b => a.pyEq b
  | .list xs, .list ys => xs.length == ys.length && (xs.zip ys).all fun p => p.1.pyEq p.2
  | _, _ => false

theorem all_zip_self {α : Type} {p : α × α → Bool} (h : ∀ a, p (a, a) = true) (xs : List α) :
    (xs.zip xs).all p = true := by
  induction xs with
  | nil => rfl
  | cons x xs ih =>
      show (p (x, x) && (xs.zip xs).all p) = true
      rw [h, ih]
      rfl

theorem Scalar.pyEq_self (a : Scalar) : a.pyEq a = true := by
  unfold Scalar.pyEq
  cases a.num? <;> simp

theorem Value.pyEq_self (v : Value) : v.pyEq v = true := by
  cases v with
  | scalar a => exact a.pyEq_self
  | list xs =>
      show (xs.length == xs.length && (xs.zip xs).all fun p => p.1.pyEq p.2) = true
      rw [all_zip_self Scalar.pyEq_self, beq_self_eq_true]
      rfl

/-! ## Literal and bounded fields -/

/-- A field type with finitely many spellings. -/
class Literal (α : Type) where
  table : List (String × α)

inductive ModelProvider where
  | mock | openaiCompatible | anthropicCompatible | localProvider
  deriving DecidableEq, Repr

instance : Literal ModelProvider := ⟨[("mock", .mock),
  ("openai_compatible", .openaiCompatible), ("anthropic_compatible", .anthropicCompatible),
  ("local", .localProvider)]⟩

inductive ReasoningEffort where
  | low | medium | high
  deriving DecidableEq, Repr

instance : Literal ReasoningEffort := ⟨[("low", .low), ("medium", .medium), ("high", .high)]⟩

inductive PromptStrategy where
  | direct | structuredReasoning | chainOfThought | fewShot | constrained
  deriving DecidableEq, Repr

instance : Literal PromptStrategy := ⟨[("direct", .direct),
  ("structured_reasoning", .structuredReasoning), ("chain_of_thought", .chainOfThought),
  ("few_shot", .fewShot), ("constrained", .constrained)]⟩

inductive Reranker where
  | off | crossEncoder | mmr
  deriving DecidableEq, Repr

instance : Literal Reranker := ⟨[("none", .off), ("cross_encoder", .crossEncoder),
  ("mmr", .mmr)]⟩

inductive QueryTransform where
  | off | expansion | hyde
  deriving DecidableEq, Repr

instance : Literal QueryTransform := ⟨[("none", .off), ("expansion", .expansion),
  ("hyde", .hyde)]⟩

inductive SelectionPolicy where
  | greedy | riskAware | conservative
  deriving DecidableEq, Repr

instance : Literal SelectionPolicy := ⟨[("greedy", .greedy), ("risk_aware", .riskAware),
  ("conservative", .conservative)]⟩

inductive Compression where
  | off | summarize | truncate
  deriving DecidableEq, Repr

instance : Literal Compression := ⟨[("none", .off), ("summarize", .summarize),
  ("truncate", .truncate)]⟩

inductive ContextOrdering where
  | relevance | recency | sourcePriority
  deriving DecidableEq, Repr

instance : Literal ContextOrdering := ⟨[("relevance", .relevance), ("recency", .recency),
  ("source_priority", .sourcePriority)]⟩

inductive PlanningStrategy where
  | singleShot | react | planAndExecute
  deriving DecidableEq, Repr

instance : Literal PlanningStrategy := ⟨[("single_shot", .singleShot), ("react", .react),
  ("plan_and_execute", .planAndExecute)]⟩

inductive StoppingCriteria where
  | firstAnswer | confidenceThreshold | maxIterations
  deriving DecidableEq, Repr

instance : Literal StoppingCriteria := ⟨[("first_answer", .firstAnswer),
  ("confidence_threshold", .confidenceThreshold), ("max_iterations", .maxIterations)]⟩

inductive OutputFormat where
  | freeText | jsonSchema | markdown
  deriving DecidableEq, Repr

instance : Literal OutputFormat := ⟨[("free_text", .freeText), ("json_schema", .jsonSchema),
  ("markdown", .markdown)]⟩

/-- An integer field with `ge` and `le`. -/
abbrev IntIn (lo hi : ℤ) := {z : ℤ // lo ≤ z ∧ z ≤ hi}

/-- A float field with `ge` and `le`. -/
abbrev RatIn (lo hi : ℚ) := {q : ℚ // lo ≤ q ∧ q ≤ hi}

structure ModelConfig where
  provider : ModelProvider := .mock
  name : String := "reasoning-small"
  temperature : RatIn 0 2 := ⟨1 / 5, by norm_num⟩
  maxTokens : IntIn 1 32000 := ⟨512, by norm_num⟩
  reasoningEffort : ReasoningEffort := .medium
  deriving DecidableEq

structure PromptConfig where
  systemPrompt : String := "You are a helpful assistant."
  strategy : PromptStrategy := .direct
  includeExamples : Bool := false
  maxInstructions : IntIn 1 30 := ⟨6, by norm_num⟩
  deriving DecidableEq

structure RetrievalConfig where
  chunkSize : IntIn 50 4000 := ⟨600, by norm_num⟩
  chunkOverlap : IntIn 0 2000 := ⟨80, by norm_num⟩
  topK : IntIn 1 50 := ⟨5, by norm_num⟩
  reranker : Reranker := .off
  queryTransform : QueryTransform := .off
  deriving DecidableEq

structure ToolsConfig where
  enabled : List String := ["search"]
  selectionPolicy : SelectionPolicy := .greedy
  maxToolCalls : IntIn 0 20 := ⟨3, by norm_num⟩
  deriving DecidableEq

structure ContextConfig where
  compression : Compression := .off
  deduplicate : Bool := false
  ordering : ContextOrdering := .relevance
  deriving DecidableEq

structure AgentConfig where
  planningStrategy : PlanningStrategy := .singleShot
  maxIterations : IntIn 1 20 := ⟨1, by norm_num⟩
  stoppingCriteria : StoppingCriteria := .firstAnswer
  deriving DecidableEq

structure OutputConfig where
  format : OutputFormat := .freeText
  deriving DecidableEq

/-- The sections of a genome that take part in its content hash. -/
structure GenomeConfig where
  model : ModelConfig := {}
  prompt : PromptConfig := {}
  retrieval : RetrievalConfig := {}
  tools : ToolsConfig := {}
  context : ContextConfig := {}
  agent : AgentConfig := {}
  output : OutputConfig := {}
  deriving DecidableEq

def GenomeConfig.defaults : GenomeConfig := {}

/-- The leaf fields a search may set. -/
inductive GenomeField where
  | modelProvider | modelName | modelTemperature | modelMaxTokens | modelReasoningEffort
  | promptSystemPrompt | promptStrategy | promptIncludeExamples | promptMaxInstructions
  | retrievalChunkSize | retrievalChunkOverlap | retrievalTopK | retrievalReranker
  | retrievalQueryTransform
  | toolsEnabled | toolsSelectionPolicy | toolsMaxToolCalls
  | contextCompression | contextDeduplicate | contextOrdering
  | agentPlanningStrategy | agentMaxIterations | agentStoppingCriteria
  | outputFormat
  deriving DecidableEq, Repr

/-- The dotted paths of the leaf fields. -/
def fieldPaths : List (String × GenomeField) :=
  [("model.provider", .modelProvider), ("model.name", .modelName),
    ("model.temperature", .modelTemperature), ("model.max_tokens", .modelMaxTokens),
    ("model.reasoning_effort", .modelReasoningEffort),
    ("prompt.system_prompt", .promptSystemPrompt), ("prompt.strategy", .promptStrategy),
    ("prompt.include_examples", .promptIncludeExamples),
    ("prompt.max_instructions", .promptMaxInstructions),
    ("retrieval.chunk_size", .retrievalChunkSize),
    ("retrieval.chunk_overlap", .retrievalChunkOverlap), ("retrieval.top_k", .retrievalTopK),
    ("retrieval.reranker", .retrievalReranker),
    ("retrieval.query_transform", .retrievalQueryTransform),
    ("tools.enabled", .toolsEnabled), ("tools.selection_policy", .toolsSelectionPolicy),
    ("tools.max_tool_calls", .toolsMaxToolCalls),
    ("context.compression", .contextCompression),
    ("context.deduplicate", .contextDeduplicate), ("context.ordering", .contextOrdering),
    ("agent.planning_strategy", .agentPlanningStrategy),
    ("agent.max_iterations", .agentMaxIterations),
    ("agent.stopping_criteria", .agentStoppingCriteria), ("output.format", .outputFormat)]

/-- Why an override or a path was refused. -/
structure FieldError where
  loc : String
  msg : String
  deriving DecidableEq, Repr

section Validators

variable {α : Type} [Literal α]

def Literal.parse (loc : String) : Value → Except FieldError α
  | .scalar (.str s) =>
      match Dict.get? (Literal.table (α := α)) s with
      | some a => .ok a
      | none => .error ⟨loc, "unexpected literal"⟩
  | _ => .error ⟨loc, "unexpected literal"⟩

def Literal.text [DecidableEq α] (a : α) : Value :=
  .str (((Literal.table (α := α)).find? fun e => e.2 = a).elim "" Prod.fst)

end Validators

def parseInt (loc : String) (lo hi : ℤ) (v : Value) : Except FieldError (IntIn lo hi) :=
  match v.num? with
  | some q =>
      if q.den = 1 then
        if h : lo ≤ q.num ∧ q.num ≤ hi then .ok ⟨q.num, h⟩
        else .error ⟨loc, s!"input should be between {lo} and {hi}"⟩
      else .error ⟨loc, "input should be a valid integer"⟩
  | none => .error ⟨loc, "input should be a valid integer"⟩

def parseFloat (loc : String) (lo hi : ℚ) (v : Value) : Except FieldError (RatIn lo hi) :=
  match v.num? with
  | some q =>
      if h : lo ≤ q ∧ q ≤ hi then .ok ⟨q, h⟩
      else .error ⟨loc, s!"input should be between {Rounding.floatText lo} and " ++
        s!"{Rounding.floatText hi}"⟩
  | none => .error ⟨loc, "input should be a valid number"⟩

def parseBool (loc : String) (v : Value) : Except FieldError Bool :=
  match v.num? with
  | some q =>
      if q = 1 then .ok true
      else if q = 0 then .ok false
      else .error ⟨loc, "input should be a valid boolean"⟩
  | none => .error ⟨loc, "input should be a valid boolean"⟩

def parseStr (loc : String) : Value → Except FieldError String
  | .scalar (.str s) => .ok s
  | _ => .error ⟨loc, "input should be a valid string"⟩

def parseStrTuple (loc : String) : Value → Except FieldError (List String)
  | .list xs => xs.mapM fun x => parseStr loc (.scalar x)
  | _ => .error ⟨loc, "input should be a valid tuple"⟩

namespace GenomeConfig

/-- The value of a leaf field; a tuple reads as a list. -/
def get (c : GenomeConfig) : GenomeField → Value
  | .modelProvider => Literal.text c.model.provider
  | .modelName => .str c.model.name
  | .modelTemperature => .float c.model.temperature
  | .modelMaxTokens => .int c.model.maxTokens
  | .modelReasoningEffort => Literal.text c.model.reasoningEffort
  | .promptSystemPrompt => .str c.prompt.systemPrompt
  | .promptStrategy => Literal.text c.prompt.strategy
  | .promptIncludeExamples => .bool c.prompt.includeExamples
  | .promptMaxInstructions => .int c.prompt.maxInstructions
  | .retrievalChunkSize => .int c.retrieval.chunkSize
  | .retrievalChunkOverlap => .int c.retrieval.chunkOverlap
  | .retrievalTopK => .int c.retrieval.topK
  | .retrievalReranker => Literal.text c.retrieval.reranker
  | .retrievalQueryTransform => Literal.text c.retrieval.queryTransform
  | .toolsEnabled => .list (c.tools.enabled.map .str)
  | .toolsSelectionPolicy => Literal.text c.tools.selectionPolicy
  | .toolsMaxToolCalls => .int c.tools.maxToolCalls
  | .contextCompression => Literal.text c.context.compression
  | .contextDeduplicate => .bool c.context.deduplicate
  | .contextOrdering => Literal.text c.context.ordering
  | .agentPlanningStrategy => Literal.text c.agent.planningStrategy
  | .agentMaxIterations => .int c.agent.maxIterations
  | .agentStoppingCriteria => Literal.text c.agent.stoppingCriteria
  | .outputFormat => Literal.text c.output.format

/-- The configuration with one leaf field replaced, if the schema accepts the value. -/
def set (c : GenomeConfig) (loc : String) (v : Value) :
    GenomeField → Except FieldError GenomeConfig
  | .modelProvider => do
      return { c with model := { c.model with provider := ← Literal.parse loc v } }
  | .modelName => do return { c with model := { c.model with name := ← parseStr loc v } }
  | .modelTemperature => do
      return { c with model := { c.model with temperature := ← parseFloat loc 0 2 v } }
  | .modelMaxTokens => do
      return { c with model := { c.model with maxTokens := ← parseInt loc 1 32000 v } }
  | .modelReasoningEffort => do
      return { c with model := { c.model with reasoningEffort := ← Literal.parse loc v } }
  | .promptSystemPrompt => do
      return { c with prompt := { c.prompt with systemPrompt := ← parseStr loc v } }
  | .promptStrategy => do
      return { c with prompt := { c.prompt with strategy := ← Literal.parse loc v } }
  | .promptIncludeExamples => do
      return { c with prompt := { c.prompt with includeExamples := ← parseBool loc v } }
  | .promptMaxInstructions => do
      return { c with prompt := { c.prompt with maxInstructions := ← parseInt loc 1 30 v } }
  | .retrievalChunkSize => do
      return { c with retrieval := { c.retrieval with chunkSize := ← parseInt loc 50 4000 v } }
  | .retrievalChunkOverlap => do
      return { c with
        retrieval := { c.retrieval with chunkOverlap := ← parseInt loc 0 2000 v } }
  | .retrievalTopK => do
      return { c with retrieval := { c.retrieval with topK := ← parseInt loc 1 50 v } }
  | .retrievalReranker => do
      return { c with retrieval := { c.retrieval with reranker := ← Literal.parse loc v } }
  | .retrievalQueryTransform => do
      return { c with
        retrieval := { c.retrieval with queryTransform := ← Literal.parse loc v } }
  | .toolsEnabled => do
      return { c with tools := { c.tools with enabled := ← parseStrTuple loc v } }
  | .toolsSelectionPolicy => do
      return { c with tools := { c.tools with selectionPolicy := ← Literal.parse loc v } }
  | .toolsMaxToolCalls => do
      return { c with tools := { c.tools with maxToolCalls := ← parseInt loc 0 20 v } }
  | .contextCompression => do
      return { c with context := { c.context with compression := ← Literal.parse loc v } }
  | .contextDeduplicate => do
      return { c with context := { c.context with deduplicate := ← parseBool loc v } }
  | .contextOrdering => do
      return { c with context := { c.context with ordering := ← Literal.parse loc v } }
  | .agentPlanningStrategy => do
      return { c with agent := { c.agent with planningStrategy := ← Literal.parse loc v } }
  | .agentMaxIterations => do
      return { c with agent := { c.agent with maxIterations := ← parseInt loc 1 20 v } }
  | .agentStoppingCriteria => do
      return { c with agent := { c.agent with stoppingCriteria := ← Literal.parse loc v } }
  | .outputFormat => do
      return { c with output := { c.output with format := ← Literal.parse loc v } }

end GenomeConfig

/-- A search point: field paths with their values. -/
abbrev Point := Dict String Value

/-- Reads a dotted path of a configuration. A path that is no leaf field is an
    `AttributeError` in the source; the search only ever names leaf fields. -/
def getFieldByPath (c : GenomeConfig) (path : String) : Except FieldError Value :=
  match Dict.get? fieldPaths path with
  | some f => .ok (c.get f)
  | none => .error ⟨path, "no such field"⟩

/-- `_deep_set` and the validation of its result: every override in turn. -/
def deepSet (c : GenomeConfig) (overrides : Point) : Except FieldError GenomeConfig :=
  overrides.foldlM (fun c e =>
    match Dict.get? fieldPaths e.1 with
    | some f => c.set e.1 e.2 f
    | none => .error ⟨e.1, "no such field"⟩) c

/-! ## Genomes -/

/-- One change recorded on a genome. -/
structure MutationRecord where
  mutationType : String
  fieldPath : String
  oldValue : Value
  newValue : Value
  reason : String
  deriving DecidableEq

inductive PromotionStatus where
  | generated | validated | benchmarked | holdoutTested | approved | canary | promoted
  | rejected | rolledBack | superseded
  deriving DecidableEq, Repr

structure SystemGenome where
  systemId : String
  version : ℕ
  parentHash : Option String := none
  mutations : List MutationRecord := []
  generation : ℕ := 0
  status : PromotionStatus := .generated
  config : GenomeConfig := .defaults
  deriving DecidableEq

/-- `content_dict`: what the hash is taken of. -/
structure GenomeContent where
  systemId : String
  config : GenomeConfig
  deriving DecidableEq

/-- The digest of a content dictionary. -/
abbrev GenomeDigest := GenomeContent → String

namespace SystemGenome

def content (g : SystemGenome) : GenomeContent := ⟨g.systemId, g.config⟩

def hash (digest : GenomeDigest) (g : SystemGenome) : String := digest g.content

/-- A child with the given overrides. Metadata is replaced, never inherited. -/
def derive (digest : GenomeDigest) (g : SystemGenome) (mutations : List MutationRecord)
    (overrides : Point) (newVersion generation : ℕ) : Except FieldError SystemGenome := do
  let config ← deepSet g.config overrides
  return {
    systemId := g.systemId
    version := newVersion
    parentHash := some (g.hash digest)
    mutations := mutations
    generation := generation
    status := .generated
    config := config }

/-- What `derive` sets, whatever the overrides. -/
theorem derive_ok {digest : GenomeDigest} {g child : SystemGenome}
    {ms : List MutationRecord} {overrides : Point} {v gen : ℕ}
    (h : g.derive digest ms overrides v gen = .ok child) :
    child.systemId = g.systemId ∧ child.version = v ∧
      child.parentHash = some (g.hash digest) ∧ child.generation = gen ∧
      child.status = .generated := by
  unfold derive at h
  obtain ⟨c, -, h⟩ := Fallible.bind_eq_ok.mp h
  cases h
  exact ⟨rfl, rfl, rfl, rfl, rfl⟩

end SystemGenome

end NeuroForge
