/-
  `mutations/operators.py`: the thirteen mutation operators.

  An operator looks at the current value of one field and proposes replacements. Most of them
  offer every option but the current value (`changeTo`). Whatever the genome, each proposal
  names a leaf field and a value that the schema accepts there and that is not the current one
  (`operators_propose`); for the two that rewrite the prompt this rests on the text: an added
  constraint was not in it before, and a simplified prompt has fewer lines.

  The text of a float, which only reasons and signatures show, is a parameter.
-/
import Mathlib.Data.List.Sort
import NeuroForge.Genomes.Diff
import NeuroForge.Lib.PyText
import NeuroForge.Lib.Rounding

namespace NeuroForge

open Rounding PyText

structure MutationProposal where
  fieldPath : String
  mutationType : String
  newValue : Value
  reason : String
  deriving DecidableEq

abbrev Operator := SystemGenome → List MutationProposal

def constraintLibrary : List String :=
  ["Never promise a refund without verifying the order ID against the order lookup tool.",
    "If policy and the customer's claim conflict, defer to policy and explain why.",
    "Always state the specific policy clause used to justify a decision.",
    "When information is missing, ask a clarifying question instead of guessing."]

/-- `sorted(set(xs))`. -/
def sortedSet {α : Type} [LinearOrder α] (xs : List α) : List α :=
  xs.dedup.insertionSort (· ≤ ·)

/-- A proposal for every option that is not the current value. -/
def changeTo {α : Type} (fieldPath mutationType : String) (toValue : α → Value)
    (options : List α) (current : Value) (reason : α → String) : List MutationProposal :=
  (options.filter fun opt => toValue opt ≠ current).map fun opt =>
    ⟨fieldPath, mutationType, toValue opt, reason opt⟩

/-- The proposal to turn a switch over. -/
def toggle (fieldPath mutationType : String) (current : Bool) (reason : String) :
    List MutationProposal :=
  [⟨fieldPath, mutationType, .bool !current, reason⟩]

def promptAddConstraint : Operator := fun genome =>
  let existing := genome.config.prompt.systemPrompt
  let out := (constraintLibrary.filter fun constraint => !isIn constraint existing).map
    fun constraint => MutationProposal.mk "prompt.system_prompt" "prompt.add_constraint"
      (.str (strip (rstrip existing ++ "\n- " ++ constraint)))
      "Adds an explicit behavioral constraint to reduce policy-violation failures."
  out.take 2

/-- The lines that are not blank. -/
def promptLines (prompt : String) : List String :=
  (split '\n' prompt).filter fun line => strip line ≠ ""

def promptSimplify : Operator := fun genome =>
  let lines := promptLines genome.config.prompt.systemPrompt
  if lines.length ≤ 2 then []
  else
    let simplified := join '\n' (lines.take (max 2 (lines.length / 2)))
    [⟨"prompt.system_prompt", "prompt.simplify", .str simplified,
      "Removes redundant instructions to reduce instruction-following overhead and latency."⟩]

def promptStrategy : Operator := fun genome =>
  changeTo "prompt.strategy" "prompt.change_strategy" .str
    ["direct", "structured_reasoning", "chain_of_thought", "few_shot", "constrained"]
    (genome.config.get .promptStrategy) fun opt =>
      s!"Switches prompting strategy to '{opt}' to test its effect on quality/latency tradeoff."

def promptExamples : Operator := fun genome =>
  toggle "prompt.include_examples" "prompt.toggle_examples" genome.config.prompt.includeExamples
    "Toggles few-shot examples to test their effect on tool-call accuracy."

def modelTemperature (floatText : ℚ → String) : Operator := fun genome =>
  let current : ℚ := genome.config.model.temperature
  changeTo "model.temperature" "model.change_temperature" .float
    (sortedSet [roundTo 2 (max 0 (current - 3/20)), roundTo 2 (min 1 (current + 3/20))])
    (.float current) fun c =>
      s!"Adjusts temperature from {floatText current} to {floatText c} " ++
        "to trade off determinism vs. diversity."

def modelName : Operator := fun genome =>
  changeTo "model.name" "model.switch_model" .str
    ["reasoning-small", "reasoning-large", "fast-cheap"] (genome.config.get .modelName)
    fun opt => s!"Switches the underlying model to '{opt}' to test cost/quality tradeoff."

def retrievalTopK : Operator := fun genome =>
  let current : ℤ := genome.config.retrieval.topK
  changeTo "retrieval.top_k" "retrieval.change_top_k" .int
    (sortedSet [max 1 (current - 2), min 50 (current + 2), min 50 (current + 4)])
    (.int current) fun c =>
      s!"Adjusts retrieved-document count from {current} to {c} " ++
        "to test recall/latency tradeoff."

def retrievalChunking : Operator := fun genome =>
  changeTo "retrieval.chunk_size" "retrieval.change_chunk_size" .int [400, 600, 800, 1000]
    (genome.config.get .retrievalChunkSize) fun opt =>
      s!"Changes chunk size to {opt} to test context-completeness vs. noise tradeoff."

def retrievalReranker : Operator := fun genome =>
  changeTo "retrieval.reranker" "retrieval.change_reranker" .str
    ["none", "cross_encoder", "mmr"] (genome.config.get .retrievalReranker) fun opt =>
      s!"Enables '{opt}' reranking to test precision improvements on retrieved context."

def toolsPolicy : Operator := fun genome =>
  changeTo "tools.selection_policy" "tools.change_selection_policy" .str
    ["greedy", "risk_aware", "conservative"] (genome.config.get .toolsSelectionPolicy)
    fun opt =>
      s!"Switches tool-selection policy to '{opt}' to test its effect on tool-call accuracy."

def contextOrdering : Operator := fun genome =>
  changeTo "context.ordering" "context.change_ordering" .str
    ["relevance", "recency", "source_priority"] (genome.config.get .contextOrdering)
    fun opt => s!"Changes document ordering to '{opt}' to test faithfulness improvements."

def contextDedup : Operator := fun genome =>
  toggle "context.deduplicate" "context.toggle_dedup" genome.config.context.deduplicate
    "Toggles context deduplication to reduce redundant tokens and confusion."

def agentPlanning : Operator := fun genome =>
  changeTo "agent.planning_strategy" "agent.change_planning_strategy" .str
    ["single_shot", "react", "plan_and_execute"] (genome.config.get .agentPlanningStrategy)
    fun opt =>
      s!"Switches planning strategy to '{opt}' to test task-success on multi-step requests."

/-- `OPERATORS`. -/
def operators (floatText : ℚ → String) : List (String × Operator) :=
  [("prompt.add_constraint", promptAddConstraint),
    ("prompt.simplify", promptSimplify),
    ("prompt.change_strategy", promptStrategy),
    ("prompt.toggle_examples", promptExamples),
    ("model.change_temperature", modelTemperature floatText),
    ("model.switch_model", modelName),
    ("retrieval.change_top_k", retrievalTopK),
    ("retrieval.change_chunk_size", retrievalChunking),
    ("retrieval.change_reranker", retrievalReranker),
    ("tools.change_selection_policy", toolsPolicy),
    ("context.change_ordering", contextOrdering),
    ("context.toggle_dedup", contextDedup),
    ("agent.change_planning_strategy", agentPlanning)]

/-! ## What is proposed -/

/-- A real change of a leaf field, to a value that the schema accepts. -/
structure Proposes (c : GenomeConfig) (p : MutationProposal) (f : GenomeField) : Prop where
  path : p.fieldPath = f.path
  own : f.kind.Holds p.newValue
  accepted : configFields.Accepts (f, p.newValue)
  changes : c.get f ≠ p.newValue

theorem mem_sortedSet {α : Type} [LinearOrder α] {xs : List α} {x : α} :
    x ∈ sortedSet xs ↔ x ∈ xs := by
  rw [sortedSet, List.mem_insertionSort, List.mem_dedup]

theorem changeTo_proposes {c : GenomeConfig} {f : GenomeField} {α : Type}
    {fieldPath mutationType : String} {toValue : α → Value} {options : List α}
    {reason : α → String} (hpath : fieldPath = f.path)
    (hown : ∀ opt ∈ options, f.kind.Holds (toValue opt))
    (haccepted : ∀ opt ∈ options, configFields.Accepts (f, toValue opt)) :
    ∀ p ∈ changeTo fieldPath mutationType toValue options (c.get f) reason,
      ∃ f, Proposes c p f := by
  intro p hp
  obtain ⟨opt, hopt, rfl⟩ := List.mem_map.mp hp
  obtain ⟨hopt, hne⟩ := List.mem_filter.mp hopt
  exact ⟨f, hpath, hown opt hopt, haccepted opt hopt, fun heq => of_decide_eq_true hne heq.symm⟩

/-! ### The system prompt -/

theorem promptProposal {c : GenomeConfig} {mutationType new reason : String}
    (h : c.prompt.systemPrompt ≠ new) :
    Proposes c ⟨"prompt.system_prompt", mutationType, .str new, reason⟩ .promptSystemPrompt where
  path := rfl
  own := ⟨new, rfl⟩
  accepted _ := ⟨_, rfl⟩
  changes heq := h (Scalar.str.inj (Value.scalar.inj heq))

theorem getLast?_ofList {cs : List Char} {x : Char} (h : cs.getLast? = some x) :
    (String.ofList cs).toList.getLast? = some x := by
  rw [String.toList_ofList, h]

theorem constraintLibrary_ends : ∀ constraint ∈ constraintLibrary,
    constraint.toList.getLast? = some '.' := by
  simp only [constraintLibrary, List.forall_mem_cons]
  refine ⟨?_, ?_, ?_, ?_, nofun⟩
  all_goals refine getLast?_ofList ?_
  all_goals rfl

/-- The constraint is in the new prompt, and was not in the old one. -/
theorem promptAddConstraint_proposes (genome : SystemGenome) :
    ∀ p ∈ promptAddConstraint genome, ∃ f, Proposes genome.config p f := by
  intro p hp
  obtain ⟨constraint, hmem, rfl⟩ := List.mem_map.mp (List.mem_of_mem_take hp)
  obtain ⟨hlibrary, hmissing⟩ := List.mem_filter.mp hmem
  refine ⟨_, promptProposal fun heq => ?_⟩
  have hdash : '-' ∈ "\n- ".toList := by decide
  have hadded := isIn_strip_append (s := rstrip genome.config.prompt.systemPrompt) hdash rfl
    (constraintLibrary_ends constraint hlibrary) rfl
  rw [← heq] at hadded
  rw [hadded] at hmissing
  cases hmissing

/-- Fewer lines are left than there were. -/
theorem promptSimplify_proposes (genome : SystemGenome) :
    ∀ p ∈ promptSimplify genome, ∃ f, Proposes genome.config p f := by
  intro p hp
  have hlines : ∀ line ∈ promptLines genome.config.prompt.systemPrompt,
      '\n' ∉ line.toList ∧ strip line ≠ "" := by
    intro line hline
    obtain ⟨hsplit, hblank⟩ := List.mem_filter.mp hline
    exact ⟨not_mem_of_mem_split hsplit, of_decide_eq_true hblank⟩
  rw [promptSimplify] at hp
  generalize hpl : promptLines genome.config.prompt.systemPrompt = lines at hp hlines
  by_cases hfew : lines.length ≤ 2
  · rw [if_pos hfew] at hp
    cases hp
  · rw [if_neg hfew, List.mem_singleton] at hp
    rw [hp]
    refine ⟨_, promptProposal fun heq => ?_⟩
    have hshort : (lines.take (max 2 (lines.length / 2))).length < lines.length := by
      rw [List.length_take]
      omega
    have hnonempty : lines.take (max 2 (lines.length / 2)) ≠ [] := by
      rw [← List.length_pos_iff, List.length_take]
      omega
    have htaken : promptLines (join '\n' (lines.take (max 2 (lines.length / 2)))) =
        lines.take (max 2 (lines.length / 2)) := by
      rw [promptLines, split_join hnonempty fun line hline =>
        (hlines line (List.mem_of_mem_take hline)).1]
      exact List.filter_eq_self.mpr fun line hline =>
        decide_eq_true (hlines line (List.mem_of_mem_take hline)).2
    rw [← heq, hpl] at htaken
    rw [← htaken] at hshort
    exact absurd hshort (lt_irrefl _)

/-! ### Numbers -/

theorem accepts_temperature {q : ℚ} (h : 0 ≤ q ∧ q ≤ 2) :
    configFields.Accepts (.modelTemperature, .float q) :=
  fun _ => ⟨_, Fallible.bind_eq_ok.mpr ⟨⟨q, h⟩, dif_pos h, rfl⟩⟩

theorem modelTemperature_proposes (floatText : ℚ → String) (genome : SystemGenome) :
    ∀ p ∈ modelTemperature floatText genome, ∃ f, Proposes genome.config p f := by
  obtain ⟨hlo, hhi⟩ := genome.config.model.temperature.2
  refine changeTo_proposes (f := .modelTemperature) rfl (fun opt _ => ⟨opt, rfl⟩) ?_
  intro q hq
  apply accepts_temperature
  rcases List.mem_pair.mp (mem_sortedSet.mp hq) with rfl | rfl
  · have hbelow : max 0 (genome.config.model.temperature.val - 3/20) ≤ 2 :=
      max_le (by norm_num) (by linarith)
    have htwo : roundTo 2 2 = 2 :=
      roundTo_of_mem_decimals (mem_decimals.mpr ⟨200, by norm_num⟩)
    exact ⟨roundTo_nonneg 2 (le_max_left _ _), (roundTo_mono 2 hbelow).trans_eq htwo⟩
  · have habove : 0 ≤ min 1 (genome.config.model.temperature.val + 3/20) :=
      le_min (by norm_num) (by linarith)
    have hone := roundTo_le_one 2 (min_le_left 1 (genome.config.model.temperature.val + 3/20))
    exact ⟨roundTo_nonneg 2 habove, by linarith⟩

theorem accepts_topK {z : ℤ} (h : 1 ≤ z ∧ z ≤ 50) :
    configFields.Accepts (.retrievalTopK, .int z) :=
  fun _ => ⟨_, Fallible.bind_eq_ok.mpr ⟨⟨z, h⟩, dif_pos h, rfl⟩⟩

theorem retrievalTopK_proposes (genome : SystemGenome) :
    ∀ p ∈ retrievalTopK genome, ∃ f, Proposes genome.config p f := by
  obtain ⟨hlo, hhi⟩ := genome.config.retrieval.topK.2
  refine changeTo_proposes (f := .retrievalTopK) rfl (fun opt _ => ⟨opt, rfl⟩) ?_
  intro z hz
  apply accepts_topK
  have hz := mem_sortedSet.mp hz
  simp only [List.mem_cons, List.not_mem_nil, or_false] at hz
  omega

/-! ### Switches and options -/

theorem toggle_proposes {c : GenomeConfig} {f : GenomeField} {current : Bool}
    {fieldPath mutationType reason : String} (hpath : fieldPath = f.path)
    (hcurrent : c.get f = .bool current) (hown : ∀ b, f.kind.Holds (.bool b))
    (haccepted : ∀ b, configFields.Accepts (f, .bool b)) :
    ∀ p ∈ toggle fieldPath mutationType current reason, ∃ f, Proposes c p f := by
  intro p hp
  rw [List.mem_singleton.mp hp]
  refine ⟨f, hpath, hown _, haccepted _, fun heq => ?_⟩
  rw [hcurrent] at heq
  exact (Bool.eq_not_self _).mp (Scalar.bool.inj (Value.scalar.inj heq))

theorem promptExamples_proposes (genome : SystemGenome) :
    ∀ p ∈ promptExamples genome, ∃ f, Proposes genome.config p f := by
  refine toggle_proposes (f := .promptIncludeExamples) rfl rfl (fun b => ⟨b, rfl⟩) fun b => ?_
  cases b
  all_goals exact fun _ => ⟨_, rfl⟩

theorem contextDedup_proposes (genome : SystemGenome) :
    ∀ p ∈ contextDedup genome, ∃ f, Proposes genome.config p f := by
  refine toggle_proposes (f := .contextDeduplicate) rfl rfl (fun b => ⟨b, rfl⟩) fun b => ?_
  cases b
  all_goals exact fun _ => ⟨_, rfl⟩

/-- A field all of whose options are accepted, whatever is in the configuration. -/
theorem options_accepted {α : Type} {f : GenomeField} {toValue : α → Value} {options : List α}
    (h : List.Forall (fun opt => configFields.Accepts (f, toValue opt)) options) :
    ∀ opt ∈ options, configFields.Accepts (f, toValue opt) :=
  List.forall_iff_forall_mem.mp h

/-- Whatever the genome, every operator proposes real changes that the schema accepts. -/
theorem operators_propose (floatText : ℚ → String) (genome : SystemGenome) :
    ∀ e ∈ operators floatText, ∀ p ∈ e.2 genome, ∃ f, Proposes genome.config p f := by
  simp only [operators, List.forall_mem_cons]
  refine ⟨promptAddConstraint_proposes genome, promptSimplify_proposes genome, ?_,
    promptExamples_proposes genome, modelTemperature_proposes floatText genome, ?_,
    retrievalTopK_proposes genome, ?_, ?_, ?_, ?_, contextDedup_proposes genome, ?_, nofun⟩
  · exact changeTo_proposes (f := .promptStrategy) rfl (fun opt _ => ⟨opt, rfl⟩)
      (options_accepted ⟨fun _ => ⟨_, rfl⟩, fun _ => ⟨_, rfl⟩, fun _ => ⟨_, rfl⟩,
        fun _ => ⟨_, rfl⟩, fun _ => ⟨_, rfl⟩⟩)
  · exact changeTo_proposes (f := .modelName) rfl (fun opt _ => ⟨opt, rfl⟩)
      fun _ _ _ => ⟨_, rfl⟩
  · exact changeTo_proposes (f := .retrievalChunkSize) rfl (fun opt _ => ⟨opt, rfl⟩)
      (options_accepted ⟨fun _ => ⟨_, rfl⟩, fun _ => ⟨_, rfl⟩, fun _ => ⟨_, rfl⟩,
        fun _ => ⟨_, rfl⟩⟩)
  · exact changeTo_proposes (f := .retrievalReranker) rfl (fun opt _ => ⟨opt, rfl⟩)
      (options_accepted ⟨fun _ => ⟨_, rfl⟩, fun _ => ⟨_, rfl⟩, fun _ => ⟨_, rfl⟩⟩)
  · exact changeTo_proposes (f := .toolsSelectionPolicy) rfl (fun opt _ => ⟨opt, rfl⟩)
      (options_accepted ⟨fun _ => ⟨_, rfl⟩, fun _ => ⟨_, rfl⟩, fun _ => ⟨_, rfl⟩⟩)
  · exact changeTo_proposes (f := .contextOrdering) rfl (fun opt _ => ⟨opt, rfl⟩)
      (options_accepted ⟨fun _ => ⟨_, rfl⟩, fun _ => ⟨_, rfl⟩, fun _ => ⟨_, rfl⟩⟩)
  · exact changeTo_proposes (f := .agentPlanningStrategy) rfl (fun opt _ => ⟨opt, rfl⟩)
      (options_accepted ⟨fun _ => ⟨_, rfl⟩, fun _ => ⟨_, rfl⟩, fun _ => ⟨_, rfl⟩⟩)

end NeuroForge
