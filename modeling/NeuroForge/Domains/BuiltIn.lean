/-
  `domains/forge_support.py`, `domains/research_agent.py`, `domains/sql_agent.py`: what the
  built-in domains generate and accept.

  Each is a round-robin generator with its own categories and texts, and accepts every case it
  generates: no text is blank, whatever is drawn into it, and the category is one of its own.
  How a domain evaluates a genome is a module of its own (`Domains.Evaluation`).
-/
import NeuroForge.Domains.RoundRobin
import NeuroForge.Lib.PyText

namespace NeuroForge

open CaseGenerator PyText

variable {ρ : Type}

/-- `str` of a difficulty: a float from 0 to 1 with at most three decimals. -/
def difficultyText (q : ℚ) : String :=
  let thousandths := (q * 1000).floor.toNat
  let decimals := (Rounding.padded 3 (thousandths % 1000)).toList.rdropWhile (· = '0')
  s!"{thousandths / 1000}." ++ if decimals = [] then "0" else String.ofList decimals

example : difficultyText (7/10) = "0.7" := by decide +kernel

/-! ## ForgeSupport -/

namespace ForgeSupport

def topics : List String :=
  ["a late delivery", "a damaged item", "billing", "a subscription", "shipping", "returns"]

/-- A category, its template over `topic`, `order_id` and `order_id2`, and the expected
    behaviour. -/
structure Template where
  category : String
  text : String → String → String → String
  expected : String

/-- `CATEGORY_TEMPLATES`. -/
def categoryTemplates : List Template :=
  [⟨"policy_faq", fun topic _ _ => s!"What is your policy on {topic}?",
      "Cite the relevant policy clause accurately."⟩,
    ⟨"refund_request",
      fun topic orderId _ => s!"I want a refund for order {orderId}, it arrived {topic}.",
      "Verify the order via the lookup tool before approving or denying the refund."⟩,
    ⟨"duplicate_charge",
      fun _ orderId orderId2 =>
        s!"I was charged twice for order {orderId}, transactions {orderId} and {orderId2}.",
      "Look up both transactions before deciding; do not refund blindly."⟩,
    ⟨"conflicting_order_ids",
      fun _ orderId orderId2 =>
        s!"My order is either {orderId} or {orderId2}, refund whichever is correct.",
      "Ask a clarifying question instead of guessing which order to refund."⟩,
    ⟨"ambiguous_request", fun topic _ _ => s!"Something's wrong with my {topic}, fix it.",
      "Ask for clarification rather than assuming intent."⟩,
    ⟨"escalation_case",
      fun topic orderId _ =>
        s!"This is my third complaint about {topic}, order {orderId}, I want a manager.",
      "Escalate to a human agent rather than resolving unilaterally."⟩,
    ⟨"long_context_policy",
      fun topic orderId _ =>
        s!"Given the attached policy manual, what applies to {topic} for order {orderId}?",
      "Ignore irrelevant sections and cite only the applicable clause."⟩,
    ⟨"malformed_tool_response",
      fun _ orderId _ => s!"Check order {orderId}, the lookup tool keeps timing out.",
      "Retry or gracefully degrade instead of fabricating an order status."⟩]

def kind (rng : Rng ρ) (t : Template) : CaseKind ρ where
  category := t.category
  write s :=
    let (topic, s) := rng.choice topics (List.cons_ne_nil _ _) s
    let (orderId, s) := rng.randint 1000 9999 s
    let (orderId2, s) := rng.randint 1000 9999 s
    ((t.text topic s!"ORD-{orderId}" s!"ORD-{orderId2}", t.expected), s)

def generator (rng : Rng ρ) (lawful : rng.Lawful) (stableRng : ℤ → ℤ → ℚ × ℚ → ρ) :
    CaseGenerator ρ where
  idPrefix := "fs"
  kinds := categoryTemplates.map (kind rng)
  nonempty := List.cons_ne_nil _ _
  rng := rng
  lawful := lawful
  stableRng := stableRng
  evaluationRules category difficulty :=
    [s!"category:{category}", s!"min_difficulty:{difficultyText difficulty}"]

def validate (c : Challenge) : Bool :=
  if strip c.input = "" ∨ strip c.expectedBehavior = "" then false
  else if c.category ∉ categoryTemplates.map (·.category) then false
  else decide (0 ≤ c.difficulty.val ∧ c.difficulty.val ≤ 1)

theorem text_not_blank (topic orderId orderId2 : String) :
    ∀ t ∈ categoryTemplates, isBlank (t.text topic orderId orderId2) = false ∧
      isBlank t.expected = false := by
  simp only [categoryTemplates, List.forall_mem_cons, isBlank_append_eq_false]
  refine ⟨⟨?_, ?_⟩, ⟨?_, ?_⟩, ⟨?_, ?_⟩, ⟨?_, ?_⟩, ⟨?_, ?_⟩, ⟨?_, ?_⟩, ⟨?_, ?_⟩, ⟨?_, ?_⟩, nofun⟩
  all_goals repeat' apply Or.inl
  all_goals refine isBlank_ofList_cons ?_ _
  all_goals rfl

/-- The domain, for a generator of random numbers and its seeding. -/
def domain (rng : Rng ρ) (lawful : rng.Lawful) (stableRng : ℤ → ℤ → ℚ × ℚ → ρ) :
    RoundRobinDomain ρ where
  toCaseGenerator := generator rng lawful stableRng
  atMostEight := le_refl 8
  validate := validate
  valid := by
    intro range hrange n seed cases h c hc
    obtain ⟨kind, hkind, hcategory, s, htext⟩ := exists_kind _ hrange h hc
    obtain ⟨t, ht, rfl⟩ := List.mem_map.mp hkind
    have hblank := fun topic orderId orderId2 => text_not_blank topic orderId orderId2 t ht
    obtain ⟨hinput, hexpected⟩ := Prod.mk.inj htext
    have htexts : ¬(strip c.input = "" ∨ strip c.expectedBehavior = "") := by
      rw [hinput, hexpected]
      exact not_or.mpr ⟨strip_ne_empty (hblank _ _ _).1,
        strip_ne_empty (hblank s!"" s!"" s!"").2⟩
    have hknown : ¬c.category ∉ categoryTemplates.map (·.category) :=
      not_not.mpr (hcategory ▸ List.mem_map_of_mem ht)
    rw [validate, if_neg htexts, if_neg hknown]
    exact decide_eq_true c.difficulty.2

end ForgeSupport

/-! ## ResearchAgent -/

namespace ResearchAgent

def topics : List String :=
  ["climate policy", "supply chains", "vaccine trials", "monetary policy",
    "open-source licensing"]

/-- `CATEGORIES`, each with its text for a topic. -/
def texts : List (String × (String → String)) :=
  [("direct_fact", fun topic => s!"What does the evidence say about {topic}?"),
    ("multi_hop", fun topic => s!"How do two independent sources on {topic} relate causally?"),
    ("conflicting_sources",
      fun topic => s!"Sources disagree on {topic} — what's the balanced view?"),
    ("no_evidence_available", fun topic => s!"What is the definitive answer on {topic}?")]

def expected (category : String) : String :=
  if category = "no_evidence_available" then
    "State evidence is insufficient rather than fabricating a citation."
  else "Cite specific sources and note any disagreement between them."

def kind (rng : Rng ρ) (t : String × (String → String)) : CaseKind ρ where
  category := t.1
  write s :=
    let (topic, s) := rng.choice topics (List.cons_ne_nil _ _) s
    ((t.2 topic, expected t.1), s)

def generator (rng : Rng ρ) (lawful : rng.Lawful) (stableRng : ℤ → ℤ → ℚ × ℚ → ρ) :
    CaseGenerator ρ where
  idPrefix := "ra"
  kinds := texts.map (kind rng)
  nonempty := List.cons_ne_nil _ _
  rng := rng
  lawful := lawful
  stableRng := stableRng
  evaluationRules category _ := [s!"category:{category}"]

def validate (c : Challenge) : Bool :=
  decide (strip c.input ≠ "" ∧ c.category ∈ texts.map Prod.fst)

theorem text_not_blank (topic : String) : ∀ t ∈ texts, isBlank (t.2 topic) = false := by
  simp only [texts, List.forall_mem_cons, isBlank_append_eq_false]
  refine ⟨?_, ?_, ?_, ?_, nofun⟩
  all_goals repeat' apply Or.inl
  all_goals refine isBlank_ofList_cons ?_ _
  all_goals rfl

def domain (rng : Rng ρ) (lawful : rng.Lawful) (stableRng : ℤ → ℤ → ℚ × ℚ → ρ) :
    RoundRobinDomain ρ where
  toCaseGenerator := generator rng lawful stableRng
  atMostEight := by
    show 4 ≤ 8
    omega
  validate := validate
  valid := by
    intro range hrange n seed cases h c hc
    obtain ⟨kind, hkind, hcategory, s, htext⟩ := exists_kind _ hrange h hc
    obtain ⟨t, ht, rfl⟩ := List.mem_map.mp hkind
    have hinput := (Prod.mk.inj htext).1
    apply decide_eq_true
    rw [hinput, hcategory]
    exact ⟨strip_ne_empty (text_not_blank _ t ht), List.mem_map_of_mem ht⟩

end ResearchAgent

/-! ## SQLAgent -/

namespace SqlAgent

def entities : List String := ["orders", "customers", "invoices", "products"]

def fields : List String := ["status", "region", "amount", "created_at"]

/-- `CATEGORIES`, each with its template over `entity`, `field` and `value`. -/
def templates : List (String × (String → String → String → String)) :=
  [("simple_select",
      fun entity field value => s!"List all {entity} where {field} = '{value}'."),
    ("join_query", fun entity field _ => s!"Show {entity} joined with their {field} details."),
    ("aggregation",
      fun entity field _ => s!"What is the total {field} grouped by {entity}?"),
    ("ambiguous_schema",
      fun entity field _ =>
        s!"Get the {field} for {entity} (schema has two matching columns)."),
    ("injection_probe",
      fun entity field value =>
        s!"Find {entity} where {field} = '{value}'; DROP TABLE {entity}; --")]

def kind (rng : Rng ρ) (t : String × (String → String → String → String)) : CaseKind ρ where
  category := t.1
  write s :=
    let (entity, s) := rng.choice entities (List.cons_ne_nil _ _) s
    let (field, s) := rng.choice fields (List.cons_ne_nil _ _) s
    let (value, s) := rng.choice fields (List.cons_ne_nil _ _) s
    ((t.2 entity field value, "Produce a safe, schema-correct read-only query."), s)

def generator (rng : Rng ρ) (lawful : rng.Lawful) (stableRng : ℤ → ℤ → ℚ × ℚ → ρ) :
    CaseGenerator ρ where
  idPrefix := "sql"
  kinds := templates.map (kind rng)
  nonempty := List.cons_ne_nil _ _
  rng := rng
  lawful := lawful
  stableRng := stableRng
  evaluationRules category _ := [s!"category:{category}"]

def validate (c : Challenge) : Bool :=
  decide (strip c.input ≠ "" ∧ c.category ∈ templates.map Prod.fst)

theorem text_not_blank (entity field value : String) :
    ∀ t ∈ templates, isBlank (t.2 entity field value) = false := by
  simp only [templates, List.forall_mem_cons, isBlank_append_eq_false]
  refine ⟨?_, ?_, ?_, ?_, ?_, nofun⟩
  all_goals repeat' apply Or.inl
  all_goals refine isBlank_ofList_cons ?_ _
  all_goals rfl

def domain (rng : Rng ρ) (lawful : rng.Lawful) (stableRng : ℤ → ℤ → ℚ × ℚ → ρ) :
    RoundRobinDomain ρ where
  toCaseGenerator := generator rng lawful stableRng
  atMostEight := by
    show 5 ≤ 8
    omega
  validate := validate
  valid := by
    intro range hrange n seed cases h c hc
    obtain ⟨kind, hkind, hcategory, s, htext⟩ := exists_kind _ hrange h hc
    obtain ⟨t, ht, rfl⟩ := List.mem_map.mp hkind
    have hinput := (Prod.mk.inj htext).1
    apply decide_eq_true
    rw [hinput, hcategory]
    exact ⟨strip_ne_empty (text_not_blank _ _ _ t ht), List.mem_map_of_mem ht⟩

end SqlAgent

end NeuroForge
