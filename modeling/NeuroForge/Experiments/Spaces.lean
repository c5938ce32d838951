/-
  `experiments/spaces.py` and the search dimensions of `experiments/configure.py`.

  The default search space of each domain, and its restriction to the sections and fields a
  user asks for. A space is checked against the schema of a genome by evaluation
  (`SearchSpace.admitted`): the values of its numbers lie between two that their field
  accepts, and every category is accepted. All spaces that can be built pass, move no bound
  outwards when they round, and touch no field that the default policy forbids; so no point of
  a search in one of them is refused (`deriveCandidate_of_within`).
-/
import NeuroForge.Experiments.Candidate
import NeuroForge.Lib.Grouping
import NeuroForge.Lib.PyText
import NeuroForge.Optimization.Unfailing

namespace NeuroForge

open Fallible Grouping

/-! ## The spaces -/

def baseSupportPrompt : String := "You are a helpful customer support assistant."

def verifyRule : String :=
  "\n- Never promise a refund without verifying the order ID against the order lookup tool."

def policyRules : String :=
  "\n- If policy and the customer's claim conflict, defer to policy and explain why." ++
  "\n- When information is missing or conflicting, ask a clarifying question instead of guessing."

def escalationRules : String :=
  "\n- Escalate repeated or high-risk complaints to a human agent rather than resolving " ++
  "unilaterally." ++
  "\n- Always state the specific policy clause used to justify a decision." ++
  "\n- If a tool call fails or times out, retry once before telling the customer."

def supportPromptVariants : List String :=
  [baseSupportPrompt, baseSupportPrompt ++ verifyRule,
    baseSupportPrompt ++ verifyRule ++ policyRules,
    baseSupportPrompt ++ verifyRule ++ policyRules ++ escalationRules]

theorem temperature_range : (0 : ℚ) < 4 / 5 := by norm_num

theorem topK_range : (3 : ℚ) < 10 := by norm_num

theorem maxIterations_range : (1 : ℚ) < 5 := by norm_num

/-- A categorical parameter with at least one category. -/
def categories (value : Value) (values : List Value) : ParamSpec :=
  .categorical (value :: values) (List.cons_ne_nil value values)

def modelNames : ParamSpec :=
  categories (.str "fast-cheap") [.str "reasoning-small", .str "reasoning-large"]

def promptStrategies : ParamSpec :=
  categories (.str "direct") [.str "structured_reasoning", .str "chain_of_thought",
    .str "few_shot", .str "constrained"]

def rerankers : ParamSpec := categories (.str "none") [.str "cross_encoder", .str "mmr"]

def forgeSupportParameters : Dict String ParamSpec :=
  [("model.name", modelNames),
    ("model.temperature", .float 0 (4 / 5) temperature_range),
    ("model.reasoning_effort", categories (.str "low") [.str "medium", .str "high"]),
    ("prompt.system_prompt",
      categories (.str baseSupportPrompt) (supportPromptVariants.tail.map .str)),
    ("prompt.strategy", promptStrategies),
    ("prompt.include_examples", categories (.bool true) [.bool false]),
    ("retrieval.top_k", .integer 3 10 topK_range),
    ("retrieval.chunk_size", categories (.int 400) [.int 600, .int 800, .int 1000]),
    ("retrieval.reranker", rerankers),
    ("tools.enabled", categories (.list [.str "search"])
      [.list [.str "search", .str "refund"],
        .list [.str "search", .str "refund", .str "ticket"]]),
    ("tools.selection_policy",
      categories (.str "greedy") [.str "risk_aware", .str "conservative"]),
    ("agent.planning_strategy",
      categories (.str "single_shot") [.str "react", .str "plan_and_execute"]),
    ("agent.max_iterations", .integer 1 5 maxIterations_range),
    ("agent.stopping_criteria",
      categories (.str "first_answer") [.str "confidence_threshold", .str "max_iterations"])]

def defaultParameters : Dict String ParamSpec :=
  [("model.name", modelNames),
    ("model.temperature", .float 0 (4 / 5) temperature_range),
    ("prompt.strategy", promptStrategies),
    ("retrieval.top_k", .integer 3 10 topK_range),
    ("retrieval.reranker", rerankers),
    ("output.format", categories (.str "free_text") [.str "json_schema", .str "markdown"])]

def baseResearchPrompt : String := "You are a helpful research assistant."

def citeRule : String := "\n- Cite the specific source for every claim."

def evidenceRules : String :=
  "\n- When sources disagree, present each view and say so." ++
  "\n- If the evidence is insufficient, say so instead of guessing."

def researchPromptVariants : List String :=
  [baseResearchPrompt, baseResearchPrompt ++ citeRule,
    baseResearchPrompt ++ citeRule ++ evidenceRules]

def researchParameters : Dict String ParamSpec :=
  Dict.set defaultParameters "prompt.system_prompt"
    (categories (.str baseResearchPrompt) (researchPromptVariants.tail.map .str))

theorem forgeSupportParameters_nodup : (Dict.keys forgeSupportParameters).Nodup := by decide

theorem defaultParameters_nodup : (Dict.keys defaultParameters).Nodup := by decide

def forgeSupportSearchSpace : SearchSpace := ⟨forgeSupportParameters, forgeSupportParameters_nodup⟩

def defaultSearchSpace : SearchSpace := ⟨defaultParameters, defaultParameters_nodup⟩

def researchAgentSearchSpace : SearchSpace :=
  ⟨researchParameters, Dict.nodup_keys_set defaultParameters_nodup _ _⟩

def searchSpaceForDomain (domainName : String) : SearchSpace :=
  if domainName = "forge-support" then forgeSupportSearchSpace
  else if domainName = "research-agent" then researchAgentSearchSpace
  else defaultSearchSpace

/-! ## Dimensions -/

/-- `path.split(".")[0]` -/
def genomeSection (path : String) : String := (PyText.split '.' path).headD ""

/-- The field paths by their section, in the order they come. -/
def searchGroups (space : SearchSpace) : Dict String (List String) :=
  groupBy genomeSection (Dict.keys space.parameters)

/-- `ConfigError` of `build_search_space`. -/
structure UnknownDimensions where
  unknown : List String
  domainName : String
  sections : List String
  fields : List String
  deriving DecidableEq

/-- The paths that one item of the dimensions stands for, if it stands for any. -/
def dimensionPaths (space : SearchSpace) (item : String) : Option (List String) :=
  (Dict.get? (searchGroups space) item).or
    (if item ∈ Dict.keys space.parameters then some [item] else none)

theorem nodup_keys_filter {parameters : Dict String ParamSpec} (h : (Dict.keys parameters).Nodup)
    (p : String × ParamSpec → Bool) : (Dict.keys (parameters.filter p)).Nodup :=
  h.sublist (List.filter_sublist.map _)

def buildSearchSpace (domainName : String) (dimensions : Option (List String)) :
    Except UnknownDimensions SearchSpace :=
  let space := searchSpaceForDomain domainName
  let items := dimensions.getD []
  if items = [] then .ok space
  else
    let chosen := items.flatMap fun item => (dimensionPaths space item).getD []
    let unknown := items.filter fun item => (dimensionPaths space item).isNone
    if unknown ≠ [] then
      .error ⟨unknown.insertionSort (· ≤ ·), domainName,
        (Dict.keys (searchGroups space)).insertionSort (· ≤ ·),
        (Dict.keys space.parameters).insertionSort (· ≤ ·)⟩
    else .ok ⟨space.parameters.filter fun e => e.1 ∈ chosen,
      nodup_keys_filter space.nodup fun e => e.1 ∈ chosen⟩

/-- The item is the section or the whole path of this field. -/
def Stands (item path : String) : Prop := genomeSection path = item ∨ path = item

instance (item path : String) : Decidable (Stands item path) :=
  inferInstanceAs (Decidable (_ ∨ _))

/-- A section is its own section. -/
theorem genomeSection_genomeSection (path : String) :
    genomeSection (genomeSection path) = genomeSection path := by
  have hdotless : ∀ s : String, '.' ∉ s.toList → genomeSection s = s := by
    intro s hs
    rw [genomeSection, PyText.split, List.splitOn_eq_singleton hs]
    exact String.ofList_toList
  apply hdotless
  unfold genomeSection
  cases hparts : PyText.split '.' path with
  | nil => exact List.not_mem_nil
  | cons first parts =>
      exact PyText.not_mem_of_mem_split (hparts ▸ List.mem_cons_self)

section
variable {space : SearchSpace} {item path : String}

theorem get?_searchGroups : Dict.get? (searchGroups space) item =
    if ∃ path ∈ Dict.keys space.parameters, genomeSection path = item then
      some ((Dict.keys space.parameters).filter fun path => genomeSection path = item)
    else none :=
  get?_groupBy genomeSection _ item

theorem dimensionPaths_isNone : (dimensionPaths space item).isNone = true ↔
    ∀ path ∈ Dict.keys space.parameters, ¬ Stands item path := by
  rw [dimensionPaths, get?_searchGroups, Option.isNone_iff_eq_none, Option.or_eq_none_iff]
  unfold Stands
  constructor
  · rintro ⟨hgroup, hfield⟩ path hpath
    split_ifs at hgroup hfield with hnone hmem
    rintro (hsection | rfl)
    · exact hnone ⟨path, hpath, hsection⟩
    · exact hmem hpath
  · intro h
    constructor
    · rw [if_neg]
      rintro ⟨path, hpath, hsection⟩
      exact h path hpath (.inl hsection)
    · rw [if_neg]
      exact fun hmem => h item hmem (.inr rfl)

/-- A section that is asked for by a name that is also a path stands for the path as well. -/
theorem mem_dimensionPaths (hpath : path ∈ Dict.keys space.parameters) :
    path ∈ (dimensionPaths space item).getD [] ↔ Stands item path := by
  rw [dimensionPaths, get?_searchGroups]
  unfold Stands
  by_cases hgroup : ∃ path ∈ Dict.keys space.parameters, genomeSection path = item
  · rw [if_pos hgroup]
    simp only [Option.some_or, Option.getD_some, List.mem_filter, decide_eq_true_eq]
    obtain ⟨other, -, rfl⟩ := hgroup
    constructor
    · exact fun h => .inl h.2
    · rintro (h | rfl)
      · exact ⟨hpath, h⟩
      · exact ⟨hpath, genomeSection_genomeSection other⟩
  · rw [if_neg hgroup, Option.none_or]
    have hother : ¬ genomeSection path = item := fun h => hgroup ⟨path, hpath, h⟩
    by_cases hfield : item ∈ Dict.keys space.parameters
    · simp [hfield, hother]
    · have hne : path ≠ item := fun h => hfield (h ▸ hpath)
      simp [hfield, hother, hne]

end

section
variable {domainName : String} {dimensions : Option (List String)}

theorem unknown_eq (space : SearchSpace) (items : List String) :
    (items.filter fun item => (dimensionPaths space item).isNone) =
      items.filter fun item => ∀ path ∈ Dict.keys space.parameters, ¬ Stands item path := by
  refine List.filter_congr fun item _ => ?_
  rw [Bool.eq_iff_iff, dimensionPaths_isNone, decide_eq_true_iff]

/-- The fields that the dimensions stand for, where each of them stands for some. -/
theorem buildSearchSpace_ok {space : SearchSpace}
    (h : buildSearchSpace domainName dimensions = .ok space) :
    ((dimensions.getD []).filter fun item =>
        ∀ path ∈ Dict.keys (searchSpaceForDomain domainName).parameters, ¬ Stands item path) = [] ∧
      space.parameters = (searchSpaceForDomain domainName).parameters.filter fun e =>
        dimensions.getD [] = [] ∨ ∃ item ∈ dimensions.getD [], Stands item e.1 := by
  unfold buildSearchSpace at h
  dsimp only at h
  rw [unknown_eq] at h
  split_ifs at h with hitems hknown
  · rw [← Except.ok.inj h, hitems]
    simp
  · rw [← Except.ok.inj h]
    refine ⟨not_not.mp hknown, List.filter_congr fun e he => ?_⟩
    have hkey : e.1 ∈ Dict.keys (searchSpaceForDomain domainName).parameters :=
      List.mem_map_of_mem he
    rw [decide_eq_decide, List.mem_flatMap]
    simp only [mem_dimensionPaths hkey, hitems, false_or]

/-- The lists of texts have the same members as often, and the first is sorted. -/
structure SortedAs (sorted texts : List String) : Prop where
  perm : sorted.Perm texts
  ordered : sorted.Pairwise (· ≤ ·)

theorem sortedAs_insertionSort (texts : List String) :
    SortedAs (texts.insertionSort (· ≤ ·)) texts :=
  ⟨List.perm_insertionSort _ _, List.pairwise_insertionSort _ _⟩

/-- What the error names: the dimensions that stand for nothing, and what there is. -/
structure UnknownDimensions.Names (err : UnknownDimensions) (domainName : String)
    (items paths : List String) : Prop where
  domain : err.domainName = domainName
  unknown : SortedAs err.unknown items
  fields : SortedAs err.fields paths
  /-- each section of a field, once -/
  sections : err.sections.Nodup ∧ err.sections.Pairwise (· ≤ ·) ∧
    ∀ name, name ∈ err.sections ↔ ∃ path ∈ paths, genomeSection path = name

theorem buildSearchSpace_error {err : UnknownDimensions}
    (h : buildSearchSpace domainName dimensions = .error err) :
    let fields := Dict.keys (searchSpaceForDomain domainName).parameters
    let unknown := (dimensions.getD []).filter fun item => ∀ path ∈ fields, ¬ Stands item path
    unknown ≠ [] ∧ err.Names domainName unknown fields := by
  unfold buildSearchSpace at h
  dsimp only at h ⊢
  rw [unknown_eq] at h
  split_ifs at h with hitems hknown
  rw [← Except.error.inj h]
  refine ⟨hknown, rfl, sortedAs_insertionSort _, sortedAs_insertionSort _, ?_,
    List.pairwise_insertionSort _ _, fun name => ?_⟩
  · exact (List.perm_insertionSort _ _).nodup_iff.mpr (nodup_keys_groupBy genomeSection _)
  · rw [List.mem_insertionSort]
    exact mem_keys_groupBy genomeSection

end

/-- **What the dimensions choose.** Without any, everything is searched. With some, a space is
    built just when each stands for a field of the domain's space, and it has the fields that
    one of them stands for, as they are and in their order; otherwise the error lists those
    that stand for none, with the domain, its fields and their sections. -/
theorem buildSearchSpace_selects (domainName : String) (dimensions : Option (List String)) :
    let domain := (searchSpaceForDomain domainName).parameters
    let items := dimensions.getD []
    let unknown := items.filter fun item => ∀ path ∈ Dict.keys domain, ¬ Stands item path
    (∀ space, buildSearchSpace domainName dimensions = .ok space →
      unknown = [] ∧ space.parameters =
        domain.filter fun e => items = [] ∨ ∃ item ∈ items, Stands item e.1) ∧
    (∀ err, buildSearchSpace domainName dimensions = .error err →
      unknown ≠ [] ∧ err.Names domainName unknown (Dict.keys domain)) :=
  ⟨fun _ => buildSearchSpace_ok, fun _ => buildSearchSpace_error⟩

/-- A section and a field of the space of customer support. -/
theorem buildSearchSpace_selects_promptAndTopK : ∃ space,
    buildSearchSpace "forge-support" (some ["retrieval.top_k", "prompt"]) = .ok space ∧
      Dict.keys space.parameters = ["prompt.system_prompt", "prompt.strategy",
        "prompt.include_examples", "retrieval.top_k"] := by
  have hbuilt : (buildSearchSpace "forge-support"
      (some ["retrieval.top_k", "prompt"])).toOption.isSome = true := by decide +kernel
  obtain ⟨space, hspace⟩ := Option.isSome_iff_exists.mp hbuilt
  rw [toOption_eq_some] at hspace
  have hselected := (buildSearchSpace_selects "forge-support" _).1 space hspace
  refine ⟨space, hspace, ?_⟩
  rw [hselected.2]
  decide +kernel

section
variable {domainName : String} {dimensions : Option (List String)} {space : SearchSpace}

theorem built_sublist (h : buildSearchSpace domainName dimensions = .ok space) :
    space.parameters.Sublist (searchSpaceForDomain domainName).parameters := by
  rw [(buildSearchSpace_ok h).2]
  exact List.filter_sublist

theorem searchSpaceForDomain_ne_nil (domainName : String) :
    (searchSpaceForDomain domainName).parameters ≠ [] := by
  unfold searchSpaceForDomain
  split_ifs
  · exact List.cons_ne_nil _ _
  · exact List.cons_ne_nil _ _
  · exact List.cons_ne_nil _ _

theorem built_ne_nil (h : buildSearchSpace domainName dimensions = .ok space) :
    space.parameters ≠ [] := by
  obtain ⟨hknown, hparameters⟩ := buildSearchSpace_ok h
  have hchosen : ∃ e ∈ (searchSpaceForDomain domainName).parameters,
      dimensions.getD [] = [] ∨ ∃ item ∈ dimensions.getD [], Stands item e.1 := by
    cases hitems : dimensions.getD [] with
    | nil =>
        obtain ⟨e, he⟩ := List.exists_mem_of_ne_nil _ (searchSpaceForDomain_ne_nil domainName)
        exact ⟨e, he, .inl rfl⟩
    | cons item items =>
        have hstands := List.filter_eq_nil_iff.mp hknown item (hitems ▸ List.mem_cons_self)
        simp only [decide_eq_true_eq, not_forall, not_not] at hstands
        obtain ⟨path, hpath, hstands⟩ := hstands
        obtain ⟨e, he, rfl⟩ := List.mem_map.mp hpath
        exact ⟨e, he, .inr ⟨item, List.mem_cons_self, hstands⟩⟩
  obtain ⟨e, he, hselected⟩ := hchosen
  rw [hparameters]
  exact List.ne_nil_of_mem (List.mem_filter.mpr ⟨he, decide_eq_true hselected⟩)

end

/-! ## Spaces the schema accepts -/

/-- Written to the field, the value reads back as it is. -/
def GenomeField.takes (f : GenomeField) (v : Value) : Bool :=
  decide ((GenomeConfig.defaults.set f.path v f).toOption.map (fun c => c.get f) = some v)

/-- The ends of a range and all categories are taken by the field. -/
def ParamSpec.admitted (f : GenomeField) : ParamSpec → Bool
  | .float lo hi _ => f.takes (.float lo) && f.takes (.float hi)
  | .integer lo hi _ => f.takes (.int ⌈lo⌉) && f.takes (.int ⌊hi⌋)
  | .categorical values _ => values.all f.takes

def SearchSpace.admitted (space : SearchSpace) : Bool :=
  space.parameters.all fun e => (Dict.get? fieldPaths e.1).any fun f => e.2.admitted f

/-- The value is one of the field's own, and every configuration accepts it. -/
structure GenomeField.Takes (f : GenomeField) (v : Value) : Prop where
  own : f.kind.Holds v
  accepts : configFields.Accepts (f, v)

theorem GenomeField.takes_sound {f : GenomeField} {v : Value} (h : f.takes v = true) :
    f.Takes v := by
  obtain ⟨c, hc, hget⟩ := Option.map_eq_some_iff.mp (of_decide_eq_true h)
  rw [toOption_eq_some] at hc
  exact ⟨hget ▸ holds_get c f, GenomeConfig.set_any hc⟩

section
variable {f : GenomeField} {loc : String}

theorem exists_parseFloat {lo hi q : ℚ} :
    (∃ x, parseFloat loc lo hi (.float q) = .ok x) ↔ lo ≤ q ∧ q ≤ hi := by
  have hparse : parseFloat loc lo hi (.float q) =
      if h : lo ≤ q ∧ q ≤ hi then Except.ok (⟨q, h⟩ : RatIn lo hi)
      else .error (FieldError.mk loc (s!"input should be between {Rounding.floatText lo} and " ++
        s!"{Rounding.floatText hi}")) := rfl
  rw [hparse]
  split_ifs with h
  · exact ⟨fun _ => h, fun _ => ⟨⟨q, h⟩, rfl⟩⟩
  · exact ⟨fun hok => hok.elim nofun, fun hin => absurd hin h⟩

theorem exists_parseInt {lo hi z : ℤ} :
    (∃ x, parseInt loc lo hi (.int z) = .ok x) ↔ lo ≤ z ∧ z ≤ hi := by
  have hparse : parseInt loc lo hi (.int z) =
      if h : lo ≤ z ∧ z ≤ hi then Except.ok (⟨z, h⟩ : IntIn lo hi)
      else .error (FieldError.mk loc s!"input should be between {lo} and {hi}") := rfl
  rw [hparse]
  split_ifs with h
  · exact ⟨fun _ => h, fun _ => ⟨⟨z, h⟩, rfl⟩⟩
  · exact ⟨fun hok => hok.elim nofun, fun hin => absurd hin h⟩

/-- A field that holds floats takes what lies between two that it takes. -/
theorem GenomeField.Takes.float {a b q : ℚ} (ha : f.Takes (.float a)) (hb : f.Takes (.float b))
    (haq : a ≤ q) (hqb : q ≤ b) : f.Takes (.float q) := by
  have hfield : f = .modelTemperature := by
    have hown := ha.own
    cases f
    all_goals first
      | rfl
      | obtain ⟨_, h⟩ := hown; cases h
  subst hfield
  refine ⟨⟨q, rfl⟩, fun d => ?_⟩
  obtain ⟨_, hc⟩ := ha.accepts d
  obtain ⟨x, hx, -⟩ := GenomeConfig.parsed_of_set hc
  obtain ⟨_, hc'⟩ := hb.accepts d
  obtain ⟨y, hy, -⟩ := GenomeConfig.parsed_of_set hc'
  obtain ⟨z, hz⟩ := exists_parseFloat.mpr
    ⟨(exists_parseFloat.mp ⟨x, hx⟩).1.trans haq, hqb.trans (exists_parseFloat.mp ⟨y, hy⟩).2⟩
  exact ⟨_, bind_eq_ok.mpr ⟨z, hz, rfl⟩⟩

theorem GenomeField.Takes.int {a b z : ℤ} (ha : f.Takes (.int a)) (hb : f.Takes (.int b))
    (haz : a ≤ z) (hzb : z ≤ b) : f.Takes (.int z) := by
  have hkind : f.kind = .integer := by
    have hown := ha.own
    cases f
    all_goals first
      | rfl
      | obtain ⟨_, h⟩ := hown; cases h
  refine ⟨hkind ▸ ⟨z, rfl⟩, fun d => ?_⟩
  obtain ⟨_, hc⟩ := ha.accepts d
  obtain ⟨_, hc'⟩ := hb.accepts d
  cases f
  all_goals first
    | cases hkind; done
    | obtain ⟨x, hx, -⟩ := GenomeConfig.parsed_of_set hc
      obtain ⟨y, hy, -⟩ := GenomeConfig.parsed_of_set hc'
      obtain ⟨w, hw⟩ := exists_parseInt.mpr
        ⟨(exists_parseInt.mp ⟨x, hx⟩).1.trans haz, hzb.trans (exists_parseInt.mp ⟨y, hy⟩).2⟩
      exact ⟨_, bind_eq_ok.mpr ⟨w, hw, rfl⟩⟩

theorem ParamSpec.admitted_sound {spec : ParamSpec} (h : spec.admitted f = true) {v : Value}
    (hv : Within spec v) : f.Takes v := by
  cases spec with
  | float lo hi hlt =>
      obtain ⟨hlo, hhi⟩ := Bool.and_eq_true_iff.mp h
      obtain ⟨q, rfl, hlq, hqh⟩ := hv
      exact (GenomeField.takes_sound hlo).float (GenomeField.takes_sound hhi) hlq hqh
  | integer lo hi hlt =>
      obtain ⟨hlo, hhi⟩ := Bool.and_eq_true_iff.mp h
      obtain ⟨z, rfl, hlz, hzh⟩ := hv
      exact (GenomeField.takes_sound hlo).int (GenomeField.takes_sound hhi)
        (Int.ceil_le.mpr hlz) (Int.le_floor.mpr hzh)
  | categorical values hne =>
      exact GenomeField.takes_sound (List.all_eq_true.mp h v hv)

end

instance : DecidablePred ParamSpec.RoundsInward
  | .float _ _ _ => inferInstanceAs (Decidable (_ ∧ _))
  | .integer _ _ _ => inferInstanceAs (Decidable (_ ∧ _))
  | .categorical _ _ => inferInstanceAs (Decidable True)

/-- What the search of a space needs of it: points that make candidates, which the search does
    not leave. -/
structure SearchSpace.Admitted (space : SearchSpace) : Prop where
  admitted : space.admitted = true
  inward : ∀ e ∈ space.parameters, e.2.RoundsInward
  allowed : ∀ path ∈ Dict.keys space.parameters,
    ({} : MutationPolicy).isAllowed path = true

theorem searchSpaceForDomain_admitted (domainName : String) :
    (searchSpaceForDomain domainName).Admitted := by
  unfold searchSpaceForDomain
  split_ifs
  · exact ⟨by decide +kernel, by decide +kernel, by decide⟩
  · exact ⟨by decide +kernel, by decide +kernel, by decide⟩
  · exact ⟨by decide +kernel, by decide +kernel, by decide⟩

theorem SearchSpace.Admitted.sublist {space space' : SearchSpace} (h : space'.Admitted)
    (hsub : space.parameters.Sublist space'.parameters) : space.Admitted where
  admitted := List.all_eq_true.mpr fun e he =>
    List.all_eq_true.mp h.admitted e (hsub.subset he)
  inward e he := h.inward e (hsub.subset he)
  allowed path hpath := h.allowed path ((hsub.map Prod.fst).subset hpath)

theorem built_admitted {domainName : String} {dimensions : Option (List String)}
    {space : SearchSpace} (h : buildSearchSpace domainName dimensions = .ok space) :
    space.Admitted :=
  (searchSpaceForDomain_admitted domainName).sublist (built_sublist h)

/-! ## Candidates from such a space -/

theorem SearchSpace.Admitted.takes {space : SearchSpace} (h : space.Admitted)
    {e : String × ParamSpec} (he : e ∈ space.parameters) :
    ∃ f, Dict.get? fieldPaths e.1 = some f ∧ ∀ v, Within e.2 v → f.Takes v := by
  obtain ⟨f, hf, hadmitted⟩ := (Option.any_eq_true _ _).mp (List.all_eq_true.mp h.admitted e he)
  exact ⟨f, hf, fun v hv => ParamSpec.admitted_sound hadmitted hv⟩

theorem FitsEntries.exists_spec {Q : ParamSpec → Value → Prop}
    {parameters : Dict String ParamSpec} {point : Point} (h : FitsEntries Q parameters point)
    {x : String × Value} (hx : x ∈ point) : ∃ e ∈ parameters, e.1 = x.1 ∧ Q e.2 x.2 := by
  induction h with
  | nil => cases hx
  | @cons e y parameters point hey hrest ih =>
      rcases List.mem_cons.mp hx with rfl | hx
      · exact ⟨e, List.mem_cons_self, hey.1.symm, hey.2⟩
      · obtain ⟨e', he', hmatch⟩ := ih hx
        exact ⟨e', List.mem_cons_of_mem _ he', hmatch⟩

namespace ExperimentEngine

variable {ρ : Type} (e : ExperimentEngine ρ)

/-- A point within the space makes a candidate, which has the point's values and is the
    baseline in every field that is not searched. -/
theorem deriveCandidate_of_within (hspace : e.config.searchSpace.Admitted) {point : Point}
    (hpoint : e.config.searchSpace.Fits Within point) (version index : ℕ) :
    ∃ child, e.deriveCandidate point version index = .ok child ∧
      (∀ x ∈ point, getFieldByPath child.config x.1 = .ok x.2) ∧
      ∀ path ∉ Dict.keys e.config.searchSpace.parameters,
        getFieldByPath child.config path = getFieldByPath e.baselineGenome.config path := by
  have hkeys : Dict.keys point = Dict.keys e.config.searchSpace.parameters := hpoint.keys
  have htakes : ∀ x ∈ point, ∃ f, Dict.get? fieldPaths x.1 = some f ∧ f.Takes x.2 := by
    intro x hx
    obtain ⟨spec, hspec, hname, hwithin⟩ := hpoint.exists_spec hx
    obtain ⟨f, hf, htakes⟩ := hspace.takes hspec
    exact ⟨f, hname ▸ hf, htakes x.2 hwithin⟩
  have hleaf : ∀ path ∈ Dict.keys point, path ∈ Dict.keys fieldPaths := by
    intro path hpath
    obtain ⟨x, hx, rfl⟩ := List.mem_map.mp hpath
    obtain ⟨f, hf, -⟩ := htakes x hx
    exact List.mem_map_of_mem (Dict.mem_of_get? hf)
  obtain ⟨es, rfl⟩ := exists_spell hleaf
  have hes : Overrides es := overrides_of_point (hkeys ▸ e.config.searchSpace.nodup) (by
    intro x hx f hf
    obtain ⟨f', hf', htakes⟩ := htakes x hx
    cases hf.symm.trans hf'
    exact htakes.own)
  have haccepts : ∀ x ∈ es, configFields.Accepts x := by
    intro x hx
    obtain ⟨f, hf, htakes⟩ := htakes (x.1.path, x.2) (List.mem_map_of_mem hx)
    rw [get?_path] at hf
    cases hf
    exact htakes.accepts
  obtain ⟨config, hconfig⟩ := Assignable.setAll_of_accepts haccepts e.baselineGenome.config
  refine ⟨_, (e.deriveCandidate_spell_iff hes).mpr ⟨config, hconfig, rfl⟩, ?_, ?_⟩
  · intro x hx
    obtain ⟨y, hy, rfl⟩ := List.mem_map.mp hx
    exact getFieldByPath_of_mem hes hconfig hy
  · intro path hpath
    exact getFieldByPath_of_not_mem hconfig (hkeys ▸ hpath)

end ExperimentEngine

end NeuroForge
