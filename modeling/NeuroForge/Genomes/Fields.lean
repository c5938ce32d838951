/-
  The leaf fields of a configuration, as fields that can be assigned.

  A literal field holds one of its spellings and nothing else (`LawfulLiteral`), every other
  field holds the values of its own type (`FieldKind.Holds`), and `set` behaves as an
  assignment should (`configFields`): it accepts a value or not whatever else is in the
  configuration, and changes one field. `_deep_set` is a list of such assignments
  (`deepSet_spell`).
-/
import NeuroForge.Genomes.Schema
import NeuroForge.Lib.Assign

namespace NeuroForge

open Fallible

/-! ## Tables -/

theorem find?_value {α : Type} [DecidableEq α] {d : Dict String α}
    (hvalues : (d.map Prod.snd).Nodup) {e : String × α} (he : e ∈ d) :
    (d.find? fun e' => e'.2 = e.2) = some e := by
  cases hfind : d.find? fun e' => e'.2 = e.2 with
  | none => exact absurd (decide_eq_true rfl) (List.find?_eq_none.mp hfind e he)
  | some e' =>
      have hvalue : e'.2 = e.2 := by simpa using List.find?_some hfind
      rw [List.inj_on_of_nodup_map hvalues (List.mem_of_find?_eq_some hfind) he hvalue]

/-- The spellings of a literal type are read back, and nothing but they is read. -/
class LawfulLiteral (α : Type) [DecidableEq α] [Literal α] : Prop where
  parse_text : ∀ loc (a : α), Literal.parse loc (Literal.text a) = .ok a
  text_of_parse : ∀ {loc v} {a : α}, Literal.parse loc v = .ok a → Literal.text a = v

section
variable {α : Type} [DecidableEq α] [Literal α]

theorem LawfulLiteral.of_table (hkeys : (Dict.keys (Literal.table (α := α))).Nodup)
    (hvalues : ((Literal.table (α := α)).map Prod.snd).Nodup)
    (hall : ∀ a : α, a ∈ (Literal.table (α := α)).map Prod.snd) : LawfulLiteral α where
  parse_text loc a := by
    obtain ⟨e, he, rfl⟩ := List.mem_map.mp (hall a)
    rw [Literal.text, find?_value hvalues he]
    show Literal.parse loc (.scalar (.str e.1)) = _
    rw [Literal.parse, Dict.get?_of_mem hkeys he]
  text_of_parse {loc v a} h := by
    obtain ⟨s, rfl⟩ : ∃ s, v = .str s := by
      rcases v with (_ | _ | _ | _ | s) | _
      all_goals first
        | exact ⟨s, rfl⟩
        | cases h
    rw [Value.str, Literal.parse] at h
    cases hget : Dict.get? (Literal.table (α := α)) s with
    | none =>
        rw [hget] at h
        cases h
    | some a' =>
        rw [hget] at h
        cases h
        rw [Literal.text, find?_value hvalues (Dict.mem_of_get? hget)]
        rfl

theorem Literal.text_inj [LawfulLiteral α] {a b : α} (h : Literal.text a = Literal.text b) :
    a = b := by
  have hparse := LawfulLiteral.parse_text "" a
  rw [h, LawfulLiteral.parse_text] at hparse
  exact (Except.ok.inj hparse).symm

end

instance : LawfulLiteral ModelProvider :=
  .of_table (by decide) (by decide) (by rintro (_ | _ | _ | _) <;> decide)

instance : LawfulLiteral ReasoningEffort :=
  .of_table (by decide) (by decide) (by rintro (_ | _ | _) <;> decide)

instance : LawfulLiteral PromptStrategy :=
  .of_table (by decide) (by decide) (by rintro (_ | _ | _ | _ | _) <;> decide)

instance : LawfulLiteral Reranker :=
  .of_table (by decide) (by decide) (by rintro (_ | _ | _) <;> decide)

instance : LawfulLiteral QueryTransform :=
  .of_table (by decide) (by decide) (by rintro (_ | _ | _) <;> decide)

instance : LawfulLiteral SelectionPolicy :=
  .of_table (by decide) (by decide) (by rintro (_ | _ | _) <;> decide)

instance : LawfulLiteral Compression :=
  .of_table (by decide) (by decide) (by rintro (_ | _ | _) <;> decide)

instance : LawfulLiteral ContextOrdering :=
  .of_table (by decide) (by decide) (by rintro (_ | _ | _) <;> decide)

instance : LawfulLiteral PlanningStrategy :=
  .of_table (by decide) (by decide) (by rintro (_ | _ | _) <;> decide)

instance : LawfulLiteral StoppingCriteria :=
  .of_table (by decide) (by decide) (by rintro (_ | _ | _) <;> decide)

instance : LawfulLiteral OutputFormat :=
  .of_table (by decide) (by decide) (by rintro (_ | _ | _) <;> decide)

/-! ## The types of the fields -/

/-- What a field holds; a literal field holds a text. -/
inductive FieldKind where
  | float | integer | boolean | text | texts

def FieldKind.Holds : FieldKind → Value → Prop
  | .float, v => ∃ q, v = .float q
  | .integer, v => ∃ z, v = .int z
  | .boolean, v => ∃ b, v = .bool b
  | .text, v => ∃ s, v = .str s
  | .texts, v => ∃ xs : List String, v = .list (xs.map .str)

def GenomeField.kind : GenomeField → FieldKind
  | .modelTemperature => .float
  | .modelMaxTokens | .promptMaxInstructions | .retrievalChunkSize | .retrievalChunkOverlap
  | .retrievalTopK | .toolsMaxToolCalls | .agentMaxIterations => .integer
  | .promptIncludeExamples | .contextDeduplicate => .boolean
  | .toolsEnabled => .texts
  | .modelProvider | .modelName | .modelReasoningEffort | .promptSystemPrompt
  | .promptStrategy | .retrievalReranker | .retrievalQueryTransform | .toolsSelectionPolicy
  | .contextCompression | .contextOrdering | .agentPlanningStrategy | .agentStoppingCriteria
  | .outputFormat => .text

theorem holds_get (c : GenomeConfig) (f : GenomeField) : f.kind.Holds (c.get f) := by
  cases f
  all_goals exact ⟨_, rfl⟩

section
variable {loc : String} {v : Value}

theorem float_of_parse {lo hi : ℚ} {x : RatIn lo hi} (h : parseFloat loc lo hi v = .ok x)
    (hv : FieldKind.float.Holds v) : .float x = v := by
  obtain ⟨q, rfl⟩ := hv
  have h : (if h : lo ≤ q ∧ q ≤ hi then Except.ok (⟨q, h⟩ : RatIn lo hi)
    else .error (FieldError.mk loc (s!"input should be between {Rounding.floatText lo} and " ++
      s!"{Rounding.floatText hi}"))) = .ok x := h
  split_ifs at h
  cases h
  rfl

theorem int_of_parse {lo hi : ℤ} {x : IntIn lo hi} (h : parseInt loc lo hi v = .ok x)
    (hv : FieldKind.integer.Holds v) : .int x = v := by
  obtain ⟨z, rfl⟩ := hv
  have h : (if h : lo ≤ z ∧ z ≤ hi then Except.ok (⟨z, h⟩ : IntIn lo hi)
    else .error (FieldError.mk loc s!"input should be between {lo} and {hi}")) = .ok x := h
  split_ifs at h
  cases h
  rfl

theorem bool_of_parse {x : Bool} (h : parseBool loc v = .ok x)
    (hv : FieldKind.boolean.Holds v) : .bool x = v := by
  obtain ⟨b, rfl⟩ := hv
  cases b
  all_goals
    cases h
    rfl

theorem str_of_parse {x : String} (h : parseStr loc v = .ok x) (hv : FieldKind.text.Holds v) :
    .str x = v := by
  obtain ⟨s, rfl⟩ := hv
  cases h
  rfl

theorem parseStrTuple_strs (loc : String) (xs : List String) :
    parseStrTuple loc (.list (xs.map .str)) = .ok xs := by
  show (xs.map Scalar.str).mapM (fun x => parseStr loc (.scalar x)) = .ok xs
  exact mapM_map_self xs fun x => rfl

theorem strs_of_parse {xs : List String} (h : parseStrTuple loc v = .ok xs)
    (hv : FieldKind.texts.Holds v) : .list (xs.map .str) = v := by
  obtain ⟨ys, rfl⟩ := hv
  rw [parseStrTuple_strs] at h
  cases h
  rfl

end

/-! ## Reading and writing one field -/

attribute [ext] ModelConfig PromptConfig RetrievalConfig ToolsConfig ContextConfig AgentConfig
  OutputConfig GenomeConfig

namespace GenomeConfig

section
variable {c c' : GenomeConfig} {loc : String} {v : Value} {f : GenomeField}

theorem parsed_of_set {α : Type} {m : Except FieldError α} {F : α → GenomeConfig}
    (h : (do return F (← m)) = Except.ok c') : ∃ x, m = .ok x ∧ c' = F x := by
  obtain ⟨x, hx, h⟩ := bind_eq_ok.mp h
  cases h
  exact ⟨x, hx, rfl⟩

/-- A value of the field's own type reads back as it was written. -/
theorem get_set (h : c.set loc v f = .ok c') (hv : f.kind.Holds v) : c'.get f = v := by
  cases f
  all_goals obtain ⟨x, hx, rfl⟩ := parsed_of_set h
  all_goals first
    | exact LawfulLiteral.text_of_parse hx
    | exact float_of_parse hx hv
    | exact int_of_parse hx hv
    | exact bool_of_parse hx hv
    | exact str_of_parse hx hv
    | exact strs_of_parse hx hv

theorem get_set_of_ne (h : c.set loc v f = .ok c') {g : GenomeField} (hg : g ≠ f) :
    c'.get g = c.get g := by
  cases f
  all_goals
    obtain ⟨x, -, rfl⟩ := parsed_of_set h
    cases g <;> first | rfl | exact absurd rfl hg

theorem set_any (h : c.set loc v f = .ok c') (d : GenomeConfig) :
    ∃ d', d.set loc v f = .ok d' := by
  cases f
  all_goals
    obtain ⟨x, hx, -⟩ := parsed_of_set h
    exact ⟨_, bind_eq_ok.mpr ⟨x, hx, rfl⟩⟩

end

theorem ext_get {c d : GenomeConfig} (h : ∀ f, c.get f = d.get f) : c = d := by
  have hliteral : ∀ {α : Type} [DecidableEq α] [Literal α] [LawfulLiteral α] {a b : α},
      Literal.text a = Literal.text b → a = b := Literal.text_inj
  have hrat : ∀ {lo hi : ℚ} {x y : RatIn lo hi}, Value.float x = Value.float y → x = y :=
    fun h => Subtype.ext (Scalar.float.inj (Value.scalar.inj h))
  have hint : ∀ {lo hi : ℤ} {x y : IntIn lo hi}, Value.int x = Value.int y → x = y :=
    fun h => Subtype.ext (Scalar.int.inj (Value.scalar.inj h))
  have hbool : ∀ {x y : Bool}, Value.bool x = Value.bool y → x = y :=
    fun h => Scalar.bool.inj (Value.scalar.inj h)
  have hstr : ∀ {x y : String}, Value.str x = Value.str y → x = y :=
    fun h => Scalar.str.inj (Value.scalar.inj h)
  have hstrs : ∀ {xs ys : List String},
      Value.list (xs.map .str) = Value.list (ys.map .str) → xs = ys := fun h =>
    (List.map_injective_iff.mpr fun _ _ h => Scalar.str.inj h) (Value.list.inj h)
  exact GenomeConfig.ext
    (ModelConfig.ext (hliteral (h .modelProvider)) (hstr (h .modelName))
      (hrat (h .modelTemperature)) (hint (h .modelMaxTokens))
      (hliteral (h .modelReasoningEffort)))
    (PromptConfig.ext (hstr (h .promptSystemPrompt)) (hliteral (h .promptStrategy))
      (hbool (h .promptIncludeExamples)) (hint (h .promptMaxInstructions)))
    (RetrievalConfig.ext (hint (h .retrievalChunkSize)) (hint (h .retrievalChunkOverlap))
      (hint (h .retrievalTopK)) (hliteral (h .retrievalReranker))
      (hliteral (h .retrievalQueryTransform)))
    (ToolsConfig.ext (hstrs (h .toolsEnabled)) (hliteral (h .toolsSelectionPolicy))
      (hint (h .toolsMaxToolCalls)))
    (ContextConfig.ext (hliteral (h .contextCompression)) (hbool (h .contextDeduplicate))
      (hliteral (h .contextOrdering)))
    (AgentConfig.ext (hliteral (h .agentPlanningStrategy)) (hint (h .agentMaxIterations))
      (hliteral (h .agentStoppingCriteria)))
    (OutputConfig.ext (hliteral (h .outputFormat)))

end GenomeConfig

/-! ## Paths -/

/-- The dotted path of a leaf field. -/
def GenomeField.path (f : GenomeField) : String :=
  (fieldPaths.find? fun e => e.2 = f).elim "" Prod.fst

theorem get?_path (f : GenomeField) : Dict.get? fieldPaths f.path = some f := by
  cases f
  all_goals decide

theorem path_of_get? {path : String} {f : GenomeField}
    (h : Dict.get? fieldPaths path = some f) : f.path = path := by
  have hvalues : (fieldPaths.map Prod.snd).Nodup := by decide
  rw [GenomeField.path, find?_value hvalues (Dict.mem_of_get? h)]
  rfl

theorem path_injective : Function.Injective GenomeField.path := by
  intro f g h
  have hget := get?_path f
  rw [h, get?_path] at hget
  exact (Option.some.inj hget).symm

theorem getFieldByPath_path (c : GenomeConfig) (f : GenomeField) :
    getFieldByPath c f.path = .ok (c.get f) := by
  rw [getFieldByPath, get?_path]

/-! ## Assignments -/

/-- The leaf fields with `set` as assignment. -/
def configFields : Assignable GenomeConfig GenomeField Value FieldError where
  get := GenomeConfig.get
  set c f v := c.set f.path v f
  Own f v := f.kind.Holds v
  get_set := GenomeConfig.get_set
  get_set_of_ne h hg := GenomeConfig.get_set_of_ne h hg
  set_any := GenomeConfig.set_any
  ext_get := GenomeConfig.ext_get

@[simp] theorem configFields_get (c : GenomeConfig) (f : GenomeField) :
    configFields.get c f = c.get f := rfl

/-- Assignments to leaf fields, as a point names them. -/
def spell {V : Type} (es : List (GenomeField × V)) : Dict String V :=
  es.map fun e => (e.1.path, e.2)

theorem keys_spell {V : Type} (es : List (GenomeField × V)) :
    Dict.keys (spell es) = (es.map Prod.fst).map GenomeField.path := by
  simp [Dict.keys, spell]

theorem deepSet_spell (c : GenomeConfig) (es : List (GenomeField × Value)) :
    deepSet c (spell es) = configFields.setAll c es := by
  induction es generalizing c with
  | nil => rfl
  | cons e es ih =>
      have hfirst : deepSet c (spell (e :: es)) =
          c.set e.1.path e.2 e.1 >>= fun c => deepSet c (spell es) := by
        unfold deepSet spell
        rw [List.map_cons, List.foldlM_cons, get?_path]
      have hrest : configFields.setAll c (e :: es) =
          c.set e.1.path e.2 e.1 >>= fun c => configFields.setAll c es := List.foldlM_cons
      rw [hfirst, hrest]
      exact bind_congr fun d => ih d

/-- A point that names leaf fields only is a list of assignments. -/
theorem exists_spell {V : Type} {point : Dict String V}
    (h : ∀ path ∈ Dict.keys point, path ∈ Dict.keys fieldPaths) :
    ∃ es, point = spell es := by
  induction point with
  | nil => exact ⟨[], rfl⟩
  | cons first point ih =>
      obtain ⟨es, rfl⟩ := ih fun path hpath => h path (List.mem_cons_of_mem _ hpath)
      cases hget : Dict.get? fieldPaths first.1 with
      | none => exact absurd (h first.1 List.mem_cons_self) (Dict.get?_eq_none.mp hget)
      | some f =>
          refine ⟨(f, first.2) :: es, ?_⟩
          show first :: spell es = (f.path, first.2) :: spell es
          rw [path_of_get? hget]

/-! ## Comparing values -/

theorem str_pyEq_iff (a b : String) : (Scalar.str a).pyEq (.str b) = true ↔ a = b := by
  show (Scalar.str a == Scalar.str b) = true ↔ a = b
  rw [beq_iff_eq, Scalar.str.injEq]

theorem strs_pyEq_iff (xs ys : List String) :
    (Value.list (xs.map .str)).pyEq (.list (ys.map .str)) = true ↔ xs = ys := by
  constructor
  · intro h
    replace h : (((xs.map Scalar.str).length == (ys.map Scalar.str).length) &&
      ((xs.map Scalar.str).zip (ys.map Scalar.str)).all fun p => p.1.pyEq p.2) = true := h
    induction xs generalizing ys with
    | nil =>
        cases ys with
        | nil => rfl
        | cons y ys => simp at h
    | cons x xs ih =>
        cases ys with
        | nil => simp at h
        | cons y ys =>
            simp only [List.map_cons, List.length_cons, List.zip_cons_cons, List.all_cons,
              Bool.and_eq_true, beq_iff_eq, str_pyEq_iff, Nat.add_right_cancel_iff] at h
            rw [h.2.1, ih ys (Bool.and_eq_true_iff.mpr ⟨beq_iff_eq.mpr h.1, h.2.2⟩)]
  · rintro rfl
    exact Value.pyEq_self _

/-- Values of one type are the same if Python takes them to be equal. -/
theorem pyEq_iff_eq {k : FieldKind} {v w : Value} (hv : k.Holds v) (hw : k.Holds w) :
    v.pyEq w = true ↔ v = w := by
  constructor
  · intro h
    cases k with
    | float =>
        obtain ⟨q, rfl⟩ := hv
        obtain ⟨r, rfl⟩ := hw
        have h : (q == r) = true := h
        rw [beq_iff_eq.mp h]
    | integer =>
        obtain ⟨y, rfl⟩ := hv
        obtain ⟨z, rfl⟩ := hw
        have h : ((y : ℚ) == (z : ℚ)) = true := h
        rw [Int.cast_injective (beq_iff_eq.mp h)]
    | boolean =>
        obtain ⟨a, rfl⟩ := hv
        obtain ⟨b, rfl⟩ := hw
        revert h
        cases a <;> cases b <;> decide
    | text =>
        obtain ⟨a, rfl⟩ := hv
        obtain ⟨b, rfl⟩ := hw
        rw [(str_pyEq_iff a b).mp h]
    | texts =>
        obtain ⟨xs, rfl⟩ := hv
        obtain ⟨ys, rfl⟩ := hw
        rw [(strs_pyEq_iff xs ys).mp h]
  · rintro rfl
    exact Value.pyEq_self v

end NeuroForge
