/-
  JSON values as text: written with an indent of two, read with any white space.

  The writer chooses the text of a float, the reader takes the float nearest to a text, and
  both are given. A value whose floats survive that, and whose objects have no key twice
  (`Storable`), is read back as it was written (`loads_dumps`). The reader goes down into
  brackets as long as its fuel lasts; a text is as long as the fuel it needs (`weight_le`).
  Half a surrogate pair, which no character stands for, is not read, nor are `NaN` and the
  infinities, which no value here holds.
-/
import NeuroForge.Lib.JsonScan

namespace JsonText

open NumberedText

variable {α β : Type}

/-- How floats are written and read. -/
structure Floats where
  shortest : ℚ → Decimal
  nearest : ℚ → ℚ

/-! ## Writing -/

def quoted (s : String) : List Char := quote :: (s.toList.flatMap escape ++ [quote])

def newline (depth : ℕ) : List Char := '\n' :: List.replicate (2 * depth) ' '

/-- Elements between brackets, each on a line of its own. -/
def bracketed (opening closing : Char) (depth : ℕ) : List (List Char) → List Char
  | [] => [opening, closing]
  | first :: more =>
      opening :: (newline (depth + 1) ++ (first ++
        (more.flatMap (fun text => ',' :: (newline (depth + 1) ++ text)) ++
          (newline depth ++ [closing]))))

variable (F : Floats)

mutual

def render : ℕ → Json → List Char
  | _, .null => ['n', 'u', 'l', 'l']
  | _, .bool true => ['t', 'r', 'u', 'e']
  | _, .bool false => ['f', 'a', 'l', 's', 'e']
  | _, .int z => signed z
  | _, .float q => (F.shortest q).text
  | _, .str s => quoted s
  | depth, .arr items => bracketed '[' ']' depth (renderItems (depth + 1) items)
  | depth, .obj fields => bracketed '\x7b' '\x7d' depth (renderFields (depth + 1) fields)

def renderItems : ℕ → List Json → List (List Char)
  | _, [] => []
  | depth, j :: items => render depth j :: renderItems depth items

def renderFields : ℕ → List (String × Json) → List (List Char)
  | _, [] => []
  | depth, (key, j) :: fields =>
      (quoted key ++ (':' :: ' ' :: render depth j)) :: renderFields depth fields

end

/-- `model_dump_json(indent=2)`, of the JSON form. -/
def dumps (j : Json) : List Char := render F 0 j

/-! ## Reading -/

def isSpace (c : Char) : Bool := c = ' ' || c = '\t' || c = '\n' || c = '\r'

def skipSpace (text : List Char) : List Char := text.dropWhile isSpace

/-- Elements separated by commas, up to the closing bracket. -/
def readItems (element : Reader α) (closing : Char) : ℕ → Reader (List α)
  | 0, _ => none
  | fuel + 1, text => do
      let (a, text) ← element text
      match skipSpace text with
      | c :: rest =>
          if c = closing then return ([a], rest)
          else if c = ',' then
            let (as, rest) ← readItems element closing fuel rest
            return (a :: as, rest)
          else none
      | [] => none

/-- What is behind the opening bracket. -/
def readSeq (element : Reader α) (closing : Char) (fuel : ℕ) : Reader (List α) := fun text =>
  match skipSpace text with
  | c :: rest => if c = closing then some ([], rest) else readItems element closing fuel text
  | [] => none

def readField (value : Reader Json) : Reader (String × Json) := fun text =>
  match skipSpace text with
  | c :: text =>
      if c = quote then do
        let (key, text) ← readChars text
        match skipSpace text with
        | c :: text =>
            if c = ':' then
              let (j, rest) ← value text
              return ((String.ofList key, j), rest)
            else none
        | [] => none
      else none
  | [] => none

/-- The rest of a word, and the value it stands for. -/
def readWord (word : List Char) (j : Json) : Reader Json := fun text =>
  if word.isPrefixOf text then some (j, text.drop word.length) else none

def readValue : ℕ → Reader Json
  | 0, _ => none
  | fuel + 1, text =>
      match skipSpace text with
      | c :: rest =>
          if c = quote then
            (readChars rest).map fun r => (.str (String.ofList r.1), r.2)
          else if c = '\x7b' then
            (readSeq (readField (readValue fuel)) '\x7d' fuel rest).map fun r =>
              (.obj (Dict.ofEntries r.1), r.2)
          else if c = '[' then
            (readSeq (readValue fuel) ']' fuel rest).map fun r => (.arr r.1, r.2)
          else if c = 'n' then readWord ['u', 'l', 'l'] .null rest
          else if c = 't' then readWord ['r', 'u', 'e'] (.bool true) rest
          else if c = 'f' then readWord ['a', 'l', 's', 'e'] (.bool false) rest
          else readNumber F.nearest (c :: rest)
      | [] => none

/-- `json.loads`: one value, and nothing behind it but white space. -/
def loads (text : List Char) : Option Json := do
  let (j, rest) ← readValue F text.length text
  if skipSpace rest = [] then some j else none

/-! ## What can be stored -/

mutual

/-- Floats survive their text, and no key comes twice. -/
def Storable : Json → Prop
  | .float q => F.nearest (F.shortest q).value = q
  | .arr items => StorableItems items
  | .obj fields => (Dict.keys fields).Nodup ∧ StorableFields fields
  | _ => True

def StorableItems : List Json → Prop
  | [] => True
  | j :: items => Storable j ∧ StorableItems items

def StorableFields : List (String × Json) → Prop
  | [] => True
  | (_, j) :: fields => Storable j ∧ StorableFields fields

end

mutual

def decideStorable : ∀ j, Decidable (Storable F j)
  | .null | .bool _ | .int _ | .str _ => .isTrue trivial
  | .float q => inferInstanceAs (Decidable (F.nearest (F.shortest q).value = q))
  | .arr items => decideStorableItems items
  | .obj fields =>
      have := decideStorableFields fields
      inferInstanceAs (Decidable ((Dict.keys fields).Nodup ∧ StorableFields F fields))

def decideStorableItems : ∀ items, Decidable (StorableItems F items)
  | [] => .isTrue trivial
  | j :: items =>
      have := decideStorable j
      have := decideStorableItems items
      inferInstanceAs (Decidable (Storable F j ∧ StorableItems F items))

def decideStorableFields : ∀ fields, Decidable (StorableFields F fields)
  | [] => .isTrue trivial
  | (_, j) :: fields =>
      have := decideStorable j
      have := decideStorableFields fields
      inferInstanceAs (Decidable (Storable F j ∧ StorableFields F fields))

end

instance : DecidablePred (Storable F) := decideStorable F

/-! ## Fuel -/

mutual

/-- The fuel that reading a value takes. -/
def weight : Json → ℕ
  | .arr items => 1 + weightItems items
  | .obj fields => 1 + weightFields fields
  | _ => 1

def weightItems : List Json → ℕ
  | [] => 0
  | j :: items => 1 + weight j + weightItems items

def weightFields : List (String × Json) → ℕ
  | [] => 0
  | (_, j) :: fields => 1 + weight j + weightFields fields

end

theorem length_bracketed (opening closing : Char) (depth : ℕ) (texts : List (List Char)) :
    1 + (texts.map fun text => 1 + text.length).sum ≤
      (bracketed opening closing depth texts).length := by
  cases texts with
  | nil =>
      simp [bracketed]
  | cons first more =>
      have hmore : (more.map fun text => 1 + text.length).sum ≤
          (more.flatMap fun text => ',' :: (newline (depth + 1) ++ text)).length := by
        rw [List.length_flatMap]
        apply List.sum_le_sum
        intro text _
        simp only [List.length_cons, List.length_append]
        omega
      simp only [bracketed, List.map_cons, List.sum_cons, List.length_cons, List.length_append]
      omega

theorem signed_ne_nil (z : ℤ) : signed z ≠ [] := by
  rw [signed_eq]
  exact List.append_ne_nil_of_right_ne_nil _ Nat.toDigits_ne_nil

theorem Decimal.text_ne_nil (d : Decimal) : d.text ≠ [] :=
  List.append_ne_nil_of_right_ne_nil _
    (List.append_ne_nil_of_left_ne_nil Nat.toDigits_ne_nil _)

mutual

/-- A text is as long as the fuel it takes. -/
theorem weight_le (depth : ℕ) : ∀ j, weight j ≤ (render F depth j).length
  | .null => Nat.le_add_left 1 3
  | .bool true => Nat.le_add_left 1 3
  | .bool false => Nat.le_add_left 1 4
  | .int z => List.length_pos_of_ne_nil (signed_ne_nil z)
  | .float q => List.length_pos_of_ne_nil (F.shortest q).text_ne_nil
  | .str s => by simp [weight, render, quoted]
  | .arr items => by
      have hitems := weightItems_le (depth + 1) items
      have hlength := length_bracketed '[' ']' depth (renderItems F (depth + 1) items)
      rw [weight, render]
      omega
  | .obj fields => by
      have hfields := weightFields_le (depth + 1) fields
      have hlength := length_bracketed '\x7b' '\x7d' depth (renderFields F (depth + 1) fields)
      rw [weight, render]
      omega

theorem weightItems_le (depth : ℕ) : ∀ items, weightItems items ≤
    ((renderItems F depth items).map fun text => 1 + text.length).sum
  | [] => le_rfl
  | j :: items => by
      have hfirst := weight_le depth j
      have hrest := weightItems_le depth items
      rw [weightItems, renderItems, List.map_cons, List.sum_cons]
      omega

theorem weightFields_le (depth : ℕ) : ∀ fields, weightFields fields ≤
    ((renderFields F depth fields).map fun text => 1 + text.length).sum
  | [] => le_rfl
  | (key, j) :: fields => by
      have hfirst := weight_le depth j
      have hrest := weightFields_le depth fields
      rw [weightFields, renderFields, List.map_cons, List.sum_cons, List.length_append,
        List.length_cons, List.length_cons]
      omega

end

/-! ## Reading what was written -/

theorem skipSpace_append {space : List Char} (hspace : ∀ c ∈ space, isSpace c = true)
    (text : List Char) : skipSpace (space ++ text) = skipSpace text :=
  List.dropWhile_append_of_pos hspace

theorem skipSpace_cons {c : Char} (hc : isSpace c = false) (text : List Char) :
    skipSpace (c :: text) = c :: text :=
  List.dropWhile_cons_of_neg (by simp [hc])

theorem isSpace_newline (depth : ℕ) : ∀ c ∈ newline depth, isSpace c = true := by
  intro c hc
  rcases List.mem_cons.mp hc with rfl | hc
  · rfl
  · rw [(List.mem_replicate.mp hc).2]
    rfl

/-- The reader skips white space. -/
def Skips (element : Reader α) : Prop :=
  ∀ space text, (∀ c ∈ space, isSpace c = true) → element (space ++ text) = element text

/-- The element is read back from its text, which begins with no white space and no
    closing bracket. -/
structure ReadsAs (element : Reader α) (closing : Char) (text : List Char) (a : α) : Prop where
  starts : ∃ c more, text = c :: more ∧ isSpace c = false ∧ c ≠ closing
  reads : ∀ rest, Ends rest → element (text ++ rest) = some (a, rest)

section
variable {element : Reader α} {closing : Char}

theorem ends_comma (rest : List Char) : Ends (',' :: rest) := .inr (.inl rfl)

theorem ends_newline (depth : ℕ) (rest : List Char) : Ends (newline depth ++ rest) :=
  .inr (.inr rfl)

theorem readItems_last {text rest after : List Char} {a : α} (fuel : ℕ)
    (h : element text = some (a, rest)) (hrest : skipSpace rest = closing :: after) :
    readItems element closing (fuel + 1) text = some ([a], after) := by
  rw [readItems, h, Option.bind_eq_bind, Option.bind_some]
  dsimp only
  rw [hrest]
  exact if_pos rfl

theorem readItems_next {text rest after final : List Char} {a : α} {as : List α} {fuel : ℕ}
    (hcomma : closing ≠ ',') (h : element text = some (a, rest))
    (hrest : skipSpace rest = ',' :: after)
    (hmore : readItems element closing fuel after = some (as, final)) :
    readItems element closing (fuel + 1) text = some (a :: as, final) := by
  rw [readItems, h, Option.bind_eq_bind, Option.bind_some]
  dsimp only
  rw [hrest]
  show (if ',' = closing then _ else if ',' = ',' then _ else _) = _
  rw [if_neg hcomma.symm, if_pos rfl, hmore]
  rfl

/-- Elements on lines of their own, and the bracket that closes them. -/
theorem readItems_texts (hskips : Skips element) (hclosing : isSpace closing = false)
    (hcomma : closing ≠ ',') (depth : ℕ) {first : List Char} {more : List (List Char)} {a : α}
    {as : List α} (hfirst : ReadsAs element closing first a)
    (hmore : List.Forall₂ (ReadsAs element closing) more as) {fuel : ℕ}
    (hfuel : as.length < fuel) (rest : List Char) :
    readItems element closing fuel (newline (depth + 1) ++ (first ++
      (more.flatMap (fun text => ',' :: (newline (depth + 1) ++ text)) ++
        (newline depth ++ closing :: rest)))) = some (a :: as, rest) := by
  induction hmore generalizing first a fuel with
  | nil =>
      obtain ⟨fuel, rfl⟩ : ∃ n, fuel = n + 1 := ⟨fuel - 1, by omega⟩
      have hread := hfirst.reads _ (ends_newline depth (closing :: rest))
      rw [← hskips _ _ (isSpace_newline (depth + 1))] at hread
      apply readItems_last fuel hread
      rw [skipSpace_append (isSpace_newline depth), skipSpace_cons hclosing]
  | @cons next b more bs hnext hmore ih =>
      rw [List.length_cons] at hfuel
      obtain ⟨fuel, rfl⟩ : ∃ n, fuel = n + 1 := ⟨fuel - 1, by omega⟩
      rw [List.flatMap_cons, List.cons_append, List.cons_append, List.append_assoc,
        List.append_assoc]
      apply readItems_next hcomma _ (skipSpace_cons rfl _)
        (ih hnext (Nat.lt_of_add_lt_add_right hfuel))
      rw [hskips _ _ (isSpace_newline _)]
      exact hfirst.reads _ (ends_comma _)

theorem readSeq_bracketed (hskips : Skips element) (hclosing : isSpace closing = false)
    (hcomma : closing ≠ ',') (opening : Char) (depth : ℕ) {texts : List (List Char)}
    {as : List α} (h : List.Forall₂ (ReadsAs element closing) texts as) {fuel : ℕ}
    (hfuel : as.length ≤ fuel) (rest : List Char) :
    ∃ inner, bracketed opening closing depth texts ++ rest = opening :: inner ∧
      readSeq element closing fuel inner = some (as, rest) := by
  cases h with
  | nil =>
      refine ⟨closing :: rest, rfl, ?_⟩
      rw [readSeq, skipSpace_cons hclosing]
      exact if_pos rfl
  | @cons first a more as hfirst hmore =>
      refine ⟨newline (depth + 1) ++ (first ++
        (more.flatMap (fun text => ',' :: (newline (depth + 1) ++ text)) ++
          (newline depth ++ closing :: rest))), by simp [bracketed], ?_⟩
      have hitems := readItems_texts hskips hclosing hcomma depth hfirst hmore hfuel rest
      obtain ⟨c, tail, rfl, hspace, hne⟩ := hfirst.starts
      rw [readSeq, skipSpace_append (isSpace_newline _), List.cons_append, skipSpace_cons hspace]
      exact (if_neg hne).trans hitems

end

/-! ### Values -/

theorem readValue_skips (fuel : ℕ) : Skips (readValue F fuel) := by
  intro space text hspace
  cases fuel with
  | zero => rfl
  | succ fuel => rw [readValue, readValue, skipSpace_append hspace]

theorem readField_skips (value : Reader Json) : Skips (readField value) := by
  intro space text hspace
  rw [readField, readField, skipSpace_append hspace]

/-- A field, with a value that is read back. -/
theorem readField_text {value : Reader Json} (hskips : Skips value) (key : String)
    {text rest : List Char} {j : Json} (h : value (text ++ rest) = some (j, rest)) :
    readField value (quoted key ++ (':' :: ' ' :: text) ++ rest) = some ((key, j), rest) := by
  have hvalue : value (' ' :: (text ++ rest)) = some (j, rest) :=
    (hskips [' '] _ (by simp [isSpace])).trans h
  have hshape : quoted key ++ (':' :: ' ' :: text) ++ rest =
      quote :: (key.toList.flatMap escape ++ quote :: (':' :: ' ' :: (text ++ rest))) := by
    simp [quoted]
  rw [hshape, readField, skipSpace_cons rfl]
  show (readChars _ >>= _) = _
  rw [readChars_escaped, Option.bind_eq_bind, Option.bind_some]
  dsimp only
  rw [skipSpace_cons rfl]
  show (value (' ' :: (text ++ rest)) >>= _) = _
  rw [hvalue, String.ofList_toList]
  rfl

theorem readValue_number {c : Char} {more rest : List Char} {j : Json} (fuel : ℕ)
    (hc : c.isDigit = true ∨ c = '-')
    (h : readNumber F.nearest (c :: more) = some (j, rest)) :
    readValue F (fuel + 1) (c :: more) = some (j, rest) := by
  have hne : ∀ d : Char, d.isDigit = false → d ≠ '-' → c ≠ d := by
    rintro d hdigit hminus rfl
    rcases hc with hc | hc
    · rw [hdigit] at hc
      cases hc
    · exact hminus hc
  have hspace : isSpace c = false := by
    have h1 := hne ' ' rfl (by decide)
    have h2 := hne '\t' rfl (by decide)
    have h3 := hne '\n' rfl (by decide)
    have h4 := hne '\r' rfl (by decide)
    simp [isSpace, h1, h2, h3, h4]
  rw [readValue, skipSpace_cons hspace]
  dsimp only
  rw [if_neg (hne quote rfl (by decide)), if_neg (hne '\x7b' rfl (by decide)),
    if_neg (hne '[' rfl (by decide)), if_neg (hne 'n' rfl (by decide)),
    if_neg (hne 't' rfl (by decide)), if_neg (hne 'f' rfl (by decide)), h]

theorem head_number (negative : Bool) (whole : ℕ) (tail : List Char) :
    ∃ c more, signText negative ++ (Nat.toDigits 10 whole ++ tail) = c :: more ∧
      (c.isDigit = true ∨ c = '-') := by
  cases negative with
  | true => exact ⟨'-', _, rfl, .inr rfl⟩
  | false =>
      cases hdigits : Nat.toDigits 10 whole with
      | nil => exact absurd hdigits Nat.toDigits_ne_nil
      | cons c more =>
          refine ⟨c, more ++ tail, rfl, .inl ?_⟩
          apply allDigits_toDigits whole
          rw [hdigits]
          exact List.mem_cons_self

theorem head_signed (z : ℤ) :
    ∃ c more, signed z = c :: more ∧ (c.isDigit = true ∨ c = '-') := by
  have h := head_number (z < 0) z.natAbs []
  rwa [List.append_nil, ← signed_eq] at h

theorem Decimal.head_text (d : Decimal) :
    ∃ c more, d.text = c :: more ∧ (c.isDigit = true ∨ c = '-') :=
  head_number d.negative d.whole _

theorem starts_number {c : Char} (hc : c.isDigit = true ∨ c = '-') :
    isSpace c = false ∧ c ≠ ']' := by
  rcases hc with hc | rfl
  · constructor
    · by_contra hspace
      simp only [isSpace, Bool.not_eq_false, Bool.or_eq_true, decide_eq_true_eq] at hspace
      rcases hspace with ((rfl | rfl) | rfl) | rfl
      all_goals cases hc
    · rintro rfl
      cases hc
  · decide

theorem starts_bracketed {opening : Char} (closing : Char) (hspace : isSpace opening = false)
    (hne : opening ≠ ']') (depth : ℕ) (texts : List (List Char)) :
    ∃ c more, bracketed opening closing depth texts = c :: more ∧ isSpace c = false ∧ c ≠ ']' := by
  cases texts with
  | nil => exact ⟨opening, _, rfl, hspace, hne⟩
  | cons first more => exact ⟨opening, _, rfl, hspace, hne⟩

theorem starts_render (depth : ℕ) (j : Json) :
    ∃ c more, render F depth j = c :: more ∧ isSpace c = false ∧ c ≠ ']' := by
  match j with
  | .null => exact ⟨'n', _, rfl, rfl, by decide⟩
  | .bool true => exact ⟨'t', _, rfl, rfl, by decide⟩
  | .bool false => exact ⟨'f', _, rfl, rfl, by decide⟩
  | .int z =>
      obtain ⟨c, more, htext, hc⟩ := head_signed z
      exact ⟨c, more, htext, starts_number hc⟩
  | .float q =>
      obtain ⟨c, more, htext, hc⟩ := (F.shortest q).head_text
      exact ⟨c, more, htext, starts_number hc⟩
  | .str s => exact ⟨quote, _, rfl, rfl, by decide⟩
  | .arr items => exact starts_bracketed ']' rfl (by decide) depth _
  | .obj fields => exact starts_bracketed '\x7d' rfl (by decide) depth _

theorem weight_pos (j : Json) : 0 < weight j := by
  cases j
  all_goals
    unfold weight
    omega

theorem length_le_weightItems : ∀ items, items.length ≤ weightItems items
  | [] => le_rfl
  | j :: items => by
      have hrest := length_le_weightItems items
      rw [List.length_cons, weightItems]
      omega

theorem length_le_weightFields : ∀ fields, fields.length ≤ weightFields fields
  | [] => le_rfl
  | (key, j) :: fields => by
      have hrest := length_le_weightFields fields
      rw [List.length_cons, weightFields]
      omega

mutual

/-- A value is read back from its text. -/
theorem readValue_render (depth fuel : ℕ) {rest : List Char} (hrest : Ends rest) :
    ∀ j, Storable F j → weight j ≤ fuel →
      readValue F fuel (render F depth j ++ rest) = some (j, rest) := by
  intro j hstorable hfuel
  have hpos := weight_pos j
  obtain ⟨fuel, rfl⟩ : ∃ n, fuel = n + 1 := ⟨fuel - 1, by omega⟩
  match j with
  | .null => rfl
  | .bool true => rfl
  | .bool false => rfl
  | .int z =>
      obtain ⟨c, more, htext, hc⟩ := head_signed z
      have hread := readNumber_signed F.nearest z hrest
      rw [render, htext]
      rw [htext] at hread
      exact readValue_number F fuel hc hread
  | .float q =>
      obtain ⟨c, more, htext, hc⟩ := (F.shortest q).head_text
      have hread := readNumber_text F.nearest (F.shortest q) hrest
      have hq : F.nearest (F.shortest q).value = q := hstorable
      rw [htext, hq] at hread
      rw [render, htext]
      exact readValue_number F fuel hc hread
  | .str s =>
      have hshape : quoted s ++ rest = quote :: (s.toList.flatMap escape ++ quote :: rest) := by
        simp [quoted]
      rw [render, hshape, readValue, skipSpace_cons rfl]
      show ((readChars _).map fun r => (Json.str (String.ofList r.1), r.2)) = _
      rw [readChars_escaped, Option.map_some, String.ofList_toList]
  | .arr items =>
      rw [weight, Nat.add_comm, Nat.add_le_add_iff_right] at hfuel
      have hitems := readItems_render (depth + 1) fuel items hstorable hfuel
      obtain ⟨inner, hshape, hread⟩ := readSeq_bracketed (readValue_skips F fuel) rfl (by decide)
        '[' depth hitems (le_trans (length_le_weightItems items) hfuel) rest
      rw [render, hshape, readValue, skipSpace_cons rfl]
      show ((readSeq (readValue F fuel) ']' fuel inner).map fun r => (Json.arr r.1, r.2)) = _
      rw [hread, Option.map_some]
  | .obj fields =>
      rw [weight, Nat.add_comm, Nat.add_le_add_iff_right] at hfuel
      obtain ⟨hnodup, hstorable⟩ := hstorable
      have hfields := readFields_render (depth + 1) fuel fields hstorable hfuel
      obtain ⟨inner, hshape, hread⟩ := readSeq_bracketed (readField_skips (readValue F fuel)) rfl
        (by decide) '\x7b' depth hfields (le_trans (length_le_weightFields fields) hfuel) rest
      rw [render, hshape, readValue, skipSpace_cons rfl]
      show ((readSeq (readField (readValue F fuel)) '\x7d' fuel inner).map fun r =>
        (Json.obj (Dict.ofEntries r.1), r.2)) = _
      rw [hread, Option.map_some, Dict.ofEntries_of_nodup hnodup]

theorem readItems_render (depth fuel : ℕ) : ∀ items, StorableItems F items →
    weightItems items ≤ fuel →
      List.Forall₂ (ReadsAs (readValue F fuel) ']') (renderItems F depth items) items
  | [], _, _ => .nil
  | j :: items, hstorable, hfuel => by
      rw [weightItems] at hfuel
      obtain ⟨hj, hitems⟩ := hstorable
      refine .cons ⟨starts_render F depth j, fun rest hrest => ?_⟩ ?_
      · exact readValue_render depth fuel hrest j hj (by omega)
      · exact readItems_render depth fuel items hitems (by omega)

theorem readFields_render (depth fuel : ℕ) : ∀ fields, StorableFields F fields →
    weightFields fields ≤ fuel →
      List.Forall₂ (ReadsAs (readField (readValue F fuel)) '\x7d') (renderFields F depth fields)
        fields
  | [], _, _ => .nil
  | (key, j) :: fields, hstorable, hfuel => by
      rw [weightFields] at hfuel
      obtain ⟨hj, hfields⟩ := hstorable
      refine .cons ⟨⟨quote, _, rfl, rfl, by decide⟩, fun rest hrest => ?_⟩ ?_
      · apply readField_text (readValue_skips F fuel)
        exact readValue_render depth fuel hrest j hj (by omega)
      · exact readFields_render depth fuel fields hfields (by omega)

end

/-- What is stored is read back. -/
theorem loads_dumps {j : Json} (h : Storable F j) : loads F (dumps F j) = some j := by
  have hends : Ends [] := .inl rfl
  have hread := readValue_render F 0 (dumps F j).length hends j h (weight_le F 0 j)
  rw [List.append_nil] at hread
  show (readValue F (dumps F j).length (render F 0 j) >>= _) = _
  rw [hread]
  rfl

end JsonText
