/-
  Python's whitespace and the string methods that depend on it.

  `lstrip` and `rstrip` drop whitespace from one end, `strip` from both. What a text holds
  from a character on that is no whitespace stays (`lstripped_append_cons`), so a text with
  such a character is not blank (`strip_eq_empty_iff`).
-/
import Mathlib.Data.List.DropRight
import Mathlib.Data.List.Infix

namespace PyText

/-- `str.isspace` of a single character. -/
def isSpace (c : Char) : Bool :=
  let n := c.toNat
  (9 ≤ n && n ≤ 13) || (28 ≤ n && n ≤ 32) || n == 0x85 || n == 0xA0 || n == 0x1680 ||
    (0x2000 ≤ n && n ≤ 0x200A) || n == 0x2028 || n == 0x2029 || n == 0x202F || n == 0x205F ||
    n == 0x3000

/-- `lstrip`, on characters. -/
def lstripped (cs : List Char) : List Char := cs.dropWhile isSpace

/-- `rstrip`, on characters. -/
def rstripped (cs : List Char) : List Char := cs.rdropWhile isSpace

def rstrip (s : String) : String := String.ofList (rstripped s.toList)

def strip (s : String) : String := String.ofList (rstripped (lstripped s.toList))

/-- `s.split()` -/
def words (s : String) : List String :=
  ((s.toList.splitOnP isSpace).filter (· ≠ [])).map String.ofList

/-- `s.lower()`, on ASCII letters. -/
def lower (s : String) : String := String.ofList (s.toList.map Char.toLower)

/-- `needle in s`. -/
def isIn (needle s : String) : Bool := decide (needle.toList <:+: s.toList)

@[simp] theorem toList_rstrip (s : String) : (rstrip s).toList = rstripped s.toList :=
  String.toList_ofList

@[simp] theorem toList_strip (s : String) :
    (strip s).toList = rstripped (lstripped s.toList) :=
  String.toList_ofList

/-! ## What stripping keeps -/

/-- Everything from a character on that is no whitespace stays on the right of it. -/
theorem lstripped_append_cons {x : Char} (hx : isSpace x = false) (pre post : List Char) :
    ∃ kept, lstripped (pre ++ x :: post) = kept ++ x :: post := by
  induction pre with
  | nil => exact ⟨[], by rw [List.nil_append, lstripped, List.dropWhile_cons, hx]; rfl⟩
  | cons y pre ih =>
      obtain ⟨kept, hkept⟩ := ih
      by_cases hy : isSpace y = true
      · exact ⟨kept, by rw [← hkept, lstripped, List.cons_append, List.dropWhile_cons, if_pos hy,
          lstripped]⟩
      · exact ⟨y :: pre, by rw [lstripped, List.cons_append, List.dropWhile_cons, if_neg hy]⟩

theorem rstripped_append_cons {x : Char} (hx : isSpace x = false) (pre post : List Char) :
    ∃ kept, rstripped (pre ++ x :: post) = pre ++ x :: kept := by
  obtain ⟨kept, hkept⟩ := lstripped_append_cons hx post.reverse pre.reverse
  refine ⟨kept.reverse, ?_⟩
  rw [rstripped, List.rdropWhile, List.reverse_append, List.reverse_cons, List.append_assoc]
  rw [lstripped] at hkept
  simp [hkept]

theorem rstripped_concat {x : Char} (hx : isSpace x = false) (pre : List Char) :
    rstripped (pre ++ [x]) = pre ++ [x] :=
  List.rdropWhile_concat_neg _ _ _ (by rw [hx]; exact Bool.false_ne_true)

/-! ## Blank texts -/

/-- There is nothing but whitespace. -/
def isBlank (s : String) : Bool := s.toList.all isSpace

/-- A text that begins with a character that is no whitespace. -/
theorem isBlank_ofList_cons {x : Char} (hx : isSpace x = false) (cs : List Char) :
    isBlank (String.ofList (x :: cs)) = false := by
  rw [isBlank, String.toList_ofList, List.all_cons, hx]
  rfl

theorem isBlank_append_eq_false (s t : String) :
    isBlank (s ++ t) = false ↔ isBlank s = false ∨ isBlank t = false := by
  rw [isBlank, String.toList_append, List.all_append, Bool.and_eq_false_iff]
  rfl

theorem strip_eq_empty_iff (s : String) : strip s = "" ↔ isBlank s = true := by
  constructor
  · intro hempty
    by_contra hblank
    obtain ⟨x, hmem, hx⟩ : ∃ x ∈ s.toList, isSpace x = false := by
      simpa [isBlank] using hblank
    obtain ⟨pre, post, hs⟩ := List.append_of_mem hmem
    obtain ⟨kept, hkept⟩ := lstripped_append_cons hx pre post
    obtain ⟨kept', hkept'⟩ := rstripped_append_cons hx kept post
    have hlist := congrArg String.toList hempty
    rw [toList_strip, hs, hkept, hkept'] at hlist
    simp at hlist
  · intro hblank
    have hall : ∀ x ∈ s.toList, isSpace x = true := List.all_eq_true.mp hblank
    have hnil : lstripped s.toList = [] := List.dropWhile_eq_nil_iff.mpr hall
    rw [strip, hnil]
    rfl

theorem strip_ne_empty {s : String} (h : isBlank s = false) : strip s ≠ "" := by
  intro hempty
  rw [(strip_eq_empty_iff s).mp hempty] at h
  cases h

/-! ## Parts of a text -/

/-- A text that ends in a character that is no whitespace stays whole behind a separator with
    such a character, when the ends are stripped. -/
theorem isIn_strip_append {s between needle : String} {x y : Char} (hmem : x ∈ between.toList)
    (hx : isSpace x = false) (hlast : needle.toList.getLast? = some y) (hy : isSpace y = false) :
    isIn needle (strip (s ++ between ++ needle)) = true := by
  obtain ⟨pre, post, hbetween⟩ := List.append_of_mem hmem
  obtain ⟨init, hneedle⟩ := List.getLast?_eq_some_iff.mp hlast
  obtain ⟨kept, hkept⟩ :=
    lstripped_append_cons hx (s.toList ++ pre) (post ++ (init ++ [y]))
  have hstripped : (strip (s ++ between ++ needle)).toList =
      kept ++ x :: (post ++ needle.toList) := by
    rw [toList_strip, String.toList_append, String.toList_append, hbetween, hneedle]
    have hsplit : s.toList ++ (pre ++ x :: post) ++ (init ++ [y]) =
        s.toList ++ pre ++ x :: (post ++ (init ++ [y])) := by simp
    have hend : kept ++ x :: (post ++ (init ++ [y])) = (kept ++ x :: (post ++ init)) ++ [y] := by
      simp
    rw [hsplit, hkept, hend, rstripped_concat hy]
  apply decide_eq_true
  rw [hstripped]
  exact ⟨kept ++ x :: post, [], by simp⟩

/-- `s.split(sep)`, at a single character. -/
def split (sep : Char) (s : String) : List String := (s.toList.splitOn sep).map String.ofList

/-- `sep.join(parts)`. -/
def join (sep : Char) (parts : List String) : String := (String.singleton sep).intercalate parts

theorem not_mem_of_mem_splitOn {sep : Char} {cs part : List Char} (h : part ∈ cs.splitOn sep) :
    sep ∉ part := by
  induction cs generalizing part with
  | nil =>
      rw [List.splitOn_nil, List.mem_singleton] at h
      rw [h]
      exact List.not_mem_nil
  | cons c cs ih =>
      rw [List.splitOn_cons_eq_if_modifyHead] at h
      by_cases hc : (c == sep) = true
      · rw [if_pos hc] at h
        rcases List.mem_cons.mp h with rfl | h
        · exact List.not_mem_nil
        · exact ih h
      · rw [if_neg hc] at h
        cases hparts : cs.splitOn sep with
        | nil => exact absurd hparts (List.splitOn_ne_nil sep cs)
        | cons first rest =>
            rw [hparts, List.modifyHead_cons] at h
            rcases List.mem_cons.mp h with rfl | h
            · have hfirst : sep ∉ first := ih (hparts ▸ List.mem_cons_self)
              have hne : sep ≠ c := fun heq => hc (beq_iff_eq.mpr heq.symm)
              exact List.not_mem_cons_of_ne_of_not_mem hne hfirst
            · exact ih (hparts ▸ List.mem_cons_of_mem first h)

theorem not_mem_of_mem_split {sep : Char} {s part : String} (h : part ∈ split sep s) :
    sep ∉ part.toList := by
  obtain ⟨cs, hcs, rfl⟩ := List.mem_map.mp h
  rw [String.toList_ofList]
  exact not_mem_of_mem_splitOn hcs

/-- What was joined comes apart again. -/
theorem split_join {sep : Char} {parts : List String} (hne : parts ≠ [])
    (h : ∀ part ∈ parts, sep ∉ part.toList) : split sep (join sep parts) = parts := by
  have hlists : ∀ cs ∈ parts.map String.toList, sep ∉ cs := by
    intro cs hcs
    obtain ⟨part, hpart, rfl⟩ := List.mem_map.mp hcs
    exact h part hpart
  have hsplit := List.splitOn_intercalate sep hlists (by simpa using hne)
  rw [split, join, String.toList_intercalate, String.toList_singleton, hsplit, List.map_map]
  have hid : String.ofList ∘ String.toList = id := funext fun part => String.ofList_toList
  rw [hid, List.map_id]

end PyText
