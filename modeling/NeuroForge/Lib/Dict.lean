/-
  Dictionaries as lists of key-value pairs in insertion order.

  A key that occurs twice is read at its first occurrence. `set` replaces the value of a
  key in place and appends a new key, so that a dictionary built by `set` has each key
  once, in the order the keys came in.
-/
import Mathlib.Data.List.Basic
import Mathlib.Data.List.Induction

/-- An insertion-ordered dictionary. -/
abbrev Dict (κ ν : Type*) := List (κ × ν)

namespace Dict

variable {κ ν : Type*} [DecidableEq κ]

/-- The value of key `k`. -/
def get? (d : Dict κ ν) (k : κ) : Option ν := (d.find? fun e => e.1 = k).map Prod.snd

def getD (d : Dict κ ν) (k : κ) (default : ν) : ν := (get? d k).getD default

def keys (d : Dict κ ν) : List κ := d.map Prod.fst

def set (d : Dict κ ν) (k : κ) (v : ν) : Dict κ ν :=
  if k ∈ keys d then d.map fun e => if e.1 = k then (k, v) else e else d ++ [(k, v)]

@[simp] theorem get?_nil (k : κ) : get? ([] : Dict κ ν) k = none := rfl

theorem get?_cons (e : κ × ν) (d : Dict κ ν) (k : κ) :
    get? (e :: d) k = if e.1 = k then some e.2 else get? d k := by
  unfold get?
  by_cases h : e.1 = k <;> simp [h]

theorem get?_append (d d' : Dict κ ν) (k : κ) :
    get? (d ++ d') k = (get? d k).or (get? d' k) := by
  unfold get?
  rw [List.find?_append]
  cases d.find? fun e => e.1 = k <;> rfl

theorem get?_eq_none {d : Dict κ ν} {k : κ} : get? d k = none ↔ k ∉ keys d := by
  induction d with
  | nil => simp [keys]
  | cons e d ih =>
      rw [get?_cons]
      by_cases h : e.1 = k
      · simp [h, keys]
      · simpa [h, keys, Ne.symm h] using ih

theorem mem_of_get? {d : Dict κ ν} {k : κ} {v : ν} (h : get? d k = some v) : (k, v) ∈ d := by
  induction d with
  | nil => cases h
  | cons e d ih =>
      rw [get?_cons] at h
      split_ifs at h with hk
      · rw [← hk, ← Option.some.inj h]
        exact List.mem_cons_self
      · exact List.mem_cons_of_mem e (ih h)

/-- Where each key occurs once, every entry is the one that is read. -/
theorem get?_of_mem {d : Dict κ ν} (hnodup : (keys d).Nodup) {e : κ × ν} (he : e ∈ d) :
    get? d e.1 = some e.2 := by
  induction d with
  | nil => cases he
  | cons e' d ih =>
      have hcons : e'.1 ∉ keys d ∧ (keys d).Nodup := List.nodup_cons.mp hnodup
      rw [get?_cons]
      rcases List.mem_cons.mp he with rfl | hmem
      · exact if_pos rfl
      · have hkey : e.1 ∈ keys d := List.mem_map_of_mem hmem
        have hne : e'.1 ≠ e.1 := fun h => hcons.1 (by rwa [h])
        rw [if_neg hne]
        exact ih hcons.2 hmem

theorem get?_replace (d : Dict κ ν) (k k' : κ) (v : ν) :
    get? (d.map fun e => if e.1 = k then (k, v) else e) k' =
      if k' = k then (get? d k).map fun _ => v else get? d k' := by
  induction d with
  | nil => simp
  | cons e d ih =>
      rw [List.map_cons, get?_cons, get?_cons, get?_cons, ih]
      by_cases he : e.1 = k
      · by_cases hk : k' = k
        · simp [he, hk]
        · simp [he, hk, Ne.symm hk]
      · by_cases hk : k' = k
        · simp [he, hk]
        · simp [he, hk]

@[simp] theorem get?_set_self (d : Dict κ ν) (k : κ) (v : ν) :
    get? (set d k v) k = some v := by
  unfold set
  split_ifs with h
  · rw [get?_replace, if_pos rfl]
    cases hg : get? d k with
    | none => exact absurd h (get?_eq_none.mp hg)
    | some w => rfl
  · rw [get?_append, get?_eq_none.mpr h, get?_cons, if_pos rfl]
    rfl

theorem get?_set_of_ne (d : Dict κ ν) {k k' : κ} (v : ν) (h : k' ≠ k) :
    get? (set d k v) k' = get? d k' := by
  unfold set
  split_ifs with hk
  · rw [get?_replace, if_neg h]
  · rw [get?_append, get?_cons, if_neg (Ne.symm h)]
    simp

/-- A dictionary that tabulates a function reads it back on the keys it has. -/
theorem get?_tabulate (f : κ → ν) (ks : List κ) (k : κ) :
    get? (ks.map fun k => (k, f k)) k = if k ∈ ks then some (f k) else none := by
  induction ks with
  | nil => rfl
  | cons k' ks ih =>
      rw [List.map_cons, get?_cons, ih]
      by_cases h : k' = k
      · simp [h]
      · simp [h, Ne.symm h]

omit [DecidableEq κ] in
theorem keys_tabulate (f : κ → ν) (ks : List κ) : keys (ks.map fun k => (k, f k)) = ks := by
  unfold keys
  rw [List.map_map]
  exact List.map_id ks

/-- Setting one of its keys changes the tabulated function there. -/
theorem set_tabulate (f : κ → ν) (ks : List κ) {k : κ} (v : ν) (hk : k ∈ ks) :
    set (ks.map fun k => (k, f k)) k v = ks.map fun k' => (k', if k' = k then v else f k') := by
  unfold set
  rw [keys_tabulate, if_pos hk, List.map_map]
  refine List.map_congr_left ?_
  intro k' _
  change (if k' = k then (k, v) else (k', f k')) = _
  split_ifs with h
  · rw [h]
  · rfl

theorem get?_filter_key (p : κ → Bool) (d : Dict κ ν) {k : κ} (h : p k = true) :
    get? (d.filter fun e => p e.1) k = get? d k := by
  induction d with
  | nil => rfl
  | cons e d ih =>
      by_cases he : e.1 = k
      · rw [List.filter_cons_of_pos (by simp [he, h]), get?_cons, get?_cons, if_pos he,
          if_pos he]
      · rw [get?_cons, if_neg he, ← ih]
        cases hp : p e.1 with
        | true => rw [List.filter_cons_of_pos (by simpa using hp), get?_cons, if_neg he]
        | false => rw [List.filter_cons_of_neg (by simp [hp])]

/-- The dictionary of a list of entries; of two entries with one key the later one stays. -/
def ofEntries (entries : List (κ × ν)) : Dict κ ν :=
  entries.foldl (fun d e => set d e.1 e.2) []

theorem get?_ofEntries_concat (entries : List (κ × ν)) (e : κ × ν) (k : κ) :
    get? (ofEntries (entries ++ [e])) k =
      if k = e.1 then some e.2 else get? (ofEntries entries) k := by
  unfold ofEntries
  rw [List.foldl_append, List.foldl_cons, List.foldl_nil]
  split_ifs with h
  · rw [h, get?_set_self]
  · exact get?_set_of_ne _ _ h

/-- What is read of `ofEntries` is the last entry with that key. -/
theorem get?_ofEntries_eq_some {entries : List (κ × ν)} {k : κ} {v : ν}
    (h : get? (ofEntries entries) k = some v) :
    ∃ before after, entries = before ++ (k, v) :: after ∧ k ∉ keys after := by
  induction entries using List.reverseRecOn with
  | nil => cases h
  | append_singleton entries e ih =>
      rw [get?_ofEntries_concat] at h
      split_ifs at h with hk
      · obtain rfl := Option.some.inj h
        exact ⟨entries, [], by rw [hk], by simp [keys]⟩
      · obtain ⟨before, after, rfl, hafter⟩ := ih h
        refine ⟨before, after ++ [e], by simp, ?_⟩
        unfold keys at hafter ⊢
        rw [List.map_append, List.mem_append]
        rintro (hmem | hmem)
        · exact hafter hmem
        · exact hk (List.mem_singleton.mp hmem)

/-- The last entry with a key is what is read under it. -/
theorem get?_ofEntries_last {before after : List (κ × ν)} {k : κ} {v : ν}
    (h : k ∉ keys after) : get? (ofEntries (before ++ (k, v) :: after)) k = some v := by
  induction after using List.reverseRecOn with
  | nil => rw [get?_ofEntries_concat, if_pos rfl]
  | append_singleton after e ih =>
      have hsplit : k ∉ keys after ∧ k ≠ e.1 := by
        simpa [keys] using h
      rw [← List.cons_append, ← List.append_assoc, get?_ofEntries_concat, if_neg hsplit.2]
      exact ih hsplit.1

/-- Entries with distinct keys are their own dictionary. -/
theorem ofEntries_of_nodup {entries : List (κ × ν)} (h : (keys entries).Nodup) :
    ofEntries entries = entries := by
  induction entries using List.reverseRecOn with
  | nil => rfl
  | append_singleton entries e ih =>
      have hsplit : (keys entries ++ [e.1]).Nodup := by
        simpa [keys] using h
      obtain ⟨hentries, -, hnew⟩ := List.nodup_append.mp hsplit
      have hnot : e.1 ∉ keys entries := fun hmem => hnew e.1 hmem e.1 (by simp) rfl
      unfold ofEntries at ih ⊢
      rw [List.foldl_append, ih hentries, List.foldl_cons, List.foldl_nil, set, if_neg hnot]

/-! ## Keys that occur once -/

theorem keys_set (d : Dict κ ν) (k : κ) (v : ν) :
    keys (set d k v) = if k ∈ keys d then keys d else keys d ++ [k] := by
  unfold set
  split_ifs with h
  · unfold keys
    rw [List.map_map]
    refine List.map_congr_left fun e _ => ?_
    change (if e.1 = k then (k, v) else e).1 = e.1
    split_ifs with he
    · exact he.symm
    · rfl
  · exact List.map_append

theorem nodup_keys_set {d : Dict κ ν} (h : (keys d).Nodup) (k : κ) (v : ν) :
    (keys (set d k v)).Nodup := by
  rw [keys_set]
  split_ifs with hk
  · exact h
  · refine List.nodup_append.mpr ⟨h, List.pairwise_singleton _ k, ?_⟩
    rintro a ha b hb rfl
    rw [List.mem_singleton.mp hb] at ha
    exact hk ha

theorem nodup_keys_ofEntries (entries : List (κ × ν)) : (keys (ofEntries entries)).Nodup := by
  induction entries using List.reverseRecOn with
  | nil => exact List.nodup_nil
  | append_singleton entries e ih =>
      unfold ofEntries at ih ⊢
      rw [List.foldl_append]
      exact nodup_keys_set ih e.1 e.2

theorem mem_set {d : Dict κ ν} {k : κ} {v : ν} {e : κ × ν} (h : e ∈ set d k v) :
    e = (k, v) ∨ e ∈ d := by
  unfold set at h
  split_ifs at h
  · obtain ⟨e', he', rfl⟩ := List.mem_map.mp h
    split_ifs
    · exact .inl rfl
    · exact .inr he'
  · rcases List.mem_append.mp h with hd | hnew
    · exact .inr hd
    · exact .inl (List.mem_singleton.mp hnew)

/-- Where each key occurs once, leaving entries out is leaving their keys out. -/
theorem get?_filter {d : Dict κ ν} (hnodup : (keys d).Nodup) (p : κ × ν → Bool) (k : κ) :
    get? (d.filter p) k = (get? d k).filter fun v => p (k, v) := by
  induction d with
  | nil => rfl
  | cons e d ih =>
      have hcons : e.1 ∉ keys d ∧ (keys d).Nodup := List.nodup_cons.mp hnodup
      have hrest := ih hcons.2
      rw [get?_cons]
      by_cases hk : e.1 = k
      · subst hk
        rw [get?_eq_none.mpr hcons.1] at hrest
        rw [if_pos rfl]
        cases hp : p e with
        | true =>
            rw [List.filter_cons_of_pos hp, get?_cons, if_pos rfl]
            have hkept : p (e.1, e.2) = true := hp
            rw [Option.filter_some, if_pos hkept]
        | false =>
            have hleft : ¬ p (e.1, e.2) = true := by simp [hp]
            rw [List.filter_cons_of_neg (by simp [hp]), hrest, Option.filter_some, if_neg hleft]
            rfl
      · rw [if_neg hk, ← hrest]
        cases hp : p e with
        | true => rw [List.filter_cons_of_pos hp, get?_cons, if_neg hk]
        | false => rw [List.filter_cons_of_neg (by simp [hp])]

end Dict
