/-
  A stack kept as a log of events and replayed.

  `push x` puts `x` on top, `remove x` takes it out; either way an earlier occurrence of
  `x` is dropped first, so the replayed stack never holds an element twice
  (`replay_nodup`). The last element of the list is the top.

  `foldl_apply` is the main fact: replaying `es` on a stack `s` keeps the members of `s`
  that `es` does not mention, in order, under the stack that `es` alone builds. Hence
  what lies under an element that is on top now is what was in the stack when it was
  last pushed, less the elements mentioned since (`replay_under_top`), and each of those
  was removed since (`removed_of_mentioned`). Removing the top uncovers just these
  (`replay_uncover`).
-/
import Mathlib.Data.List.Induction
import Mathlib.Data.List.Nodup
import Mathlib.Tactic.Tauto

namespace StackReplay

variable {α : Type*} [DecidableEq α]

inductive Event (α : Type*) where
  | push (x : α)
  | remove (x : α)
  deriving DecidableEq, Repr

/-- The element an event is about. -/
def Event.subject : Event α → α
  | .push x => x
  | .remove x => x

def apply (s : List α) : Event α → List α
  | .push x => s.filter (· ≠ x) ++ [x]
  | .remove x => s.filter (· ≠ x)

/-- The stack the log `es` describes, oldest first. -/
def replay (es : List (Event α)) : List α := es.foldl apply []

@[simp] theorem replay_nil : replay ([] : List (Event α)) = [] := rfl

theorem replay_concat (es : List (Event α)) (e : Event α) :
    replay (es ++ [e]) = apply (replay es) e := by
  simp [replay]

theorem apply_nodup {s : List α} (h : s.Nodup) (e : Event α) : (apply s e).Nodup := by
  cases e with
  | push x =>
      refine List.nodup_append.mpr ⟨h.filter _, List.nodup_singleton x, ?_⟩
      intro a ha b hb
      rw [List.mem_singleton.mp hb]
      simpa using (List.mem_filter.mp ha).2
  | remove x => exact h.filter _

theorem replay_nodup (es : List (Event α)) : (replay es).Nodup := by
  induction es using List.reverseRecOn with
  | nil => exact List.nodup_nil
  | append_singleton es e ih =>
      rw [replay_concat]
      exact apply_nodup ih e

/-- An event on another element changes nothing about `x`. -/
theorem mem_apply_of_ne {s : List α} {e : Event α} {x : α} (h : x ≠ e.subject) :
    x ∈ apply s e ↔ x ∈ s := by
  cases e with
  | push y => simp [apply, Event.subject] at h ⊢; tauto
  | remove y => simp [apply, Event.subject] at h ⊢; tauto

/-- Only a push brings an element in. -/
theorem push_of_mem_replay {es : List (Event α)} {x : α} (h : x ∈ replay es) :
    Event.push x ∈ es := by
  induction es using List.reverseRecOn with
  | nil => simp at h
  | append_singleton es e ih =>
      rw [replay_concat] at h
      by_cases hx : x = e.subject
      · cases e with
        | push y => simp [show x = y from hx]
        | remove y => simp [apply, show x = y from hx] at h
      · rw [mem_apply_of_ne hx] at h
        exact List.mem_append_left _ (ih h)

/-- The last event on a member of the stack pushed it. -/
theorem exists_last_push {es : List (Event α)} {x : α} (h : x ∈ replay es) :
    ∃ pre post, es = pre ++ .push x :: post ∧ x ∉ post.map Event.subject := by
  induction es using List.reverseRecOn with
  | nil => cases h
  | append_singleton es e ih =>
      rw [replay_concat] at h
      by_cases hx : x = e.subject
      · cases e with
        | push y =>
            obtain rfl : x = y := hx
            exact ⟨es, [], rfl, List.not_mem_nil⟩
        | remove y =>
            obtain rfl : x = y := hx
            simp [apply] at h
      · rw [mem_apply_of_ne hx] at h
        obtain ⟨pre, post, rfl, hpost⟩ := ih h
        refine ⟨pre, post ++ [e], by simp, ?_⟩
        rw [List.map_append, List.mem_append, not_or]
        exact ⟨hpost, fun hmem => hx (List.mem_singleton.mp hmem)⟩

/-- An element that was mentioned and is not in the stack has been removed. -/
theorem remove_of_not_mem_replay {es : List (Event α)} {x : α}
    (hx : x ∈ es.map Event.subject) (hn : x ∉ replay es) : Event.remove x ∈ es := by
  induction es using List.reverseRecOn with
  | nil => simp at hx
  | append_singleton es e ih =>
      rw [replay_concat] at hn
      by_cases he : x = e.subject
      · cases e with
        | push y => simp [apply, show x = y from he] at hn
        | remove y => simp [show x = y from he]
      · rw [mem_apply_of_ne he] at hn
        rw [List.map_append, List.mem_append] at hx
        rcases hx with hx | hx
        · exact List.mem_append_left _ (ih hx hn)
        · exact absurd (List.mem_singleton.mp hx) he

/-- A stack on a bottom that does not move, in a transitive order from below to above, stays in
    it where every push is above what is on top. -/
theorem pairwise_apply {r : α → α → Prop} (htrans : ∀ a b c, r a b → r b c → r a c)
    {bottom s : List α} (h : (bottom ++ s).Pairwise r) {e : Event α}
    (he : ∀ x, e = .push x → ∀ top, (bottom ++ s).getLast? = some top → r top x) :
    (bottom ++ apply s e).Pairwise r := by
  have hkeep : ∀ x, (bottom ++ s.filter (· ≠ x)).Sublist (bottom ++ s) := fun x =>
    (List.Sublist.refl bottom).append List.filter_sublist
  cases e with
  | push x =>
      have hbelow : ∀ a ∈ bottom ++ s, r a x := by
        intro a ha
        obtain ⟨rest, top, hlast⟩ := List.eq_nil_or_concat (bottom ++ s) |>.resolve_left
          (List.ne_nil_of_mem ha)
        rw [List.concat_eq_append] at hlast
        have htop : r top x := he x rfl top (by rw [hlast, List.getLast?_concat])
        rw [hlast] at ha h
        rcases List.mem_append.mp ha with hrest | hsame
        · exact htrans a top x ((List.pairwise_append.mp h).2.2 a hrest top
            (List.mem_singleton_self top)) htop
        · rw [List.mem_singleton.mp hsame]
          exact htop
      unfold apply
      rw [← List.append_assoc]
      refine List.pairwise_append.mpr ⟨h.sublist (hkeep x), List.pairwise_singleton r x, ?_⟩
      intro a ha b hb
      rw [List.mem_singleton.mp hb]
      exact hbelow a ((hkeep x).subset ha)
  | remove x => exact h.sublist (hkeep x)

/-- Replaying `es` on `s`: the members of `s` that `es` leaves alone, then what `es` builds. -/
theorem foldl_apply (s : List α) (es : List (Event α)) :
    es.foldl apply s = s.filter (· ∉ es.map Event.subject) ++ replay es := by
  induction es using List.reverseRecOn with
  | nil => simp
  | append_singleton es e ih =>
      rw [List.foldl_append, List.foldl_cons, List.foldl_nil, ih, replay_concat]
      have hfilter : ∀ x : α, (s.filter (· ∉ es.map Event.subject)).filter (· ≠ x) =
          s.filter (· ∉ es.map Event.subject ++ [x]) := by
        intro x
        rw [List.filter_filter]
        refine List.filter_congr fun y _ => ?_
        simp [and_comm]
      cases e with
      | push x =>
          simp only [apply, List.filter_append, hfilter, List.map_append, List.map_cons,
            List.map_nil, Event.subject, List.append_assoc]
      | remove x =>
          simp only [apply, List.filter_append, hfilter, List.map_append, List.map_cons,
            List.map_nil, Event.subject]

theorem replay_append (es fs : List (Event α)) :
    replay (es ++ fs) = (replay es).filter (· ∉ fs.map Event.subject) ++ replay fs := by
  rw [replay, List.foldl_append]
  exact foldl_apply _ _

/-! ## The top of the stack -/

/-- Taking the top out leaves what lay under it. -/
theorem replay_remove_top {es : List (Event α)} {x : α}
    (h : (replay es).getLast? = some x) :
    replay (es ++ [.remove x]) = (replay es).dropLast := by
  rw [replay_concat]
  have hnd := replay_nodup es
  rw [← List.dropLast_append_getLast? x h] at hnd ⊢
  have hx : x ∉ (replay es).dropLast := by
    intro hm
    exact (List.nodup_append.mp hnd).2.2 x hm x (List.mem_singleton_self x) rfl
  rw [List.dropLast_concat]
  simp only [apply, List.filter_append]
  rw [List.filter_eq_self.mpr (fun y hy => by simpa using fun hyx : y = x => hx (hyx ▸ hy))]
  simp

/-- If `x` is on top and was last pushed before `post`, then `post` built nothing of its
    own, and under `x` lies the stack of that moment less the elements mentioned since. -/
theorem replay_under_top {pre post : List (Event α)} {x : α}
    (hpost : Event.push x ∉ post)
    (htop : (replay (pre ++ .push x :: post)).getLast? = some x) :
    replay post = [] ∧
      replay (pre ++ .push x :: post) =
        ((replay pre).filter (· ≠ x)).filter (· ∉ post.map Event.subject) ++ [x] := by
  have hrep : replay (pre ++ .push x :: post) =
      (apply (replay pre) (.push x)).filter (· ∉ post.map Event.subject) ++ replay post := by
    rw [show pre ++ .push x :: post = (pre ++ [.push x]) ++ post by simp, replay_append,
      replay_concat]
  have hmem : x ∉ replay post := fun hx => hpost (push_of_mem_replay hx)
  rw [hrep] at htop ⊢
  have hnil : replay post = [] := by
    by_contra hne
    rw [List.getLast?_append_of_ne_nil _ hne] at htop
    exact hmem (List.mem_of_getLast? htop)
  rw [hnil, List.append_nil] at htop
  have hx : x ∉ post.map Event.subject := by
    simpa using (List.mem_filter.mp (List.mem_of_getLast? htop)).2
  refine ⟨hnil, ?_⟩
  rw [hnil, List.append_nil, apply, List.filter_append,
    List.filter_cons_of_pos (by simpa using hx), List.filter_nil]

/-- What is mentioned in a log that builds nothing was removed by it. -/
theorem removed_of_mentioned {es : List (Event α)} (hnil : replay es = []) {x : α}
    (hx : x ∈ es.map Event.subject) : Event.remove x ∈ es :=
  remove_of_not_mem_replay hx (by simp [hnil])

/-! ## Since the last push -/

/-- The log before and after the last push of `x`. -/
def splitLastPush (x : α) : List (Event α) → Option (List (Event α) × List (Event α))
  | [] => none
  | e :: es =>
      match splitLastPush x es with
      | some (pre, post) => some (e :: pre, post)
      | none => if e = .push x then some ([], es) else none

theorem splitLastPush_eq_none {x : α} {es : List (Event α)} :
    splitLastPush x es = none ↔ Event.push x ∉ es := by
  induction es with
  | nil => simp [splitLastPush]
  | cons e es ih =>
      unfold splitLastPush
      rw [List.mem_cons, not_or, ← ih]
      rcases splitLastPush x es with _ | ⟨pre, post⟩
      · simp [eq_comm]
      · simp

theorem splitLastPush_eq_some {x : α} {es pre post : List (Event α)}
    (h : splitLastPush x es = some (pre, post)) :
    es = pre ++ .push x :: post ∧ Event.push x ∉ post := by
  induction es generalizing pre with
  | nil => cases h
  | cons e es ih =>
      unfold splitLastPush at h
      rcases hrest : splitLastPush x es with _ | ⟨pre', post'⟩
      · rw [hrest] at h
        dsimp only at h
        split_ifs at h with he
        obtain ⟨rfl, rfl⟩ := Prod.mk.inj (Option.some.inj h)
        exact ⟨by rw [he, List.nil_append], splitLastPush_eq_none.mp hrest⟩
      · rw [hrest] at h
        obtain ⟨rfl, rfl⟩ := Prod.mk.inj (Option.some.inj h)
        obtain ⟨heq, hpost⟩ := ih hrest
        exact ⟨by rw [heq, List.cons_append], hpost⟩

/-- What a removal of the top uncovers: of the stack as it was before the top was last
    pushed, the elements that have not been removed since. -/
theorem replay_uncover {es pre post : List (Event α)} {x : α}
    (hsplit : splitLastPush x es = some (pre, post))
    (htop : (replay es).getLast? = some x) :
    replay (es ++ [.remove x]) = (replay pre).filter fun y => y ≠ x ∧ Event.remove y ∉ post := by
  obtain ⟨rfl, hpost⟩ := splitLastPush_eq_some hsplit
  obtain ⟨hnil, hunder⟩ := replay_under_top hpost htop
  have hmention : ∀ y, y ∈ post.map Event.subject ↔ Event.remove y ∈ post := fun y =>
    ⟨removed_of_mentioned hnil, fun hy => List.mem_map_of_mem hy⟩
  rw [replay_remove_top htop, hunder, List.dropLast_concat, List.filter_filter]
  refine List.filter_congr fun y _ => ?_
  simp only [hmention, ← Bool.decide_and]
  rw [decide_eq_decide, and_comm]

/-- No element was pushed while it was on top. -/
def NoRepush (es : List (Event α)) : Prop :=
  ∀ pre x post, es = pre ++ .push x :: post → (replay pre).getLast? ≠ some x

theorem noRepush_nil : NoRepush ([] : List (Event α)) := by
  intro pre x post h
  simp at h

theorem NoRepush.concat {es : List (Event α)} (h : NoRepush es) {e : Event α}
    (he : ∀ x, e = .push x → (replay es).getLast? ≠ some x) : NoRepush (es ++ [e]) := by
  intro pre x post heq
  rcases List.eq_nil_or_concat post with rfl | ⟨post', e', rfl⟩
  · obtain ⟨rfl, hlast⟩ := List.append_inj' heq rfl
    exact he x (List.cons.inj hlast).1
  · rw [List.concat_eq_append, ← List.cons_append, ← List.append_assoc] at heq
    obtain ⟨rfl, -⟩ := List.append_inj' heq rfl
    exact h pre x post' rfl

end StackReplay
