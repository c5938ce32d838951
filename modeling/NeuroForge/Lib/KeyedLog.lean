/-
  A log of a stack's events that is read in the order of a key.

  The rows of the log are written one after the other and read by key, so an event may be
  read before events that were written earlier. `replay_insert` says which events may come
  after it unseen: those that are neither about its element nor about the top of the stack
  (`Apart`). For a change of the top these are also the only ones
  (`getLast?_replay_insert`). So a log that reads as it was written goes on doing so exactly
  as long as every row has a key that is not behind those of the rows it must follow
  (`ReadsAsWritten.concat`, `ReadsAsWritten.top_iff`).
-/
import NeuroForge.Lib.StackReplay
import Mathlib.Data.List.Sort

namespace StackReplay

variable {α : Type*} [DecidableEq α]

/-! ## Events that are read too early -/

/-- The event puts a new element on top, or takes the top out. -/
def Event.Changes (s : List α) : Event α → Prop
  | .push x => s.getLast? ≠ some x
  | .remove x => s.getLast? = some x

theorem Event.Changes.getLast?_ne {s : List α} {e : Event α} (h : e.Changes s) :
    (apply s e).getLast? ≠ s.getLast? := by
  cases e with
  | push x =>
      have hlast : (apply s (.push x)).getLast? = some x := List.getLast?_concat
      rw [hlast]
      exact fun heq => h heq.symm
  | remove x =>
      intro heq
      have hmem := List.mem_of_getLast? (heq.trans h)
      exact absurd rfl (of_decide_eq_true (List.mem_filter.mp hmem).2)

theorem apply_filter (s : List α) {e : Event α} {q : α → Prop} [DecidablePred q]
    (hq : q e.subject) : (apply s e).filter (q ·) = apply (s.filter (q ·)) e := by
  have hcomm : ∀ x, (s.filter (· ≠ x)).filter (q ·) = (s.filter (q ·)).filter (· ≠ x) := by
    intro x
    rw [List.filter_filter, List.filter_filter]
    exact List.filter_congr fun y _ => Bool.and_comm _ _
  cases e with
  | push x =>
      unfold apply
      dsimp only
      have hkeep : [x].filter (q ·) = [x] := by
        change q x at hq
        simp [hq]
      rw [List.filter_append, hcomm, hkeep]
  | remove x => exact hcomm x

/-- What is read last builds nothing exactly when it leaves the top alone. -/
theorem replay_eq_nil_iff (es fs : List (Event α)) :
    replay fs = [] ↔
      ∀ x, (replay (es ++ fs)).getLast? = some x → x ∉ fs.map Event.subject := by
  rw [replay_append]
  constructor
  · intro hnil x hx
    rw [hnil, List.append_nil] at hx
    simpa using (List.mem_filter.mp (List.mem_of_getLast? hx)).2
  · intro htop
    by_contra hne
    have hlast := List.getLast?_eq_getLast_of_ne_nil hne
    have hmem : (replay fs).getLast hne ∈ fs.map Event.subject :=
      List.mem_map_of_mem (push_of_mem_replay (List.getLast_mem hne))
    refine htop _ ?_ hmem
    rw [List.getLast?_append_of_ne_nil _ hne, hlast]

/-- The events `fs`, read after `e`, are neither about its element nor about the top. -/
def Apart (es : List (Event α)) (e : Event α) (fs : List (Event α)) : Prop :=
  ∀ x ∈ fs.map Event.subject, x ≠ e.subject ∧ (replay (es ++ fs)).getLast? ≠ some x

/-- An event read before others that are apart from it does what it does after them. -/
theorem replay_insert {es fs : List (Event α)} {e : Event α} (h : Apart es e fs) :
    replay (es ++ e :: fs) = replay (es ++ fs ++ [e]) := by
  have hnil : replay fs = [] :=
    (replay_eq_nil_iff es fs).mpr fun x hx hmem => (h x hmem).2 hx
  have hsubject : e.subject ∉ fs.map Event.subject := fun hmem => (h _ hmem).1 rfl
  rw [List.append_cons, replay_append, replay_concat, replay_concat, replay_append es fs, hnil,
    List.append_nil, List.append_nil, apply_filter _ hsubject]

/-- A change read before others leaves the same top as after them exactly when they are
    apart from it. -/
theorem getLast?_replay_insert {es fs : List (Event α)} {e : Event α}
    (hchange : e.Changes (replay (es ++ fs))) :
    (replay (es ++ e :: fs)).getLast? = (replay (es ++ fs ++ [e])).getLast? ↔
      Apart es e fs := by
  refine ⟨fun hsame => ?_, fun h => by rw [replay_insert h]⟩
  rw [List.append_cons, replay_append, replay_concat, replay_concat] at hsame
  have hnil : replay fs = [] := by
    by_contra hne
    rw [List.getLast?_append_of_ne_nil _ hne] at hsame
    refine hchange.getLast?_ne (hsame.symm.trans ?_)
    rw [replay_append, List.getLast?_append_of_ne_nil _ hne]
  have htop := (replay_eq_nil_iff es fs).mp hnil
  have hsubject : e.subject ∉ fs.map Event.subject := by
    cases e with
    | remove x => exact htop x hchange
    | push x =>
        rw [hnil, List.append_nil] at hsame
        have hlast : (apply (replay (es ++ fs)) (.push x)).getLast? = some x :=
          List.getLast?_concat
        have hmem := List.mem_of_getLast? (hsame.trans hlast)
        exact of_decide_eq_true (List.mem_filter.mp hmem).2
  exact fun x hx => ⟨fun heq => hsubject (heq ▸ hx), fun hlast => htop x hlast hx⟩

/-! ## Logs read in the order of a key -/

section Keyed

variable {ρ κ : Type*} [LinearOrder κ] (key : ρ → κ) (event : ρ → Event α)

/-- The rows in the order of their keys. -/
def byKey (rows : List ρ) : List ρ := rows.insertionSort fun a b => key a ≤ key b

theorem pairwise_byKey (rows : List ρ) : (byKey key rows).Pairwise fun a b => key a ≤ key b := by
  have htotal : Std.Total fun a b : ρ => key a ≤ key b := ⟨fun a b => le_total _ _⟩
  have htrans : IsTrans ρ fun a b => key a ≤ key b := ⟨fun _ _ _ => le_trans⟩
  exact List.pairwise_insertionSort _ rows

variable {key event}

/-- A list in order is what its members are read as. -/
theorem byKey_eq {rows sorted : List ρ} (hkeys : (rows.map key).Nodup)
    (hperm : sorted.Perm rows) (hsorted : sorted.Pairwise fun a b => key a ≤ key b) :
    byKey key rows = sorted := by
  have hread : (byKey key rows).Perm rows := List.perm_insertionSort _ rows
  refine List.Perm.eq_of_pairwise (fun a b ha hb hab hba => ?_) (pairwise_byKey key rows) hsorted
    (hread.trans hperm.symm)
  exact List.inj_on_of_nodup_map hkeys (hread.subset ha) (hperm.subset hb) (le_antisymm hab hba)

/-- A new row is read between the rows before it and those behind it. -/
theorem byKey_concat {rows : List ρ} {a : ρ} (hkeys : ((rows ++ [a]).map key).Nodup) :
    ∃ early late, byKey key rows = early ++ late ∧
      byKey key (rows ++ [a]) = early ++ a :: late ∧
      ∀ b, b ∈ late ↔ b ∈ rows ∧ key a < key b := by
  have hread : (byKey key rows).Perm rows := List.perm_insertionSort _ rows
  have hrows : (rows.map key).Nodup := by
    rw [List.map_append] at hkeys
    exact (List.nodup_append.mp hkeys).1
  have hsplit : ((byKey key rows).filter (key · ≤ key a) ++
      (byKey key rows).filter (fun b => ! decide (key b ≤ key a))).Perm (byKey key rows) :=
    List.filter_append_perm _ _
  have hbefore : ∀ b ∈ (byKey key rows).filter (key · ≤ key a), key b ≤ key a := by
    intro b hb
    exact of_decide_eq_true (List.mem_filter.mp hb).2
  have hbehind : ∀ b, b ∈ (byKey key rows).filter (fun b => ! decide (key b ≤ key a)) ↔
      b ∈ rows ∧ key a < key b := by
    intro b
    rw [List.mem_filter, hread.mem_iff]
    simp
  have hearly := (pairwise_byKey key rows).filter (key · ≤ key a)
  have hlate := (pairwise_byKey key rows).filter (fun b => ! decide (key b ≤ key a))
  refine ⟨_, _, byKey_eq hrows (hsplit.trans hread) ?_, byKey_eq hkeys ?_ ?_, hbehind⟩
  · refine List.pairwise_append.mpr ⟨hearly, hlate, fun b hb c hc => ?_⟩
    exact (hbefore b hb).trans ((hbehind c).mp hc).2.le
  · refine List.perm_middle.trans (((hsplit.trans hread).cons a).trans ?_)
    exact (List.perm_append_singleton a rows).symm
  · have hnext : ∀ c ∈ a :: (byKey key rows).filter (fun b => ! decide (key b ≤ key a)),
        key a ≤ key c := by
      intro c hc
      rcases List.mem_cons.mp hc with rfl | hc
      · exact le_rfl
      · exact ((hbehind c).mp hc).2.le
    refine List.pairwise_append.mpr ⟨hearly, List.pairwise_cons.mpr ⟨fun c hc => ?_, hlate⟩, ?_⟩
    · exact hnext c (List.mem_cons_of_mem a hc)
    · exact fun b hb c hc => (hbefore b hb).trans (hnext c hc)

variable (key event)

/-- The rows about the element of the new row, or about the top, are read before it. -/
def InTime (rows : List ρ) (a : ρ) : Prop :=
  ∀ b ∈ rows, (event b).subject = (event a).subject ∨
    (replay (rows.map event)).getLast? = some (event b).subject → key b ≤ key a

instance (rows : List ρ) (a : ρ) : Decidable (InTime key event rows a) :=
  inferInstanceAs (Decidable (∀ b ∈ rows, _))

/-- The log read in the order of its keys builds the stack its rows were written on. -/
def ReadsAsWritten (rows : List ρ) : Prop :=
  replay ((byKey key rows).map event) = replay (rows.map event)

variable {key event}

theorem apart_iff_inTime {rows early late : List ρ} {a : ρ} (hread : ReadsAsWritten key event rows)
    (hsplit : byKey key rows = early ++ late) (hlate : ∀ b, b ∈ late ↔ b ∈ rows ∧ key a < key b) :
    Apart (early.map event) (event a) (late.map event) ↔ InTime key event rows a := by
  unfold ReadsAsWritten at hread
  rw [hsplit, List.map_append] at hread
  unfold Apart InTime
  rw [hread]
  constructor
  · intro h b hb habout
    by_contra hbehind
    have hmem : b ∈ late := (hlate b).mpr ⟨hb, lt_of_not_ge hbehind⟩
    obtain ⟨hsubject, htop⟩ := h (event b).subject (List.mem_map_of_mem (List.mem_map_of_mem hmem))
    rcases habout with heq | heq
    · exact hsubject heq
    · exact htop heq
  · intro h x hx
    rw [List.map_map] at hx
    obtain ⟨b, hb, rfl⟩ := List.mem_map.mp hx
    obtain ⟨hrow, hbehind⟩ := (hlate b).mp hb
    exact ⟨fun heq => not_le_of_gt hbehind (h b hrow (.inl heq)),
      fun heq => not_le_of_gt hbehind (h b hrow (.inr heq))⟩

/-- A row written in time keeps a log that reads as it was written. -/
theorem ReadsAsWritten.concat {rows : List ρ} {a : ρ} (hkeys : ((rows ++ [a]).map key).Nodup)
    (hread : ReadsAsWritten key event rows) (h : InTime key event rows a) :
    ReadsAsWritten key event (rows ++ [a]) := by
  obtain ⟨early, late, hsplit, hinsert, hlate⟩ := byKey_concat hkeys
  have hapart := (apart_iff_inTime hread hsplit hlate).mpr h
  unfold ReadsAsWritten at hread ⊢
  rw [hsplit, List.map_append] at hread
  rw [hinsert, List.map_append, List.map_cons, replay_insert hapart, replay_concat, hread,
    List.map_append, List.map_singleton, replay_concat]

/-- Where the log reads as it was written, the next change leaves the top it should exactly
    when its row is written in time. -/
theorem ReadsAsWritten.top_iff {rows : List ρ} {a : ρ} (hkeys : ((rows ++ [a]).map key).Nodup)
    (hread : ReadsAsWritten key event rows)
    (hchange : (event a).Changes (replay (rows.map event))) :
    (replay ((byKey key (rows ++ [a])).map event)).getLast? =
        (replay ((rows ++ [a]).map event)).getLast? ↔ InTime key event rows a := by
  obtain ⟨early, late, hsplit, hinsert, hlate⟩ := byKey_concat hkeys
  rw [← apart_iff_inTime hread hsplit hlate]
  unfold ReadsAsWritten at hread
  rw [hsplit, List.map_append] at hread
  rw [← hread] at hchange
  rw [← getLast?_replay_insert hchange, hinsert, List.map_append, List.map_cons, replay_concat,
    hread, List.map_append, List.map_singleton, replay_concat]

end Keyed

end StackReplay
