/-
  A queue that remembers.

  Entries are appended at the end and handed out from the front, or all of them are dropped
  at once. Beside what is waiting, the queue keeps everything that was ever put in and what
  has left it, in its order; that nothing is lost or made up is a field (`accounted`). So
  what was handed out, and then what waits, is a sublist of what was put in
  (`handedOut_waiting_sublist`).
-/
import Mathlib.Data.List.Basic
import Mathlib.Data.List.Nodup

/-- `left` has every entry that has left the queue, with `true` if it was handed out. -/
structure Fifo (α : Type*) where
  waiting : List α
  pushed : List α
  left : List (α × Bool)
  accounted : pushed = left.map Prod.fst ++ waiting

namespace Fifo

variable {α : Type*} {q q' : Fifo α} {a : α}

theorem empty_accounted : ([] : List α) = ([] : List (α × Bool)).map Prod.fst ++ [] := rfl

def empty : Fifo α := ⟨[], [], [], empty_accounted⟩

theorem push_accounted (q : Fifo α) (a : α) :
    q.pushed ++ [a] = q.left.map Prod.fst ++ (q.waiting ++ [a]) := by
  rw [q.accounted, List.append_assoc]

def push (q : Fifo α) (a : α) : Fifo α :=
  ⟨q.waiting ++ [a], q.pushed ++ [a], q.left, push_accounted q a⟩

theorem take_accounted (q : Fifo α) {a : α} {rest : List α} (h : q.waiting = a :: rest) :
    q.pushed = (q.left ++ [(a, true)]).map Prod.fst ++ rest := by
  rw [q.accounted, h, List.map_append, List.append_assoc]
  rfl

/-- The entry at the front is handed out. -/
def handOut (q : Fifo α) : Option (α × Fifo α) :=
  match h : q.waiting with
  | [] => none
  | a :: rest => some (a, ⟨rest, q.pushed, q.left ++ [(a, true)], take_accounted q h⟩)

theorem drain_accounted (q : Fifo α) :
    q.pushed = (q.left ++ q.waiting.map fun a => (a, false)).map Prod.fst ++ [] := by
  rw [q.accounted, List.map_append, List.map_map, List.append_nil]
  exact congrArg _ (List.map_id _).symm

/-- Everything that waits is dropped. -/
def drain (q : Fifo α) : Fifo α :=
  ⟨[], q.pushed, q.left ++ q.waiting.map fun a => (a, false), drain_accounted q⟩

/-- What was handed out, in the order it was. -/
def handedOut (q : Fifo α) : List α := (q.left.filter Prod.snd).map Prod.fst

def dropped (q : Fifo α) : List α := (q.left.filter fun e => !e.2).map Prod.fst

@[simp] theorem waiting_empty : (empty : Fifo α).waiting = [] := rfl

@[simp] theorem pushed_empty : (empty : Fifo α).pushed = [] := rfl

@[simp] theorem handedOut_empty : (empty : Fifo α).handedOut = [] := rfl

@[simp] theorem dropped_empty : (empty : Fifo α).dropped = [] := rfl

@[simp] theorem waiting_push : (q.push a).waiting = q.waiting ++ [a] := rfl

@[simp] theorem pushed_push : (q.push a).pushed = q.pushed ++ [a] := rfl

@[simp] theorem handedOut_push : (q.push a).handedOut = q.handedOut := rfl

@[simp] theorem dropped_push : (q.push a).dropped = q.dropped := rfl

@[simp] theorem waiting_drain : q.drain.waiting = [] := rfl

@[simp] theorem pushed_drain : q.drain.pushed = q.pushed := rfl

@[simp] theorem handedOut_drain : q.drain.handedOut = q.handedOut := by
  unfold handedOut drain
  simp [List.filter_append, List.filter_map, Function.comp_def]

@[simp] theorem dropped_drain : q.drain.dropped = q.dropped ++ q.waiting := by
  unfold dropped drain
  simp [List.filter_append, List.filter_map, Function.comp_def]

/-- What handing out does to the queue. -/
theorem handOut_eq_some (h : q.handOut = some (a, q')) :
    q.waiting = a :: q'.waiting ∧ q'.pushed = q.pushed ∧ q'.handedOut = q.handedOut ++ [a] ∧
      q'.dropped = q.dropped := by
  unfold handOut at h
  split at h
  · cases h
  · rename_i b rest hwaiting
    obtain ⟨rfl, rfl⟩ := Prod.mk.inj (Option.some.inj h)
    refine ⟨hwaiting, rfl, ?_, ?_⟩
    · simp [handedOut, List.filter_append]
    · simp [dropped, List.filter_append]

theorem handOut_eq_none : q.handOut = none ↔ q.waiting = [] := by
  unfold handOut
  split
  · rename_i hwaiting
    simp [hwaiting]
  · rename_i hwaiting
    simp [hwaiting]

/-- What was handed out and what still waits was put in, in this order. -/
theorem handedOut_waiting_sublist (q : Fifo α) : (q.handedOut ++ q.waiting).Sublist q.pushed := by
  rw [q.accounted]
  exact (List.filter_sublist.map Prod.fst).append (List.Sublist.refl q.waiting)

/-- Every entry is waiting, was handed out or was dropped, and counts once for each time it was
    put in. -/
theorem perm_pushed (q : Fifo α) :
    (q.handedOut ++ q.dropped ++ q.waiting).Perm q.pushed := by
  rw [q.accounted]
  refine List.Perm.append_right _ ?_
  unfold handedOut dropped
  rw [← List.map_append]
  exact (List.filter_append_perm Prod.snd q.left).map Prod.fst

/-- Where nothing was dropped, the queue is what was put in less what was handed out. -/
theorem pushed_eq_of_dropped_nil (h : q.dropped = []) : q.pushed = q.handedOut ++ q.waiting := by
  have hall : ∀ e ∈ q.left, e.2 = true := by
    intro e he
    by_contra hfalse
    have hmem : e.1 ∈ q.dropped :=
      List.mem_map.mpr ⟨e, List.mem_filter.mpr ⟨he, by simpa using hfalse⟩, rfl⟩
    rw [h] at hmem
    cases hmem
  rw [q.accounted, handedOut, List.filter_eq_self.mpr hall]

end Fifo
