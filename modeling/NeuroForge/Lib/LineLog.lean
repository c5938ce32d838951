/-
  Files of lines that are only ever appended to.

  `lines` cuts a file at its line breaks, the way a reader that drops an empty last line
  does. A file is `Closed` when it is empty or ends in a break. What is appended to a
  closed file is cut on its own (`lines_append`); a break appended to a file that is not
  closed only ends its last line (`lines_append_break`). So a writer that closes the file
  before its first line never changes a line that is already there, whatever was torn off
  before, and adds exactly the line it writes.
-/
import Mathlib.Data.List.Basic

namespace LineLog

variable {β : Type*} (brk : β → Bool)

def lines : List β → List (List β)
  | [] => []
  | c :: rest =>
      if brk c then [] :: lines rest
      else
        match lines rest with
        | [] => [[c]]
        | line :: more => (c :: line) :: more

/-- Nothing is left of a line. -/
def Closed (file : List β) : Prop := ∀ c, file.getLast? = some c → brk c = true

variable {brk}

theorem lines_cons_break {c : β} (h : brk c = true) (rest : List β) :
    lines brk (c :: rest) = [] :: lines brk rest := by
  rw [lines, if_pos h]

theorem lines_cons {c : β} (h : brk c = false) (rest : List β) :
    lines brk (c :: rest) =
      (c :: (lines brk rest).headD []) :: (lines brk rest).tail := by
  rw [lines, if_neg (by simp [h])]
  cases lines brk rest with
  | nil => rfl
  | cons line more => rfl

theorem closed_nil : Closed brk [] := by
  intro c hc
  cases hc

theorem closed_concat {c : β} (h : brk c = true) (file : List β) : Closed brk (file ++ [c]) := by
  intro d hd
  rw [List.getLast?_concat] at hd
  rw [← Option.some.inj hd]
  exact h

theorem Closed.tail {c d : β} {rest : List β} (h : Closed brk (c :: d :: rest)) :
    Closed brk (d :: rest) := by
  intro x hx
  exact h x (by rwa [List.getLast?_cons_cons])

/-- What follows a closed file is cut on its own. -/
theorem lines_append {file : List β} (h : Closed brk file) (more : List β) :
    lines brk (file ++ more) = lines brk file ++ lines brk more := by
  induction file with
  | nil => rfl
  | cons c rest ih =>
      have hrest : Closed brk rest := by
        cases rest with
        | nil => exact closed_nil
        | cons d rest => exact h.tail
      by_cases hc : brk c = true
      · rw [List.cons_append, lines_cons_break hc, lines_cons_break hc, ih hrest,
          List.cons_append]
      · have hc' : brk c = false := by simpa using hc
        cases rest with
        | nil => exact absurd (h c rfl) hc
        | cons d rest =>
            have hne : lines brk (d :: rest) ≠ [] := by
              rw [lines]
              split_ifs
              · exact List.cons_ne_nil _ _
              · split <;> exact List.cons_ne_nil _ _
            obtain ⟨line, others, hlines⟩ := List.exists_cons_of_ne_nil hne
            rw [List.cons_append, lines_cons hc', lines_cons hc', ih hrest, hlines]
            rfl

/-- A text without breaks is one line, with or without a break after it. -/
theorem lines_of_noBreak {text : List β} (hne : text ≠ []) (h : ∀ c ∈ text, brk c = false) :
    lines brk text = [text] := by
  induction text with
  | nil => exact absurd rfl hne
  | cons c rest ih =>
      rw [lines_cons (h c List.mem_cons_self)]
      cases rest with
      | nil => rfl
      | cons d rest =>
          rw [ih (List.cons_ne_nil _ _) fun x hx => h x (List.mem_cons_of_mem _ hx)]
          rfl

/-- A break ends the last line of a file and changes no other. -/
theorem lines_append_break {b : β} (hb : brk b = true) {file : List β}
    (h : ¬ Closed brk file) : lines brk (file ++ [b]) = lines brk file := by
  induction file with
  | nil => exact absurd closed_nil h
  | cons c rest ih =>
      cases rest with
      | nil =>
          have hc : brk c = false := by
            by_contra hc
            refine h fun d hd => ?_
            rw [← Option.some.inj hd]
            simpa using hc
          rw [List.cons_append, List.nil_append, lines_cons hc, lines_cons hc,
            lines_cons_break hb]
          rfl
      | cons d rest =>
          have hrest : ¬ Closed brk (d :: rest) := fun hclosed => h fun x hx =>
            hclosed x (by rwa [List.getLast?_cons_cons] at hx)
          by_cases hc : brk c = true
          · rw [List.cons_append, lines_cons_break hc, lines_cons_break hc, ih hrest]
          · have hc' : brk c = false := by simpa using hc
            rw [List.cons_append, lines_cons hc', lines_cons hc', ih hrest]

theorem lines_noBreak_break {b : β} (hb : brk b = true) {text : List β} (hne : text ≠ [])
    (h : ∀ c ∈ text, brk c = false) : lines brk (text ++ [b]) = [text] := by
  rw [lines_append_break hb, lines_of_noBreak hne h]
  intro hclosed
  have hlast := hclosed _ (List.getLast?_eq_getLast_of_ne_nil hne)
  rw [h _ (List.getLast_mem hne)] at hlast
  cases hlast

end LineLog
