/-
  Walks along a partial function.

  `walk parent fuel a` collects `a`, its parent, the parent of that, and so on, as long as
  there is one and the fuel lasts. What it returns is a whole line of descent (`Walks`), and
  more fuel returns the same (`walk_eq_some`). Over finitely many elements there is such a line
  from `a` exactly if nothing on the way from `a` is its own ancestor (`exists_walks_iff`), and
  then it has no element twice (`Walks.nodup`).
-/
import Mathlib.Data.List.Basic
import Mathlib.Data.Finset.Card
import Mathlib.Data.List.Chain
import Mathlib.Logic.Relation

namespace ParentWalk

open Relation

variable {α : Type*} {parent : α → Option α}

/-- What a loop that follows `parent` collects, if it ends within `fuel` rounds. -/
def walk (parent : α → Option α) : ℕ → Option α → Option (List α)
  | _, none => some []
  | 0, some _ => none
  | fuel + 1, some a => (walk parent fuel (parent a)).map (a :: ·)

/-- `b` is the parent of `a`. -/
def Parent (parent : α → Option α) (a b : α) : Prop := parent a = some b

/-- A line of descent, the youngest first, back to an element without parent. -/
inductive Walks (parent : α → Option α) : α → List α → Prop
  | last {a : α} (h : parent a = none) : Walks parent a [a]
  | step {a b : α} {as : List α} (h : parent a = some b) (hb : Walks parent b as) :
      Walks parent a (a :: as)

theorem walk_eq_some {fuel : ℕ} {a : α} {as : List α} :
    walk parent fuel (some a) = some as ↔ Walks parent a as ∧ as.length ≤ fuel := by
  induction fuel generalizing a as with
  | zero =>
      constructor
      · exact fun h => nomatch h
      · rintro ⟨hwalks, hlength⟩
        cases hwalks <;> simp at hlength
  | succ fuel ih =>
      unfold walk
      rw [Option.map_eq_some_iff]
      cases hparent : parent a with
      | none =>
          have hrest : walk parent fuel none = some [] := by
            cases fuel <;> rfl
          rw [hrest]
          constructor
          · rintro ⟨rest, h, rfl⟩
            obtain rfl := Option.some.inj h
            exact ⟨.last hparent, by simp⟩
          · rintro ⟨hwalks, -⟩
            cases hwalks with
            | last _ => exact ⟨[], rfl, rfl⟩
            | step h _ =>
                rw [hparent] at h
                cases h
      | some b =>
          constructor
          · rintro ⟨rest, h, rfl⟩
            obtain ⟨hwalks, hlength⟩ := ih.mp h
            exact ⟨.step hparent hwalks, by simpa using hlength⟩
          · rintro ⟨hwalks, hlength⟩
            cases hwalks with
            | last h =>
                rw [hparent] at h
                cases h
            | step h hb =>
                obtain rfl := Option.some.inj (hparent.symm.trans h)
                exact ⟨_, ih.mpr ⟨hb, by simpa using hlength⟩, rfl⟩

theorem Walks.unique {a : α} {as as' : List α} (h : Walks parent a as)
    (h' : Walks parent a as') : as = as' := by
  have hfuel := walk_eq_some.mpr ⟨h, Nat.le_max_left as.length as'.length⟩
  have hfuel' := walk_eq_some.mpr ⟨h', Nat.le_max_right as.length as'.length⟩
  exact Option.some.inj (hfuel.symm.trans hfuel')

/-! ## Lines of descent -/

theorem Walks.head? {a : α} {as : List α} (h : Walks parent a as) : as.head? = some a := by
  cases h <;> rfl

theorem Walks.isChain {a : α} {as : List α} (h : Walks parent a as) :
    as.IsChain (Parent parent) := by
  induction h with
  | last _ => exact List.isChain_singleton _
  | @step a b as hab hb ih =>
      refine List.isChain_cons.mpr ⟨fun x hx => ?_, ih⟩
      rw [hb.head?] at hx
      obtain rfl := Option.some.inj hx
      exact hab

theorem Walks.getLast? {a : α} {as : List α} (h : Walks parent a as) :
    ∃ root, as.getLast? = some root ∧ parent root = none := by
  induction h with
  | @last a ha => exact ⟨a, rfl, ha⟩
  | @step a b as _ hb ih =>
      obtain ⟨root, hlast, hroot⟩ := ih
      refine ⟨root, ?_, hroot⟩
      cases hb <;> rw [List.getLast?_cons_cons, hlast]

/-- What is on the line is reached from its start. -/
theorem Walks.reached {a x : α} {as : List α} (h : Walks parent a as) (hx : x ∈ as) :
    ReflTransGen (Parent parent) a x := by
  induction h with
  | last _ =>
      rw [List.mem_singleton.mp hx]
  | step hab _ ih =>
      rcases List.mem_cons.mp hx with rfl | hmem
      · exact .refl
      · exact .head hab (ih hmem)

/-- From an ancestor the line is shorter. -/
theorem Walks.ancestor {a b : α} {as : List α} (h : Walks parent a as)
    (hab : TransGen (Parent parent) a b) :
    ∃ bs, Walks parent b bs ∧ bs.length < as.length := by
  have hone : ∀ {x y : α} {xs : List α}, Walks parent x xs → Parent parent x y →
      ∃ ys, Walks parent y ys ∧ ys.length < xs.length := by
    intro x y xs hxs hxy
    cases hxs with
    | last hnone =>
        rw [Parent, hnone] at hxy
        cases hxy
    | step h hb =>
        obtain rfl := Option.some.inj (h.symm.trans hxy)
        exact ⟨_, hb, by simp⟩
  induction hab with
  | single hab => exact hone h hab
  | tail _ hbc ih =>
      obtain ⟨bs, hbs, hless⟩ := ih
      obtain ⟨cs, hcs, hless'⟩ := hone hbs hbc
      exact ⟨cs, hcs, by omega⟩

/-- Nothing that has a line of descent is its own ancestor. -/
theorem Walks.not_self {a : α} {as : List α} (h : Walks parent a as) :
    ¬ TransGen (Parent parent) a a := by
  intro hself
  obtain ⟨as', has', hless⟩ := h.ancestor hself
  rw [h.unique has'] at hless
  exact absurd hless (Nat.lt_irrefl _)

theorem Walks.nodup {a : α} {as : List α} (h : Walks parent a as) : as.Nodup := by
  induction h with
  | last _ => exact List.pairwise_singleton _ _
  | @step a b as hab hb ih =>
      refine List.nodup_cons.mpr ⟨fun hmem => ?_, ih⟩
      exact (Walks.step hab hb).not_self (.head' hab (hb.reached hmem))

/-- Where the ancestors are finitely many and none is its own, there is a line of descent. -/
theorem exists_walks {elements : List α} {a : α}
    (hfinite : ∀ b, TransGen (Parent parent) a b → b ∈ elements)
    (hself : ∀ b, ReflTransGen (Parent parent) a b → ¬ TransGen (Parent parent) b b) :
    ∃ as, Walks parent a as := by
  classical
  -- An element has fewer ancestors than what it is the parent of.
  induction hn : (elements.toFinset.filter (TransGen (Parent parent) a)).card using
    Nat.strongRecOn generalizing a with
  | ind n ih =>
      cases hparent : parent a with
      | none => exact ⟨[a], .last hparent⟩
      | some b =>
          have hab : Parent parent a b := hparent
          have hless : (elements.toFinset.filter (TransGen (Parent parent) b)).card < n := by
            rw [← hn]
            refine Finset.card_lt_card ((Finset.ssubset_iff_of_subset ?_).mpr ⟨b, ?_, ?_⟩)
            · intro c hc
              rw [Finset.mem_filter] at hc ⊢
              exact ⟨hc.1, .head hab hc.2⟩
            · rw [Finset.mem_filter, List.mem_toFinset]
              exact ⟨hfinite b (.single hab), .single hab⟩
            · intro hb
              exact hself b (.single hab) (Finset.mem_filter.mp hb).2
          obtain ⟨bs, hbs⟩ := ih _ hless (fun c hc => hfinite c (.head hab hc))
            (fun c hc => hself c (.head hab hc)) rfl
          exact ⟨a :: bs, .step hparent hbs⟩

theorem exists_walks_iff {elements : List α} {a : α}
    (hfinite : ∀ b, TransGen (Parent parent) a b → b ∈ elements) :
    (∃ as, Walks parent a as) ↔
      ∀ b, ReflTransGen (Parent parent) a b → ¬ TransGen (Parent parent) b b := by
  refine ⟨?_, exists_walks hfinite⟩
  rintro ⟨as, has⟩ b hab
  rcases reflTransGen_iff_eq_or_transGen.mp hab with rfl | htrans
  · exact has.not_self
  · obtain ⟨bs, hbs, -⟩ := has.ancestor htrans
    exact hbs.not_self

end ParentWalk
