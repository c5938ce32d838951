/-
  What every point a search comes by has in common.

  `Fits Q space point`: the point has exactly the parameters of the space, in their order,
  and each value satisfies `Q` of its specification. Sampling, crossover, perturbing and
  walking the grid all yield such points, for any `Q` that what they do to a single value
  keeps (`Stable`). That the moves never raise, and that the values stay in their range, are
  two instances.
-/
import NeuroForge.Lib.Fallible
import NeuroForge.Optimization.SearchSpace

namespace NeuroForge

open Fallible

variable {ρ : Type}

def ParamSpec.Numeric : ParamSpec → Prop
  | .categorical _ _ => False
  | _ => True

/-- `Q` holds of every value that sampling, clamping or redrawing yields for `spec`, and
    only of numbers where the specification is numeric. -/
structure ParamSpec.Stable (rng : Rng ρ) (Q : ParamSpec → Value → Prop) (spec : ParamSpec) :
    Prop where
  sample : ∀ s, Q spec (spec.sample rng s).1
  number : spec.Numeric → ∀ v, Q spec v → ∃ q, v.num? = some q
  clamp : spec.Numeric → ∀ q v, spec.clamp (.float q) = .ok v → Q spec v
  redraw : ∀ values h, spec = .categorical values h → ∀ v ∈ values, Q spec v

/-- The entries of `point` are those of the parameters, each with a value `Q` holds of. -/
def FitsEntries (Q : ParamSpec → Value → Prop) (parameters : Dict String ParamSpec)
    (point : Point) : Prop :=
  List.Forall₂ (fun e x => x.1 = e.1 ∧ Q e.2 x.2) parameters point

def SearchSpace.Fits (Q : ParamSpec → Value → Prop) (space : SearchSpace) (point : Point) :
    Prop := FitsEntries Q space.parameters point

/-! ## Entries -/

section
variable {Q : ParamSpec → Value → Prop} {parameters : Dict String ParamSpec} {point : Point}

theorem FitsEntries.keys (h : FitsEntries Q parameters point) :
    Dict.keys point = Dict.keys parameters := by
  induction h with
  | nil => rfl
  | cons hex _ ih =>
      show _ :: Dict.keys _ = _ :: Dict.keys _
      rw [hex.1, ih]

theorem FitsEntries.exists_mem (h : FitsEntries Q parameters point) {e : String × ParamSpec}
    (he : e ∈ parameters) : ∃ v, (e.1, v) ∈ point ∧ Q e.2 v := by
  induction h with
  | nil => cases he
  | @cons e' x _ _ hex _ ih =>
      rcases List.mem_cons.mp he with rfl | he
      · exact ⟨x.2, by rw [← hex.1]; exact List.mem_cons_self, hex.2⟩
      · obtain ⟨v, hv, hQ⟩ := ih he
        exact ⟨v, List.mem_cons_of_mem _ hv, hQ⟩

theorem FitsEntries.lookup (h : FitsEntries Q parameters point)
    (hnodup : (Dict.keys parameters).Nodup) {e : String × ParamSpec} (he : e ∈ parameters) :
    ∃ v, point.lookup e.1 = .ok v ∧ Q e.2 v := by
  obtain ⟨v, hv, hQ⟩ := h.exists_mem he
  rw [← h.keys] at hnodup
  have hget : Dict.get? point e.1 = some v := Dict.get?_of_mem hnodup hv
  refine ⟨v, ?_, hQ⟩
  unfold Point.lookup
  rw [hget]

/-- Writing a value of its specification to a parameter leaves the point what it was. -/
theorem FitsEntries.set (h : FitsEntries Q parameters point)
    (hnodup : (Dict.keys parameters).Nodup) {e : String × ParamSpec} (he : e ∈ parameters)
    {v : Value} (hv : Q e.2 v) : FitsEntries Q parameters (Dict.set point e.1 v) := by
  have honly : ∀ e' ∈ parameters, e'.1 = e.1 → Q e'.2 v := by
    intro e' he' hkey
    obtain rfl : e' = e := List.inj_on_of_nodup_map hnodup he' he hkey
    exact hv
  have hkey : e.1 ∈ Dict.keys point := by
    rw [h.keys]
    exact List.mem_map_of_mem he
  unfold Dict.set
  rw [if_pos hkey]
  clear hnodup he hkey
  induction h with
  | nil => exact List.Forall₂.nil
  | @cons e' x _ _ hex _ ih =>
      refine List.Forall₂.cons ?_ (ih fun e'' he'' => honly e'' (List.mem_cons_of_mem _ he''))
      dsimp only
      by_cases hx : x.1 = e.1
      · rw [if_pos hx]
        exact ⟨hx.symm.trans hex.1, honly e' List.mem_cons_self (hex.1.symm.trans hx)⟩
      · rw [if_neg hx]
        exact hex

theorem fitsEntries_sample {rng : Rng ρ}
    (h : ∀ e ∈ parameters, ∀ s, Q e.2 (e.2.sample rng s).1) (s : ρ) :
    FitsEntries Q parameters (mapDraw (fun (e : String × ParamSpec) s =>
      ((e.1, (e.2.sample rng s).1), (e.2.sample rng s).2)) parameters s).1 := by
  induction parameters generalizing s with
  | nil => exact List.Forall₂.nil
  | cons e parameters ih =>
      exact List.Forall₂.cons ⟨rfl, h e List.mem_cons_self s⟩
        (ih (fun e' he' => h e' (List.mem_cons_of_mem _ he')) _)

theorem fitsEntries_productGrid {steps : ℕ}
    (h : ∀ e ∈ parameters, ∀ v ∈ e.2.gridValues steps, Q e.2 v) :
    ∀ point ∈ SearchSpace.productGrid steps parameters, FitsEntries Q parameters point := by
  induction parameters with
  | nil =>
      intro point hpoint
      obtain rfl := List.mem_singleton.mp hpoint
      exact List.Forall₂.nil
  | cons e parameters ih =>
      intro point hpoint
      obtain ⟨v, hv, hpoint⟩ := List.mem_flatMap.mp hpoint
      obtain ⟨rest, hrest, rfl⟩ := List.mem_map.mp hpoint
      exact List.Forall₂.cons ⟨rfl, h e List.mem_cons_self v hv⟩
        (ih (fun e' he' => h e' (List.mem_cons_of_mem _ he')) rest hrest)

end

/-! ## Moves -/

namespace SearchSpace

variable {Q : ParamSpec → Value → Prop} {space : SearchSpace} {rng : Rng ρ}

theorem fits_sample (h : ∀ e ∈ space.parameters, ∀ s, Q e.2 (e.2.sample rng s).1) (s : ρ) :
    space.Fits Q (space.sample rng s).1 := fitsEntries_sample h s

variable (rng) in
theorem fits_crossover {a b : Point} (ha : space.Fits Q a) (hb : space.Fits Q b) (s : ρ) :
    ∃ child s', space.crossover rng a b s = .ok (child, s') ∧ space.Fits Q child := by
  -- parameter by parameter, over any part of the parameters
  have hpart : ∀ parameters : Dict String ParamSpec, parameters ⊆ space.parameters → ∀ s,
      ∃ child, (mapDraw (fun name s =>
          ((name, decide ((rng.random s).1 < 1 / 2)), (rng.random s).2))
            (Dict.keys parameters) s).1.mapM (fun (e : String × Bool) => do
              let v ← (if e.2 then a else b).lookup e.1
              return (e.1, v)) = (.ok child : Except String Point) ∧
        FitsEntries Q parameters child := by
    intro parameters
    induction parameters with
    | nil => exact fun _ s => ⟨[], rfl, List.Forall₂.nil⟩
    | cons e parameters ih =>
        intro hsub s
        obtain ⟨he, hsub⟩ := List.cons_subset.mp hsub
        obtain ⟨rest, hrest, hfits⟩ := ih hsub (rng.random s).2
        obtain ⟨v, hv, hQ⟩ : ∃ v,
            (if decide ((rng.random s).1 < 1 / 2) then a else b).lookup e.1 = .ok v ∧
              Q e.2 v := by
          split_ifs
          · exact FitsEntries.lookup ha space.nodup he
          · exact FitsEntries.lookup hb space.nodup he
        refine ⟨(e.1, v) :: rest, ?_, List.Forall₂.cons ⟨rfl, hQ⟩ hfits⟩
        show List.mapM _ ((e.1, decide ((rng.random s).1 < 1 / 2)) :: _) = _
        rw [List.mapM_cons]
        exact bind_eq_ok.mpr
          ⟨_, bind_eq_ok.mpr ⟨v, hv, rfl⟩, bind_eq_ok.mpr ⟨rest, hrest, rfl⟩⟩
  obtain ⟨child, hchild, hfits⟩ := hpart space.parameters (List.Subset.refl _) s
  refine ⟨child, (mapDraw (fun name s =>
    ((name, decide ((rng.random s).1 < 1 / 2)), (rng.random s).2))
      (Dict.keys space.parameters) s).2, ?_, hfits⟩
  unfold SearchSpace.crossover
  exact bind_eq_ok.mpr ⟨child, hchild, rfl⟩

theorem fits_perturb (h : ∀ e ∈ space.parameters, ParamSpec.Stable rng Q e.2)
    (hne : space.parameters ≠ []) {point : Point} (hpoint : space.Fits Q point)
    (strength : ℚ) (s : ρ) :
    ∃ moved s', space.perturb rng point s strength = .ok (moved, s') ∧ space.Fits Q moved := by
  have hchosen : (rng.choice space.parameters hne s).1 ∈ space.parameters := List.get_mem _ _
  unfold SearchSpace.perturb
  rw [dif_neg hne]
  generalize rng.choice space.parameters hne s = chosen at hchosen
  obtain ⟨⟨name, spec⟩, s⟩ := chosen
  have hstable : ParamSpec.Stable rng Q spec := h _ hchosen
  obtain ⟨v, hlookup, hQ⟩ := FitsEntries.lookup hpoint space.nodup hchosen
  have hset := fun v' => FitsEntries.set (v := v') hpoint space.nodup hchosen
  cases spec with
  | categorical values hv =>
      exact ⟨_, _, rfl, hset _ (hstable.redraw values hv rfl _ (List.get_mem _ _))⟩
  | float lo hi hlt =>
      obtain ⟨q, hq⟩ := hstable.number trivial v hQ
      simp only [hlookup, ok_bind, hq]
      exact ⟨_, _, rfl, hset _ (hstable.clamp trivial _ _ rfl)⟩
  | integer lo hi hlt =>
      obtain ⟨q, hq⟩ := hstable.number trivial v hQ
      simp only [hlookup, ok_bind, hq]
      exact ⟨_, _, rfl, hset _ (hstable.clamp trivial _ _ rfl)⟩

end SearchSpace

end NeuroForge
