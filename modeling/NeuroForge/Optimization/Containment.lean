/-
  When a search stays in its declared space.

  Four producers round in four ways: sampling an integer truncates the bounds, clamping
  rounds after it has clamped, a float is rounded to 4 decimals everywhere, the grid of an
  integer truncates what it has rounded. Each is monotone, so that all values lie between
  what becomes of the two bounds; and each bound is reached. So the points stay inside
  exactly when no producer moves a bound outwards (`RoundsInward`).

  For "only if", a generator that always draws the same number and the same position
  (`constantRng`) steers a move to one parameter and to either end of its range.
-/
import NeuroForge.Optimization.Points

namespace NeuroForge

open Fallible Rounding

variable {ρ : Type}

/-! ## Truncation -/

theorem truncInt_neg (q : ℚ) : truncInt (-q) = -truncInt q := by
  unfold truncInt
  rw [Rat.num_neg_eq_neg_num, Rat.den_neg_eq_den, Int.neg_tdiv]

theorem truncInt_of_nonneg {q : ℚ} (h : 0 ≤ q) : truncInt q = ⌊q⌋ := by
  unfold truncInt
  rw [Rat.floor_def', Int.tdiv_eq_ediv_of_nonneg (Rat.num_nonneg.mpr h)]

theorem truncInt_nonneg {q : ℚ} (h : 0 ≤ q) : 0 ≤ truncInt q := by
  rw [truncInt_of_nonneg h]
  exact Int.floor_nonneg.mpr h

theorem truncInt_intCast (z : ℤ) : truncInt (z : ℚ) = z := by
  simp [truncInt]

theorem truncInt_mono {q r : ℚ} (h : q ≤ r) : truncInt q ≤ truncInt r := by
  rcases le_total 0 q with hq | hq
  · rw [truncInt_of_nonneg hq, truncInt_of_nonneg (hq.trans h)]
    exact Int.floor_mono h
  · have hq' := truncInt_nonneg (neg_nonneg.mpr hq)
    rw [truncInt_neg] at hq'
    rcases le_total 0 r with hr | hr
    · have hr' := truncInt_nonneg hr
      omega
    · -- both negative: truncation is odd
      have hfloor : ⌊-r⌋ ≤ ⌊-q⌋ := Int.floor_mono (neg_le_neg h)
      rw [← truncInt_of_nonneg (neg_nonneg.mpr hq), ← truncInt_of_nonneg (neg_nonneg.mpr hr),
        truncInt_neg, truncInt_neg] at hfloor
      omega

/-! ## Values inside their range -/

/-- What the declaration of a parameter promises of a value. -/
def Within : ParamSpec → Value → Prop
  | .float lo hi _, v => ∃ q, v = .float q ∧ lo ≤ q ∧ q ≤ hi
  | .integer lo hi _, v => ∃ z : ℤ, v = .int z ∧ lo ≤ z ∧ z ≤ hi
  | .categorical values _, v => v ∈ values

/-- No producer of values moves a bound of the parameter outwards. -/
def ParamSpec.RoundsInward : ParamSpec → Prop
  | .float lo hi _ => lo ≤ roundTo 4 lo ∧ roundTo 4 hi ≤ hi
  | .integer lo hi _ =>
      lo ≤ truncInt lo ∧ truncInt hi ≤ hi ∧ lo ≤ roundHalfEven lo ∧ roundHalfEven hi ≤ hi
  | .categorical _ _ => True

/-- The points that come about by sampling, perturbing and crossing, from any states of the
    generator. -/
inductive Reached (rng : Rng ρ) (space : SearchSpace) : Point → Prop where
  | sample (s : ρ) : Reached rng space (space.sample rng s).1
  | perturb {p moved : Point} {s s' : ρ} {strength : ℚ} (hp : Reached rng space p)
      (h : space.perturb rng p s strength = .ok (moved, s')) : Reached rng space moved
  | crossover {a b child : Point} {s s' : ρ} (ha : Reached rng space a)
      (hb : Reached rng space b) (h : space.crossover rng a b s = .ok (child, s')) :
      Reached rng space child

/-- Every point the search comes by has the parameters of the space, each within its
    declaration. -/
def SearchSpace.StaysWithin (space : SearchSpace) : Prop :=
  (∀ (ρ : Type) (rng : Rng ρ), rng.Lawful → ∀ p, Reached rng space p → space.Fits Within p) ∧
    ∀ steps, ∀ p ∈ space.iterGrid steps, space.Fits Within p

/-! ## Enough -/

section
variable {lo hi : ℚ}

theorem roundTo_between (hlo : lo ≤ roundTo 4 lo) (hhi : roundTo 4 hi ≤ hi) {q : ℚ}
    (hq : lo ≤ q) (hq' : q ≤ hi) : lo ≤ roundTo 4 q ∧ roundTo 4 q ≤ hi :=
  ⟨hlo.trans (roundTo_mono 4 hq), (roundTo_mono 4 hq').trans hhi⟩

theorem clamped_between (h : lo < hi) (q : ℚ) :
    lo ≤ max lo (min hi q) ∧ max lo (min hi q) ≤ hi :=
  ⟨le_max_left _ _, max_le h.le (min_le_left _ _)⟩

/-- The draw of an integer parameter is between the truncated bounds. -/
theorem randint_between (rng : Rng ρ) (h : lo < hi) (s : ρ) :
    truncInt lo ≤ (rng.randint (truncInt lo) (truncInt hi) s).1 ∧
      (rng.randint (truncInt lo) (truncInt hi) s).1 ≤ truncInt hi := by
  have hmono := truncInt_mono h.le
  have hlt := (rng.randbelow ((truncInt hi - truncInt lo).toNat + 1) (Nat.succ_pos _) s).1.isLt
  show truncInt lo ≤ truncInt lo + _ ∧ truncInt lo + _ ≤ truncInt hi
  omega

end

theorem within_sample {rng : Rng ρ} (hrng : rng.Lawful) {spec : ParamSpec}
    (h : spec.RoundsInward) (s : ρ) : Within spec (spec.sample rng s).1 := by
  cases spec with
  | float lo hi hlt =>
      obtain ⟨hlo, hhi⟩ := h
      obtain ⟨hu, hu'⟩ := hrng s
      have hspan : 0 < hi - lo := sub_pos.mpr hlt
      have hge : lo ≤ lo + (hi - lo) * (rng.random s).1 := by nlinarith
      have hle : lo + (hi - lo) * (rng.random s).1 ≤ hi := by nlinarith
      exact ⟨_, rfl, roundTo_between hlo hhi hge hle⟩
  | integer lo hi hlt =>
      obtain ⟨hlo, hhi, -, -⟩ := h
      obtain ⟨hge, hle⟩ := randint_between rng hlt s
      refine ⟨_, rfl, hlo.trans ?_, le_trans ?_ hhi⟩
      · exact_mod_cast hge
      · exact_mod_cast hle
  | categorical values hne => exact List.get_mem _ _

theorem within_clamp {spec : ParamSpec} (h : spec.RoundsInward) (hnumeric : spec.Numeric)
    {q : ℚ} {v : Value} (hv : spec.clamp (.float q) = .ok v) : Within spec v := by
  cases spec with
  | float lo hi hlt =>
      obtain rfl := Except.ok.inj hv
      obtain ⟨hge, hle⟩ := clamped_between hlt q
      exact ⟨_, rfl, roundTo_between h.1 h.2 hge hle⟩
  | integer lo hi hlt =>
      obtain rfl := Except.ok.inj hv
      obtain ⟨-, -, hlo, hhi⟩ := h
      obtain ⟨hge, hle⟩ := clamped_between hlt q
      refine ⟨_, rfl, hlo.trans ?_, le_trans ?_ hhi⟩
      · exact_mod_cast roundHalfEven_mono hge
      · exact_mod_cast roundHalfEven_mono hle
  | categorical values hne => exact hnumeric.elim

theorem stable_within {rng : Rng ρ} (hrng : rng.Lawful) {spec : ParamSpec}
    (h : spec.RoundsInward) : ParamSpec.Stable rng Within spec where
  sample := within_sample hrng h
  number hnumeric v hv := by
    cases spec with
    | float lo hi hlt =>
        obtain ⟨q, rfl, -⟩ := hv
        exact ⟨q, rfl⟩
    | integer lo hi hlt =>
        obtain ⟨z, rfl, -⟩ := hv
        exact ⟨z, rfl⟩
    | categorical values hne => exact hnumeric.elim
  clamp hnumeric q v hv := within_clamp h hnumeric hv
  redraw values hne hspec v hv := by
    rw [hspec]
    exact hv

/-- The step of the integer grid: `i` of `n` parts of the span, rounded. -/
theorem gridStep_between {span : ℤ} (hspan : 0 ≤ span) {n : ℤ} {i : ℕ} (hi : (i : ℤ) < n) :
    0 ≤ roundHalfEven ((i : ℚ) * span / (max 1 (n - 1) : ℤ)) ∧
      roundHalfEven ((i : ℚ) * span / (max 1 (n - 1) : ℤ)) ≤ span := by
  have hpos : (0 : ℚ) < (max 1 (n - 1) : ℤ) := by
    exact_mod_cast lt_of_lt_of_le Int.one_pos (le_max_left 1 (n - 1))
  have hle : (i : ℚ) ≤ (max 1 (n - 1) : ℤ) := by
    have hint : (i : ℤ) ≤ max 1 (n - 1) := by omega
    exact_mod_cast hint
  have hspan' : (0 : ℚ) ≤ span := by exact_mod_cast hspan
  have hge : (0 : ℤ) ≤ (i : ℚ) * span / (max 1 (n - 1) : ℤ) := by
    rw [Int.cast_zero]
    positivity
  have hmul : (i : ℚ) * span / (max 1 (n - 1) : ℤ) ≤ span := by
    rw [div_le_iff₀ hpos, mul_comm]
    exact mul_le_mul_of_nonneg_left hle hspan'
  have hge' := roundHalfEven_mono hge
  have hle' := roundHalfEven_mono hmul
  rw [roundHalfEven_intCast] at hge' hle'
  exact ⟨hge', hle'⟩

theorem within_gridValues {spec : ParamSpec} (h : spec.RoundsInward) (steps : ℕ) :
    ∀ v ∈ spec.gridValues steps, Within spec v := by
  intro v hv
  cases spec with
  | categorical values hne => exact hv
  | float lo hi hlt =>
      obtain ⟨hlo, hhi⟩ := h
      unfold ParamSpec.gridValues at hv
      dsimp only at hv
      split_ifs at hv with hsteps
      · rw [List.mem_singleton] at hv
        exact ⟨_, hv, roundTo_between hlo hhi (by linarith) (by linarith)⟩
      · simp only [List.mem_map, List.bind_eq_flatMap, List.pure_def, List.mem_flatMap,
          List.mem_singleton, List.mem_range] at hv
        obtain ⟨_, ⟨i, hi', rfl⟩, rfl⟩ := hv
        have hpos : (0 : ℚ) < steps - 1 := by
          have : (1 : ℚ) < steps := by exact_mod_cast (by omega : 1 < steps)
          linarith
        have hle : (i : ℚ) ≤ steps - 1 := by
          have : ((i + 1 : ℕ) : ℚ) ≤ steps := by exact_mod_cast hi'
          push_cast at this
          linarith
        have hspan : 0 ≤ hi - lo := by linarith
        have hge0 : 0 ≤ i * (hi - lo) / (steps - 1 : ℚ) := by positivity
        have hle1 : i * (hi - lo) / (steps - 1 : ℚ) ≤ hi - lo := by
          rw [div_le_iff₀ hpos, mul_comm]
          exact mul_le_mul_of_nonneg_left hle hspan
        exact ⟨_, rfl, roundTo_between hlo hhi (by linarith) (by linarith)⟩
  | integer lo hi hlt =>
      obtain ⟨hlo, hhi, -, -⟩ := h
      unfold ParamSpec.gridValues at hv
      simp only [List.mem_map, List.mem_insertionSort, List.mem_dedup, List.bind_eq_flatMap,
        List.pure_def, List.mem_flatMap, List.mem_singleton, List.mem_range] at hv
      obtain ⟨z, ⟨_, ⟨i, hi', rfl⟩, rfl⟩, rfl⟩ := hv
      have hspan : 0 ≤ truncInt hi - truncInt lo := sub_nonneg.mpr (truncInt_mono hlt.le)
      obtain ⟨hk, hk'⟩ := gridStep_between hspan (i := i)
        (n := min (steps : ℤ) (truncInt hi - truncInt lo + 1)) (by omega)
      refine ⟨_, rfl, hlo.trans ?_, le_trans ?_ hhi⟩
      · have hge : lo ≤ lo + roundHalfEven ((i : ℚ) * (truncInt hi - truncInt lo : ℤ) /
            (max 1 (min (steps : ℤ) (truncInt hi - truncInt lo + 1) - 1) : ℤ)) := by
          have : (0 : ℚ) ≤ roundHalfEven ((i : ℚ) * (truncInt hi - truncInt lo : ℤ) /
            (max 1 (min (steps : ℤ) (truncInt hi - truncInt lo + 1) - 1) : ℤ)) := by
            exact_mod_cast hk
          linarith
        exact_mod_cast truncInt_mono hge
      · have hle : lo + roundHalfEven ((i : ℚ) * (truncInt hi - truncInt lo : ℤ) /
            (max 1 (min (steps : ℤ) (truncInt hi - truncInt lo + 1) - 1) : ℤ)) ≤
              (truncInt hi : ℤ) := by
          have : (roundHalfEven ((i : ℚ) * (truncInt hi - truncInt lo : ℤ) /
            (max 1 (min (steps : ℤ) (truncInt hi - truncInt lo + 1) - 1) : ℤ)) : ℚ) ≤
              (truncInt hi - truncInt lo : ℤ) := by
            exact_mod_cast hk'
          push_cast at this ⊢
          linarith
        have hmono := truncInt_mono hle
        rw [truncInt_intCast] at hmono
        exact_mod_cast hmono

theorem staysWithin_of_roundsInward {space : SearchSpace}
    (h : ∀ e ∈ space.parameters, e.2.RoundsInward) : space.StaysWithin := by
  refine ⟨fun ρ rng hrng p hp => ?_, fun steps => ?_⟩
  · have hstable : ∀ e ∈ space.parameters, ParamSpec.Stable rng Within e.2 :=
      fun e he => stable_within hrng (h e he)
    induction hp with
    | sample s => exact SearchSpace.fits_sample (fun e he => (hstable e he).sample) s
    | @perturb p moved s s' strength hp hmove ih =>
        have hne : space.parameters ≠ [] := by
          intro hnil
          unfold SearchSpace.perturb at hmove
          rw [dif_pos hnil] at hmove
          cases hmove
        obtain ⟨moved', s₁, hmove', hfits⟩ := SearchSpace.fits_perturb hstable hne ih strength s
        obtain ⟨rfl, -⟩ := Prod.mk.inj (Except.ok.inj (hmove.symm.trans hmove'))
        exact hfits
    | @crossover a b child s s' ha hb hcross iha ihb =>
        obtain ⟨child', s₁, hcross', hfits⟩ := SearchSpace.fits_crossover rng iha ihb s
        obtain ⟨rfl, -⟩ := Prod.mk.inj (Except.ok.inj (hcross.symm.trans hcross'))
        exact hfits
  · exact fitsEntries_productGrid fun e he => within_gridValues (h e he) steps

/-! ## Needed -/

section
variable {space : SearchSpace} {e : String × ParamSpec}

theorem SearchSpace.Fits.within {p : Point} (h : space.Fits Within p)
    (he : e ∈ space.parameters) {v : Value} (hv : p.lookup e.1 = .ok v) : Within e.2 v := by
  obtain ⟨v', hv', hwithin⟩ := FitsEntries.lookup h space.nodup he
  obtain rfl := Except.ok.inj (hv.symm.trans hv')
  exact hwithin

theorem within_sample_of_staysWithin (h : space.StaysWithin) (he : e ∈ space.parameters) {r : ℚ}
    (hr : 0 ≤ r) (hr' : r < 1) (j : ℕ) : Within e.2 (e.2.sample (constantRng r j) ()).1 := by
  have hfits := h.1 Unit (constantRng r j) (constantRng_lawful hr hr' j) _ (.sample ())
  -- the sampled point holds at `e` what `e` alone would draw
  have hdrawn : space.Fits (fun spec v => v = (spec.sample (constantRng r j) ()).1)
      (space.sample (constantRng r j) ()).1 :=
    SearchSpace.fits_sample (fun _ _ _ => rfl) ()
  obtain ⟨v, hv, hdraw⟩ := FitsEntries.lookup hdrawn space.nodup he
  rw [← hdraw]
  exact hfits.within he hv

/-- A parameter with these bounds. -/
def ParamSpec.HasBounds (spec : ParamSpec) (lo hi : ℚ) : Prop :=
  (∃ h, spec = .float lo hi h) ∨ ∃ h, spec = .integer lo hi h

theorem perturb_chosen {rng : Rng Unit} (hne : space.parameters ≠ [])
    (hchoice : (rng.choice space.parameters hne ()).1 = e) {lo hi : ℚ}
    (hspec : e.2.HasBounds lo hi) {p : Point} {v v' : Value} {q : ℚ}
    (hlookup : p.lookup e.1 = .ok v) (hq : v.num? = some q) (strength : ℚ)
    (hclamp : e.2.clamp (.float (q + (rng.uniform (-strength) strength ()).1 * (hi - lo))) =
      .ok v') :
    space.perturb rng p () strength = .ok (Dict.set p e.1 v', ()) := by
  unfold SearchSpace.perturb
  rw [dif_neg hne]
  dsimp only
  rw [hchoice]
  rcases hspec with ⟨h, hfloat⟩ | ⟨h, hinteger⟩
  · rw [hfloat] at hclamp ⊢
    dsimp only
    rw [hlookup, ok_bind, hq]
    exact bind_eq_ok.mpr ⟨v', hclamp, rfl⟩
  · rw [hinteger] at hclamp ⊢
    dsimp only
    rw [hlookup, ok_bind, hq]
    exact bind_eq_ok.mpr ⟨v', hclamp, rfl⟩

/-- Where the search stays inside, both clamped bounds are inside: a move of strength 2 takes
    any value of the range beyond either end. -/
theorem within_clamp_of_staysWithin (h : space.StaysWithin) (he : e ∈ space.parameters)
    {lo hi : ℚ} (hspec : e.2.HasBounds lo hi) (hlt : lo < hi)
    (hrange : ∀ v, Within e.2 v → ∃ q, v.num? = some q ∧ lo ≤ q ∧ q ≤ hi)
    (hclamps : ∀ q q', max lo (min hi q) = max lo (min hi q') →
      e.2.clamp (.float q) = e.2.clamp (.float q')) {v : Value}
    (hv : e.2.clamp (.float lo) = .ok v ∨ e.2.clamp (.float hi) = .ok v) : Within e.2 v := by
  have hne : space.parameters ≠ [] := List.ne_nil_of_mem he
  obtain ⟨j, hchoice⟩ := exists_choice_eq he
  -- a move with the draw `r` from a sampled point
  have hmove : ∀ r, 0 ≤ r → r < 1 → ∃ q, lo ≤ q ∧ q ≤ hi ∧ ∀ v,
      e.2.clamp (.float (q + (-2 + (2 - -2) * r) * (hi - lo))) = .ok v → Within e.2 v := by
    intro r hr hr'
    have hlawful := constantRng_lawful hr hr' j
    have hsample : Reached (constantRng r j) space (space.sample (constantRng r j) ()).1 :=
      .sample ()
    have hfits := h.1 Unit (constantRng r j) hlawful _ hsample
    obtain ⟨v₀, hlookup, hwithin⟩ := FitsEntries.lookup hfits space.nodup he
    obtain ⟨q, hq, hge, hle⟩ := hrange v₀ hwithin
    refine ⟨q, hge, hle, fun v hclamp => ?_⟩
    have hperturb := perturb_chosen hne (hchoice r hne) hspec hlookup hq 2 hclamp
    have hmoved := h.1 Unit (constantRng r j) hlawful _ (hsample.perturb hperturb)
    refine hmoved.within he ?_
    unfold Point.lookup
    rw [Dict.get?_set_self]
  rcases hv with hv | hv
  · obtain ⟨q, -, hle, hmove⟩ := hmove 0 le_rfl one_pos
    have hbelow : q + (-2 + (2 - -2) * 0) * (hi - lo) ≤ lo := by linarith
    refine hmove v ((hclamps _ _ ?_).trans hv)
    rw [min_eq_right (hbelow.trans hlt.le), max_eq_left hbelow, min_eq_right hlt.le, max_self]
  · obtain ⟨q, hge, -, hmove⟩ := hmove (3 / 4) (by norm_num) (by norm_num)
    have habove : hi ≤ q + (-2 + (2 - -2) * (3 / 4)) * (hi - lo) := by linarith
    refine hmove v ((hclamps _ _ ?_).trans hv)
    rw [min_eq_left habove, min_self]

theorem roundsInward_of_staysWithin (h : space.StaysWithin) (he : e ∈ space.parameters) :
    e.2.RoundsInward := by
  obtain ⟨name, spec⟩ := e
  cases spec with
  | categorical values hne => trivial
  | float lo hi hlt =>
      have hbounds : (ParamSpec.float lo hi hlt).HasBounds lo hi := Or.inl ⟨hlt, rfl⟩
      have hclamped := fun v => within_clamp_of_staysWithin (v := v) h he hbounds hlt
        (fun v ⟨q, hv, hge, hle⟩ => ⟨q, by rw [hv]; rfl, hge, hle⟩)
        fun q q' hsame => by
          show Except.ok (Value.float (roundTo 4 (max lo (min hi q)))) = _
          rw [hsame]
          rfl
      obtain ⟨q, hq, hge, -⟩ := hclamped _ (Or.inl rfl)
      obtain ⟨q', hq', -, hle⟩ := hclamped _ (Or.inr rfl)
      rw [min_eq_right hlt.le, max_self] at hq
      rw [min_self, max_eq_right hlt.le] at hq'
      cases hq
      cases hq'
      exact ⟨hge, hle⟩
  | integer lo hi hlt =>
      have hbounds : (ParamSpec.integer lo hi hlt).HasBounds lo hi := Or.inr ⟨hlt, rfl⟩
      have hclamped := fun v => within_clamp_of_staysWithin (v := v) h he hbounds hlt
        (fun v ⟨z, hv, hge, hle⟩ => ⟨z, by rw [hv]; rfl, hge, hle⟩)
        fun q q' hsame => by
          show Except.ok (Value.int (roundHalfEven (max lo (min hi q)))) = _
          rw [hsame]
          rfl
      obtain ⟨z, hz, hge, -⟩ := hclamped _ (Or.inl rfl)
      obtain ⟨z', hz', -, hle⟩ := hclamped _ (Or.inr rfl)
      rw [min_eq_right hlt.le, max_self] at hz
      rw [min_self, max_eq_right hlt.le] at hz'
      cases hz
      cases hz'
      -- the draws at either end of the truncated range
      have hmono := truncInt_mono hlt.le
      have hdraw := fun j => within_sample_of_staysWithin h he (r := 0) le_rfl one_pos j
      obtain ⟨z₁, hz₁, hge₁, -⟩ := hdraw 0
      obtain ⟨z₂, hz₂, -, hle₂⟩ := hdraw (truncInt hi - truncInt lo).toNat
      have hfirst : (ParamSpec.sample (constantRng 0 0) (.integer lo hi hlt) ()).1 =
          .int (truncInt lo) := by
        show Value.int (truncInt lo + ((min 0 _ : ℕ) : ℤ)) = _
        rw [Nat.zero_min]
        simp
      have hlast : (ParamSpec.sample (constantRng 0 (truncInt hi - truncInt lo).toNat)
          (.integer lo hi hlt) ()).1 = .int (truncInt hi) := by
        show Value.int (truncInt lo + ((min (truncInt hi - truncInt lo).toNat
          ((truncInt hi - truncInt lo).toNat + 1 - 1) : ℕ) : ℤ)) = _
        rw [Nat.add_sub_cancel, min_self]
        congr 1
        omega
      cases hfirst.symm.trans hz₁
      cases hlast.symm.trans hz₂
      exact ⟨hge₁, hle₂, hge, hle⟩

end

/-- **Containment.** Every point of the search, by any moves and on any grid, has the space's
    parameters with values in their declared ranges, exactly when rounding and truncating move
    no declared bound outwards. -/
theorem SearchSpace.staysWithin_iff (space : SearchSpace) :
    space.StaysWithin ↔ ∀ e ∈ space.parameters, e.2.RoundsInward :=
  ⟨fun h _ he => roundsInward_of_staysWithin h he, staysWithin_of_roundsInward⟩

/-- An integer parameter between one half and one and a half. -/
def fractionalSpace : SearchSpace where
  parameters := [("agent.max_iterations", .integer (1 / 2) (3 / 2) (by norm_num))]

/-- Its bounds are truncated to 0 and 1, so that 0 can be drawn. -/
theorem fractionalSpace_leaves : ¬ fractionalSpace.StaysWithin := by
  intro h
  obtain ⟨hlo, -⟩ := roundsInward_of_staysWithin h List.mem_cons_self
  have hzero : truncInt (1 / 2) = 0 := by decide +kernel
  rw [hzero] at hlo
  norm_num at hlo

end NeuroForge
