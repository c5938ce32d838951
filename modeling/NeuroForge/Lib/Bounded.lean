/-
  Numbers that are kept in a range: clamping, and how far a sample in a range can spread.

  Clamping is monotone and brings no two numbers further apart (`clamp_mono`, `clamp_sub_le`).
  The mean of a sample is in every range that its values are in (`mean_between`), and its
  variance is at most the square of half the width (`variance_le`).
-/
import NeuroForge.Lib.Sample
import Mathlib.Tactic.FieldSimp
import Mathlib.Tactic.Ring

namespace Bounded

open Sample

/-! ## Clamping -/

section
variable {lo hi x y : ℚ}

/-- `min(hi, max(lo, x))` -/
def clamp (lo hi x : ℚ) : ℚ := min hi (max lo x)

theorem clamp_le (lo hi x : ℚ) : clamp lo hi x ≤ hi := min_le_left _ _

theorem le_clamp (h : lo ≤ hi) (x : ℚ) : lo ≤ clamp lo hi x := le_min h (le_max_left _ _)

theorem clamp_mono (h : x ≤ y) : clamp lo hi x ≤ clamp lo hi y :=
  min_le_min_left hi (max_le_max_left lo h)

theorem clamp_of_mem (hlo : lo ≤ x) (hhi : x ≤ hi) : clamp lo hi x = x := by
  rw [clamp, max_eq_right hlo, min_eq_right hhi]

theorem clamp_sub_le (h : x ≤ y) : clamp lo hi y - clamp lo hi x ≤ y - x := by
  have hmax : max lo y - max lo x ≤ y - x := by
    rcases le_total lo x with hx | hx
    · rw [max_eq_right hx, max_eq_right (hx.trans h)]
    · rw [max_eq_left hx]
      rcases le_total lo y with hy | hy
      · rw [max_eq_right hy]
        linarith
      · rw [max_eq_left hy]
        linarith
  have hle : max lo x ≤ max lo y := max_le_max_left lo h
  unfold clamp
  rcases le_total hi (max lo x) with hx | hx
  · rw [min_eq_left hx, min_eq_left (hx.trans hle)]
    linarith
  · rw [min_eq_right hx]
    linarith [min_le_right hi (max lo y)]

end

/-! ## Spread -/

/-- The mean of the squared distances from the mean. -/
def variance (xs : List ℚ) : ℚ := mean (xs.map fun x => (x - mean xs) ^ 2)

section
variable {xs : List ℚ} {lo hi : ℚ}

theorem mean_between (hne : xs ≠ []) (h : ∀ x ∈ xs, lo ≤ x ∧ x ≤ hi) :
    lo ≤ mean xs ∧ mean xs ≤ hi := by
  have hpos : (0 : ℚ) < xs.length := by exact_mod_cast List.length_pos_iff.mpr hne
  have hlo : xs.length • lo ≤ xs.sum := List.card_nsmul_le_sum xs lo fun x hx => (h x hx).1
  have hhi : xs.sum ≤ xs.length • hi := List.sum_le_card_nsmul xs hi fun x hx => (h x hx).2
  rw [nsmul_eq_mul] at hlo hhi
  unfold mean
  constructor
  · rw [le_div_iff₀ hpos]
    linarith
  · rw [div_le_iff₀ hpos]
    linarith

/-- Squared distances from another point. -/
theorem sum_sq_sub (xs : List ℚ) (a b : ℚ) :
    (xs.map fun x => (x - a) ^ 2).sum =
      (xs.map fun x => (x - b) ^ 2).sum + 2 * (b - a) * (xs.sum - xs.length * b) +
        xs.length * (b - a) ^ 2 := by
  induction xs with
  | nil => simp
  | cons x xs ih =>
      simp only [List.map_cons, List.sum_cons, List.length_cons, Nat.cast_add, Nat.cast_one, ih]
      ring

theorem variance_le (h : ∀ x ∈ xs, lo ≤ x ∧ x ≤ hi) :
    variance xs ≤ ((hi - lo) / 2) ^ 2 := by
  rcases eq_or_ne xs [] with rfl | hne
  · have hzero : variance [] = 0 := by
      unfold variance mean
      simp
    rw [hzero]
    positivity
  have hpos : (0 : ℚ) < xs.length := by exact_mod_cast List.length_pos_iff.mpr hne
  -- no point is nearer to a sample than its mean, and the middle of the range is near enough
  have hmiddle : (xs.map fun x => (x - (lo + hi) / 2) ^ 2).sum ≤
      xs.length * ((hi - lo) / 2) ^ 2 := by
    have hall : ∀ d ∈ xs.map (fun x => (x - (lo + hi) / 2) ^ 2), d ≤ ((hi - lo) / 2) ^ 2 := by
      intro d hd
      obtain ⟨x, hx, rfl⟩ := List.mem_map.mp hd
      obtain ⟨hlo, hhi⟩ := h x hx
      exact sq_le_sq' (by linarith) (by linarith)
    have hsum := List.sum_le_card_nsmul _ _ hall
    rwa [List.length_map, nsmul_eq_mul] at hsum
  have hsplit := sum_sq_sub xs (mean xs) ((lo + hi) / 2)
  have hmean : xs.sum = xs.length * mean xs := by
    unfold mean
    field_simp
  have hnonneg : (0 : ℚ) ≤ xs.length * ((lo + hi) / 2 - mean xs) ^ 2 := by positivity
  have hsum : (xs.map fun x => (x - mean xs) ^ 2).sum ≤ xs.length * ((hi - lo) / 2) ^ 2 := by
    calc (xs.map fun x => (x - mean xs) ^ 2).sum
        = (xs.map fun x => (x - (lo + hi) / 2) ^ 2).sum -
            xs.length * ((lo + hi) / 2 - mean xs) ^ 2 := by rw [hsplit, hmean]; ring
      _ ≤ xs.length * ((hi - lo) / 2) ^ 2 := by linarith
  have hvariance : variance xs = (xs.map fun x => (x - mean xs) ^ 2).sum / xs.length := by
    rw [variance, mean, List.length_map]
  rw [hvariance, div_le_iff₀ hpos]
  linarith

end

end Bounded
