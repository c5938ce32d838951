/-
  Rounding of rationals to a number of decimals, ties to even, and fixed-point text.

  `roundHalfEven` is the rounding of `round(x)` and of the `f` and `%` presentation types
  in languages that follow IEEE decimal conversion, on exact values. Both roundings are
  monotone (`roundHalfEven_mono`, `roundTo_mono`), which is all a proof about a rounded
  comparison needs. A proof about a rounded sum needs two facts more: how far a rounding
  goes (`abs_roundTo_sub_le`), and that the decimals are a group that it leaves alone
  (`decimals`, `roundTo_of_mem_decimals`).
-/
import Mathlib.Algebra.Group.Subgroup.ZPowers.Basic
import Mathlib.Data.Int.Log
import Mathlib.Data.List.DropRight
import Mathlib.Data.Rat.Floor
import Mathlib.Tactic.Linarith
import Mathlib.Tactic.Positivity
import Mathlib.Tactic.GCongr

namespace Rounding

/-- The nearest integer, ties to even. -/
def roundHalfEven (q : ℚ) : ℤ :=
  if q - ⌊q⌋ < 1 / 2 then ⌊q⌋
  else if 1 / 2 < q - ⌊q⌋ then ⌊q⌋ + 1
  else if ⌊q⌋ % 2 = 0 then ⌊q⌋ else ⌊q⌋ + 1

/-- The nearest multiple of `10 ^ (-d)`, ties to even. -/
def roundTo (d : ℕ) (q : ℚ) : ℚ := roundHalfEven (q * 10 ^ d) / 10 ^ d

theorem floor_le_roundHalfEven (q : ℚ) : ⌊q⌋ ≤ roundHalfEven q := by
  unfold roundHalfEven
  split_ifs <;> omega

theorem roundHalfEven_le_floor_succ (q : ℚ) : roundHalfEven q ≤ ⌊q⌋ + 1 := by
  unfold roundHalfEven
  split_ifs <;> omega

theorem roundHalfEven_mono {q r : ℚ} (h : q ≤ r) : roundHalfEven q ≤ roundHalfEven r := by
  rcases (Int.floor_mono h).lt_or_eq with hlt | heq
  · calc roundHalfEven q ≤ ⌊q⌋ + 1 := roundHalfEven_le_floor_succ q
      _ ≤ ⌊r⌋ := hlt
      _ ≤ roundHalfEven r := floor_le_roundHalfEven r
  · -- same integer part: the fractional parts are ordered as `q` and `r` are
    have hfrac : q - ⌊q⌋ ≤ r - ⌊q⌋ := by linarith
    unfold roundHalfEven
    rw [← heq]
    split_ifs <;> first | omega | (exfalso; linarith)

theorem roundTo_mono (d : ℕ) {q r : ℚ} (h : q ≤ r) : roundTo d q ≤ roundTo d r := by
  unfold roundTo
  have hmul : q * 10 ^ d ≤ r * 10 ^ d := by gcongr
  have hround : (roundHalfEven (q * 10 ^ d) : ℚ) ≤ roundHalfEven (r * 10 ^ d) := by
    exact_mod_cast roundHalfEven_mono hmul
  gcongr

theorem roundHalfEven_intCast (z : ℤ) : roundHalfEven (z : ℚ) = z := by
  simp [roundHalfEven]

@[simp] theorem roundTo_zero (d : ℕ) : roundTo d 0 = 0 := by
  have h := roundHalfEven_intCast 0
  simp only [Int.cast_zero] at h
  simp [roundTo, h]

/-- Rounding moves a number by half a unit at most. -/
theorem abs_roundHalfEven_sub_le (q : ℚ) : |(roundHalfEven q : ℚ) - q| ≤ 1 / 2 := by
  have hfloor := Int.floor_le q
  have hsucc := Int.lt_floor_add_one q
  unfold roundHalfEven
  rw [abs_le]
  split_ifs <;> push_cast <;> constructor <;> linarith

theorem abs_roundTo_sub_le (d : ℕ) (q : ℚ) : |roundTo d q - q| ≤ 1 / 2 / 10 ^ d := by
  have hpos : (0 : ℚ) < 10 ^ d := by positivity
  have hsub : roundTo d q - q = (roundHalfEven (q * 10 ^ d) - q * 10 ^ d) / 10 ^ d := by
    unfold roundTo
    rw [sub_div, mul_div_cancel_right₀ q hpos.ne']
  rw [hsub, abs_div, abs_of_pos hpos]
  gcongr
  exact abs_roundHalfEven_sub_le _

/-! ## Decimals -/

/-- The numbers with `d` decimals. -/
def decimals (d : ℕ) : AddSubgroup ℚ :=
  AddSubgroup.zmultiples (1 / 10 ^ d : ℚ)

theorem mem_decimals {d : ℕ} {q : ℚ} : q ∈ decimals d ↔ ∃ z : ℤ, q = z / 10 ^ d := by
  unfold decimals
  rw [AddSubgroup.mem_zmultiples_iff]
  constructor
  · rintro ⟨z, rfl⟩
    exact ⟨z, by rw [zsmul_eq_mul, mul_one_div]⟩
  · rintro ⟨z, rfl⟩
    exact ⟨z, by rw [zsmul_eq_mul, mul_one_div]⟩

theorem roundTo_mem_decimals (d : ℕ) (q : ℚ) : roundTo d q ∈ decimals d :=
  mem_decimals.mpr ⟨_, rfl⟩

theorem one_mem_decimals (d : ℕ) : (1 : ℚ) ∈ decimals d := by
  have hpos : (0 : ℚ) < 10 ^ d := by positivity
  refine mem_decimals.mpr ⟨10 ^ d, ?_⟩
  push_cast
  exact (div_self hpos.ne').symm

/-- A number that has `d` decimals is left as it is. -/
theorem roundTo_of_mem_decimals {d : ℕ} {q : ℚ} (h : q ∈ decimals d) : roundTo d q = q := by
  obtain ⟨z, rfl⟩ := mem_decimals.mp h
  have hpos : (0 : ℚ) < 10 ^ d := by positivity
  unfold roundTo
  rw [div_mul_cancel₀ _ hpos.ne', roundHalfEven_intCast]

theorem roundTo_nonneg (d : ℕ) {q : ℚ} (h : 0 ≤ q) : 0 ≤ roundTo d q := by
  have hmono := roundTo_mono d h
  rwa [roundTo_zero] at hmono

theorem roundTo_le_one (d : ℕ) {q : ℚ} (h : q ≤ 1) : roundTo d q ≤ 1 := by
  have hmono := roundTo_mono d h
  rwa [roundTo_of_mem_decimals (one_mem_decimals d)] at hmono

/-! ## Fixed-point text -/

/-- The digits of `n`, padded with zeros on the left to `d` characters. -/
def padded (d n : ℕ) : String :=
  let s := toString n
  String.ofList (List.replicate (d - s.length) '0') ++ s

/-- `q` with `d` decimals; the sign of a negative value is kept when it rounds to zero. -/
def fixed (d : ℕ) (q : ℚ) : String :=
  let n := (roundHalfEven (|q| * 10 ^ d)).toNat
  let whole := toString (n / 10 ^ d)
  (if q < 0 then "-" else "") ++
    if d = 0 then whole else whole ++ "." ++ padded d (n % 10 ^ d)

/-- As `fixed`, with the sign of a non-negative value written too. -/
def fixedSigned (d : ℕ) (q : ℚ) : String :=
  (if q < 0 then "" else "+") ++ fixed d q

/-- A fraction as a percentage with `d` decimals. -/
def percent (d : ℕ) (q : ℚ) : String := fixed d (q * 100) ++ "%"

example : fixed 4 (619/1000) = "0.6190" := by decide +kernel

/-- A float as it prints: the decimals it has, of sixteen digits at most, and an exponent when
    it is below a ten-thousandth or has more than sixteen digits before the point. -/
def floatText (q : ℚ) : String :=
  if q = 0 then "0.0"
  else
    let decade := Int.log 10 |q|
    if -4 ≤ decade ∧ decade < 16 then
      let digits := (fixed (max 1 (15 - decade)).toNat q).toList.rdropWhile (· = '0')
      String.ofList (if digits.getLast? = some '.' then digits ++ ['0'] else digits)
    else
      let digits := (fixed 15 (q / 10 ^ decade)).toList.rdropWhile (· = '0')
      String.ofList (digits.rdropWhile (· = '.')) ++ (if decade < 0 then "e-" else "e+") ++
        padded 2 decade.natAbs

example : floatText 10 = "10.0" ∧ floatText (1/2) = "0.5" := by decide +kernel

end Rounding
