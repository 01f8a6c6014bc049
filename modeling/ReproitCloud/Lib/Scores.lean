import Mathlib

/-!
# Factors between 0 and 1

A score adds factors that lie between 0 and 1, each times a weight.  Here are the
shapes such factors have, over the real numbers, and the range of each.

* `saturating x cap` grows with `x` and stops at 1.
* `part a b` is the part of `a` in `a + b`, one half when both are 0.
* `halving gap life` is 1 up to a gap of 0 and halves with every `life` after it.

`roundTo places x` rounds to so many decimal places, half away from 0.  It keeps
the order (`roundTo_mono`) and what already has no more places
(`roundTo_intCast`), so it keeps every whole bound.
-/

namespace Lib

noncomputable section

/-- The whole number nearest to `x`; a half goes away from 0. -/
def nearest (x : ℝ) : ℤ := if 0 ≤ x then ⌊x + 1 / 2⌋ else ⌈x - 1 / 2⌉

/-- `x` with so many decimal places. -/
def roundTo (places : ℕ) (x : ℝ) : ℝ := nearest (x * 10 ^ places) / 10 ^ places

/-- `x` out of `cap`, at most 1. -/
def saturating (x cap : ℝ) : ℝ := min (x / cap) 1

/-- The part of `a` in `a + b`. -/
def part (a b : ℝ) : ℝ := if a + b = 0 then 1 / 2 else a / (a + b)

/-- 1 until the gap is positive, then one half to the number of lives in it. -/
def halving (gap life : ℝ) : ℝ := if gap ≤ 0 then 1 else (1 / 2 : ℝ) ^ (gap / life)

end

/-! ## Rounding -/

@[simp] theorem nearest_intCast (n : ℤ) : nearest n = n := by
  unfold nearest
  split
  · rw [Int.floor_eq_iff]
    constructor <;> linarith
  · rw [Int.ceil_eq_iff]
    constructor <;> linarith

theorem nearest_nonneg {x : ℝ} (h : 0 ≤ x) : 0 ≤ nearest x := by
  rw [nearest, if_pos h]
  exact Int.floor_nonneg.mpr (by linarith)

theorem nearest_nonpos {x : ℝ} (h : x ≤ 0) : nearest x ≤ 0 := by
  rcases h.lt_or_eq with hneg | rfl
  · rw [nearest, if_neg (not_le.mpr hneg)]
    exact Int.ceil_le.mpr (by push_cast; linarith)
  · simpa using (nearest_intCast 0).le

theorem nearest_mono : Monotone nearest := by
  intro x y h
  rcases le_or_gt 0 x with hx | hx
  · rw [nearest, nearest, if_pos hx, if_pos (hx.trans h)]
    exact Int.floor_le_floor (by linarith)
  · rcases le_or_gt 0 y with hy | hy
    · exact (nearest_nonpos hx.le).trans (nearest_nonneg hy)
    · rw [nearest, nearest, if_neg (not_le.mpr hx), if_neg (not_le.mpr hy)]
      exact Int.ceil_le_ceil (by linarith)

theorem roundTo_mono (places : ℕ) : Monotone (roundTo places) := by
  intro x y h
  have hscale : (0 : ℝ) < 10 ^ places := by positivity
  have hnearest : nearest (x * 10 ^ places) ≤ nearest (y * 10 ^ places) :=
    nearest_mono (mul_le_mul_of_nonneg_right h hscale.le)
  exact div_le_div_of_nonneg_right (Int.cast_le.mpr hnearest) hscale.le

@[simp] theorem roundTo_intCast (places : ℕ) (n : ℤ) : roundTo places n = n := by
  have hscale : (10 : ℝ) ^ places ≠ 0 := by positivity
  have hwhole : (n : ℝ) * 10 ^ places = ((n * 10 ^ places : ℤ) : ℝ) := by push_cast; rfl
  rw [roundTo, hwhole, nearest_intCast]
  push_cast
  exact mul_div_cancel_right₀ _ hscale

theorem roundTo_le {places : ℕ} {x : ℝ} {n : ℤ} (h : x ≤ n) : roundTo places x ≤ n :=
  (roundTo_mono places h).trans_eq (roundTo_intCast places n)

theorem le_roundTo {places : ℕ} {x : ℝ} {n : ℤ} (h : (n : ℝ) ≤ x) : (n : ℝ) ≤ roundTo places x :=
  (roundTo_intCast places n).symm.trans_le (roundTo_mono places h)

/-- Rounding does not leave the unit interval. -/
theorem roundTo_mem_Icc (places : ℕ) {x : ℝ} (h : x ∈ Set.Icc (0 : ℝ) 1) :
    roundTo places x ∈ Set.Icc (0 : ℝ) 1 := by
  have hlow : ((0 : ℤ) : ℝ) ≤ roundTo places x := le_roundTo (by simpa using h.1)
  have hhigh : roundTo places x ≤ ((1 : ℤ) : ℝ) := roundTo_le (by simpa using h.2)
  exact ⟨by simpa using hlow, by simpa using hhigh⟩

/-! ## The ranges of the factors -/

theorem saturating_mem_Icc {x cap : ℝ} (hx : 0 ≤ x) (hcap : 0 ≤ cap) :
    saturating x cap ∈ Set.Icc (0 : ℝ) 1 :=
  ⟨le_min (div_nonneg hx hcap) zero_le_one, min_le_right _ _⟩

theorem part_mem_Icc {a b : ℝ} (ha : 0 ≤ a) (hb : 0 ≤ b) : part a b ∈ Set.Icc (0 : ℝ) 1 := by
  unfold part
  split
  · constructor <;> norm_num
  · exact ⟨div_nonneg ha (add_nonneg ha hb),
      div_le_one_of_le₀ (le_add_of_nonneg_right hb) (add_nonneg ha hb)⟩

theorem halving_mem_Icc (gap : ℝ) {life : ℝ} (hlife : 0 ≤ life) :
    halving gap life ∈ Set.Icc (0 : ℝ) 1 := by
  unfold halving
  split
  · exact ⟨zero_le_one, le_refl 1⟩
  · rename_i hgap
    have hlives : 0 ≤ gap / life := div_nonneg (not_le.mp hgap).le hlife
    exact ⟨by positivity, Real.rpow_le_one (by norm_num) (by norm_num) hlives⟩

end Lib
