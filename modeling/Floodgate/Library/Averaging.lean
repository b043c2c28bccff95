import Mathlib.Algebra.Order.Field.Basic
import Mathlib.Algebra.Order.Floor.Semiring
import Mathlib.Data.Rat.Floor
import Mathlib.Tactic.FieldSimp
import Mathlib.Tactic.Linarith
import Mathlib.Tactic.Positivity
import Mathlib.Tactic.Ring

/-! Weighted means over an ordered field, and numbers that are scaled and truncated. -/

namespace Averaging

section Mean

variable {K : Type} [Field K] [LinearOrder K] [IsStrictOrderedRing K]

theorem le_mean {gain a b low : K} (least : 0 ≤ gain) (most : gain ≤ 1) (first : low ≤ a)
    (second : low ≤ b) : low ≤ (1 - gain) * a + gain * b := by
  have left : 0 ≤ (1 - gain) * (a - low) := mul_nonneg (by linarith) (by linarith)
  have right : 0 ≤ gain * (b - low) := mul_nonneg least (by linarith)
  linarith

theorem mean_le {gain a b high : K} (least : 0 ≤ gain) (most : gain ≤ 1) (first : a ≤ high)
    (second : b ≤ high) : (1 - gain) * a + gain * b ≤ high := by
  have left : 0 ≤ (1 - gain) * (high - a) := mul_nonneg (by linarith) (by linarith)
  have right : 0 ≤ gain * (high - b) := mul_nonneg least (by linarith)
  linarith

theorem mean_mem_unit {gain a b : K} (range : gain ∈ Set.Icc 0 1) (first : a ∈ Set.Icc 0 1)
    (second : b ∈ Set.Icc 0 1) : (1 - gain) * a + gain * b ∈ Set.Icc 0 1 :=
  ⟨le_mean range.1 range.2 first.1 second.1, mean_le range.1 range.2 first.2 second.2⟩

variable {whole part a b : K}

theorem blend_nonneg (positive : 0 < whole) (some : 0 ≤ part) (inside : part ≤ whole)
    (first : 0 ≤ a) (second : 0 ≤ b) : 0 ≤ (a * (whole - part) + b * part) / whole := by
  have left : 0 ≤ a * (whole - part) := mul_nonneg first (by linarith)
  have right : 0 ≤ b * part := mul_nonneg second some
  exact div_nonneg (by linarith) positive.le

theorem blend_eq_zero_iff (positive : 0 < whole) (some : 0 ≤ part) (inside : part ≤ whole)
    (first : 0 ≤ a) (second : 0 ≤ b) :
    (a * (whole - part) + b * part) / whole = 0 ↔
      (a = 0 ∨ part = whole) ∧ (b = 0 ∨ part = 0) := by
  have left : 0 ≤ a * (whole - part) := mul_nonneg first (by linarith)
  have right : 0 ≤ b * part := mul_nonneg second some
  rw [div_eq_zero_iff, or_iff_left positive.ne', add_eq_zero_iff_of_nonneg left right,
    mul_eq_zero, mul_eq_zero, sub_eq_zero]
  exact and_congr_left fun _ => or_congr_right eq_comm

end Mean

section Clamp

def clamp (low high n : Nat) : Nat :=
  let raised := if n < low then low else n
  if raised > high then high else raised

theorem clamp_mem {low high : Nat} (order : low ≤ high) (n : Nat) :
    low ≤ clamp low high n ∧ clamp low high n ≤ high := by
  unfold clamp
  simp only
  split_ifs
  all_goals omega

end Clamp

section Truncation

theorem floor_scale_le {n : Nat} {factor : Rat} (most : factor ≤ 1) :
    ⌊(n : Rat) * factor⌋₊ ≤ n := by
  apply Nat.floor_le_of_le
  have below : (n : Rat) * factor ≤ n * 1 := mul_le_mul_of_nonneg_left most (Nat.cast_nonneg n)
  rwa [mul_one] at below

variable {low high n m : Nat}

theorem lowered_mem {factor : Rat} (most : factor ≤ 1) (range : n ∈ Set.Icc low high) :
    max low ⌊(n : Rat) * factor⌋₊ ∈ Set.Icc low high := by
  constructor
  · exact Nat.le_max_left _ _
  · apply Nat.max_le.mpr
    exact ⟨Nat.le_trans range.1 range.2, Nat.le_trans (floor_scale_le most) range.2⟩

theorem raised_mem (range : n ∈ Set.Icc low high) (step : Nat) :
    min (n + step) high ∈ Set.Icc low high := by
  constructor
  · exact Nat.le_min.mpr ⟨Nat.le_trans range.1 (Nat.le_add_right _ _), Nat.le_trans range.1 range.2⟩
  · exact Nat.min_le_right _ _

theorem halves_mem (even : 2 ∣ low) (first : n ∈ Set.Icc low high) (second : m ∈ Set.Icc low high) :
    n / 2 + m / 2 ∈ Set.Icc low high := by
  obtain ⟨half, rfl⟩ := even
  have leftLeast := first.1
  have leftMost := first.2
  have rightLeast := second.1
  have rightMost := second.2
  constructor
  · omega
  · omega

end Truncation

end Averaging
