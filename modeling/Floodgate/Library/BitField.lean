import Mathlib.Data.Nat.Bitwise
import Mathlib.Tactic.Common

/-! Fields of a word, at fixed places of its bits. -/

namespace BitField

/-- `width` bits from bit `offset` on. -/
structure Field where
  offset : Nat
  width : Nat
  deriving DecidableEq

namespace Field

variable (f : Field)

def get (word : Nat) : Nat := word / 2 ^ f.offset % 2 ^ f.width

def set (word value : Nat) : Nat :=
  word / 2 ^ (f.offset + f.width) * 2 ^ (f.offset + f.width) +
    (value % 2 ^ f.width * 2 ^ f.offset + word % 2 ^ f.offset)

def Disjoint (g : Field) : Prop :=
  f.offset + f.width ≤ g.offset ∨ g.offset + g.width ≤ f.offset

instance (g : Field) : Decidable (f.Disjoint g) := inferInstanceAs (Decidable (_ ∨ _))

variable {f} {g : Field} {word value : Nat}

theorem testBit_get (i : Nat) :
    (f.get word).testBit i = (decide (i < f.width) && word.testBit (f.offset + i)) := by
  rw [get, Nat.testBit_mod_two_pow, Nat.testBit_div_two_pow, Nat.add_comm]

theorem set_low : value % 2 ^ f.width * 2 ^ f.offset + word % 2 ^ f.offset <
    2 ^ (f.offset + f.width) := by
  have inside : value % 2 ^ f.width < 2 ^ f.width := Nat.mod_lt _ (Nat.two_pow_pos _)
  have below : word % 2 ^ f.offset < 2 ^ f.offset := Nat.mod_lt _ (Nat.two_pow_pos _)
  calc value % 2 ^ f.width * 2 ^ f.offset + word % 2 ^ f.offset
      < value % 2 ^ f.width * 2 ^ f.offset + 2 ^ f.offset := by omega
    _ = (value % 2 ^ f.width + 1) * 2 ^ f.offset := (Nat.succ_mul _ _).symm
    _ ≤ 2 ^ f.width * 2 ^ f.offset := Nat.mul_le_mul_right _ inside
    _ = 2 ^ (f.offset + f.width) := by rw [Nat.add_comm, Nat.pow_add]

theorem testBit_set (i : Nat) : (f.set word value).testBit i =
    if f.offset ≤ i ∧ i < f.offset + f.width then value.testBit (i - f.offset)
    else word.testBit i := by
  have below : word % 2 ^ f.offset < 2 ^ f.offset := Nat.mod_lt _ (Nat.two_pow_pos _)
  rw [set, Nat.mul_comm, Nat.testBit_two_pow_mul_add _ set_low]
  by_cases high : i < f.offset + f.width
  · rw [if_pos high, Nat.mul_comm, Nat.testBit_two_pow_mul_add _ below]
    by_cases low : i < f.offset
    · rw [if_pos low, if_neg (by omega), Nat.testBit_mod_two_pow]
      simp [low]
    · rw [if_neg low, if_pos ⟨by omega, high⟩, Nat.testBit_mod_two_pow]
      have inside : i - f.offset < f.width := by omega
      simp [inside]
  · rw [if_neg high, if_neg fun both => high both.2, Nat.testBit_div_two_pow]
    congr 1
    omega

theorem get_set : f.get (f.set word value) = value % 2 ^ f.width := by
  apply Nat.eq_of_testBit_eq
  intro i
  rw [testBit_get, testBit_set, Nat.testBit_mod_two_pow]
  by_cases inside : i < f.width
  · rw [if_pos ⟨by omega, by omega⟩, Nat.add_sub_cancel_left]
  · simp [inside]

theorem get_set_other (apart : f.Disjoint g) : g.get (f.set word value) = g.get word := by
  apply Nat.eq_of_testBit_eq
  intro i
  rw [testBit_get, testBit_get, testBit_set]
  by_cases inside : i < g.width
  · unfold Disjoint at apart
    rw [if_neg (by omega)]
  · simp [inside]

theorem set_lt {n : Nat} (fits : f.offset + f.width ≤ n) (small : word < 2 ^ n) :
    f.set word value < 2 ^ n := by
  apply Nat.lt_pow_two_of_testBit
  intro i above
  rw [testBit_set, if_neg (by omega)]
  exact Nat.testBit_lt_two_pow (Nat.lt_of_lt_of_le small (Nat.pow_le_pow_right (by decide) above))

end Field

end BitField
