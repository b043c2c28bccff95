import Mathlib.Algebra.GroupWithZero.Nat
import Mathlib.Tactic.Common

/-! Unsigned 32-bit arithmetic carried out on natural numbers. -/

namespace Word32

/-- The number of values of the type. Every stored value lies below it. -/
abbrev size : Nat := 4294967296

def trunc (value : Nat) : Nat := value % 4294967296

def add (left right : Nat) : Nat := (left + right) % 4294967296

def sub (left right : Nat) : Nat := (left + 4294967296 - right) % 4294967296

/-! Sizes of one, two and four kilobytes, and of two thousand bytes. -/

theorem kilo_lt : 1024 < size := by decide

theorem two_kilo_lt : 2048 < size := by decide

theorem four_kilo_lt : 4096 < size := by decide

theorem two_thousand_lt : 2000 < size := by decide

theorem trunc_lt (value : Nat) : trunc value < size :=
  Nat.mod_lt _ (by decide)

theorem add_lt (left right : Nat) : add left right < size :=
  Nat.mod_lt _ (by decide)

theorem sub_lt (left right : Nat) : sub left right < size :=
  Nat.mod_lt _ (by decide)

theorem trunc_le (value : Nat) : trunc value ≤ value :=
  Nat.mod_le _ _

theorem trunc_eq (value : Nat) (fits : value < size) : trunc value = value :=
  Nat.mod_eq_of_lt fits

theorem add_eq (left right : Nat) (fits : left + right < size) :
    add left right = left + right :=
  Nat.mod_eq_of_lt fits

theorem sub_eq (left right : Nat) (fits : left < size) (order : right ≤ left) :
    sub left right = left - right := by
  unfold sub
  have shifted : left + 4294967296 - right = (left - right) + 4294967296 := by omega
  rw [shifted, Nat.add_mod_right]
  exact Nat.mod_eq_of_lt (by unfold size at fits; omega)

theorem add_right_comm (first second third : Nat) :
    add (add first second) third = add (add first third) second := by
  unfold add
  omega

theorem add_trunc (total value : Nat) : add (trunc total) value = trunc (total + value) := by
  unfold add trunc
  omega

theorem sub_trunc (total value : Nat) (small : value < size) (order : value ≤ total) :
    sub (trunc total) value = trunc (total - value) := by
  unfold size at small
  unfold sub trunc
  omega

theorem foldl_add (values : List Nat) (start : Nat) :
    values.foldl add (trunc start) = trunc (start + values.sum) := by
  induction values generalizing start with
  | nil => rfl
  | cons value rest ih =>
      rw [List.foldl_cons, add_trunc, ih, List.sum_cons, Nat.add_assoc]

end Word32
