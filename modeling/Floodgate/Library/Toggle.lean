import Mathlib.Tactic.Common

/-! Sequences of switch positions in which every entry changes the position. -/

namespace Toggle

/-- From the position `start`, every mark is the other position. -/
def Alternates : Bool → List Bool → Prop
  | _, [] => True
  | start, mark :: rest => mark = !start ∧ Alternates mark rest

def final : Bool → List Bool → Bool
  | start, [] => start
  | _, mark :: rest => final mark rest

@[simp] theorem alternates_nil (start : Bool) : Alternates start [] := trivial

@[simp] theorem final_nil (start : Bool) : final start [] = start := rfl

@[simp] theorem alternates_single (start mark : Bool) : Alternates start [mark] ↔ mark = !start := by
  simp [Alternates]

@[simp] theorem final_single (start mark : Bool) : final start [mark] = mark := rfl

theorem final_append (start : Bool) (first second : List Bool) :
    final start (first ++ second) = final (final start first) second := by
  induction first generalizing start with
  | nil => rfl
  | cons mark rest ih => exact ih mark

theorem alternates_append (start : Bool) (first second : List Bool) :
    Alternates start (first ++ second) ↔
      Alternates start first ∧ Alternates (final start first) second := by
  induction first generalizing start with
  | nil => simp
  | cons mark rest ih =>
      simp only [List.cons_append, Alternates, final, ih mark]
      exact and_assoc.symm

end Toggle
