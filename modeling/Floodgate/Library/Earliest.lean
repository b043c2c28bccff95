import Mathlib.Order.MinMax
import Mathlib.Tactic.Common

/-! Scans for the smallest value: the first of the smallest cells of a table in which zero stands for
an empty cell, and the least value of the items that are not skipped. -/

namespace Earliest

variable {Key : Type} (time : Key → Nat)

/-- A filled cell replaces the best one so far if its value is smaller. -/
def look (found : Nat × Option Key) (key : Key) : Nat × Option Key :=
  if time key ≠ 0 ∧ time key < found.1 then (time key, some key) else found

def scan (bound : Nat) (keys : List Key) : Nat × Option Key :=
  keys.foldl (look time) (bound, none)

/-- A cell is the first of the smallest, or nothing below `bound` is filled. -/
inductive Scanned (bound : Nat) (keys : List Key) : Nat × Option Key → Prop
  | found {key : Key} (member : key ∈ keys) (filled : time key ≠ 0)
      (least : ∀ other ∈ keys, time other ≠ 0 → time key ≤ time other) :
      Scanned bound keys (time key, some key)
  | none (empty : ∀ key ∈ keys, time key ≠ 0 → bound ≤ time key) :
      Scanned bound keys (bound, none)

theorem look_le (found : Nat × Option Key) (key : Key) :
    (look time found key).1 ≤ found.1 ∧ (time key ≠ 0 → (look time found key).1 ≤ time key) := by
  unfold look
  split
  · rename_i smaller
    exact ⟨Nat.le_of_lt smaller.2, fun _ => Nat.le_refl _⟩
  · rename_i other
    exact ⟨Nat.le_refl _, fun filled => Nat.le_of_not_lt fun smaller => other ⟨filled, smaller⟩⟩

theorem foldl_look_le (keys : List Key) (found : Nat × Option Key) :
    (keys.foldl (look time) found).1 ≤ found.1 ∧
      ∀ key ∈ keys, time key ≠ 0 → (keys.foldl (look time) found).1 ≤ time key := by
  induction keys generalizing found with
  | nil => exact ⟨Nat.le_refl _, fun _ member => absurd member (by simp)⟩
  | cons first rest ih =>
      obtain ⟨below, least⟩ := ih (look time found first)
      obtain ⟨before, here⟩ := look_le time found first
      rw [List.foldl_cons]
      refine ⟨Nat.le_trans below before, fun key member filled => ?_⟩
      rcases List.mem_cons.mp member with rfl | later
      · exact Nat.le_trans below (here filled)
      · exact least key later filled

theorem foldl_look_origin (keys : List Key) (found : Nat × Option Key) :
    keys.foldl (look time) found = found ∨
      ∃ key ∈ keys, time key ≠ 0 ∧ keys.foldl (look time) found = (time key, some key) := by
  induction keys generalizing found with
  | nil => exact .inl rfl
  | cons first rest ih =>
      rw [List.foldl_cons]
      rcases ih (look time found first) with same | ⟨key, member, filled, origin⟩
      · rw [same]
        unfold look
        split
        · rename_i smaller
          exact .inr ⟨first, by simp, smaller.1, rfl⟩
        · exact .inl rfl
      · exact .inr ⟨key, List.mem_cons_of_mem _ member, filled, origin⟩

theorem scan_scanned (bound : Nat) (keys : List Key) :
    Scanned time bound keys (scan time bound keys) := by
  obtain ⟨-, least⟩ := foldl_look_le time keys (bound, none)
  unfold scan
  rcases foldl_look_origin time keys (bound, none) with same | ⟨key, member, filled, origin⟩
  · rw [same] at least ⊢
    exact .none least
  · rw [origin] at least ⊢
    exact .found member filled least

section Least

variable {Item Value : Type} [LinearOrder Value] (skip : Item → Prop) [DecidablePred skip]
  (value : Item → Value)

def leastOf (bound : Value) (items : List Item) : Value :=
  items.foldl (fun found item => if skip item then found else min (value item) found) bound

variable {skip value}

theorem lt_leastOf {bound limit : Value} {items : List Item} :
    limit < leastOf skip value bound items ↔
      limit < bound ∧ ∀ item ∈ items, ¬skip item → limit < value item := by
  unfold leastOf
  induction items generalizing bound with
  | nil => simp
  | cons first rest ih =>
      rw [List.foldl_cons, ih, List.forall_mem_cons]
      by_cases skipped : skip first
      · rw [if_pos skipped]
        simp [skipped]
      · rw [if_neg skipped, lt_min_iff, and_assoc, and_left_comm]
        simp [skipped]

theorem leastOf_lt {bound limit : Value} {items : List Item} :
    leastOf skip value bound items < limit ↔
      bound < limit ∨ ∃ item ∈ items, ¬skip item ∧ value item < limit := by
  unfold leastOf
  induction items generalizing bound with
  | nil => simp
  | cons first rest ih =>
      simp only [List.foldl_cons, ih, List.mem_cons, exists_eq_or_imp]
      by_cases skipped : skip first
      · rw [if_pos skipped]
        simp [skipped]
      · rw [if_neg skipped, min_lt_iff, or_assoc, or_left_comm]
        simp [skipped]

theorem leastOf_le {bound : Value} {items : List Item} {item : Item} (member : item ∈ items)
    (counted : ¬skip item) : leastOf skip value bound items ≤ value item := by
  by_contra later
  exact lt_irrefl _ ((lt_leastOf.mp (not_le.mp later)).2 item member counted)

end Least

end Earliest
