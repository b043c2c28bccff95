import Mathlib.Data.List.Range
import Mathlib.Data.List.Nodup
import Mathlib.Data.List.Perm.Basic
import Mathlib.Logic.Equiv.Basic
import Mathlib.Order.Lattice
import Mathlib.Tactic.Common

/-! Binary heaps in an array whose places are numbered from one, and the two ways to restore the
order after a change of one place. -/

namespace BinaryHeap

/-- The places are `1` to `last`. -/
structure Heap (Item : Type) where
  item : Nat → Item
  last : Nat

variable {Item Key : Type} [LinearOrder Key] (key : Item → Key)

namespace Heap

def exch (h : Heap Item) (a b : Nat) : Heap Item :=
  { h with item := fun i => if i = a then h.item b else if i = b then h.item a else h.item i }

def push (h : Heap Item) (item : Item) : Heap Item :=
  { item := fun i => if i = h.last + 1 then item else h.item i, last := h.last + 1 }

def pop (h : Heap Item) : Heap Item := { h with last := h.last - 1 }

/-- An item moves towards the root while it is less than its parent; every step halves its
place. -/
def bottomUp : Nat → Nat → Heap Item → Heap Item
  | 0, _, h => h
  | steps + 1, index, h =>
      if index ≠ 1 ∧ key (h.item index) < key (h.item (index / 2)) then
        bottomUp steps (index / 2) (h.exch index (index / 2))
      else h

def smallest (h : Heap Item) (a b : Nat) : Nat := if key (h.item a) < key (h.item b) then a else b

/-- An item moves away from the root while it is not less than the smaller one of its children;
the last exchange may be with an only child. -/
def topDown : Nat → Nat → Heap Item → Heap Item
  | 0, _, h => h
  | steps + 1, index, h =>
      if index * 2 + 1 ≤ h.last then
        let child := h.smallest key (index * 2) (index * 2 + 1)
        if key (h.item index) < key (h.item child) then h
        else topDown steps child (h.exch index child)
      else if h.last < index ∨ h.last < index * 2 then h
      else if key (h.item index) < key (h.item (index * 2)) then h
      else h.exch index (index * 2)

def items (h : Heap Item) : List Item := (List.range' 1 h.last).map h.item

/-- Every parent is at most its children. -/
def Ordered (h : Heap Item) : Prop :=
  ∀ i, 2 ≤ i → i ≤ h.last → key (h.item (i / 2)) ≤ key (h.item i)

@[simp] theorem exch_last (h : Heap Item) (a b : Nat) : (h.exch a b).last = h.last := rfl

@[simp] theorem pop_item (h : Heap Item) : h.pop.item = h.item := rfl

@[simp] theorem pop_last (h : Heap Item) : h.pop.last = h.last - 1 := rfl

@[simp] theorem push_last (h : Heap Item) (item : Item) : (h.push item).last = h.last + 1 := rfl

theorem exch_first (h : Heap Item) (a b : Nat) : (h.exch a b).item a = h.item b := if_pos rfl

theorem exch_second (h : Heap Item) (a b : Nat) : (h.exch a b).item b = h.item a := by
  unfold exch
  by_cases same : b = a
  · simp [same]
  · simp [same]

theorem exch_other (h : Heap Item) {a b i : Nat} (first : i ≠ a) (second : i ≠ b) :
    (h.exch a b).item i = h.item i := by
  simp [exch, first, second]

theorem exch_swap (h : Heap Item) (a b i : Nat) :
    (h.exch a b).item i = h.item (Equiv.swap a b i) := by
  rw [Equiv.swap_apply_def]
  unfold exch
  dsimp only
  split
  · rfl
  · split
    · rfl
    · rfl

theorem mem_items {h : Heap Item} {item : Item} :
    item ∈ h.items ↔ ∃ i, 1 ≤ i ∧ i ≤ h.last ∧ h.item i = item := by
  unfold items
  simp only [List.mem_map, List.mem_range'_1]
  constructor
  · rintro ⟨i, ⟨low, high⟩, same⟩
    exact ⟨i, low, by omega, same⟩
  · rintro ⟨i, low, high, same⟩
    exact ⟨i, ⟨low, by omega⟩, same⟩

theorem length_items (h : Heap Item) : h.items.length = h.last := by simp [items]

theorem push_items (h : Heap Item) (item : Item) : (h.push item).items = h.items ++ [item] := by
  unfold items
  rw [push_last, List.range'_concat, List.map_append]
  congr 1
  · apply List.map_congr_left
    intro i member
    have bound := List.mem_range'_1.mp member
    simp only [push]
    rw [if_neg (by omega)]
  · simp [push, Nat.add_comm]

theorem pop_items (h : Heap Item) (some : 0 < h.last) :
    h.items = h.pop.items ++ [h.item h.last] := by
  obtain ⟨n, bound⟩ : ∃ n, h.last = n + 1 := ⟨h.last - 1, by omega⟩
  unfold items
  rw [pop_last, pop_item, bound, List.range'_concat, List.map_append]
  simp [Nat.add_comm]

theorem exch_items (h : Heap Item) {a b : Nat} (first : 1 ≤ a ∧ a ≤ h.last)
    (second : 1 ≤ b ∧ b ≤ h.last) : (h.exch a b).items.Perm h.items := by
  have swapped : (h.exch a b).items = ((List.range' 1 h.last).map (Equiv.swap a b)).map h.item := by
    unfold items
    rw [List.map_map]
    exact List.map_congr_left fun i _ => h.exch_swap a b i
  rw [swapped]
  refine List.Perm.map _ ?_
  have nodup : (List.range' 1 h.last).Nodup := List.nodup_range'
  have moved := List.Nodup.map (Equiv.swap a b).injective nodup
  refine (List.perm_ext_iff_of_nodup moved nodup).mpr fun i => ?_
  simp only [List.mem_map, List.mem_range'_1]
  have inside : ∀ j, 1 ≤ j ∧ j < 1 + h.last →
      1 ≤ Equiv.swap a b j ∧ Equiv.swap a b j < 1 + h.last := by
    intro j range
    rw [Equiv.swap_apply_def]
    split
    · omega
    · split
      · omega
      · exact range
  constructor
  · rintro ⟨j, range, rfl⟩
    exact inside j range
  · intro range
    exact ⟨Equiv.swap a b i, inside i range, Equiv.swap_apply_self a b i⟩

variable {key} {h : Heap Item} {index : Nat}

/-- The order holds but for one place, whose children are at most its parent. -/
structure UpOrder (key : Item → Key) (h : Heap Item) (hole : Nat) : Prop where
  except : ∀ i, 2 ≤ i → i ≤ h.last → i ≠ hole → key (h.item (i / 2)) ≤ key (h.item i)
  grand : 2 ≤ hole → ∀ i, 2 ≤ i → i ≤ h.last → i / 2 = hole →
    key (h.item (hole / 2)) ≤ key (h.item i)

/-- The order holds but for the children of one place, which are not below its parent. -/
structure DownOrder (key : Item → Key) (h : Heap Item) (hole : Nat) : Prop where
  except : ∀ i, 2 ≤ i → i ≤ h.last → i / 2 ≠ hole → key (h.item (i / 2)) ≤ key (h.item i)
  grand : 2 ≤ hole → ∀ i, 2 ≤ i → i ≤ h.last → i / 2 = hole →
    key (h.item (hole / 2)) ≤ key (h.item i)

theorem UpOrder.raised (order : UpOrder key h index) (inner : 2 ≤ index)
    (less : key (h.item index) < key (h.item (index / 2))) :
    UpOrder key (h.exch index (index / 2)) (index / 2) := by
  have parent : index / 2 ≠ index := by omega
  constructor
  · intro i low high different
    rw [exch_last] at high
    by_cases here : i = index
    · subst here
      rw [exch_first, exch_second]
      exact less.le
    · rw [exch_other h here different]
      by_cases child : i / 2 = index
      · rw [child, exch_first]
        exact order.grand inner i low high child
      · by_cases sibling : i / 2 = index / 2
        · rw [sibling, exch_second]
          have beside := order.except i low high here
          rw [sibling] at beside
          exact less.le.trans beside
        · rw [exch_other h child sibling]
          exact order.except i low high here
  · intro above i low high sibling
    rw [exch_last] at high
    rw [exch_other h (show index / 2 / 2 ≠ index by omega) (by omega)]
    have upper := order.except (index / 2) above (by omega) parent
    by_cases here : i = index
    · subst here
      rw [exch_first]
      exact upper
    · rw [exch_other h here (by omega)]
      have beside := order.except i low high here
      rw [sibling] at beside
      exact upper.trans beside

theorem bottomUp_ordered (steps : Nat) (order : UpOrder key h index) (low : 1 ≤ index)
    (high : index ≤ h.last) (enough : index ≤ steps) :
    Ordered key (h.bottomUp key steps index) ∧ (h.bottomUp key steps index).items.Perm h.items ∧
      (h.bottomUp key steps index).last = h.last := by
  induction steps generalizing h index with
  | zero => omega
  | succ steps ih =>
      unfold bottomUp
      split
      · rename_i moves
        obtain ⟨inner, less⟩ := moves
        obtain ⟨ordered, perm, last⟩ := ih (order.raised (by omega) less) (by omega)
          (by rw [exch_last]; omega) (by omega)
        exact ⟨ordered, perm.trans (h.exch_items ⟨low, high⟩ ⟨by omega, by omega⟩), last⟩
      · rename_i stays
        refine ⟨fun i two bound => ?_, .refl _, rfl⟩
        by_cases here : i = index
        · subst here
          exact not_lt.mp fun less => stays ⟨by omega, less⟩
        · exact order.except i two bound here

theorem smallest_cases (h : Heap Item) (a b : Nat) :
    h.smallest key a b = a ∧ key (h.item a) < key (h.item b) ∨
      h.smallest key a b = b ∧ key (h.item b) ≤ key (h.item a) := by
  unfold smallest
  split
  · rename_i less
    exact .inl ⟨rfl, less⟩
  · rename_i more
    exact .inr ⟨rfl, not_lt.mp more⟩

theorem DownOrder.lowered (order : DownOrder key h index) {child : Nat} (low : 1 ≤ index)
    (below : child / 2 = index) (inside : child ≤ h.last)
    (least : ∀ i, i ≤ h.last → i / 2 = index → key (h.item child) ≤ key (h.item i))
    (more : key (h.item child) ≤ key (h.item index)) :
    DownOrder key (h.exch index child) child := by
  constructor
  · intro i two bound apart
    rw [exch_last] at bound
    by_cases here : i = child
    · subst here
      rw [below, exch_first, exch_second]
      exact more
    · by_cases beside : i / 2 = index
      · rw [beside, exch_first, exch_other h (by omega) here]
        exact least i bound beside
      · by_cases top : i = index
        · subst top
          rw [exch_first, exch_other h (by omega) (by omega)]
          exact order.grand two child (by omega) inside below
        · rw [exch_other h top here, exch_other h beside apart]
          exact order.except i two bound beside
  · intro _ i two bound under
    rw [exch_last] at bound
    rw [below, exch_first, exch_other h (by omega) (by omega)]
    have ordered := order.except i two bound (by omega)
    rwa [under] at ordered

theorem DownOrder.finish (order : DownOrder key h index)
    (children : ∀ i, 2 ≤ i → i ≤ h.last → i / 2 = index →
      key (h.item index) ≤ key (h.item i)) : Ordered key h := by
  intro i two bound
  by_cases under : i / 2 = index
  · rw [under]
    exact children i two bound under
  · exact order.except i two bound under

theorem topDown_items (steps : Nat) (low : 1 ≤ index) :
    (h.topDown key steps index).items.Perm h.items := by
  induction steps generalizing h index with
  | zero => exact .refl _
  | succ steps ih =>
      unfold topDown
      split
      · rename_i both
        have pick := @smallest_cases _ _ _ key h (index * 2) (index * 2 + 1)
        generalize h.smallest key (index * 2) (index * 2 + 1) = child at pick
        dsimp only
        split
        · exact .refl _
        · exact (ih (by omega)).trans (h.exch_items ⟨low, by omega⟩ ⟨by omega, by omega⟩)
      · split
        · exact .refl _
        · rename_i some
          split
          · exact .refl _
          · exact h.exch_items ⟨low, by omega⟩ ⟨by omega, by omega⟩

theorem topDown_ordered (steps : Nat) (order : DownOrder key h index) (low : 1 ≤ index)
    (enough : h.last < steps + index) : Ordered key (h.topDown key steps index) := by
  induction steps generalizing h index with
  | zero => exact order.finish fun i _ bound under => by omega
  | succ steps ih =>
      unfold topDown
      split
      · rename_i both
        have pick := @smallest_cases _ _ _ key h (index * 2) (index * 2 + 1)
        generalize h.smallest key (index * 2) (index * 2 + 1) = child at pick
        have below : child / 2 = index := by omega
        have least : ∀ i, i ≤ h.last → i / 2 = index →
            key (h.item child) ≤ key (h.item i) := by
          intro i _ under
          obtain rfl | rfl : i = index * 2 ∨ i = index * 2 + 1 := by omega
          · rcases pick with ⟨rfl, _⟩ | ⟨rfl, less⟩
            · exact le_refl _
            · exact less
          · rcases pick with ⟨rfl, less⟩ | ⟨rfl, _⟩
            · exact less.le
            · exact le_refl _
        dsimp only
        split
        · rename_i less
          exact order.finish fun i _ bound under => less.le.trans (least i bound under)
        · rename_i more
          exact ih (order.lowered low below (by omega) least (not_lt.mp more)) (by omega)
            (by rw [exch_last]; omega)
      · rename_i single
        split
        · rename_i none
          exact order.finish fun i _ bound under => by omega
        · rename_i some
          split
          · rename_i less
            refine order.finish fun i _ bound under => ?_
            obtain rfl : i = index * 2 := by omega
            exact less.le
          · rename_i more
            have below : index * 2 / 2 = index := by omega
            have least : ∀ i, i ≤ h.last → i / 2 = index →
                key (h.item (index * 2)) ≤ key (h.item i) := by
              intro i _ under
              obtain rfl : i = index * 2 := by omega
              exact le_refl _
            have lowered := order.lowered low below (by omega) least (not_lt.mp more)
            refine lowered.finish fun i _ bound under => ?_
            rw [exch_last] at bound
            omega

theorem topDown_stays (steps : Nat)
    (less : ∀ i, i ≤ h.last → i / 2 = index → key (h.item index) < key (h.item i)) :
    h.topDown key steps index = h := by
  cases steps with
  | zero => rfl
  | succ steps =>
      unfold topDown
      split
      · rename_i both
        have pick := @smallest_cases _ _ _ key h (index * 2) (index * 2 + 1)
        generalize h.smallest key (index * 2) (index * 2 + 1) = child at pick
        exact if_pos (less child (by omega) (by omega))
      · rename_i single
        split
        · rfl
        · rename_i some
          exact if_pos (less (index * 2) (by omega) (by omega))

theorem Ordered.root_le (ordered : Ordered key h) (i : Nat) :
    1 ≤ i → i ≤ h.last → key (h.item 1) ≤ key (h.item i) := by
  induction i using Nat.strongRecOn with
  | ind i ih =>
      intro low high
      by_cases root : i = 1
      · rw [root]
      · exact (ih (i / 2) (by omega) (by omega) (by omega)).trans (ordered i (by omega) high)

/-- `BottomUp` after an item has been appended. -/
theorem Ordered.push (ordered : Ordered key h) (item : Item) :
    UpOrder key (h.push item) (h.last + 1) := by
  constructor
  · intro i low high different
    rw [push_last] at high
    simp only [Heap.push]
    rw [if_neg (by omega), if_neg different]
    exact ordered i low (by omega)
  · intro _ i _ high under
    rw [push_last] at high
    omega

def hollow (h : Heap Item) (index : Nat) : Heap Item := (h.exch index h.last).pop

theorem hollow_items (low : 1 ≤ index) (high : index ≤ h.last) :
    (h.item index :: (h.hollow index).items).Perm h.items := by
  have whole := h.exch_items ⟨low, high⟩ ⟨by omega, Nat.le_refl h.last⟩
  rw [pop_items (h.exch index h.last) (by rw [exch_last]; omega), exch_last, exch_second] at whole
  exact List.perm_append_comm.trans whole

theorem hollow_item {i : Nat} (low : 1 ≤ i) (high : i ≤ (h.hollow index).last) :
    (h.hollow index).item i = if i = index then h.item h.last else h.item i := by
  simp only [hollow, pop_last, exch_last] at high
  unfold hollow
  rw [pop_item]
  by_cases here : i = index
  · rw [here, exch_first, if_pos rfl]
  · rw [if_neg here]
    by_cases last : i = h.last
    · omega
    · rw [exch_other h here last]

/-- The item that is moved is not less than the parent of its new place. -/
def Fits (key : Item → Key) (h : Heap Item) (index : Nat) : Prop :=
  2 ≤ index → index < h.last → key (h.item (index / 2)) ≤ key (h.item h.last)

theorem Ordered.hollow (ordered : Ordered key h) (low : 1 ≤ index) (fits : Fits key h index) :
    DownOrder key (h.hollow index) index := by
  have last : (h.hollow index).last = h.last - 1 := rfl
  constructor
  · intro i two bound apart
    rw [hollow_item (by omega) bound, hollow_item (by omega) (by omega), if_neg apart]
    split
    · rename_i here
      subst here
      exact fits two (by omega)
    · exact ordered i two (by omega)
  · intro two i first bound under
    rw [hollow_item (by omega) bound, hollow_item (by omega) (by omega), if_neg (by omega),
      if_neg (by omega)]
    have upper := ordered index two (by omega)
    have lower := ordered i first (by omega)
    rw [under] at lower
    exact upper.trans lower

/-- Filling a place from the end and moving the item down restores the order exactly if it fits. -/
theorem Ordered.hollow_iff (ordered : Ordered key h) (low : 1 ≤ index)
    (steps : Nat) (enough : h.last ≤ steps + index) :
    Ordered key ((h.hollow index).topDown key steps index) ↔ Fits key h index := by
  have last : (h.hollow index).last = h.last - 1 := rfl
  constructor
  · intro restored two inside
    by_contra small
    have less := not_le.mp small
    -- the item is below the children of its place too, so it is not moved
    have stays : (h.hollow index).topDown key steps index = h.hollow index := by
      refine topDown_stays steps fun i bound under => ?_
      rw [hollow_item low (by omega), hollow_item (by omega) bound, if_pos rfl, if_neg (by omega)]
      have upper := ordered index two (by omega)
      have lower := ordered i (by omega) (by omega)
      rw [under] at lower
      exact less.trans_le (upper.trans lower)
    rw [stays] at restored
    have broken := restored index two (by omega)
    rw [hollow_item (by omega) (by omega), hollow_item low (by omega), if_neg (by omega),
      if_pos rfl] at broken
    exact small broken
  · intro fits
    by_cases empty : h.last ≤ index
    · have down := ordered.hollow low fits
      cases steps with
      | zero =>
          exact down.finish fun i _ bound under => by omega
      | succ steps => exact topDown_ordered _ down low (by omega)
    · exact topDown_ordered _ (ordered.hollow low fits) low (by omega)

end Heap

end BinaryHeap
