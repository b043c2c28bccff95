import Mathlib.Data.List.Sort
import Mathlib.Tactic.Common

/-! A queue of items in the order of their keys, and what another store of the same items gives. -/

namespace SortedQueue

variable {Item Key : Type} [LinearOrder Key] (key : Item → Key)

def insert (item : Item) : List Item → List Item
  | [] => [item]
  | first :: rest =>
      if key item < key first then item :: first :: rest else first :: insert item rest

def take (test : Item → Bool) : List Item → Option (Item × List Item)
  | [] => none
  | first :: rest =>
      if test first then some (first, rest)
      else (take test rest).map fun found => (found.1, first :: found.2)

def Ordered (items : List Item) : Prop :=
  items.Pairwise fun earlier later => key earlier < key later

variable {key} {item : Item} {items : List Item}

theorem insert_perm (item : Item) (items : List Item) :
    (insert key item items).Perm (item :: items) := by
  induction items with
  | nil => exact .refl _
  | cons first rest ih =>
      unfold insert
      split
      · exact .refl _
      · exact (ih.cons first).trans (.swap item first rest)

theorem mem_insert {other : Item} :
    other ∈ insert key item items ↔ other = item ∨ other ∈ items := by
  rw [(insert_perm item items).mem_iff, List.mem_cons]

theorem Ordered.insert (ordered : Ordered key items)
    (fresh : ∀ other ∈ items, key other ≠ key item) : Ordered key (insert key item items) := by
  induction items with
  | nil => exact List.pairwise_singleton _ _
  | cons first rest ih =>
      obtain ⟨least, later⟩ := List.pairwise_cons.mp ordered
      unfold SortedQueue.insert
      split
      · rename_i before
        refine List.pairwise_cons.mpr ⟨fun other member => ?_, ordered⟩
        rcases List.mem_cons.mp member with rfl | inside
        · exact before
        · exact before.trans (least other inside)
      · rename_i after
        refine List.pairwise_cons.mpr ⟨fun other member => ?_,
          ih later fun other member => fresh other (List.mem_cons_of_mem _ member)⟩
        rcases mem_insert.mp member with rfl | inside
        · exact lt_of_le_of_ne (not_lt.mp after) (fresh first List.mem_cons_self)
        · exact least other inside

theorem Ordered.head_lt {first : Item} {rest : List Item} (ordered : Ordered key (first :: rest)) :
    ∀ other ∈ rest, key first < key other :=
  (List.pairwise_cons.mp ordered).1

theorem Ordered.tail {first : Item} {rest : List Item} (ordered : Ordered key (first :: rest)) :
    Ordered key rest :=
  (List.pairwise_cons.mp ordered).2

theorem take_some {test : Item → Bool} {found : Item × List Item}
    (taken : take test items = some found) :
    ∃ before after, items = before ++ found.1 :: after ∧ found.2 = before ++ after ∧
      test found.1 = true ∧ ∀ other ∈ before, test other = false := by
  induction items generalizing found with
  | nil => exact absurd taken (by simp [take])
  | cons first rest ih =>
      unfold take at taken
      split at taken
      · rename_i passes
        obtain rfl := Option.some.inj taken
        exact ⟨[], rest, rfl, rfl, passes, fun _ member => absurd member (by simp)⟩
      · rename_i fails
        obtain ⟨inner, later, rfl⟩ := Option.map_eq_some_iff.mp taken
        obtain ⟨before, after, whole, left, passes, others⟩ := ih later
        refine ⟨first :: before, after, by simp [whole], by simp [left], passes,
          fun other member => ?_⟩
        rcases List.mem_cons.mp member with rfl | inside
        · exact Bool.eq_false_iff.mpr fails
        · exact others other inside

theorem take_perm {test : Item → Bool} {found : Item × List Item}
    (taken : take test items = some found) : items.Perm (found.1 :: found.2) := by
  obtain ⟨before, after, whole, left, -⟩ := take_some taken
  rw [whole, left]
  exact List.perm_middle

theorem take_none {test : Item → Bool} :
    take test items = none ↔ ∀ other ∈ items, test other = false := by
  induction items with
  | nil => simp [take]
  | cons first rest ih =>
      unfold take
      split
      · rename_i passes
        simp [passes]
      · rename_i fails
        rw [Option.map_eq_none_iff, ih, List.forall_mem_cons]
        exact (and_iff_right (Bool.eq_false_iff.mpr fails)).symm

theorem Ordered.take {test : Item → Bool} {found : Item × List Item} (ordered : Ordered key items)
    (taken : take test items = some found) : Ordered key found.2 := by
  obtain ⟨before, after, rfl, left, -⟩ := take_some taken
  rw [left]
  exact ordered.sublist ((List.Sublist.refl before).append (List.sublist_cons_self _ _))

end SortedQueue
