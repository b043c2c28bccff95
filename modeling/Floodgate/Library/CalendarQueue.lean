import Floodgate.Library.SortedQueue
import Mathlib.Data.List.Range
import Mathlib.Data.Nat.ModEq
import Mathlib.Tactic.Common

/-! Calendar queues: items in buckets by their days, every bucket in order, and the year of days
from which the earliest item is taken. -/

namespace CalendarQueue

open SortedQueue (Ordered)

variable {Item Key : Type} [LinearOrder Key]

def items (bucket : Nat → List Item) (n : Nat) : List Item := (List.range n).flatMap bucket

def replace (bucket : Nat → List Item) (i : Nat) (list : List Item) : Nat → List Item :=
  fun j => if j = i then list else bucket j

/-- Every bucket is in order and has the items of its days, one of `n`. -/
structure Placed (key : Item → Key) (day : Item → Nat) (bucket : Nat → List Item) (n : Nat) :
    Prop where
  ordered : ∀ i < n, Ordered key (bucket i)
  placed : ∀ i < n, ∀ item ∈ bucket i, day item % n = i

variable {key : Item → Key} {day : Item → Nat} {bucket : Nat → List Item} {n i : Nat} {item : Item}

theorem mem_items : item ∈ items bucket n ↔ ∃ i < n, item ∈ bucket i := by
  simp [items, List.mem_flatMap]

theorem items_congr {other : Nat → List Item} (same : ∀ j < n, other j = bucket j) :
    items other n = items bucket n :=
  List.flatMap_congr fun j member => same j (List.mem_range.mp member)

theorem items_succ : items bucket (n + 1) = items bucket n ++ bucket n := by
  simp [items, List.range_succ]

theorem items_more {other : Nat → List Item} (inside : i < n)
    (more : (other i).Perm (item :: bucket i)) (rest : ∀ j, j ≠ i → other j = bucket j) :
    (items other n).Perm (item :: items bucket n) := by
  induction n with
  | zero => omega
  | succ n ih =>
      rw [items_succ, items_succ]
      by_cases last : i = n
      · subst last
        rw [items_congr fun j below => rest j (by omega)]
        exact (more.append_left _).trans List.perm_middle
      · rw [rest n (Ne.symm last)]
        exact (ih (by omega)).append_right _

theorem items_put (inside : i < n) :
    (items (replace bucket i (SortedQueue.insert key item (bucket i))) n).Perm
      (item :: items bucket n) := by
  refine items_more inside ?_ fun j other => if_neg other
  rw [replace, if_pos rfl]
  exact SortedQueue.insert_perm item _

theorem items_taken {rest : List Item} (inside : i < n) (taken : (bucket i).Perm (item :: rest)) :
    (items bucket n).Perm (item :: items (replace bucket i rest) n) := by
  refine items_more inside ?_ fun j other => (if_neg other).symm
  rwa [replace, if_pos rfl]

theorem Placed.put (sound : Placed key day bucket n) (some : 0 < n)
    (fresh : ∀ other ∈ items bucket n, key other ≠ key item) :
    Placed key day
      (replace bucket (day item % n) (SortedQueue.insert key item (bucket (day item % n)))) n := by
  have inside : day item % n < n := Nat.mod_lt _ some
  constructor
  · intro i bound
    unfold replace
    split
    · exact (sound.ordered _ inside).insert fun other member =>
        fresh other (mem_items.mpr ⟨_, inside, member⟩)
    · exact sound.ordered i bound
  · intro i bound other member
    unfold replace at member
    split at member
    · rename_i here
      rw [here]
      rcases SortedQueue.mem_insert.mp member with rfl | old
      · rfl
      · exact sound.placed _ inside other old
    · exact sound.placed i bound other member

theorem Placed.less (sound : Placed key day bucket n) {rest : List Item}
    (fewer : List.Sublist rest (bucket i)) : Placed key day (replace bucket i rest) n := by
  constructor
  · intro j bound
    unfold replace
    split
    · rename_i here
      exact (sound.ordered i (here ▸ bound)).sublist fewer
    · exact sound.ordered j bound
  · intro j bound other member
    unfold replace at member
    split at member
    · rename_i here
      rw [here]
      exact sound.placed i (here ▸ bound) other (fewer.subset member)
    · exact sound.placed j bound other member

theorem Placed.none : Placed key day (fun _ => []) n :=
  ⟨fun _ _ => List.Pairwise.nil, fun _ _ _ member => absurd member (by simp)⟩

theorem items_none : items (fun _ => ([] : List Item)) n = [] := by simp [items]

theorem Placed.front_le (sound : Placed key day bucket n) {next : Item} {rest : List Item}
    (inside : i < n) (front : bucket i = next :: rest) :
    ∀ other ∈ bucket i, key next ≤ key other := by
  intro other member
  have ordered := sound.ordered i inside
  rw [front] at ordered member
  rcases List.mem_cons.mp member with rfl | later
  · exact le_refl _
  · exact (ordered.head_lt other later).le

section Year

variable {today : Nat}

theorem Placed.today_least (sound : Placed key day bucket n)
    (days : ∀ first second, key first ≤ key second → day first ≤ day second)
    (after : ∀ other ∈ items bucket n, today ≤ day other) {next : Item} {rest : List Item}
    (some : 0 < n) (front : bucket (today % n) = next :: rest) (now : day next ≤ today) :
    ∀ other ∈ items bucket n, key next ≤ key other := by
  intro other member
  obtain ⟨i, inside, here⟩ := mem_items.mp member
  by_cases same : i = today % n
  · rw [same] at here
    exact sound.front_le (Nat.mod_lt _ some) front other here
  · by_contra less
    have back := days other next (not_le.mp less).le
    have exactly : day other = today := Nat.le_antisymm (back.trans now) (after other member)
    have place := sound.placed i inside other here
    rw [exactly] at place
    exact same place.symm

theorem Placed.tomorrow (sound : Placed key day bucket n)
    (days : ∀ first second, key first ≤ key second → day first ≤ day second)
    (after : ∀ other ∈ items bucket n, today ≤ day other)
    (nothing : ∀ next rest, bucket (today % n) = next :: rest → today < day next) :
    ∀ other ∈ items bucket n, today + 1 ≤ day other := by
  intro other member
  refine Nat.succ_le_of_lt (Nat.lt_of_le_of_ne (after other member) fun same => ?_)
  obtain ⟨i, inside, here⟩ := mem_items.mp member
  have place := sound.placed i inside other here
  rw [← same] at place
  rw [← place] at here inside
  cases front : bucket (today % n) with
  | nil =>
      rw [front] at here
      exact absurd here (by simp)
  | cons next rest =>
      have bound := days next other (sound.front_le inside front other here)
      have := nothing next rest front
      omega

/-- The least front of the buckets of the first `count` days of a year. -/
def LeastFront (key : Item → Key) (bucket : Nat → List Item) (n first count : Nat) :
    Option (Item × Nat) → Prop
  | none => ∀ j < count, bucket ((first + j) % n) = []
  | some (least, i) => (i < n ∧ ∃ rest, bucket i = least :: rest) ∧
      ∀ j < count, ∀ next rest, bucket ((first + j) % n) = next :: rest → key least ≤ key next

theorem year_day (first : Nat) (inside : i < n) : ∃ j < n, (first + j) % n = i := by
  have bound := Nat.mod_lt first (show 0 < n by omega)
  by_cases before : i < first % n
  · refine ⟨n + i - first % n, by omega, ?_⟩
    rw [Nat.add_mod, Nat.mod_eq_of_lt (show n + i - first % n < n by omega),
      show first % n + (n + i - first % n) = i + n by omega, Nat.add_mod_right,
      Nat.mod_eq_of_lt inside]
  · refine ⟨i - first % n, by omega, ?_⟩
    rw [Nat.add_mod, Nat.mod_eq_of_lt (show i - first % n < n by omega),
      show first % n + (i - first % n) = i by omega, Nat.mod_eq_of_lt inside]

theorem year_again {first j : Nat} (inside : j < n) :
    (first + j + 1) % n = first % n ↔ j + 1 = n := by
  constructor
  · intro same
    have zero : (j + 1) % n = 0 % n := by
      have both : Nat.ModEq n (first + (j + 1)) (first + 0) := same
      exact Nat.ModEq.add_left_cancel' first both
    rw [Nat.zero_mod] at zero
    exact Nat.le_antisymm inside (Nat.le_of_dvd (by omega) (Nat.dvd_of_mod_eq_zero zero))
  · intro same
    rw [show first + j + 1 = first + n by omega, Nat.add_mod_right]

theorem LeastFront.whole (sound : Placed key day bucket n) {first : Nat} {least : Item}
    (found : LeastFront key bucket n first n (some (least, i))) :
    ∀ other ∈ items bucket n, key least ≤ key other := by
  intro other member
  obtain ⟨place, inside, here⟩ := mem_items.mp member
  obtain ⟨j, bound, same⟩ := year_day first inside
  cases front : bucket place with
  | nil =>
      rw [front] at here
      exact absurd here (by simp)
  | cons next rest =>
      rw [← same] at front
      have low := found.2 j bound next rest front
      rw [same] at front
      exact low.trans (sound.front_le inside front other here)

theorem LeastFront.some_of_items {first : Nat} {least : Option (Item × Nat)}
    (found : LeastFront key bucket n first n least) (some : items bucket n ≠ []) :
    ∃ item i, least = Option.some (item, i) := by
  cases least with
  | none =>
      obtain ⟨item, member⟩ := List.exists_mem_of_ne_nil _ some
      obtain ⟨place, inside, here⟩ := mem_items.mp member
      obtain ⟨j, bound, same⟩ := year_day first inside
      have empty := found j bound
      rw [same] at empty
      rw [empty] at here
      exact absurd here (by simp)
  | some pair => exact ⟨pair.1, pair.2, rfl⟩

end Year

end CalendarQueue
