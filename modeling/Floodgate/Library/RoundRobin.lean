import Mathlib.Data.Finset.Card
import Mathlib.Tactic.Common

/-! A round robin over `n` places: the one after the last place served comes first. -/

namespace RoundRobin

variable {n last : Nat}

def place (n last k : Nat) : Nat := (k + 1 + last) % n

def distance (n last i : Nat) : Nat := (i + n - (last + 1) % n) % n

theorem mod_second {total : Nat} (below : total < n + n) :
    total % n = if total < n then total else total - n := by
  split
  · exact Nat.mod_eq_of_lt ‹_›
  · rw [Nat.mod_eq_sub_mod (Nat.le_of_not_lt ‹_›)]
    exact Nat.mod_eq_of_lt (by omega)

theorem place_lt (some : 0 < n) (k : Nat) : place n last k < n := Nat.mod_lt _ some

theorem distance_lt (some : 0 < n) (i : Nat) : distance n last i < n := Nat.mod_lt _ some

theorem place_eq {k : Nat} (below : k < n) : place n last k =
    if k + (last + 1) % n < n then k + (last + 1) % n else k + (last + 1) % n - n := by
  have first : (last + 1) % n < n := Nat.mod_lt _ (by omega)
  have order : k + 1 + last = k + (last + 1) := by omega
  unfold place
  rw [order, Nat.add_mod, Nat.mod_eq_of_lt below]
  exact mod_second (by omega)

theorem distance_eq {i : Nat} (below : i < n) : distance n last i =
    if i < (last + 1) % n then i + n - (last + 1) % n else i - (last + 1) % n := by
  have first : (last + 1) % n < n := Nat.mod_lt _ (by omega)
  unfold distance
  rw [mod_second (by omega)]
  by_cases before : i < (last + 1) % n
  · rw [if_pos before, if_pos (by omega)]
  · rw [if_neg before, if_neg (by omega)]
    omega

theorem place_distance {i : Nat} (below : i < n) : place n last (distance n last i) = i := by
  have first : (last + 1) % n < n := Nat.mod_lt _ (by omega)
  rw [place_eq (distance_lt (by omega) i), distance_eq below]
  by_cases before : i < (last + 1) % n
  · rw [if_pos before, if_neg (by omega)]
    omega
  · rw [if_neg before, if_pos (by omega)]
    omega

theorem distance_place {k : Nat} (below : k < n) : distance n last (place n last k) = k := by
  have first : (last + 1) % n < n := Nat.mod_lt _ (by omega)
  rw [distance_eq (place_lt (by omega) k), place_eq below]
  by_cases same : k + (last + 1) % n < n
  · rw [if_pos same, if_neg (by omega)]
    omega
  · rw [if_neg same, if_pos (by omega)]
    omega

theorem distance_inj {i j : Nat} (iBelow : i < n) (jBelow : j < n)
    (same : distance n last i = distance n last j) : i = j := by
  have back : place n last (distance n last i) = i := place_distance iBelow
  rw [← back, same, place_distance jBelow]

theorem distance_trans {i j : Nat} (iBelow : i < n) (jBelow : j < n)
    (within : distance n last i + 1 + distance n i j < n) :
    distance n last j = distance n last i + 1 + distance n i j := by
  have first : (last + 1) % n < n := Nat.mod_lt _ (by omega)
  have next : (i + 1) % n = if i + 1 < n then i + 1 else i + 1 - n := mod_second (by omega)
  rw [distance_eq iBelow, distance_eq jBelow, next] at within
  rw [distance_eq iBelow, distance_eq jBelow, distance_eq jBelow, next]
  generalize (last + 1) % n = start at first within ⊢
  split_ifs at within ⊢
  all_goals omega

/-- Serving a place brings every later one nearer. -/
theorem distance_served {i j : Nat} (iBelow : i < n) (jBelow : j < n)
    (before : distance n last i < distance n last j) :
    distance n last j = distance n last i + 1 + distance n i j := by
  have first : (last + 1) % n < n := Nat.mod_lt _ (by omega)
  have next : (i + 1) % n = if i + 1 < n then i + 1 else i + 1 - n := mod_second (by omega)
  rw [distance_eq iBelow, distance_eq jBelow] at before
  rw [distance_eq iBelow, distance_eq jBelow, distance_eq jBelow, next]
  generalize (last + 1) % n = start at first before ⊢
  split_ifs at before ⊢
  all_goals omega

section Ahead

variable (counts : Nat → Bool)

def ahead (n last j : Nat) : Finset Nat :=
  (Finset.range n).filter fun i => counts i && decide (distance n last i < distance n last j)

variable {counts}

/-- Serving a place that is ahead of `j` leaves fewer of them. -/
theorem ahead_served {i j : Nat} (jBelow : j < n) (isAhead : i ∈ ahead counts n last j) :
    ahead counts n i j ⊂ ahead counts n last j := by
  obtain ⟨iIn, iKind⟩ := Finset.mem_filter.mp isAhead
  have iBelow := Finset.mem_range.mp iIn
  obtain ⟨_, before⟩ := Bool.and_eq_true_iff.mp iKind
  have before := of_decide_eq_true before
  have served := distance_served iBelow jBelow before
  apply (Finset.ssubset_iff_of_subset ?_).mpr
  · refine ⟨i, isAhead, fun still => ?_⟩
    obtain ⟨_, nearer⟩ := Bool.and_eq_true_iff.mp (Finset.mem_filter.mp still).2
    have whole : distance n i i + 1 = n := by
      rw [distance_eq iBelow]
      have next : (i + 1) % n = if i + 1 < n then i + 1 else i + 1 - n := mod_second (by omega)
      rw [next]
      split_ifs
      all_goals omega
    have nearer := of_decide_eq_true nearer
    have bound : distance n i j < n := distance_lt (by omega) j
    omega
  · intro other member
    obtain ⟨inRange, kind⟩ := Finset.mem_filter.mp member
    obtain ⟨counted, nearer⟩ := Bool.and_eq_true_iff.mp kind
    have nearer := of_decide_eq_true nearer
    have bound : distance n last j < n := distance_lt (by omega) j
    have within : distance n last i + 1 + distance n i other < n := by omega
    have through := distance_trans iBelow (Finset.mem_range.mp inRange) within
    refine Finset.mem_filter.mpr ⟨inRange, Bool.and_eq_true_iff.mpr ⟨counted, ?_⟩⟩
    exact decide_eq_true (by omega)

theorem ahead_subset (last j : Nat) :
    ahead counts n last j ⊆ ((Finset.range n).filter fun i => counts i).erase j := by
  intro i member
  obtain ⟨inRange, kind⟩ := Finset.mem_filter.mp member
  obtain ⟨counted, before⟩ := Bool.and_eq_true_iff.mp kind
  have before := of_decide_eq_true before
  refine Finset.mem_erase.mpr ⟨fun same => ?_, Finset.mem_filter.mpr ⟨inRange, counted⟩⟩
  rw [same] at before
  exact Nat.lt_irrefl _ before

end Ahead

section Visits

variable (wanted : Nat → Bool)

def firstWanted (n last : Nat) : Option Nat :=
  ((List.range n).map (place n last)).find? wanted

variable {wanted}

theorem firstWanted_none : firstWanted wanted n last = none ↔ ∀ i < n, wanted i = false := by
  unfold firstWanted
  rw [List.find?_eq_none]
  constructor
  · intro none i below
    have visited : i ∈ (List.range n).map (place n last) := by
      refine List.mem_map.mpr ⟨distance n last i, ?_, place_distance below⟩
      exact List.mem_range.mpr (distance_lt (by omega) i)
    exact Bool.eq_false_iff.mpr (none i visited)
  · intro none i visited
    obtain ⟨k, inRange, rfl⟩ := List.mem_map.mp visited
    have below := List.mem_range.mp inRange
    rw [none _ (place_lt (by omega) k)]
    exact Bool.false_ne_true

theorem firstWanted_some {i : Nat} (found : firstWanted wanted n last = some i) :
    i < n ∧ wanted i = true ∧
      ∀ j < n, wanted j = true → distance n last i ≤ distance n last j := by
  unfold firstWanted at found
  obtain ⟨iWanted, k, inList, here, first⟩ := List.find?_eq_some_iff_getElem.mp found
  have below : k < n := by simpa using inList
  simp only [List.getElem_map, List.getElem_range] at here first
  subst here
  refine ⟨place_lt (by omega) k, iWanted, fun j jBelow jWanted => ?_⟩
  rw [distance_place below]
  by_contra nearer
  have unwanted := first (distance n last j) (by omega)
  rw [place_distance jBelow, jWanted] at unwanted
  contradiction

end Visits

end RoundRobin
