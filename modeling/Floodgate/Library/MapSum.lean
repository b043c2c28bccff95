import Std.Data.ExtTreeMap
import Mathlib.Algebra.BigOperators.Group.Finset.Basic
import Mathlib.Algebra.GroupWithZero.Nat
import Mathlib.Algebra.Order.BigOperators.Group.Finset

/-! Totals over the entries of a finite ordered map, and how one update moves them. -/

namespace MapSum

open Std

theorem sum_change {Index : Type} [DecidableEq Index] (first second : Index → Nat)
    {cover : Finset Index} {point : Index} (inside : point ∈ cover)
    (same : ∀ other ∈ cover, other ≠ point → first other = second other) :
    ∑ index ∈ cover, first index + second point = ∑ index ∈ cover, second index + first point := by
  have rest : ∑ index ∈ cover.erase point, first index =
      ∑ index ∈ cover.erase point, second index := by
    apply Finset.sum_congr rfl
    intro other member
    exact same other (Finset.mem_of_mem_erase member) (Finset.ne_of_mem_erase member)
  rw [← Finset.add_sum_erase _ first inside, ← Finset.add_sum_erase _ second inside, rest]
  omega

variable {Key Value : Type} [Ord Key] [TransOrd Key] [LawfulEqOrd Key]

/-- What one possibly absent entry contributes. -/
def entry (weight : Key → Value → Nat) (map : ExtTreeMap Key Value) (key : Key) : Nat :=
  (map[key]?).elim 0 (weight key)

def sumBy (weight : Key → Value → Nat) (map : ExtTreeMap Key Value) : Nat :=
  (map.toList.map fun pair => weight pair.1 pair.2).sum

theorem nodup_keys (map : ExtTreeMap Key Value) : map.keys.Nodup := by
  have distinct := map.ordered_keys
  refine distinct.imp ?_
  intro a b less same
  subst same
  simp at less

variable [DecidableEq Key]

theorem lookup_insert (map : ExtTreeMap Key Value) (key other : Key) (value : Value) :
    (map.insert key value)[other]? = if other = key then some value else map[other]? := by
  rw [ExtTreeMap.getElem?_insert]
  by_cases same : other = key
  · rw [if_pos same, if_pos (LawfulEqOrd.compare_eq_iff_eq.mpr same.symm)]
  · rw [if_neg same, if_neg fun equal => same (LawfulEqOrd.compare_eq_iff_eq.mp equal).symm]

theorem lookup_erase (map : ExtTreeMap Key Value) (key other : Key) :
    (map.erase key)[other]? = if other = key then none else map[other]? := by
  rw [ExtTreeMap.getElem?_erase]
  by_cases same : other = key
  · rw [if_pos same, if_pos (LawfulEqOrd.compare_eq_iff_eq.mpr same.symm)]
  · rw [if_neg same, if_neg fun equal => same (LawfulEqOrd.compare_eq_iff_eq.mp equal).symm]

theorem insert_insert (map : ExtTreeMap Key Value) (key : Key) (value last : Value) :
    (map.insert key value).insert key last = map.insert key last := by
  apply ExtTreeMap.ext_getElem?
  intro other
  simp only [lookup_insert]
  split <;> rfl

omit [DecidableEq Key] in
theorem mem_erase_iff (map : ExtTreeMap Key Value) (key other : Key) :
    other ∈ map.erase key ↔ other ≠ key ∧ other ∈ map := by
  rw [ExtTreeMap.mem_erase, Ne, LawfulEqOrd.compare_eq_iff_eq, eq_comm]

theorem getD_insert (map : ExtTreeMap Key Value) (key other : Key) (value default : Value) :
    ((map.insert key value)[other]?).getD default =
      if other = key then value else (map[other]?).getD default := by
  rw [lookup_insert]
  split <;> rfl

theorem sumBy_eq_keys (weight : Key → Value → Nat) (map : ExtTreeMap Key Value) :
    sumBy weight map = ∑ key ∈ map.keys.toFinset, entry weight map key := by
  rw [List.sum_toFinset _ (nodup_keys map), ← ExtTreeMap.map_fst_toList_eq_keys, List.map_map]
  unfold sumBy
  congr 1
  apply List.map_congr_left
  intro pair member
  have found : map[pair.1]? = some pair.2 := ExtTreeMap.mem_toList_iff_getElem?_eq_some.mp member
  simp [entry, found]

theorem sumBy_eq_cover (weight : Key → Value → Nat) (map : ExtTreeMap Key Value)
    (cover : Finset Key) (covers : ∀ key, key ∈ map → key ∈ cover) :
    sumBy weight map = ∑ key ∈ cover, entry weight map key := by
  rw [sumBy_eq_keys]
  apply Finset.sum_subset
  · intro key member
    exact covers key (by simpa using member)
  · intro key _ outside
    have absent : map[key]? = none := by simpa using outside
    simp [entry, absent]

theorem sumBy_change (weight : Key → Value → Nat) (first second : ExtTreeMap Key Value) (key : Key)
    (same : ∀ other, other ≠ key → entry weight first other = entry weight second other) :
    sumBy weight first + entry weight second key =
      sumBy weight second + entry weight first key := by
  let cover := insert key (first.keys.toFinset ∪ second.keys.toFinset)
  rw [sumBy_eq_cover weight first cover, sumBy_eq_cover weight second cover]
  · exact sum_change _ _ (Finset.mem_insert_self _ _) fun other _ different => same other different
  · intro other member
    simp [cover, member]
  · intro other member
    simp [cover, member]

theorem sumBy_entry_congr {Other : Type} (weight : Key → Value → Nat) (map : ExtTreeMap Key Value)
    (weight' : Key → Other → Nat) (map' : ExtTreeMap Key Other)
    (same : ∀ key, entry weight map key = entry weight' map' key) :
    sumBy weight map = sumBy weight' map' := by
  let cover := map.keys.toFinset ∪ map'.keys.toFinset
  rw [sumBy_eq_cover weight map cover, sumBy_eq_cover weight' map' cover]
  · exact Finset.sum_congr rfl fun key _ => same key
  · intro other member
    simp [cover, member]
  · intro other member
    simp [cover, member]

theorem sumBy_insert (weight : Key → Value → Nat) (map : ExtTreeMap Key Value)
    (key : Key) (value : Value) :
    sumBy weight (map.insert key value) + entry weight map key =
      sumBy weight map + weight key value := by
  have here : entry weight (map.insert key value) key = weight key value := by
    simp [entry]
  rw [← here]
  apply sumBy_change
  intro other different
  simp [entry, ExtTreeMap.getElem?_insert, different.symm]

theorem sumBy_erase (weight : Key → Value → Nat) (map : ExtTreeMap Key Value) (key : Key) :
    sumBy weight (map.erase key) + entry weight map key = sumBy weight map := by
  have here : entry weight (map.erase key) key = 0 := by
    simp [entry]
  have change := sumBy_change weight (map.erase key) map key (by
    intro other different
    simp [entry, ExtTreeMap.getElem?_erase, different.symm])
  omega

omit [LawfulEqOrd Key] [DecidableEq Key] in
@[simp] theorem sumBy_empty (weight : Key → Value → Nat) :
    sumBy weight (∅ : ExtTreeMap Key Value) = 0 := by
  have none : (∅ : ExtTreeMap Key Value).toList = [] := ExtTreeMap.toList_eq_nil_iff.mpr rfl
  simp [sumBy, none]

theorem entry_le_sumBy (weight : Key → Value → Nat) (map : ExtTreeMap Key Value) (key : Key) :
    entry weight map key ≤ sumBy weight map := by
  have balance := sumBy_erase weight map key
  omega

omit [DecidableEq Key] in
theorem sumBy_congr (first second : Key → Value → Nat) (map : ExtTreeMap Key Value)
    (same : ∀ key value, map[key]? = some value → first key value = second key value) :
    sumBy first map = sumBy second map := by
  unfold sumBy
  congr 1
  apply List.map_congr_left
  intro pair member
  exact same _ _ (ExtTreeMap.mem_toList_iff_getElem?_eq_some.mp member)

theorem sumBy_eq_zero (weight : Key → Value → Nat) (map : ExtTreeMap Key Value) :
    sumBy weight map = 0 ↔ ∀ key value, map[key]? = some value → weight key value = 0 := by
  constructor
  · intro total key value found
    have bound := entry_le_sumBy weight map key
    simp only [entry, found, Option.elim_some] at bound
    omega
  · intro zero
    rw [sumBy_eq_keys]
    apply Finset.sum_eq_zero
    intro key _
    unfold entry
    cases found : map[key]? with
    | none => rfl
    | some value => exact zero key value found

end MapSum
