import Mathlib.Algebra.Order.Monoid.Canonical.Defs
import Mathlib.Algebra.Order.BigOperators.Group.List
import Mathlib.Tactic.Common

/-! Shortest paths between all nodes by relaxing one entry after the other, with the intermediate
node that each entry last went through. Several passes may share the table of these nodes. -/

namespace FloydWarshall

structure Tables (Node Weight : Type) where
  dist : Node → Node → Weight
  next : Node → Node → Node

variable {Node Weight : Type} [DecidableEq Node] [AddCommMonoid Weight] [LinearOrder Weight]

section Definitions

variable (t : Tables Node Weight)

def relax (k i j : Node) : Tables Node Weight :=
  if t.dist i k + t.dist k j < t.dist i j then
    { dist := fun a b => if a = i ∧ b = j then t.dist i k + t.dist k j else t.dist a b
      next := fun a b => if a = i ∧ b = j then k else t.next a b }
  else t

def run (steps : List (Node × Node × Node)) : Tables Node Weight :=
  steps.foldl (fun t step => relax t step.1 step.2.1 step.2.2) t

def round (nodes : List Node) (k : Node) : List (Node × Node × Node) :=
  nodes.flatMap fun i => nodes.map fun j => (k, i, j)

def pass (nodes : List Node) : Tables Node Weight := run t (nodes.flatMap (round nodes))

def cost (dist : Node → Node → Weight) : Node → List Node → Node → Weight
  | i, [], j => dist i j
  | i, k :: rest, j => dist i k + cost dist k rest j

/-- Entries are as at the start, or go through another node over which they were not longer. -/
def Goes (nodes : List Node) (start t : Tables Node Weight) (i j : Node) : Prop :=
  (t.dist i j = start.dist i j ∧ t.next i j = start.next i j) ∨
    (t.next i j ∈ nodes ∧ t.next i j ≠ i ∧ t.next i j ≠ j ∧
      t.dist i (t.next i j) + t.dist (t.next i j) j ≤ t.dist i j ∧ t.dist i j < start.dist i j)

end Definitions

section Steps

variable {t : Tables Node Weight} {k i j : Node}

theorem relax_le (a b : Node) : (relax t k i j).dist a b ≤ t.dist a b := by
  unfold relax
  split
  · rename_i shorter
    simp only
    split
    · rename_i here
      rw [here.1, here.2]
      exact shorter.le
    · exact le_refl _
  · exact le_refl _

theorem run_le (steps : List (Node × Node × Node)) (a b : Node) :
    (run t steps).dist a b ≤ t.dist a b := by
  induction steps generalizing t with
  | nil => exact le_refl _
  | cons step rest ih => exact ih.trans (relax_le a b)

theorem run_append (first second : List (Node × Node × Node)) :
    run t (first ++ second) = run (run t first) second := List.foldl_append

theorem relax_self : (relax t k i j).dist i j ≤ t.dist i k + t.dist k j := by
  unfold relax
  split
  · simp
  · rename_i longer
    exact not_lt.mp longer

end Steps

section Ways

omit [DecidableEq Node] [LinearOrder Weight]

theorem cost_append (dist : Node → Node → Weight) (i : Node) (first : List Node) (k : Node)
    (second : List Node) (j : Node) :
    cost dist i (first ++ k :: second) j = cost dist i first k + cost dist k second j := by
  induction first generalizing i with
  | nil => rfl
  | cons x rest ih =>
      show dist i x + cost dist x (rest ++ k :: second) j =
        dist i x + cost dist x rest k + cost dist k second j
      rw [ih, add_assoc]

theorem mem_round {nodes : List Node} {k : Node} {step : Node × Node × Node} :
    step ∈ round nodes k ↔ step.1 = k ∧ step.2.1 ∈ nodes ∧ step.2.2 ∈ nodes := by
  obtain ⟨k', a, b⟩ := step
  simp only [round, List.mem_flatMap, List.mem_map, Prod.mk.injEq]
  constructor
  · rintro ⟨i, source, j, target, rfl, rfl, rfl⟩
    exact ⟨rfl, source, target⟩
  · rintro ⟨rfl, source, target⟩
    exact ⟨a, source, b, target, rfl, rfl, rfl⟩

end Ways

section Ordered

variable [IsOrderedAddMonoid Weight] {t : Tables Node Weight} {k i j : Node}

/-- Every relaxed entry is at most the way through `k` at the start. -/
theorem run_relaxed {steps : List (Node × Node × Node)} (member : (k, i, j) ∈ steps) :
    (run t steps).dist i j ≤ t.dist i k + t.dist k j := by
  obtain ⟨before, later, rfl⟩ := List.append_of_mem member
  rw [run_append]
  calc
    (run (run t before) ((k, i, j) :: later)).dist i j
      ≤ (relax (run t before) k i j).dist i j := run_le later i j
    _ ≤ (run t before).dist i k + (run t before).dist k j := relax_self
    _ ≤ t.dist i k + t.dist k j := add_le_add (run_le before i k) (run_le before k j)

variable [CanonicallyOrderedAdd Weight]

omit [DecidableEq Node] [IsOrderedAddMonoid Weight] in
/-- A relaxation that shortens goes through a third node. -/
theorem relax_apart (shorter : t.dist i k + t.dist k j < t.dist i j) : k ≠ i ∧ k ≠ j := by
  constructor
  · rintro rfl
    exact absurd shorter (not_lt.mpr le_add_self)
  · rintro rfl
    exact absurd shorter (not_lt.mpr le_self_add)

theorem relax_goes {nodes : List Node} {start : Tables Node Weight} (inside : k ∈ nodes)
    (goes : ∀ a b, Goes nodes start t a b) (a b : Node) :
    Goes nodes start (relax t k i j) a b := by
  by_cases shorter : t.dist i k + t.dist k j < t.dist i j
  · obtain ⟨notSource, notTarget⟩ := relax_apart shorter
    by_cases here : a = i ∧ b = j
    · obtain ⟨rfl, rfl⟩ := here
      have below : t.dist a b ≤ start.dist a b := by
        rcases goes a b with ⟨same, -⟩ | ⟨-, -, -, -, less⟩
        · exact same.le
        · exact less.le
      right
      have next : (relax t k a b).next a b = k := by simp [relax, shorter]
      have dist : (relax t k a b).dist a b = t.dist a k + t.dist k b := by simp [relax, shorter]
      rw [next, dist]
      exact ⟨inside, notSource, notTarget, add_le_add (relax_le a k) (relax_le k b),
        shorter.trans_le below⟩
    · have next : (relax t k i j).next a b = t.next a b := by simp [relax, shorter, here]
      have dist : (relax t k i j).dist a b = t.dist a b := by simp [relax, shorter, here]
      rcases goes a b with same | ⟨known, first, last, through, less⟩
      · left
        rw [next, dist]
        exact same
      · right
        rw [next, dist]
        exact ⟨known, first, last, (add_le_add (relax_le a _) (relax_le _ b)).trans through, less⟩
  · rw [relax, if_neg shorter]
    exact goes a b

theorem run_goes {nodes : List Node} {start : Tables Node Weight}
    {steps : List (Node × Node × Node)} (inside : ∀ step ∈ steps, step.1 ∈ nodes)
    (goes : ∀ a b, Goes nodes start t a b) (a b : Node) : Goes nodes start (run t steps) a b := by
  induction steps generalizing t with
  | nil => exact goes a b
  | cons step rest ih =>
      exact ih (fun other member => inside other (List.mem_cons_of_mem _ member))
        (relax_goes (inside step List.mem_cons_self) goes)

theorem pass_goes (nodes : List Node) (t : Tables Node Weight) (a b : Node) :
    Goes nodes t (pass t nodes) a b := by
  refine run_goes (fun step member => ?_) (fun _ _ => .inl ⟨rfl, rfl⟩) a b
  obtain ⟨k, known, here⟩ := List.mem_flatMap.mp member
  rw [(mem_round.mp here).1]
  exact known

/-- Ways over the nodes `inner` are not shorter than the entries. -/
def Bounds (nodes inner : List Node) (start t : Tables Node Weight) : Prop :=
  ∀ i ∈ nodes, ∀ j ∈ nodes, ∀ way : List Node, (∀ node ∈ way, node ∈ inner) →
    t.dist i j ≤ cost start.dist i way j

omit [IsOrderedAddMonoid Weight] in
/-- From the node of a round, ways that come back to it are not shorter. -/
theorem Bounds.from_node {nodes inner : List Node} {start : Tables Node Weight}
    (bounds : Bounds nodes inner start t) (known : k ∈ nodes) (target : j ∈ nodes) (n : Nat)
    (way : List Node) (short : way.length ≤ n) (visits : ∀ node ∈ way, node ∈ inner ∨ node = k) :
    t.dist k j ≤ cost start.dist k way j := by
  induction n generalizing way with
  | zero =>
      obtain rfl := List.length_eq_zero_iff.mp (Nat.le_zero.mp short)
      exact bounds k known j target [] fun _ member => absurd member List.not_mem_nil
  | succ n ih =>
      by_cases back : k ∈ way
      · obtain ⟨first, second, rfl⟩ := List.append_of_mem back
        rw [cost_append]
        have shorter : second.length ≤ n := by
          rw [List.length_append, List.length_cons] at short
          omega
        refine (ih second shorter fun node member => visits node ?_).trans le_add_self
        exact List.mem_append_right _ (List.mem_cons_of_mem _ member)
      · refine bounds k known j target way fun node member => ?_
        rcases visits node member with inside | rfl
        · exact inside
        · exact absurd member back

theorem Bounds.rounded {nodes inner : List Node} {start : Tables Node Weight}
    (bounds : Bounds nodes inner start t) (known : k ∈ nodes) :
    Bounds nodes (inner ++ [k]) start (run t (round nodes k)) := by
  intro i source j target way visits
  have split : ∀ node ∈ way, node ∈ inner ∨ node = k := by
    intro node member
    simpa using visits node member
  by_cases through : k ∈ way
  · obtain ⟨first, second, rfl, fresh⟩ := List.eq_append_cons_of_mem through
    have earlier : ∀ node ∈ first, node ∈ inner := by
      intro node member
      rcases split node (List.mem_append_left _ member) with inside | rfl
      · exact inside
      · exact absurd member fresh
    have later : ∀ node ∈ second, node ∈ inner ∨ node = k := fun node member =>
      split node (List.mem_append_right _ (List.mem_cons_of_mem _ member))
    have relaxed : (k, i, j) ∈ round nodes k := mem_round.mpr ⟨rfl, source, target⟩
    rw [cost_append]
    calc
      (run t (round nodes k)).dist i j ≤ t.dist i k + t.dist k j := run_relaxed relaxed
      _ ≤ cost start.dist i first k + cost start.dist k second j :=
        add_le_add (bounds i source k known first earlier)
          (bounds.from_node known target second.length second le_rfl later)
  · refine (run_le _ i j).trans (bounds i source j target way fun node member => ?_)
    rcases split node member with inside | rfl
    · exact inside
    · exact absurd member through

theorem Bounds.passed {nodes inner : List Node} {start : Tables Node Weight}
    (bounds : Bounds nodes inner start t) (rest : List Node) (known : ∀ node ∈ rest, node ∈ nodes) :
    Bounds nodes (inner ++ rest) start (run t (rest.flatMap (round nodes))) := by
  induction rest generalizing t inner with
  | nil =>
      rw [List.append_nil]
      exact bounds
  | cons k rest ih =>
      rw [List.flatMap_cons, run_append]
      have first := bounds.rounded (known k List.mem_cons_self)
      have others := ih first fun node member => known node (List.mem_cons_of_mem _ member)
      rwa [List.append_assoc] at others

theorem pass_le_cost (nodes : List Node) (t : Tables Node Weight) {i j : Node} (source : i ∈ nodes)
    (target : j ∈ nodes) {way : List Node} (visits : ∀ node ∈ way, node ∈ nodes) :
    (pass t nodes).dist i j ≤ cost t.dist i way j := by
  have direct : Bounds nodes [] t t := by
    intro a _ b _ way none
    cases way with
    | nil => exact le_refl _
    | cons k rest => exact absurd (none k List.mem_cons_self) List.not_mem_nil
  exact (direct.passed nodes fun _ known => known) i source j target way visits

end Ordered

section Positive

variable [CanonicallyOrderedAdd Weight] {t : Tables Node Weight} {k i j : Node}

def Apart (t : Tables Node Weight) : Prop := ∀ i j, i ≠ j → 0 < t.dist i j

theorem relax_apart_kept (apart : Apart t) : Apart (relax t k i j) := by
  intro a b different
  unfold relax
  split
  · rename_i shorter
    simp only
    split
    · rename_i here
      have third := (relax_apart shorter).1
      exact (apart i k third.symm).trans_le le_self_add
    · exact apart a b different
  · exact apart a b different

theorem pass_apart (apart : Apart t) (nodes : List Node) : Apart (pass t nodes) := by
  unfold pass
  generalize nodes.flatMap (round nodes) = steps
  induction steps generalizing t with
  | nil => exact apart
  | cons step rest ih => exact ih (relax_apart_kept apart)

end Positive

section Hops

variable [IsOrderedCancelAddMonoid Weight] {nodes : List Node} {start t : Tables Node Weight}
  {i j : Node}

omit [DecidableEq Node] in
/-- The next node of a shortened entry is another one, and nearer. -/
theorem Goes.closer (apart : Apart t) (goes : Goes nodes start t i j)
    (shortened : t.dist i j < start.dist i j) :
    t.next i j ∈ nodes ∧ t.next i j ≠ i ∧ t.dist i (t.next i j) < t.dist i j := by
  rcases goes with ⟨same, -⟩ | ⟨known, notSource, notTarget, through, -⟩
  · exact absurd same shortened.ne
  · have onwards : 0 < t.dist (t.next i j) j := apart _ _ notTarget
    exact ⟨known, notSource, (lt_add_of_pos_right _ onwards).trans_le through⟩

end Hops

end FloydWarshall
