import Mathlib.Data.List.Nodup
import Mathlib.Data.Finset.Card
import Mathlib.Data.Finset.Range

/-! Breadth-first search from one node that goes on only from relays, with the neighbours through
which each node is reached at its distance. -/

namespace BreadthFirst

variable {Node : Type} [DecidableEq Node]

structure Search (Node : Type) where
  queue : List Node
  distance : Node → Option Nat
  previous : Node → List Node

section Definitions

variable (relay : Node → Bool) (edges : Node → List Node)

def discover (d : Nat) (s : Search Node) (next : Node) : Search Node :=
  match s.distance next with
  | some _ => s
  | none =>
      { s with
        distance := fun node => if node = next then some (d + 1) else s.distance node
        queue := if relay next then s.queue ++ [next] else s.queue }

def record (now : Node) (d : Nat) (s : Search Node) (next : Node) : Search Node :=
  if s.distance next = some (d + 1) then
    { s with
      previous := fun node =>
        if node = next then s.previous next ++ [now] else s.previous node }
  else s

def visit (now : Node) (d : Nat) (s : Search Node) (next : Node) : Search Node :=
  record now d (discover relay d s next) next

def expand (now : Node) (s : Search Node) : Search Node :=
  (edges now).foldl (visit relay now ((s.distance now).getD 0)) s

/-- The loop over the queue from place `i` on, with a bound on its rounds. -/
def search : Nat → Nat → Search Node → Search Node
  | 0, _, s => s
  | rounds + 1, i, s =>
      match s.queue[i]? with
      | none => s
      | some now => search rounds (i + 1) (expand relay edges now s)

def start (source : Node) : Search Node :=
  ⟨[source], fun node => if node = source then some 0 else none, fun _ => []⟩

end Definitions

variable {relay : Node → Bool} {edges : Node → List Node}

theorem record_queue (now next : Node) (d : Nat) (s : Search Node) :
    (record now d s next).queue = s.queue ∧ (record now d s next).distance = s.distance := by
  unfold record
  split <;> exact ⟨rfl, rfl⟩

theorem discover_previous (next : Node) (d : Nat) (s : Search Node) :
    (discover relay d s next).previous = s.previous := by
  unfold discover
  split <;> rfl

theorem visit_queue (now next : Node) (d : Nat) (s : Search Node) {node : Node}
    (queued : node ∈ s.queue) : node ∈ (visit relay now d s next).queue := by
  unfold visit
  rw [(record_queue _ _ _ _).1]
  unfold discover
  split
  · exact queued
  · simp only
    split
    · exact List.mem_append_left _ queued
    · exact queued

theorem expand_invariant (property : Search Node → Prop) {now : Node}
    (keeps : ∀ s next d, property s → next ∈ edges now → property (visit relay now d s next))
    {s : Search Node} (base : property s) : property (expand relay edges now s) := by
  have along : ∀ (d : Nat) (rest : List Node) (s : Search Node),
      (∀ next ∈ rest, next ∈ edges now) → property s →
      property (rest.foldl (visit relay now d) s) := by
    intro d rest
    induction rest with
    | nil => exact fun _ _ holds => holds
    | cons next rest ih =>
        intro s inside holds
        rw [List.foldl_cons]
        exact ih _ (fun other member => inside other (List.mem_cons_of_mem _ member))
          (keeps s next d holds (inside next (by simp)))
  exact along _ (edges now) s (fun _ member => member) base

theorem search_invariant (property : Search Node → Prop)
    (keeps : ∀ s now next d, property s → now ∈ s.queue → next ∈ edges now →
      property (visit relay now d s next)) (rounds i : Nat) {s : Search Node} (base : property s) :
    property (search relay edges rounds i s) := by
  induction rounds generalizing i s with
  | zero => exact base
  | succ rounds ih =>
      unfold search
      cases found : s.queue[i]? with
      | none => exact base
      | some now =>
          have expanded := expand_invariant (fun s => property s ∧ now ∈ s.queue)
            (fun s next d holds edge => ⟨keeps s now next d holds.1 holds.2 edge,
              visit_queue now next d s holds.2⟩) ⟨base, List.mem_of_getElem? found⟩
          exact ih (i + 1) expanded.1

theorem previous_edge (rounds i : Nat) (source : Node) {node now : Node}
    (member : now ∈ (search relay edges rounds i (start source)).previous node) :
    node ∈ edges now := by
  have all : ∀ node now, now ∈ (search relay edges rounds i (start source)).previous node →
      node ∈ edges now := by
    apply search_invariant fun s => ∀ node now, now ∈ s.previous node → node ∈ edges now
    case base => exact fun _ _ none => absurd none List.not_mem_nil
    intro s now next d holds _ edge node other reached
    unfold visit record at reached
    rw [discover_previous] at reached
    split at reached
    · simp only at reached
      split at reached
      · rename_i here
        rw [here]
        rcases List.mem_append.mp reached with earlier | last
        · exact holds next other earlier
        · rw [List.mem_singleton.mp last]
          exact edge
      · exact holds node other reached
    · rw [discover_previous] at reached
      exact holds node other reached
  exact all node now member

/-- What the queue holds is distinct, visited and among the `inside` nodes. -/
structure Queued (inside : Finset Node) (s : Search Node) : Prop where
  distinct : s.queue.Nodup
  visited : ∀ node ∈ s.queue, s.distance node ≠ none
  known : ∀ node ∈ s.queue, node ∈ inside

theorem Queued.discover {inside : Finset Node} {s : Search Node} (queued : Queued inside s)
    (next : Node) (d : Nat) (known : next ∈ inside) :
    Queued inside (discover relay d s next) := by
  unfold BreadthFirst.discover
  cases fresh : s.distance next with
  | some _ => exact queued
  | none =>
      have absent : next ∉ s.queue := fun member => queued.visited next member fresh
      have marked : ∀ node, (node = next ∨ s.distance node ≠ none) →
          (if node = next then some (d + 1) else s.distance node) ≠ none := by
        intro node visited
        split
        · exact Option.some_ne_none _
        · rename_i other
          exact visited.resolve_left other
      cases turn : relay next with
      | false =>
          exact ⟨queued.distinct, fun node member => marked node (.inr (queued.visited node member)),
            queued.known⟩
      | true =>
          refine ⟨?_, ?_, ?_⟩
          · simp only [if_true]
            rw [List.nodup_append]
            refine ⟨queued.distinct, List.nodup_singleton next, ?_⟩
            intro node member other single same
            rw [List.mem_singleton.mp single] at same
            exact absent (same ▸ member)
          · intro node member
            rcases List.mem_append.mp member with earlier | last
            · exact marked node (.inr (queued.visited node earlier))
            · exact marked node (.inl (List.mem_singleton.mp last))
          · intro node member
            rcases List.mem_append.mp member with earlier | last
            · exact queued.known node earlier
            · rw [List.mem_singleton.mp last]
              exact known

theorem Queued.visit {inside : Finset Node} {s : Search Node} (queued : Queued inside s)
    (now next : Node) (d : Nat) (known : next ∈ inside) :
    Queued inside (visit relay now d s next) := by
  have found : Queued inside (BreadthFirst.discover relay d s next) := queued.discover next d known
  obtain ⟨queue, distance⟩ := record_queue now next d (BreadthFirst.discover relay d s next)
  unfold BreadthFirst.visit
  exact ⟨queue ▸ found.distinct, queue ▸ distance ▸ found.visited, queue ▸ found.known⟩

theorem Queued.length_le {inside : Finset Node} {s : Search Node} (queued : Queued inside s) :
    s.queue.length ≤ inside.card := by
  rw [← List.toFinset_card_of_nodup queued.distinct]
  apply Finset.card_le_card
  intro node member
  exact queued.known node (List.mem_toFinset.mp member)

/-- A round for every node is enough: the queue is exhausted and more rounds change nothing. -/
theorem search_enough (inside : Finset Node) (closed : ∀ now next, next ∈ edges now → next ∈ inside)
    {source : Node} (known : source ∈ inside) (more : Nat) :
    search relay edges (inside.card + more) 0 (start source) =
      search relay edges inside.card 0 (start source) := by
  have settled : ∀ (rounds i : Nat) (s : Search Node), Queued inside s →
      inside.card ≤ rounds + i →
      search relay edges (rounds + more) i s = search relay edges rounds i s := by
    intro rounds
    induction rounds with
    | zero =>
        intro i s queued enough
        have beyond : s.queue[i]? = none := by
          rw [List.getElem?_eq_none_iff]
          have bound := queued.length_le
          omega
        cases more with
        | zero => rfl
        | succ more =>
            rw [Nat.zero_add]
            simp only [search, beyond]
    | succ rounds ih =>
        intro i s queued enough
        rw [Nat.add_right_comm]
        unfold search
        cases found : s.queue[i]? with
        | none => rfl
        | some now =>
            apply ih (i + 1) _ _ (by omega)
            exact expand_invariant (Queued inside)
              (fun s next d queued edge => queued.visit now next d (closed now next edge)) queued
  apply settled inside.card 0 (start source) _ (Nat.le_add_right _ _)
  refine ⟨List.nodup_singleton source, fun node member => ?_, fun node member => ?_⟩
  · rw [List.mem_singleton.mp member]
    simp [start]
  · rw [List.mem_singleton.mp member]
    exact known

end BreadthFirst
