import Floodgate.EventSchedulers
import Floodgate.Library.BinaryHeap

/-! `HeapScheduler`: a binary heap whose `Remove` restores the order downwards only. -/

namespace Floodgate

open Outcome LabelledRun BinaryHeap

namespace HeapScheduler

def init : Heap Event := { item := fun _ => ⟨0, ⟨0, 0, 0⟩⟩, last := 0 }

def insert (h : Heap Event) (ev : Event) : Except SchedulerFailure (Heap Event) :=
  .ok ((h.push ev).bottomUp Event.order (h.push ev).last (h.push ev).last)

def peekNext (h : Heap Event) : Except SchedulerFailure Event :=
  if h.last = 0 then .error .notEmpty else .ok (h.item 1)

def removeNext (h : Heap Event) : Except SchedulerFailure (Event × Heap Event) :=
  if h.last = 0 then .error .notEmpty
  else .ok (h.item 1, (h.hollow 1).topDown Event.order h.last 1)

def find (h : Heap Event) (ev : Event) : Option Nat :=
  (List.range' 1 h.last).find? fun i => ev.key.uid = (h.item i).key.uid

def remove (h : Heap Event) (ev : Event) : Except SchedulerFailure (Heap Event) :=
  match find h ev with
  | none => .error .eventKnown
  | some i =>
      if (h.item i).impl = ev.impl then .ok ((h.hollow i).topDown Event.order h.last i)
      else .error .sameImpl

end HeapScheduler

def heapScheduler : Scheduler (Heap Event) where
  empty := HeapScheduler.init
  events := Heap.items
  insert := HeapScheduler.insert
  peekNext := HeapScheduler.peekNext
  removeNext := HeapScheduler.removeNext
  remove := HeapScheduler.remove

namespace HeapScheduler

open Scheduler

/-- The last event of the heap may take the place of the one that is removed. -/
def RemovesInOrder (h : Heap Event) (call : SchedulerCall) : Prop :=
  ∀ ev, call = .remove ev → ∀ i, find h ev = some i → h.Fits Event.order i

variable {h : Heap Event} {ev : Event}

theorem find_known (member : ev ∈ h.items) (distinct : Distinct h.items) :
    ∃ i, find h ev = some i ∧ 1 ≤ i ∧ i ≤ h.last ∧ h.item i = ev := by
  obtain ⟨place, low, high, here⟩ := Heap.mem_items.mp member
  cases found : find h ev with
  | none =>
      have none := List.find?_eq_none.mp found place (List.mem_range'_1.mpr ⟨low, by omega⟩)
      exact absurd (by simp [here]) none
  | some i =>
      have same := List.find?_some found
      have range := List.mem_range'_1.mp (List.mem_of_find?_eq_some found)
      have inside : h.item i ∈ h.items := Heap.mem_items.mpr ⟨i, by omega, by omega, rfl⟩
      exact ⟨i, rfl, by omega, by omega,
        distinct.inj inside member (of_decide_eq_true same).symm⟩

theorem last_ne_zero (some : h.items ≠ []) : h.last ≠ 0 := by
  intro none
  exact some (List.eq_nil_of_length_eq_zero (by rw [Heap.length_items, none]))

theorem root_least (ordered : h.Ordered Event.order) (other : Event) (member : other ∈ h.items) :
    (h.item 1).order ≤ other.order := by
  obtain ⟨i, low, high, rfl⟩ := Heap.mem_items.mp member
  exact ordered.root_le i low high

/-- While the heap is in order every call does what the simulator expects, and it is in order again
unless an event is removed that the last event of the heap cannot replace. -/
theorem call_meets (ordered : h.Ordered Event.order) (distinct : Distinct h.items)
    (call : SchedulerCall) (legal : call.Legal h.items) :
    ∃ out after, heapScheduler.call h call = .ok (out, after) ∧
      call.Meets h.items out after.items ∧
      (after.Ordered Event.order ↔ RemovesInOrder h call) := by
  cases call with
  | insert ev =>
      obtain ⟨restored, perm, -⟩ := Heap.bottomUp_ordered (h.push ev).last (ordered.push ev)
        (Nat.le_add_left 1 h.last) (Nat.le_refl _) (Nat.le_refl _)
      refine ⟨none, _, rfl, ⟨rfl, ?_⟩, iff_of_true restored fun ev' other => by simp at other⟩
      rw [Heap.push_items] at perm
      exact perm.trans List.perm_append_comm
  | peekNext =>
      have filled := last_ne_zero legal
      refine ⟨some (h.item 1), h, ?_, ⟨h.item 1, rfl, rfl, ?_, root_least ordered⟩,
        iff_of_true ordered fun ev' other => by simp at other⟩
      · show (HeapScheduler.peekNext h >>= _) = _
        simp only [HeapScheduler.peekNext, if_neg filled, ok_bind]
      · exact Heap.mem_items.mpr ⟨1, by omega, by omega, rfl⟩
  | removeNext =>
      have filled := last_ne_zero legal
      have last : (h.hollow 1).last = h.last - 1 := rfl
      have restored := Heap.topDown_ordered h.last
        (ordered.hollow (Nat.le_refl 1) fun two => by omega) (by omega) (by omega)
      have perm := @Heap.topDown_items _ _ _ Event.order (h.hollow 1) 1 h.last (Nat.le_refl 1)
      refine ⟨some (h.item 1), _, ?_, ⟨h.item 1, rfl, ?_, fun other member => ?_⟩,
        iff_of_true restored fun ev' other => by simp at other⟩
      · show (HeapScheduler.removeNext h >>= _) = _
        simp only [HeapScheduler.removeNext, if_neg filled, ok_bind]
      · exact ((Heap.hollow_items (by omega) (by omega)).symm).trans (perm.symm.cons _)
      · have whole : (h.item 1 :: (h.hollow 1).items).Perm h.items :=
          Heap.hollow_items (Nat.le_refl 1) (by omega)
        exact root_least ordered other
          (whole.mem_iff.mp (List.mem_cons_of_mem _ (perm.mem_iff.mp member)))
  | remove ev =>
      obtain ⟨i, found, low, high, here⟩ := find_known legal distinct
      have exactly := ordered.hollow_iff low h.last (by omega)
      refine ⟨none, (h.hollow i).topDown Event.order h.last i, ?_, ⟨rfl, ?_⟩, exactly.trans ?_⟩
      · show (HeapScheduler.remove h ev >>= _) = _
        simp only [HeapScheduler.remove, found, here, if_true, ok_bind]
      · have kept : ((h.hollow i).topDown Event.order h.last i).items.Perm (h.hollow i).items :=
          Heap.topDown_items _ low
        rw [← here]
        exact (Heap.hollow_items low high).symm.trans (kept.symm.cons _)
      · constructor
        · intro fits other same place there
          obtain rfl := SchedulerCall.remove.inj same
          rw [found] at there
          exact Option.some.inj there ▸ fits
        · exact fun all => all ev rfl i found

theorem correct : heapScheduler.Correct (Heap.Ordered Event.order) RemovesInOrder := by
  refine ⟨⟨fun i two bound => ?_, rfl⟩, fun h call ordered distinct legal fits => ?_⟩
  · have none : i ≤ 0 := bound
    omega
  · obtain ⟨out, after, success, meets, exactly⟩ := call_meets ordered distinct call legal
    exact ⟨out, after, success, exactly.mpr fits, meets⟩

theorem step_meets (ordered : h.Ordered Event.order) (distinct : Distinct h.items)
    {label : SchedulerCall × Option Event} {after : Heap Event}
    (step : heapScheduler.Step h label after) :
    Distinct after.items ∧ (RemovesInOrder h label.1 ↔ after.Ordered Event.order) := by
  obtain ⟨legal, success⟩ := step
  obtain ⟨out, next, result, meets, exactly⟩ := call_meets ordered distinct label.1 legal
  rw [success] at result
  obtain ⟨-, rfl⟩ := Prod.mk.inj (Except.ok.inj result)
  exact ⟨meets.distinct legal distinct, exactly.symm⟩

/-- The heap stays in order exactly in the runs that remove no event from a place that the last one
does not fit. -/
theorem heap_ordered_iff {entries : List (Heap Event × SchedulerCall × Option Event)}
    {finish : Heap Event}
    (run : Run (Traced heapScheduler.Step) heapScheduler.empty entries finish) :
    (∀ entry ∈ entries, RemovesInOrder entry.1 entry.2.1) ↔
      (∀ entry ∈ entries, entry.1.Ordered Event.order) ∧ finish.Ordered Event.order := by
  refine run.traced_iff (fun h => Distinct h.items) (Heap.Ordered Event.order)
    (fun h label => RemovesInOrder h label.1) ?_ correct.empty.1 ?_ ?_
  · exact List.Pairwise.nil
  · exact fun _ _ _ distinct ordered step => (step_meets ordered distinct step).1
  · exact fun _ _ _ distinct ordered step => (step_meets ordered distinct step).2

def timed (ts uid : Nat) : Event := ⟨uid, ts, uid, 0⟩

/-- Six events, of which the fourth leaves: the sixth comes under a later one. -/
def outOfOrder : List (SchedulerCall × Option Event) :=
  [(.insert (timed 1 4), none), (.insert (timed 10 5), none), (.insert (timed 2 6), none),
    (.insert (timed 11 7), none), (.insert (timed 12 8), none), (.insert (timed 3 9), none),
    (.remove (timed 11 7), none)]

theorem outOfOrder_breaks :
    ¬ ∀ entry ∈ trace heapScheduler.next heapScheduler.empty outOfOrder,
      RemovesInOrder entry.1 entry.2.1 := by
  intro fits
  have run := Run.executed_traced heapScheduler.step_next outOfOrder
    (show executes heapScheduler.takes heapScheduler.next heapScheduler.empty outOfOrder = true by
      decide)
  exact absurd (((heap_ordered_iff run).mp fits).2 4 (by decide) (by decide)) (by decide)

/-- In those runs the heap answers as the list does, and no assertion fails whatever the simulator
calls next. -/
theorem heap_answers_as_list {entries : List (Heap Event × SchedulerCall × Option Event)}
    {finish : Heap Event}
    (run : Run (Traced heapScheduler.Step) heapScheduler.empty entries finish)
    (fits : ∀ entry ∈ entries, RemovesInOrder entry.1 entry.2.1) :
    (∃ events, finish.items.Perm events ∧
      Run listScheduler.Step [] (entries.map Prod.snd) events) ∧
    ∀ call, call.Legal finish.items → ∃ out after, heapScheduler.call finish call = .ok (out, after) := by
  obtain ⟨⟨ordered, distinct⟩, events, ⟨-, perm⟩, answers⟩ :=
    correct.agrees listScheduler_correct run fits
  refine ⟨⟨events, perm, answers⟩, fun call legal => ?_⟩
  obtain ⟨out, after, success, -, -⟩ := call_meets ordered distinct call legal
  exact ⟨out, after, success⟩

/-- The root and the last place can always be filled. -/
def inOrder : List (SchedulerCall × Option Event) :=
  [(.insert (timed 5 4), none), (.insert (timed 3 5), none), (.insert (timed 3 6), none),
    (.remove (timed 3 5), none), (.peekNext, some (timed 3 6)), (.removeNext, some (timed 3 6))]

theorem inOrder_answers :
    (∃ events, [timed 5 4].Perm events ∧ Run listScheduler.Step [] inOrder events) ∧
    ∀ call, call.Legal [timed 5 4] → ∃ out after,
      heapScheduler.call (inOrder.foldl heapScheduler.next heapScheduler.empty) call =
        .ok (out, after) := by
  have run := Run.executed_traced heapScheduler.step_next inOrder
    (show executes heapScheduler.takes heapScheduler.next heapScheduler.empty inOrder = true by
      decide)
  refine heap_answers_as_list run fun entry member => ?_
  simp only [inOrder, trace, List.mem_cons, List.not_mem_nil, or_false] at member
  rcases member with rfl | rfl | rfl | rfl | rfl | rfl
  iterate 3 exact fun ev other => by cases other
  · intro ev same i found two
    cases same
    cases found
    omega
  iterate 2 exact fun ev other => by cases other

end HeapScheduler

end Floodgate
