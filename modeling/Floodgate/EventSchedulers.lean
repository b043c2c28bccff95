import Floodgate.Library.LabelledRun
import Floodgate.Library.Outcome
import Floodgate.Library.SortedQueue
import Mathlib.Data.Prod.Lex

/-! The event lists of the simulator: what the simulator asks of a `Scheduler`, and the two that
keep their events in order. -/

namespace Floodgate

open Outcome LabelledRun

structure EventKey where
  ts : Nat
  uid : Nat
  context : Nat
  deriving DecidableEq

/-- `Scheduler::Event`. `impl` names the object that it points to. -/
structure Event where
  impl : Nat
  key : EventKey
  deriving DecidableEq

/-- `operator <` compares times and then ids. -/
def Event.order (ev : Event) : Nat ×ₗ Nat := toLex (ev.key.ts, ev.key.uid)

/-- The assertions of the schedulers, and what has no meaning: the front of an empty list, a key
that is not in a map, a division by zero. -/
inductive SchedulerFailure where
  | notEmpty
  | keyFresh
  | eventKnown
  | sameImpl
  | widthPositive
  deriving DecidableEq

/-- A scheduler with its functions. `events` tells what it holds. -/
structure Scheduler (State : Type) where
  empty : State
  events : State → List Event
  insert : State → Event → Except SchedulerFailure State
  peekNext : State → Except SchedulerFailure Event
  removeNext : State → Except SchedulerFailure (Event × State)
  remove : State → Event → Except SchedulerFailure State

inductive SchedulerCall where
  | insert (ev : Event)
  | peekNext
  | removeNext
  | remove (ev : Event)

/-- What the simulator promises: a new id, a queue that is not empty, an event that is there. -/
def SchedulerCall.Legal (events : List Event) : SchedulerCall → Prop
  | .insert ev => ∀ other ∈ events, other.key.uid ≠ ev.key.uid
  | .peekNext | .removeNext => events ≠ []
  | .remove ev => ev ∈ events

/-- What the simulator expects: `PeekNext` and `RemoveNext` give the earliest event. -/
def SchedulerCall.Meets (before : List Event) (out : Option Event) (after : List Event) :
    SchedulerCall → Prop
  | .insert ev => out = none ∧ after.Perm (ev :: before)
  | .peekNext => ∃ ev, out = some ev ∧ after = before ∧ ev ∈ before ∧
      ∀ other ∈ before, ev.order ≤ other.order
  | .removeNext => ∃ ev, out = some ev ∧ before.Perm (ev :: after) ∧
      ∀ other ∈ after, ev.order ≤ other.order
  | .remove ev => out = none ∧ before.Perm (ev :: after)

namespace Scheduler

variable {State : Type}

def call (sch : Scheduler State) (s : State) :
    SchedulerCall → Except SchedulerFailure (Option Event × State)
  | .insert ev => do
      let after ← sch.insert s ev
      .ok (none, after)
  | .peekNext => do
      let ev ← sch.peekNext s
      .ok (some ev, s)
  | .removeNext => do
      let next ← sch.removeNext s
      .ok (some next.1, next.2)
  | .remove ev => do
      let after ← sch.remove s ev
      .ok (none, after)

def Step (sch : Scheduler State) (s : State) (label : SchedulerCall × Option Event)
    (after : State) : Prop :=
  label.1.Legal (sch.events s) ∧ sch.call s label.1 = .ok (label.2, after)

def Distinct (events : List Event) : Prop :=
  events.Pairwise fun earlier later => earlier.key.uid ≠ later.key.uid

section Replay

variable (sch : Scheduler State) (s : State) (label : SchedulerCall × Option Event)

instance (events : List Event) : DecidablePred (SchedulerCall.Legal events)
  | .insert ev => inferInstanceAs (Decidable (∀ other ∈ events, other.key.uid ≠ ev.key.uid))
  | .peekNext | .removeNext => inferInstanceAs (Decidable (events ≠ []))
  | .remove ev => inferInstanceAs (Decidable (ev ∈ events))

def takes : Bool :=
  decide (label.1.Legal (sch.events s)) &&
    match sch.call s label.1 with
    | .error _ => false
    | .ok (out, _) => decide (out = label.2)

def next : State :=
  match sch.call s label.1 with
  | .error _ => s
  | .ok (_, after) => after

theorem step_next (taken : sch.takes s label = true) : sch.Step s label (sch.next s label) := by
  unfold takes at taken
  obtain ⟨legal, fits⟩ := Bool.and_eq_true_iff.mp taken
  refine ⟨of_decide_eq_true legal, ?_⟩
  unfold next
  cases answer : sch.call s label.1 with
  | error failure => simp [answer] at fits
  | ok found =>
      rw [← of_decide_eq_true (show decide (found.1 = label.2) = true by simpa [answer] using fits)]

end Replay

/-- In states with `inv` a legal call that is `allowed` does what the simulator expects of it. -/
structure Correct (sch : Scheduler State) (inv : State → Prop)
    (allowed : State → SchedulerCall → Prop) : Prop where
  empty : inv sch.empty ∧ sch.events sch.empty = []
  call : ∀ s call, inv s → Distinct (sch.events s) → call.Legal (sch.events s) → allowed s call →
    ∃ out after, sch.call s call = .ok (out, after) ∧ inv after ∧
      call.Meets (sch.events s) out (sch.events after)

end Scheduler

namespace ListScheduler

def insert (events : List Event) (ev : Event) : Except SchedulerFailure (List Event) :=
  .ok (SortedQueue.insert Event.order ev events)

def peekNext : List Event → Except SchedulerFailure Event
  | [] => .error .notEmpty
  | first :: _ => .ok first

def removeNext : List Event → Except SchedulerFailure (Event × List Event)
  | [] => .error .notEmpty
  | first :: rest => .ok (first, rest)

def remove (events : List Event) (ev : Event) : Except SchedulerFailure (List Event) :=
  match SortedQueue.take (fun other => other.key.uid = ev.key.uid) events with
  | none => .error .eventKnown
  | some (found, rest) => if ev.impl = found.impl then .ok rest else .error .sameImpl

end ListScheduler

def listScheduler : Scheduler (List Event) where
  empty := []
  events := id
  insert := ListScheduler.insert
  peekNext := ListScheduler.peekNext
  removeNext := ListScheduler.removeNext
  remove := ListScheduler.remove

namespace MapScheduler

/-- `std::map::insert` refuses a key that is there. -/
def insert (events : List Event) (ev : Event) : Except SchedulerFailure (List Event) :=
  if ∃ other ∈ events, other.order = ev.order then .error .keyFresh
  else .ok (SortedQueue.insert Event.order ev events)

def remove (events : List Event) (ev : Event) : Except SchedulerFailure (List Event) :=
  match SortedQueue.take (fun other => other.order = ev.order) events with
  | none => .error .eventKnown
  | some (found, rest) => if ev.impl = found.impl then .ok rest else .error .sameImpl

end MapScheduler

/-- The map is the list of its entries in the order of the keys. -/
def mapScheduler : Scheduler (List Event) where
  empty := []
  events := id
  insert := MapScheduler.insert
  peekNext := ListScheduler.peekNext
  removeNext := ListScheduler.removeNext
  remove := MapScheduler.remove

section Lists

variable {events : List Event} {ev : Event}

theorem Event.order_uid {first second : Event} (same : first.order = second.order) :
    first.key.uid = second.key.uid :=
  (Prod.mk.inj (toLex_inj.mp same)).2

theorem Event.order_le_ts {first second : Event} (below : first.order ≤ second.order) :
    first.key.ts ≤ second.key.ts := by
  rcases Prod.Lex.le_iff.mp below with less | ⟨same, _⟩
  · exact Nat.le_of_lt less
  · exact Nat.le_of_eq same

theorem Scheduler.Distinct.perm {others : List Event} (distinct : Distinct events)
    (perm : events.Perm others) : Distinct others :=
  (perm.pairwise_iff fun different => different.symm).mp distinct

theorem Scheduler.Distinct.inj (distinct : Distinct events) {first second : Event}
    (one : first ∈ events) (two : second ∈ events) (same : first.key.uid = second.key.uid) :
    first = second := by
  induction events with
  | nil => exact absurd one (by simp)
  | cons head rest ih =>
      obtain ⟨apart, later⟩ := List.pairwise_cons.mp distinct
      rcases List.mem_cons.mp one with rfl | inside
      · rcases List.mem_cons.mp two with rfl | other
        · rfl
        · exact absurd same (apart second other)
      · rcases List.mem_cons.mp two with rfl | other
        · exact absurd same.symm (apart first inside)
        · exact ih later inside other

theorem SchedulerCall.Meets.distinct {call : SchedulerCall} {out : Option Event}
    {before after : List Event} (meets : call.Meets before out after) (legal : call.Legal before)
    (distinct : Scheduler.Distinct before) : Scheduler.Distinct after := by
  cases call with
  | insert ev =>
      refine Scheduler.Distinct.perm ?_ meets.2.symm
      exact List.pairwise_cons.mpr ⟨fun other member => (legal other member).symm, distinct⟩
  | peekNext =>
      obtain ⟨_, -, rfl, -⟩ := meets
      exact distinct
  | removeNext =>
      obtain ⟨_, -, perm, -⟩ := meets
      exact (List.pairwise_cons.mp (distinct.perm perm)).2
  | remove ev => exact (List.pairwise_cons.mp (distinct.perm meets.2)).2

theorem take_known {test : Event → Bool} (distinct : Scheduler.Distinct events)
    (member : ev ∈ events) (passes : test ev = true)
    (only : ∀ other, test other = true → other.key.uid = ev.key.uid) :
    ∃ rest, SortedQueue.take test events = some (ev, rest) ∧ events.Perm (ev :: rest) := by
  cases taken : SortedQueue.take test events with
  | none =>
      have fails := SortedQueue.take_none.mp taken ev member
      rw [passes] at fails
      contradiction
  | some found =>
      obtain ⟨before, after, whole, -, chosen, -⟩ := SortedQueue.take_some taken
      have inside : found.1 ∈ events := by simp [whole]
      have same : found.1 = ev := distinct.inj inside member (only found.1 chosen)
      have perm := SortedQueue.take_perm taken
      rw [same] at perm
      exact ⟨found.2, by rw [← same], perm⟩

theorem SchedulerCall.Meets.unique {call : SchedulerCall} {out out' : Option Event}
    {before after before' after' : List Event} (meets : call.Meets before out after)
    (other : call.Meets before' out' after') (distinct : Scheduler.Distinct before)
    (perm : before.Perm before') : out = out' ∧ after.Perm after' := by
  -- an event that is not later than all and one that is not later than it are one
  have least : ∀ first ∈ before, ∀ second ∈ before, first.order ≤ second.order →
      second.order ≤ first.order → first = second :=
    fun first one second two less more =>
      distinct.inj one two (Event.order_uid (le_antisymm less more))
  cases call with
  | insert ev =>
      exact ⟨meets.1.trans other.1.symm, meets.2.trans ((perm.cons ev).trans other.2.symm)⟩
  | peekNext =>
      obtain ⟨first, rfl, rfl, one, all⟩ := meets
      obtain ⟨second, rfl, rfl, two, all'⟩ := other
      have two := perm.mem_iff.mpr two
      rw [least first one second two (all second two) (all' first (perm.mem_iff.mp one))]
      exact ⟨rfl, perm⟩
  | removeNext =>
      obtain ⟨first, rfl, whole, all⟩ := meets
      obtain ⟨second, rfl, whole', all'⟩ := other
      have one : first ∈ before := whole.mem_iff.mpr List.mem_cons_self
      have two : second ∈ before := perm.mem_iff.mpr (whole'.mem_iff.mpr List.mem_cons_self)
      have same : first = second := by
        by_contra different
        have later := (List.mem_cons.mp (whole.mem_iff.mp two)).resolve_left (Ne.symm different)
        have later' :=
          (List.mem_cons.mp (whole'.mem_iff.mp (perm.mem_iff.mp one))).resolve_left different
        exact different (least first one second two (all second later) (all' first later'))
      subst same
      exact ⟨rfl, (List.perm_cons _).mp (whole.symm.trans (perm.trans whole'))⟩
  | remove ev =>
      exact ⟨meets.1.trans other.1.symm,
        (List.perm_cons ev).mp (meets.2.symm.trans (perm.trans other.2))⟩

theorem SchedulerCall.Legal.perm {call : SchedulerCall} {others : List Event}
    (legal : call.Legal events) (perm : events.Perm others) : call.Legal others := by
  cases call with
  | insert ev => exact fun other member => legal other (perm.mem_iff.mpr member)
  | peekNext => exact fun none => legal (by rw [none] at perm; exact perm.eq_nil)
  | removeNext => exact fun none => legal (by rw [none] at perm; exact perm.eq_nil)
  | remove ev => exact perm.mem_iff.mp legal

end Lists

namespace Scheduler

variable {First Second : Type} {sch : Scheduler First} {other : Scheduler Second}
  {inv : First → Prop} {allowed : First → SchedulerCall → Prop}

theorem Correct.step (correct : sch.Correct inv allowed) {s after : First}
    {label : SchedulerCall × Option Event} (holds : inv s ∧ Distinct (sch.events s))
    (fits : allowed s label.1) (step : sch.Step s label after) :
    (inv after ∧ Distinct (sch.events after)) ∧
      label.1.Meets (sch.events s) label.2 (sch.events after) := by
  obtain ⟨legal, success⟩ := step
  obtain ⟨out, next, result, keeps, meets⟩ := correct.call s label.1 holds.1 holds.2 legal fits
  rw [success] at result
  obtain ⟨same, rfl⟩ := Prod.mk.inj (Except.ok.inj result)
  rw [← same] at meets
  exact ⟨⟨keeps, meets.distinct legal holds.2⟩, meets⟩

def Ready (sch : Scheduler First) (inv : First → Prop) (s : First) : Prop :=
  inv s ∧ Distinct (sch.events s)

section Served

variable {s : First} {ev : Event}

theorem Correct.insert (correct : sch.Correct inv fun _ _ => True) (ready : sch.Ready inv s)
    (legal : (SchedulerCall.insert ev).Legal (sch.events s)) :
    ∃ after, sch.insert s ev = .ok after ∧ sch.Ready inv after ∧
      (sch.events after).Perm (ev :: sch.events s) := by
  obtain ⟨out, after, success, keeps, meets⟩ :=
    correct.call s (.insert ev) ready.1 ready.2 legal trivial
  obtain ⟨found, inserted, same⟩ := bind_ok.mp success
  obtain ⟨-, rfl⟩ := Prod.mk.inj (Except.ok.inj same)
  exact ⟨found, inserted, ⟨keeps, meets.distinct legal ready.2⟩, meets.2⟩

theorem Correct.removeNext (correct : sch.Correct inv fun _ _ => True) (ready : sch.Ready inv s)
    (some : sch.events s ≠ []) :
    ∃ next after, sch.removeNext s = .ok (next, after) ∧ sch.Ready inv after ∧
      (sch.events s).Perm (next :: sch.events after) ∧
      ∀ other ∈ sch.events after, next.order ≤ other.order := by
  obtain ⟨out, after, success, keeps, meets⟩ :=
    correct.call s .removeNext ready.1 ready.2 some trivial
  obtain ⟨found, removed, same⟩ := bind_ok.mp success
  obtain ⟨rfl, rfl⟩ := Prod.mk.inj (Except.ok.inj same)
  have distinct := meets.distinct some ready.2
  obtain ⟨next, first, perm, least⟩ := meets
  obtain rfl := Option.some.inj first
  exact ⟨found.1, found.2, removed, ⟨keeps, distinct⟩, perm, least⟩

theorem Correct.remove (correct : sch.Correct inv fun _ _ => True) (ready : sch.Ready inv s)
    (member : ev ∈ sch.events s) :
    ∃ after, sch.remove s ev = .ok after ∧ sch.Ready inv after ∧
      (sch.events s).Perm (ev :: sch.events after) := by
  obtain ⟨out, after, success, keeps, meets⟩ :=
    correct.call s (.remove ev) ready.1 ready.2 member trivial
  obtain ⟨found, removed, same⟩ := bind_ok.mp success
  obtain ⟨-, rfl⟩ := Prod.mk.inj (Except.ok.inj same)
  exact ⟨found, removed, ⟨keeps, meets.distinct member ready.2⟩, meets.2⟩

end Served

/-- Whatever is called, another correct scheduler gives the same answers. -/
theorem Correct.agrees (correct : sch.Correct inv allowed) {inv' : Second → Prop}
    (correct' : other.Correct inv' fun _ _ => True)
    {entries : List (First × SchedulerCall × Option Event)} {finish : First}
    (run : Run (Traced sch.Step) sch.empty entries finish)
    (fits : ∀ entry ∈ entries, allowed entry.1 entry.2.1) :
    (inv finish ∧ Distinct (sch.events finish)) ∧
      ∃ state, (inv' state ∧ (sch.events finish).Perm (other.events state)) ∧
        Run other.Step other.empty (entries.map Prod.snd) state := by
  have along : (∀ entry ∈ entries, allowed entry.1 entry.2.1) →
      (inv finish ∧ Distinct (sch.events finish)) ∧
      ∃ state, (inv' state ∧ (sch.events finish).Perm (other.events state)) ∧
        Run other.Step other.empty (entries.map Prod.snd) state := by
    refine run.history (fun entries s => (∀ entry ∈ entries, allowed entry.1 entry.2.1) →
      (inv s ∧ Distinct (sch.events s)) ∧ ∃ state,
        (inv' state ∧ (sch.events s).Perm (other.events state)) ∧
        Run other.Step other.empty (entries.map Prod.snd) state) ?_ ?_
    · intro _
      have none : Distinct (sch.events sch.empty) := by
        rw [correct.empty.2]
        exact List.Pairwise.nil
      refine ⟨⟨correct.empty.1, none⟩, other.empty, ⟨correct'.empty.1, ?_⟩, .nil⟩
      rw [correct.empty.2, correct'.empty.2]
    · rintro labels middle ⟨_, label⟩ finish _ holds ⟨rfl, step⟩ all
      simp only [List.forall_mem_append, List.forall_mem_singleton] at all
      obtain ⟨before, state, ⟨keeps, perm⟩, earlier⟩ := holds all.1
      obtain ⟨after, meets⟩ := correct.step before all.2 step
      have legal := step.1.perm perm
      obtain ⟨out, next, success, keeps', meets'⟩ :=
        correct'.call state label.1 keeps (before.2.perm perm) legal trivial
      obtain ⟨same, perm'⟩ := meets.unique meets' before.2 perm
      refine ⟨after, next, ⟨keeps', perm'⟩, ?_⟩
      rw [List.map_append]
      exact earlier.snoc ⟨legal, by rw [success, same]⟩
  exact along fits

end Scheduler

open SortedQueue (Ordered)

theorem removeNext_meets {first : Event} {rest : List Event}
    (ordered : Ordered Event.order (first :: rest)) :
    SchedulerCall.removeNext.Meets (first :: rest) (some first) rest :=
  ⟨first, rfl, .refl _, fun other member => (ordered.head_lt other member).le⟩

theorem peekNext_meets {first : Event} {rest : List Event}
    (ordered : Ordered Event.order (first :: rest)) :
    SchedulerCall.peekNext.Meets (first :: rest) (some first) (first :: rest) := by
  refine ⟨first, rfl, rfl, List.mem_cons_self, fun other member => ?_⟩
  rcases List.mem_cons.mp member with rfl | later
  · exact le_refl _
  · exact (ordered.head_lt other later).le

theorem Scheduler.Distinct.fresh_order {events : List Event} {ev : Event}
    (legal : (SchedulerCall.insert ev).Legal events) :
    ∀ other ∈ events, other.order ≠ ev.order :=
  fun other member same => legal other member (Event.order_uid same)

theorem Scheduler.Correct.of_list {sch : Scheduler (List Event)} (empty : sch.empty = [])
    (events : sch.events = id)
    (insert : ∀ s ev, (SchedulerCall.insert ev).Legal s →
      sch.insert s ev = .ok (SortedQueue.insert Event.order ev s))
    (peekNext : sch.peekNext = ListScheduler.peekNext)
    (removeNext : sch.removeNext = ListScheduler.removeNext)
    (test : Event → Event → Bool) (same : ∀ ev, test ev ev = true)
    (only : ∀ ev other, test ev other = true → other.key.uid = ev.key.uid)
    (remove : ∀ s ev rest, SortedQueue.take (test ev) s = some (ev, rest) →
      sch.remove s ev = .ok rest) :
    sch.Correct (Ordered Event.order) fun _ _ => True := by
  refine ⟨⟨by rw [empty]; exact List.Pairwise.nil, by rw [events, empty]; rfl⟩,
    fun s call ordered distinct legal _ => ?_⟩
  simp only [events, id_eq] at distinct legal ⊢
  cases call with
  | insert ev =>
      refine ⟨none, SortedQueue.insert Event.order ev s,
        by simp only [Scheduler.call, insert s ev legal, ok_bind], ?_, rfl,
        SortedQueue.insert_perm ev s⟩
      exact ordered.insert (Scheduler.Distinct.fresh_order legal)
  | peekNext =>
      cases s with
      | nil => exact absurd rfl legal
      | cons first rest =>
          exact ⟨some first, _, by
            simp only [Scheduler.call, peekNext, ListScheduler.peekNext, ok_bind],
            ordered, peekNext_meets ordered⟩
  | removeNext =>
      cases s with
      | nil => exact absurd rfl legal
      | cons first rest =>
          exact ⟨some first, rest,
            by simp only [Scheduler.call, removeNext, ListScheduler.removeNext, ok_bind],
            ordered.tail, removeNext_meets ordered⟩
  | remove ev =>
      obtain ⟨rest, taken, perm⟩ := take_known distinct legal (same ev) (only ev)
      exact ⟨none, rest, by simp only [Scheduler.call, remove s ev rest taken, ok_bind],
        ordered.take taken, rfl, perm⟩

theorem listScheduler_correct : listScheduler.Correct (Ordered Event.order) fun _ _ => True := by
  refine .of_list rfl rfl (fun _ _ _ => rfl) rfl rfl
    (fun ev other => decide (other.key.uid = ev.key.uid)) (by simp) (by simp) ?_
  intro s ev rest taken
  show ListScheduler.remove s ev = .ok rest
  unfold ListScheduler.remove
  rw [taken]
  exact if_pos rfl

theorem mapScheduler_correct : mapScheduler.Correct (Ordered Event.order) fun _ _ => True := by
  refine .of_list rfl rfl (fun s ev legal => if_neg ?_) rfl rfl
    (fun ev other => decide (other.order = ev.order)) (by simp) ?_ ?_
  · rintro ⟨other, member, same⟩
    exact legal other member (Event.order_uid same)
  · intro ev other passes
    exact Event.order_uid (of_decide_eq_true passes)
  · intro s ev rest taken
    show MapScheduler.remove s ev = .ok rest
    unfold MapScheduler.remove
    rw [taken]
    exact if_pos rfl

end Floodgate
