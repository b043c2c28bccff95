import Floodgate.EventSchedulers
import Mathlib.Algebra.GroupWithZero.Nat
import Mathlib.Algebra.Ring.Int.Defs
import Mathlib.Data.List.Pairwise

/-! `DefaultSimulatorImpl`: the clock, the ids of the events and what becomes of them, over any
correct scheduler. -/

namespace Floodgate

open Outcome LabelledRun

/-- `impl` names the `EventImpl`; an id that was never given has none. -/
structure EventId where
  impl : Option Nat
  ts : Nat
  context : Nat
  uid : Nat
  deriving DecidableEq

def EventId.invalid : EventId := ⟨none, 0, 0, 0⟩

def Event.id (ev : Event) : EventId := ⟨some ev.impl, ev.key.ts, ev.key.context, ev.key.uid⟩

inductive SimulatorFailure where
  | scheduler (failure : SchedulerFailure)
  | isPositive
  | notBack
  | inOrder
  | noneLost
  deriving DecidableEq

/-- `impls` counts the `EventImpl` objects, and `cancelled` has their flags. -/
structure DefaultSimulatorImpl (State : Type) where
  stop : Bool
  destroyEvents : List EventId
  events : State
  uid : Nat
  currentUid : Nat
  currentTs : Nat
  currentContext : Nat
  unscheduledEvents : Int
  impls : Nat
  cancelled : Nat → Bool

/-- What a call does; `queued` and `left` tell more than the call returns. -/
inductive Happened where
  | nothing
  | queued (ev : Event)
  | kept (id : EventId)
  | handled (ev : Event) (invoked : Bool)
  | left (ev : Event)
  | destroyed (id : EventId) (invoked : Bool)
  | expired (answer : Bool)
  deriving DecidableEq

inductive SimulatorCall where
  | schedule (delay : Int)
  | scheduleNow
  | scheduleWithContext (context : Nat) (delay : Int)
  | scheduleDestroy
  | cancel (id : EventId)
  | remove (id : EventId)
  | isExpired (id : EventId)
  | stop
  | beginRun
  | processOneEvent
  | endRun
  | destroyNext
  deriving DecidableEq

def Happened.isQueued : Happened → Bool
  | .queued _ => true
  | _ => false

def SimulatorCall.queues : SimulatorCall → Bool
  | .schedule _ | .scheduleNow | .scheduleWithContext _ _ => true
  | _ => false

namespace DefaultSimulatorImpl

variable {State : Type} (sch : Scheduler State) (m : DefaultSimulatorImpl State)

def init : DefaultSimulatorImpl State where
  stop := false
  destroyEvents := []
  events := sch.empty
  uid := 4
  currentUid := 0
  currentTs := 0
  currentContext := 2 ^ 32 - 1
  unscheduledEvents := 0
  impls := 0
  cancelled := fun _ => false

/-- A time is a signed 64-bit number. -/
def time64 (time : Int) : Int := (time + 2 ^ 63) % 2 ^ 64 - 2 ^ 63

def enqueue (ts context : Nat) :
    Except SimulatorFailure (Happened × DefaultSimulatorImpl State) := do
  let ev : Event := ⟨m.impls, ⟨ts, m.uid, context⟩⟩
  let events ← (sch.insert m.events ev).mapError .scheduler
  .ok (.queued ev, { m with
    events := events
    uid := (m.uid + 1) % 2 ^ 32
    unscheduledEvents := m.unscheduledEvents + 1
    impls := m.impls + 1 })

def schedule (delay : Int) : Except SimulatorFailure (Happened × DefaultSimulatorImpl State) :=
  let tAbsolute := time64 (delay + m.currentTs)
  if tAbsolute < 0 then .error .isPositive
  else if tAbsolute < m.currentTs then .error .notBack
  else m.enqueue sch tAbsolute.toNat m.currentContext

def scheduleNow : Except SimulatorFailure (Happened × DefaultSimulatorImpl State) :=
  m.enqueue sch m.currentTs m.currentContext

/-- No assertion holds a negative delay back. -/
def scheduleWithContext (context : Nat) (delay : Int) :
    Except SimulatorFailure (Happened × DefaultSimulatorImpl State) :=
  m.enqueue sch ((delay + m.currentTs) % 2 ^ 64).toNat context

def scheduleDestroy : Happened × DefaultSimulatorImpl State :=
  let id : EventId := ⟨some m.impls, m.currentTs, 2 ^ 32 - 1, 2⟩
  (.kept id, { m with
    destroyEvents := m.destroyEvents ++ [id]
    uid := (m.uid + 1) % 2 ^ 32
    impls := m.impls + 1 })

def isCancelled (id : EventId) : Bool := (id.impl.map m.cancelled).getD false

/-- The events of uid 2 are looked for, those of the queue are told by the clock. -/
def isExpired (id : EventId) : Bool :=
  if id.uid = 2 then id.impl.isNone || m.isCancelled id || !m.destroyEvents.contains id
  else id.impl.isNone || decide (id.ts < m.currentTs) ||
    (decide (id.ts = m.currentTs) && decide (id.uid ≤ m.currentUid)) || m.isCancelled id

def setCancelled (impl : Option Nat) : DefaultSimulatorImpl State :=
  { m with cancelled := fun i => if some i = impl then true else m.cancelled i }

def cancel (id : EventId) : DefaultSimulatorImpl State :=
  if m.isExpired id then m else m.setCancelled id.impl

def remove (id : EventId) : Except SimulatorFailure (Happened × DefaultSimulatorImpl State) :=
  if id.uid = 2 then .ok (.nothing, { m with destroyEvents := m.destroyEvents.erase id })
  else if m.isExpired id then .ok (.nothing, m)
  else do
    let ev : Event := ⟨id.impl.getD 0, ⟨id.ts, id.uid, id.context⟩⟩
    let events ← (sch.remove m.events ev).mapError .scheduler
    .ok (.left ev, { m.setCancelled id.impl with
      events := events
      unscheduledEvents := m.unscheduledEvents - 1 })

/-- `Invoke` calls the function of an event that is not cancelled; what that function calls follows
as calls of its own. -/
def processOneEvent : Except SimulatorFailure (Happened × DefaultSimulatorImpl State) := do
  let next ← (sch.removeNext m.events).mapError .scheduler
  if next.1.key.ts < m.currentTs then .error .inOrder
  else .ok (.handled next.1 (!m.cancelled next.1.impl), { m with
    events := next.2
    unscheduledEvents := m.unscheduledEvents - 1
    currentTs := next.1.key.ts
    currentContext := next.1.key.context
    currentUid := next.1.key.uid })

def endRun : Except SimulatorFailure (Happened × DefaultSimulatorImpl State) :=
  if sch.events m.events = [] ∧ m.unscheduledEvents ≠ 0 then .error .noneLost else .ok (.nothing, m)

def destroyNext : Happened × DefaultSimulatorImpl State :=
  match m.destroyEvents with
  | [] => (.nothing, m)
  | id :: rest => (.destroyed id (!m.isCancelled id), { m with destroyEvents := rest })

def call : SimulatorCall → Except SimulatorFailure (Happened × DefaultSimulatorImpl State)
  | .schedule delay => m.schedule sch delay
  | .scheduleNow => m.scheduleNow sch
  | .scheduleWithContext context delay => m.scheduleWithContext sch context delay
  | .scheduleDestroy => .ok m.scheduleDestroy
  | .cancel id => .ok (.nothing, m.cancel id)
  | .remove id => m.remove sch id
  | .isExpired id => .ok (.expired (m.isExpired id), m)
  | .stop => .ok (.nothing, { m with stop := true })
  | .beginRun => .ok (.nothing, { m with stop := false })
  | .processOneEvent => m.processOneEvent sch
  | .endRun => m.endRun sch
  | .destroyNext => .ok m.destroyNext

end DefaultSimulatorImpl

/-- A simulator with its history: the events and the ids for the end that were made, the events that
were handled or removed, and the ids that `Cancel` was called for. -/
structure Watched (State : Type) where
  sim : DefaultSimulatorImpl State
  made : List Event
  kept : List EventId
  handled : List (Event × Bool)
  left : List Event
  askedOff : List EventId

namespace Watched

variable {State : Type}

def init (sch : Scheduler State) : Watched State :=
  ⟨DefaultSimulatorImpl.init sch, [], [], [], [], []⟩

def tell (w : Watched State) (call : SimulatorCall) (happened : Happened)
    (sim : DefaultSimulatorImpl State) : Watched State where
  sim := sim
  made := match happened with
    | .queued ev => w.made ++ [ev]
    | _ => w.made
  kept := match happened with
    | .kept id => w.kept ++ [id]
    | _ => w.kept
  handled := match happened with
    | .handled ev invoked => w.handled ++ [(ev, invoked)]
    | _ => w.handled
  left := match happened with
    | .left ev => w.left ++ [ev]
    | _ => w.left
  askedOff := match call with
    | .cancel id => w.askedOff ++ [id]
    | _ => w.askedOff

def ids (w : Watched State) : Nat := w.made.length + w.kept.length

def Known (w : Watched State) (id : EventId) : Prop :=
  id = .invalid ∨ id ∈ w.kept ∨ ∃ ev ∈ w.made, id = ev.id

/-- An id of 32 bits is left, only known ids are used, `ScheduleWithContext` looks ahead, and `Run`
goes on as long as it should. -/
def Legal (sch : Scheduler State) (w : Watched State) : SimulatorCall → Prop
  | .schedule _ | .scheduleNow | .scheduleDestroy => 4 + w.ids < 2 ^ 32
  | .scheduleWithContext _ delay =>
      4 + w.ids < 2 ^ 32 ∧ 0 ≤ delay ∧ delay + w.sim.currentTs < 2 ^ 63
  | .cancel id | .remove id | .isExpired id => w.Known id
  | .processOneEvent => sch.events w.sim.events ≠ [] ∧ w.sim.stop = false
  | .endRun => sch.events w.sim.events = [] ∨ w.sim.stop = true
  | .stop | .beginRun | .destroyNext => True

instance (w : Watched State) : DecidablePred w.Known := fun id =>
  inferInstanceAs (Decidable (id = .invalid ∨ id ∈ w.kept ∨ ∃ ev ∈ w.made, id = ev.id))

instance (sch : Scheduler State) (w : Watched State) : DecidablePred (w.Legal sch)
  | .schedule _ | .scheduleNow | .scheduleDestroy =>
      inferInstanceAs (Decidable (4 + w.ids < 2 ^ 32))
  | .scheduleWithContext _ delay => inferInstanceAs
      (Decidable (4 + w.ids < 2 ^ 32 ∧ 0 ≤ delay ∧ delay + w.sim.currentTs < 2 ^ 63))
  | .cancel id | .remove id | .isExpired id => inferInstanceAs (Decidable (w.Known id))
  | .processOneEvent =>
      inferInstanceAs (Decidable (sch.events w.sim.events ≠ [] ∧ w.sim.stop = false))
  | .endRun => inferInstanceAs (Decidable (sch.events w.sim.events = [] ∨ w.sim.stop = true))
  | .stop | .beginRun | .destroyNext => inferInstanceAs (Decidable True)

def Step (sch : Scheduler State) (w : Watched State) (label : SimulatorCall × Happened)
    (after : Watched State) : Prop :=
  w.Legal sch label.1 ∧ ∃ sim, w.sim.call sch label.1 = .ok (label.2, sim) ∧
    after = w.tell label.1 label.2 sim

section Replay

variable (sch : Scheduler State) (w : Watched State) (label : SimulatorCall × Happened)

def takes : Bool :=
  decide (w.Legal sch label.1) &&
    match w.sim.call sch label.1 with
    | .error _ => false
    | .ok (happened, _) => decide (happened = label.2)

def next : Watched State :=
  match w.sim.call sch label.1 with
  | .error _ => w
  | .ok (_, sim) => w.tell label.1 label.2 sim

theorem step_next (taken : w.takes sch label = true) : Step sch w label (w.next sch label) := by
  unfold takes at taken
  obtain ⟨legal, fits⟩ := Bool.and_eq_true_iff.mp taken
  refine ⟨of_decide_eq_true legal, ?_⟩
  unfold next
  cases answer : w.sim.call sch label.1 with
  | error failure => simp [answer] at fits
  | ok done =>
      have same : done.1 = label.2 := by simpa [answer] using fits
      exact ⟨done.2, by rw [← same], rfl⟩

end Replay

def clock (w : Watched State) : Nat ×ₗ Nat := toLex (w.sim.currentTs, w.sim.currentUid)

inductive Effect (sch : Scheduler State) (w after : Watched State) :
    SimulatorCall → Happened → Prop
  | queued {call : SimulatorCall} {ev : Event}
      (due : ∀ delay : Nat, delay + w.sim.currentTs < 2 ^ 63 →
        (call = .schedule delay ∨ ∃ context, call = .scheduleWithContext context delay) →
        ev.key.ts = w.sim.currentTs + delay)
      (new : ev.impl = w.sim.impls) (latest : ev.key.uid = 4 + w.ids)
      (perm : (sch.events after.sim.events).Perm (ev :: sch.events w.sim.events))
      (clock : after.clock = w.clock) : Effect sch w after call (.queued ev)
  | left {ev : Event} (perm : (sch.events w.sim.events).Perm (ev :: sch.events after.sim.events))
      (clock : after.clock = w.clock) : Effect sch w after (.remove ev.id) (.left ev)
  | handled {ev : Event} (perm : (sch.events w.sim.events).Perm (ev :: sch.events after.sim.events))
      (least : ∀ other ∈ sch.events w.sim.events, ev.order ≤ other.order)
      (clock : after.clock = ev.order) :
      Effect sch w after .processOneEvent (.handled ev (!w.sim.cancelled ev.impl))
  | quiet {call : SimulatorCall} {happened : Happened} (running : call ≠ .processOneEvent)
      (silent : call.queues = false ∧ happened.isQueued = false)
      (same : sch.events after.sim.events = sch.events w.sim.events)
      (clock : after.clock = w.clock) : Effect sch w after call happened

structure Good (sch : Scheduler State) (inv : State → Prop) (w : Watched State) : Prop where
  ready : sch.Ready inv w.sim.events
  uid : w.sim.uid = (4 + w.ids) % 2 ^ 32
  room : 4 + w.ids ≤ 2 ^ 32
  current : w.sim.currentUid < 4 + w.ids
  named : ∀ ev ∈ w.made, (4 ≤ ev.key.uid ∧ ev.key.uid < 4 + w.ids) ∧ ev.impl < w.sim.impls
  apart : w.made.Pairwise fun first second =>
    first.key.uid ≠ second.key.uid ∧ first.impl ≠ second.impl
  fates : w.made.Perm (w.handled.map Prod.fst ++ w.left ++ sch.events w.sim.events)
  later : ∀ ev ∈ sch.events w.sim.events, w.clock < ev.order
  past : ∀ entry ∈ w.handled, entry.1.order ≤ w.clock
  sorted : w.handled.Pairwise fun first second => first.1.order < second.1.order
  gone : ∀ ev ∈ w.left, w.sim.cancelled ev.impl = true
  asked : ∀ ev ∈ sch.events w.sim.events,
    (w.sim.cancelled ev.impl = true ↔ ev.id ∈ w.askedOff)
  unused : ∀ i, w.sim.impls ≤ i → w.sim.cancelled i = false
  old : ∀ id ∈ w.askedOff, ∀ i, id.impl = some i → i < w.sim.impls
  ends : ∀ id ∈ w.kept, id.uid = 2 ∧ ∃ i < w.sim.impls, id.impl = some i ∧
    ∀ ev ∈ w.made, ev.impl ≠ i
  count : w.sim.unscheduledEvents = (sch.events w.sim.events).length

variable {sch : Scheduler State} {inv : State → Prop} {w : Watched State}

theorem init_good (correct : sch.Correct inv fun _ _ => True) : (init sch).Good sch inv := by
  have none : sch.events (init sch).sim.events = [] := correct.empty.2
  refine ⟨⟨correct.empty.1, ?_⟩, rfl, ?_, Nat.zero_lt_succ 3, by simp [init], .nil, ?_, ?_,
    by simp [init], .nil, by simp [init], ?_, fun _ _ => rfl, by simp [init], by simp [init], ?_⟩
  · rw [none]
    exact .nil
  · show 4 + 0 ≤ 2 ^ 32
    decide
  · rw [none]
    exact .refl _
  · rw [none]
    simp
  · rw [none]
    simp
  · rw [none]
    rfl

theorem Good.pending_made (good : w.Good sch inv) {ev : Event}
    (pending : ev ∈ sch.events w.sim.events) : ev ∈ w.made :=
  good.fates.mem_iff.mpr (List.mem_append_right _ pending)

theorem Good.made_inj (good : w.Good sch inv) {first second : Event} (one : first ∈ w.made)
    (two : second ∈ w.made)
    (same : first.key.uid = second.key.uid ∨ first.impl = second.impl) : first = second := by
  by_contra different
  have _ : Std.Symm fun first second : Event =>
      first.key.uid ≠ second.key.uid ∧ first.impl ≠ second.impl :=
    ⟨fun _ _ both => ⟨both.1.symm, both.2.symm⟩⟩
  have both := good.apart.forall one two different
  rcases same with uid | impl
  · exact both.1 uid
  · exact both.2 impl

/-- The clock tells the events in the queue from those that were handled. -/
theorem Good.expired_pending (good : w.Good sch inv) {ev : Event}
    (pending : ev ∈ sch.events w.sim.events) :
    w.sim.isExpired ev.id = w.sim.cancelled ev.impl := by
  have uid := (good.named ev (good.pending_made pending)).1.1
  have ahead := Prod.Lex.lt_iff.mp (good.later ev pending)
  have ahead : w.sim.currentTs < ev.key.ts ∨
      w.sim.currentTs = ev.key.ts ∧ w.sim.currentUid < ev.key.uid := ahead
  unfold DefaultSimulatorImpl.isExpired DefaultSimulatorImpl.isCancelled Event.id
  rw [if_neg (show ev.key.uid ≠ 2 by omega)]
  have before : decide (ev.key.ts < w.sim.currentTs) = false := decide_eq_false (by omega)
  have at_once : (decide (ev.key.ts = w.sim.currentTs) &&
      decide (ev.key.uid ≤ w.sim.currentUid)) = false := by
    rw [Bool.and_eq_false_iff, decide_eq_false_iff_not, decide_eq_false_iff_not]
    omega
  simp [before, at_once]

theorem Good.expired_past (good : w.Good sch inv) {ev : Event} (member : ev ∈ w.made)
    (past : ev.order ≤ w.clock) : w.sim.isExpired ev.id = true := by
  have uid := (good.named ev member).1.1
  have behind : ev.key.ts < w.sim.currentTs ∨
      ev.key.ts = w.sim.currentTs ∧ ev.key.uid ≤ w.sim.currentUid := Prod.Lex.le_iff.mp past
  unfold DefaultSimulatorImpl.isExpired Event.id
  rw [if_neg (show ev.key.uid ≠ 2 by omega)]
  rcases behind with before | ⟨same, below⟩
  · simp [before]
  · simp [same, below]

theorem expired_cancelled {ev : Event} (uid : 4 ≤ ev.key.uid)
    (flag : w.sim.cancelled ev.impl = true) : w.sim.isExpired ev.id = true := by
  unfold DefaultSimulatorImpl.isExpired DefaultSimulatorImpl.isCancelled Event.id
  rw [if_neg (show ev.key.uid ≠ 2 by omega)]
  simp [flag]

theorem Good.expired_iff (good : w.Good sch inv) {ev : Event} (member : ev ∈ w.made) :
    w.sim.isExpired ev.id = false ↔
      ev ∈ sch.events w.sim.events ∧ ev.id ∉ w.askedOff := by
  by_cases pending : ev ∈ sch.events w.sim.events
  · rw [good.expired_pending pending, and_iff_right pending, ← not_congr (good.asked ev pending),
      Bool.not_eq_true]
  · refine iff_of_false ?_ fun both => pending both.1
    rw [Bool.not_eq_false]
    rcases List.mem_append.mp (good.fates.mem_iff.mp member) with ended | there
    · rcases List.mem_append.mp ended with done | removed
      · obtain ⟨entry, here, rfl⟩ := List.mem_map.mp done
        exact good.expired_past member (good.past entry here)
      · exact expired_cancelled (good.named ev member).1.1 (good.gone ev removed)
    · exact absurd there pending

theorem Good.enqueued (good : w.Good sch inv) (correct : sch.Correct inv fun _ _ => True)
    (left : 4 + w.ids < 2 ^ 32) {ts : Nat} (ahead : w.sim.currentTs ≤ ts) (context : Nat)
    (call : SimulatorCall) (due : ∀ delay : Nat, delay + w.sim.currentTs < 2 ^ 63 →
      (call = .schedule delay ∨ ∃ context, call = .scheduleWithContext context delay) →
      ts = w.sim.currentTs + delay) :
    ∃ ev sim, w.sim.enqueue sch ts context = .ok (.queued ev, sim) ∧
      Good sch inv { w with sim := sim, made := w.made ++ [ev] } ∧
      Effect sch w { w with sim := sim, made := w.made ++ [ev] } call (.queued ev) := by
  have uid : w.sim.uid = 4 + w.ids := by rw [good.uid, Nat.mod_eq_of_lt left]
  generalize made : (⟨w.sim.impls, ⟨ts, w.sim.uid, context⟩⟩ : Event) = ev
  have impl : ev.impl = w.sim.impls := by rw [← made]
  have number : ev.key.uid = 4 + w.ids := by rw [← made]; exact uid
  have time : ev.key.ts = ts := by rw [← made]
  have legal : (SchedulerCall.insert ev).Legal (sch.events w.sim.events) := by
    intro other member
    have below := (good.named other (good.pending_made member)).1.2
    omega
  obtain ⟨after, inserted, ready, perm⟩ := correct.insert good.ready legal
  have more : Watched.ids { w with made := w.made ++ [ev] } = w.ids + 1 := by
    simp only [ids, List.length_append, List.length_singleton]
    omega
  refine ⟨ev, { w.sim with
    events := after
    uid := (w.sim.uid + 1) % 2 ^ 32
    unscheduledEvents := w.sim.unscheduledEvents + 1
    impls := w.sim.impls + 1 }, ?_, ?_, .queued (by rwa [time]) impl number perm rfl⟩
  · unfold DefaultSimulatorImpl.enqueue
    simp only [made, inserted, Except.mapError, ok_bind]
  refine ⟨ready, ?_, ?_, ?_, ?_, ?_, ?_, ?_, good.past, good.sorted, good.gone, ?_, ?_, ?_, ?_, ?_⟩
  · show (w.sim.uid + 1) % 2 ^ 32 = (4 + Watched.ids { w with made := w.made ++ [ev] }) % 2 ^ 32
    rw [more, uid, Nat.add_assoc]
  · show 4 + Watched.ids { w with made := w.made ++ [ev] } ≤ 2 ^ 32
    omega
  · show w.sim.currentUid < 4 + Watched.ids { w with made := w.made ++ [ev] }
    have := good.current
    omega
  · intro other member
    show (4 ≤ other.key.uid ∧ other.key.uid < 4 + Watched.ids { w with made := w.made ++ [ev] }) ∧
      other.impl < w.sim.impls + 1
    rcases List.mem_append.mp member with old | new
    · have := good.named other old
      omega
    · obtain rfl := List.mem_singleton.mp new
      omega
  · refine List.pairwise_append.mpr
      ⟨good.apart, List.pairwise_singleton _ _, fun first old second new => ?_⟩
    obtain rfl := List.mem_singleton.mp new
    have := good.named first old
    omega
  · show (w.made ++ [ev]).Perm (w.handled.map Prod.fst ++ w.left ++ sch.events after)
    refine (good.fates.append_right [ev]).trans ?_
    rw [List.append_assoc]
    exact (List.perm_append_comm.trans perm.symm).append_left _
  · intro other member
    rcases List.mem_cons.mp (perm.mem_iff.mp member) with rfl | old
    · refine Prod.Lex.lt_iff.mpr ?_
      show w.sim.currentTs < other.key.ts ∨
        w.sim.currentTs = other.key.ts ∧ w.sim.currentUid < other.key.uid
      have := good.current
      omega
    · exact good.later other old
  · intro other member
    rcases List.mem_cons.mp (perm.mem_iff.mp member) with rfl | old
    · refine iff_of_false ?_ fun asked => ?_
      · rw [good.unused _ impl.ge]
        exact Bool.false_ne_true
      · have := good.old _ asked other.impl rfl
        omega
    · exact good.asked other old
  · exact fun i high => good.unused i (Nat.le_of_succ_le high)
  · exact fun id asked i same => Nat.lt_succ_of_lt (good.old id asked i same)
  · intro id member
    obtain ⟨two, i, low, same, others⟩ := good.ends id member
    refine ⟨two, i, Nat.lt_succ_of_lt low, same, fun other there => ?_⟩
    rcases List.mem_append.mp there with old | new
    · exact others other old
    · obtain rfl := List.mem_singleton.mp new
      omega
  · show w.sim.unscheduledEvents + 1 = (sch.events after).length
    rw [perm.length_eq, List.length_cons, good.count]
    rfl

/-- `m_stop` and the events for the end have no part in it. -/
theorem Good.idle (good : w.Good sch inv) (stop : Bool) (destroyEvents : List EventId) :
    Good sch inv { w with sim := { w.sim with stop := stop, destroyEvents := destroyEvents } } :=
  ⟨good.ready, good.uid, good.room, good.current, good.named, good.apart, good.fates, good.later,
    good.past, good.sorted, good.gone, good.asked, good.unused, good.old, good.ends, good.count⟩

theorem Good.flagged (good : w.Good sch inv) {flags : Nat → Bool} {asked : List EventId}
    (grows : ∀ i, w.sim.cancelled i = true → flags i = true)
    (exactly : ∀ ev ∈ sch.events w.sim.events, (flags ev.impl = true ↔ ev.id ∈ asked))
    (unused : ∀ i, w.sim.impls ≤ i → flags i = false)
    (old : ∀ id ∈ asked, ∀ i, id.impl = some i → i < w.sim.impls) :
    Good sch inv { w with sim := { w.sim with cancelled := flags }, askedOff := asked } :=
  ⟨good.ready, good.uid, good.room, good.current, good.named, good.apart, good.fates, good.later,
    good.past, good.sorted, fun ev removed => grows _ (good.gone ev removed), exactly, unused, old,
    good.ends, good.count⟩

/-- A call of `Cancel` that finds nothing to cancel. -/
theorem Good.asked_again (good : w.Good sch inv) {id : EventId}
    (known : ∀ ev ∈ sch.events w.sim.events, ev.id = id → ev.id ∈ w.askedOff)
    (old : ∀ i, id.impl = some i → i < w.sim.impls) :
    Good sch inv { w with askedOff := w.askedOff ++ [id] } := by
  refine good.flagged (fun _ flag => flag) (fun ev pending => ?_) good.unused fun other asked => ?_
  · rw [good.asked ev pending, List.mem_append, List.mem_singleton]
    exact ⟨.inl, fun either => either.elim (fun asked => asked) (known ev pending)⟩
  · rcases List.mem_append.mp asked with before | now
    · exact good.old other before
    · rw [List.mem_singleton.mp now]
      exact old

theorem Good.known_old (good : w.Good sch inv) {id : EventId} (known : w.Known id) :
    ∀ i, id.impl = some i → i < w.sim.impls := by
  intro i same
  rcases known with rfl | kept | ⟨ev, member, rfl⟩
  · contradiction
  · obtain ⟨-, j, low, here, -⟩ := good.ends id kept
    rw [same] at here
    exact Option.some.inj here ▸ low
  · exact Option.some.inj same ▸ (good.named ev member).2

section Cancel

variable (m : DefaultSimulatorImpl State) (id : EventId)

theorem cancel_events : (m.cancel id).events = m.events := by
  unfold DefaultSimulatorImpl.cancel
  split
  · rfl
  · rfl

theorem cancel_currentTs : (m.cancel id).currentTs = m.currentTs := by
  unfold DefaultSimulatorImpl.cancel
  split
  · rfl
  · rfl

theorem cancel_currentUid : (m.cancel id).currentUid = m.currentUid := by
  unfold DefaultSimulatorImpl.cancel
  split
  · rfl
  · rfl

end Cancel

/-- The flag of an event that `Cancel` finds. -/
theorem Good.set (good : w.Good sch inv) {id : EventId} (known : w.Known id)
    (exactly : ∀ ev ∈ sch.events w.sim.events, (some ev.impl = id.impl ↔ ev.id = id)) :
    Good sch inv { w with
      sim := w.sim.setCancelled id.impl
      askedOff := w.askedOff ++ [id] } := by
  refine good.flagged (fun i flag => ?_) (fun ev pending => ?_) (fun i high => ?_)
    fun other asked => ?_
  · simp [flag]
  · rw [List.mem_append, List.mem_singleton, ← good.asked ev pending, ← exactly ev pending]
    by_cases here : some ev.impl = id.impl
    · simp [here]
    · simp [here]
  · have other : some i ≠ id.impl := by
      intro same
      have := good.known_old known i same.symm
      omega
    simp [other, good.unused i high]
  · rcases List.mem_append.mp asked with before | now
    · exact good.old other before
    · rw [List.mem_singleton.mp now]
      exact good.known_old known

theorem Good.cancelled (good : w.Good sch inv) {id : EventId} (known : w.Known id) :
    Good sch inv { w with sim := w.sim.cancel id, askedOff := w.askedOff ++ [id] } := by
  have old := good.known_old known
  unfold DefaultSimulatorImpl.cancel
  split
  · rename_i expired
    refine good.asked_again (fun ev pending same => ?_) old
    by_contra free
    have running := (good.expired_iff (good.pending_made pending)).mpr ⟨pending, free⟩
    rw [same, expired] at running
    contradiction
  · rename_i running
    refine good.set known fun ev pending => ⟨fun same => ?_, fun same => by rw [← same]; rfl⟩
    rcases known with rfl | kept | ⟨other, member, rfl⟩
    · contradiction
    · obtain ⟨-, i, -, here, apart⟩ := good.ends id kept
      rw [here] at same
      exact absurd (Option.some.inj same) (apart ev (good.pending_made pending))
    · rw [good.made_inj (good.pending_made pending) member (.inr (Option.some.inj same))]

theorem Good.removed (good : w.Good sch inv) (correct : sch.Correct inv fun _ _ => True)
    {id : EventId} (known : w.Known id) :
    ∃ happened sim, w.sim.remove sch id = .ok (happened, sim) ∧
      Good sch inv (w.tell (.remove id) happened sim) ∧
      Effect sch w (w.tell (.remove id) happened sim) (.remove id) happened := by
  have running : SimulatorCall.remove id ≠ .processOneEvent := fun same => by cases same
  unfold DefaultSimulatorImpl.remove
  split
  · exact ⟨.nothing, _, rfl, good.idle _ _, .quiet running ⟨rfl, rfl⟩ rfl rfl⟩
  · rename_i uid
    split
    · exact ⟨.nothing, _, rfl, good, .quiet running ⟨rfl, rfl⟩ rfl rfl⟩
    · rename_i alive
      rw [Bool.not_eq_true] at alive
      rcases known with rfl | kept | ⟨ev, member, rfl⟩
      · contradiction
      · exact absurd (good.ends id kept).1 uid
      · obtain ⟨pending, free⟩ := (good.expired_iff member).mp alive
        obtain ⟨after, success, ready, perm⟩ := correct.remove good.ready pending
        have apart := List.pairwise_cons.mp (good.ready.2.perm perm)
        refine ⟨.left ev, { w.sim.setCancelled (some ev.impl) with
          events := after
          unscheduledEvents := w.sim.unscheduledEvents - 1 }, ?_, ?_, .left perm rfl⟩
        · show ((sch.remove w.sim.events ev).mapError SimulatorFailure.scheduler >>= _) = _
          rw [success]
          rfl
        have inside : ∀ other ∈ sch.events after, other ∈ sch.events w.sim.events :=
          fun other there => perm.mem_iff.mpr (List.mem_cons_of_mem _ there)
        have different : ∀ other ∈ sch.events after, other.impl ≠ ev.impl := by
          intro other there same
          have equal := good.made_inj (good.pending_made (inside other there)) member (.inr same)
          exact apart.1 other there (by rw [equal])
        refine ⟨ready, good.uid, good.room, good.current, good.named, good.apart, ?_,
          fun other there => good.later other (inside other there), good.past, good.sorted, ?_, ?_,
          ?_, good.old, good.ends, ?_⟩
        · show w.made.Perm (w.handled.map Prod.fst ++ (w.left ++ [ev]) ++ sch.events after)
          refine good.fates.trans ?_
          rw [← List.append_assoc, List.append_assoc _ [ev]]
          exact perm.append_left _
        · intro other there
          show (if some other.impl = some ev.impl then true else w.sim.cancelled other.impl) = true
          split
          · rfl
          · rename_i not_now
            rcases List.mem_append.mp there with before | now
            · exact good.gone other before
            · exact absurd (by rw [List.mem_singleton.mp now]) not_now
        · intro other there
          show (if some other.impl = some ev.impl then true
            else w.sim.cancelled other.impl) = true ↔ _
          rw [if_neg fun same => different other there (Option.some.inj same)]
          exact good.asked other (inside other there)
        · intro i high
          have low := (good.named ev member).2
          show (if some i = some ev.impl then true else w.sim.cancelled i) = false
          rw [if_neg fun same => by
            have := Option.some.inj same; change w.sim.impls ≤ i at high; omega]
          exact good.unused i high
        · show w.sim.unscheduledEvents - 1 = (sch.events after).length
          rw [good.count, perm.length_eq, List.length_cons]
          omega

theorem Good.handled (good : w.Good sch inv) (correct : sch.Correct inv fun _ _ => True)
    (some : sch.events w.sim.events ≠ []) :
    ∃ ev sim, w.sim.processOneEvent sch = .ok (.handled ev (!w.sim.cancelled ev.impl), sim) ∧
      ev ∈ sch.events w.sim.events ∧ (∀ other ∈ sch.events w.sim.events, ev.order ≤ other.order) ∧
      Good sch inv (w.tell .processOneEvent (.handled ev (!w.sim.cancelled ev.impl)) sim) ∧
      Effect sch w (w.tell .processOneEvent (.handled ev (!w.sim.cancelled ev.impl)) sim)
        .processOneEvent (.handled ev (!w.sim.cancelled ev.impl)) := by
  obtain ⟨ev, after, success, ready, perm, least⟩ := correct.removeNext good.ready some
  have pending : ev ∈ sch.events w.sim.events := perm.mem_iff.mpr List.mem_cons_self
  have inside : ∀ other ∈ sch.events after, other ∈ sch.events w.sim.events :=
    fun other there => perm.mem_iff.mpr (List.mem_cons_of_mem _ there)
  have ahead := good.later ev pending
  have forward : ¬ ev.key.ts < w.sim.currentTs := by
    have either : w.sim.currentTs < ev.key.ts ∨
      w.sim.currentTs = ev.key.ts ∧ w.sim.currentUid < ev.key.uid := Prod.Lex.lt_iff.mp ahead
    omega
  have first : ∀ other ∈ sch.events w.sim.events, ev.order ≤ other.order := by
    intro other there
    rcases List.mem_cons.mp (perm.mem_iff.mp there) with rfl | stays
    · exact le_refl _
    · exact least other stays
  refine ⟨ev, { w.sim with
    events := after
    unscheduledEvents := w.sim.unscheduledEvents - 1
    currentTs := ev.key.ts
    currentContext := ev.key.context
    currentUid := ev.key.uid }, ?_, pending, first, ?_, .handled perm first rfl⟩
  · unfold DefaultSimulatorImpl.processOneEvent
    simp only [success, Except.mapError, ok_bind, if_neg forward]
  have apart := List.pairwise_cons.mp (good.ready.2.perm perm)
  refine ⟨ready, good.uid, good.room, (good.named ev (good.pending_made pending)).1.2, good.named,
    good.apart, ?_, fun other there => ?_, fun entry there => ?_, ?_, good.gone,
    fun other there => good.asked other (inside other there), good.unused, good.old, good.ends, ?_⟩
  · show w.made.Perm ((w.handled ++ [(ev, _)]).map Prod.fst ++ w.left ++ sch.events after)
    refine (good.fates.trans (perm.append_left _)).trans ?_
    rw [List.map_append, List.append_assoc, List.append_assoc, List.append_assoc]
    exact List.perm_middle.append_left _
  · refine lt_of_le_of_ne (least other there) fun same => ?_
    exact apart.1 other there (Event.order_uid same)
  · rcases List.mem_append.mp there with before | now
    · exact (good.past entry before).trans ahead.le
    · rw [List.mem_singleton.mp now]
      exact le_refl _
  · refine List.pairwise_append.mpr ⟨good.sorted, List.pairwise_singleton _ _, ?_⟩
    intro first before second now
    rw [List.mem_singleton.mp now]
    exact lt_of_le_of_lt (good.past first before) ahead
  · show w.sim.unscheduledEvents - 1 = (sch.events after).length
    rw [good.count, perm.length_eq, List.length_cons]
    omega

theorem Good.keptOne (good : w.Good sch inv) (left : 4 + w.ids < 2 ^ 32) :
    Good sch inv (w.tell .scheduleDestroy w.sim.scheduleDestroy.1 w.sim.scheduleDestroy.2) := by
  have uid : w.sim.uid = 4 + w.ids := by rw [good.uid, Nat.mod_eq_of_lt left]
  have more : Watched.ids
      (w.tell .scheduleDestroy w.sim.scheduleDestroy.1 w.sim.scheduleDestroy.2) = w.ids + 1 := by
    simp only [ids, tell, DefaultSimulatorImpl.scheduleDestroy, List.length_append,
      List.length_singleton]
    omega
  refine ⟨good.ready, ?_, ?_, ?_, fun ev member => ?_, good.apart, good.fates, good.later,
    good.past, good.sorted, good.gone, good.asked, ?_, ?_, ?_, good.count⟩
  · rw [more]
    show (w.sim.uid + 1) % 2 ^ 32 = _
    rw [uid, Nat.add_assoc]
  · rw [more]
    exact left
  · rw [more]
    exact Nat.lt_succ_of_lt good.current
  · rw [more]
    show _ ∧ ev.impl < w.sim.impls + 1
    have := good.named ev member
    omega
  · exact fun i high => good.unused i (Nat.le_of_succ_le high)
  · exact fun id asked i same => Nat.lt_succ_of_lt (good.old id asked i same)
  · intro id member
    rcases List.mem_append.mp member with before | now
    · obtain ⟨two, i, low, same, others⟩ := good.ends id before
      exact ⟨two, i, Nat.lt_succ_of_lt low, same, others⟩
    · rw [List.mem_singleton.mp now]
      exact ⟨rfl, w.sim.impls, Nat.lt_succ_self _, rfl, fun ev there =>
        Nat.ne_of_lt (good.named ev there).2⟩

theorem time64_id {time : Int} (low : 0 ≤ time) (high : time < 2 ^ 63) :
    DefaultSimulatorImpl.time64 time = time := by
  unfold DefaultSimulatorImpl.time64
  omega

/-- The assertions of `Schedule` refuse a negative delay and one that ends after the last time of 64
bits. -/
def Refused (w : Watched State) (call : SimulatorCall) : Prop :=
  ∃ delay, call = .schedule delay ∧ ¬ (0 ≤ delay ∧ delay + w.sim.currentTs < 2 ^ 63)

def RefusedBy (w : Watched State) (call : SimulatorCall) (failure : SimulatorFailure) : Prop :=
  w.Refused call ∧ (failure = .isPositive ∨ failure = .notBack)

/-- Every legal call is served, but for a delay that is refused, and keeps the invariant. -/
theorem Good.step (good : w.Good sch inv) (correct : sch.Correct inv fun _ _ => True)
    (call : SimulatorCall) (legal : w.Legal sch call) :
    Holds (w.RefusedBy call)
      (fun done => Good sch inv (w.tell call done.1 done.2) ∧
        Effect sch w (w.tell call done.1 done.2) call done.1) (w.sim.call sch call) := by
  cases call with
  | schedule delay =>
      show Holds _ _ (w.sim.schedule sch delay)
      unfold DefaultSimulatorImpl.schedule
      have outside : DefaultSimulatorImpl.time64 (delay + w.sim.currentTs) < 0 ∨
          DefaultSimulatorImpl.time64 (delay + w.sim.currentTs) < w.sim.currentTs →
          w.Refused (.schedule delay) := by
        intro bad
        refine ⟨delay, rfl, fun inside => ?_⟩
        rw [time64_id (by omega) inside.2] at bad
        omega
      dsimp only
      split
      · rename_i below
        exact ⟨outside (.inl below), .inl rfl⟩
      · split
        · rename_i back
          exact ⟨outside (.inr back), .inr rfl⟩
        · rename_i ahead
          have later : w.sim.currentTs ≤
              (DefaultSimulatorImpl.time64 (delay + w.sim.currentTs)).toNat := by omega
          obtain ⟨ev, sim, success, kept⟩ :=
            good.enqueued correct legal later w.sim.currentContext (.schedule delay) (by
                rintro count fits (same | ⟨_, same⟩)
                · obtain rfl := SimulatorCall.schedule.inj same
                  rw [time64_id (by omega) (by omega)]
                  omega
                · cases same)
          rw [success]
          exact kept
  | scheduleNow =>
      obtain ⟨ev, sim, success, kept⟩ :=
        good.enqueued correct legal (Nat.le_refl _) w.sim.currentContext .scheduleNow
          (by rintro _ _ (same | ⟨_, same⟩) <;> cases same)
      show Holds _ _ (w.sim.enqueue sch _ _)
      rw [success]
      exact kept
  | scheduleWithContext context delay =>
      have ahead := legal.2
      have later : w.sim.currentTs ≤ ((delay + w.sim.currentTs) % 2 ^ 64).toNat := by omega
      obtain ⟨ev, sim, success, kept⟩ := good.enqueued correct legal.1 later context
        (.scheduleWithContext context delay) (by
          rintro count fits (same | ⟨_, same⟩)
          · cases same
          · obtain ⟨-, rfl⟩ := SimulatorCall.scheduleWithContext.inj same
            omega)
      show Holds _ _ (w.sim.enqueue sch _ _)
      rw [success]
      exact kept
  | scheduleDestroy =>
      exact ⟨good.keptOne legal, .quiet (fun same => by cases same) ⟨rfl, rfl⟩ rfl rfl⟩
  | cancel id =>
      refine ⟨good.cancelled legal, .quiet (fun same => by cases same) ⟨rfl, rfl⟩ ?_ ?_⟩
      · show sch.events (w.sim.cancel id).events = _
        rw [cancel_events]
      · show toLex ((w.sim.cancel id).currentTs, (w.sim.cancel id).currentUid) = _
        rw [cancel_currentTs, cancel_currentUid]
        rfl
  | remove id =>
      obtain ⟨happened, sim, success, kept⟩ := good.removed correct legal
      show Holds _ _ (w.sim.remove sch id)
      rw [success]
      exact kept
  | isExpired id => exact ⟨good, .quiet (fun same => by cases same) ⟨rfl, rfl⟩ rfl rfl⟩
  | stop => exact ⟨good.idle true _, .quiet (fun same => by cases same) ⟨rfl, rfl⟩ rfl rfl⟩
  | beginRun => exact ⟨good.idle false _, .quiet (fun same => by cases same) ⟨rfl, rfl⟩ rfl rfl⟩
  | processOneEvent =>
      obtain ⟨ev, sim, success, -, -, kept⟩ := good.handled correct legal.1
      show Holds _ _ (w.sim.processOneEvent sch)
      rw [success]
      exact kept
  | endRun =>
      show Holds _ _ (w.sim.endRun sch)
      unfold DefaultSimulatorImpl.endRun
      split
      · rename_i lost
        have count := good.count
        rw [lost.1] at count
        exact absurd count lost.2
      · exact ⟨good, .quiet (fun same => by cases same) ⟨rfl, rfl⟩ rfl rfl⟩
  | destroyNext =>
      show Holds _ _ (.ok w.sim.destroyNext)
      unfold DefaultSimulatorImpl.destroyNext
      split
      · exact ⟨good, .quiet (fun same => by cases same) ⟨rfl, rfl⟩ rfl rfl⟩
      · exact ⟨good.idle _ _, .quiet (fun same => by cases same) ⟨rfl, rfl⟩ rfl rfl⟩

theorem run_good (correct : sch.Correct inv fun _ _ => True)
    {labels : List (SimulatorCall × Happened)} {finish : Watched State}
    (run : Run (Step sch) (init sch) labels finish) : finish.Good sch inv := by
  refine run.invariant (Good sch inv) (init_good correct) fun middle label after good step => ?_
  obtain ⟨legal, sim, success, rfl⟩ := step
  exact ((good.step correct label.1 legal).of_ok success).1

theorem Effect.clock_le {after : Watched State} {call : SimulatorCall} {happened : Happened}
    (effect : Effect sch w after call happened) (good : w.Good sch inv) : w.clock ≤ after.clock := by
  cases effect with
  | queued _ _ _ _ clock => exact clock.ge
  | left _ clock => exact clock.ge
  | @handled ev perm _ clock =>
      rw [clock]
      exact (good.later ev (perm.mem_iff.mpr List.mem_cons_self)).le
  | quiet _ _ _ clock => exact clock.ge

theorem run_clock_le (correct : sch.Correct inv fun _ _ => True) (good : w.Good sch inv)
    {labels : List (SimulatorCall × Happened)} {finish : Watched State}
    (run : Run (Step sch) w labels finish) : w.clock ≤ finish.clock := by
  refine (run.invariant (fun after => after.Good sch inv ∧ w.clock ≤ after.clock)
    ⟨good, le_refl _⟩ fun middle label after holds step => ?_).2
  obtain ⟨legal, sim, success, rfl⟩ := step
  obtain ⟨kept, effect⟩ := (holds.1.step correct label.1 legal).of_ok success
  exact ⟨kept, holds.2.trans (effect.clock_le holds.1)⟩

/-- No assertion of the simulator or of its scheduler can fail, but for those of `Schedule`; the
clock only goes on, and a new event has a greater id than all before it. -/
theorem calls_served (correct : sch.Correct inv fun _ _ => True)
    {labels later : List (SimulatorCall × Happened)} {middle finish : Watched State}
    (run : Run (Step sch) (init sch) labels middle) (goesOn : Run (Step sch) middle later finish) :
    (∀ call failure, finish.Legal sch call → finish.sim.call sch call = .error failure →
      finish.Refused call ∧ (failure = .isPositive ∨ failure = .notBack)) ∧
    middle.clock ≤ finish.clock ∧
    ∀ call ev after, Step sch finish (call, .queued ev) after →
      4 ≤ ev.key.uid ∧ ∀ other ∈ finish.made, other.key.uid < ev.key.uid := by
  have good := run_good correct (run.append goesOn)
  refine ⟨fun call failure legal failed => (good.step correct call legal).of_error failed,
    run_clock_le correct (run_good correct run) goesOn, fun call ev after step => ?_⟩
  obtain ⟨legal, sim, success, rfl⟩ := step
  obtain ⟨-, effect⟩ := (good.step correct call legal).of_ok success
  cases effect with
  | queued _ _ latest _ _ =>
      exact ⟨by omega, fun other made => latest.symm ▸ (good.named other made).1.2⟩
  | quiet _ silent _ _ => exact absurd silent.2 (by simp [Happened.isQueued])

/-- Every event that was made was handled once, was removed once or is in the queue, and
`m_unscheduledEvents` counts those in the queue. -/
theorem one_fate (correct : sch.Correct inv fun _ _ => True)
    {labels : List (SimulatorCall × Happened)} {finish : Watched State}
    (run : Run (Step sch) (init sch) labels finish) :
    finish.made.Perm
        (finish.handled.map Prod.fst ++ finish.left ++ sch.events finish.sim.events) ∧
      finish.made.Nodup ∧ finish.sim.unscheduledEvents = (sch.events finish.sim.events).length := by
  have good := run_good correct run
  exact ⟨good.fates, good.apart.imp fun both same => both.1 (by rw [same]), good.count⟩

/-- The events are handled in the order of their times, and of their ids at one time; `Notify` is
called for those that `Cancel` was not called for before. -/
theorem handled_in_order (correct : sch.Correct inv fun _ _ => True)
    {labels : List (SimulatorCall × Happened)} {finish : Watched State}
    (run : Run (Step sch) (init sch) labels finish) :
    (finish.handled.Pairwise fun first second => first.1.order < second.1.order) ∧
      ∀ ev invoked after, Step sch finish (.processOneEvent, .handled ev invoked) after →
        (∀ other ∈ sch.events finish.sim.events, ev.order ≤ other.order) ∧
        (invoked = true ↔ ev.id ∉ finish.askedOff) := by
  have good := run_good correct run
  refine ⟨good.sorted, fun ev invoked after step => ?_⟩
  obtain ⟨legal, sim, success, -⟩ := step
  obtain ⟨found, next, same, pending, least, -⟩ := good.handled correct legal.1
  have equal := Prod.mk.inj (Except.ok.inj (success.symm.trans same))
  obtain ⟨rfl, rfl⟩ := Happened.handled.inj equal.1
  refine ⟨least, ?_⟩
  rw [Bool.not_eq_true', ← good.asked ev pending, Bool.not_eq_true]

/-- `IsExpired` tells whether an event will be called, at any time after its id was given. -/
theorem expired_exactly (correct : sch.Correct inv fun _ _ => True)
    {labels : List (SimulatorCall × Happened)} {finish : Watched State}
    (run : Run (Step sch) (init sch) labels finish) (ev : Event) (made : ev ∈ finish.made) :
    finish.sim.isExpired ev.id = false ↔
      ev ∈ sch.events finish.sim.events ∧ ev.id ∉ finish.askedOff :=
  (run_good correct run).expired_iff made

def first : Event := ⟨0, ⟨5, 4, 2 ^ 32 - 1⟩⟩

def second : Event := ⟨1, ⟨5, 5, 2 ^ 32 - 1⟩⟩

def early : Event := ⟨2, ⟨2, 6, 7⟩⟩

def atOnce : Event := ⟨3, ⟨2, 7, 7⟩⟩

/-- Two events of one time, of which the first is cancelled, and an earlier one that makes another
and removes it. -/
def fourEvents : List (SimulatorCall × Happened) :=
  [(.schedule 5, .queued first), (.schedule 5, .queued second),
    (.scheduleWithContext 7 2, .queued early), (.cancel first.id, .nothing), (.beginRun, .nothing),
    (.processOneEvent, .handled early true), (.scheduleNow, .queued atOnce),
    (.remove atOnce.id, .left atOnce), (.processOneEvent, .handled first false)]

def afterFour : Watched (List Event) := fourEvents.foldl (next mapScheduler) (init mapScheduler)

def afterEarly : Watched (List Event) :=
  (fourEvents.take 6).foldl (next mapScheduler) (init mapScheduler)

theorem afterFour_evaluated :
    (executes (takes mapScheduler) (next mapScheduler) (init mapScheduler) (fourEvents.take 6) = true ∧
      executes (takes mapScheduler) (next mapScheduler) afterEarly (fourEvents.drop 6) = true) ∧
      afterFour.Legal mapScheduler (.schedule (-1)) ∧
      afterFour.made = [first, second, early, atOnce] ∧
      afterFour.handled = [(early, true), (first, false)] ∧ afterFour.left = [atOnce] ∧
      mapScheduler.events afterFour.sim.events = [second] ∧ afterFour.askedOff = [first.id] ∧
      afterFour.takes mapScheduler (.processOneEvent, .handled second true) = true ∧
      afterFour.takes mapScheduler (.scheduleNow, .queued ⟨4, ⟨5, 8, 2 ^ 32 - 1⟩⟩) = true := by
  decide +kernel

theorem early_run : Run (Step mapScheduler) (init mapScheduler) (fourEvents.take 6) afterEarly :=
  Run.executed (step_next mapScheduler) _ afterFour_evaluated.1.1

theorem early_goesOn : Run (Step mapScheduler) afterEarly (fourEvents.drop 6) afterFour := by
  have run := Run.executed (step_next mapScheduler) _ afterFour_evaluated.1.2
  rwa [afterEarly, ← List.foldl_append, List.take_append_drop] at run

theorem fourEvents_run : Run (Step mapScheduler) (init mapScheduler) fourEvents afterFour :=
  early_run.append early_goesOn

theorem calls_served_after :
    (afterFour.Refused (.schedule (-1)) ∧
      (SimulatorFailure.notBack = .isPositive ∨ SimulatorFailure.notBack = .notBack)) ∧
    afterEarly.clock ≤ afterFour.clock ∧
    ∀ other ∈ [first, second, early, atOnce], other.key.uid < 8 := by
  obtain ⟨served, onwards, latest⟩ :=
    calls_served mapScheduler_correct early_run early_goesOn
  obtain ⟨-, legal, made, -, -, -, -, -, more⟩ := afterFour_evaluated
  have fresh := latest .scheduleNow ⟨4, ⟨5, 8, 2 ^ 32 - 1⟩⟩ _ (step_next mapScheduler afterFour _ more)
  rw [made] at fresh
  exact ⟨served (.schedule (-1)) .notBack legal rfl, onwards, fresh.2⟩

theorem afterFour_made : afterFour.made = [first, second, early, atOnce] :=
  afterFour_evaluated.2.2.1

theorem one_fate_after :
    [first, second, early, atOnce].Perm ([early, first] ++ [atOnce] ++ [second]) ∧
      [first, second, early, atOnce].Nodup ∧ afterFour.sim.unscheduledEvents = 1 := by
  have fates := one_fate mapScheduler_correct fourEvents_run
  obtain ⟨-, -, made, handled, left, events, -, -⟩ := afterFour_evaluated
  rwa [made, handled, left, events] at fates

theorem handled_in_order_after :
    ([early, first].Pairwise fun earlier later => earlier.order < later.order) ∧
      (∀ other ∈ [second], second.order ≤ other.order) ∧ (true = true ↔ second.id ∉ [first.id]) := by
  obtain ⟨sorted, next⟩ := handled_in_order mapScheduler_correct fourEvents_run
  obtain ⟨-, -, -, handled, -, events, asked, ready, -⟩ := afterFour_evaluated
  have last := next second true _ (step_next mapScheduler afterFour _ ready)
  rw [handled] at sorted
  rw [events, asked] at last
  exact ⟨by simpa using sorted, last⟩

theorem expired_exactly_after :
    afterFour.sim.isExpired second.id = false ↔ second ∈ [second] ∧ second.id ∉ [first.id] := by
  have exactly := expired_exactly mapScheduler_correct fourEvents_run second
    (by rw [afterFour_made]; decide)
  obtain ⟨-, -, -, -, -, events, asked, -⟩ := afterFour_evaluated
  rwa [events, asked] at exactly

end Watched

end Floodgate
