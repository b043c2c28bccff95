import Floodgate.DefaultSimulator
import Mathlib.Logic.Equiv.Basic

/-! Frames on the links: `TransmitStart`, `TransmitComplete`, the channel and `Receive` as events of
the simulator, among the events of everything else. -/

namespace Floodgate

open Outcome LabelledRun

/-- What an event of a port calls; the rest of the simulation has the `other` events. -/
inductive PortEvent (Frame : Type) where
  | transmitComplete (port : Nat)
  | receive (port : Nat) (frame : Frame)
  | other
  deriving DecidableEq

/-- `peer` is `m_dst` of the wire that a port is the source of, and `txTime` is that of `m_bps`. No
frame takes longer than `longest`. -/
structure LinkConfig (Frame : Type) where
  peer : Nat → Nat
  node : Nat → Nat
  txTime : Nat → Frame → Nat
  gap : Nat → Nat
  delay : Nat → Nat
  longest : Nat
  two_ends : ∀ first second, peer first = peer second → first = second
  gap_longest : ∀ port frame, txTime port frame + gap port ≤ longest
  delay_longest : ∀ port frame, txTime port frame + delay port ≤ longest

inductive PortFailure where
  | simulator (failure : SimulatorFailure)
  | mustBeReady
  | mustBeBusy
  | currentPktZero
  deriving DecidableEq

/-- The ports of all nodes. `calls` has what each `EventImpl` calls. The frames that were sent, and
those that arrived and whether the link was up, are kept with their times. -/
structure Ports (State Frame : Type) where
  sim : Watched State
  calls : Nat → PortEvent Frame
  busy : Nat → Bool
  currentPkt : Nat → Option Frame
  linkUp : Nat → Bool
  sent : Nat → List (Frame × Nat)
  arrived : Nat → List (Frame × Nat × Bool)

/-- `choice` is what `GetNextQindex` or `DequeueRR` finds to send. -/
inductive PortCall (Frame : Type) where
  | processOneEvent (choice : Option Frame)
  | dequeueAndTransmit (port : Nat) (choice : Option Frame)
  | takeDown (port : Nat)
  | other (call : SimulatorCall)

def Watched.perform {State : Type} (sch : Scheduler State) (w : Watched State)
    (call : SimulatorCall) : Except SimulatorFailure (Happened × Watched State) := do
  let done ← w.sim.call sch call
  .ok (done.1, w.tell call done.1 done.2)

namespace Ports

variable {State Frame : Type} (sch : Scheduler State) (cfg : LinkConfig Frame)
  (n : Ports State Frame)

def init : Ports State Frame where
  sim := .init sch
  calls := fun _ => .other
  busy := fun _ => false
  currentPkt := fun _ => none
  linkUp := fun _ => true
  sent := fun _ => []
  arrived := fun _ => []

def now : Nat := n.sim.sim.currentTs

def register (event : PortEvent Frame) : Happened → Nat → PortEvent Frame
  | .queued ev => Function.update n.calls ev.impl event
  | _ => n.calls

def schedule (call : SimulatorCall) (event : PortEvent Frame) :
    Except PortFailure (Ports State Frame) := do
  let done ← (n.sim.perform sch call).mapError .simulator
  .ok { n with sim := done.2, calls := n.register event done.1 }

/-- `TransmitStart` of the device and then of the channel. -/
def transmitStart (port : Nat) (frame : Frame) : Except PortFailure (Ports State Frame) :=
  if n.busy port = true then .error .mustBeReady
  else do
    let started : Ports State Frame := { n with
      busy := Function.update n.busy port true
      currentPkt := Function.update n.currentPkt port (some frame)
      sent := Function.update n.sent port (n.sent port ++ [(frame, n.now)]) }
    let completes ← started.schedule sch
      (.schedule (cfg.txTime port frame + cfg.gap port : Nat)) (.transmitComplete port)
    completes.schedule sch
      (.scheduleWithContext (cfg.node (cfg.peer port))
        (cfg.txTime port frame + cfg.delay port : Nat)) (.receive (cfg.peer port) frame)

def dequeueAndTransmit (port : Nat) (choice : Option Frame) :
    Except PortFailure (Ports State Frame) :=
  if n.linkUp port = false then .ok n
  else if n.busy port = true then .ok n
  else match choice with
    | none => .ok n
    | some frame => n.transmitStart sch cfg port frame

def transmitComplete (port : Nat) (choice : Option Frame) :
    Except PortFailure (Ports State Frame) :=
  if n.busy port = false then .error .mustBeBusy
  else if (n.currentPkt port).isNone then .error .currentPktZero
  else
    let ready : Ports State Frame := { n with
      busy := Function.update n.busy port false
      currentPkt := Function.update n.currentPkt port none }
    ready.dequeueAndTransmit sch cfg port choice

/-- A link that is down drops the frame. -/
def receive (port : Nat) (frame : Frame) : Ports State Frame :=
  { n with arrived :=
      Function.update n.arrived port (n.arrived port ++ [(frame, n.now, n.linkUp port)]) }

def handle (event : PortEvent Frame) (choice : Option Frame) :
    Except PortFailure (Ports State Frame) :=
  match event with
  | .transmitComplete port => n.transmitComplete sch cfg port choice
  | .receive port frame => .ok (n.receive port frame)
  | .other => .ok n

def call : PortCall Frame → Except PortFailure (Ports State Frame)
  | .processOneEvent choice => do
      let done ← (n.sim.perform sch .processOneEvent).mapError .simulator
      let after : Ports State Frame := { n with sim := done.2 }
      match done.1 with
      | .handled ev true => after.handle sch cfg (n.calls ev.impl) choice
      | _ => .ok after
  | .dequeueAndTransmit port choice => n.dequeueAndTransmit sch cfg port choice
  | .takeDown port => .ok { n with linkUp := Function.update n.linkUp port false }
  | .other call => n.schedule sch call .other

/-- Two ids are left, and every pending event leaves time for one frame more. -/
def Room : Prop :=
  4 + n.sim.ids + 2 ≤ 2 ^ 32 ∧ n.now + cfg.longest < 2 ^ 63 ∧
    ∀ ev ∈ sch.events n.sim.sim.events, ev.key.ts + cfg.longest < 2 ^ 63

/-- The rest of the simulation does not have the ids of the events of the ports. -/
def Legal : PortCall Frame → Prop
  | .processOneEvent _ => n.sim.Legal sch .processOneEvent ∧ n.Room sch cfg
  | .dequeueAndTransmit _ _ => n.Room sch cfg
  | .takeDown _ => True
  | .other call => n.sim.Legal sch call ∧ call ≠ .processOneEvent ∧
      ∀ ev ∈ n.sim.made, (call = .cancel ev.id ∨ call = .remove ev.id) →
        n.calls ev.impl = .other

def Step (n : Ports State Frame) (call : PortCall Frame) (after : Ports State Frame) : Prop :=
  n.Legal sch cfg call ∧ n.call sch cfg call = .ok after

section Replay

variable [DecidableEq Frame]

instance : Decidable (n.Room sch cfg) := inferInstanceAs
  (Decidable (4 + n.sim.ids + 2 ≤ 2 ^ 32 ∧ n.now + cfg.longest < 2 ^ 63 ∧
    ∀ ev ∈ sch.events n.sim.sim.events, ev.key.ts + cfg.longest < 2 ^ 63))

instance : DecidablePred (n.Legal sch cfg)
  | .processOneEvent _ =>
      inferInstanceAs (Decidable (n.sim.Legal sch .processOneEvent ∧ n.Room sch cfg))
  | .dequeueAndTransmit _ _ => inferInstanceAs (Decidable (n.Room sch cfg))
  | .takeDown _ => inferInstanceAs (Decidable True)
  | .other call => inferInstanceAs (Decidable (n.sim.Legal sch call ∧ call ≠ .processOneEvent ∧
      ∀ ev ∈ n.sim.made, (call = .cancel ev.id ∨ call = .remove ev.id) →
        n.calls ev.impl = .other))

def takes (call : PortCall Frame) : Bool :=
  decide (n.Legal sch cfg call) &&
    match n.call sch cfg call with
    | .error _ => false
    | .ok _ => true

def next (call : PortCall Frame) : Ports State Frame :=
  match n.call sch cfg call with
  | .error _ => n
  | .ok after => after

theorem step_next (call : PortCall Frame) (taken : n.takes sch cfg call = true) :
    Step sch cfg n call (n.next sch cfg call) := by
  unfold takes at taken
  obtain ⟨legal, fits⟩ := Bool.and_eq_true_iff.mp taken
  refine ⟨of_decide_eq_true legal, ?_⟩
  unfold next
  cases answer : n.call sch cfg call with
  | error failure => simp [answer] at fits
  | ok after => rfl

end Replay

variable {sch cfg n} {inv : State → Prop}

def Awaits (sch : Scheduler State) (n : Ports State Frame) (event : PortEvent Frame) (ev : Event) :
    Prop :=
  ev ∈ sch.events n.sim.sim.events ∧ n.calls ev.impl = event

/-- One event more that calls `event` at `ts`. -/
structure Queued (sch : Scheduler State) (n : Ports State Frame) (event : PortEvent Frame)
    (ts : Nat) (ev : Event) (after : Ports State Frame) : Prop where
  awaits : ∀ event' ev', Awaits sch after event' ev' ↔
    Awaits sch n event' ev' ∨ (event' = event ∧ ev' = ev)
  time : ev.key.ts = ts
  latest : ∀ event' ev', Awaits sch n event' ev' → ev'.key.uid < ev.key.uid
  free : ev.id ∉ n.sim.askedOff
  asked : after.sim.askedOff = n.sim.askedOff
  now : after.now = n.now
  ids : after.sim.ids = n.sim.ids + 1
  rest : after = { n with sim := after.sim, calls := after.calls }

theorem now_clock {first second : Ports State Frame} (same : first.sim.clock = second.sim.clock) :
    first.now = second.now :=
  (Prod.mk.inj (toLex_inj.mp same)).1

theorem schedule_queued (good : n.sim.Good sch inv) (correct : sch.Correct inv fun _ _ => True)
    (call : SimulatorCall) (event : PortEvent Frame) {delay : Nat}
    (shape : call = .schedule delay ∨ ∃ context, call = .scheduleWithContext context delay)
    (left : 4 + n.sim.ids < 2 ^ 32) (fits : n.now + delay < 2 ^ 63) :
    ∃ ev after, n.schedule sch call event = .ok after ∧ after.sim.Good sch inv ∧
      Queued sch n event (n.now + delay) ev after := by
  have sum : delay + n.sim.sim.currentTs < 2 ^ 63 := by
    have : n.now = n.sim.sim.currentTs := rfl
    omega
  have legal : n.sim.Legal sch call := by
    rcases shape with rfl | ⟨context, rfl⟩
    · exact left
    · exact ⟨left, by omega, by omega⟩
  have queues : call.queues = true := by
    rcases shape with rfl | ⟨context, rfl⟩
    · rfl
    · rfl
  have holds := good.step correct call legal
  cases answer : n.sim.sim.call sch call with
  | error failure =>
      obtain ⟨⟨delay', same, outside⟩, -⟩ := holds.of_error answer
      rcases shape with rfl | ⟨context, rfl⟩
      · obtain rfl := SimulatorCall.schedule.inj same
        exact absurd ⟨by omega, by omega⟩ outside
      · contradiction
  | ok done =>
      obtain ⟨happened, sim⟩ := done
      obtain ⟨kept, effect⟩ := holds.of_ok answer
      dsimp only at kept effect
      generalize told : n.sim.tell call happened sim = w at kept effect
      have success : n.schedule sch call event =
          .ok { n with sim := w, calls := n.register event happened } := by
        unfold schedule Watched.perform
        simp only [answer, ok_bind, Except.mapError, told]
      cases effect with
      | @queued _ ev due new latest perm clock =>
          refine ⟨ev, _, success, kept, ?_⟩
          have impl : ∀ ev', ev' ∈ sch.events n.sim.sim.events → ev'.impl ≠ ev.impl := by
            intro ev' pending same
            have := (good.named ev' (good.pending_made pending)).2
            omega
          refine ⟨fun event' ev' => ?_, due delay sum shape, fun before ev' awaits => ?_,
            fun asked => ?_, ?_, now_clock clock, ?_, rfl⟩
          · show ev' ∈ sch.events w.sim.events ∧
              Function.update n.calls ev.impl event ev'.impl = event' ↔ _
            rw [perm.mem_iff, List.mem_cons]
            constructor
            · rintro ⟨rfl | pending, calls⟩
              · rw [Function.update_self] at calls
                exact .inr ⟨calls.symm, rfl⟩
              · rw [Function.update_of_ne (impl ev' pending)] at calls
                exact .inl ⟨pending, calls⟩
            · rintro (⟨pending, calls⟩ | ⟨rfl, rfl⟩)
              · rw [Function.update_of_ne (impl ev' pending)]
                exact ⟨.inr pending, calls⟩
              · rw [Function.update_self]
                exact ⟨.inl rfl, rfl⟩
          · have := (good.named ev' (good.pending_made awaits.1)).1.2
            omega
          · have := good.old ev.id asked ev.impl rfl
            omega
          · subst told
            rcases shape with rfl | ⟨context, rfl⟩
            · rfl
            · rfl
          · subst told
            show (n.sim.made ++ [ev]).length + n.sim.kept.length = n.sim.ids + 1
            rw [List.length_append, List.length_singleton]
            unfold Watched.ids
            omega
      | left perm clock => simp at shape
      | handled perm least clock => simp at shape
      | quiet running silent same clock =>
          rw [queues] at silent
          exact absurd silent.1 (by simp)

abbrev Wire (Frame : Type) := Nat → List (Event × Frame × Nat)

/-- A busy port waits for one end of transmission, and the frames on its wire arrive in the order in
which they were sent, each after its time on the port and the delay of the channel. -/
structure Linked (sch : Scheduler State) (cfg : LinkConfig Frame) (inv : State → Prop)
    (n : Ports State Frame) (wire : Wire Frame) : Prop where
  good : n.sim.Good sch inv
  kept : ∀ event ev, event ≠ .other → Awaits sch n event ev → ev.id ∉ n.sim.askedOff
  sending : ∀ port, n.busy port = true → n.currentPkt port ≠ none ∧
    ∃ ev, Awaits sch n (.transmitComplete port) ev ∧
      (∀ ev', Awaits sch n (.transmitComplete port) ev' → ev' = ev) ∧
      (∀ e ∈ wire port, e.1.key.ts + cfg.gap port ≤ ev.key.ts + cfg.delay port) ∧
      ∀ s ∈ n.sent port, s.2 + cfg.txTime port s.1 + cfg.gap port ≤ ev.key.ts
  idle : ∀ port, n.busy port = false → (∀ ev, ¬ Awaits sch n (.transmitComplete port) ev) ∧
    (∀ e ∈ wire port, e.1.key.ts ≤ n.now + cfg.delay port) ∧
      ∀ s ∈ n.sent port, s.2 + cfg.txTime port s.1 + cfg.gap port ≤ n.now
  wired : ∀ port, ∀ e ∈ wire port, Awaits sch n (.receive (cfg.peer port) e.2.1) e.1 ∧
    e.1.key.ts = e.2.2 + cfg.txTime port e.2.1 + cfg.delay port
  only : ∀ p frame ev, Awaits sch n (.receive p frame) ev →
    ∃ port start, cfg.peer port = p ∧ (ev, frame, start) ∈ wire port
  sorted : ∀ port, (wire port).Pairwise fun first second => first.1.order < second.1.order
  flows : ∀ port, ∃ before, n.sent port = before ++ (wire port).map Prod.snd ∧
    (n.arrived (cfg.peer port)).map (fun a => (a.1, a.2.1)) =
      before.map fun s => (s.1, s.2 + cfg.txTime port s.1 + cfg.delay port)
  spaced : ∀ port, (n.sent port).Pairwise fun first second =>
    first.2 + cfg.txTime port first.1 + cfg.gap port ≤ second.2

variable {wire : Wire Frame} {after : Ports State Frame}

theorem Linked.moved (linked : Linked sch cfg inv n wire) (good : after.sim.Good sch inv)
    (later : n.now ≤ after.now)
    (links : ∀ event ev, event ≠ .other → (Awaits sch after event ev ↔ Awaits sch n event ev))
    (kept : ∀ event ev, event ≠ .other → Awaits sch n event ev → ev.id ∉ after.sim.askedOff)
    (rest : after = { n with sim := after.sim, calls := after.calls, linkUp := after.linkUp }) :
    Linked sch cfg inv after wire := by
  have completes : ∀ port ev, Awaits sch after (.transmitComplete port) ev ↔
      Awaits sch n (.transmitComplete port) ev := fun port ev => links _ ev (by simp)
  have receives : ∀ port frame ev, Awaits sch after (.receive port frame) ev ↔
      Awaits sch n (.receive port frame) ev := fun port frame ev => links _ ev (by simp)
  have busy : after.busy = n.busy := by rw [rest]
  have currentPkt : after.currentPkt = n.currentPkt := by rw [rest]
  have sent : after.sent = n.sent := by rw [rest]
  have arrived : after.arrived = n.arrived := by rw [rest]
  refine ⟨good, fun event ev link awaits => kept event ev link ((links event ev link).mp awaits),
    fun port sending => ?_, fun port idle => ?_, fun port e member => ?_,
    fun p frame ev awaits => ?_, linked.sorted, fun port => ?_, fun port => ?_⟩
  · rw [busy] at sending
    obtain ⟨current, ev, awaits, single, ahead, spaced⟩ := linked.sending port sending
    rw [currentPkt, sent]
    exact ⟨current, ev, (completes port ev).mpr awaits,
      fun ev' other => single ev' ((completes port ev').mp other), ahead, spaced⟩
  · rw [busy] at idle
    obtain ⟨none, ahead, spaced⟩ := linked.idle port idle
    rw [sent]
    refine ⟨fun ev awaits => none ev ((completes port ev).mp awaits), fun e member => ?_,
      fun s member => (spaced s member).trans later⟩
    have := ahead e member
    omega
  · obtain ⟨awaits, time⟩ := linked.wired port e member
    exact ⟨(receives _ _ _).mpr awaits, time⟩
  · exact linked.only p frame ev ((receives _ _ _).mp awaits)
  · rw [sent, arrived]
    exact linked.flows port
  · rw [sent]
    exact linked.spaced port

/-- What `TransmitStart` does, with the end of transmission `done` and the arrival `coming`. -/
structure Starts (sch : Scheduler State) (cfg : LinkConfig Frame) (n : Ports State Frame)
    (port : Nat) (frame : Frame) (done coming : Event) (after : Ports State Frame) : Prop where
  awaits : ∀ event ev, Awaits sch after event ev ↔ Awaits sch n event ev ∨
    (event = .transmitComplete port ∧ ev = done) ∨
      (event = .receive (cfg.peer port) frame ∧ ev = coming)
  latest : ∀ event ev, Awaits sch n event ev → ev.key.uid < coming.key.uid
  doneFree : done.id ∉ n.sim.askedOff
  comingFree : coming.id ∉ n.sim.askedOff
  doneTime : done.key.ts = n.now + (cfg.txTime port frame + cfg.gap port)
  comingTime : coming.key.ts = n.now + (cfg.txTime port frame + cfg.delay port)
  asked : after.sim.askedOff = n.sim.askedOff
  now : after.now = n.now
  busy : after.busy = Function.update n.busy port true
  currentPkt : after.currentPkt = Function.update n.currentPkt port (some frame)
  sent : after.sent = Function.update n.sent port (n.sent port ++ [(frame, n.now)])
  arrived : after.arrived = n.arrived

theorem transmitStart_starts (good : n.sim.Good sch inv) (correct : sch.Correct inv fun _ _ => True)
    (room : n.Room sch cfg) {port : Nat} (free : n.busy port = false) (frame : Frame) :
    ∃ done coming after, n.transmitStart sch cfg port frame = .ok after ∧
      after.sim.Good sch inv ∧ Starts sch cfg n port frame done coming after := by
  obtain ⟨ids, soon, -⟩ := room
  have gap := cfg.gap_longest port frame
  have delay := cfg.delay_longest port frame
  generalize start_eq : ({ n with
      busy := Function.update n.busy port true
      currentPkt := Function.update n.currentPkt port (some frame)
      sent := Function.update n.sent port (n.sent port ++ [(frame, n.now)]) } :
        Ports State Frame) = started
  have sim : started.sim = n.sim := by rw [← start_eq]
  have calls : started.calls = n.calls := by rw [← start_eq]
  have now : started.now = n.now := by unfold Ports.now; rw [sim]
  have same : ∀ event ev, Awaits sch started event ev ↔ Awaits sch n event ev := by
    intro event ev
    unfold Awaits
    rw [sim, calls]
  obtain ⟨done, middle, completes, good', queued⟩ := schedule_queued
    (sim ▸ good : started.sim.Good sch inv) correct
    (.schedule (cfg.txTime port frame + cfg.gap port : Nat)) (.transmitComplete port) (.inl rfl)
    (by rw [sim]; omega) (by rw [now]; omega)
  obtain ⟨coming, after, receives, good'', queued'⟩ := schedule_queued good' correct
    (.scheduleWithContext (cfg.node (cfg.peer port))
        (cfg.txTime port frame + cfg.delay port : Nat)) (.receive (cfg.peer port) frame)
    (.inr ⟨_, rfl⟩) (by rw [queued.ids, sim]; omega) (by rw [queued.now, now]; omega)
  have success : n.transmitStart sch cfg port frame = .ok after := by
    unfold Ports.transmitStart
    rw [if_neg (by rw [free]; exact Bool.false_ne_true)]
    dsimp only
    rw [start_eq, completes, ok_bind, receives]
  have rest : after = { started with sim := after.sim, calls := after.calls } := by
    have first := queued.rest
    have second := queued'.rest
    rw [first] at second
    exact second
  refine ⟨done, coming, after, success, good'', ?_⟩
  constructor
  case awaits =>
    intro event ev
    rw [queued'.awaits, queued.awaits, same, or_assoc]
  case latest =>
    intro event ev waits
    exact queued'.latest event ev ((queued.awaits event ev).mpr (.inl ((same event ev).mpr waits)))
  case doneFree => exact sim ▸ queued.free
  case comingFree =>
    rw [← sim, ← queued.asked]
    exact queued'.free
  case doneTime => rw [queued.time, now]
  case comingTime => rw [queued'.time, queued.now, now]
  case asked => rw [queued'.asked, queued.asked, sim]
  case now => rw [queued'.now, queued.now, now]
  case busy => rw [rest, ← start_eq]
  case currentPkt => rw [rest, ← start_eq]
  case sent => rw [rest, ← start_eq]
  case arrived => rw [rest, ← start_eq]

section Starts

variable {port : Nat} {frame : Frame} {done coming : Event}
  (starts : Starts sch cfg n port frame done coming after)

include starts

theorem Starts.old {event : PortEvent Frame} {ev : Event} (waits : Awaits sch n event ev) :
    Awaits sch after event ev :=
  (starts.awaits event ev).mpr (.inl waits)

theorem Starts.completes {p : Nat} {ev : Event} (waits : Awaits sch after (.transmitComplete p) ev) :
    Awaits sch n (.transmitComplete p) ev ∨ p = port ∧ ev = done := by
  rcases (starts.awaits _ ev).mp waits with old | ⟨same, here⟩ | ⟨same, -⟩
  · exact .inl old
  · exact .inr ⟨PortEvent.transmitComplete.inj same, here⟩
  · cases same

variable (linked : Linked sch cfg inv n wire)

include linked

theorem Starts.kept {event : PortEvent Frame} {ev : Event} (link : event ≠ .other)
    (waits : Awaits sch after event ev) : ev.id ∉ after.sim.askedOff := by
  rw [starts.asked]
  rcases (starts.awaits event ev).mp waits with old | ⟨-, rfl⟩ | ⟨-, rfl⟩
  · exact linked.kept event ev link old
  · exact starts.doneFree
  · exact starts.comingFree

theorem Starts.wired {p : Nat} {e : Event × Frame × Nat}
    (member : e ∈ Function.update wire port (wire port ++ [(coming, frame, n.now)]) p) :
    Awaits sch after (.receive (cfg.peer p) e.2.1) e.1 ∧
      e.1.key.ts = e.2.2 + cfg.txTime p e.2.1 + cfg.delay p := by
  have time := starts.comingTime
  by_cases here : p = port
  · subst here
    rw [Function.update_self] at member
    rcases List.mem_append.mp member with old | new
    · exact ⟨starts.old (linked.wired p e old).1, (linked.wired p e old).2⟩
    · rw [List.mem_singleton.mp new]
      exact ⟨(starts.awaits _ _).mpr (.inr (.inr ⟨rfl, rfl⟩)), by dsimp only; omega⟩
  · rw [Function.update_of_ne here] at member
    exact ⟨starts.old (linked.wired p e member).1, (linked.wired p e member).2⟩

theorem Starts.only {p : Nat} {f : Frame} {ev : Event} (waits : Awaits sch after (.receive p f) ev) :
    ∃ q start, cfg.peer q = p ∧
      (ev, f, start) ∈ Function.update wire port (wire port ++ [(coming, frame, n.now)]) q := by
  rcases (starts.awaits _ ev).mp waits with old | ⟨same, -⟩ | ⟨same, rfl⟩
  · obtain ⟨q, start, peer, member⟩ := linked.only p f ev old
    refine ⟨q, start, peer, ?_⟩
    by_cases here : q = port
    · subst here
      rw [Function.update_self]
      exact List.mem_append_left _ member
    · rwa [Function.update_of_ne here]
  · cases same
  · obtain ⟨rfl, rfl⟩ := PortEvent.receive.inj same
    refine ⟨port, n.now, rfl, ?_⟩
    rw [Function.update_self]
    exact List.mem_append_right _ (List.mem_singleton_self _)

theorem Starts.sending_here (free : n.busy port = false) : after.currentPkt port ≠ none ∧
    ∃ ev, Awaits sch after (.transmitComplete port) ev ∧
      (∀ ev', Awaits sch after (.transmitComplete port) ev' → ev' = ev) ∧
      (∀ e ∈ wire port ++ [(coming, frame, n.now)],
        e.1.key.ts + cfg.gap port ≤ ev.key.ts + cfg.delay port) ∧
      ∀ s ∈ after.sent port, s.2 + cfg.txTime port s.1 + cfg.gap port ≤ ev.key.ts := by
  obtain ⟨nothing, ahead, spaced⟩ := linked.idle port free
  have doneTime := starts.doneTime
  have comingTime := starts.comingTime
  rw [starts.currentPkt, starts.sent, Function.update_self, Function.update_self]
  refine ⟨Option.some_ne_none _, done, (starts.awaits _ _).mpr (.inr (.inl ⟨rfl, rfl⟩)),
    fun ev' waits => ?_, fun e member => ?_, fun s member => ?_⟩
  · rcases starts.completes waits with old | ⟨-, same⟩
    · exact absurd old (nothing ev')
    · exact same
  · rcases List.mem_append.mp member with old | new
    · have := ahead e old
      omega
    · rw [List.mem_singleton.mp new]
      dsimp only
      omega
  · rcases List.mem_append.mp member with old | new
    · have := spaced s old
      omega
    · rw [List.mem_singleton.mp new]
      dsimp only
      omega

theorem Starts.sorted (free : n.busy port = false) :
    (wire port ++ [(coming, frame, n.now)]).Pairwise
      fun first second => first.1.order < second.1.order := by
  obtain ⟨-, ahead, -⟩ := linked.idle port free
  refine List.pairwise_append.mpr ⟨linked.sorted port, List.pairwise_singleton _ _, ?_⟩
  intro e old e' new
  rw [List.mem_singleton.mp new]
  have number := starts.latest _ e.1 (linked.wired port e old).1
  have comingTime := starts.comingTime
  have time := ahead e old
  refine Prod.Lex.lt_iff.mpr ?_
  show e.1.key.ts < coming.key.ts ∨ e.1.key.ts = coming.key.ts ∧ e.1.key.uid < coming.key.uid
  omega

theorem Starts.flows (p : Nat) : ∃ before,
    after.sent p = before ++ (Function.update wire port
      (wire port ++ [(coming, frame, n.now)]) p).map Prod.snd ∧
    (after.arrived (cfg.peer p)).map (fun a => (a.1, a.2.1)) =
      before.map fun s => (s.1, s.2 + cfg.txTime p s.1 + cfg.delay p) := by
  obtain ⟨before, whole, told⟩ := linked.flows p
  rw [starts.sent, starts.arrived]
  refine ⟨before, ?_, told⟩
  by_cases here : p = port
  · subst here
    rw [Function.update_self, Function.update_self, whole, List.map_append, List.append_assoc]
    rfl
  · rw [Function.update_of_ne here, Function.update_of_ne here, whole]

end Starts

theorem Linked.transmitStart (linked : Linked sch cfg inv n wire)
    (correct : sch.Correct inv fun _ _ => True) (room : n.Room sch cfg) {port : Nat}
    (free : n.busy port = false) (frame : Frame) :
    ∃ after wire, n.transmitStart sch cfg port frame = .ok after ∧
      Linked sch cfg inv after wire := by
  obtain ⟨done, coming, after, success, good, starts⟩ :=
    transmitStart_starts linked.good correct room free frame
  refine ⟨after, Function.update wire port (wire port ++ [(coming, frame, n.now)]), success, ?_⟩
  constructor
  case good => exact good
  case kept => exact fun event ev link waits => starts.kept linked link waits
  case wired => exact fun p e member => starts.wired linked member
  case only => exact fun p f ev waits => starts.only linked waits
  case flows => exact starts.flows linked
  case sending =>
    intro p sending
    by_cases here : p = port
    · subst here
      rw [Function.update_self]
      exact starts.sending_here linked free
    · rw [starts.busy, Function.update_of_ne here] at sending
      obtain ⟨current, ev, waits, single, before, apart⟩ := linked.sending p sending
      rw [starts.currentPkt, starts.sent, Function.update_of_ne here, Function.update_of_ne here,
        Function.update_of_ne here]
      refine ⟨current, ev, starts.old waits, fun ev' other => ?_, before, apart⟩
      rcases starts.completes other with old | ⟨same, -⟩
      · exact single ev' old
      · exact absurd same here
  case idle =>
    intro p idle
    by_cases here : p = port
    · rw [starts.busy, here, Function.update_self] at idle
      cases idle
    · rw [starts.busy, Function.update_of_ne here] at idle
      obtain ⟨none, before, apart⟩ := linked.idle p idle
      rw [starts.sent, Function.update_of_ne here, Function.update_of_ne here, starts.now]
      refine ⟨fun ev waits => ?_, before, apart⟩
      rcases starts.completes waits with old | ⟨same, -⟩
      · exact none ev old
      · exact here same
  case sorted =>
    intro p
    by_cases here : p = port
    · subst here
      rw [Function.update_self]
      exact starts.sorted linked free
    · rw [Function.update_of_ne here]
      exact linked.sorted p
  case spaced =>
    intro p
    rw [starts.sent]
    by_cases here : p = port
    · subst here
      rw [Function.update_self]
      refine List.pairwise_append.mpr ⟨linked.spaced p, List.pairwise_singleton _ _, ?_⟩
      intro s old s' new
      rw [List.mem_singleton.mp new]
      exact (linked.idle p free).2.2 s old
    · rw [Function.update_of_ne here]
      exact linked.spaced p

structure Took (sch : Scheduler State) (inv : State → Prop) (n : Ports State Frame) (ev : Event)
    (w : Watched State) : Prop where
  good : w.Good sch inv
  pending : ev ∈ sch.events n.sim.sim.events
  awaits : ∀ event ev', Awaits sch { n with sim := w } event ev' ↔
    Awaits sch n event ev' ∧ ev' ≠ ev
  least : ∀ ev' ∈ sch.events n.sim.sim.events, ev.order ≤ ev'.order
  time : w.sim.currentTs = ev.key.ts
  later : n.now ≤ ev.key.ts
  asked : w.askedOff = n.sim.askedOff
  ids : w.ids = n.sim.ids

theorem perform_took (good : n.sim.Good sch inv) (correct : sch.Correct inv fun _ _ => True)
    (legal : n.sim.Legal sch .processOneEvent) :
    ∃ ev w, n.sim.perform sch .processOneEvent =
        .ok (.handled ev (!n.sim.sim.cancelled ev.impl), w) ∧ Took sch inv n ev w := by
  obtain ⟨ev, sim, success, pending, least, kept, effect⟩ := good.handled correct legal.1
  generalize told : n.sim.tell .processOneEvent (.handled ev (!n.sim.sim.cancelled ev.impl)) sim = w
    at kept effect
  refine ⟨ev, w, ?_, kept, pending, fun event ev' => ?_, least, ?_, ?_, ?_, ?_⟩
  · unfold Watched.perform
    show (n.sim.sim.processOneEvent sch >>= _) = _
    simp only [success, ok_bind, told]
  · cases effect with
    | handled perm _ clock =>
        have apart := (List.pairwise_cons.mp (good.ready.2.perm perm)).1
        show ev' ∈ sch.events w.sim.events ∧ n.calls ev'.impl = event ↔ _
        constructor
        · rintro ⟨stays, calls⟩
          exact ⟨⟨perm.mem_iff.mpr (List.mem_cons_of_mem _ stays), calls⟩, fun same =>
            apart ev' stays (by rw [same])⟩
        · rintro ⟨⟨before, calls⟩, different⟩
          exact ⟨(List.mem_cons.mp (perm.mem_iff.mp before)).resolve_left different, calls⟩
    | quiet running => exact absurd rfl running
  · cases effect with
    | handled _ _ clock => exact (Prod.mk.inj (toLex_inj.mp clock)).1
    | quiet running => exact absurd rfl running
  · rcases Prod.Lex.lt_iff.mp (good.later ev pending) with before | ⟨same, -⟩
    · exact Nat.le_of_lt before
    · exact Nat.le_of_eq same
  · rw [← told]
    rfl
  · rw [← told]
    rfl

theorem Took.room {ev : Event} {w : Watched State} (took : Took sch inv n ev w)
    (room : n.Room sch cfg) (after : Ports State Frame) (same : after.sim = w) :
    after.Room sch cfg := by
  refine ⟨?_, ?_, fun ev' there => ?_⟩
  · rw [same, took.ids]
    exact room.1
  · unfold Ports.now
    rw [same, took.time]
    exact room.2.2 ev took.pending
  · rw [same] at there
    exact room.2.2 ev' ((took.awaits _ ev').mp ⟨there, rfl⟩).1.1

theorem Linked.invoked (linked : Linked sch cfg inv n wire) {ev : Event}
    (pending : ev ∈ sch.events n.sim.sim.events) (link : n.calls ev.impl ≠ .other) :
    n.sim.sim.cancelled ev.impl = false := by
  rw [← Bool.not_eq_true, linked.good.asked ev pending]
  exact linked.kept _ ev link ⟨pending, rfl⟩

theorem Linked.completed (linked : Linked sch cfg inv n wire) {ev : Event} {w : Watched State}
    (took : Took sch inv n ev w) {port : Nat} (calls : n.calls ev.impl = .transmitComplete port) :
    n.busy port = true ∧ n.currentPkt port ≠ none ∧ Linked sch cfg inv { n with
      sim := w
      busy := Function.update n.busy port false
      currentPkt := Function.update n.currentPkt port none } wire := by
  have waits : Awaits sch n (.transmitComplete port) ev := ⟨took.pending, calls⟩
  have busy : n.busy port = true := by
    by_contra idle
    exact (linked.idle port (Bool.eq_false_of_not_eq_true idle)).1 ev waits
  obtain ⟨current, done, _, single, ahead, spaced⟩ := linked.sending port busy
  obtain rfl := single ev waits
  have others : ∀ event ev', event ≠ .transmitComplete port →
      Awaits sch n event ev' → ev' ≠ ev := by
    intro event ev' different there same
    rw [same] at there
    exact different (there.2.symm.trans calls)
  have now : w.sim.currentTs = ev.key.ts := took.time
  refine ⟨busy, current, took.good, fun event ev' link there => ?_, fun p sending => ?_,
    fun p idle => ?_, fun p e member => ?_, fun q frame ev' there => ?_, linked.sorted,
    linked.flows, linked.spaced⟩
  · rw [show w.askedOff = _ from took.asked]
    exact linked.kept event ev' link ((took.awaits _ _).mp there).1
  · change Function.update n.busy port false p = true at sending
    have here : p ≠ port := by
      rintro rfl
      rw [Function.update_self] at sending
      cases sending
    rw [Function.update_of_ne here] at sending
    obtain ⟨some, last, awaits, one, before, apart⟩ := linked.sending p sending
    have different : (PortEvent.transmitComplete p : PortEvent Frame) ≠ .transmitComplete port :=
      fun same => here (PortEvent.transmitComplete.inj same)
    have some : Function.update n.currentPkt port none p ≠ none := by
      rwa [Function.update_of_ne here]
    refine ⟨some, last, (took.awaits _ _).mpr ⟨awaits, others _ _ different awaits⟩,
      fun ev' there => one ev' ((took.awaits _ _).mp there).1, before, apart⟩
  · by_cases here : p = port
    · subst here
      refine ⟨fun ev' there => ?_, fun e member => ?_, fun s member => ?_⟩
      · obtain ⟨old, different⟩ := (took.awaits _ _).mp there
        exact different (single ev' old)
      · show e.1.key.ts ≤ w.sim.currentTs + cfg.delay p
        have := ahead e member
        omega
      · show _ ≤ w.sim.currentTs
        rw [now]
        exact spaced s member
    · change Function.update n.busy port false p = false at idle
      rw [Function.update_of_ne here] at idle
      obtain ⟨none, before, apart⟩ := linked.idle p idle
      have later := took.later
      refine ⟨fun ev' there => none ev' ((took.awaits _ _).mp there).1, fun e member => ?_,
        fun s member => ?_⟩
      · show e.1.key.ts ≤ w.sim.currentTs + cfg.delay p
        have := before e member
        omega
      · show _ ≤ w.sim.currentTs
        rw [now]
        exact (apart s member).trans later
  · obtain ⟨awaits, time⟩ := linked.wired p e member
    exact ⟨(took.awaits _ _).mpr ⟨awaits, others _ _ (fun same => by cases same) awaits⟩, time⟩
  · exact linked.only q frame ev' ((took.awaits _ _).mp there).1

theorem Linked.received (linked : Linked sch cfg inv n wire) {ev : Event} {w : Watched State}
    (took : Took sch inv n ev w) {p : Nat} {frame : Frame}
    (calls : n.calls ev.impl = .receive p frame) :
    ∃ wire, Linked sch cfg inv (Ports.receive { n with sim := w } p frame) wire := by
  obtain ⟨port, start, rfl, member⟩ := linked.only p frame ev ⟨took.pending, calls⟩
  -- the least event of all is the first one on its wire
  obtain ⟨rest, front⟩ : ∃ rest, wire port = (ev, frame, start) :: rest := by
    have sorted := linked.sorted port
    cases on : wire port with
    | nil =>
        rw [on] at member
        exact absurd member (by simp)
    | cons first rest =>
        rw [on] at member sorted
        rcases List.mem_cons.mp member with same | later
        · exact ⟨rest, by rw [same]⟩
        · have before := (List.pairwise_cons.mp sorted).1 _ later
          have waits := (linked.wired port first (by rw [on]; simp)).1
          exact absurd before (not_lt.mpr (took.least first.1 waits.1))
  have now : w.sim.currentTs = ev.key.ts := took.time
  have later := took.later
  have others : ∀ q e, e ∈ Function.update wire port rest q → e ∈ wire q ∧ e.1 ≠ ev := by
    intro q e inside
    by_cases here : q = port
    · subst here
      rw [Function.update_self] at inside
      refine ⟨by rw [front]; exact List.mem_cons_of_mem _ inside, fun same => ?_⟩
      have sorted := linked.sorted q
      rw [front] at sorted
      have less := (List.pairwise_cons.mp sorted).1 e inside
      rw [same] at less
      exact lt_irrefl _ less
    · rw [Function.update_of_ne here] at inside
      refine ⟨inside, fun same => here ?_⟩
      have other := (linked.wired q e inside).1.2
      rw [same, calls] at other
      exact cfg.two_ends q port (PortEvent.receive.inj other).1.symm
  have fewer : ∀ q, List.Sublist (Function.update wire port rest q) (wire q) := by
    intro q
    by_cases here : q = port
    · subst here
      rw [Function.update_self, front]
      exact List.sublist_cons_self _ _
    · rw [Function.update_of_ne here]
  refine ⟨Function.update wire port rest, took.good, fun event ev' link there => ?_,
    fun q sending => ?_, fun q idle => ?_, fun q e inside => ?_, fun q f ev' there => ?_,
    fun q => (linked.sorted q).sublist (fewer q), fun q => ?_, linked.spaced⟩
  · show ev'.id ∉ w.askedOff
    rw [took.asked]
    exact linked.kept event ev' link ((took.awaits _ _).mp there).1
  · obtain ⟨some, last, awaits, one, before, apart⟩ := linked.sending q sending
    refine ⟨some, last, (took.awaits _ _).mpr ⟨awaits, fun same => ?_⟩,
      fun ev' there => one ev' ((took.awaits _ _).mp there).1,
      fun e inside => before e (others q e inside).1, apart⟩
    have other := awaits.2
    rw [same, calls] at other
    cases other
  · obtain ⟨none, before, apart⟩ := linked.idle q idle
    refine ⟨fun ev' there => none ev' ((took.awaits _ _).mp there).1, fun e inside => ?_,
      fun s inside => ?_⟩
    · show e.1.key.ts ≤ w.sim.currentTs + cfg.delay q
      have := before e (others q e inside).1
      omega
    · show _ ≤ w.sim.currentTs
      have := apart s inside
      omega
  · obtain ⟨awaits, time⟩ := linked.wired q e (others q e inside).1
    exact ⟨(took.awaits _ _).mpr ⟨awaits, (others q e inside).2⟩, time⟩
  · obtain ⟨old, different⟩ := (took.awaits _ _).mp there
    obtain ⟨r, began, peer, inside⟩ := linked.only q f ev' old
    refine ⟨r, began, peer, ?_⟩
    by_cases here : r = port
    · subst here
      rw [Function.update_self]
      rw [front] at inside
      rcases List.mem_cons.mp inside with same | stays
      · exact absurd (congrArg Prod.fst same) different
      · exact stays
    · rwa [Function.update_of_ne here]
  · obtain ⟨before, whole, told⟩ := linked.flows q
    by_cases here : q = port
    · subst here
      refine ⟨before ++ [(frame, start)], ?_, ?_⟩
      · show n.sent q = _
        rw [whole, front, Function.update_self, List.append_assoc]
        rfl
      · have time := (linked.wired q _ (by rw [front]; exact List.mem_cons_self)).2
        show List.map _ (Function.update n.arrived (cfg.peer q) _ (cfg.peer q)) = _
        rw [Function.update_self, List.map_append, List.map_append, told]
        congr 1
        show [(frame, w.sim.currentTs)] = _
        rw [now, show ev.key.ts = _ from time]
        rfl
    · refine ⟨before, ?_, ?_⟩
      · rw [Function.update_of_ne here]
        exact whole
      · show List.map _ (Function.update n.arrived (cfg.peer port) _ (cfg.peer q)) = _
        rw [Function.update_of_ne fun same => here (cfg.two_ends q port same)]
        exact told

theorem Linked.dequeued (linked : Linked sch cfg inv n wire)
    (correct : sch.Correct inv fun _ _ => True) (room : n.Room sch cfg) (port : Nat)
    (choice : Option Frame) :
    ∃ after wire, n.dequeueAndTransmit sch cfg port choice = .ok after ∧
      Linked sch cfg inv after wire := by
  unfold dequeueAndTransmit
  split
  · exact ⟨n, wire, rfl, linked⟩
  · split
    · exact ⟨n, wire, rfl, linked⟩
    · rename_i free
      cases choice with
      | none => exact ⟨n, wire, rfl, linked⟩
      | some frame =>
          exact linked.transmitStart correct room (Bool.eq_false_of_not_eq_true free) frame

theorem Linked.passed (linked : Linked sch cfg inv n wire) {ev : Event} {w : Watched State}
    (took : Took sch inv n ev w) (calls : n.calls ev.impl = .other) :
    Linked sch cfg inv { n with sim := w } wire := by
  refine linked.moved took.good ?_ (fun event ev' link => ?_) (fun event ev' link there => ?_) rfl
  · show n.now ≤ w.sim.currentTs
    rw [took.time]
    exact took.later
  · rw [took.awaits]
    refine and_iff_left_of_imp fun there same => link ?_
    rw [← there.2, same, calls]
  · show ev'.id ∉ w.askedOff
    rw [took.asked]
    exact linked.kept event ev' link there

theorem Linked.processed (linked : Linked sch cfg inv n wire)
    (correct : sch.Correct inv fun _ _ => True) (choice : Option Frame)
    (legal : n.Legal sch cfg (.processOneEvent choice)) :
    ∃ after wire, n.call sch cfg (.processOneEvent choice) = .ok after ∧
      Linked sch cfg inv after wire := by
  obtain ⟨running, room⟩ := legal
  obtain ⟨ev, w, success, took⟩ := perform_took linked.good correct running
  have handled : n.call sch cfg (.processOneEvent choice) =
      if n.sim.sim.cancelled ev.impl = true then .ok { n with sim := w }
      else handle sch cfg { n with sim := w } (n.calls ev.impl) choice := by
    unfold call
    simp only [success, Except.mapError, ok_bind]
    cases n.sim.sim.cancelled ev.impl with
    | true => rfl
    | false => rfl
  rw [handled]
  cases calls : n.calls ev.impl with
  | transmitComplete port =>
      have flag := linked.invoked took.pending (by rw [calls]; simp)
      obtain ⟨busy, current, ready⟩ := linked.completed took calls
      rw [if_neg (by rw [flag]; exact Bool.false_ne_true)]
      show ∃ after wire, transmitComplete sch cfg { n with sim := w } port choice = .ok after ∧ _
      unfold transmitComplete
      rw [if_neg (by rw [busy]; simp), if_neg (by simpa using current)]
      exact ready.dequeued correct (took.room room _ rfl) port choice
  | receive port frame =>
      have flag := linked.invoked took.pending (by rw [calls]; simp)
      rw [if_neg (by rw [flag]; exact Bool.false_ne_true)]
      obtain ⟨wire, kept⟩ := linked.received took calls
      exact ⟨_, wire, rfl, kept⟩
  | other =>
      have kept := linked.passed took calls
      split
      · exact ⟨_, wire, rfl, kept⟩
      · exact ⟨_, wire, rfl, kept⟩

theorem Linked.others (linked : Linked sch cfg inv n wire)
    (correct : sch.Correct inv fun _ _ => True) {call : SimulatorCall}
    (legal : n.Legal sch cfg (.other call)) :
    Holds (fun _ => n.sim.Refused call) (fun after => Linked sch cfg inv after wire)
      (n.call sch cfg (.other call)) := by
  obtain ⟨allowed, running, foreign⟩ := legal
  have holds := linked.good.step correct call allowed
  show Holds _ _ (n.schedule sch call .other)
  unfold schedule Watched.perform
  cases answer : n.sim.sim.call sch call with
  | error failure => exact (holds.of_error answer).1
  | ok done =>
      obtain ⟨happened, sim⟩ := done
      obtain ⟨good, effect⟩ := holds.of_ok answer
      show Linked sch cfg inv { n with
        sim := n.sim.tell call happened sim, calls := n.register .other happened } wire
      have asked : ∀ event ev, event ≠ .other → Awaits sch n event ev →
          ev.id ∉ (n.sim.tell call happened sim).askedOff := by
        intro event ev link awaits
        have free := linked.kept event ev link awaits
        cases call with
        | cancel id =>
            show ev.id ∉ n.sim.askedOff ++ [id]
            rw [List.mem_append, not_or, List.mem_singleton]
            refine ⟨free, fun same => link ?_⟩
            rw [← awaits.2]
            exact foreign ev (linked.good.pending_made awaits.1) (.inl (by rw [same]))
        | _ => exact free
      dsimp only at good effect
      generalize n.sim.tell call happened sim = w at good effect asked
      have moved (links : ∀ event ev, event ≠ .other →
          (Awaits sch { n with sim := w, calls := n.register .other happened } event ev ↔
            Awaits sch n event ev)) (clock : w.clock = n.sim.clock) :
          Linked sch cfg inv { n with sim := w, calls := n.register .other happened } wire :=
        linked.moved good (Nat.le_of_eq (Prod.mk.inj (toLex_inj.mp clock)).1.symm) links asked rfl
      cases effect with
      | @queued _ ev _ new _ perm clock =>
          refine moved (fun event ev' link => ?_) clock
          show ev' ∈ sch.events w.sim.events ∧
            Function.update n.calls ev.impl .other ev'.impl = event ↔ _
          rw [perm.mem_iff, List.mem_cons]
          constructor
          · rintro ⟨rfl | pending, calls⟩
            · rw [Function.update_self] at calls
              exact absurd calls.symm link
            · have below := (linked.good.named ev' (linked.good.pending_made pending)).2
              rw [Function.update_of_ne (by omega)] at calls
              exact ⟨pending, calls⟩
          · rintro ⟨pending, calls⟩
            have below := (linked.good.named ev' (linked.good.pending_made pending)).2
            rw [Function.update_of_ne (by omega)]
            exact ⟨.inr pending, calls⟩
      | @left ev perm clock =>
          refine moved (fun event ev' link => ?_) clock
          have here : ev ∈ sch.events n.sim.sim.events := perm.mem_iff.mpr List.mem_cons_self
          have mine := foreign ev (linked.good.pending_made here) (.inr rfl)
          show ev' ∈ sch.events w.sim.events ∧ n.calls ev'.impl = event ↔ _
          constructor
          · exact fun both => ⟨perm.mem_iff.mpr (List.mem_cons_of_mem _ both.1), both.2⟩
          · rintro ⟨pending, calls⟩
            refine ⟨(List.mem_cons.mp (perm.mem_iff.mp pending)).resolve_left fun same => link ?_,
              calls⟩
            rw [← calls, same, mine]
      | handled => exact absurd rfl running
      | quiet _ silent same clock =>
          have still : n.register .other happened = n.calls := by
            cases happened with
            | queued ev => exact absurd silent.2 (by simp [Happened.isQueued])
            | _ => rfl
          refine moved (fun event ev' link => ?_) clock
          show ev' ∈ sch.events w.sim.events ∧ n.register .other happened ev'.impl = event ↔ _
          rw [same, still]
          rfl

theorem Linked.down (linked : Linked sch cfg inv n wire) (port : Nat) :
    Linked sch cfg inv { n with linkUp := Function.update n.linkUp port false } wire :=
  linked.moved linked.good (Nat.le_refl _) (fun _ _ _ => Iff.rfl) linked.kept rfl

theorem init_linked (correct : sch.Correct inv fun _ _ => True) :
    Linked sch cfg inv (init sch) fun _ => [] := by
  have nothing : ∀ event ev, ¬ Awaits sch (init sch : Ports State Frame) event ev := by
    intro event ev awaits
    have none : sch.events (init sch : Ports State Frame).sim.sim.events = [] := correct.empty.2
    have pending := awaits.1
    rw [none] at pending
    exact absurd pending (by simp)
  exact ⟨Watched.init_good correct, fun event ev _ awaits => absurd awaits (nothing event ev),
    fun _ sending => absurd sending Bool.false_ne_true,
    fun port _ => ⟨nothing _, fun e member => absurd member (by simp), fun s member =>
      absurd member (by simp [init])⟩, fun port e member => absurd member (by simp),
    fun p frame ev awaits => absurd awaits (nothing _ ev), fun _ => .nil, fun _ => ⟨[], rfl, rfl⟩,
    fun _ => .nil⟩

/-- Every legal call is served, but for a delay that `Schedule` refuses to the rest. -/
theorem Linked.step (linked : Linked sch cfg inv n wire)
    (correct : sch.Correct inv fun _ _ => True) (call : PortCall Frame)
    (legal : n.Legal sch cfg call) :
    Holds (fun _ => ∃ request, call = .other request ∧ n.sim.Refused request)
      (fun after => ∃ wire, Linked sch cfg inv after wire) (n.call sch cfg call) := by
  cases call with
  | processOneEvent choice =>
      obtain ⟨after, wire, success, kept⟩ := linked.processed correct choice legal
      rw [success]
      exact ⟨wire, kept⟩
  | dequeueAndTransmit port choice =>
      obtain ⟨after, wire, success, kept⟩ := linked.dequeued correct legal port choice
      show Holds _ _ (n.dequeueAndTransmit sch cfg port choice)
      rw [success]
      exact ⟨wire, kept⟩
  | takeDown port => exact ⟨wire, linked.down port⟩
  | other request =>
      exact ((linked.others correct legal).weaken fun _ refused => ⟨request, rfl, refused⟩).mono
        fun after _ kept => ⟨wire, kept⟩

theorem run_linked (correct : sch.Correct inv fun _ _ => True) {calls : List (PortCall Frame)}
    {finish : Ports State Frame} (run : Run (Step sch cfg) (init sch) calls finish) :
    ∃ wire, Linked sch cfg inv finish wire := by
  refine run.invariant (fun n => ∃ wire, Linked sch cfg inv n wire) ⟨_, init_linked correct⟩ ?_
  rintro middle call after ⟨wire, linked⟩ ⟨legal, success⟩
  exact (linked.step correct call legal).of_ok success

/-- No port starts to send while it is busy, and none ends when it is not; no call of the simulator
fails either, but for the delays that it refuses to the rest. -/
theorem ports_served (correct : sch.Correct inv fun _ _ => True) {calls : List (PortCall Frame)}
    {finish : Ports State Frame} (run : Run (Step sch cfg) (init sch) calls finish)
    (call : PortCall Frame) (legal : finish.Legal sch cfg call) (failure : PortFailure)
    (failed : finish.call sch cfg call = .error failure) :
    ∃ request, call = .other request ∧ finish.sim.Refused request := by
  obtain ⟨wire, linked⟩ := run_linked correct run
  exact (linked.step correct call legal).of_error failed

/-- The frames that a port sends arrive at its peer once each and in their order, exactly after
their time on the port and the delay of the channel, or are still on the way; and the port leaves
them the time that they take. -/
theorem frames_in_order (correct : sch.Correct inv fun _ _ => True) {calls : List (PortCall Frame)}
    {finish : Ports State Frame} (run : Run (Step sch cfg) (init sch) calls finish) (port : Nat) :
    ∃ before onWire, finish.sent port = before ++ onWire ∧
      (finish.arrived (cfg.peer port)).map (fun a => (a.1, a.2.1)) =
        before.map (fun s => (s.1, s.2 + cfg.txTime port s.1 + cfg.delay port)) ∧
      (∀ s ∈ onWire, finish.now ≤ s.2 + cfg.txTime port s.1 + cfg.delay port) ∧
      (sch.events finish.sim.sim.events = [] → onWire = []) ∧
      (finish.sent port).Pairwise fun first second =>
        first.2 + cfg.txTime port first.1 + cfg.gap port ≤ second.2 := by
  obtain ⟨wire, linked⟩ := run_linked correct run
  obtain ⟨before, whole, told⟩ := linked.flows port
  refine ⟨before, (wire port).map Prod.snd, whole, told, fun s member => ?_, fun none => ?_,
    linked.spaced port⟩
  · obtain ⟨e, there, rfl⟩ := List.mem_map.mp member
    obtain ⟨awaits, time⟩ := linked.wired port e there
    rw [← time]
    rcases Prod.Lex.lt_iff.mp (linked.good.later e.1 awaits.1) with before | ⟨same, -⟩
    · exact Nat.le_of_lt before
    · exact Nat.le_of_eq same
  · cases on : wire port with
    | nil => rfl
    | cons first rest =>
        have pending := (linked.wired port first (by rw [on]; simp)).1.1
        rw [none] at pending
        exact absurd pending (by simp)

/-- Two ports at the ends of one link; a frame is its time on the port. -/
def twoPorts : LinkConfig (Fin 100) where
  peer := Equiv.swap 0 1
  node p := p
  txTime _ frame := frame
  gap _ := 0
  delay _ := 3
  longest := 103
  two_ends _ _ same := (Equiv.swap 0 1).injective same
  gap_longest _ frame := by omega
  delay_longest _ frame := by omega

/-- The second frame waits for the end of the first one. -/
def twoFrames : List (PortCall (Fin 100)) :=
  [.dequeueAndTransmit 0 (some 5), .dequeueAndTransmit 0 (some 7), .processOneEvent (some 7),
    .processOneEvent none]

def afterTwo : Ports (List Event) (Fin 100) :=
  twoFrames.foldl (next mapScheduler twoPorts) (init mapScheduler)

theorem afterTwo_evaluated :
    executes (fun n call => takes mapScheduler twoPorts n call) (next mapScheduler twoPorts)
        (init mapScheduler) twoFrames = true ∧
      afterTwo.Legal mapScheduler twoPorts (.other (.schedule (-1))) ∧
      afterTwo.sent 0 = [(5, 0), (7, 5)] ∧ afterTwo.arrived 1 = [(5, 8, true)] := by
  decide +kernel

theorem twoFrames_run : Run (Step mapScheduler twoPorts) (init mapScheduler) twoFrames afterTwo :=
  Run.executed (fun n call => step_next mapScheduler twoPorts n call) twoFrames afterTwo_evaluated.1

theorem frames_in_order_two :
    ∃ before onWire, [((5 : Fin 100), 0), (7, 5)] = before ++ onWire ∧
      [((5 : Fin 100), 8)] = before.map (fun s => (s.1, s.2 + s.1.val + 3)) := by
  obtain ⟨before, onWire, sent, arrived, -⟩ := frames_in_order mapScheduler_correct twoFrames_run 0
  rw [afterTwo_evaluated.2.2.1] at sent
  rw [show twoPorts.peer 0 = 1 from rfl, afterTwo_evaluated.2.2.2] at arrived
  exact ⟨before, onWire, sent, arrived⟩

theorem ports_served_two :
    ∃ request, (PortCall.other (.schedule (-1)) : PortCall (Fin 100)) = .other request ∧
      afterTwo.sim.Refused request :=
  ports_served mapScheduler_correct twoFrames_run (.other (.schedule (-1))) afterTwo_evaluated.2.1
    (.simulator .notBack) rfl

end Ports

end Floodgate
