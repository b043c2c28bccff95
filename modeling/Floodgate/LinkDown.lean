import Floodgate.PfcLink
import Floodgate.QueueTotals

/-! Taking a link down: the loop that discards what is queued on the port, and what the rest of the
switch is left with. -/

namespace Floodgate

open Std Outcome LabelledRun

namespace BEgressQueue

/-- The loop of `TakeDown`, with a bound on its rounds: what it discards and the queues. -/
def discardAll (c : DeviceConfig) (paused : Nat → Bool) :
    Nat → BEgressQueue → List (Packet × Nat) × BEgressQueue
  | 0, e => ([], e)
  | rounds + 1, e =>
      match e.dequeueRR c paused with
      | none => ([], e)
      | some (p, qIndex, after) =>
          let rest := discardAll c paused rounds after
          ((p, qIndex) :: rest.1, rest.2)

def nPackets (e : BEgressQueue) : Nat := e.sumBy fun _ _ => 1

inductive Discards (c : DeviceConfig) (paused : Nat → Bool) :
    BEgressQueue → List (Packet × Nat) → BEgressQueue → Prop
  | stop {e : BEgressQueue} (idle : e.dequeueRR c paused = none) : Discards c paused e [] e
  | next {e middle after : BEgressQueue} {p : Packet} {qIndex : Nat}
      {discarded : List (Packet × Nat)} (served : e.dequeueRR c paused = some (p, qIndex, middle))
      (rest : Discards c paused middle discarded after) :
      Discards c paused e ((p, qIndex) :: discarded) after

section Discards

variable {c : DeviceConfig} {paused : Nat → Bool} {e after : BEgressQueue}
  {discarded : List (Packet × Nat)}

/-- With a round for every packet the loop ends by itself. -/
theorem discardAll_discards (rounds : Nat) (e : BEgressQueue) (enough : e.nPackets ≤ rounds) :
    Discards c paused e (e.discardAll c paused rounds).1 (e.discardAll c paused rounds).2 := by
  induction rounds generalizing e with
  | zero =>
      refine .stop ?_
      cases served : e.dequeueRR c paused with
      | none => rfl
      | some head =>
          obtain ⟨p, qIndex, middle⟩ := head
          have count := (dequeueRR_dequeues served).sumBy fun _ _ => 1
          unfold nPackets at enough
          omega
  | succ rounds ih =>
      unfold discardAll
      cases served : e.dequeueRR c paused with
      | none => exact .stop served
      | some head =>
          obtain ⟨p, qIndex, middle⟩ := head
          have count := (dequeueRR_dequeues served).sumBy fun _ _ => 1
          refine .next served (ih middle ?_)
          unfold nPackets at enough ⊢
          omega

theorem Discards.totalled (discards : Discards c paused e discarded after)
    (totalled : Totalled e) : Totalled after := by
  induction discards with
  | stop => exact totalled
  | next served _ ih =>
      exact ih (totalled.dequeued (dequeueRR_dequeues served) (dequeueRR_total served))

theorem Discards.dropped (discards : Discards c paused e discarded after) :
    after.dropped = e.dropped := by
  induction discards with
  | stop => rfl
  | next served _ ih => exact ih.trans (dequeueRR_dequeues served).dropped

theorem Discards.idle (discards : Discards c paused e discarded after) :
    after.dequeueRR c paused = none := by
  induction discards with
  | stop idle => exact idle
  | next _ _ ih => exact ih

theorem Discards.member (discards : Discards c paused e discarded after) (p : Packet)
    (qIndex : Nat) : p ∈ e.queues qIndex ↔ (p, qIndex) ∈ discarded ∨ p ∈ after.queues qIndex := by
  induction discards with
  | stop => simp
  | @next e middle after head q discarded served _ ih =>
      have dequeues := dequeueRR_dequeues served
      rw [List.mem_cons, or_assoc, ← ih, Prod.mk.injEq]
      by_cases here : qIndex = q
      · subst here
        rw [dequeues.head, List.mem_cons]
        simp
      · rw [dequeues.others qIndex here]
        simp [here]

/-- A port that serves nothing although its byte count is right has an empty queue 0. -/
theorem idle_highest (totalled : Totalled e) (small : e.bytes < Word32.size)
    (idle : e.dequeueRR c paused = none) : e.queues 0 = [] := by
  unfold dequeueRR at idle
  split at idle
  · rename_i zero
    exact totalled.empty small zero 0
  · by_contra waiting
    unfold nextQueue at idle
    simp only [ne_eq, waiting, not_false_eq_true, if_true] at idle
    split at idle
    · rename_i none
      exact waiting none
    · contradiction

end Discards

end BEgressQueue

/-- The part of `TakeDown` for a switch: only the first entries of `m_paused` are reset. -/
def QbbNetDevice.takeDown (c : DeviceConfig) (d : QbbNetDevice) :
    List (Packet × Nat) × QbbNetDevice :=
  let paused := fun i => if i < qCnt then false else d.paused i
  let emptied := d.queue.discardAll c paused d.queue.nPackets
  (emptied.1, ⟨emptied.2, paused⟩)

namespace SwitchNode

/-- `TakeDown` of a port: the packets it discards and the switch, which is not told. -/
def takeDown (c : SwitchNodeConfig) (s : SwitchNode) (dev : Nat) :
    List (Packet × Nat) × SwitchNode :=
  let down := (s.device dev).takeDown (c.device dev)
  (down.1, s.setDevice dev down.2)

section TakeDown

variable {c : SwitchNodeConfig} {s : SwitchNode} {dev : Nat}

theorem takeDown_discards (c : SwitchNodeConfig) (s : SwitchNode) (dev : Nat) :
    (s.device dev).queue.Discards (c.device dev)
      (fun i => if i < qCnt then false else (s.device dev).paused i) (s.takeDown c dev).1
      ((s.takeDown c dev).2.device dev).queue := by
  have discards := @BEgressQueue.discardAll_discards (c.device dev)
    (fun i => if i < qCnt then false else (s.device dev).paused i)
    (s.device dev).queue.nPackets (s.device dev).queue (Nat.le_refl _)
  simpa [takeDown, QbbNetDevice.takeDown, setDevice] using discards

theorem takeDown_other (i : Nat) (other : i ≠ dev) :
    (s.takeDown c dev).2.device i = s.device i := by
  simp [takeDown, setDevice, other]

theorem takeDown_residentBy (port : dev < c.nDevices) (weight : PacketUnit → Nat) :
    (s.takeDown c dev).2.residentBy c weight +
        ((s.takeDown c dev).1.map fun entry => weight (entry.1.toUnit dev entry.2)).sum =
      s.residentBy c weight := by
  have loop : ∀ {paused : Nat → Bool} {e after : BEgressQueue} {discarded : List (Packet × Nat)},
      e.Discards (c.device dev) paused discarded after → ∀ s : SwitchNode,
      (s.device dev).queue = e → (s.taken dev after).residentBy c weight +
        (discarded.map fun entry => weight (entry.1.toUnit dev entry.2)).sum =
          s.residentBy c weight := by
    intro paused e after discarded discards
    induction discards with
    | @stop e idle =>
        intro s same
        have unchanged : s.taken dev e = s := by
          unfold taken setDevice
          congr 1
          funext i
          split
          · rename_i here
            rw [here, ← same]
          · rfl
        simp [unchanged]
    | @next e middle after p qIndex discarded served rest ih =>
        intro s same
        have leaves := @taken_residentBy c s dev qIndex middle p
          (same ▸ BEgressQueue.dequeueRR_dequeues served) port weight
        have later := ih (s.taken dev middle) (by simp [taken, setDevice])
        have again : (s.taken dev middle).taken dev after = s.taken dev after := by
          unfold taken setDevice
          congr 1
          funext i
          by_cases here : i = dev
          · simp [here]
          · simp [here]
        rw [again] at later
        simp only [List.map_cons, List.sum_cons]
        omega
  have down := loop (takeDown_discards c s dev) s rfl
  have queues : (s.takeDown c dev).2.residentBy c weight =
      (s.taken dev ((s.takeDown c dev).2.device dev).queue).residentBy c weight := by
    have cells : (s.takeDown c dev).2.queues =
        (s.taken dev ((s.takeDown c dev).2.device dev).queue).queues := by
      funext i q
      by_cases here : i = dev
      · subst here
        simp [queues, taken, setDevice]
      · simp [queues, taken, setDevice, here, takeDown_other i here]
    have upstream : (s.takeDown c dev).2.upstream = s.upstream := rfl
    simp only [residentBy, queuedBy, cellBy, cells, upstream]
    rfl
  rw [queues]
  exact down

end TakeDown

def Inside (s : SwitchNode) (p : Packet) : Prop :=
  (∃ unit, s.Buffered unit ∧ unit.pkt = p) ∨ ∃ dev qIndex, p ∈ s.queues dev qIndex

def InsideOff (s : SwitchNode) (dev : Nat) (p : Packet) : Prop :=
  (∃ unit, s.Buffered unit ∧ unit.pkt = p) ∨ ∃ i qIndex, i ≠ dev ∧ p ∈ s.queues i qIndex

instance (c : SwitchNodeConfig) (p : Packet) : Decidable (Credited c p) :=
  inferInstanceAs (Decidable (_ ∧ _ ∧ ¬ (_ ∧ _)))

def upstreamRow (c : SwitchNodeConfig) (p : Packet) : Nat := c.creditRow (p.flowId.getD 0) p.sip

/-- The bytes for `dst` that the upstream of `row` has spent window on. -/
def lostBytes (c : SwitchNodeConfig) (discarded : List (Packet × Nat)) (row dst : Nat) : Nat :=
  (discarded.map fun entry =>
    if Credited c entry.1 ∧ upstreamRow c entry.1 = row ∧ entry.1.dip = dst then entry.1.size
    else 0).sum

/-- With absolute PSNs, the PSN of `p` has been passed, or a packet that is still inside passes it
when it leaves. -/
def Recoverable (c : SwitchNodeConfig) (d : Downstream) (inside : Packet → Prop) (p : Packet) :
    Prop :=
  c.settings.switchAbsolutePsn = true ∧ ∃ n, p.ingressPsn = some n ∧
    (n ≤ d.nxtAckPsn (upstreamRow c p) p.dip ∨
      ∃ later m, inside later ∧ Credited c later ∧ upstreamRow c later = upstreamRow c p ∧
        later.dip = p.dip ∧ later.ingressPsn = some m ∧ n ≤ m)

/-- The credit of an upstream counts the bytes for `dst` that have been discarded. -/
def CreditReturned (c : SwitchNodeConfig) (before after : Downstream) (discarded : List (Packet × Nat))
    (row dst : Nat) : Prop :=
  c.settings.switchAbsolutePsn = false ∧
    after.credit row dst = Word32.trunc (before.credit row dst + lostBytes c discarded row dst)

/-- The switch after `TakeDown` of `dev` is consistent: the buffer's counters are the bytes that are
still resident, every pause has bytes behind it, nothing is left on the port, and the windows of what was
discarded come back. -/
structure TakenDown (c : SwitchNodeConfig) (before after : SwitchNode) (dev : Nat)
    (discarded : List (Packet × Nat)) : Prop where
  counters : Laws c after.admission after
  pauses : Grounded c after
  empty : ∀ qIndex, after.queues dev qIndex = []
  windows : ∀ p qIndex, (p, qIndex) ∈ discarded → Credited c p →
    c.settings.switchAckMode ≠ .hostPerPacketAck ∧
      (CreditReturned c before.downstream after.downstream discarded (upstreamRow c p) p.dip ∨
        Recoverable c after.downstream after.Inside p)

/-- Only the highest priority is queued on `dev`, and no data whose window would be lost. -/
structure Idle (c : SwitchNodeConfig) (s : SwitchNode) (dev : Nat) : Prop where
  control : ∀ qIndex, qIndex ≠ 0 → s.queues dev qIndex = []
  windows : ∀ p ∈ s.queues dev 0, Credited c p →
    c.settings.switchAckMode ≠ .hostPerPacketAck ∧
      Recoverable c s.downstream (s.InsideOff dev) p

section Exact

variable {c : SwitchNodeConfig} {s : SwitchNode} {dev : Nat}

theorem takeDown_same : (s.takeDown c dev).2.admission = s.admission ∧
    (s.takeDown c dev).2.upstream = s.upstream ∧ (s.takeDown c dev).2.downstream = s.downstream :=
  ⟨rfl, rfl, rfl⟩

theorem takeDown_member (p : Packet) (qIndex : Nat) : p ∈ s.queues dev qIndex ↔
    (p, qIndex) ∈ (s.takeDown c dev).1 ∨ p ∈ (s.takeDown c dev).2.queues dev qIndex :=
  (takeDown_discards c s dev).member p qIndex

theorem takeDown_inside (empty : ∀ qIndex, (s.takeDown c dev).2.queues dev qIndex = [])
    (p : Packet) : (s.takeDown c dev).2.Inside p ↔ s.InsideOff dev p := by
  apply or_congr
  · exact Iff.rfl
  · constructor
    · rintro ⟨i, qIndex, member⟩
      have other : i ≠ dev := by
        rintro rfl
        rw [empty] at member
        contradiction
      have same : (s.takeDown c dev).2.queues i qIndex = s.queues i qIndex := by
        simp only [queues, takeDown_other i other]
      exact ⟨i, qIndex, other, same ▸ member⟩
    · rintro ⟨i, qIndex, other, member⟩
      have same : (s.takeDown c dev).2.queues i qIndex = s.queues i qIndex := by
        simp only [queues, takeDown_other i other]
      exact ⟨i, qIndex, same.symm ▸ member⟩

theorem Recoverable.congr {d : Downstream} {first second : Packet → Prop} {p : Packet}
    (same : ∀ other, first other ↔ second other) :
    Recoverable c d first p ↔ Recoverable c d second p := by
  simp only [Recoverable, same]

theorem queue_bytes_le (port : dev < c.nDevices) :
    (s.device dev).queue.bytes ≤ s.residentBy c fun unit => unit.pkt.size := by
  have row : ∑ i ∈ Finset.range c.nDevices, (s.device i).queue.bytes =
      s.queuedBy c fun unit => unit.pkt.size := by
    rw [queuedBy, Finset.sum_product]
    rfl
  have single : (s.device dev).queue.bytes ≤
      ∑ i ∈ Finset.range c.nDevices, (s.device i).queue.bytes :=
    Finset.single_le_sum (f := fun i => (s.device i).queue.bytes) (fun _ _ => Nat.zero_le _)
      (Finset.mem_range.mpr port)
  unfold residentBy
  omega

theorem Idle.takenDown (idle : Idle c s dev) (port : dev < c.nDevices) (accounts : Accounts c s)
    (grounded : Grounded c s) (totalled : (s.device dev).queue.Totalled) :
    TakenDown c s (s.takeDown c dev).2 dev (s.takeDown c dev).1 := by
  have discards := takeDown_discards c s dev
  have highest : ∀ p qIndex, (p, qIndex) ∈ (s.takeDown c dev).1 → qIndex = 0 := by
    intro p qIndex member
    by_contra other
    have queued := (takeDown_member p qIndex).mpr (.inl member)
    rw [idle.control qIndex other] at queued
    contradiction
  have resident : ∀ weight : PacketUnit → Nat, (∀ unit, unit.qIndex = 0 → weight unit = 0) →
      (s.takeDown c dev).2.residentBy c weight = s.residentBy c weight := by
    intro weight blind
    have total := takeDown_residentBy (c := c) (s := s) port weight
    have none : ((s.takeDown c dev).1.map fun entry =>
        weight (entry.1.toUnit dev entry.2)).sum = 0 := by
      apply List.sum_eq_zero
      intro value member
      obtain ⟨⟨p, qIndex⟩, inside, rfl⟩ := List.mem_map.mp member
      exact blind _ (highest p qIndex inside)
    omega
  have empty : ∀ qIndex, (s.takeDown c dev).2.queues dev qIndex = [] := by
    intro qIndex
    by_cases zero : qIndex = 0
    · subst zero
      refine BEgressQueue.idle_highest (discards.totalled totalled) ?_ discards.idle
      have less := takeDown_residentBy (c := c) (s := s) port fun unit => unit.pkt.size
      have bound := @queue_bytes_le c (s.takeDown c dev).2 dev port
      have fits := accounts.within.bytes
      omega
    · apply List.eq_nil_iff_forall_not_mem.mpr
      intro p member
      have queued := (takeDown_member (c := c) p qIndex).mpr (.inr member)
      rw [idle.control qIndex zero] at queued
      contradiction
  refine ⟨?_, ?_, empty, fun p qIndex member credited => ?_⟩
  · exact accounts.laws.congr ⟨rfl, rfl, rfl, rfl⟩ fun weight _ blind => resident weight blind
  · exact grounded.same rfl fun row cls =>
      resident _ fun unit zero => if_neg fun inside => inside.1 zero
  · have queued := (takeDown_member p qIndex).mpr (.inl member)
    rw [highest p qIndex member] at queued
    obtain ⟨mode, recoverable⟩ := idle.windows p queued credited
    exact ⟨mode, .inr ((Recoverable.congr (takeDown_inside empty)).mpr recoverable)⟩

theorem TakenDown.idle (port : dev < c.nDevices) (accounts : Accounts c s)
    (down : TakenDown c s (s.takeDown c dev).2 dev (s.takeDown c dev).1) : Idle c s dev := by
  have discarded : ∀ p qIndex, p ∈ s.queues dev qIndex → (p, qIndex) ∈ (s.takeDown c dev).1 := by
    intro p qIndex member
    rcases (takeDown_member p qIndex).mp member with out | left
    · exact out
    · rw [down.empty] at left
      contradiction
  constructor
  · intro qIndex other
    apply List.eq_nil_iff_forall_not_mem.mpr
    intro p member
    have before := accounts.laws.egress dev qIndex
    have after := down.counters.egress dev qIndex
    have total := takeDown_residentBy (c := c) (s := s) port (towards dev qIndex)
    have counted : towards dev qIndex (p.toUnit dev qIndex) = p.size := if_pos ⟨other, rfl, rfl⟩
    have part : towards dev qIndex (p.toUnit dev qIndex) ≤ ((s.takeDown c dev).1.map fun entry =>
        towards dev qIndex (entry.1.toUnit dev entry.2)).sum :=
      List.le_sum_of_mem (List.mem_map.mpr ⟨(p, qIndex), discarded p qIndex member, rfl⟩)
    have positive := p.size_pos
    rw [takeDown_same.1] at after
    omega
  · intro p member credited
    obtain ⟨mode, returned | recoverable⟩ := down.windows p 0 (discarded p 0 member) credited
    · obtain ⟨_, credit⟩ := returned
      rw [takeDown_same.2.2] at credit
      have part : p.size ≤ lostBytes c (s.takeDown c dev).1 (upstreamRow c p) p.dip := by
        refine List.le_sum_of_mem (List.mem_map.mpr ⟨(p, 0), discarded p 0 member, ?_⟩)
        exact if_pos ⟨credited, rfl, rfl⟩
      have all : lostBytes c (s.takeDown c dev).1 (upstreamRow c p) p.dip ≤
          ((s.takeDown c dev).1.map fun entry => entry.1.size).sum := by
        apply List.sum_le_sum
        intro entry _
        split
        · exact Nat.le_refl _
        · exact Nat.zero_le _
      have total := takeDown_residentBy (c := c) (s := s) port fun unit => unit.pkt.size
      have fits := accounts.within.bytes
      have positive := p.size_pos
      simp only [Packet.toUnit] at total
      unfold Word32.trunc Word32.size at *
      omega
    · exact ⟨mode, (Recoverable.congr (takeDown_inside down.empty)).mp recoverable⟩

end Exact

end SwitchNode

/-- A switch with `m_linkUp` of its ports. -/
structure LinkedSwitch where
  node : SwitchNode
  linkUp : Nat → Bool

inductive LinkedEvent where
  | work (event : NodeEvent)
  | takeDown (dev : Nat)

/-- A port whose link is down drops what it receives and sends nothing. -/
def NodeEvent.Permitted (linkUp : Nat → Bool) : NodeEvent → Prop
  | .receive inDev _ _ => linkUp inDev = true
  | .transmit ifIndex => linkUp ifIndex = true
  | _ => True

namespace LinkedSwitch

def init (c : SwitchNodeConfig) : LinkedSwitch := ⟨SwitchNode.init c, fun _ => true⟩

def takeDown (c : SwitchNodeConfig) (s : LinkedSwitch) (dev : Nat) : LinkedSwitch :=
  ⟨(s.node.takeDown c dev).2, fun i => if i = dev then false else s.linkUp i⟩

inductive Step (c : SwitchNodeConfig) (s : LinkedSwitch) : LinkedEvent → LinkedSwitch → Prop
  | work {event : NodeEvent} {out : Option Packet} {after : SwitchNode}
      (permitted : event.Permitted s.linkUp) (step : s.node.Step c (event, out) after) :
      Step c s (.work event) ⟨after, s.linkUp⟩
  | takeDown {dev : Nat} (port : dev < c.nDevices) : Step c s (.takeDown dev) (s.takeDown c dev)

/-- The port of a `TakeDown` is idle, and otherwise nothing is refused and the bytes in the switch
fit 32 bits. -/
def Spared (c : SwitchNodeConfig) (s : LinkedSwitch) (event : LinkedEvent) (after : LinkedSwitch) :
    Prop :=
  match event with
  | .work _ => SwitchNode.Within c after.node
  | .takeDown dev => SwitchNode.Idle c s.node dev

def SparedStep (c : SwitchNodeConfig) (s : LinkedSwitch) (event : LinkedEvent)
    (after : LinkedSwitch) : Prop :=
  Step c s event after ∧ Spared c s event after

structure Sound (c : SwitchNodeConfig) (s : SwitchNode) : Prop where
  accounts : SwitchNode.Accounts c s
  grounded : SwitchNode.Grounded c s
  totalled : SwitchNode.Kept (fun _ e => e.Totalled) s

section Runs

variable {c : SwitchNodeConfig} {s after : LinkedSwitch}

theorem Sound.init (c : SwitchNodeConfig) : Sound c (SwitchNode.init c) :=
  ⟨SwitchNode.Accounts.init c, fun _ _ paused => absurd paused Bool.false_ne_true,
    fun _ => BEgressQueue.Totalled.init⟩

theorem Sound.worked {node later : SwitchNode} (sound : Sound c node)
    {label : NodeEvent × Option Packet} (step : SwitchNode.BoundedStep c node label later) :
    Sound c later := by
  refine ⟨SwitchNode.handle_accounts sound.accounts step,
    SwitchNode.handle_grounded sound.accounts sound.grounded step,
    sound.totalled.handled (BEgressQueue.totalled_invariant c) ?_ step.1⟩
  rintro unit ⟨voq, member⟩
  rcases SwitchNode.misplaced_zero (sound.accounts.unit_placed member) with control | place
  · rw [control.1]
    decide
  · exact place.2.1

theorem Sound.down {node : SwitchNode} (sound : Sound c node) {dev : Nat} (port : dev < c.nDevices)
    (idle : node.Idle c dev) : Sound c (node.takeDown c dev).2 := by
  have discards := SwitchNode.takeDown_discards c node dev
  have down := idle.takenDown port sound.accounts sound.grounded (sound.totalled dev)
  have fewer : ∀ weight, (node.takeDown c dev).2.residentBy c weight ≤ node.residentBy c weight := by
    intro weight
    have total := SwitchNode.takeDown_residentBy (c := c) (s := node) port weight
    omega
  refine ⟨⟨down.counters, sound.accounts.consistent, sound.accounts.data, ?_, ?_, ?_⟩, down.pauses,
    ?_⟩
  · have placed := sound.accounts.placed
    have less := fewer (SwitchNode.misplaced c)
    omega
  · intro i
    by_cases here : i = dev
    · subst here
      exact discards.dropped.trans (sound.accounts.within.noDrops i)
    · rw [SwitchNode.takeDown_other i here]
      exact sound.accounts.within.noDrops i
  · exact Nat.lt_of_le_of_lt (fewer _) sound.accounts.within.bytes
  · intro i
    by_cases here : i = dev
    · subst here
      exact discards.totalled (sound.totalled i)
    · rw [SwitchNode.takeDown_other i here]
      exact sound.totalled i

theorem Sound.run {events : List LinkedEvent}
    (run : Run (SparedStep c) (LinkedSwitch.init c) events s) :
    Sound c s.node := by
  apply run.invariant (fun s => Sound c s.node) (Sound.init c)
  rintro before event later sound ⟨step, spared⟩
  cases step with
  | work _ step => exact sound.worked ⟨step, spared⟩
  | takeDown port => exact sound.down port spared

/-- After every run whose steps are all spared: taking a port down leaves the switch consistent
exactly when the port is idle. -/
theorem link_down_consistent (c : SwitchNodeConfig) (events : List LinkedEvent) (s : LinkedSwitch)
    (run : Run (SparedStep c) (init c) events s) (dev : Nat) (port : dev < c.nDevices) :
    SwitchNode.TakenDown c s.node (s.takeDown c dev).node dev (s.node.takeDown c dev).1 ↔
      s.node.Idle c dev := by
  have sound := Sound.run run
  exact ⟨fun down => down.idle port sound.accounts,
    fun idle => idle.takenDown port sound.accounts sound.grounded (sound.totalled dev)⟩

end Runs

section Examples

open SwitchNode

theorem kilo_run : Run (SparedStep plainSwitch) (init plainSwitch)
    [.work (.receive 1 (some 2) kiloPacket)]
    ⟨afterOne (kiloPacket.setFlowId (some 1)), fun _ => true⟩ :=
  Run.single ⟨.work rfl kilo_step.1, kilo_step.2⟩

/-- A data packet that is discarded stays in the counters of the switch. -/
theorem link_down_inconsistent :
    ¬ ∀ (c : SwitchNodeConfig) (events : List LinkedEvent) (s : LinkedSwitch),
      Run (Step c) (init c) events s → ∀ dev < c.nDevices,
        TakenDown c s.node (s.takeDown c dev).node dev (s.node.takeDown c dev).1 := by
  intro claim
  have down := claim plainSwitch _ _ (kilo_run.mono fun _ _ _ step => step.1) 2 (by decide)
  have idle := down.idle (by decide) (Sound.run kilo_run).accounts
  have queued : ((afterOne (kiloPacket.setFlowId (some 1))).queues 2 3).length = 1 := by
    decide +kernel
  rw [idle.control 3 (by decide)] at queued
  contradiction

theorem cnp_idle : (afterOne (cnpPacket.setFlowId (some 1))).Idle plainSwitch 2 := by
  constructor
  · intro qIndex other
    have send := switchSend_taken plainSwitch (SwitchNode.init plainSwitch) 2 0
      (cnpPacket.setFlowId (some 1))
    obtain ⟨taken, -, -, queues⟩ := send
    have here : (afterOne (cnpPacket.setFlowId (some 1))).queues = _ := queues
    rw [here, setCell_other _ _ _ _ _ _ fun same => other same.2]
    rfl
  · intro p member credited
    exact absurd credited.1 (by decide)

/-- A congestion notification that is discarded leaves nothing behind. -/
theorem link_down_consistent_cnp :
    TakenDown plainSwitch (afterOne (cnpPacket.setFlowId (some 1)))
      ((afterOne (cnpPacket.setFlowId (some 1))).takeDown plainSwitch 2).2 2
      ((afterOne (cnpPacket.setFlowId (some 1))).takeDown plainSwitch 2).1 :=
  (link_down_consistent plainSwitch [.work (.receive 1 (some 2) cnpPacket)]
    ⟨afterOne (cnpPacket.setFlowId (some 1)), fun _ => true⟩
    (Run.single ⟨.work rfl cnp_step.1, cnp_step.2⟩) 2 (by decide)).mpr cnp_idle

end Examples

end LinkedSwitch

end Floodgate
