import Floodgate.AckGeneration
import Floodgate.MessageFlow
import Floodgate.WindowBalance

/-! Windows that the ACKs of the receivers restore: hosts, with switches between them that an ACK
visits in the opposite order to the data packet it answers. -/

namespace Floodgate

open Outcome LabelledRun Upstream

structure FabricConfig where
  rdma : RdmaSettings
  settings : Settings
  node : Nat → UpstreamConfig
  shared : ∀ i, (node i).settings = settings

structure Hop where
  switch : Nat
  outDev : Nat
  qIndex : Nat

/-- A data packet on its way: what the hosts read of it, what the switches read of it, the switches
that it has left, the last one first, and those to come. -/
structure Traveller where
  sender : Nat
  packet : DataPacket
  pkt : Packet
  isData : pkt.isUdp = true
  passed : List Hop
  ahead : List Hop

/-- An ACK or NACK with its `SwitchACKTag` and the switches to come. -/
structure HostAck where
  sender : Nat
  ack : AckPacket
  size : Nat
  sip : Nat
  back : List Hop

/-- The host of a receiver and its key in the `m_rxQpMap` there. -/
structure RxKey where
  host : Nat
  sip : Nat
  pg : Nat
  sport : Nat
  deriving DecidableEq

namespace Traveller

def rxKey (t : Traveller) : RxKey := ⟨t.pkt.dip, t.pkt.sip, t.pkt.pg, t.packet.sport⟩

def unitAt (t : Traveller) (hop : Hop) : PacketUnit := ⟨t.pkt, t.pkt.dip, hop.outDev, hop.qIndex⟩

def answered (t : Traveller) (a : AckPacket) : HostAck :=
  ⟨t.sender, a, t.pkt.size, t.pkt.dip, t.passed⟩

end Traveller

/-- The hosts, the switches, the data packets on links and those held in switches, and the
acknowledgements. -/
structure Fabric where
  now : Nat
  qp : Nat → RdmaQueuePair
  rx : RxKey → RdmaRxQueuePair
  switches : Nat → Upstream
  wire : List Traveller
  held : List Traveller
  acks : List HostAck

inductive FabricEvent where
  | add (sender id : Nat) (request : MessageRequest)
  | send (t : Traveller)
  | arrive (t : Traveller)
  | receive (t : Traveller)
  | restore (a : HostAck)
  | acknowledge (a : HostAck)
  | timeout (sender : Nat)
  | pace (sender rate : Nat)
  | wait (later : Nat)

/-- `Released i held units rest out`: the switch `i` sends `units`; the travellers `out` leave it
with them and `rest` stay. -/
inductive Released (i : Nat) :
    List Traveller → List PacketUnit → List Traveller → List Traveller → Prop
  | none (held : List Traveller) : Released i held [] held []
  | leaves {before after rest out : List Traveller} {t : Traveller} {hop : Hop} {ahead : List Hop}
      {units : List PacketUnit} (next : t.ahead = hop :: ahead) (here : hop.switch = i)
      (others : Released i (before ++ after) units rest out) :
      Released i (before ++ t :: after) (t.unitAt hop :: units) rest
        ({ t with passed := hop :: t.passed, ahead := ahead } :: out)

namespace Fabric

def init (c : FabricConfig) (qp : Nat → RdmaQueuePair) : Fabric where
  now := 0
  qp := qp
  rx := fun _ => RdmaRxQueuePair.init
  switches := fun i => Upstream.init (c.node i)
  wire := []
  held := []
  acks := []

def setQp (s : Fabric) (sender : Nat) (q : RdmaQueuePair) : Fabric :=
  { s with qp := fun n => if n = sender then q else s.qp n }

def setSwitch (s : Fabric) (i : Nat) (u : Upstream) : Fabric :=
  { s with switches := fun n => if n = i then u else s.switches n }

def answers (c : FabricConfig) (s : Fabric) (t : Traveller) : List HostAck :=
  (RdmaHw.receiveUdp c.rdma s.now (s.rx t.rxKey) t.packet).1.toList.map t.answered

/-- One event. Nothing is lost; a packet takes any route through the switches, and links and hosts
deliver in any order. -/
inductive Step (c : FabricConfig) (s : Fabric) : FabricEvent → Fabric → Prop
  | add (sender id : Nat) (request : MessageRequest) :
      Step c s (.add sender id request)
        (s.setQp sender
          ((s.qp sender).addRdmaOperation c.rdma id (request.operation s.now)))
  | send {t : Traveller} {q : RdmaQueuePair} (left : 0 < (s.qp t.sender).getBytesLeft c.rdma)
      (room : (s.qp t.sender).isWinBound c.rdma = .ok false)
      (next : RdmaHw.getNxtPacket c.rdma s.now (s.qp t.sender) = .ok (t.packet, q))
      (host : t.pkt.dip < c.settings.hostNum) (fresh : t.passed = []) :
      Step c s (.send t) { s.setQp t.sender q with wire := s.wire ++ [t] }
  | arrive {before after rest out : List Traveller} {t : Traveller} {hop : Hop}
      {ahead : List Hop} {units : List PacketUnit} {u : Upstream}
      (sent : s.wire = before ++ t :: after) (next : t.ahead = hop :: ahead)
      (handled : (s.switches hop.switch).handle (c.node hop.switch)
        (.data t.pkt t.isData hop.outDev hop.qIndex) = .ok (units, u))
      (leave : Released hop.switch (s.held ++ [t]) units rest out) :
      Step c s (.arrive t)
        { s.setSwitch hop.switch u with wire := before ++ after ++ out, held := rest }
  | receive {before after : List Traveller} {t : Traveller} {answer : Option AckPacket}
      {rx : RdmaRxQueuePair} (sent : s.wire = before ++ t :: after) (arrived : t.ahead = [])
      (received : RdmaHw.receiveUdpOrTrap c.rdma s.now (s.rx t.rxKey) t.packet = .ok (answer, rx)) :
      Step c s (.receive t)
        { s with
          rx := fun key => if key = t.rxKey then rx else s.rx key
          wire := before ++ after
          acks := s.acks ++ answer.toList.map t.answered }
  | restore {before after : List HostAck} {rest out : List Traveller} {a : HostAck} {hop : Hop}
      {back : List Hop} {units : List PacketUnit} {u : Upstream}
      (sent : s.acks = before ++ a :: after) (next : a.back = hop :: back)
      (handled : (s.switches hop.switch).handle (c.node hop.switch)
        (.ack (SwitchACKTag.setAckedSize a.size) a.sip hop.outDev) = .ok (units, u))
      (leave : Released hop.switch s.held units rest out) :
      Step c s (.restore a)
        { s.setSwitch hop.switch u with
          wire := s.wire ++ out
          held := rest
          acks := before ++ { a with back := back } :: after }
  | acknowledge {before after : List HostAck} {a : HostAck} {completion : Completion}
      {q : RdmaQueuePair} (sent : s.acks = before ++ a :: after) (home : a.back = [])
      (received : RdmaHw.receiveAck c.rdma s.now (s.qp a.sender) a.ack = .ok (completion, q)) :
      Step c s (.acknowledge a) { s.setQp a.sender q with acks := before ++ after }
  | timeout {sender : Nat} (due : (s.qp sender).eventTimeoutRetransmission = some s.now) :
      Step c s (.timeout sender)
        (s.setQp sender
          (if c.rdma.qpMode then (s.qp sender).recoverMSG c.rdma s.now
          else (s.qp sender).recoverQueue c.rdma))
  | pace (sender rate : Nat) :
      Step c s (.pace sender rate)
        (s.setQp sender
          { s.qp sender with pacing := { (s.qp sender).pacing with rate := rate } })
  | wait {later : Nat} (forward : s.now < later)
      (before : ∀ sender time, (s.qp sender).eventTimeoutRetransmission = some time →
        later ≤ time) :
      Step c s (.wait later) { s with now := later }

end Fabric

def visits (i : Nat) (hops : List Hop) : Nat := hops.countP fun hop => hop.switch == i

/-- The window of `i` for `dst` that a packet holds. -/
def Traveller.holds (i dst : Nat) (t : Traveller) : Nat :=
  if t.pkt.dip = dst then visits i t.passed * t.pkt.size else 0

/-- The window of `i` for `dst` that an acknowledgement is going to give back. -/
def HostAck.returns (i dst : Nat) (a : HostAck) : Nat :=
  if a.sip = dst then visits i a.back * a.size else 0

/-- The packet has taken from the window of a switch. -/
def Traveller.Spent (c : FabricConfig) (t : Traveller) : Prop :=
  ∃ hop ∈ t.passed, (c.node hop.switch).Grouped t.pkt.dip

def FabricConfig.configured (c : FabricConfig) (i dst : Nat) : Nat :=
  ((c.node i).bdpMap dst).getD 0

namespace Fabric

/-- The bytes for `dst` that have left the switch `i` and whose acknowledgement is to come. -/
def outstanding (s : Fabric) (i dst : Nat) : Nat :=
  (s.wire.map (Traveller.holds i dst)).sum + (s.held.map (Traveller.holds i dst)).sum +
    (s.acks.map (HostAck.returns i dst)).sum

def window (c : FabricConfig) (s : Fabric) (i dst : Nat) : Nat :=
  (s.switches i).window (c.node i) dst

structure Drained (s : Fabric) : Prop where
  wire : s.wire = []
  held : s.held = []
  acks : s.acks = []

/-- Each window and what is outstanding make up the configured window, which is there again when
all traffic has drained. -/
structure WindowsExact (c : FabricConfig) (s : Fabric) : Prop where
  balance : ∀ i dst, (c.node i).Grouped dst →
    s.window c i dst + s.outstanding i dst = c.configured i dst
  restored : s.Drained → ∀ i dst, (c.node i).Grouped dst → s.window c i dst = c.configured i dst

/-- A packet that has taken from a window is answered by one ACK or NACK, which carries its size back
through every switch that it has left. -/
def OneAck (c : FabricConfig) (s : Fabric) : FabricEvent → Prop
  | .receive t => t.Spent c → ∃ a, s.answers c t = [a] ∧ a.size = t.pkt.size ∧ a.sip = t.pkt.dip ∧
      a.back = t.passed
  | _ => True

/-- A packet that has taken from a window arrives in order, or beyond a gap while a NACK is due, or
under packet-level routing. -/
def AnswerDue (c : FabricConfig) (s : Fabric) : FabricEvent → Prop
  | .receive t => t.Spent c →
      c.rdma.packetLevelRouting = true ∨
        t.packet.seq = (s.rx t.rxKey).receiverNextExpectedSeq ∨
        (s.rx t.rxKey).receiverNextExpectedSeq < t.packet.seq ∧
          ((s.rx t.rxKey).nackTimer ≤ s.now ∨
            (s.rx t.rxKey).lastNACK ≠ (s.rx t.rxKey).receiverNextExpectedSeq)
  | _ => True

end Fabric

/-- Switches count credits, and every packet in order is acknowledged with its size. -/
structure FabricConfig.HostAcked (c : FabricConfig) : Prop where
  mode : c.settings.switchAckMode = .hostPerPacketAck
  credit : c.settings.switchAbsolutePsn = false
  everyPacket : c.rdma.ackInterval = 1

section Answers

variable {g : RdmaSettings} {now : Nat} {rx : RdmaRxQueuePair} {p : DataPacket}

theorem receiveUdp_answers (everyPacket : g.ackInterval = 1) :
    (RdmaHw.receiveUdp g now rx p).1.isSome = true ↔
      g.packetLevelRouting = true ∨ p.seq = rx.receiverNextExpectedSeq ∨
        rx.receiverNextExpectedSeq < p.seq ∧
          (rx.nackTimer ≤ now ∨ rx.lastNACK ≠ rx.receiverNextExpectedSeq) := by
  cases routing : g.packetLevelRouting with
  | true => simp [RdmaHw.receiveUdp, routing]
  | false =>
      by_cases expected : p.seq = rx.receiverNextExpectedSeq
      · have acked := (@receiveUdp_acks g now rx p routing expected).1
        rw [acked, everyPacket]
        simp only [expected, true_or, or_true, iff_true]
        by_cases wrapped : Word32.add rx.receiverNextExpectedSeq p.payload = 0
        · exact .inr (wrapped ▸ Nat.dvd_zero _)
        · exact .inl (by omega)
      · by_cases beyond : rx.receiverNextExpectedSeq < p.seq
        · by_cases due : rx.nackTimer ≤ now ∨ rx.lastNACK ≠ rx.receiverNextExpectedSeq
          · simp [RdmaHw.receiveUdp, RdmaHw.receiverCheckSeq, routing, expected, beyond, due]
          · simp [RdmaHw.receiveUdp, RdmaHw.receiverCheckSeq, routing, expected, beyond, due]
        · simp [RdmaHw.receiveUdp, RdmaHw.receiverCheckSeq, routing, expected, beyond]

end Answers

section Sums

variable {i : Nat} {held rest out : List Traveller} {units : List PacketUnit}

theorem holds_passed (j dst : Nat) (t : Traveller) (hop : Hop) (ahead : List Hop) :
    ({ t with passed := hop :: t.passed, ahead := ahead } : Traveller).holds j dst =
      t.holds j dst + if j = hop.switch then ofDst dst (t.unitAt hop) else 0 := by
  unfold Traveller.holds visits ofDst Traveller.unitAt
  by_cases target : t.pkt.dip = dst
  · by_cases here : hop.switch = j
    · simp [target, here, Nat.add_mul]
    · have other : j ≠ hop.switch := fun same => here same.symm
      simp [target, here, other]
  · simp [target]

theorem returns_visited (j dst : Nat) (a : HostAck) {hop : Hop} {back : List Hop}
    (next : a.back = hop :: back) :
    a.returns j dst = ({ a with back := back } : HostAck).returns j dst +
      if j = hop.switch ∧ a.sip = dst then a.size else 0 := by
  unfold HostAck.returns visits
  rw [next]
  by_cases target : a.sip = dst
  · by_cases here : hop.switch = j
    · simp [target, here, Nat.add_mul]
    · have other : j ≠ hop.switch := fun same => here same.symm
      simp [target, here, other]
  · simp [target]

theorem Released.holds (released : Released i held units rest out) (j dst : Nat) :
    (rest.map (Traveller.holds j dst)).sum + (out.map (Traveller.holds j dst)).sum =
      (held.map (Traveller.holds j dst)).sum + if j = i then bytesTo dst units else 0 := by
  induction released with
  | none held => simp
  | @leaves before after rest out t hop ahead units next here others ih =>
      have taken := holds_passed j dst t hop ahead
      simp only [List.map_append, List.map_cons, List.sum_append, List.sum_cons] at ih ⊢
      rw [taken, here, bytesTo_cons]
      split_ifs at ih ⊢ <;> omega

theorem Released.hosts (released : Released i held units rest out) {hostNum : Nat}
    (all : ∀ t ∈ held, t.pkt.dip < hostNum) :
    (∀ t ∈ rest, t.pkt.dip < hostNum) ∧ ∀ t ∈ out, t.pkt.dip < hostNum := by
  induction released with
  | none held => exact ⟨all, by simp⟩
  | @leaves before after rest out t hop ahead units next here others ih =>
      simp only [List.forall_mem_append, List.forall_mem_cons] at all
      obtain ⟨stay, leave⟩ := ih (List.forall_mem_append.mpr ⟨all.1, all.2.2⟩)
      exact ⟨stay, List.forall_mem_cons.mpr ⟨all.2.1, leave⟩⟩

end Sums

section Modes

variable {c : FabricConfig}

theorem FabricConfig.HostAcked.own (acked : c.HostAcked) (i : Nat) : OwnWindows (c.node i) := by
  refine ⟨(c.shared i).symm ▸ acked.credit, fun dst => ?_⟩
  unfold winKey
  rw [if_neg]
  rw [c.shared i]
  exact fun both => both.1 acked.mode

theorem FabricConfig.HostAcked.mode_ne (acked : c.HostAcked) (i : Nat) :
    (c.node i).settings.switchAckMode ≠ .switchIngressCredit := by
  rw [c.shared i, acked.mode]
  intro impossible
  contradiction

theorem FabricConfig.HostAcked.creditFor_ack (acked : c.HostAcked) (i dst size sip inDev : Nat)
    (small : size < Word32.size) :
    FloodgateEvent.creditFor (c.node i) dst (.ack (SwitchACKTag.setAckedSize size) sip inDev) =
      if sip = dst then size else 0 := by
  simp only [FloodgateEvent.creditFor, c.shared i, acked.mode]
  have carried : (SwitchACKTag.setAckedSize size).getAckedSize = size := rfl
  rw [carried, Word32.trunc_eq size small]

end Modes

namespace Fabric

/-- What each switch needs to count its packets, and addresses and sizes as hosts make them. -/
structure Sound (c : FabricConfig) (s : Fabric) : Prop where
  solvent : ∀ i, Solvent (c.node i) (s.switches i)
  wire : ∀ t ∈ s.wire, t.pkt.dip < c.settings.hostNum
  held : ∀ t ∈ s.held, t.pkt.dip < c.settings.hostNum
  acks : ∀ a ∈ s.acks, a.sip < c.settings.hostNum ∧ a.size < Word32.size

section Steps

variable {c : FabricConfig} {s : Fabric}

theorem Sound.init (c : FabricConfig) (qp : Nat → RdmaQueuePair) : Sound c (init c qp) := by
  refine ⟨fun i => Solvent.init (c.node i), ?_, ?_, ?_⟩ <;> simp [Fabric.init]

theorem WindowsExact.of_balance
    (balance : ∀ i dst, (c.node i).Grouped dst →
      s.window c i dst + s.outstanding i dst = c.configured i dst) : WindowsExact c s := by
  refine ⟨balance, fun drained i dst grouped => ?_⟩
  have exact := balance i dst grouped
  simpa [outstanding, drained.wire, drained.held, drained.acks] using exact

theorem WindowsExact.init (c : FabricConfig) (qp : Nat → RdmaQueuePair) :
    WindowsExact c (init c qp) := by
  apply WindowsExact.of_balance
  intro i dst _
  simp only [window, Fabric.init, window_init, outstanding, List.map_nil, List.sum_nil, Nat.add_zero,
    FabricConfig.configured]

theorem configured_lt (c : FabricConfig) (i dst : Nat) : c.configured i dst < Word32.size := by
  unfold FabricConfig.configured
  cases found : (c.node i).bdpMap dst with
  | none => exact show 0 < Word32.size by decide
  | some size => exact (c.node i).bdpMap_lt dst size found

theorem setSwitch_window {i j dst : Nat} {u : Upstream} {event : FloodgateEvent}
    {units : List PacketUnit} (balances : Balances (c.node i) event (s.switches i) units u)
    (grouped : (c.node j).Grouped dst) :
    (s.setSwitch i u).window c j dst + (if j = i then bytesTo dst units else 0) =
      s.window c j dst + if j = i then event.creditFor (c.node i) dst else 0 := by
  unfold window setSwitch
  by_cases here : j = i
  · subst here
    simp only [if_true]
    exact balances.balance dst grouped
  · simp only [if_neg here]

theorem Sound.setSwitch (sound : Sound c s) {i : Nat} {u : Upstream}
    (solvent : Solvent (c.node i) u) (j : Nat) :
    Solvent (c.node j) ((s.setSwitch i u).switches j) := by
  unfold Fabric.setSwitch
  by_cases here : j = i
  · subst here
    simpa using solvent
  · simpa [here] using sound.solvent j

/-- A packet that arrives at a switch passes, or waits; others may not leave before it. -/
theorem arrive_exact (acked : c.HostAcked) (sound : Sound c s)
    {before after rest out : List Traveller} {t : Traveller} {hop : Hop} {units : List PacketUnit}
    {u : Upstream}
    (sent : s.wire = before ++ t :: after) (exact : WindowsExact c s)
    (handled : (s.switches hop.switch).handle (c.node hop.switch)
      (.data t.pkt t.isData hop.outDev hop.qIndex) = .ok (units, u))
    (leave : Released hop.switch (s.held ++ [t]) units rest out) :
    Sound c { s.setSwitch hop.switch u with wire := before ++ after ++ out, held := rest } ∧
      WindowsExact c
        { s.setSwitch hop.switch u with wire := before ++ after ++ out, held := rest } := by
  have wire := sound.wire
  rw [sent] at wire
  simp only [List.forall_mem_append, List.forall_mem_cons] at wire
  have held : ∀ other ∈ s.held ++ [t], other.pkt.dip < c.settings.hostNum := by
    simp only [List.forall_mem_append, List.forall_mem_singleton]
    exact ⟨sound.held, wire.2.1⟩
  have host : FloodgateEvent.FromHosts (c.node hop.switch)
      (.data t.pkt t.isData hop.outDev hop.qIndex) := by
    show t.pkt.dip < (c.node hop.switch).settings.hostNum
    rw [c.shared]
    exact wire.2.1
  have balances := handle_balances (acked.own hop.switch) (acked.mode_ne hop.switch)
    (sound.solvent hop.switch) host (fun dst grouped => (sound.solvent hop.switch).small dst grouped)
    handled
  obtain ⟨stay, gone⟩ := leave.hosts held
  refine ⟨⟨sound.setSwitch balances.solvent, ?_, stay, sound.acks⟩, WindowsExact.of_balance ?_⟩
  · simp only [List.forall_mem_append]
    exact ⟨⟨wire.1, wire.2.2⟩, gone⟩
  · intro i dst grouped
    have whole := exact.balance i dst grouped
    have windows := setSwitch_window balances grouped
    have moved := leave.holds i dst
    have credit : FloodgateEvent.creditFor (c.node hop.switch) dst
        (.data t.pkt t.isData hop.outDev hop.qIndex) = 0 := rfl
    rw [credit, ite_self, Nat.add_zero] at windows
    simp only [outstanding, sent, List.map_append, List.map_cons, List.map_nil, List.sum_append,
      List.sum_cons, List.sum_nil] at whole moved ⊢
    have same : window c { s.setSwitch hop.switch u with
        wire := before ++ after ++ out, held := rest } i dst =
          (s.setSwitch hop.switch u).window c i dst := rfl
    have acks : (s.setSwitch hop.switch u).acks = s.acks := rfl
    rw [same, acks]
    omega

theorem restore_exact (acked : c.HostAcked) (sound : Sound c s) {before after : List HostAck}
    {rest out : List Traveller} {a : HostAck} {hop : Hop} {back : List Hop}
    {units : List PacketUnit} {u : Upstream} (sent : s.acks = before ++ a :: after)
    (next : a.back = hop :: back) (exact : WindowsExact c s)
    (handled : (s.switches hop.switch).handle (c.node hop.switch)
      (.ack (SwitchACKTag.setAckedSize a.size) a.sip hop.outDev) = .ok (units, u))
    (leave : Released hop.switch s.held units rest out) :
    Sound c
        { s.setSwitch hop.switch u with
          wire := s.wire ++ out
          held := rest
          acks := before ++ { a with back := back } :: after } ∧
      WindowsExact c
        { s.setSwitch hop.switch u with
          wire := s.wire ++ out
          held := rest
          acks := before ++ { a with back := back } :: after } := by
  have acks := sound.acks
  rw [sent] at acks
  simp only [List.forall_mem_append, List.forall_mem_cons] at acks
  have credit := fun dst =>
    acked.creditFor_ack hop.switch dst a.size a.sip hop.outDev acks.2.1.2
  have total : ∀ i dst, s.outstanding i dst =
      (s.wire.map (Traveller.holds i dst)).sum + (s.held.map (Traveller.holds i dst)).sum +
        ((before.map (HostAck.returns i dst)).sum +
          (({ a with back := back } : HostAck).returns i dst +
            (if i = hop.switch ∧ a.sip = dst then a.size else 0) +
              (after.map (HostAck.returns i dst)).sum)) := by
    intro i dst
    simp only [outstanding, sent, List.map_append, List.map_cons, List.sum_append, List.sum_cons,
      returns_visited i dst a next]
  have host : FloodgateEvent.FromHosts (c.node hop.switch)
      (.ack (SwitchACKTag.setAckedSize a.size) a.sip hop.outDev) := by
    show a.sip < (c.node hop.switch).settings.hostNum
    rw [c.shared]
    exact acks.2.1.1
  have balances := handle_balances (acked.own hop.switch) (acked.mode_ne hop.switch)
    (sound.solvent hop.switch) host
    (by
      intro dst grouped
      have whole := exact.balance hop.switch dst grouped
      have bound := configured_lt c hop.switch dst
      rw [total] at whole
      simp only [true_and] at whole
      have same : s.window c hop.switch dst =
        (s.switches hop.switch).window (c.node hop.switch) dst := rfl
      rw [credit, ← same]
      omega)
    handled
  obtain ⟨stay, gone⟩ := leave.hosts sound.held
  refine ⟨⟨sound.setSwitch balances.solvent, ?_, stay, ?_⟩, WindowsExact.of_balance ?_⟩
  · exact List.forall_mem_append.mpr ⟨sound.wire, gone⟩
  · simp only [List.forall_mem_append, List.forall_mem_cons]
    exact acks
  · intro i dst grouped
    have whole := exact.balance i dst grouped
    have windows := setSwitch_window balances grouped
    have moved := leave.holds i dst
    rw [total, ite_and] at whole
    rw [credit] at windows
    have same : window c
        { s.setSwitch hop.switch u with
          wire := s.wire ++ out
          held := rest
          acks := before ++ { a with back := back } :: after } i dst =
          (s.setSwitch hop.switch u).window c i dst := rfl
    rw [same]
    simp only [outstanding, List.map_append, List.map_cons, List.sum_append, List.sum_cons]
    omega

theorem holds_unspent {t : Traveller} (unspent : ¬ t.Spent c) {i dst : Nat}
    (grouped : (c.node i).Grouped dst) : t.holds i dst = 0 := by
  unfold Traveller.holds
  split
  · rename_i target
    have nowhere : visits i t.passed = 0 := by
      rw [visits, List.countP_eq_zero]
      intro hop member here
      rw [beq_iff_eq] at here
      exact unspent ⟨hop, member, by rw [here, target]; exact grouped⟩
    rw [nowhere, Nat.zero_mul]
  · rfl

/-- The receiver takes a packet: its window is kept exactly when it is answered or holds none. -/
theorem receive_exact (acked : c.HostAcked) (sound : Sound c s) {before after : List Traveller}
    {t : Traveller} {answer : Option AckPacket} {rx : RdmaRxQueuePair} (exact : WindowsExact c s)
    (sent : s.wire = before ++ t :: after)
    (received : RdmaHw.receiveUdpOrTrap c.rdma s.now (s.rx t.rxKey) t.packet = .ok (answer, rx))
    {finish : Fabric}
    (result : finish =
      { s with
        rx := fun key => if key = t.rxKey then rx else s.rx key
        wire := before ++ after
        acks := s.acks ++ answer.toList.map t.answered }) :
    Sound c finish ∧
      (AnswerDue c s (.receive t) ↔ OneAck c s (.receive t) ∧ WindowsExact c finish) := by
  have wire := sound.wire
  rw [sent] at wire
  simp only [List.forall_mem_append, List.forall_mem_cons] at wire
  have given : (RdmaHw.receiveUdp c.rdma s.now (s.rx t.rxKey) t.packet).1 = answer :=
    (congrArg Prod.fst (receiveUdpOrTrap_eq received)).symm
  have due := @receiveUdp_answers c.rdma s.now (s.rx t.rxKey) t.packet acked.everyPacket
  rw [given] at due
  have answers : s.answers c t = answer.toList.map t.answered := by rw [Fabric.answers, given]
  have total : ∀ i dst, s.outstanding i dst +
      ((answer.toList.map t.answered).map (HostAck.returns i dst)).sum =
        finish.outstanding i dst + t.holds i dst := by
    intro i dst
    rw [result]
    simp only [outstanding, sent, List.map_append, List.map_cons, List.sum_append, List.sum_cons]
    omega
  have windows : ∀ i dst, finish.window c i dst = s.window c i dst := by
    intro i dst
    rw [result]
    rfl
  constructor
  · rw [result]
    refine ⟨sound.solvent, List.forall_mem_append.mpr ⟨wire.1, wire.2.2⟩, sound.held, ?_⟩
    refine List.forall_mem_append.mpr ⟨sound.acks, ?_⟩
    intro a member
    obtain ⟨_, _, rfl⟩ := List.mem_map.mp member
    exact ⟨wire.2.1, t.pkt.size_lt⟩
  cases answer with
  | some a =>
      have held : ∀ i dst, (t.answered a).returns i dst = t.holds i dst := fun _ _ => rfl
      have kept : WindowsExact c finish := by
        apply WindowsExact.of_balance
        intro i dst grouped
        have whole := exact.balance i dst grouped
        have moved := total i dst
        simp only [Option.toList_some, List.map_cons, List.map_nil, List.sum_cons, List.sum_nil,
          held] at moved
        rw [windows]
        omega
      have one : OneAck c s (.receive t) := fun _ => ⟨t.answered a, answers, rfl, rfl, rfl⟩
      exact ⟨fun _ => ⟨one, kept⟩, fun _ _ => due.mp rfl⟩
  | none =>
      have unanswered : AnswerDue c s (.receive t) ↔ ¬ t.Spent c := by
        constructor
        · intro answerDue spent
          exact absurd (due.mpr (answerDue spent)) (by simp)
        · intro unspent spent
          exact absurd spent unspent
      rw [unanswered]
      constructor
      · intro unspent
        refine ⟨fun spent => absurd spent unspent, WindowsExact.of_balance ?_⟩
        intro i dst grouped
        have whole := exact.balance i dst grouped
        have moved := total i dst
        simp only [Option.toList_none, List.map_nil, List.sum_nil,
          holds_unspent unspent grouped] at moved
        rw [windows]
        omega
      · rintro ⟨one, _⟩ spent
        obtain ⟨a, single, _⟩ := one spent
        rw [answers] at single
        contradiction

theorem hosts_exact (sound : Sound c s) (exact : WindowsExact c s) {finish : Fabric}
    (switches : finish.switches = s.switches) (wire : finish.wire = s.wire)
    (held : finish.held = s.held) (acks : finish.acks = s.acks) :
    Sound c finish ∧ WindowsExact c finish := by
  refine ⟨⟨?_, ?_, ?_, ?_⟩, WindowsExact.of_balance fun i dst grouped => ?_⟩
  · rw [switches]
    exact sound.solvent
  · rw [wire]
    exact sound.wire
  · rw [held]
    exact sound.held
  · rw [acks]
    exact sound.acks
  · rw [window, switches, outstanding, wire, held, acks]
    exact exact.balance i dst grouped

theorem send_exact (sound : Sound c s) (exact : WindowsExact c s) {t : Traveller}
    {q : RdmaQueuePair} (host : t.pkt.dip < c.settings.hostNum) (fresh : t.passed = []) :
    Sound c { s.setQp t.sender q with wire := s.wire ++ [t] } ∧
      WindowsExact c { s.setQp t.sender q with wire := s.wire ++ [t] } := by
  refine ⟨⟨sound.solvent, ?_, sound.held, sound.acks⟩, WindowsExact.of_balance ?_⟩
  · exact List.forall_mem_append.mpr ⟨sound.wire, List.forall_mem_singleton.mpr host⟩
  · intro i dst grouped
    have whole := exact.balance i dst grouped
    have none : t.holds i dst = 0 := by simp [Traveller.holds, visits, fresh]
    simp only [outstanding, List.map_append, List.map_cons, List.map_nil, List.sum_append,
      List.sum_cons, List.sum_nil, none, Nat.add_zero] at whole ⊢
    exact whole

theorem acknowledge_exact (sound : Sound c s) (exact : WindowsExact c s)
    {before after : List HostAck} {a : HostAck} {q : RdmaQueuePair}
    (sent : s.acks = before ++ a :: after) (home : a.back = []) :
    Sound c { s.setQp a.sender q with acks := before ++ after } ∧
      WindowsExact c { s.setQp a.sender q with acks := before ++ after } := by
  have acks := sound.acks
  rw [sent] at acks
  simp only [List.forall_mem_append, List.forall_mem_cons] at acks
  refine ⟨⟨sound.solvent, sound.wire, sound.held, ?_⟩, WindowsExact.of_balance ?_⟩
  · exact List.forall_mem_append.mpr ⟨acks.1, acks.2.2⟩
  · intro i dst grouped
    have whole := exact.balance i dst grouped
    have none : a.returns i dst = 0 := by simp [HostAck.returns, visits, home]
    simp only [outstanding, sent, List.map_append, List.map_cons, List.sum_append, List.sum_cons,
      none, Nat.zero_add] at whole ⊢
    exact whole

theorem step_exact (acked : c.HostAcked) (sound : Sound c s) (exact : WindowsExact c s)
    {event : FabricEvent} {finish : Fabric} (step : Step c s event finish) :
    Sound c finish ∧ (AnswerDue c s event ↔ OneAck c s event ∧ WindowsExact c finish) := by
  -- only the arrival of a packet at its receiver can go wrong
  have safe : ∀ {finish : Fabric}, Sound c finish ∧ WindowsExact c finish →
      Sound c finish ∧ (True ↔ True ∧ WindowsExact c finish) :=
    fun both => ⟨both.1, fun _ => ⟨trivial, both.2⟩, fun _ => trivial⟩
  cases step with
  | receive sent arrived received => exact receive_exact acked sound exact sent received rfl
  | add => exact safe (hosts_exact sound exact rfl rfl rfl rfl)
  | send left room next host fresh => exact safe (send_exact sound exact host fresh)
  | arrive sent next handled leave => exact safe (arrive_exact acked sound sent exact handled leave)
  | restore sent next handled leave =>
      exact safe (restore_exact acked sound sent next exact handled leave)
  | acknowledge sent home received => exact safe (acknowledge_exact sound exact sent home)
  | timeout => exact safe (hosts_exact sound exact rfl rfl rfl rfl)
  | pace => exact safe (hosts_exact sound exact rfl rfl rfl rfl)
  | wait => exact safe (hosts_exact sound exact rfl rfl rfl rfl)

end Steps

/-- Over a run of any length, packets that have taken from a window are answered once each and the
windows are exact, precisely when each of them finds its receiver due to answer. -/
theorem host_acks_restore_windows (c : FabricConfig) (acked : c.HostAcked)
    (qp : Nat → RdmaQueuePair) (entries : List (Fabric × FabricEvent)) (s : Fabric)
    (run : Run (Traced (Step c)) (init c qp) entries s) :
    (∀ entry ∈ entries, AnswerDue c entry.1 entry.2) ↔
      (∀ entry ∈ entries, WindowsExact c entry.1 ∧ OneAck c entry.1 entry.2) ∧
        WindowsExact c s :=
  run.served_iff (Sound c) (WindowsExact c) (AnswerDue c) (OneAck c) (Sound.init c qp)
    (WindowsExact.init c qp) (fun _ _ _ sound exact step => (step_exact acked sound exact step).1)
    fun _ _ _ sound exact step => (step_exact acked sound exact step).2

def oneSwitch : FabricConfig where
  rdma := RdmaFlow.singlePath
  settings := (narrow .hostPerPacketAck unlimited 4096 Word32.four_kilo_lt).settings
  node := fun _ => narrow .hostPerPacketAck unlimited 4096 Word32.four_kilo_lt
  shared := fun _ => rfl

theorem oneSwitch_acked : oneSwitch.HostAcked := ⟨rfl, rfl, rfl⟩

def oneFlow : Nat → RdmaQueuePair := fun _ => (RdmaFlow.create RdmaFlow.singlePath 952 0 0).qp

def throughSwitch : Hop := ⟨0, 2, 3⟩

theorem kiloPacket_isUdp : kiloPacket.isUdp = true := rfl

def onlyPacket : Traveller where
  sender := 0
  packet := ⟨0, 952, 0, 0, 0, true⟩
  pkt := kiloPacket
  isData := kiloPacket_isUdp
  passed := []
  ahead := [throughSwitch]

def onlyPassed : Traveller := { onlyPacket with passed := [throughSwitch], ahead := [] }

theorem released_one : Released 0 ([] ++ [onlyPacket]) [onlyPacket.unitAt throughSwitch] []
    [onlyPassed] :=
  @Released.leaves 0 [] [] [] [] onlyPacket throughSwitch [] [] rfl rfl (.none [])

theorem first_received : RdmaHw.receiveUdpOrTrap RdmaFlow.singlePath 0 RdmaRxQueuePair.init
    onlyPacket.packet = .ok (some ⟨952, false, 0, true⟩,
      (RdmaHw.receiveUdp RdmaFlow.singlePath 0 RdmaRxQueuePair.init onlyPacket.packet).2) := by
  have acked : (RdmaHw.receiveUdp RdmaFlow.singlePath 0 RdmaRxQueuePair.init onlyPacket.packet).1 =
      some ⟨952, false, 0, true⟩ := by decide +kernel
  exact congrArg Except.ok (Prod.ext acked rfl)

theorem armed_first {q : RdmaQueuePair} {sender time : Nat}
    (armed : (if sender = 0 then q else oneFlow sender).eventTimeoutRetransmission = some time) :
    q.eventTimeoutRetransmission = some time := by
  split at armed
  · exact armed
  · contradiction

def onlyAck : HostAck := onlyPassed.answered ⟨952, false, 0, true⟩

/-- The packet is sent again, after a timeout, before its ACK is back. -/
def sentTwice : List FabricEvent :=
  [.send onlyPacket, .arrive onlyPacket, .receive onlyPassed, .wait 5000, .timeout 0,
    .send onlyPacket, .arrive onlyPacket, .receive onlyPassed, .restore onlyAck,
    .acknowledge { onlyAck with back := [] }]

theorem sentTwice_run : ∃ entries s,
    Run (Traced (Step oneSwitch)) (init oneSwitch oneFlow) entries s ∧
    entries.map Prod.snd = sentTwice ∧ s.Drained ∧ s.window oneSwitch 0 1 = 3072 := by
  have sent := Run.nil.told (Step.send (c := oneSwitch) (s := init oneSwitch oneFlow)
    (t := onlyPacket) (by decide) (by decide) rfl (by decide) rfl)
  have arrived := sent.told (@Step.arrive oneSwitch _ [] [] _ _ onlyPacket throughSwitch _ _ _
    rfl rfl rfl released_one)
  have received := arrived.told (@Step.receive oneSwitch _ [] [] onlyPassed _ _ rfl rfl
    first_received)
  have waited := received.told (@Step.wait oneSwitch _ 5000 (by decide) fun _ _ armed =>
    Nat.le_of_eq (Option.some.inj (armed_first armed)))
  have recovered := waited.told (@Step.timeout oneSwitch _ 0 rfl)
  have again := recovered.told (Step.send (t := onlyPacket) (by decide) (by decide) rfl
    (by decide) rfl)
  have passed := again.told (@Step.arrive oneSwitch _ [] [] _ _ onlyPacket throughSwitch _ _ _
    rfl rfl rfl released_one)
  have duplicate := passed.told (@Step.receive oneSwitch _ [] [] onlyPassed none _ rfl rfl rfl)
  have restored := duplicate.told (@Step.restore oneSwitch _ [] [] _ _ onlyAck throughSwitch [] _ _
    rfl rfl rfl (.none []))
  have acked := restored.told (@Step.acknowledge oneSwitch _ [] []
    { onlyAck with back := [] } _ _ rfl rfl rfl)
  refine ⟨_, _, acked, ?_, ?_, ?_⟩
  · rfl
  · constructor
    · rfl
    · rfl
    · rfl
  · rfl

theorem host_acks_restore_windows_sent_twice : ∃ (entries : List (Fabric × FabricEvent)) (s : Fabric),
    entries.map Prod.snd = sentTwice ∧
    ((∀ entry ∈ entries, AnswerDue oneSwitch entry.1 entry.2) ↔
      (∀ entry ∈ entries, WindowsExact oneSwitch entry.1 ∧ OneAck oneSwitch entry.1 entry.2) ∧
        WindowsExact oneSwitch s) := by
  obtain ⟨entries, s, run, labels, -⟩ := sentTwice_run
  exact ⟨entries, s, labels,
    host_acks_restore_windows oneSwitch oneSwitch_acked oneFlow entries s run⟩

/-- The duplicate takes 1024 bytes from the window of 4096 and is not answered: when all traffic has
drained the window is still short of them. -/
theorem duplicate_never_restored : ¬ ∀ (c : FabricConfig), c.HostAcked →
    ∀ qp entries s, Run (Traced (Step c)) (init c qp) entries s →
      (∀ entry ∈ entries, WindowsExact c entry.1 ∧ OneAck c entry.1 entry.2) ∧
        WindowsExact c s := by
  intro claim
  obtain ⟨entries, s, run, _, drained, short⟩ := sentTwice_run
  obtain ⟨_, exact⟩ := claim oneSwitch oneSwitch_acked oneFlow entries s run
  have full := exact.restored drained 0 1 ⟨0, rfl⟩
  rw [short] at full
  exact absurd full (by decide)

end Fabric

end Floodgate
