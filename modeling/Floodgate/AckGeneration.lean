import Floodgate.GoBackN
import Floodgate.RetransmissionTimer

/-! Which packets of a go-back-N flow are acknowledged, when its data arrives in order and without
loss. -/

namespace Floodgate

open Outcome LabelledRun

/-- The program does not survive a division by zero. -/
inductive Trap where
  | divisionByZero
  deriving DecidableEq

namespace RdmaHw

variable (g : RdmaSettings) (now : Nat)

/-- `ReceiverCheckSeq` with the traps of its divisions. -/
def receiverCheckSeqOrTrap (rx : RdmaRxQueuePair) (seq size : Nat) :
    Except Trap (Nat × RdmaRxQueuePair) :=
  let expected := rx.receiverNextExpectedSeq
  if seq = expected then
    let next := Word32.add expected size
    if next ≥ rx.milestoneRx then
      .ok (1, { rx with
        receiverNextExpectedSeq := next
        milestoneRx := Word32.add rx.milestoneRx g.ackInterval })
    else if g.chunk = 0 then .error .divisionByZero
    else if next % g.chunk = 0 then .ok (1, { rx with receiverNextExpectedSeq := next })
    else .ok (5, { rx with receiverNextExpectedSeq := next })
  else if seq > expected then
    if now ≥ rx.nackTimer || decide (rx.lastNACK ≠ expected) then
      if g.backto0 then
        if g.chunk = 0 then .error .divisionByZero
        else .ok (2, { rx with
          nackTimer := now + g.nackInterval * 1000
          lastNACK := expected
          receiverNextExpectedSeq := expected / g.chunk * g.chunk })
      else .ok (2, { rx with nackTimer := now + g.nackInterval * 1000, lastNACK := expected })
    else .ok (4, rx)
  else .ok (3, rx)

/-- `ReceiveUdp`, which stops where `ReceiverCheckSeq` traps. -/
def receiveUdpOrTrap (rx : RdmaRxQueuePair) (p : DataPacket) :
    Except Trap (Option AckPacket × RdmaRxQueuePair) := do
  let _ ← receiverCheckSeqOrTrap g now { rx with milestoneRx := g.ackInterval } p.seq p.payload
  .ok (receiveUdp g now rx p)

end RdmaHw

section Receiving

variable {g : RdmaSettings} {now : Nat} {rx after : RdmaRxQueuePair} {p : DataPacket}

/-- Where it does not trap, it is the function that takes a remainder by zero for the number. -/
theorem receiverCheckSeqOrTrap_eq {seq size : Nat} {checked : Nat × RdmaRxQueuePair}
    (success : RdmaHw.receiverCheckSeqOrTrap g now rx seq size = .ok checked) :
    checked = RdmaHw.receiverCheckSeq g now rx seq size := by
  unfold RdmaHw.receiverCheckSeqOrTrap at success
  unfold RdmaHw.receiverCheckSeq
  simp only at success ⊢
  split_ifs at success ⊢
  all_goals exact (Except.ok.inj success).symm

theorem receiveUdpOrTrap_ok (expected : p.seq = rx.receiverNextExpectedSeq) :
    (∃ result, RdmaHw.receiveUdpOrTrap g now rx p = .ok result) ↔
      g.ackInterval ≤ Word32.add rx.receiverNextExpectedSeq p.payload ∨ 0 < g.chunk := by
  unfold RdmaHw.receiveUdpOrTrap RdmaHw.receiverCheckSeqOrTrap
  simp only [expected, if_true, ge_iff_le]
  by_cases milestone : g.ackInterval ≤ Word32.add rx.receiverNextExpectedSeq p.payload
  · simp [milestone]
  · by_cases none : g.chunk = 0
    · simp [milestone, none]
    · have some : 0 < g.chunk := by omega
      by_cases multiple : Word32.add rx.receiverNextExpectedSeq p.payload % g.chunk = 0
      · simp [milestone, none, some, multiple]
      · simp [milestone, none, some, multiple]

theorem receiveUdpOrTrap_eq {result : Option AckPacket × RdmaRxQueuePair}
    (success : RdmaHw.receiveUdpOrTrap g now rx p = .ok result) :
    result = RdmaHw.receiveUdp g now rx p := by
  obtain ⟨_, _, same⟩ := bind_ok.mp success
  exact (Except.ok.inj same).symm

theorem receiveUdp_seq (flow : g.packetLevelRouting = false) {a : AckPacket}
    (sent : (RdmaHw.receiveUdp g now rx p).1 = some a) :
    a.seq = (RdmaHw.receiveUdp g now rx p).2.receiverNextExpectedSeq := by
  unfold RdmaHw.receiveUdp at sent ⊢
  simp only [flow, Bool.false_eq_true, if_false] at sent ⊢
  split at sent
  · rename_i answered
    rw [if_pos answered, ← Option.some.inj sent]
  · contradiction

theorem receiveUdp_acks (flow : g.packetLevelRouting = false)
    (expected : p.seq = rx.receiverNextExpectedSeq) :
    ((RdmaHw.receiveUdp g now rx p).1.isSome ↔
      g.ackInterval ≤ Word32.add rx.receiverNextExpectedSeq p.payload ∨
        g.chunk ∣ Word32.add rx.receiverNextExpectedSeq p.payload) ∧
    ∀ a, (RdmaHw.receiveUdp g now rx p).1 = some a → a.nack = false := by
  unfold RdmaHw.receiveUdp RdmaHw.receiverCheckSeq
  simp only [expected, if_true, flow, Bool.false_eq_true, if_false, ge_iff_le]
  by_cases milestone : g.ackInterval ≤ Word32.add rx.receiverNextExpectedSeq p.payload
  · simp only [milestone, if_true, true_or, iff_true]
    exact ⟨rfl, fun a sent => (Option.some.inj sent) ▸ rfl⟩
  · by_cases multiple : Word32.add rx.receiverNextExpectedSeq p.payload % g.chunk = 0
    · simp only [milestone, multiple, if_true, if_false, false_or, Nat.dvd_of_mod_eq_zero multiple,
        iff_true]
      exact ⟨rfl, fun a sent => (Option.some.inj sent) ▸ rfl⟩
    · have apart : ¬ g.chunk ∣ Word32.add rx.receiverNextExpectedSeq p.payload :=
        fun divides => multiple (Nat.mod_eq_zero_of_dvd divides)
      simp only [milestone, multiple, if_false, false_or, apart, iff_false]
      exact ⟨nofun, nofun⟩

end Receiving

/-- The two ends of a flow with first-in first-out channels between them. `sent` counts packets and
`bytes` is the payload that has arrived. -/
structure OrderedFlow where
  sender : MsgStatus
  rx : RdmaRxQueuePair
  wire : List DataPacket
  acks : List AckPacket
  sent : Nat
  bytes : Nat

inductive OrderedEvent where
  | send
  | deliver (p : DataPacket) (acked : Bool)
  | ack (a : AckPacket)

def MsgStatus.heard (g : RdmaSettings) (a : AckPacket) (m : MsgStatus) : MsgStatus :=
  if a.nack && g.nackReaction then (m.hear g a).pullBack else m.hear g a

namespace OrderedFlow

def create (g : RdmaSettings) (size flowId sport : Nat) : OrderedFlow where
  sender := (RdmaFlow.create g size flowId sport).qp.current
  rx := RdmaRxQueuePair.init
  wire := []
  acks := []
  sent := 0
  bytes := 0

inductive Step (g : RdmaSettings) (s : OrderedFlow) : OrderedEvent → OrderedFlow → Prop
  | send {seq : Nat} {m : MsgStatus} (left : 0 < s.sender.getBytesLeft g)
      (chosen : RdmaHw.chooseSeq g s.sender = .ok (seq, m)) :
      Step g s .send
        { s with
          sender := RdmaHw.advance m (RdmaHw.packetAt g m seq)
          wire := s.wire ++ [RdmaHw.packetAt g m seq]
          sent := s.sent + 1 }
  | deliver {p : DataPacket} {rest : List DataPacket} {now : Nat} {ack : Option AckPacket}
      {rx : RdmaRxQueuePair} (head : s.wire = p :: rest)
      (received : RdmaHw.receiveUdpOrTrap g now s.rx p = .ok (ack, rx)) :
      Step g s (.deliver p ack.isSome)
        { s with
          rx := rx
          wire := rest
          acks := s.acks ++ ack.toList
          bytes := s.bytes + p.payload }
  | ack {a : AckPacket} {rest : List AckPacket} (head : s.acks = a :: rest) :
      Step g s (.ack a) { s with sender := s.sender.heard g a, acks := rest }

end OrderedFlow

def packetCount (g : RdmaSettings) (size : Nat) : Nat := (size + g.mtu - 1) / g.mtu

/-- A packet that takes the byte count from `before` to `after` is to be acknowledged: it reaches a
milestone or a multiple of the chunk, or it completes the flow. -/
def AckDue (g : RdmaSettings) (size before after : Nat) : Prop :=
  (∃ j, before < j * g.ackInterval ∧ j * g.ackInterval ≤ after) ∨
    (0 < g.chunk ∧ g.chunk ∣ after) ∨ after = size

/-- What the parameters promise, in one state: the next packet does not trap and is acknowledged
when it is due; and once all packets have been delivered and acknowledged, `snd_una` is the size. -/
structure AcksRight (g : RdmaSettings) (size : Nat) (s : OrderedFlow) : Prop where
  noTrap : ∀ p rest now, s.wire = p :: rest →
    ∃ result, RdmaHw.receiveUdpOrTrap g now s.rx p = .ok result
  due : ∀ p rest now result, s.wire = p :: rest →
    RdmaHw.receiveUdpOrTrap g now s.rx p = .ok result →
    (result.1.isSome ↔ AckDue g size s.bytes (s.bytes + p.payload))
  finishes : s.sent = packetCount g size → s.wire = [] → s.acks = [] → s.sender.sndUna = size

/-- The condition on the parameters. -/
structure AcksFit (g : RdmaSettings) (size : Nat) : Prop where
  words : packetCount g size * g.mtu < Word32.size
  chunked : min g.mtu size < g.ackInterval → 0 < g.chunk
  short : size < g.ackInterval → g.chunk ∣ size
  long : ∀ k, g.ackInterval ≤ k * g.mtu → k * g.mtu < size →
    k * g.mtu % g.ackInterval < g.mtu ∨ (0 < g.chunk ∧ g.chunk ∣ k * g.mtu)

/-- Go-back-N with acknowledgements, and the ranges of the parameters' types. -/
structure GoesBackN (g : RdmaSettings) : Prop where
  flow : g.packetLevelRouting = false
  forward : g.backto0 = false
  mtu : 0 < g.mtu
  mtu_lt : g.mtu < Word32.size
  ackInterval : 0 < g.ackInterval

section Arithmetic

variable {g : RdmaSettings} {size : Nat}

theorem packetCount_le (mtu : 0 < g.mtu) : size ≤ packetCount g size * g.mtu := by
  unfold packetCount
  have division := Nat.div_add_mod (size + g.mtu - 1) g.mtu
  have rest := Nat.mod_lt (size + g.mtu - 1) mtu
  rw [Nat.mul_comm] at division
  omega

theorem lt_packetCount (mtu : 0 < g.mtu) {k : Nat} (below : k < packetCount g size) :
    k * g.mtu < size := by
  unfold packetCount at below
  have bound : (k + 1) * g.mtu ≤ size + g.mtu - 1 :=
    (Nat.le_div_iff_mul_le mtu).mp (by omega)
  rw [Nat.succ_mul] at bound
  omega

theorem packetCount_pos (mtu : 0 < g.mtu) (positive : 0 < size) : 0 < packetCount g size := by
  have whole := @packetCount_le g size mtu
  by_contra none
  rw [Nat.eq_zero_of_not_pos none, Nat.zero_mul] at whole
  omega

/-- The packet that ends at `after` is the first to reach a multiple of `interval`. -/
theorem crosses_iff {interval mtu after : Nat} (positive : 0 < interval) (room : mtu ≤ after) :
    (∃ j, after - mtu < j * interval ∧ j * interval ≤ after) ↔ after % interval < mtu := by
  have division := Nat.div_add_mod after interval
  rw [Nat.mul_comm] at division
  have rest := Nat.mod_lt after positive
  constructor
  · intro crossing
    obtain ⟨j, above, below⟩ := crossing
    have most : j ≤ after / interval := (Nat.le_div_iff_mul_le positive).mpr below
    have bound : j * interval ≤ after / interval * interval := Nat.mul_le_mul_right _ most
    omega
  · intro near
    exact ⟨after / interval, by omega, by omega⟩

end Arithmetic

section InOrder

variable {g : RdmaSettings} {size : Nat} {s next : OrderedFlow}

def Stream (g : RdmaSettings) (size position : Nat) : List DataPacket → Nat → Prop
  | [], finish => position = finish
  | p :: rest, finish =>
      p.seq = position ∧ p.payload = min g.mtu (size - position) ∧ position < size ∧
        Stream g size (position + p.payload) rest finish

theorem Stream.snoc {wire : List DataPacket} {position finish : Nat}
    (stream : Stream g size position wire finish) {p : DataPacket} (seq : p.seq = finish)
    (payload : p.payload = min g.mtu (size - finish)) (below : finish < size) :
    Stream g size position (wire ++ [p]) (finish + p.payload) := by
  induction wire generalizing position with
  | nil =>
      have here : position = finish := stream
      subst here
      exact ⟨seq, payload, below, rfl⟩
  | cons head rest ih =>
      obtain ⟨start, amount, inside, later⟩ := stream
      exact ⟨start, amount, inside, ih later⟩

/-- The sender numbers the packets one after the other, the receiver gets them in that order, and
what completes the flow is acknowledged. -/
structure InOrder (g : RdmaSettings) (size : Nat) (s : OrderedFlow) : Prop where
  sized : s.sender.size = size
  position : s.sender.sndNxt = min (s.sent * g.mtu) size
  expected : s.rx.receiverNextExpectedSeq = s.bytes
  boundary : ∃ k, s.bytes = min (k * g.mtu) size
  stream : Stream g size s.bytes s.wire s.sender.sndNxt
  acks : ∀ a ∈ s.acks, a.nack = false ∧ a.seq ≤ size
  una : s.sender.sndUna ≤ size
  told : s.bytes = size → s.sender.sndUna = size ∨ ∃ a ∈ s.acks, a.seq = size

theorem InOrder.create (positive : 0 < size) (flowId sport : Nat) :
    InOrder g size (OrderedFlow.create g size flowId sport) where
  sized := rfl
  position := by
    rw [OrderedFlow.create, Nat.zero_mul, Nat.zero_min]
    rfl
  expected := rfl
  boundary := ⟨0, by rw [Nat.zero_mul, Nat.zero_min]; rfl⟩
  stream := rfl
  acks := fun a member => absurd member (List.not_mem_nil)
  una := Nat.zero_le size
  told := fun complete => absurd complete (Nat.ne_of_lt positive)

theorem packetAt_next {m : MsgStatus} (sized : m.size = size)
    (below : m.sndNxt < size) (fits : m.sndNxt + g.mtu < Word32.size) :
    (RdmaHw.packetAt g m (Word32.trunc m.sndNxt)).seq = m.sndNxt ∧
      (RdmaHw.packetAt g m (Word32.trunc m.sndNxt)).payload = min g.mtu (size - m.sndNxt) := by
  have same : Word32.trunc m.sndNxt = m.sndNxt := Word32.trunc_eq _ (by omega)
  have whole : Word32.add m.sndNxt g.mtu = m.sndNxt + g.mtu := Word32.add_eq _ _ fits
  simp only [RdmaHw.packetAt, same, whole, sized, decide_eq_true_eq, true_and]
  by_cases last : m.sndNxt + g.mtu ≥ size
  · rw [if_pos last]
    unfold Word32.size at fits
    unfold Word32.trunc sub64
    omega
  · rw [if_neg last]
    omega

theorem AcksFit.small (fit : AcksFit g size) (back : GoesBackN g) : size < Word32.size :=
  Nat.lt_of_le_of_lt (packetCount_le back.mtu) fit.words

theorem InOrder.head (order : InOrder g size s) (small : size < Word32.size) {p : DataPacket}
    {rest : List DataPacket} (head : s.wire = p :: rest) :
    p.seq = s.rx.receiverNextExpectedSeq ∧
      Word32.add s.rx.receiverNextExpectedSeq p.payload = s.bytes + p.payload ∧
      Stream g size (s.bytes + p.payload) rest s.sender.sndNxt ∧
      ∃ k, s.bytes = k * g.mtu ∧ k * g.mtu < size ∧
        s.bytes + p.payload = min ((k + 1) * g.mtu) size := by
  have stream := order.stream
  rw [head] at stream
  obtain ⟨seq, payload, below, later⟩ := stream
  obtain ⟨k, boundary⟩ := order.boundary
  refine ⟨seq.trans order.expected.symm, ?_, later, k, by omega, by omega, ?_⟩
  · rw [order.expected]
    exact Word32.add_eq _ _ (by omega)
  · rw [Nat.succ_mul]
    omega

theorem InOrder.acksRight (order : InOrder g size s) (back : GoesBackN g) (fit : AcksFit g size) :
    AcksRight g size s := by
  have small := fit.small back
  have first : size ≤ packetCount g size * g.mtu := packetCount_le back.mtu
  refine ⟨?_, ?_, ?_⟩
  · intro p rest now head
    obtain ⟨expected, exactly, -, k, start, below, after⟩ := order.head small head
    rw [receiveUdpOrTrap_ok expected, exactly, after, Nat.succ_mul]
    by_cases milestone : g.ackInterval ≤ min g.mtu size
    · left
      omega
    · exact .inr (fit.chunked (by omega))
  · intro p rest now result head success
    obtain ⟨expected, exactly, -, k, start, below, after⟩ := order.head small head
    rw [receiveUdpOrTrap_eq success, (receiveUdp_acks back.flow expected).1, exactly, after]
    unfold AckDue
    by_cases milestone : g.ackInterval ≤ min ((k + 1) * g.mtu) size
    · refine ⟨fun _ => ?_, fun _ => .inl milestone⟩
      by_cases last : size ≤ (k + 1) * g.mtu
      · exact .inr (.inr (Nat.min_eq_right last))
      · rw [Nat.min_eq_left (by omega)] at milestone ⊢
        rcases fit.long (k + 1) milestone (by omega) with crossing | multiple
        · left
          have room : g.mtu ≤ (k + 1) * g.mtu := Nat.le_mul_of_pos_left _ (Nat.succ_pos k)
          have reached := (crosses_iff back.ackInterval room).mpr crossing
          have before : (k + 1) * g.mtu - g.mtu = s.bytes := by
            rw [Nat.succ_mul, Nat.add_sub_cancel, start]
          rwa [before] at reached
        · exact .inr (.inl multiple)
    · have below_first : min g.mtu size < g.ackInterval := by
        rw [Nat.succ_mul] at milestone
        omega
      have chunked := fit.chunked below_first
      constructor
      · intro acked
        exact .inr (.inl ⟨chunked, acked.resolve_left milestone⟩)
      · intro due
        right
        rcases due with ⟨j, above, reached⟩ | multiple | complete
        · have some : 0 < j := by
            by_contra none
            rw [Nat.eq_zero_of_not_pos none, Nat.zero_mul] at above
            omega
          have least : g.ackInterval ≤ j * g.ackInterval := Nat.le_mul_of_pos_left _ some
          omega
        · exact multiple.2
        · rw [complete]
          exact fit.short (by omega)
  · intro sent arrived answered
    have stream := order.stream
    rw [arrived] at stream
    have whole : s.bytes = size := by
      have finish : s.bytes = s.sender.sndNxt := stream
      rw [finish, order.position, sent]
      exact Nat.min_eq_right first
    rcases order.told whole with done | ⟨a, member, _⟩
    · exact done
    · rw [answered] at member
      exact absurd member List.not_mem_nil

/-- An acknowledgement of go-back-N raises `snd_una` and leaves the rest. -/
theorem heard_flow (back : GoesBackN g) {a : AckPacket} (ack : a.nack = false) (m : MsgStatus) :
    (m.heard g a).size = m.size ∧ (m.heard g a).sndNxt = m.sndNxt ∧
      (m.heard g a).sndUna = max m.sndUna a.seq := by
  obtain ⟨size, sndNxt, sndUna⟩ := hear_flow back.flow a m
  have some : g.ackInterval ≠ 0 := Nat.ne_of_gt back.ackInterval
  rw [if_neg some, ackSeq, back.forward] at sndUna
  unfold MsgStatus.heard
  simp only [ack, Bool.false_and, Bool.false_eq_true, if_false]
  exact ⟨size, sndNxt, sndUna⟩

theorem advance_same (m : MsgStatus) (p : DataPacket) :
    (RdmaHw.advance m p).size = m.size ∧ (RdmaHw.advance m p).sndUna = m.sndUna := by
  unfold RdmaHw.advance
  split
  · exact ⟨rfl, rfl⟩
  · exact ⟨rfl, rfl⟩

theorem InOrder.sends (order : InOrder g size s) (back : GoesBackN g) (fit : AcksFit g size)
    (left : 0 < s.sender.getBytesLeft g) :
    InOrder g size
      { s with
        sender := RdmaHw.advance s.sender
          (RdmaHw.packetAt g s.sender (Word32.trunc s.sender.sndNxt))
        wire := s.wire ++ [RdmaHw.packetAt g s.sender (Word32.trunc s.sender.sndNxt)]
        sent := s.sent + 1 } := by
  have small := fit.small back
  have below : s.sender.sndNxt < size := by
    rw [MsgStatus.getBytesLeft_flow back.flow, order.sized] at left
    omega
  have position : s.sender.sndNxt = s.sent * g.mtu := by
    have whole := order.position
    omega
  have before : s.sent < packetCount g size := by
    by_contra above
    have whole : size ≤ packetCount g size * g.mtu := packetCount_le back.mtu
    have more : packetCount g size * g.mtu ≤ s.sent * g.mtu := Nat.mul_le_mul_right _ (by omega)
    omega
  have fits : s.sender.sndNxt + g.mtu < Word32.size := by
    have bound : (s.sent + 1) * g.mtu ≤ packetCount g size * g.mtu :=
      Nat.mul_le_mul_right _ before
    have words := fit.words
    rw [Nat.succ_mul] at bound
    omega
  obtain ⟨seq, payload⟩ := packetAt_next order.sized below fits
  have moved := advance_sndNxt back.mtu_lt (order.sized ▸ below)
    (show s.sender.size < 18446744073709551616 by
      rw [order.sized]
      unfold Word32.size at small
      omega)
  rw [if_neg (by omega), if_pos fits, order.sized] at moved
  have same := advance_same s.sender
  refine ⟨(same _).1.trans order.sized, ?_, order.expected, order.boundary, ?_, order.acks, ?_, ?_⟩
  · rw [moved, Nat.succ_mul, position]
  · have longer := order.stream.snoc seq payload below
    have finish : s.sender.sndNxt +
        (RdmaHw.packetAt g s.sender (Word32.trunc s.sender.sndNxt)).payload =
        min (s.sender.sndNxt + g.mtu) size := by
      rw [payload]
      omega
    rw [finish, ← moved] at longer
    exact longer
  · exact (same _).2 ▸ order.una
  · intro whole
    rw [(same _).2]
    exact order.told whole

theorem InOrder.delivers (order : InOrder g size s) (back : GoesBackN g) (fit : AcksFit g size)
    {p : DataPacket} {rest : List DataPacket} {now : Nat} {ack : Option AckPacket}
    {rx : RdmaRxQueuePair} (head : s.wire = p :: rest)
    (received : RdmaHw.receiveUdpOrTrap g now s.rx p = .ok (ack, rx)) :
    InOrder g size
      { s with
        rx := rx
        wire := rest
        acks := s.acks ++ ack.toList
        bytes := s.bytes + p.payload } := by
  obtain ⟨expected, exactly, stream, k, start, below, after⟩ :=
    order.head (fit.small back) head
  have whole := receiveUdpOrTrap_eq received
  have moved : rx.receiverNextExpectedSeq = s.bytes + p.payload := by
    have next := @receiveUdp_next g now s.rx back.forward p
    rw [← whole, if_pos expected, exactly] at next
    exact next
  have answers : ∀ a ∈ ack, a.nack = false ∧ a.seq = s.bytes + p.payload := by
    intro a sent
    have told : (RdmaHw.receiveUdp g now s.rx p).1 = some a := by
      rw [← whole]
      exact sent
    refine ⟨(receiveUdp_acks back.flow expected).2 a told, ?_⟩
    rw [receiveUdp_seq back.flow told, ← whole]
    exact moved
  refine ⟨order.sized, order.position, moved, ⟨k + 1, after⟩, stream, ?_, order.una, ?_⟩
  · intro a member
    rcases List.mem_append.mp member with earlier | here
    · exact order.acks a earlier
    · obtain ⟨ack, seq⟩ := answers a (Option.mem_toList.mp here)
      exact ⟨ack, by omega⟩
  · intro complete
    right
    have due := ((order.acksRight back fit).due p rest now (ack, rx) head received).mpr
      (.inr (.inr complete))
    obtain ⟨a, sent⟩ := Option.isSome_iff_exists.mp due
    refine ⟨a, List.mem_append_right _ (Option.mem_toList.mpr sent), ?_⟩
    exact (answers a sent).2.trans complete

theorem InOrder.hears (order : InOrder g size s) (back : GoesBackN g) {a : AckPacket}
    {rest : List AckPacket} (head : s.acks = a :: rest) :
    InOrder g size { s with sender := s.sender.heard g a, acks := rest } := by
  have member : ∀ b, b ∈ s.acks ↔ b = a ∨ b ∈ rest := by
    intro b
    rw [head, List.mem_cons]
  obtain ⟨ack, bound⟩ := order.acks a ((member a).mpr (.inl rfl))
  obtain ⟨sized, sndNxt, sndUna⟩ := heard_flow back ack s.sender
  refine ⟨sized.trans order.sized, sndNxt.trans order.position, order.expected, order.boundary,
    ?_, fun b inside => order.acks b ((member b).mpr (.inr inside)), ?_, ?_⟩
  · rw [sndNxt]
    exact order.stream
  · rw [sndUna]
    exact Nat.max_le.mpr ⟨order.una, bound⟩
  · intro complete
    have una := order.una
    rw [sndUna]
    rcases order.told complete with done | ⟨b, inside, last⟩
    · left
      omega
    · rcases (member b).mp inside with rfl | later
      · left
        omega
      · exact .inr ⟨b, later, last⟩

theorem InOrder.step {event : OrderedEvent} (order : InOrder g size s) (back : GoesBackN g)
    (fit : AcksFit g size) (step : OrderedFlow.Step g s event next) : InOrder g size next := by
  cases step with
  | send left chosen =>
      rw [chooseSeq_flow back.flow] at chosen
      obtain ⟨rfl, rfl⟩ := Prod.mk.inj (Except.ok.inj chosen)
      exact order.sends back fit left
  | deliver head received => exact order.delivers back fit head received
  | ack head => exact order.hears back head

end InOrder

section Rounds

variable {g : RdmaSettings} {size flowId sport k : Nat} {s : OrderedFlow}

/-- The flow after `k` rounds, in each of which one packet was sent, delivered and acknowledged.
Until the numbers need more than 32 bits they are exact. -/
structure Round (g : RdmaSettings) (size k : Nat) (s : OrderedFlow) : Prop where
  sent : s.sent = k
  wire : s.wire = []
  acks : s.acks = []
  sized : s.sender.size = size
  sndNxt_le : s.sender.sndNxt ≤ k * g.mtu
  sndUna_le : s.sender.sndUna ≤ k * g.mtu
  sndUna_lt : s.sender.sndUna < Word32.size
  next_le : s.rx.receiverNextExpectedSeq ≤ k * g.mtu
  next_lt : s.rx.receiverNextExpectedSeq < Word32.size
  exact_small : k * g.mtu < size → k * g.mtu < Word32.size →
    s.sender.sndNxt = k * g.mtu ∧ s.rx.receiverNextExpectedSeq = k * g.mtu ∧ s.bytes = k * g.mtu
  wrapped : size ≤ k * g.mtu → Word32.size ≤ k * g.mtu → s.sender.sndUna < size

theorem Round.create (positive : 0 < size) :
    Round g size 0 (OrderedFlow.create g size flowId sport) where
  sent := rfl
  wire := rfl
  acks := rfl
  sized := rfl
  sndNxt_le := Nat.zero_le _
  sndUna_le := Nat.zero_le _
  sndUna_lt := show 0 < Word32.size by decide
  next_le := Nat.zero_le _
  next_lt := show 0 < Word32.size by decide
  exact_small := fun _ _ => by
    rw [Nat.zero_mul]
    exact ⟨rfl, rfl, rfl⟩
  wrapped := fun complete => by
    rw [Nat.zero_mul] at complete
    omega

def OrderedFlow.nextPacket (g : RdmaSettings) (s : OrderedFlow) : DataPacket :=
  RdmaHw.packetAt g s.sender (Word32.trunc s.sender.sndNxt)

def OrderedFlow.afterSend (g : RdmaSettings) (s : OrderedFlow) : OrderedFlow :=
  { s with
    sender := RdmaHw.advance s.sender (s.nextPacket g)
    wire := s.wire ++ [s.nextPacket g]
    sent := s.sent + 1 }

theorem Round.send_step (round : Round g size k s) (back : GoesBackN g) (below : k * g.mtu < size) :
    OrderedFlow.Step g s .send (s.afterSend g) := by
  have less := round.sndNxt_le
  refine .send ?_ (chooseSeq_flow back.flow s.sender)
  rw [MsgStatus.getBytesLeft_flow back.flow, round.sized]
  omega

theorem Round.advanced (round : Round g size k s) (back : GoesBackN g)
    (small : size < 18446744073709551616) (below : k * g.mtu < size) :
    (s.afterSend g).sender.size = size ∧ (s.afterSend g).sender.sndUna = s.sender.sndUna ∧
      (s.afterSend g).sender.sndNxt ≤ (k + 1) * g.mtu ∧ (s.nextPacket g).payload ≤ g.mtu := by
  have less := round.sndNxt_le
  have sized := round.sized
  have moved := advance_sndNxt back.mtu_lt (show s.sender.sndNxt < s.sender.size by omega)
    (sized ▸ small)
  obtain ⟨size, una⟩ := advance_same s.sender (s.nextPacket g)
  refine ⟨size.trans sized, una, ?_, ?_⟩
  · have position : (s.afterSend g).sender.sndNxt = _ := moved
    rw [position, Nat.succ_mul]
    split
    · omega
    · split
      · omega
      · omega
  · apply packetAt_payload_le
    have cut := Word32.trunc_le s.sender.sndNxt
    omega

theorem Round.in_order (round : Round g size k s) (back : GoesBackN g) (below : k * g.mtu < size)
    (fits : k * g.mtu < Word32.size) :
    (s.nextPacket g).seq = s.rx.receiverNextExpectedSeq ∧
      (k * g.mtu + g.mtu < Word32.size →
        (s.nextPacket g).payload = min g.mtu (size - k * g.mtu)) ∧
      (Word32.size ≤ k * g.mtu + g.mtu → (s.nextPacket g).payload = g.mtu) := by
  obtain ⟨position, expected, bytes⟩ := round.exact_small below fits
  have same : Word32.trunc s.sender.sndNxt = s.sender.sndNxt := Word32.trunc_eq _ (by omega)
  refine ⟨?_, fun room => ?_, fun full => ?_⟩
  · rw [expected, ← position]
    exact same
  · rw [← position]
    exact (packetAt_next round.sized (by omega) (by omega)).2
  · have wraps : Word32.add s.sender.sndNxt g.mtu < size := by
      have mtu := back.mtu_lt
      unfold Word32.size at full mtu
      unfold Word32.add
      omega
    unfold OrderedFlow.nextPacket
    simp only [RdmaHw.packetAt, same, round.sized, ge_iff_le, decide_eq_true_eq]
    rw [if_neg (by omega)]

def OrderedFlow.afterAnswer (g : RdmaSettings) (s : OrderedFlow) (p : DataPacket)
    (ack : Option AckPacket) (rx : RdmaRxQueuePair) : OrderedFlow :=
  { s with
    sender := ack.elim s.sender fun a => s.sender.heard g a
    rx := rx
    wire := []
    acks := []
    bytes := s.bytes + p.payload }

theorem answer_run {p : DataPacket} {ack : Option AckPacket} {rx : RdmaRxQueuePair}
    (wire : s.wire = [p]) (acks : s.acks = [])
    (received : RdmaHw.receiveUdpOrTrap g 0 s.rx p = .ok (ack, rx)) :
    ∃ events, Run (OrderedFlow.Step g) s events (s.afterAnswer g p ack rx) := by
  have delivered := Run.single (OrderedFlow.Step.deliver wire received)
  cases ack with
  | none =>
      rw [acks] at delivered
      exact ⟨_, delivered⟩
  | some a =>
      rw [acks] at delivered
      exact ⟨_, delivered.snoc (OrderedFlow.Step.ack rfl)⟩

theorem heard_bounds (back : GoesBackN g) (a : AckPacket) (m : MsgStatus) :
    (m.heard g a).size = m.size ∧ (m.heard g a).sndUna = max m.sndUna a.seq ∧
      ((m.heard g a).sndNxt = m.sndNxt ∨ (m.heard g a).sndNxt = max m.sndUna a.seq) := by
  obtain ⟨size, sndNxt, sndUna⟩ := hear_flow back.flow a m
  have some : g.ackInterval ≠ 0 := Nat.ne_of_gt back.ackInterval
  rw [if_neg some, ackSeq, back.forward] at sndUna
  unfold MsgStatus.heard
  split
  · exact ⟨size, sndUna, .inr sndUna⟩
  · exact ⟨size, sndUna, .inl sndNxt⟩

/-- What an answer from a receiver at `position` can do to the sender. -/
theorem elim_bounds (back : GoesBackN g) {m : MsgStatus} {ack : Option AckPacket} {position : Nat}
    (named : ∀ a ∈ ack, a.seq = position) :
    (ack.elim m fun a => m.heard g a).size = m.size ∧
      (ack.elim m fun a => m.heard g a).sndUna ≤ max m.sndUna position ∧
      (ack.elim m fun a => m.heard g a).sndNxt ≤ max m.sndNxt (max m.sndUna position) := by
  cases ack with
  | none => exact ⟨rfl, Nat.le_max_left _ _, Nat.le_max_left _ _⟩
  | some a =>
      obtain ⟨size, una, moved⟩ := heard_bounds back a m
      have same := named a rfl
      simp only [Option.elim_some]
      refine ⟨size, ?_, ?_⟩
      · rw [una, same]
      · rcases moved with moved | moved
        · rw [moved]
          exact Nat.le_max_left _ _
        · rw [moved, same]
          exact Nat.le_max_right _ _

theorem received_position (back : GoesBackN g) {rx after : RdmaRxQueuePair} {p : DataPacket}
    {ack : Option AckPacket} (received : RdmaHw.receiveUdpOrTrap g 0 rx p = .ok (ack, after)) :
    after.receiverNextExpectedSeq =
        (if p.seq = rx.receiverNextExpectedSeq then Word32.add rx.receiverNextExpectedSeq p.payload
          else rx.receiverNextExpectedSeq) ∧
      ∀ a ∈ ack, a.seq = after.receiverNextExpectedSeq ∧
        (p.seq = rx.receiverNextExpectedSeq → a.nack = false) := by
  have whole := receiveUdpOrTrap_eq received
  have next := @receiveUdp_next g 0 rx back.forward p
  rw [← whole] at next
  refine ⟨next, fun a sent => ?_⟩
  have told : (RdmaHw.receiveUdp g 0 rx p).1 = some a := by
    rw [← whole]
    exact sent
  have seq := receiveUdp_seq back.flow told
  rw [← whole] at seq
  exact ⟨seq, fun expected => (receiveUdp_acks back.flow expected).2 a told⟩

theorem Round.answered (round : Round g size k s) (back : GoesBackN g)
    (small : size < 18446744073709551616) (below : k * g.mtu < size)
    {ack : Option AckPacket} {rx : RdmaRxQueuePair}
    (received : RdmaHw.receiveUdpOrTrap g 0 s.rx (s.nextPacket g) = .ok (ack, rx)) :
    Round g size (k + 1) ((s.afterSend g).afterAnswer g (s.nextPacket g) ack rx) := by
  obtain ⟨sized, una, sndNxt, payload⟩ := round.advanced back small below
  obtain ⟨moved, answers⟩ := received_position back received
  obtain ⟨size', una', sndNxt'⟩ := @elim_bounds g back (s.afterSend g).sender ack _
    fun a sent => (answers a sent).1
  have earlierUna := round.sndUna_le
  have earlierLt := round.sndUna_lt
  have earlierNext := round.next_le
  have step : (k + 1) * g.mtu = k * g.mtu + g.mtu := Nat.succ_mul k g.mtu
  have sum : Word32.add s.rx.receiverNextExpectedSeq (s.nextPacket g).payload ≤
      s.rx.receiverNextExpectedSeq + (s.nextPacket g).payload := Nat.mod_le _ _
  have nextLe : rx.receiverNextExpectedSeq ≤ (k + 1) * g.mtu := by
    rw [moved]
    split
    · omega
    · omega
  have nextLt : rx.receiverNextExpectedSeq < Word32.size := by
    rw [moved]
    split
    · exact Word32.add_lt _ _
    · exact round.next_lt
  refine ⟨by rw [OrderedFlow.afterAnswer, OrderedFlow.afterSend, round.sent], rfl, rfl,
    size'.trans sized, ?_, ?_, ?_, nextLe, nextLt, ?_, ?_⟩
  · exact Nat.le_trans sndNxt' (by omega)
  · exact Nat.le_trans una' (by omega)
  · exact Nat.lt_of_le_of_lt una' (by omega)
  · intro inside fits
    obtain ⟨position, expected, bytes⟩ := round.exact_small below (by omega)
    obtain ⟨inOrder, whole, -⟩ := round.in_order back below (by omega)
    have amount := whole (by omega)
    have exactly : Word32.add s.rx.receiverNextExpectedSeq (s.nextPacket g).payload =
        (k + 1) * g.mtu := by
      rw [Word32.add_eq _ _ (by omega)]
      omega
    rw [if_pos inOrder, exactly] at moved
    refine ⟨?_, moved, ?_⟩
    · have advanced := advance_sndNxt back.mtu_lt
        (show s.sender.sndNxt < s.sender.size by rw [round.sized]; omega) (round.sized.symm ▸ small)
      rw [if_neg (by omega), if_pos (by omega), round.sized] at advanced
      have final : (ack.elim (s.afterSend g).sender fun a =>
          (s.afterSend g).sender.heard g a).sndNxt = (s.afterSend g).sender.sndNxt := by
        cases ack with
        | none => rfl
        | some a => exact (heard_flow back ((answers a rfl).2 inOrder) _).2.1
      have here : (s.afterSend g).sender.sndNxt = min (s.sender.sndNxt + g.mtu) size := advanced
      exact final.trans (by omega)
    · have total : s.bytes + (s.nextPacket g).payload = (k + 1) * g.mtu := by omega
      exact total
  · intro complete large
    have ahead : rx.receiverNextExpectedSeq < size := by
      by_cases fits : k * g.mtu < Word32.size
      · obtain ⟨position, expected, bytes⟩ := round.exact_small below fits
        obtain ⟨inOrder, -, whole⟩ := round.in_order back below fits
        rw [moved, if_pos inOrder, whole (by omega), expected]
        have mtu := back.mtu_lt
        unfold Word32.size at mtu large fits
        unfold Word32.add
        omega
      · omega
    exact Nat.lt_of_le_of_lt una' (by omega)

theorem round_reached (back : GoesBackN g) (positive : 0 < size)
    (small : size < 18446744073709551616)
    (right : ∀ events s, Run (OrderedFlow.Step g) (OrderedFlow.create g size flowId sport) events s →
      AcksRight g size s) (k : Nat) (within : k ≤ packetCount g size) :
    ∃ events s, Run (OrderedFlow.Step g) (OrderedFlow.create g size flowId sport) events s ∧
      Round g size k s := by
  induction k with
  | zero => exact ⟨[], _, .nil, Round.create positive⟩
  | succ k ih =>
      obtain ⟨events, s, run, round⟩ := ih (by omega)
      have below : k * g.mtu < size := lt_packetCount back.mtu (by omega)
      have sent := run.snoc (round.send_step back below)
      have wire : (s.afterSend g).wire = [s.nextPacket g] := by
        rw [OrderedFlow.afterSend, round.wire]
        rfl
      obtain ⟨⟨ack, rx⟩, received⟩ := (right _ _ sent).noTrap _ _ 0 wire
      obtain ⟨answers, later⟩ := answer_run wire round.acks received
      exact ⟨_, _, sent.append later, round.answered back small below received⟩

theorem packet_reached (back : GoesBackN g) (positive : 0 < size)
    (small : size < 18446744073709551616)
    (right : ∀ events s, Run (OrderedFlow.Step g) (OrderedFlow.create g size flowId sport) events s →
      AcksRight g size s) (below : k * g.mtu < size) (fits : k * g.mtu + g.mtu < Word32.size) :
    ∃ s p, AcksRight g size s ∧ s.wire = [p] ∧ p.seq = s.rx.receiverNextExpectedSeq ∧
      s.bytes = k * g.mtu ∧ p.payload = min g.mtu (size - k * g.mtu) ∧
      Word32.add s.rx.receiverNextExpectedSeq p.payload = min (k * g.mtu + g.mtu) size := by
  have within : k ≤ packetCount g size := by
    have whole : size ≤ packetCount g size * g.mtu := packetCount_le back.mtu
    by_contra above
    have more : packetCount g size * g.mtu ≤ k * g.mtu := Nat.mul_le_mul_right _ (by omega)
    omega
  obtain ⟨events, s, run, round⟩ := round_reached back positive small right k within
  obtain ⟨position, expected, bytes⟩ := round.exact_small below (by omega)
  obtain ⟨inOrder, whole, -⟩ := round.in_order back below (by omega)
  have sent := run.snoc (round.send_step back below)
  refine ⟨s.afterSend g, s.nextPacket g, right _ _ sent, ?_, inOrder, bytes, whole fits, ?_⟩
  · rw [OrderedFlow.afterSend, round.wire]
    rfl
  · have amount := whole fits
    have same : (s.afterSend g).rx = s.rx := rfl
    rw [same, expected, Word32.add_eq _ _ (by omega)]
    omega

theorem acksFit_of_right (back : GoesBackN g) (positive : 0 < size)
    (small : size < 18446744073709551616)
    (right : ∀ events s, Run (OrderedFlow.Step g) (OrderedFlow.create g size flowId sport) events s →
      AcksRight g size s) : AcksFit g size := by
  have words : packetCount g size * g.mtu < Word32.size := by
    by_contra large
    obtain ⟨events, s, run, round⟩ := round_reached back positive small right _ (Nat.le_refl _)
    have finished := (right events s run).finishes round.sent round.wire round.acks
    have unfinished := round.wrapped (packetCount_le back.mtu) (by omega)
    omega
  have whole : size ≤ packetCount g size * g.mtu := packetCount_le back.mtu
  have last : ∀ k, k * g.mtu < size → k * g.mtu + g.mtu < Word32.size := by
    intro k below
    have less : k < packetCount g size := by
      by_contra above
      have more : packetCount g size * g.mtu ≤ k * g.mtu := Nat.mul_le_mul_right _ (by omega)
      omega
    have bound : (k + 1) * g.mtu ≤ packetCount g size * g.mtu := Nat.mul_le_mul_right _ less
    rw [Nat.succ_mul] at bound
    omega
  have chunked : min g.mtu size < g.ackInterval → 0 < g.chunk := by
    intro early
    have start : 0 * g.mtu < size := by omega
    obtain ⟨s, p, here, wire, expected, -, -, exactly⟩ :=
      packet_reached back positive small right start (last 0 start)
    have received := (receiveUdpOrTrap_ok expected).mp (here.noTrap p [] 0 wire)
    rw [exactly, Nat.zero_mul, Nat.zero_add] at received
    omega
  refine ⟨words, chunked, fun short => ?_, fun k milestone below => ?_⟩
  · -- the last packet completes the flow below the first milestone
    have count := packetCount_pos back.mtu positive
    have start := lt_packetCount back.mtu (show packetCount g size - 1 < packetCount g size by omega)
    obtain ⟨s, p, here, wire, expected, bytes, payload, exactly⟩ :=
      packet_reached back positive small right start (last _ start)
    have finish : (packetCount g size - 1) * g.mtu + g.mtu = packetCount g size * g.mtu := by
      rw [← Nat.succ_mul]
      congr 1
      omega
    obtain ⟨result, received⟩ := here.noTrap p [] 0 wire
    have due := (here.due p [] 0 result wire received).mpr (.inr (.inr (by omega)))
    rw [receiveUdpOrTrap_eq received, (receiveUdp_acks back.flow expected).1, exactly, finish,
      Nat.min_eq_right whole] at due
    exact due.resolve_left (by omega)
  · have some : 0 < k := by
      by_contra none
      rw [Nat.eq_zero_of_not_pos none, Nat.zero_mul] at milestone
      have interval := back.ackInterval
      omega
    have finish : (k - 1) * g.mtu + g.mtu = k * g.mtu := by
      rw [← Nat.succ_mul]
      congr 1
      omega
    have mtu := back.mtu
    have start : (k - 1) * g.mtu < size := by omega
    obtain ⟨s, p, here, wire, expected, bytes, payload, exactly⟩ :=
      packet_reached back positive small right start (last _ start)
    obtain ⟨result, received⟩ := here.noTrap p [] 0 wire
    have due := here.due p [] 0 result wire received
    rw [receiveUdpOrTrap_eq received, (receiveUdp_acks back.flow expected).1, exactly, finish,
      Nat.min_eq_left (by omega)] at due
    have after : s.bytes + p.payload = k * g.mtu := by omega
    have before : s.bytes = k * g.mtu - g.mtu := by omega
    rw [after, before] at due
    rcases due.mp (.inl milestone) with crossing | multiple | complete
    · left
      exact (crosses_iff back.ackInterval (Nat.le_mul_of_pos_left _ some)).mp crossing
    · exact .inr multiple
    · omega

end Rounds

/-- The parameters are honoured in every run exactly when they fit. -/
theorem acks_honour_parameters (g : RdmaSettings) (back : GoesBackN g) (size flowId sport : Nat)
    (positive : 0 < size) (small : size < 18446744073709551616) :
    (∀ events s, Run (OrderedFlow.Step g) (OrderedFlow.create g size flowId sport) events s →
      AcksRight g size s) ↔ AcksFit g size := by
  constructor
  · exact acksFit_of_right back positive small
  · intro fit events s run
    have order := run.invariant (InOrder g size) (InOrder.create positive flowId sport)
      fun _ _ _ order step => order.step back fit step
    exact order.acksRight back fit

/-- An acknowledgement at 4000 bytes and for each multiple of 2000. -/
def chunkedAcks : RdmaSettings := { RdmaFlow.singlePath with ackInterval := 4000, chunk := 2000 }

theorem acks_honour_parameters_two_packets : GoesBackN chunkedAcks ∧ ∀ events s,
    Run (OrderedFlow.Step chunkedAcks) (OrderedFlow.create chunkedAcks 2000 0 0) events s →
      AcksRight chunkedAcks 2000 s := by
  have back : GoesBackN chunkedAcks := ⟨rfl, rfl, by decide, by decide, by decide⟩
  refine ⟨back, ?_⟩
  refine (acks_honour_parameters chunkedAcks back 2000 0 0 (by decide) (by decide)).mpr ?_
  refine ⟨by decide, fun _ => by decide, fun _ => by decide, fun k milestone below => ?_⟩
  have interval : chunkedAcks.ackInterval = 4000 := rfl
  omega

/-- An acknowledgement at 4000 bytes, with chunks disabled: the first packet divides by zero. -/
def disabledChunks : RdmaSettings := { RdmaFlow.singlePath with ackInterval := 4000, chunk := 0 }

theorem disabled_chunk_divides_by_zero : ¬ ∀ (g : RdmaSettings), GoesBackN g →
    ∀ size flowId sport, 0 < size → size < 18446744073709551616 → ∀ events s,
      Run (OrderedFlow.Step g) (OrderedFlow.create g size flowId sport) events s →
        AcksRight g size s := by
  intro claim
  have back : GoesBackN disabledChunks := ⟨rfl, rfl, by decide, by decide, by decide⟩
  have fit : AcksFit disabledChunks 8000 := acksFit_of_right back (by decide) (by decide)
    (claim disabledChunks back 8000 0 0 (by decide) (by decide))
  exact absurd (fit.chunked (by decide)) (by decide)

end Floodgate
