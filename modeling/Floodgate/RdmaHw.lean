import Floodgate.RdmaQueuePair

/-! What a host does to send a packet, and when it receives data or an acknowledgement. -/

namespace Floodgate

open Outcome

/-- A data packet. The tag of the message number is there in `qp_mode` only. -/
structure DataPacket where
  seq : Nat
  payload : Nat
  msgSeq : Nat
  flowId : Nat
  sport : Nat
  last : Bool
  deriving DecidableEq

structure AckPacket where
  seq : Nat
  nack : Bool
  msgSeq : Nat
  last : Bool
  deriving DecidableEq

structure RdmaRxQueuePair where
  receiverNextExpectedSeq : Nat
  nackTimer : Nat
  milestoneRx : Nat
  lastNACK : Nat
  receivedLastPsnPacket : Bool
  receivedPsn : Finset Nat

namespace RdmaRxQueuePair

def init : RdmaRxQueuePair := ⟨0, 0, 0, 0, false, ∅⟩

def inSequence (payload : Nat) : Nat → List Nat → Bool
  | _, [] => true
  | expected, psn :: rest =>
      decide (expected = psn) && inSequence payload (Word32.add expected payload) rest

def receivedAll (rx : RdmaRxQueuePair) (payload : Nat) : Bool :=
  rx.receivedLastPsnPacket && inSequence payload 0 (rx.receivedPsn.sort (· ≤ ·))

end RdmaRxQueuePair

inductive Completion where
  | none
  | qp
  | msg (id : Nat)
  deriving DecidableEq

def ackSeq (g : RdmaSettings) (a : AckPacket) : Nat :=
  if g.backto0 then a.seq / g.chunk * g.chunk else a.seq

namespace RdmaHw

variable (g : RdmaSettings) (now : Nat)

/-- `ReceiverCheckSeq`: 1 asks for an ACK and 2 for a NACK. -/
def receiverCheckSeq (rx : RdmaRxQueuePair) (seq size : Nat) : Nat × RdmaRxQueuePair :=
  let expected := rx.receiverNextExpectedSeq
  if seq = expected then
    let next := Word32.add expected size
    if next ≥ rx.milestoneRx then
      (1, { rx with
        receiverNextExpectedSeq := next
        milestoneRx := Word32.add rx.milestoneRx g.ackInterval })
    else if next % g.chunk = 0 then (1, { rx with receiverNextExpectedSeq := next })
    else (5, { rx with receiverNextExpectedSeq := next })
  else if seq > expected then
    if now ≥ rx.nackTimer || decide (rx.lastNACK ≠ expected) then
      (2, { rx with
        nackTimer := now + g.nackInterval * 1000
        lastNACK := expected
        receiverNextExpectedSeq := if g.backto0 then expected / g.chunk * g.chunk else expected })
    else (4, rx)
  else (3, rx)

def receiveUdp (rx : RdmaRxQueuePair) (p : DataPacket) : Option AckPacket × RdmaRxQueuePair :=
  let checked := receiverCheckSeq g now { rx with milestoneRx := g.ackInterval } p.seq p.payload
  let received := { checked.2 with
    receivedPsn := insert p.seq checked.2.receivedPsn
    receivedLastPsnPacket := checked.2.receivedLastPsnPacket || p.last }
  let x := if g.packetLevelRouting then 1 else checked.1
  if x = 1 || x = 2 then
    (some
      { seq := if g.packetLevelRouting then p.seq else received.receiverNextExpectedSeq
        nack := decide (x = 2)
        msgSeq := p.msgSeq
        last := received.receivedAll g.packetPayload }, received)
  else (none, received)

def chooseSeq (m : MsgStatus) : Except RdmaAssertion (Nat × MsgStatus) :=
  let seq := Word32.trunc m.sndNxt
  if !g.packetLevelRouting then .ok (seq, m)
  else if seq ≥ m.size && m.timeouted && decide (m.timeoutPsn.card > 0) then
    let resent := (m.timeoutPsn.sort (· ≤ ·)).headD 0
    if resent < m.size then .ok (resent, { m with timeoutPsn := m.timeoutPsn.erase resent })
    else .error .timeoutPsnBelowSize
  else .ok (seq, { m with sentPsn := insert seq m.sentPsn })

def packetAt (m : MsgStatus) (seq : Nat) : DataPacket :=
  let isLast := decide (Word32.add seq g.mtu ≥ m.size)
  { seq := seq
    payload := if isLast then Word32.trunc (sub64 m.size seq) else g.mtu
    msgSeq := m.msgSeq
    flowId := m.flowId
    sport := m.sport
    last := isLast }

/-- `snd_nxt` after the packet, which moves unless the packet is sent again. -/
def advance (m : MsgStatus) (p : DataPacket) : MsgStatus :=
  if p.seq = m.sndNxt then
    { m with sndNxt := (m.sndNxt + p.payload) % 18446744073709551616 }
  else m

/-- The retransmission timer, after a packet or an acknowledgement of the message `msgSeq`. -/
def resetTimer (q : RdmaQueuePair) (msgSeq : Nat) : Except RdmaAssertion RdmaQueuePair :=
  if g.rtoUs = 0 then .ok q
  else if g.qpMode then q.resetMSGRTOTime g now msgSeq
  else if q.getBytesLeft g = 0 then do
    let onTheFly ← q.getOnTheFly g
    if onTheFly > 0 then .ok (q.resetRTOEvent g now) else .ok q
  else .ok q

def getNxtPacket (q : RdmaQueuePair) : Except RdmaAssertion (DataPacket × RdmaQueuePair) := do
  let chosen ← chooseSeq g q.current
  let p := packetAt g chosen.2 chosen.1
  let timed ← resetTimer g now { q with current := advance chosen.2 p } q.current.msgSeq
  if g.qpMode && decide (timed.getBytesLeft g = 0) then
    let moved ← timed.moveRdmaOperationToUnfinished g
    .ok (p, if g.resetQpRate then { moved with pacing := g.initial } else moved)
  else .ok (p, timed)

def acknowledge (q : RdmaQueuePair) (a : AckPacket) : Completion × RdmaQueuePair :=
  let seq := if g.backto0 then a.seq / g.chunk * g.chunk else a.seq
  if g.ackInterval = 0 then (.none, q)
  else if !g.qpMode then
    let acked := { q with current := q.current.acknowledge g seq a.last }
    -- `QpComplete` cancels the timer.
    if acked.isFinished g then (.qp, { acked with eventTimeoutRetransmission := none })
    else (.none, acked)
  else
    let acked :=
      if a.msgSeq = q.current.msgSeq then
        { q with current := q.current.acknowledge g seq a.last }
      else q.acknowledgeMsg g seq a.msgSeq a.last
    match acked.checkFinish g a.msgSeq with
    | some id => (.msg id, (acked.removeRdmaOperation a.msgSeq).2)
    | none => (.none, acked)

def reactToNack (q : RdmaQueuePair) (a : AckPacket) : RdmaQueuePair :=
  if a.nack && g.nackReaction then
    if !g.qpMode || decide (a.msgSeq = q.current.msgSeq) then
      { q with current := q.current.pullBack }
    else q.recoverMsg g q.current.msgSeq
  else q

def receiveAck (q : RdmaQueuePair) (a : AckPacket) :
    Except RdmaAssertion (Completion × RdmaQueuePair) := do
  let acked := acknowledge g q a
  let timed ← resetTimer g now (reactToNack g acked.2 a) a.msgSeq
  .ok (acked.1, timed)

end RdmaHw

def MsgStatus.sendOne (g : RdmaSettings) (m : MsgStatus) : MsgStatus :=
  match RdmaHw.chooseSeq g m with
  | .ok (seq, chosen) => RdmaHw.advance chosen (RdmaHw.packetAt g chosen seq)
  | .error _ => m

def MsgStatus.hear (g : RdmaSettings) (a : AckPacket) (m : MsgStatus) : MsgStatus :=
  if g.ackInterval = 0 then m else m.acknowledge g (ackSeq g a) a.last

theorem chooseSeq_flow {g : RdmaSettings} (flow : g.packetLevelRouting = false) (m : MsgStatus) :
    RdmaHw.chooseSeq g m = .ok (Word32.trunc m.sndNxt, m) := by
  simp [RdmaHw.chooseSeq, flow]

end Floodgate
