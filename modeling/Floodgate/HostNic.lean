import Floodgate.Library.Earliest
import Floodgate.Library.LabelledRun
import Floodgate.MessageFlow
import Mathlib.Data.List.Rotate

/-! The device of a host: the round robin over its queue pairs, the one event that wakes it up, and
what calls `DequeueAndTransmit`. The link is up. Times are signed, as `Time` is. -/

namespace Floodgate

open Outcome LabelledRun

/-- The attributes of the device and of `RdmaHw`. `txTime` rounds `CalculateTxTime` to time steps. -/
structure NicConfig where
  rdma : RdmaSettings
  pfcOnQueue : Bool
  rateBound : Bool
  ackQIdx : Nat
  interframeGap : Int
  headerSize : Nat
  txTime : Nat → Nat → Int

structure NicQp where
  qp : RdmaQueuePair
  pg : Nat
  nextAvail : Int
  lastPktSize : Nat

/-- How the congestion control of `ReceiveAck` changes the rate. -/
inductive RateUpdate where
  | keep
  | direct (rate : Nat)
  | changeRate (rate : Nat)

namespace NicQp

variable (c : NicConfig) (now : Nat) (q : NicQp)

def pfcFine : Nat := if c.pfcOnQueue then q.pg else q.qp.current.dst

/-- The queue pair has data, is not paused and not bound by its window. -/
def unblocked (paused : Nat → Bool) : Except RdmaAssertion Bool :=
  if paused (q.pfcFine c) || decide (q.qp.getBytesLeft c.rdma = 0) then .ok false
  else do
    let bound ← q.qp.isWinBound c.rdma
    .ok !bound

def updateNextAvail (size : Nat) : NicQp :=
  { q with
    nextAvail := now +
      (c.interframeGap +
        c.txTime (if c.rateBound then q.qp.pacing.rate else q.qp.pacing.maxRate) size) }

def setRate (rate : Nat) : NicQp :=
  { q with qp := { q.qp with pacing := { q.qp.pacing with rate := rate } } }

def changeRate (rate : Nat) : NicQp :=
  { q with
    nextAvail := q.nextAvail + c.txTime rate q.lastPktSize -
      c.txTime q.qp.pacing.rate q.lastPktSize }.setRate rate

/-- `LoadQPStatus` has loaded a message: with `reset_qp_rate` it clears `m_nextAvail`. -/
def loaded (qp : RdmaQueuePair) (reloads : Bool) : NicQp :=
  { q with
    qp := qp
    nextAvail := if c.rdma.resetQpRate && reloads then 0 else q.nextAvail }

/-- `RecoverMsg` finds its message among the unfinished ones. -/
def nackReloads (a : AckPacket) : Bool :=
  let acked := (RdmaHw.acknowledge c.rdma q.qp a).2
  a.nack && c.rdma.nackReaction && c.rdma.qpMode && decide (a.msgSeq ≠ acked.current.msgSeq) &&
    acked.rdmaMsgsUnfinished.any fun id => acked.msgSeqOf id = acked.current.msgSeq

def receiveAck (a : AckPacket) : Except RdmaAssertion NicQp := do
  let received ← RdmaHw.receiveAck c.rdma now q.qp a
  .ok (q.loaded c received.2 (q.nackReloads c a))

def addMessage (id : Nat) (request : MessageRequest) : NicQp :=
  q.loaded c (q.qp.addRdmaOperation c.rdma id (request.operation now)) (q.qp.rdmaMsgs = [])

/-- `RecoverMSG` finds a message that is overdue among the unfinished ones. -/
def overdue : Bool := q.qp.rdmaMsgsUnfinished.any (q.qp.overdue c.rdma now)

def timeout : NicQp :=
  if c.rdma.qpMode then q.loaded c (q.qp.recoverMSG c.rdma now) (q.overdue c now)
  else { q with qp := q.qp.recoverQueue c.rdma }

def create (win pg id : Nat) (request : MessageRequest) : NicQp :=
  let g := { c.rdma with initial := { c.rdma.initial with win := win } }
  { qp :=
      if c.rdma.qpMode then RdmaHw.newQueuePair g id (request.operation now)
      else { RdmaQueuePair.empty g with
        current := { (request.operation now).status with size := request.size } }
    pg := pg
    nextAvail := now
    lastPktSize := 0 }

end NicQp

/-- `ackQ` counts the packets of the highest priority, `nextSend` is `m_nextSend` while it is
pending. -/
structure HostNic where
  now : Nat
  busy : Bool
  nextSend : Option Int
  paused : Nat → Bool
  ackQ : Nat
  rrlast : Nat
  winInitial : Nat
  qps : List NicQp

/-- What `GetNextQindex` decides. -/
inductive NextQueue where
  | highPrio
  | qp (q : NicQp) (index : Nat)
  | none

inductive NicEvent where
  | transmitComplete
  | wake
  | pause (fine : Nat)
  | resume (fine : Nat)
  | respond
  | ack (index : Nat) (a : AckPacket) (update : RateUpdate)
  | newQp (win pg id : Nat) (request : MessageRequest)
  | newMessage (index win id : Nat) (request : MessageRequest)
  | timeout (index : Nat)
  | pace (index rate : Nat)
  | wait (later : Nat)

def maximumSimulationTime : Int := 9223372036854775807

namespace HostNic

variable (c : NicConfig)

def init : HostNic := ⟨0, false, none, fun _ => false, 0, 0, 0, []⟩

variable (s : HostNic)

/-- The queue pairs with their places, from the one after `m_rrlast` around. -/
def ring : List (NicQp × Nat) := s.qps.zipIdx.rotate (s.rrlast + 1)

def firstReady : List (NicQp × Nat) → Except RdmaAssertion NextQueue
  | [] => .ok .none
  | (q, index) :: rest => do
      let unblocked ← q.unblocked c s.paused
      if unblocked && !decide (q.nextAvail > s.now) then .ok (.qp q index) else firstReady rest

def highPrioReady : Bool := !s.paused c.ackQIdx && decide (s.ackQ > 0)

def getNextQindex : Except RdmaAssertion NextQueue :=
  if s.highPrioReady c then .ok .highPrio else s.firstReady c s.ring

/-- The packet of a queue pair, from `DequeueQindex` to `PktSent`. -/
def transmit (q : NicQp) (index : Nat) : Except RdmaAssertion HostNic := do
  let g := { c.rdma with initial := { c.rdma.initial with win := s.winInitial } }
  let sent ← RdmaHw.getNxtPacket g s.now q.qp
  let size := sent.1.payload + c.headerSize
  .ok { s with
    busy := true
    rrlast := index
    qps := s.qps.set index
      ({ q with qp := sent.2, lastPktSize := size }.updateNextAvail c s.now size) }

def soonest : Int :=
  Earliest.leastOf (fun q : NicQp => q.qp.getBytesLeft c.rdma = 0) NicQp.nextAvail
    maximumSimulationTime s.qps

def sleep : HostNic :=
  if s.nextSend = none ∧ s.soonest c < maximumSimulationTime ∧ s.soonest c > s.now then
    { s with nextSend := some (s.soonest c) }
  else s

def dequeueAndTransmit : Except RdmaAssertion HostNic :=
  if s.busy then .ok s
  else do
    match ← s.getNextQindex c with
    | .highPrio => .ok { s with ackQ := s.ackQ - 1, busy := true }
    | .qp q index => s.transmit c q index
    | .none => .ok (s.sleep c)

def updateNextAvail (time : Int) : HostNic :=
  match s.nextSend with
  | some pending =>
      if time < pending then { s with nextSend := some (if time < s.now then s.now else time) }
      else s
  | none => s

def setQp (index : Nat) (q : NicQp) : HostNic := { s with qps := s.qps.set index q }

def updateRate (index : Nat) (q : NicQp) : RateUpdate → HostNic
  | .keep => s.setQp index q
  | .direct rate => s.setQp index (q.setRate rate)
  | .changeRate rate =>
      (s.setQp index (q.changeRate c rate)).updateNextAvail (q.changeRate c rate).nextAvail

def onQp (index : Nat) (act : NicQp → Except RdmaAssertion HostNic) :
    Except RdmaAssertion HostNic :=
  match s.qps[index]? with
  | some q => act q
  | none => .ok s

/-- The event can happen: assertions of the device, times of pending events and that a queue pair is
there. -/
def possible : NicEvent → Bool
  | .transmitComplete => s.busy
  | .wake => decide (s.nextSend = some (s.now : Int))
  | .resume fine => s.paused fine
  | .ack index .. | .newMessage index .. | .pace index _ => decide (index < s.qps.length)
  | .timeout index => s.qps[index]?.any fun q =>
      decide (q.qp.eventTimeoutRetransmission = some s.now)
  | .wait later =>
      decide (s.now < later) &&
        s.nextSend.all (fun time => decide ((later : Int) ≤ time)) &&
        s.qps.all fun q => q.qp.eventTimeoutRetransmission.all fun time => decide (later ≤ time)
  | _ => true

/-- The handler up to its call of `DequeueAndTransmit`. -/
def prepare : NicEvent → Except RdmaAssertion HostNic
  | .transmitComplete => .ok { s with busy := false }
  | .wake => .ok { s with nextSend := none }
  | .pause fine => .ok { s with paused := fun i => i = fine || s.paused i }
  | .resume fine => .ok { s with paused := fun i => i ≠ fine && s.paused i }
  | .respond => .ok { s with ackQ := s.ackQ + 1 }
  | .ack index a update => s.onQp index fun q => do
      let received ← q.receiveAck c s.now a
      .ok (s.updateRate c index received update)
  | .newQp win pg id request =>
      .ok { s with
        winInitial := win
        qps := s.qps ++ [NicQp.create c s.now win pg id request] }
  | .newMessage index win id request => s.onQp index fun q =>
      let added := q.addMessage c s.now id request
      .ok ({ s with winInitial := win }.setQp index
        (if added.qp.getMsgNumber = 1 then { added with nextAvail := s.now } else added))
  | .timeout index => s.onQp index fun q => .ok (s.setQp index (q.timeout c s.now))
  | .pace index rate => s.onQp index fun q => .ok (s.setQp index (q.setRate rate))
  | .wait later => .ok { s with now := later }

def calls : NicEvent → Bool
  | .newMessage index _ id request => s.qps[index]?.any fun q =>
      (q.addMessage c s.now id request).qp.getMsgNumber = 1
  | .timeout index => !c.rdma.qpMode || s.qps[index]?.any fun q => q.overdue c s.now
  | .pause _ | .pace .. | .wait _ => false
  | _ => true

def handle (event : NicEvent) : Except RdmaAssertion HostNic := do
  let prepared ← s.prepare c event
  if s.calls c event then prepared.dequeueAndTransmit c else .ok prepared

def Step (event : NicEvent) (next : HostNic) : Prop :=
  s.possible event = true ∧ s.handle c event = .ok next

end HostNic

end Floodgate
