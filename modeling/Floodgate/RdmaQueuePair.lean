import Floodgate.Library.Outcome
import Floodgate.Library.Word32
import Mathlib.Data.Finset.Sort
import Mathlib.Data.Finset.Max

/-! Queue pairs and their messages. Sizes and sequence numbers are `uint64_t`, packet numbers and
window sizes `uint32_t`. Times count nanoseconds. -/

namespace Floodgate

open Outcome

structure Pacing where
  win : Nat
  varWin : Bool
  rate : Nat
  maxRate : Nat

namespace Pacing

def getWin (p : Pacing) : Nat :=
  if p.win = 0 then 0
  else if p.varWin then max 1 (p.win * p.rate % 18446744073709551616 / p.maxRate)
  else p.win

end Pacing

/-- The settings and `RdmaHw` attributes that hosts read. `initial` is what `ResetQP` sets. -/
structure RdmaSettings where
  mtu : Nat
  packetPayload : Nat
  packetLevelRouting : Bool
  qpMode : Bool
  nackReaction : Bool
  resetQpRate : Bool
  backto0 : Bool
  rtoUs : Nat
  ackInterval : Nat
  chunk : Nat
  nackInterval : Nat
  initial : Pacing

inductive RdmaAssertion where
  | timeoutPsnBelowSize
  | timeoutSentCovered
  | frontPresent
  deriving DecidableEq, Repr

namespace RdmaSettings

def rto (g : RdmaSettings) : Nat := g.rtoUs * 1000

end RdmaSettings

def sub64 (left right : Nat) : Nat :=
  (left + 18446744073709551616 - right) % 18446744073709551616

/-- What `LoadQPStatus` copies from a message to its queue pair and `LoadMsgStatus` back. -/
structure MsgStatus where
  size : Nat
  msgSeq : Nat
  sport : Nat
  dport : Nat
  src : Nat
  dst : Nat
  flowId : Nat
  sndNxt : Nat
  sndUna : Nat
  timeouted : Bool
  sentPsn : Finset Nat
  timeoutPsn : Finset Nat
  receivedLastAck : Bool

namespace MsgStatus

variable (g : RdmaSettings) (m : MsgStatus)

/-- The bytes of the packets in a set of packet numbers, of which the last may be short. -/
def psnBytes (psns : Finset Nat) : Nat :=
  if m.size % g.packetPayload = 0 then psns.card * g.packetPayload
  else if psns.card = 0 then 0
  else (psns.card - 1) * g.packetPayload +
    (if Word32.trunc (m.size - m.size % g.packetPayload) ∈ psns then m.size % g.packetPayload
      else g.packetPayload)

/-- `GetBytesLeft`, the same for messages and queue pairs, like all functions up to
`Acknowledge`. -/
def getBytesLeft : Nat :=
  if g.packetLevelRouting && m.timeouted && decide (m.timeoutPsn.card > 0) then
    m.psnBytes g m.timeoutPsn
  else if m.size ≥ m.sndNxt then m.size - m.sndNxt else 0

section BytesLeft

variable {g : RdmaSettings} {m : MsgStatus}

/-- A sender that is not resending has left what lies beyond `snd_nxt`. -/
theorem getBytesLeft_fresh (fresh : (g.packetLevelRouting && m.timeouted &&
    decide (m.timeoutPsn.card > 0)) = false) : m.getBytesLeft g = m.size - m.sndNxt := by
  unfold getBytesLeft
  rw [fresh]
  simp only [Bool.false_eq_true, if_false]
  split
  · rfl
  · omega

theorem getBytesLeft_flow (flow : g.packetLevelRouting = false) :
    m.getBytesLeft g = m.size - m.sndNxt :=
  getBytesLeft_fresh (by simp [flow])

theorem getBytesLeft_calm (calm : m.timeouted = false) :
    m.getBytesLeft g = m.size - m.sndNxt :=
  getBytesLeft_fresh (by simp [calm])

end BytesLeft

def getOnTheFly : Except RdmaAssertion Nat :=
  if !g.packetLevelRouting then .ok (sub64 m.sndNxt m.sndUna)
  else
    let result := Word32.trunc (m.psnBytes g m.sentPsn)
    if m.timeouted then
      let timeoutSent := Word32.trunc (m.psnBytes g m.timeoutPsn)
      if timeoutSent ≤ result then .ok (result - timeoutSent) else .error .timeoutSentCovered
    else .ok result

def isFinished : Bool :=
  if !g.packetLevelRouting then decide (m.sndUna ≥ m.size) else m.receivedLastAck

def updateReceivedACK : MsgStatus :=
  { m with sndUna := if m.sentPsn = ∅ then m.sndNxt else (m.sentPsn.sort (· ≤ ·)).headD 0 }

def acknowledge (ack : Nat) (isLastACK : Bool) : MsgStatus :=
  if g.packetLevelRouting then
    let erased :=
      if ack ∈ m.sentPsn then
        { m with
          sentPsn := m.sentPsn.erase ack
          timeoutPsn := m.timeoutPsn.erase ack }.updateReceivedACK
      else m
    if isLastACK then { erased with receivedLastAck := true } else erased
  else if ack > m.sndUna then { m with sndUna := ack }
  else m

/-- `RdmaOperation::Recover`, and `RdmaQueuePair::RecoverQueue` without its callback. -/
def recover : MsgStatus :=
  { m with
    timeouted := true
    timeoutPsn := m.sentPsn
    sndNxt := if g.packetLevelRouting then m.sndNxt else m.sndUna }

/-- `RdmaHw::RecoverQueue`. -/
def pullBack : MsgStatus := { m with sndNxt := m.sndUna }

end MsgStatus

structure RdmaOperation where
  status : MsgStatus
  lastActionTime : Nat

/-- What `AddQueuePair` is asked to send in `qp_mode`. -/
structure MessageRequest where
  size : Nat
  msgSeq : Nat
  sport : Nat
  dport : Nat
  src : Nat
  dst : Nat
  flowId : Nat
  deriving DecidableEq

/-- The message made for a request. `SetSize` takes a `uint32_t`. -/
def MessageRequest.operation (request : MessageRequest) (now : Nat) : RdmaOperation where
  status :=
    { size := Word32.trunc request.size
      msgSeq := request.msgSeq
      sport := request.sport
      dport := request.dport
      src := request.src
      dst := request.dst
      flowId := request.flowId
      sndNxt := 0
      sndUna := 0
      timeouted := false
      sentPsn := ∅
      timeoutPsn := ∅
      receivedLastAck := false }
  lastActionTime := now

/-- `operations` are the objects that the two queues point to. -/
structure RdmaQueuePair where
  current : MsgStatus
  rdmaMsgs : List Nat
  rdmaMsgsUnfinished : List Nat
  operations : Nat → RdmaOperation
  pacing : Pacing
  eventTimeoutRetransmission : Option Nat

namespace RdmaQueuePair

variable (g : RdmaSettings) (q : RdmaQueuePair)

def getBytesLeft : Nat := q.current.getBytesLeft g

def getOnTheFly : Except RdmaAssertion Nat := q.current.getOnTheFly g

def isFinished : Bool := q.current.isFinished g

def isWinBound : Except RdmaAssertion Bool :=
  if q.pacing.getWin = 0 then .ok false
  else do
    let onTheFly ← q.getOnTheFly g
    .ok (decide (onTheFly ≥ q.pacing.getWin))

def resetRTOEvent (now : Nat) : RdmaQueuePair :=
  { q with eventTimeoutRetransmission := some (now + g.rto) }

def resetRTOEventAt (now earliest : Nat) : RdmaQueuePair :=
  { q with eventTimeoutRetransmission := some (if earliest ≤ now then now else earliest) }

/-- `RecoverQueue`, when its event expires. Its call of the device is an event of its own. -/
def recoverQueue : RdmaQueuePair :=
  { q with current := q.current.recover g, eventTimeoutRetransmission := none }

def setOperation (id : Nat) (operation : RdmaOperation) : RdmaQueuePair :=
  { q with operations := fun i => if i = id then operation else q.operations i }

def msgSeqOf (id : Nat) : Nat := (q.operations id).status.msgSeq

def getMsgNumber : Nat := q.rdmaMsgs.length + q.rdmaMsgsUnfinished.length

def loadQPStatus : RdmaQueuePair :=
  match q.rdmaMsgs with
  | front :: _ =>
      { q with
        current := (q.operations front).status
        pacing := if g.resetQpRate then ⟨0, false, 0, 0⟩ else q.pacing }
  | [] => { q with current := { q.current with msgSeq := Word32.add q.current.msgSeq 1 } }

def loadMsgStatus : RdmaQueuePair :=
  match q.rdmaMsgs with
  | front :: _ => q.setOperation front { q.operations front with status := q.current }
  | [] => q

def addRdmaOperation (id : Nat) (operation : RdmaOperation) : RdmaQueuePair :=
  let pushed := { q.setOperation id operation with rdmaMsgs := q.rdmaMsgs ++ [id] }
  if pushed.rdmaMsgs.length = 1 then pushed.loadQPStatus g else pushed

def moveRdmaOperationToUnfinished : Except RdmaAssertion RdmaQueuePair :=
  match q.rdmaMsgs with
  | [] => .error .frontPresent
  | front :: rest =>
      .ok ({ q.loadMsgStatus with
        rdmaMsgs := rest
        rdmaMsgsUnfinished := q.rdmaMsgsUnfinished ++ [front] }.loadQPStatus g)

/-- The loop that rotates the sending queue once and puts the target before the first message with
a larger number, or last. -/
def insertTarget (target : Nat) : List Nat → List Nat
  | [] => [target]
  | curr :: rest =>
      if q.msgSeqOf curr > q.msgSeqOf target then target :: curr :: rest
      else curr :: insertTarget target rest

def recoverAll (ids : List Nat) : RdmaQueuePair :=
  { q with
    operations := fun i =>
      if i ∈ ids then { q.operations i with status := (q.operations i).status.recover g }
      else q.operations i }

def recoverMsg (msgSeq : Nat) : RdmaQueuePair :=
  let targets := q.rdmaMsgsUnfinished.filter fun id => q.msgSeqOf id = msgSeq
  let found := { q.recoverAll g targets with
    rdmaMsgsUnfinished := q.rdmaMsgsUnfinished.filter fun id => q.msgSeqOf id ≠ msgSeq }
  match targets.getLast? with
  | none => found
  | some target =>
      let stored := found.loadMsgStatus
      { stored with rdmaMsgs := stored.insertTarget target stored.rdmaMsgs }.loadQPStatus g

/-- `RemoveRdmaOperation` and whether the message was found. -/
def removeRdmaOperation (msgSeq : Nat) : Bool × RdmaQueuePair :=
  let inUnfinished := q.rdmaMsgsUnfinished.any fun id => q.msgSeqOf id = msgSeq
  let inSending := q.rdmaMsgs.any fun id => q.msgSeqOf id = msgSeq
  let removed :=
    if inUnfinished then
      { q with
        rdmaMsgsUnfinished := q.rdmaMsgsUnfinished.filter fun id => q.msgSeqOf id ≠ msgSeq }
    else { q with rdmaMsgs := q.rdmaMsgs.filter fun id => q.msgSeqOf id ≠ msgSeq }
  (inUnfinished || inSending,
    if removed.getMsgNumber = 0 then { removed with eventTimeoutRetransmission := none }
    else removed)

/-- The objects that a message number means: those in the unfinished queue first. -/
def lookup (msgSeq : Nat) : List Nat :=
  if q.rdmaMsgsUnfinished.any fun id => q.msgSeqOf id = msgSeq then
    q.rdmaMsgsUnfinished.filter fun id => q.msgSeqOf id = msgSeq
  else q.rdmaMsgs.filter fun id => q.msgSeqOf id = msgSeq

def checkFinish (msgSeq : Nat) : Option Nat :=
  ((q.lookup msgSeq).filter fun id => (q.operations id).status.isFinished g).getLast?

/-- `Acknowledge` for a message that is not the current one. -/
def acknowledgeMsg (ack msgSeq : Nat) (isLastACK : Bool) : RdmaQueuePair :=
  { q with
    operations := fun i =>
      if i ∈ q.lookup msgSeq then
        { q.operations i with status := (q.operations i).status.acknowledge g ack isLastACK }
      else q.operations i }

/-- `ResetLastActionTime` in `ResetMSGRTOTime`: of every match in the unfinished queue, else of the
first in the sending queue. -/
def touch (now msgSeq : Nat) : RdmaQueuePair :=
  let found :=
    if q.rdmaMsgsUnfinished.any fun id => q.msgSeqOf id = msgSeq then q.lookup msgSeq
    else (q.lookup msgSeq).take 1
  { q with
    operations := fun i =>
      if i ∈ found then { q.operations i with lastActionTime := now } else q.operations i }

/-- The messages of which everything has been sent and something is unacknowledged. -/
def inflightMsgs (ids : List Nat) : Except RdmaAssertion (List Nat) :=
  ids.filterM fun id =>
    if (q.operations id).status.getBytesLeft g = 0 then do
      let onTheFly ← (q.operations id).status.getOnTheFly g
      .ok (decide (onTheFly ≠ 0))
    else .ok false

def resetMSGRTOTime (now msgSeq : Nat) : Except RdmaAssertion RdmaQueuePair := do
  let touched := q.touch now msgSeq
  let inflight ← touched.inflightMsgs g (touched.rdmaMsgsUnfinished ++ touched.rdmaMsgs)
  match (inflight.map fun id => (touched.operations id).lastActionTime).min? with
  | some oldest => .ok (touched.resetRTOEventAt now (oldest + g.rto))
  | none => .ok touched

def overdue (now id : Nat) : Bool := decide ((q.operations id).lastActionTime + g.rto ≤ now)

/-- The second loop of `RecoverMSG`: targets, smallest number first, go before larger numbers. -/
def mergeTargets (targets : List Nat) : List Nat → List Nat
  | [] => []
  | curr :: rest =>
      targets.takeWhile (fun id => decide (q.msgSeqOf id < q.msgSeqOf curr)) ++
        curr :: mergeTargets
          (targets.dropWhile fun id => decide (q.msgSeqOf id < q.msgSeqOf curr)) rest

/-- `RecoverMSG`, when its event expires. Its call of the device is an event of its own. -/
def recoverMSG (now : Nat) : RdmaQueuePair :=
  let late := q.rdmaMsgsUnfinished.filter (q.overdue g now)
  let recovered := q.recoverAll g late
  let targets := late.mergeSort fun first second =>
    decide (recovered.msgSeqOf first ≤ recovered.msgSeqOf second)
  let stored := if targets = [] then recovered else recovered.loadMsgStatus
  let merged :=
    { stored.recoverAll g (stored.rdmaMsgs.filter (stored.overdue g now)) with
      rdmaMsgs := stored.mergeTargets targets stored.rdmaMsgs
      eventTimeoutRetransmission := none }
  if targets = [] then merged else merged.loadQPStatus g

end RdmaQueuePair

end Floodgate
