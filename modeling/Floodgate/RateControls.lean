import Floodgate.DcqcnTimers
import Floodgate.Library.Averaging

/-! The rates that DCQCN, TIMELY and DCTCP compute for a queue pair. Doubles are rational numbers, and
a rate is the integer that a double is truncated to. -/

namespace Floodgate

open LabelledRun Averaging

/-- The attributes of `RdmaHw`, and the rate of the device. -/
structure RateAttributes where
  dcqcn : DcqcnAttributes
  minRate : Nat
  g : Rat
  rateOnFirstCnp : Rat
  tmlyAlpha : Rat
  tmlyBeta : Rat
  tmlyTLow : UInt64
  tmlyTHigh : UInt64
  tmlyMinRtt : UInt64
  dctcpRai : Nat

/-- An acknowledgement, with the sequence numbers of the queue pair and the round trip at its
arrival. `byZero` is what a division by zero gives. -/
structure RateAck where
  seq : UInt32
  cnp : Bool
  sndNxt : UInt64
  nextPsn : UInt64
  rtt : UInt64
  byZero : Rat
  seq_le : seq.toNat ≤ sndNxt.toNat

inductive AckEvent where
  | ack (ack : RateAck)
  | receiveCnp

structure MlxPair where
  timed : TimedQueuePair
  alpha : Rat

inductive MlxInput where
  | cnp
  | receiveCnp
  | fire (e : MlxEvent)
  | wait (later : Nat)

namespace MlxPair

variable (a : RateAttributes) (s : MlxPair)

def rate : Nat := s.timed.q.qp.pacing.rate

def targetRate : Nat := s.timed.q.mlx.targetRate

def create (q : RatedQueuePair) : MlxPair where
  timed := .create
    { q.setRate a.dcqcn.dataRate with
      mlx := { MlxRecord.init with targetRate := a.dcqcn.dataRate } }
  alpha := 1

def cnpReceivedMlx : MlxPair where
  timed := s.timed.cnpReceivedMlx a.dcqcn ⌊(s.rate : Rat) * a.rateOnFirstCnp⌋₊
  alpha := if s.timed.q.mlx.firstCnp then 1 else s.alpha

def updateAlphaMlx : MlxPair where
  timed := s.timed.updateAlphaMlx a.dcqcn
  alpha :=
    if s.timed.q.mlx.alphaCnpArrived then (1 - a.g) * s.alpha + a.g else (1 - a.g) * s.alpha

def checkRateDecreaseMlx : MlxPair :=
  { s with
    timed := s.timed.checkRateDecreaseMlx a.dcqcn
      (max a.minRate ⌊(s.rate : Rat) * (1 - s.alpha / 2)⌋₊) }

/-- The target rate that `RateIncEventMlx` sets. It does not depend on the new rate. -/
def raisedTarget : Nat := (s.timed.rateIncEventMlx a.dcqcn s.rate).q.mlx.targetRate

def rateIncEventTimerMlx : MlxPair :=
  { s with
    timed := s.timed.rateIncEventTimerMlx a.dcqcn (s.rate / 2 + s.raisedTarget a / 2) }

def run (timer : MlxTimer) : MlxPair :=
  match timer with
  | .updateAlpha => s.updateAlphaMlx a
  | .decreaseRate => s.checkRateDecreaseMlx a
  | .rateIncrease => s.rateIncEventTimerMlx a

def receiveCnp : MlxPair :=
  { s with timed := { s.timed with q := s.timed.q.receiveCnp a.dcqcn.dataRate } }

def next : MlxInput → MlxPair
  | .cnp => s.cnpReceivedMlx a
  | .receiveCnp => s.receiveCnp a
  | .fire e => { s with timed := s.timed.take e }.run a e.timer
  | .wait later => { s with timed := { s.timed with now := later } }

end MlxPair

structure TimelyPair where
  rate : Nat
  maxRate : Nat
  lastUpdateSeq : UInt32
  curRate : Nat
  incStage : UInt32
  lastRtt : UInt64
  rttDiff : Rat

namespace TimelyPair

variable (a : RateAttributes) (q : TimelyPair)

def create : TimelyPair := ⟨a.dcqcn.dataRate, a.dcqcn.dataRate, 0, a.dcqcn.dataRate, 0, 0, 0⟩

/-- The factor of a decrease. There is none for an increase. -/
def decreaseFactor (rtt : UInt64) (gradient : Rat) : Option Rat :=
  if rtt < a.tmlyTLow then none
  else if rtt > a.tmlyTHigh then
    some (1 - a.tmlyBeta * (1 - (a.tmlyTHigh.toNat : Rat) / rtt.toNat))
  else if gradient ≤ 0 then none
  else
    let c := 1 - a.tmlyBeta * gradient
    some (if c < 0 then 0 else c)

def nextRate (rtt : UInt64) (gradient : Rat) : Nat × UInt32 :=
  match decreaseFactor a rtt gradient with
  | none =>
    (min (q.curRate + if q.incStage < 5 then a.dcqcn.rai else a.dcqcn.rhai) q.maxRate,
      q.incStage + 1)
  | some c => (max a.minRate ⌊(q.curRate : Rat) * c⌋₊, 0)

/-- `UpdateRateTimely`, in whose calls `us` is false. -/
def updateRateTimely (ack : RateAck) : TimelyPair :=
  let nextSeq := ack.sndNxt.toUInt32
  let updated :=
    if q.lastUpdateSeq ≠ 0 then
      let newRttDiff := ack.rtt.toInt64.toInt - q.lastRtt.toInt64.toInt
      let rttDiff := (1 - a.tmlyAlpha) * q.rttDiff + a.tmlyAlpha * newRttDiff
      let gradient :=
        if a.tmlyMinRtt = 0 then ack.byZero else rttDiff / a.tmlyMinRtt.toNat
      let next := q.nextRate a ack.rtt gradient
      { q with rate := next.1, curRate := next.1, incStage := next.2, rttDiff := rttDiff }
    else q
  if nextSeq > q.lastUpdateSeq then
    { updated with lastUpdateSeq := nextSeq, lastRtt := ack.rtt }
  else updated

/-- `HandleAckTimely`. The fast reaction does nothing. -/
def handleAckTimely (ack : RateAck) : TimelyPair :=
  if ack.seq > q.lastUpdateSeq then q.updateRateTimely a ack else q

def receiveCnp : TimelyPair :=
  if q.rate = 0 then { q with rate := a.dcqcn.dataRate, curRate := a.dcqcn.dataRate } else q

def next : AckEvent → TimelyPair
  | .ack ack => q.handleAckTimely a ack
  | .receiveCnp => q.receiveCnp a

end TimelyPair

structure DctcpPair where
  rate : Nat
  maxRate : Nat
  lastUpdateSeq : UInt32
  caState : UInt32
  highSeq : UInt32
  alpha : Rat
  ecnCnt : UInt32
  batchSizeOfAlpha : UInt32
  acknumRtt : UInt32

namespace DctcpPair

variable (a : RateAttributes) (q : DctcpPair)

def create : DctcpPair := ⟨a.dcqcn.dataRate, a.dcqcn.dataRate, 0, 0, 0, 1, 0, 0, 0⟩

/-- `std::min (1.0, ..)`, which is 1 for what is not a number. -/
def frac : Rat :=
  if q.batchSizeOfAlpha = 0 then 1
  else min 1 ((q.ecnCnt.toNat : Rat) / q.batchSizeOfAlpha.toNat)

def nextAlpha : Rat := (1 - a.g) * q.alpha + a.g * q.frac

def countEcn (cnp : Bool) : DctcpPair := if cnp then { q with ecnCnt := q.ecnCnt + 1 } else q

/-- The packets of `length` bytes, and one more. There is no division by an `m_mtu` of 0. -/
def batchSize (length : UInt64) : Option UInt32 :=
  if a.dcqcn.rdma.mtu = 0 then none else some (length.toNat / a.dcqcn.rdma.mtu + 1).toUInt32

/-- The update of alpha, with `new_batch`. -/
def updateAlpha (ack : RateAck) : Option (DctcpPair × Bool) :=
  let q := q.countEcn ack.cnp
  if ack.seq > q.lastUpdateSeq then
    if q.lastUpdateSeq = 0 then do
      let size ← batchSize a ack.sndNxt
      some ({ q with lastUpdateSeq := ack.sndNxt.toUInt32, batchSizeOfAlpha := size }, true)
    else do
      let size ← batchSize a (ack.sndNxt - ack.seq.toUInt64)
      some ({ q with
        alpha := q.nextAlpha a
        lastUpdateSeq := ack.sndNxt.toUInt32
        ecnCnt := 0
        batchSizeOfAlpha := size }, true)
  else some (q, false)

def updateDisOrderedAlpha (ack : RateAck) : DctcpPair × Bool :=
  let q := { q.countEcn ack.cnp with acknumRtt := q.acknumRtt + 1 }
  if ack.seq > q.lastUpdateSeq then
    if q.lastUpdateSeq = 0 then
      ({ q with lastUpdateSeq := ack.nextPsn.toUInt32, batchSizeOfAlpha := q.acknumRtt }, true)
    else
      ({ q with
        alpha := q.nextAlpha a
        lastUpdateSeq := ack.nextPsn.toUInt32
        batchSizeOfAlpha := q.acknumRtt
        ecnCnt := 0
        acknumRtt := 0 }, true)
  else (q, false)

def exitCwr (seq : UInt32) : DctcpPair :=
  if q.caState = 1 ∧ seq > q.highSeq then { q with caState := 0 } else q

def reduceRate (cnp : Bool) (highSeq : UInt32) : DctcpPair :=
  if cnp = true ∧ q.caState = 0 then
    { q with
      rate := max a.minRate ⌊(q.rate : Rat) * (1 - q.alpha / 2)⌋₊
      caState := 1
      highSeq := highSeq }
  else q

def increaseRate (newBatch : Bool) : DctcpPair :=
  if q.caState = 0 ∧ newBatch = true then { q with rate := min (q.rate + a.dctcpRai) q.maxRate }
  else q

def react (ack : RateAck) (highSeq : UInt32) (updated : DctcpPair × Bool) : DctcpPair :=
  ((updated.1.exitCwr ack.seq).reduceRate a ack.cnp highSeq).increaseRate a updated.2

def handleAckDctcp (ack : RateAck) : Option DctcpPair := do
  let updated ← q.updateAlpha a ack
  some (react a ack ack.sndNxt.toUInt32 updated)

def handleDisOrderedAckDctcp (ack : RateAck) : DctcpPair :=
  react a ack ack.nextPsn.toUInt32 (q.updateDisOrderedAlpha a ack)

def receiveCnp : DctcpPair := if q.rate = 0 then { q with rate := a.dcqcn.dataRate } else q

/-- Nothing follows on a division by zero. -/
def next : AckEvent → Option DctcpPair
  | .ack ack =>
    if a.dcqcn.rdma.packetLevelRouting then some (q.handleDisOrderedAckDctcp a ack)
    else q.handleAckDctcp a ack
  | .receiveCnp => some (q.receiveCnp a)

end DctcpPair

end Floodgate
