import Floodgate.HopRecords
import Floodgate.Library.Averaging
import Floodgate.Library.LabelledRun

/-! HPCC on a queue pair: the rates that it computes from the hops of acknowledgements. Doubles are
rational numbers, and a division by zero has no result. -/

namespace Floodgate

open LabelledRun Averaging

/-- The attributes of `RdmaHw`, and `IntHop::multi`. -/
structure HpAttributes where
  minRate : Nat
  rai : Nat
  targetUtil : Rat
  miThresh : UInt32
  multipleRate : Bool
  sampleFeedback : Bool
  fastReact : Bool
  multi : UInt32

structure HopState where
  u : Rat
  rc : Nat
  incStage : UInt32

/-- The record `hp`. -/
structure HpRecord where
  lastUpdateSeq : UInt32
  curRate : Nat
  hop : Fin IntHeader.maxHop → IntHop
  incStage : UInt32
  u : Rat
  hopState : Fin IntHeader.maxHop → HopState

structure HpQueuePair where
  rate : Nat
  maxRate : Nat
  win : UInt32
  baseRtt : UInt64
  hp : HpRecord

/-- An acknowledgement, with `snd_nxt` of the queue pair at its arrival. -/
structure HpAck where
  seq : UInt32
  sndNxt : UInt32
  ih : IntHeader
  nhop_le : ih.nhop.toNat ≤ IntHeader.maxHop

def divide (a b : Rat) : Option Rat := if b = 0 then none else some (a / b)

/-- The variables of the loop over the hops. `hopU` is `u` of the states of the hops, and `best` is
`U`. -/
structure Sweep where
  hop : Fin IntHeader.maxHop → IntHop
  hopU : Fin IntHeader.maxHop → Rat
  best : Rat
  dt : Nat
  updated : Fin IntHeader.maxHop → Bool

structure HopRates where
  newRate : Nat
  perHop : Fin IntHeader.maxHop → Nat × UInt32

namespace HpQueuePair

/-- What `AddQueuePair` makes on a device, with the window and the base round trip of the flow. The
memory of the hops has any contents. -/
def create (c : HpAttributes) (dataRate : Nat) (win : UInt32) (baseRtt : UInt64)
    (memory : Fin IntHeader.maxHop → IntHop) : HpQueuePair where
  rate := dataRate
  maxRate := dataRate
  win := win
  baseRtt := baseRtt
  hp :=
    { lastUpdateSeq := 0
      curRate := dataRate
      hop := memory
      incStage := 0
      u := 1
      hopState := fun _ => ⟨1, if c.multipleRate then dataRate else 0, 0⟩ }

variable (c : HpAttributes) (q : HpQueuePair)

section Hops

variable (hop last : IntHop)

def tau : Nat := hop.getTimeDelta last

def shorter : Nat := min (hop.getQlen c.multi) (last.getQlen c.multi)

def utilization : Option Rat := do
  let duration := (tau hop last : Rat) * (1 / 1000000000)
  let txRate ← divide ((hop.getBytesDelta c.multi last * 8 : Nat) : Rat) duration
  let sent ← divide txRate hop.getLineRate
  let queued ← divide ((shorter c hop last : Rat) * q.maxRate) hop.getLineRate
  let waiting ← divide queued q.win.toNat
  some (sent + waiting)

end Hops

/-- `if (sampled and idle) continue;` -/
def skips (fast : Bool) (hop : IntHop) : Bool :=
  c.sampleFeedback && (decide (hop.getQlen c.multi = 0) && fast)

def sweepHop (fast : Bool) (ih : IntHeader) (w : Sweep) (i : Fin IntHeader.maxHop) : Option Sweep :=
  if skips c fast (ih.hop.get i) then some w
  else do
    let hop := ih.hop.get i
    let u ← q.utilization c hop (w.hop i)
    let tau := tau hop (w.hop i)
    let seen : Sweep :=
      { w with
        updated := Function.update w.updated i true
        hop := Function.update w.hop i hop }
    if c.multipleRate then
      let tau := min tau q.baseRtt.toNat
      let average ← divide (w.hopU i * (q.baseRtt.toNat - tau : Nat) + u * tau) q.baseRtt.toNat
      some { seen with hopU := Function.update w.hopU i average }
    else if u > w.best then some { seen with best := u, dt := tau }
    else some seen

def hops (ih : IntHeader) : List (Fin IntHeader.maxHop) :=
  (List.finRange IntHeader.maxHop).filter fun i => i.val < ih.nhop.toNat

def sweep (fast : Bool) (ih : IntHeader) : Option Sweep :=
  (hops ih).foldlM (sweepHop c q fast ih)
    ⟨q.hp.hop, fun i => (q.hp.hopState i).u, 0, 0, fun _ => false⟩

def nextRate (rate : Nat) (incStage : UInt32) (u : Rat) : Option (Nat × UInt32) := do
  let maxC ← divide u c.targetUtil
  if maxC ≥ 1 ∨ incStage ≥ c.miThresh then
    let slowed ← divide rate maxC
    some (clamp c.minRate q.maxRate (⌊slowed⌋₊ + c.rai), 0)
  else some (clamp c.minRate q.maxRate (rate + c.rai), incStage + 1)

def singleRate (fast : Bool) (w : Sweep) : Option HpQueuePair := do
  let dt := min w.dt q.baseRtt.toNat
  let u ← divide (q.hp.u * (q.baseRtt.toNat - dt : Nat) + w.best * dt) q.baseRtt.toNat
  let next ← q.nextRate c q.hp.curRate q.hp.incStage u
  let changed : HpQueuePair := { q with rate := next.1, hp := { q.hp with u := u } }
  if fast then some changed
  else some { changed with hp := { changed.hp with curRate := next.1, incStage := next.2 } }

def rateHop (w : Sweep) (r : HopRates) (i : Fin IntHeader.maxHop) : Option HopRates :=
  if w.updated i then do
    let next ← q.nextRate c (q.hp.hopState i).rc (q.hp.hopState i).incStage (w.hopU i)
    some ⟨if next.1 < r.newRate then next.1 else r.newRate, Function.update r.perHop i next⟩
  else
    some { r with
      newRate := if (q.hp.hopState i).rc < r.newRate then (q.hp.hopState i).rc else r.newRate }

def multipleRates (fast : Bool) (ih : IntHeader) (w : Sweep) : Option HpQueuePair := do
  let r ← (hops ih).foldlM (q.rateHop c w)
    ⟨q.maxRate, fun i => ((q.hp.hopState i).rc, (q.hp.hopState i).incStage)⟩
  let changed : HpQueuePair := { q with rate := r.newRate }
  if fast then some changed
  else
    some { changed with
      hp := { q.hp with
        curRate := r.newRate
        hopState := fun i =>
          { q.hp.hopState i with rc := (r.perHop i).1, incStage := (r.perHop i).2 } } }

def swept (w : Sweep) : HpQueuePair :=
  { q with
    hp := { q.hp with
      hop := w.hop
      hopState := fun i => { q.hp.hopState i with u := w.hopU i } } }

def updatedAny (w : Sweep) : Bool := (List.finRange IntHeader.maxHop).any w.updated

def newRates (fast : Bool) (ih : IntHeader) (w : Sweep) : Option HpQueuePair :=
  if updatedAny w then
    if c.multipleRate then (q.swept w).multipleRates c fast ih w
    else (q.swept w).singleRate c fast w
  else some (q.swept w)

/-- `m_lastUpdateSeq` moves on. -/
def proceed (sndNxt : UInt32) : HpQueuePair :=
  { q with
    hp := { q.hp with
      lastUpdateSeq := if sndNxt > q.hp.lastUpdateSeq then sndNxt else q.hp.lastUpdateSeq } }

def storeHops (a : HpAck) : HpQueuePair :=
  { q with
    hp := { q.hp with
      lastUpdateSeq := a.sndNxt
      hop := fun i => if i.val < a.ih.nhop.toNat then a.ih.hop.get i else q.hp.hop i } }

def updateRateHp (a : HpAck) (fast : Bool) : Option HpQueuePair :=
  if q.hp.lastUpdateSeq = 0 then some (q.storeHops a)
  else do
    let w ← q.sweep c fast a.ih
    let rated ← q.newRates c fast a.ih w
    some (if fast then rated else rated.proceed a.sndNxt)

/-- `HandleAckHp` with `FastReactHp`. -/
def handleAckHp (a : HpAck) : Option HpQueuePair :=
  if a.seq > q.hp.lastUpdateSeq then q.updateRateHp c a false
  else if c.fastReact then q.updateRateHp c a true
  else some q

end HpQueuePair

end Floodgate
