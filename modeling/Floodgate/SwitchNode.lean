import Floodgate.Downstream
import Floodgate.EgressQueue
import Floodgate.Upstream

/-! A switch: what it does with a packet it receives, with one that leaves a port, and when its
timers fire. -/

namespace Floodgate

open Std

structure SwitchNodeConfig where
  admission : AdmissionConfig
  upstream : UpstreamConfig
  device : Nat → DeviceConfig
  nDevices : Nat
  useFloodgate : Bool
  isToR : Bool
  ackHighPrio : Bool
  thAck : Nat
  id : Nat
  nDevices_le : nDevices ≤ switchScale

/-- `dropPackets` is this switch's share of `Settings::drop_packets`. -/
structure SwitchNode where
  admission : Admission
  upstream : Upstream
  downstream : Downstream
  device : Nat → QbbNetDevice
  dropPackets : Nat

namespace SwitchNodeConfig

def settings (c : SwitchNodeConfig) : Settings := c.upstream.settings

def qIndexOf (c : SwitchNodeConfig) (p : Packet) : Nat :=
  match p.body with
  | .switchSyn _ | .switchAck _ | .pfc _ _ | .host .cnp _ => 0
  | .host .ack _ | .host .nack _ => if c.ackHighPrio then 0 else p.pg
  | .host .tcp _ => 1
  | .udp _ _ => p.pg

def pfcFine (c : SwitchNodeConfig) (inDev qIndex dst : Nat) : Nat :=
  if c.admission.pfcMode inDev = .onDst then dst else qIndex

/-- The rows that the credit loops visit when they check all upstreams. -/
def upstreamNum (c : SwitchNodeConfig) : Nat :=
  if c.settings.resetOnlyToRSwitchWin then c.settings.torNum else c.nDevices

def creditRow (c : SwitchNodeConfig) (inDev sip : Nat) : Nat :=
  if c.settings.resetOnlyToRSwitchWin then sip / c.settings.hostPerRack else inDev

theorem creditRow_all {c : SwitchNodeConfig} (all : c.settings.resetOnlyToRSwitchWin = false)
    (inDev sip : Nat) : c.creditRow inDev sip = inDev := by
  simp [creditRow, all]

end SwitchNodeConfig

def creditIds (start num : Nat) : List Nat :=
  (List.range num).map fun i => if i = 0 then start else (start + i) % num

namespace SwitchNode

def init (c : SwitchNodeConfig) : SwitchNode :=
  ⟨Admission.init, Upstream.init c.upstream, Downstream.init, fun _ => QbbNetDevice.init, 0⟩

def setDevice (s : SwitchNode) (dev : Nat) (d : QbbNetDevice) : SwitchNode :=
  { s with device := fun i => if i = dev then d else s.device i }

def switchSend (c : SwitchNodeConfig) (s : SwitchNode) (outDev qIndex : Nat) (p : Packet) :
    SwitchNode :=
  s.setDevice outDev ((s.device outDev).switchSend (c.device outDev) qIndex p)

def ackDue (c : SwitchNodeConfig) (s : SwitchNode) (dst : Nat) : Bool :=
  decide (c.settings.switchAckThM = 0) || decide (s.upstream.getBufferDst dst ≤ c.thAck)

section Pfc

variable (c : SwitchNodeConfig) (s : SwitchNode) (inDev fine : Nat)

def sendPfc (type : Nat) : SwitchNode :=
  s.switchSend c inDev 0 (pfcPacket (c.device inDev) fine type)

def checkAndSendPfc : SwitchNode :=
  if s.admission.checkShouldPause c.admission inDev fine then
    { s.sendPfc c inDev fine 0 with admission := s.admission.setPause inDev fine }
  else s

def checkAndSendResume : SwitchNode :=
  if s.admission.checkShouldResume c.admission inDev fine then
    { s.sendPfc c inDev fine 1 with admission := s.admission.setResume inDev fine }
  else s

end Pfc

section Acks

-- `route` is the device that `GetOutDev` gives for a rack's switch.
variable (c : SwitchNodeConfig) (route : Nat → Nat) (s : SwitchNode)

def sendAccSwitchACK (dev : Nat) (tag : SwitchACKTag) : Except Assertion SwitchNode := do
  let sent :=
    if c.settings.resetOnlyToRSwitchWin then
      s.switchSend c (route dev) 0 (switchACKPacket c.settings tag
        (c.id * c.settings.hostPerRack) (dev * c.settings.hostPerRack))
    else s.switchSend c dev 0 (switchACKPacket c.settings tag 0 0)
  let cleaned ← s.downstream.cleanIngressCreditCounter c.settings dev tag
  .ok { sent with downstream := cleaned }

/-- A Switch-ACK for `dst`, whose id is its source address. -/
def sendSwitchACK (inDev dst ackDst size : Nat) : Except Assertion SwitchNode := do
  let sent := s.switchSend c inDev 0
    (switchACKPacket c.settings (SwitchACKTag.setAckedSize size) dst ackDst)
  let cleaned ← s.downstream.cleanIngressDstCreditCounter c.settings inDev dst size
  .ok { sent with downstream := cleaned }

/-- One upstream in a credit loop that runs for the packet `p`: whether an ACK is sent. -/
def checkAndSendACK (p : Packet) (threshold creditId : Nat) :
    Except Assertion (Bool × SwitchNode) :=
  match c.settings.switchAckMode with
  | .switchIngressCredit => do
      if ← s.downstream.checkIngressCreditCounter c.settings (s.ackDue c) creditId threshold then
        let sent ← s.sendAccSwitchACK c route creditId
          (s.downstream.getSwitchACKTag c.settings (s.ackDue c) creditId)
        .ok (true, sent)
      else .ok (false, s)
  | .switchDstCredit => do
      let credit ← s.downstream.getIngressDstCreditCounter c.settings (s.ackDue c) creditId p.dip
      if threshold ≤ credit then
        let sent ← s.sendSwitchACK c creditId p.dip
          (if c.settings.resetOnlyToRSwitchWin then creditId * c.settings.hostPerRack else p.sip)
          (if c.settings.switchAbsolutePsn then s.downstream.nxtAckPsn creditId p.dip else credit)
        .ok (true, sent)
      else .ok (false, s)
  | .hostPerPacketAck => .ok (false, s)

def checkAndSendACKs (p : Packet) (threshold : Nat) (ids : List Nat) :
    Except Assertion (Bool × SwitchNode) :=
  ids.foldlM
    (fun before creditId => do
      let after ← before.2.checkAndSendACK c route p threshold creditId
      .ok (before.1 || after.1, after.2)) (false, s)

def returnCredits (p : Packet) (creditId : Nat) : Except Assertion SwitchNode := do
  let num := if c.settings.switchAckThM > 0 then c.upstreamNum else 1
  let first ← s.checkAndSendACKs c route p c.settings.switchByteCounter (creditIds creditId num)
  if !first.1 && decide (c.settings.switchByteCounter > 1) &&
      decide (c.settings.switchCreditInterval = 0) &&
      first.2.upstream.getBufferDst p.dip == 0 then
    let flushed ← first.2.checkAndSendACKs c route p 1
      (creditIds ((creditId + num) % num) c.upstreamNum)
    .ok flushed.2
  else .ok first.2

/-- `CreditTimeout` for a row and, outside `SWITCH_INGRESS_CREDIT`, a destination. -/
def creditTimeout (dev dst : Nat) : Except Assertion SwitchNode :=
  match c.settings.switchAckMode with
  | .switchIngressCredit => do
      if ← s.downstream.checkIngressCreditCounter c.settings (s.ackDue c) dev 1 then
        s.sendAccSwitchACK c route dev
          (s.downstream.getSwitchACKTag c.settings (s.ackDue c) dev)
      else .ok s
  | .switchDstCredit => do
      let credit ← s.downstream.getIngressDstCreditCounter c.settings (s.ackDue c) dev dst
      if credit > 0 then
        s.sendSwitchACK c dev dst 0
          (if c.settings.switchAbsolutePsn then s.downstream.nxtAckPsn dev dst else credit)
      else .ok s
  | .hostPerPacketAck => .error .switchAcksOn

/-- `recent dst` is the test on the time of the last ACK for `dst`. -/
def getSwitchSYNTag (dev : Nat) (recent : Nat → Bool) : SwitchSYNTag :=
  (List.range c.settings.hostNum).foldl
    (fun tag dst =>
      if s.upstream.rcvAckPsn dev dst < s.upstream.nxtDataPsn dev dst ∧ recent dst = true then
        tag.setPSNEntry dst (s.upstream.rcvAckPsn dev dst) (s.upstream.nxtDataPsn dev dst)
      else tag) SwitchSYNTag.empty

def sendSYN (dev : Nat) (tag : SwitchSYNTag) : SwitchNode :=
  if c.settings.resetOnlyToRSwitchWin then
    s.switchSend c (route dev) 0 (switchSYNPacket c.settings tag
      (c.id * c.settings.hostPerRack) (dev * c.settings.hostPerRack))
  else s.switchSend c dev 0 (switchSYNPacket c.settings tag 0 0)

def synTimeout (dev : Nat) (recent : Nat → Bool) : SwitchNode :=
  if (s.getSwitchSYNTag c dev recent).getPacketSize c.settings > 0 then
    s.sendSYN c route dev (s.getSwitchSYNTag c dev recent)
  else s

def receiveSYN (tag : SwitchSYNTag) (sip dip inDev : Nat) : Except Assertion SwitchNode :=
  let checked := s.downstream.checkSYN c.settings (c.creditRow inDev sip) tag
  let found := { s with downstream := checked.2 }
  if checked.1 = [] then .ok found
  else
    match c.settings.switchAckMode with
    | .switchIngressCredit => do
        let acks ← checked.2.getDstsSwitchACKTag c.settings (s.ackDue c) (c.creditRow inDev sip)
          checked.1
        found.sendAccSwitchACK c route (c.creditRow inDev sip) acks
    | .switchDstCredit =>
        checked.1.foldlM
          (fun s dst => s.sendSwitchACK c inDev dst dip
            (s.downstream.nxtAckPsn (c.creditRow inDev dip) dst)) found
    | .hostPerPacketAck => .ok found

end Acks

section Packets

variable (c : SwitchNodeConfig) (route : Nat → Nat) (s : SwitchNode)

/-- The PSN part of `SendToDev`. -/
def recordPsn (inDev : Nat) (p : Packet) : Packet × SwitchNode :=
  match c.settings.switchAbsolutePsn, p.psn with
  | true, some psn =>
      (p.toIngressPsn,
        { s with
          downstream := s.downstream.updateRcvDataPsn (c.creditRow inDev p.sip) p.dip psn })
  | _, _ => (p, s)

def passOn (outDev qIndex : Nat) (p : Packet) : Except Assertion SwitchNode :=
  if c.useFloodgate then do
    let routed ← s.upstream.checkVOQWin c.upstream p outDev qIndex
    match routed.1 with
    | some p' => .ok ({ s with upstream := routed.2 }.switchSend c outDev qIndex p')
    | none => .ok { s with upstream := routed.2 }
  else .ok (s.switchSend c outDev qIndex p)

def charge (inDev outDev qIndex : Nat) (p : Packet) : SwitchNode :=
  { s with
    admission := (s.admission.updateIngressAdmission c.admission inDev
      (c.pfcFine inDev qIndex p.dip) p.size).updateEgressAdmission outDev qIndex p.size }

/-- The accounting and the PFC check of a packet outside the highest priority. -/
def admitPacket (inDev outDev qIndex : Nat) (p : Packet) : SwitchNode :=
  if qIndex = 0 then s
  else (s.charge c inDev outDev qIndex p).checkAndSendPfc c inDev (c.pfcFine inDev qIndex p.dip)

/-- `SendToDev` from `GetOutDev` on, whose result is `outDev`. -/
def forward (inDev : Nat) (outDev : Option Nat) (p : Packet) : Except Assertion SwitchNode :=
  match outDev with
  | none => .ok s
  | some outDev =>
      let qIndex := c.qIndexOf p
      if qIndex = 0 || (s.admission.checkIngressAdmission c.admission inDev
          (c.pfcFine inDev qIndex p.dip) p.size &&
          s.admission.checkEgressAdmission outDev qIndex p.size) then
        (s.admitPacket c inDev outDev qIndex p).passOn c outDev qIndex p
      else .ok { s with dropPackets := s.dropPackets + 1 }

def sendUnit (unit : PacketUnit) : SwitchNode :=
  s.switchSend c unit.outDev unit.qIndex unit.pkt

/-- `SendToDev`, complete. -/
def sendToDev (inDev : Nat) (outDev : Option Nat) (p : Packet) : Except Assertion SwitchNode :=
  match c.useFloodgate, p.synTag with
  | true, some tag => s.receiveSYN c route tag p.sip p.dip inDev
  | _, _ =>
      let recorded := s.recordPsn c inDev p
      match c.useFloodgate, recorded.1.ackTag with
      | true, some tag => do
          let resumed ← recorded.2.upstream.resumeVOQWin c.upstream tag p.sip inDev
          let sent := resumed.1.foldl (sendUnit c) { recorded.2 with upstream := resumed.2 }
          if c.upstream.consumesAck then .ok sent
          else sent.forward c inDev outDev recorded.1
      | _, _ => recorded.2.forward c inDev outDev recorded.1

/-- `SendToDev` up to the drain of the VOQs: all of it for a packet without a `SwitchACKTag`. -/
def enter (inDev : Nat) (outDev : Option Nat) (p : Packet) : Except Assertion SwitchNode :=
  match c.useFloodgate, p.synTag with
  | true, some tag => s.receiveSYN c route tag p.sip p.dip inDev
  | _, _ =>
      let recorded := s.recordPsn c inDev p
      match c.useFloodgate, recorded.1.ackTag with
      | true, some tag => do
          let restored ← recorded.2.upstream.restoreWin c.upstream tag p.sip inDev
          .ok { recorded.2 with upstream := restored }
      | _, _ => recorded.2.forward c inDev outDev recorded.1

/-- `QbbNetDevice::Receive` up to the drain of the VOQs. -/
def receive (inDev : Nat) (outDev : Option Nat) (p : Packet) : Except Assertion SwitchNode :=
  if p.isPfc then do
    let device ← (s.device inDev).receive (c.device inDev) p
    .ok (s.setDevice inDev device)
  else s.enter c route inDev outDev (p.setFlowId (some inDev))

/-- The part of `SwitchNotifyDequeue` that undoes `charge`. -/
def discharge (inDev ifIndex qIndex : Nat) (p : Packet) : SwitchNode :=
  { s with
    admission := (s.admission.removeFromIngressAdmission c.admission inDev
      (c.pfcFine inDev qIndex p.dip) p.size).removeFromEgressAdmission ifIndex qIndex p.size }

/-- The part of `SwitchNotifyDequeue` that accounts for a departure. -/
def depart (inDev ifIndex qIndex : Nat) (p : Packet) : SwitchNode :=
  if qIndex = 0 then s
  else (s.discharge c inDev ifIndex qIndex p).checkAndSendResume c inDev
    (c.pfcFine inDev qIndex p.dip)

/-- `SwitchNotifyDequeue` for a packet from queue `qIndex`: the packet as it travels and the state.
The `FlowIdTag` has been taken off. -/
def notifyDequeue (ifIndex qIndex : Nat) (p : Packet) : Except Assertion (Packet × SwitchNode) := do
  let inDev := p.flowId.getD 0
  let departed := s.depart c inDev ifIndex qIndex p
  if c.useFloodgate && p.isUdp then
    let ignore ← c.upstream.shouldIgnore p.sip
    if c.isToR && ignore then .ok (p.setFlowId none, departed)
    else
      let creditId := c.creditRow inDev p.sip
      if c.settings.switchAbsolutePsn then
        match p.ingressPsn with
        | none => .error .ingressPsnPresent
        | some psn =>
            let returned ← { departed with
              downstream := departed.downstream.updateNxtAckPsn creditId p.dip psn }.returnCredits
                c route p creditId
            .ok ((p.setFlowId none).removeIngressPsn, returned)
      else
        let returned ← { departed with
          downstream := departed.downstream.addCreditCounter creditId p.dip p.size }.returnCredits
            c route p creditId
        .ok (p.setFlowId none, returned)
  else .ok (p.setFlowId none, departed)

def transmit (ifIndex : Nat) : Except Assertion (Option Packet × SwitchNode) :=
  match (s.device ifIndex).queue.dequeueRR (c.device ifIndex) (s.device ifIndex).paused with
  | none => .ok (none, s)
  | some (p, qIndex, queue) => do
      let sent ← (s.setDevice ifIndex { s.device ifIndex with queue := queue }).notifyDequeue
        c route ifIndex qIndex p
      .ok (some sent.1, sent.2)

def release (voq : Nat × Nat) : Except Assertion SwitchNode := do
  let sent ← s.upstream.checkAndSendOne c.upstream voq
  match sent.1 with
  | some unit => .ok ({ s with upstream := sent.2 }.sendUnit c unit)
  | none => .ok { s with upstream := sent.2 }

end Packets

end SwitchNode

/-- The smallest pieces of work of a switch between which ports may transmit. `goOn` is the rest of
`SendToDev` for an ACK that restored windows and travels on. -/
inductive NodeEvent where
  | receive (inDev : Nat) (outDev : Option Nat) (p : Packet)
  | goOn (inDev : Nat) (outDev : Option Nat) (p : Packet) (tagged : p.ackTag.isSome = true)
  | release (voq : Nat × Nat)
  | transmit (ifIndex : Nat)
  | creditTimeout (dev dst : Nat)
  | synTimeout (dev : Nat) (recent : Nat → Bool)

def SwitchNode.handle (c : SwitchNodeConfig) (route : Nat → Nat) (s : SwitchNode) :
    NodeEvent → Except Assertion (Option Packet × SwitchNode)
  | .receive inDev outDev p => do
      let after ← s.receive c route inDev outDev p
      .ok (none, after)
  | .goOn inDev outDev p _ => do
      let after ← s.forward c inDev outDev (p.setFlowId (some inDev))
      .ok (none, after)
  | .release voq => do
      let after ← s.release c voq
      .ok (none, after)
  | .transmit ifIndex => s.transmit c route ifIndex
  | .creditTimeout dev dst => do
      let after ← s.creditTimeout c route dev dst
      .ok (none, after)
  | .synTimeout dev recent => .ok (none, s.synTimeout c route dev recent)

end Floodgate
