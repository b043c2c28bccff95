import Floodgate.Admission
import Floodgate.Voq
import Floodgate.Library.LabelledRun

/-! The upstream half of Floodgate: windows, absolute PSNs, and the VOQs they drain. -/

namespace Floodgate

open Std

/-- The entry of `m_dst2group`: missing, `-1`, or a group. -/
inductive DstRule where
  | unset
  | ignored
  | group (id : Nat)
  deriving DecidableEq, Repr

/-- What is fixed before the run: `m_dst2group`, the entries of `VOQ::BDPMAP` for this switch and
the groups. `ConfigDst` asserts that the group of a destination exists. -/
structure UpstreamConfig where
  settings : Settings
  dst2group : Nat → DstRule
  bdpMap : Nat → Option Nat
  groups : ExtTreeMap Nat VOQGroupConfig
  group_known : ∀ dst id, dst2group dst = .group id → id ∈ groups
  bdpMap_lt : ∀ dst win, bdpMap dst = some win → win < Word32.size

structure Upstream where
  wins : ExtTreeMap Nat Nat
  buffering : ExtTreeMap Nat Nat
  voqGroups : ExtTreeMap Nat VOQGroup
  nxtDataPsn : Nat → Nat → Nat
  rcvAckPsn : Nat → Nat → Nat

namespace Upstream

def init (c : UpstreamConfig) : Upstream where
  wins := ∅
  buffering := ∅
  voqGroups := c.groups.map fun _ config => VOQGroup.init config
  nxtDataPsn := fun _ _ => 0
  rcvAckPsn := fun _ _ => 0

end Upstream

def UpstreamConfig.shouldIgnore (c : UpstreamConfig) (dst : Nat) : Except Assertion Bool :=
  match c.dst2group dst with
  | .unset => .error .dst2groupKnown
  | .ignored => .ok true
  | .group _ => .ok false

/-- The row of the PSN tables for a device and an end host: the host's rack when only the windows
of source ToRs are reset. -/
def UpstreamConfig.psnRow (c : UpstreamConfig) (dev host : Nat) : Nat :=
  if c.settings.resetOnlyToRSwitchWin then host / c.settings.hostPerRack else dev

namespace Upstream

/-- `m_wins[dst]` and `m_buffering[dst]` as they are read. -/
def win (s : Upstream) (dst : Nat) : Nat := (s.wins[dst]?).getD 0

def getBufferDst (s : Upstream) (dst : Nat) : Nat := (s.buffering[dst]?).getD 0

/-- Reading `m_wins[dst]` inserts a zero window for an unknown destination. -/
def touchWin (s : Upstream) (dst : Nat) : Upstream :=
  { s with wins := s.wins.insertIfNew dst 0 }

def inflightOrdered (s : Upstream) (dst : Nat) : Bool :=
  (List.range switchScale).all fun i => decide (s.rcvAckPsn i dst ≤ s.nxtDataPsn i dst)

def inflightBytes (s : Upstream) (dst : Nat) : Nat :=
  (List.range switchScale).foldl
    (fun inflight i => Word32.add inflight (s.nxtDataPsn i dst - s.rcvAckPsn i dst)) 0

def getInflightBytes (s : Upstream) (dst : Nat) : Except Assertion Nat :=
  if s.inflightOrdered dst then .ok (s.inflightBytes dst) else .error .inflightOrdered

def winKey (c : UpstreamConfig) (dst : Nat) : Nat :=
  if c.settings.switchAckMode ≠ .hostPerPacketAck ∧ c.settings.resetOnlyToRSwitchWin then
    c.settings.hostNum + dst / c.settings.hostPerRack
  else dst

def ensureRegisteredWin (c : UpstreamConfig) (s : Upstream) (dst : Nat) :
    Except Assertion Upstream :=
  if s.wins.contains dst then .ok s
  else
    match c.bdpMap (winKey c dst) with
    | none => .error .windowDefined
    | some size => do
        let registered := { s with wins := s.wins.insert (winKey c dst) size }
        if c.settings.switchAbsolutePsn then
          let _ ← registered.getInflightBytes (winKey c dst)
          .ok registered
        else .ok registered

def checkDstWin (c : UpstreamConfig) (s : Upstream) (dst pktSize : Nat) :
    Except Assertion (Bool × Upstream) := do
  let registered ← s.ensureRegisteredWin c dst
  let read := registered.touchWin dst
  if c.settings.switchAbsolutePsn then
    let inflight ← read.getInflightBytes dst
    .ok (!decide (Word32.add inflight pktSize > read.win dst), read)
  else .ok (!decide (read.win dst < pktSize), read)

/-- With absolute PSNs only the log line is left of it. -/
def updateDstWin (c : UpstreamConfig) (s : Upstream) (dst pktSize : Nat) (isAdd : Bool) :
    Except Assertion Upstream := do
  if ← c.shouldIgnore dst then .ok s
  else if c.settings.switchAbsolutePsn then
    let _ ← s.getInflightBytes dst
    .ok (s.touchWin dst)
  else if isAdd then
    if s.wins.contains dst then
      .ok { s with wins := s.wins.insert dst (Word32.add (s.win dst) pktSize) }
    else .error .windowRegistered
  else
    let registered ← s.ensureRegisteredWin c dst
    .ok { registered with
      wins := registered.wins.insert dst (Word32.sub (registered.win dst) pktSize) }

/-- Numbers a packet as it passes to the egress port `dev`. -/
def updateDataPSN (c : UpstreamConfig) (s : Upstream) (dev dst : Nat) (pkt : Packet) :
    Packet × Upstream :=
  let psn := s.nxtDataPsn (c.psnRow dev dst) dst + pkt.size
  (pkt.setPsn psn, { s with nxtDataPsn := setCell s.nxtDataPsn (c.psnRow dev dst) dst psn })

def updateBufferingCount (s : Upstream) (dst pktSize : Nat) (isAdd : Bool) :
    Except Assertion Upstream :=
  if isAdd then
    .ok { s with buffering := s.buffering.insert dst (Word32.add (s.getBufferDst dst) pktSize) }
  else if s.buffering.contains dst then
    .ok { s with buffering := s.buffering.insert dst (Word32.sub (s.getBufferDst dst) pktSize) }
  else .error .bufferingKnown

def groupOf (c : UpstreamConfig) (s : Upstream) (dst : Nat) : Except Assertion (Nat × VOQGroup) :=
  match c.dst2group dst with
  | .group id =>
      match s.voqGroups[id]? with
      | some g => .ok (id, g)
      | none => .error .groupKnown
  | _ => .error .dst2groupKnown

def setGroup (s : Upstream) (id : Nat) (g : VOQGroup) : Upstream :=
  { s with voqGroups := s.voqGroups.insert id g }

/-- The packets in the VOQ `voq`, a pair of a group and an id within it. -/
def voqPackets (s : Upstream) (voq : Nat × Nat) : List PacketUnit :=
  match s.voqGroups[voq.1]? with
  | some g => g.packets voq.2
  | none => []

def findVOQ (c : UpstreamConfig) (s : Upstream) (dst : Nat) :
    Except Assertion (Option (Nat × Nat)) := do
  let found ← s.groupOf c dst
  .ok ((found.2.findVOQ dst).map fun id => (found.1, id))

/-- The buffering branch of `CheckVOQWin`. -/
def bufferPacket (c : UpstreamConfig) (s : Upstream) (unit : PacketUnit) :
    Except Assertion Upstream := do
  let found ← s.groupOf c unit.dst
  let voq ← found.2.getVOQ unit.dst
  (s.setGroup found.1 (voq.2.enqueue voq.1 unit)).updateBufferingCount unit.dst unit.pkt.size true

/-- The packet to route on, with its PSN, or `none` when it has been buffered. -/
def checkVOQWin (c : UpstreamConfig) (s : Upstream) (pkt : Packet) (outDev qIndex : Nat) :
    Except Assertion (Option Packet × Upstream) := do
  if pkt.isUdp then
    if ← c.shouldIgnore pkt.dip then .ok (some pkt, s)
    else
      let checked ← s.checkDstWin c pkt.dip pkt.size
      if checked.1 && checked.2.getBufferDst pkt.dip == 0 then
        let passed ← checked.2.updateDstWin c pkt.dip pkt.size false
        if c.settings.switchAbsolutePsn then
          let numbered := passed.updateDataPSN c outDev pkt.dip pkt
          .ok (some numbered.1, numbered.2)
        else .ok (some pkt, passed)
      else
        let buffered ← checked.2.bufferPacket c ⟨pkt, pkt.dip, outDev, qIndex⟩
        .ok (none, buffered)
  else .ok (some pkt, s)

/-- `SwitchMmu::VOQDequeueCallback`: the unit as it leaves and the state; its return value is
`getBufferDst`. -/
def voqDequeueCallback (c : UpstreamConfig) (s : Upstream) (unit : PacketUnit) :
    Except Assertion (PacketUnit × Upstream) := do
  let numbered :=
    if c.settings.switchAbsolutePsn then s.updateDataPSN c unit.outDev unit.dst unit.pkt
    else (unit.pkt, s)
  let windowed ← numbered.2.updateDstWin c unit.dst unit.pkt.size false
  let counted ← windowed.updateBufferingCount unit.dst unit.pkt.size false
  .ok ({ unit with pkt := numbered.1 }, counted)

/-- One attempt to send the head of a VOQ. A VOQ that has been released meanwhile is empty. -/
def checkAndSendOne (c : UpstreamConfig) (s : Upstream) (voq : Nat × Nat) :
    Except Assertion (Option PacketUnit × Upstream) :=
  match s.voqGroups[voq.1]? with
  | none => .ok (none, s)
  | some g =>
      match g.packets voq.2 with
      | [] => .ok (none, s)
      | top :: _ => do
          let checked ← s.checkDstWin c top.dst top.pkt.size
          if checked.1 then
            let popped := g.pop voq.2 top
            if popped.findVOQId top.dst = some voq.2 then
              let called ← (checked.2.setGroup voq.1 popped).voqDequeueCallback c top
              .ok (some called.1, called.2.setGroup voq.1
                (popped.releaseVOQ top.dst voq.2 (called.2.getBufferDst top.dst)))
            else .error .voqIdFound
          else .ok (none, checked.2)

/-- `VOQ::CheckAndSendAll`, with a bound on its rounds. -/
def checkAndSendAll (c : UpstreamConfig) (voq : Nat × Nat) :
    Nat → Upstream → Except Assertion (List PacketUnit × Upstream)
  | 0, s => .ok ([], s)
  | rounds + 1, s => do
      let sent ← s.checkAndSendOne c voq
      match sent.1 with
      | none => .ok ([], sent.2)
      | some unit => do
          let rest ← checkAndSendAll c voq rounds sent.2
          .ok (unit :: rest.1, rest.2)

def checkAndSendDst (c : UpstreamConfig) (s : Upstream) (dst : Nat) :
    Except Assertion (List PacketUnit × Upstream) := do
  if ← c.shouldIgnore dst then .ok ([], s)
  else
    match ← s.findVOQ c dst with
    | some voq => s.checkAndSendAll c voq (s.voqPackets voq).length
    | none => if s.getBufferDst dst = 0 then .ok ([], s) else .error .nothingBuffered

/-- The loop of `CheckAndSendVOQ()` over the windows: what it sends and the VOQs it queues for the
second loop, `none` when it returns at an ignored destination. -/
def sendFirstRound (c : UpstreamConfig) :
    List Nat → Upstream →
      Except Assertion (Option (List (Nat × Nat)) × List PacketUnit × Upstream)
  | [], s => .ok (some [], [], s)
  | dst :: rest, s =>
      if s.win dst > 0 then do
        if ← c.shouldIgnore dst then .ok (none, [], s)
        else
          match ← s.findVOQ c dst with
          | none => sendFirstRound c rest s
          | some voq => do
              let sent ← s.checkAndSendOne c voq
              match sent.1 with
              | none => sendFirstRound c rest sent.2
              | some unit => do
                  let later ← sendFirstRound c rest sent.2
                  .ok (later.1.map (voq :: ·), unit :: later.2.1, later.2.2)
      else sendFirstRound c rest s

def sendRoundRobin (c : UpstreamConfig) :
    Nat → List (Nat × Nat) → Upstream → Except Assertion (List PacketUnit × Upstream)
  | rounds + 1, voq :: left, s => do
      let sent ← s.checkAndSendOne c voq
      match sent.1 with
      | none => sendRoundRobin c rounds left sent.2
      | some unit => do
          let later ← sendRoundRobin c rounds (left ++ [voq]) sent.2
          .ok (unit :: later.1, later.2)
  | _, _, s => .ok ([], s)

def heldPackets (s : Upstream) : List PacketUnit :=
  s.voqGroups.toList.flatMap fun g => g.2.voqs.toList.flatMap fun voq => voq.2

/-- `CheckAndSendVOQ()`. The windows are visited in ascending order of destination. -/
def checkAndSendVOQ (c : UpstreamConfig) (s : Upstream) :
    Except Assertion (List PacketUnit × Upstream) := do
  let first ← sendFirstRound c s.wins.keys s
  match first.1 with
  | none => .ok first.2
  | some left => do
      let second ← sendRoundRobin c (left.length + first.2.2.heldPackets.length) left first.2.2
      .ok (first.2.1 ++ second.1, second.2)

def setRcvAckPsn (s : Upstream) (row dst psn : Nat) : Upstream :=
  { s with rcvAckPsn := setCell s.rcvAckPsn row dst psn }

def recoverDst (c : UpstreamConfig) (tag : SwitchACKTag) (dev : Nat) (s : Upstream) (dst : Nat) :
    Except Assertion Upstream :=
  let resume := tag.getACKEntry dst
  if resume > 0 then
    if c.settings.switchAbsolutePsn then
      let row := c.psnRow dev dst
      if resume > s.rcvAckPsn row dst then
        (s.setRcvAckPsn row dst resume).updateDstWin c dst
          (Word32.trunc (resume - s.rcvAckPsn row dst)) true
      else s.updateDstWin c dst 0 true
    else s.updateDstWin c dst (Word32.trunc resume) true
  else .ok s

def recoverWin (c : UpstreamConfig) (s : Upstream) (tag : SwitchACKTag) (dev : Nat) :
    Except Assertion Upstream :=
  (List.range c.settings.hostNum).foldlM (recoverDst c tag dev) s

/-- What `ResumeVOQWin` does to the window of `dst` outside `SWITCH_INGRESS_CREDIT`. The acked size
goes through a 32-bit variable. -/
def resumeDst (c : UpstreamConfig) (s : Upstream) (tag : SwitchACKTag) (dst dev : Nat) :
    Except Assertion Upstream :=
  let resume := Word32.trunc tag.getAckedSize
  if c.settings.switchAbsolutePsn then
    let row := c.psnRow dev dst
    if resume > s.rcvAckPsn row dst then
      (s.setRcvAckPsn row dst tag.getAckedSize).updateDstWin c dst 0 true
    else s.updateDstWin c dst 0 true
  else s.updateDstWin c dst resume true

/-- The part of `ResumeVOQWin` that restores windows. -/
def restoreWin (c : UpstreamConfig) (s : Upstream) (tag : SwitchACKTag) (sip inDev : Nat) :
    Except Assertion Upstream :=
  match c.settings.switchAckMode with
  | .switchIngressCredit => s.recoverWin c tag inDev
  | _ => s.resumeDst c tag sip inDev

def drain (c : UpstreamConfig) (s : Upstream) (sip : Nat) :
    Except Assertion (List PacketUnit × Upstream) :=
  match c.settings.switchAckMode with
  | .switchIngressCredit => s.checkAndSendVOQ c
  | _ => s.checkAndSendDst c sip

/-- `ResumeVOQWin` for an ACK from host `sip`: the packets it sends and the state. -/
def resumeVOQWin (c : UpstreamConfig) (s : Upstream) (tag : SwitchACKTag) (sip inDev : Nat) :
    Except Assertion (List PacketUnit × Upstream) := do
  let restored ← s.restoreWin c tag sip inDev
  restored.drain c sip

def getTotalBytes (s : Upstream) : Nat :=
  (s.voqGroups.toList.flatMap fun g => g.2.voqBuffer.toList.map Prod.snd).foldl Word32.add 0

/-- `VOQ_buffer` as `DoStatistics` adds it up. -/
def bufferingTotal (s : Upstream) : Nat :=
  (s.buffering.toList.map Prod.snd).foldl Word32.add 0

end Upstream

/-- A data packet that `SendToDev` has admitted and routed, or an ACK with a `SwitchACKTag`. -/
inductive FloodgateEvent where
  | data (pkt : Packet) (isData : pkt.isUdp = true) (outDev qIndex : Nat)
  | ack (tag : SwitchACKTag) (sip inDev : Nat)

/-- The complete processing of one event, with the packets it hands to `SwitchSend` in order. -/
def Upstream.handle (c : UpstreamConfig) (s : Upstream) :
    FloodgateEvent → Except Assertion (List PacketUnit × Upstream)
  | .data pkt _ outDev qIndex => do
      let routed ← s.checkVOQWin c pkt outDev qIndex
      .ok (routed.1.toList.map fun pkt' => ⟨pkt', pkt.dip, outDev, qIndex⟩, routed.2)
  | .ack tag sip inDev => s.resumeVOQWin c tag sip inDev

def Upstream.Step (c : UpstreamConfig) (s : Upstream) (label : FloodgateEvent × List PacketUnit)
    (after : Upstream) : Prop :=
  s.handle c label.1 = .ok (label.2, after)

/-- Switch-ACKs end at the switch that they restore. -/
def UpstreamConfig.consumesAck (c : UpstreamConfig) : Bool :=
  match c.settings.switchAckMode with
  | .hostPerPacketAck => false
  | _ => true

end Floodgate
