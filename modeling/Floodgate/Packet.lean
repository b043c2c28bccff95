import Floodgate.Settings

/-! Packets as the switches see them. An address is represented by the host id that
`Settings::hostIp2IdMap` gives it, which is 0 for an address that belongs to no host. -/

namespace Floodgate

/-- The entries of `acked_size`; outside `SWITCH_INGRESS_CREDIT` only entry 0 travels. -/
structure SwitchACKTag where
  ackedSize : Nat → Nat

namespace SwitchACKTag

def empty : SwitchACKTag := ⟨fun _ => 0⟩

def setAckedSize (size : Nat) : SwitchACKTag := ⟨fun entry => if entry = 0 then size else 0⟩

def getAckedSize (tag : SwitchACKTag) : Nat := tag.ackedSize 0

def setACKEntry (tag : SwitchACKTag) (dst size : Nat) : SwitchACKTag :=
  ⟨fun entry => if entry = dst then size else tag.ackedSize entry⟩

def getACKEntry (tag : SwitchACKTag) (dst : Nat) : Nat := tag.ackedSize dst

def getPacketSize (g : Settings) (tag : SwitchACKTag) : Nat :=
  match g.switchAckMode with
  | .switchIngressCredit =>
      ((List.range g.hostNum).filter fun i => decide (0 < tag.ackedSize i)).length *
        (g.switchAckCreditBit + g.switchAckIdBit)
  | _ => 0

end SwitchACKTag

structure SwitchSYNTag where
  rcvAckSize : Nat → Nat
  nxtDataSize : Nat → Nat

namespace SwitchSYNTag

def empty : SwitchSYNTag := ⟨fun _ => 0, fun _ => 0⟩

def setPSNEntry (tag : SwitchSYNTag) (dst ack data : Nat) : SwitchSYNTag :=
  ⟨fun entry => if entry = dst then ack else tag.rcvAckSize entry,
   fun entry => if entry = dst then data else tag.nxtDataSize entry⟩

def getACKPSNEntry (tag : SwitchSYNTag) (dst : Nat) : Nat := tag.rcvAckSize dst

def getDataPSNEntry (tag : SwitchSYNTag) (dst : Nat) : Nat := tag.nxtDataSize dst

def getPacketSize (g : Settings) (tag : SwitchSYNTag) : Nat :=
  ((List.range g.hostNum).filter fun i => decide (0 < tag.rcvAckSize i)).length *
    (g.switchAckIdBit + 2 * g.switchPsnBit)

end SwitchSYNTag

/-- The protocols 0x06, 0xFC, 0xFD and 0xFF, which hosts send beside data. -/
inductive HostProt where
  | tcp
  | ack
  | nack
  | cnp
  deriving DecidableEq, Repr

/-- The layer-3 protocol with the tags that packets of this protocol can carry:
`SwitchPSNTag` and `SwitchIngressPSNTag` on data (0x11), `SwitchACKTag` on host ACKs and on
Switch-ACKs (0xFB), `SwitchSYNTag` on SYNs (0xFA), the pause header on PFC frames (0xFE). -/
inductive Body where
  | udp (psn ingressPsn : Option Nat)
  | host (prot : HostProt) (tag : Option SwitchACKTag)
  | switchAck (tag : SwitchACKTag)
  | switchSyn (tag : SwitchSYNTag)
  | pfc (time qIndex : Nat)

/-- `flowId` is the `FlowIdTag` that a switch device adds on reception. -/
structure Packet where
  size : Nat
  sip : Nat
  dip : Nat
  pg : Nat
  flowId : Option Nat
  body : Body
  size_pos : 0 < size
  size_lt : size < Word32.size
  pg_lt : pg < qCnt

namespace Packet

def isUdp (p : Packet) : Bool :=
  match p.body with
  | .udp _ _ => true
  | _ => false

def isPfc (p : Packet) : Bool :=
  match p.body with
  | .pfc _ _ => true
  | _ => false

def ackTag (p : Packet) : Option SwitchACKTag :=
  match p.body with
  | .host _ tag => tag
  | .switchAck tag => some tag
  | _ => none

/-- Replaces the `SwitchPSNTag` of a data packet. -/
def setPsn (p : Packet) (psn : Nat) : Packet :=
  match p.body with
  | .udp _ ingress => { p with body := .udp (some psn) ingress }
  | _ => p

def psn (p : Packet) : Option Nat :=
  match p.body with
  | .udp psn _ => psn
  | _ => none

def ingressPsn (p : Packet) : Option Nat :=
  match p.body with
  | .udp _ ingress => ingress
  | _ => none

def synTag (p : Packet) : Option SwitchSYNTag :=
  match p.body with
  | .switchSyn tag => some tag
  | _ => none

/-- The `SwitchPSNTag` of a received packet becomes its `SwitchIngressPSNTag`. -/
def toIngressPsn (p : Packet) : Packet :=
  match p.body with
  | .udp (some psn) _ => { p with body := .udp none (some psn) }
  | _ => p

def removeIngressPsn (p : Packet) : Packet :=
  match p.body with
  | .udp psn _ => { p with body := .udp psn none }
  | _ => p

def setFlowId (p : Packet) (flowId : Option Nat) : Packet := { p with flowId := flowId }

@[simp] theorem setPsn_size (p : Packet) (psn : Nat) : (p.setPsn psn).size = p.size := by
  unfold setPsn
  split <;> rfl

@[simp] theorem setPsn_sip (p : Packet) (psn : Nat) : (p.setPsn psn).sip = p.sip := by
  unfold setPsn
  split <;> rfl

@[simp] theorem setPsn_dip (p : Packet) (psn : Nat) : (p.setPsn psn).dip = p.dip := by
  unfold setPsn
  split <;> rfl

@[simp] theorem setPsn_flowId (p : Packet) (psn : Nat) : (p.setPsn psn).flowId = p.flowId := by
  unfold setPsn
  split <;> rfl

@[simp] theorem setPsn_isUdp (p : Packet) (psn : Nat) : (p.setPsn psn).isUdp = p.isUdp := by
  cases shape : p.body <;> simp [setPsn, isUdp, shape]

@[simp] theorem setPsn_isPfc (p : Packet) (psn : Nat) : (p.setPsn psn).isPfc = p.isPfc := by
  cases shape : p.body <;> simp [setPsn, isPfc, shape]

@[simp] theorem setPsn_pg (p : Packet) (psn : Nat) : (p.setPsn psn).pg = p.pg := by
  unfold setPsn
  split <;> rfl

end Packet

end Floodgate
