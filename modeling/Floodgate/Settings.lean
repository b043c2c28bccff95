import Floodgate.Library.Word32
import Mathlib.Data.Rat.Defs

/-! The run-time settings the switch code reads, the array bounds it is compiled with, and its
assertions. -/

namespace Floodgate

/-- `SwitchMmu::qCnt`, `Settings::NODESCALE` and `Settings::SWITCHSCALE`. -/
def qCnt : Nat := 8
def nodeScale : Nat := 2000
def switchScale : Nat := 200

inductive AckMode where
  | hostPerPacketAck
  | switchDstCredit
  | switchIngressCredit
  deriving DecidableEq, Repr

/-- `switch_absolute_psn` is an integer of which the code only tests whether it is zero.
`switch_credit_interval` and `switch_ack_th_m` are doubles. -/
structure Settings where
  hostNum : Nat
  hostPerRack : Nat
  torNum : Nat
  packetPayload : Nat
  switchAckMode : AckMode
  resetOnlyToRSwitchWin : Bool
  switchByteCounter : Nat
  switchCreditInterval : Rat
  switchAckThM : Rat
  switchAbsolutePsn : Bool
  switchAckCreditBit : Nat
  switchAckIdBit : Nat
  switchPsnBit : Nat
  hostNum_le : hostNum ≤ nodeScale
  packetPayload_lt : packetPayload + 58 < Word32.size

inductive Assertion where
  | dst2groupKnown
  | groupKnown
  | windowDefined
  | windowRegistered
  | inflightOrdered
  | voqIdFound
  | voqMapped
  | voqPresent
  | bufferingKnown
  | nothingBuffered
  | ackOrdered
  | creditKnown
  | creditExact
  | creditCovered
  | ingressPsnPresent
  | switchAcksOn
  | absolutePsnOn
  | mustBePaused
  deriving DecidableEq, Repr

end Floodgate
