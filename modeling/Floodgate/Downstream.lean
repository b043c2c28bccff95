import Floodgate.Admission
import Floodgate.Voq

/-! The downstream half of Floodgate: credits and absolute PSNs owed to each upstream, and the
Switch-ACKs and SYNs that carry them. A row is an ingress port, or a rack when only the windows of
source ToRs are reset. -/

namespace Floodgate

open Std

structure Downstream where
  ingressDstCredits : Nat → ExtTreeMap Nat Nat
  rcvDataPsn : Nat → Nat → Nat
  nxtAckPsn : Nat → Nat → Nat
  lstAckPsn : Nat → Nat → Nat

namespace Downstream

def init : Downstream := ⟨fun _ => ∅, fun _ _ => 0, fun _ _ => 0, fun _ _ => 0⟩

def credit (d : Downstream) (dev dst : Nat) : Nat := ((d.ingressDstCredits dev)[dst]?).getD 0

def setCredits (d : Downstream) (dev : Nat) (credits : ExtTreeMap Nat Nat) : Downstream :=
  { d with
    ingressDstCredits := fun i => if i = dev then credits else d.ingressDstCredits i }

def addCreditCounter (d : Downstream) (dev dst bytes : Nat) : Downstream :=
  d.setCredits dev ((d.ingressDstCredits dev).insert dst (Word32.add (d.credit dev dst) bytes))

def updateNxtAckPsn (d : Downstream) (dev dst psn : Nat) : Downstream :=
  { d with nxtAckPsn := setCell d.nxtAckPsn dev dst (max psn (d.nxtAckPsn dev dst)) }

def updateRcvDataPsn (d : Downstream) (dev dst psn : Nat) : Downstream :=
  { d with rcvDataPsn := setCell d.rcvDataPsn dev dst (max psn (d.rcvDataPsn dev dst)) }

section Counters

-- `due dst` is the test for delayed ACKs: they are off, or little of `dst` is buffered.
variable (g : Settings) (due : Nat → Bool) (d : Downstream) (dev : Nat)

def getIngressDstCreditCounter (dst : Nat) : Except Assertion Nat :=
  if g.switchAbsolutePsn then
    if due dst then
      if d.lstAckPsn dev dst ≤ d.nxtAckPsn dev dst then
        .ok (Word32.trunc (d.nxtAckPsn dev dst - d.lstAckPsn dev dst))
      else .error .ackOrdered
    else .ok 0
  else if due dst then .ok (d.credit dev dst)
  else .ok 0

def checkIngressCreditCounter (threshold : Nat) : Except Assertion Bool := do
  let sum ← (List.range g.hostNum).foldlM
    (fun sum dst => do
      let credit ← d.getIngressDstCreditCounter g due dev dst
      .ok (Word32.add sum credit)) 0
  .ok (decide (threshold ≤ sum))

def getSwitchACKTag : SwitchACKTag :=
  if g.switchAbsolutePsn then
    (List.range g.hostNum).foldl
      (fun tag dst =>
        if d.lstAckPsn dev dst < d.nxtAckPsn dev dst ∧ due dst = true then
          tag.setACKEntry dst (d.nxtAckPsn dev dst)
        else tag) SwitchACKTag.empty
  else
    (d.ingressDstCredits dev).keys.foldl
      (fun tag dst =>
        if 0 < d.credit dev dst ∧ due dst = true then tag.setACKEntry dst (d.credit dev dst)
        else tag) SwitchACKTag.empty

def getDstsSwitchACKTag (dsts : List Nat) : Except Assertion SwitchACKTag :=
  if g.switchAbsolutePsn then
    .ok ((List.range g.hostNum).foldl
      (fun tag dst =>
        if (d.lstAckPsn dev dst < d.nxtAckPsn dev dst ∨ dst ∈ dsts) ∧ due dst = true then
          tag.setACKEntry dst (d.nxtAckPsn dev dst)
        else tag) SwitchACKTag.empty)
  else .error .absolutePsnOn

def cleanIngressDstCreditCounter (dst ackPsn : Nat) : Except Assertion Downstream :=
  if g.switchAbsolutePsn then
    .ok { d with lstAckPsn := setCell d.lstAckPsn dev dst ackPsn }
  else
    match (d.ingressDstCredits dev)[dst]? with
    | none => .error .creditKnown
    | some credit =>
        if ackPsn = credit then .ok (d.setCredits dev ((d.ingressDstCredits dev).insert dst 0))
        else .error .creditExact

def cleanIngressCreditCounter (tag : SwitchACKTag) : Except Assertion Downstream :=
  if g.switchAbsolutePsn then
    .ok ((List.range g.hostNum).foldl
      (fun d dst =>
        if 0 < tag.getACKEntry dst then
          { d with lstAckPsn := setCell d.lstAckPsn dev dst (tag.getACKEntry dst) }
        else d) d)
  else if g.switchAckThM = 0 then .ok (d.setCredits dev ∅)
  else
    (d.ingressDstCredits dev).keys.foldlM
      (fun d dst =>
        if tag.getACKEntry dst ≤ d.credit dev dst then
          .ok (d.setCredits dev ((d.ingressDstCredits dev).insert dst
            (Word32.sub (d.credit dev dst) (Word32.trunc (tag.getACKEntry dst)))))
        else .error .creditCovered) d

def checkSYNDst (tag : SwitchSYNTag) (found : List Nat × Downstream) (dst : Nat) :
    List Nat × Downstream :=
  let jumped :=
    if tag.getDataPSNEntry dst > found.2.rcvDataPsn dev dst then
      { found.2 with
        nxtAckPsn := setCell found.2.nxtAckPsn dev dst (tag.getDataPSNEntry dst)
        rcvDataPsn := setCell found.2.rcvDataPsn dev dst (tag.getDataPSNEntry dst) }
    else found.2
  (if tag.getACKPSNEntry dst < jumped.nxtAckPsn dev dst then found.1 ++ [dst] else found.1, jumped)

/-- The destinations that `CheckSYN` collects, in ascending order. -/
def checkSYN (tag : SwitchSYNTag) : List Nat × Downstream :=
  (List.range g.hostNum).foldl (checkSYNDst dev tag) ([], d)

end Counters

end Downstream

end Floodgate
