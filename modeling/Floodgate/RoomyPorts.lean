import Floodgate.NodeAccounting

/-! Switches whose ports have room for all that their counters can count: no event is refused there,
so that the runs of a list of events can be computed. -/

namespace Floodgate

open Std Outcome LabelledRun

namespace SwitchNode

variable {c : SwitchNodeConfig} {s after : SwitchNode} {route : Nat → Nat}

def Roomy (c : SwitchNodeConfig) : Prop := ∀ dev, (4294967296 : Rat) ≤ (c.device dev).maxBytes

/-- Queues with room for all that their counter can count refuse nothing. -/
theorem switchSend_roomy (roomy : Roomy c) (whole : NoDrops s) (outDev qIndex : Nat) (p : Packet) : NoDrops (s.switchSend c outDev qIndex p) := by
  intro dev
  have kept := whole dev
  by_cases here : dev = outDev
  · subst here
    have small : Word32.add (s.device dev).queue.bytesInQueueTotal p.size < 4294967296 :=
      Word32.add_lt _ _
    have count : (Word32.add (s.device dev).queue.bytesInQueueTotal p.size : Rat) < 4294967296 := by
      exact_mod_cast small
    have takes := Std.lt_of_lt_of_le count (roomy dev)
    simpa [switchSend, setDevice, QbbNetDevice.switchSend, BEgressQueue.enqueue, takes] using kept
  · simpa [switchSend, setDevice, here] using kept

theorem forward_roomy (roomy : Roomy c) (whole : NoDrops s) {inDev : Nat} {outDev : Option Nat}
    {p : Packet}
    (success : s.forward c inDev outDev p = .ok after) : NoDrops after := by
  have admitted : ∀ dev, NoDrops (s.admitPacket c inDev dev (c.qIndexOf p) p) := by
    intro dev
    unfold admitPacket checkAndSendPfc
    split
    · exact whole
    · split
      · have paused := switchSend_roomy roomy whole inDev 0
          (pfcPacket (c.device inDev) (c.pfcFine inDev (c.qIndexOf p) p.dip) 0)
        exact fun port => paused port
      · exact fun port => whole port
  unfold forward at success
  cases outDev with
  | none =>
      obtain rfl := Except.ok.inj success
      exact whole
  | some outDev =>
      simp only at success
      split at success
      · unfold passOn at success
        split at success
        · obtain ⟨⟨routed, up⟩, -, success⟩ := bind_ok.mp success
          cases routed with
          | some p' =>
              obtain rfl := Except.ok.inj success
              exact switchSend_roomy roomy (fun port => admitted outDev port) outDev _ p'
          | none =>
              obtain rfl := Except.ok.inj success
              exact fun port => admitted outDev port
        · obtain rfl := Except.ok.inj success
          exact switchSend_roomy roomy (admitted outDev) outDev _ p
      · obtain rfl := Except.ok.inj success
        exact fun port => whole port

theorem Roomy.checkAndSendACK (roomy : Roomy c) (whole : NoDrops s) (p : Packet)
    (threshold creditId : Nat) :
    Holds (fun _ => True) (fun after => NoDrops after.2)
      (s.checkAndSendACK c route p threshold creditId) := by
  apply holds_of_success
  rintro ⟨sent, after⟩ success
  unfold SwitchNode.checkAndSendACK at success
  split at success
  · obtain ⟨due, -, success⟩ := bind_ok.mp success
    split at success
    · obtain ⟨sent, sending, success⟩ := bind_ok.mp success
      obtain ⟨-, rfl⟩ := Prod.mk.inj (Except.ok.inj success)
      obtain ⟨cleaned, -, success⟩ := bind_ok.mp sending
      obtain rfl := Except.ok.inj success
      unfold SwitchNode.sendAccSwitchACK at sending
      intro dev
      dsimp only
      split
      · exact switchSend_roomy roomy whole _ 0 _ dev
      · exact switchSend_roomy roomy whole _ 0 _ dev
    · obtain ⟨-, rfl⟩ := Prod.mk.inj (Except.ok.inj success)
      exact whole
  · obtain ⟨credit, -, success⟩ := bind_ok.mp success
    split at success
    · obtain ⟨sent, sending, success⟩ := bind_ok.mp success
      obtain ⟨-, rfl⟩ := Prod.mk.inj (Except.ok.inj success)
      obtain ⟨cleaned, -, success⟩ := bind_ok.mp sending
      obtain rfl := Except.ok.inj success
      exact fun dev => switchSend_roomy roomy whole _ 0 _ dev
    · obtain ⟨-, rfl⟩ := Prod.mk.inj (Except.ok.inj success)
      exact whole
  · obtain ⟨-, rfl⟩ := Prod.mk.inj (Except.ok.inj success)
    exact whole

theorem Roomy.checkAndSendACKs (roomy : Roomy c) (whole : NoDrops s) (p : Packet)
    (threshold : Nat) (ids : List Nat) :
    Holds (fun _ => True) (fun after => NoDrops after.2)
      (s.checkAndSendACKs c route p threshold ids) := by
  apply Holds.foldlM (fun state : Bool × SwitchNode => NoDrops state.2) _ _ whole
  intro state creditId _ before
  apply (roomy.checkAndSendACK before p threshold creditId).bind
  exact fun _ _ later => later

theorem Roomy.returnCredits (roomy : Roomy c) (whole : NoDrops s) (p : Packet) (creditId : Nat) :
    Holds (fun _ => True) NoDrops (s.returnCredits c route p creditId) := by
  unfold SwitchNode.returnCredits
  apply (roomy.checkAndSendACKs whole p _ _).bind
  intro first _ before
  split
  · apply (roomy.checkAndSendACKs before p _ _).bind
    exact fun _ _ later => later
  · exact before

theorem Roomy.depart (roomy : Roomy c) (whole : NoDrops s) (inDev ifIndex qIndex : Nat)
    (p : Packet) : NoDrops (s.depart c inDev ifIndex qIndex p) := by
  unfold SwitchNode.depart SwitchNode.checkAndSendResume
  split
  · exact whole
  · split
    · have resumed := switchSend_roomy roomy whole inDev 0
        (pfcPacket (c.device inDev) (c.pfcFine inDev qIndex p.dip) 1)
      exact fun dev => resumed dev
    · exact fun dev => whole dev

theorem Roomy.transmit (roomy : Roomy c) (whole : NoDrops s) {ifIndex : Nat} {out : Option Packet}
    (success : s.transmit c route ifIndex = .ok (out, after)) : NoDrops after := by
  unfold SwitchNode.transmit at success
  split at success
  · obtain ⟨-, rfl⟩ := Prod.mk.inj (Except.ok.inj success)
    exact whole
  · rename_i p qIndex queue served
    obtain ⟨⟨p', middle⟩, notifying, success⟩ := bind_ok.mp success
    obtain ⟨-, rfl⟩ := Prod.mk.inj (Except.ok.inj success)
    have taken : NoDrops (s.setDevice ifIndex { s.device ifIndex with queue := queue }) := by
      have dequeues := BEgressQueue.dequeueRR_dequeues served
      intro dev
      by_cases here : dev = ifIndex
      · subst here
        simp [SwitchNode.setDevice, dequeues.dropped, whole dev]
      · simp [SwitchNode.setDevice, here, whole dev]
    have departed := roomy.depart taken (p.flowId.getD 0) ifIndex qIndex p
    have owing : ∀ d : Downstream, NoDrops { (s.setDevice ifIndex { s.device ifIndex with
        queue := queue }).depart c (p.flowId.getD 0) ifIndex qIndex p with downstream := d } :=
      fun _ => departed
    unfold SwitchNode.notifyDequeue at notifying
    dsimp only at notifying
    split at notifying
    · obtain ⟨ignore, -, notifying⟩ := bind_ok.mp notifying
      split at notifying
      · obtain ⟨-, rfl⟩ := Prod.mk.inj (Except.ok.inj notifying)
        exact departed
      · split at notifying
        · split at notifying
          · cases notifying
          · obtain ⟨returned, returning, notifying⟩ := bind_ok.mp notifying
            obtain ⟨-, rfl⟩ := Prod.mk.inj (Except.ok.inj notifying)
            exact (roomy.returnCredits (owing _) p _).of_ok returning
        · obtain ⟨returned, returning, notifying⟩ := bind_ok.mp notifying
          obtain ⟨-, rfl⟩ := Prod.mk.inj (Except.ok.inj notifying)
          exact (roomy.returnCredits (owing _) p _).of_ok returning
    · obtain ⟨-, rfl⟩ := Prod.mk.inj (Except.ok.inj notifying)
      exact departed

theorem Roomy.receive (roomy : Roomy c) (whole : NoDrops s) {inDev : Nat} {outDev : Option Nat}
    {p : Packet} (data : p.isPfc = false) (plain : p.synTag = none)
    (success : s.receive c route inDev outDev p = .ok after) : NoDrops after := by
  unfold SwitchNode.receive at success
  rw [data] at success
  simp only [Bool.false_eq_true, if_false] at success
  unfold SwitchNode.enter at success
  have bare : (p.setFlowId (some inDev)).synTag = none := plain
  have kept : NoDrops (s.recordPsn c inDev (p.setFlowId (some inDev))).2 := by
    obtain ⟨-, device, -⟩ := @SwitchNode.recordPsn_same c s inDev (p.setFlowId (some inDev))
    intro dev
    rw [device]
    exact whole dev
  rw [bare] at success
  split at success
  · rename_i same
    cases same
  · dsimp only at success
    split at success
    · obtain ⟨restored, -, success⟩ := bind_ok.mp success
      obtain rfl := Except.ok.inj success
      exact fun dev => kept dev
    · exact forward_roomy roomy kept success

theorem Roomy.release (roomy : Roomy c) (whole : NoDrops s) {voq : Nat × Nat}
    (success : s.release c voq = .ok after) : NoDrops after := by
  unfold SwitchNode.release at success
  obtain ⟨⟨sent, up⟩, -, success⟩ := bind_ok.mp success
  cases sent with
  | none =>
      obtain rfl := Except.ok.inj success
      exact whole
  | some unit =>
      obtain rfl := Except.ok.inj success
      have kept : NoDrops { s with upstream := up } := whole
      exact switchSend_roomy roomy kept unit.outDev unit.qIndex unit.pkt

/-- The events that send no SYN and meet no PFC frame or SYN. -/
def Plain : NodeEvent → Prop
  | .receive _ _ p => p.isPfc = false ∧ p.synTag = none
  | .release _ | .transmit _ => True
  | _ => False

theorem Roomy.handle (roomy : Roomy c) (whole : NoDrops s) {event : NodeEvent} (plain : Plain event)
    {out : Option Packet} (success : s.handle c route event = .ok (out, after)) : NoDrops after := by
  cases event with
  | receive inDev outDev p =>
      obtain ⟨received, receiving, success⟩ := bind_ok.mp success
      obtain ⟨-, rfl⟩ := Prod.mk.inj (Except.ok.inj success)
      exact roomy.receive whole plain.1 plain.2 receiving
  | release voq =>
      obtain ⟨released, releasing, success⟩ := bind_ok.mp success
      obtain ⟨-, rfl⟩ := Prod.mk.inj (Except.ok.inj success)
      exact roomy.release whole releasing
  | transmit ifIndex => exact roomy.transmit whole success
  | goOn => exact plain.elim
  | creditTimeout => exact plain.elim
  | synTimeout => exact plain.elim

end SwitchNode

end Floodgate
