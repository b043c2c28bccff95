import Floodgate.NodeRuns
import Floodgate.VoqContents

/-! Where data packets are in a switch, whatever the number of bytes: in VOQs and egress queues that
exist, with the port they came in on. -/

namespace Floodgate

open Std Outcome LabelledRun

/-- The test with which `BEgressQueue` takes a packet. -/
def BEgressQueue.Takes (c : DeviceConfig) (e : BEgressQueue) (p : Packet) : Prop :=
  (Word32.add e.bytesInQueueTotal p.size : Rat) < c.maxBytes

namespace SwitchNode

/-- A data packet for `dst` is in a VOQ or in an egress queue. -/
def Holding (s : SwitchNode) (dst : Nat) : Prop :=
  (∃ voq, ∃ unit ∈ s.upstream.voqPackets voq, unit.dst = dst) ∨
    ∃ dev qIndex, ∃ p ∈ s.queues dev qIndex, p.isUdp = true ∧ p.dip = dst

/-- A data packet for a host knows its ingress port and is, or will be, in an existing queue. -/
structure Placed (c : SwitchNodeConfig) (p : Packet) (outDev qIndex : Nat) : Prop where
  ingress : ∃ port < c.nDevices, p.flowId = some port
  egress : outDev < c.nDevices
  queue : qIndex < qCnt
  host : p.dip < c.settings.hostNum

/-- The counts of the VOQs are exact, and data packets are placed. -/
structure Places (c : SwitchNodeConfig) (s : SwitchNode) : Prop where
  counted : Upstream.Counted s.upstream
  units : ∀ voq, ∀ unit ∈ s.upstream.voqPackets voq, unit.pkt.isUdp = true ∧
    unit.pkt.dip = unit.dst ∧ Placed c unit.pkt unit.outDev unit.qIndex
  packets : ∀ dev qIndex, ∀ p ∈ s.queues dev qIndex, p.isUdp = true → Placed c p dev qIndex

def Stays (s after : SwitchNode) : Prop := ∀ dst, s.Holding dst → after.Holding dst

section Moves

variable {c : SwitchNodeConfig} {s middle after : SwitchNode}

theorem Stays.refl (s : SwitchNode) : Stays s s := fun _ => id

theorem Stays.trans (left : Stays s middle) (right : Stays middle after) : Stays s after :=
  fun dst held => right dst (left dst held)

theorem holding_congr (s after : SwitchNode)
    (upstream : ∀ voq, after.upstream.voqPackets voq = s.upstream.voqPackets voq)
    (queues : after.queues = s.queues) (dst : Nat) : after.Holding dst ↔ s.Holding dst := by
  simp only [Holding, upstream, queues]

theorem Emits.holding_iff {frames : Nat → List Packet} (emits : Emits s after frames) (dst : Nat) :
    after.Holding dst ↔ s.Holding dst := by
  unfold Holding
  rw [emits.upstream]
  apply or_congr_right
  constructor
  · rintro ⟨dev, qIndex, p, member, data, target⟩
    rcases emits.member member with before | ⟨_, frame⟩
    · exact ⟨dev, qIndex, p, before, data, target⟩
    · have control := emits.control dev p frame
      rw [data] at control
      contradiction
  · rintro ⟨dev, qIndex, p, member, data, target⟩
    refine ⟨dev, qIndex, p, ?_, data, target⟩
    obtain ⟨taken, _, _, queues⟩ := emits.queues dev
    rw [queues]
    split
    · rename_i zero
      rw [zero] at member
      exact List.mem_append_left _ member
    · exact member

theorem Places.emits {frames : Nat → List Packet} (places : Places c s)
    (emits : Emits s after frames) : Places c after ∧ Stays s after := by
  refine ⟨⟨emits.upstream ▸ places.counted, emits.upstream ▸ places.units,
    fun dev qIndex p member data => ?_⟩, fun dst => (emits.holding_iff dst).mpr⟩
  rcases emits.member member with before | ⟨_, frame⟩
  · exact places.packets dev qIndex p before data
  · have control := emits.control dev p frame
    rw [data] at control
    contradiction

/-- The queue `qIndex` of the port `outDev` takes a packet or stays as it is. -/
theorem switchSend_cases (c : SwitchNodeConfig) (s : SwitchNode) (outDev qIndex : Nat)
    (p : Packet) :
    ((s.device outDev).queue.Takes (c.device outDev) p ∧
      (s.switchSend c outDev qIndex p).queues =
        setCell s.queues outDev qIndex (s.queues outDev qIndex ++ [p])) ∨
    (¬ (s.device outDev).queue.Takes (c.device outDev) p ∧
      (s.switchSend c outDev qIndex p).queues = s.queues) := by
  by_cases takes : (s.device outDev).queue.Takes (c.device outDev) p
  · refine .inl ⟨takes, ?_⟩
    funext dev q
    by_cases here : dev = outDev
    · subst here
      have room : (Word32.add (s.device dev).queue.bytesInQueueTotal p.size : Rat) <
          (c.device dev).maxBytes := takes
      simp [queues, switchSend, setDevice, QbbNetDevice.switchSend, BEgressQueue.enqueue, room,
        BEgressQueue.setQueue, setCell]
    · simp [queues, switchSend, setDevice, setCell, here]
  · refine .inr ⟨takes, ?_⟩
    funext dev q
    by_cases here : dev = outDev
    · subst here
      have full : ¬ (Word32.add (s.device dev).queue.bytesInQueueTotal p.size : Rat) <
          (c.device dev).maxBytes := takes
      simp [queues, switchSend, setDevice, QbbNetDevice.switchSend, BEgressQueue.enqueue, full]
    · simp [queues, switchSend, setDevice, here]

theorem switchSend_kept {outDev qIndex dev q : Nat} {p other : Packet}
    (member : other ∈ s.queues dev q) : other ∈ (s.switchSend c outDev qIndex p).queues dev q := by
  rcases switchSend_cases c s outDev qIndex p with ⟨_, queues⟩ | ⟨_, queues⟩
  · rw [queues]
    by_cases here : dev = outDev ∧ q = qIndex
    · obtain ⟨rfl, rfl⟩ := here
      rw [setCell_same]
      exact List.mem_append_left _ member
    · rw [setCell_other _ _ _ _ _ _ here]
      exact member
  · rw [queues]
    exact member

theorem switchSend_member {outDev qIndex dev q : Nat} {p other : Packet}
    (member : other ∈ (s.switchSend c outDev qIndex p).queues dev q) :
    other ∈ s.queues dev q ∨ other = p ∧ dev = outDev ∧ q = qIndex := by
  rcases switchSend_cases c s outDev qIndex p with ⟨_, queues⟩ | ⟨_, queues⟩
  · rw [queues] at member
    by_cases here : dev = outDev ∧ q = qIndex
    · obtain ⟨rfl, rfl⟩ := here
      rw [setCell_same] at member
      rcases List.mem_append.mp member with before | new
      · exact .inl before
      · exact .inr ⟨List.mem_singleton.mp new, rfl, rfl⟩
    · rw [setCell_other _ _ _ _ _ _ here] at member
      exact .inl member
  · rw [queues] at member
    exact .inl member

theorem Places.sent (places : Places c s) (outDev qIndex : Nat) (p : Packet)
    (placed : p.isUdp = true → Placed c p outDev qIndex) :
    Places c (s.switchSend c outDev qIndex p) ∧ Stays s (s.switchSend c outDev qIndex p) := by
  refine ⟨⟨places.counted, places.units, fun dev q other member data => ?_⟩, fun dst held => ?_⟩
  · rcases switchSend_member member with before | ⟨rfl, rfl, rfl⟩
    · exact places.packets dev q other before data
    · exact placed data
  · rcases held with voqs | ⟨dev, q, other, member, data, target⟩
    · exact .inl voqs
    · exact .inr ⟨dev, q, other, switchSend_kept member, data, target⟩

theorem Places.frame (places : Places c s) {up : Upstream}
    (frame : Upstream.Frame s.upstream up) :
    Places c { s with upstream := up } ∧ Stays s { s with upstream := up } := by
  refine ⟨⟨places.counted.frame frame, fun voq unit member => ?_, places.packets⟩,
    fun dst held => ?_⟩
  · exact places.units voq unit (by rwa [← frame.voqPackets])
  · exact (holding_congr s { s with upstream := up } frame.voqPackets rfl dst).mpr held

theorem Places.stored (places : Places c s) {unit : PacketUnit} {up : Upstream}
    (stores : Upstream.Stores s.upstream unit up) (data : unit.pkt.isUdp = true)
    (target : unit.pkt.dip = unit.dst) (placed : Placed c unit.pkt unit.outDev unit.qIndex) :
    Places c { s with upstream := up } ∧ Stays s { s with upstream := up } := by
  refine ⟨⟨stores.counted places.counted, fun voq other member => ?_, places.packets⟩,
    fun dst held => ?_⟩
  · rcases stores.member member with before | rfl
    · exact places.units voq other before
    · exact ⟨data, target, placed⟩
  · rcases held with ⟨voq, other, member, here⟩ | queued
    · exact .inl ⟨voq, other, stores.kept member, here⟩
    · exact .inr queued

theorem Places.same (places : Places c s) (device : after.device = s.device)
    (upstream : after.upstream = s.upstream) : Places c after ∧ Stays s after := by
  have queues : after.queues = s.queues := by
    funext dev q
    simp only [SwitchNode.queues, device]
  refine ⟨⟨upstream ▸ places.counted, upstream ▸ places.units, queues ▸ places.packets⟩,
    fun dst held => ?_⟩
  exact (holding_congr s after (fun voq => by rw [upstream]) queues dst).mpr held

theorem Places.downstream (places : Places c s) (d : Downstream) :
    Places c { s with downstream := d } := ⟨places.counted, places.units, places.packets⟩

end Moves

section Arrivals

variable {c : SwitchNodeConfig} {s after : SwitchNode}

theorem Places.passedOn (places : Places c s) {outDev qIndex : Nat} {p : Packet}
    (placed : Placed c p outDev qIndex) (success : s.passOn c outDev qIndex p = .ok after) :
    Places c after ∧ Stays s after ∧ after.downstream = s.downstream := by
  unfold passOn at success
  split at success
  · obtain ⟨⟨routed, up⟩, checking, success⟩ := bind_ok.mp success
    have contents := (Upstream.checkVOQWin_contents p outDev qIndex).of_ok checking
    cases routed with
    | some p' =>
        obtain ⟨frame, psn⟩ := contents
        obtain rfl := Except.ok.inj success
        obtain ⟨framed, stays⟩ := places.frame frame
        have placed' : Placed c p' outDev qIndex := by
          rcases psn with rfl | ⟨psn, rfl⟩
          · exact placed
          · exact ⟨(Packet.setPsn_flowId p psn).symm ▸ placed.ingress, placed.egress, placed.queue,
              (Packet.setPsn_dip p psn).symm ▸ placed.host⟩
        obtain ⟨sent, stays'⟩ := framed.sent outDev qIndex p' fun _ => placed'
        exact ⟨sent, stays.trans stays', rfl⟩
    | none =>
        obtain ⟨data, checked, frame, stores⟩ := contents
        obtain rfl := Except.ok.inj success
        obtain ⟨framed, stays⟩ := places.frame frame
        obtain ⟨stored, stays'⟩ := framed.stored stores data rfl placed
        exact ⟨stored, stays.trans stays', rfl⟩
  · obtain rfl := Except.ok.inj success
    obtain ⟨sent, stays⟩ := places.sent outDev qIndex p fun _ => placed
    exact ⟨sent, stays, rfl⟩

theorem Places.signals (places : Places c s) (signals : Signals s after) :
    Places c after ∧ Stays s after := by
  obtain ⟨frames, emits⟩ := signals.emits
  exact places.emits emits

theorem Places.forwarded (places : Places c s) {inDev : Nat} {outDev : Option Nat} {p : Packet}
    (known : ∃ port < c.nDevices, p.flowId = some port)
    (egress : ∀ dev, outDev = some dev → dev < c.nDevices) (host : p.dip < c.settings.hostNum)
    (success : s.forward c inDev outDev p = .ok after) :
    Places c after ∧ Stays s after ∧ after.downstream = s.downstream := by
  unfold forward at success
  cases outDev with
  | none =>
      obtain rfl := Except.ok.inj success
      exact ⟨places, Stays.refl s, rfl⟩
  | some outDev =>
      simp only at success
      split at success
      · obtain ⟨device, upstream, downstream⟩ := charged_same c s inDev outDev (c.qIndexOf p) p
        have signals := admit_signals c s inDev outDev (c.qIndexOf p) p
        obtain ⟨charged, stays⟩ := places.same device upstream
        obtain ⟨admitted, stays'⟩ := charged.signals signals
        obtain ⟨passed, stays'', same⟩ := admitted.passedOn
          ⟨known, egress outDev rfl, qIndexOf_lt c p, host⟩ success
        exact ⟨passed, (stays.trans stays').trans stays'',
          same.trans (signals.downstream.trans downstream)⟩
      · obtain rfl := Except.ok.inj success
        obtain ⟨kept, stays⟩ := @Places.same c s { s with dropPackets := s.dropPackets + 1 } places
          rfl rfl
        exact ⟨kept, stays, rfl⟩

structure SameDebts (before after : Downstream) : Prop where
  ingressDstCredits : after.ingressDstCredits = before.ingressDstCredits
  nxtAckPsn : after.nxtAckPsn = before.nxtAckPsn
  lstAckPsn : after.lstAckPsn = before.lstAckPsn

theorem SameDebts.of_eq {before after : Downstream} (same : after = before) :
    SameDebts before after := by
  rw [same]
  exact ⟨rfl, rfl, rfl⟩

theorem SameDebts.credit {before after : Downstream} (same : SameDebts before after)
    (row dst : Nat) : after.credit row dst = before.credit row dst := by
  simp only [Downstream.credit, same.ingressDstCredits]

theorem recordPsn_debts (s : SwitchNode) (inDev : Nat) (p : Packet) :
    SameDebts s.downstream (s.recordPsn c inDev p).2.downstream := by
  unfold recordPsn
  split
  · exact ⟨rfl, rfl, rfl⟩
  · exact ⟨rfl, rfl, rfl⟩

theorem Places.received (places : Places c s) {route : Nat → Nat} {inDev : Nat}
    {outDev : Option Nat} {p : Packet} (port : inDev < c.nDevices)
    (egress : ∀ dev, outDev = some dev → dev < c.nDevices) (host : p.dip < c.settings.hostNum)
    (success : s.receive c route inDev outDev p = .ok after) :
    Places c after ∧ Stays s after ∧ (SameDebts s.downstream after.downstream ∨
      ∃ tag, p.synTag = some tag ∧ Replies c { s with
        downstream := (s.downstream.checkSYN c.settings (c.creditRow inDev p.sip) tag).2 }
        after) := by
  unfold receive at success
  split at success
  · obtain ⟨device, received, success⟩ := bind_ok.mp success
    obtain rfl := Except.ok.inj success
    have queues := (@setDevice_queues s inDev device (receive_queue received)).1
    refine ⟨⟨places.counted, places.units, queues ▸ places.packets⟩, fun dst held => ?_,
      .inl ⟨rfl, rfl, rfl⟩⟩
    exact (holding_congr s (s.setDevice inDev device) (fun _ => rfl) queues dst).mpr held
  · unfold enter at success
    split at success
    · rename_i tag _ frame
      have replies := (receiveSYN_replies c route s tag p.sip p.dip inDev).of_ok success
      obtain ⟨checked, stays⟩ := @Places.same c s { s with
        downstream := (s.downstream.checkSYN c.settings (c.creditRow inDev p.sip) tag).2 } places
        rfl rfl
      obtain ⟨frames, returns⟩ := replies
      obtain ⟨replied, stays'⟩ := checked.emits returns.emits
      exact ⟨replied, stays.trans stays', .inr ⟨tag, frame, frames, returns⟩⟩
    · have debts := @recordPsn_debts c s inDev (p.setFlowId (some inDev))
      obtain ⟨upstream, device, _⟩ :=
        @recordPsn_same c s inDev (p.setFlowId (some inDev))
      obtain ⟨sameDip, sameId⟩ := @recordPsn_dip c s inDev (p.setFlowId (some inDev))
      obtain ⟨recorded, stays⟩ := places.same device upstream
      simp only at success
      split at success
      · obtain ⟨up, restoring, success⟩ := bind_ok.mp success
        obtain rfl := Except.ok.inj success
        obtain ⟨framed, stays'⟩ :=
          recorded.frame ((Upstream.restoreWin_frame _ _ _ _ _).of_ok restoring)
        exact ⟨framed, stays.trans stays', .inl debts⟩
      · obtain ⟨forwarded, stays', same⟩ := recorded.forwarded
          (sameId.symm ▸ ⟨inDev, port, rfl⟩) egress (sameDip.symm ▸ host) success
        exact ⟨forwarded, stays.trans stays', .inl (same ▸ debts)⟩

end Arrivals

section Departures

variable {c : SwitchNodeConfig} {s after : SwitchNode}

theorem Places.yielded (places : Places c s) {voq : Nat × Nat} {top unit : PacketUnit}
    {up : Upstream} (yields : Upstream.Yields s.upstream voq top unit up) :
    Places c { s with upstream := up } ∧ unit.pkt.isUdp = true ∧ unit.pkt.dip = unit.dst ∧
      unit.dst = top.dst ∧ Placed c unit.pkt unit.outDev unit.qIndex := by
  obtain ⟨data, target, placed⟩ := places.units voq top yields.top_mem
  refine ⟨⟨yields.counted places.counted,
    fun place other member => places.units place other (yields.member member), places.packets⟩, ?_⟩
  rcases yields.unit with rfl | ⟨psn, rfl⟩
  · exact ⟨data, target, rfl, placed⟩
  · exact ⟨(Packet.setPsn_isUdp _ _).trans data, (Packet.setPsn_dip _ _).trans target, rfl,
      (Packet.setPsn_flowId top.pkt psn).symm ▸ placed.ingress, placed.egress, placed.queue,
      (Packet.setPsn_dip top.pkt psn).symm ▸ placed.host⟩

theorem Places.taken (places : Places c s) {ifIndex qIndex : Nat} {p : Packet}
    {queue : BEgressQueue} (dequeues : (s.device ifIndex).queue.Dequeues p qIndex queue) :
    Places c (s.taken ifIndex queue) ∧
      (∀ dst, s.Holding dst → (s.taken ifIndex queue).Holding dst ∨
        p.isUdp = true ∧ dst = p.dip) ∧
      (p.isUdp = true → Placed c p ifIndex qIndex) := by
  obtain ⟨head, others⟩ := taken_queues dequeues
  refine ⟨⟨places.counted, places.units, fun dev q other member data =>
    places.packets dev q other (taken_member dequeues member) data⟩, fun dst held => ?_,
    places.packets ifIndex qIndex p (taken_head dequeues)⟩
  · rcases held with voqs | ⟨dev, q, other, member, data, target⟩
    · exact .inl (.inl voqs)
    · by_cases here : dev = ifIndex ∧ q = qIndex
      · obtain ⟨rfl, rfl⟩ := here
        rw [head] at member
        rcases List.mem_cons.mp member with rfl | later
        · exact .inr ⟨data, target.symm⟩
        · exact .inl (.inr ⟨dev, q, other, later, data, target⟩)
      · refine .inl (.inr ⟨dev, q, other, ?_, data, target⟩)
        rwa [others dev q here]

theorem Places.notified (places : Places c s) {ifIndex qIndex : Nat} {p p' : Packet}
    (notified : Notified c s ifIndex qIndex p p' after) : Places c after := by
  obtain ⟨device, upstream, _⟩ := discharged_same c s (p.flowId.getD 0) ifIndex qIndex p
  have departed := ((places.same device upstream).1.signals
    (depart_signals c s (p.flowId.getD 0) ifIndex qIndex p)).1
  cases notified with
  | plain => exact departed
  | credit _ _ replies =>
      obtain ⟨frames, returns⟩ := replies
      exact ((departed.downstream _).emits returns.emits).1
  | psn _ _ _ replies =>
      obtain ⟨frames, returns⟩ := replies
      exact ((departed.downstream _).emits returns.emits).1

theorem Places.released (places : Places c s) {voq : Nat × Nat}
    (success : s.release c voq = .ok after) : Places c after := by
  unfold release at success
  obtain ⟨⟨sent, up⟩, sending, success⟩ := bind_ok.mp success
  have contents := (Upstream.checkAndSendOne_yields voq).of_ok sending
  cases sent with
  | none =>
      obtain rfl := Except.ok.inj success
      exact (places.frame contents).1
  | some unit =>
      obtain rfl := Except.ok.inj success
      obtain ⟨top, yields⟩ := contents
      obtain ⟨popped, _, _, _, placed⟩ := places.yielded yields
      exact (popped.sent unit.outDev unit.qIndex unit.pkt fun _ => placed).1

theorem Places.transmitted (places : Places c s) {route : Nat → Nat} {ifIndex : Nat}
    {out : Option Packet} (success : s.transmit c route ifIndex = .ok (out, after)) :
    Places c after := by
  cases (transmit_transmits c route s ifIndex).of_ok success with
  | idle => exact places
  | sent served notified =>
      exact (places.taken (BEgressQueue.dequeueRR_dequeues served)).1.notified notified

theorem Places.timedOut (places : Places c s) {route : Nat → Nat} {dev dst : Nat}
    (success : s.creditTimeout c route dev dst = .ok after) : Places c after := by
  obtain ⟨frames, returns⟩ := (creditTimeout_replies c route s dev dst).of_ok success
  exact (places.emits returns.emits).1

theorem Places.handled (places : Places c s) {label : NodeEvent × Option Packet}
    (step : Step c s label after) : Places c after := by
  obtain ⟨event, out⟩ := label
  obtain ⟨valid, route, success⟩ := step
  cases event with
  | receive inDev outDev p =>
      obtain ⟨middle, received, success⟩ := bind_ok.mp success
      obtain ⟨-, rfl⟩ := Prod.mk.inj (Except.ok.inj success)
      exact (places.received valid.1 valid.2.1 valid.2.2 received).1
  | goOn inDev outDev p tagged =>
      obtain ⟨middle, forwarded, success⟩ := bind_ok.mp success
      obtain ⟨-, rfl⟩ := Prod.mk.inj (Except.ok.inj success)
      have known : ∃ port < c.nDevices, (p.setFlowId (some inDev)).flowId = some port :=
        ⟨inDev, valid.1, rfl⟩
      exact (places.forwarded known valid.2.1 valid.2.2 forwarded).1
  | release voq =>
      obtain ⟨middle, released, success⟩ := bind_ok.mp success
      obtain ⟨-, rfl⟩ := Prod.mk.inj (Except.ok.inj success)
      exact places.released released
  | transmit ifIndex => exact places.transmitted success
  | creditTimeout dev dst =>
      obtain ⟨middle, fired, success⟩ := bind_ok.mp success
      obtain ⟨-, rfl⟩ := Prod.mk.inj (Except.ok.inj success)
      exact places.timedOut fired
  | synTimeout dev recent =>
      obtain ⟨-, rfl⟩ := Prod.mk.inj (Except.ok.inj success)
      have probes := synTimeout_probes c route s dev recent
      generalize s.synTimeout c route dev recent = after at probes
      cases probes with
      | idle => exact places
      | @sent port p body =>
          have control : p.isUdp = false := by simp [Packet.isUdp, body]
          exact (places.sent port 0 p fun data => by simp [control] at data).1

theorem Places.init (c : SwitchNodeConfig) : Places c (SwitchNode.init c) := by
  refine ⟨Upstream.Counted.init c.upstream, fun voq unit member => ?_,
    fun dev qIndex p member => absurd member (by simp [init_queues])⟩
  have registered := (Upstream.Consistent.init c.upstream).registered voq unit member
  simp [Upstream.init] at registered

end Departures

def holds (c : SwitchNodeConfig) (s : SwitchNode) (dst : Nat) : Bool :=
  (s.upstream.heldPackets.any fun unit => unit.dst = dst) ||
    (List.range c.nDevices).any fun dev => (List.range qCnt).any fun qIndex =>
      (s.queues dev qIndex).any fun p => p.isUdp && decide (p.dip = dst)

theorem Places.holds {c : SwitchNodeConfig} {s : SwitchNode} (places : Places c s) {dst : Nat}
    (held : s.Holding dst) : s.holds c dst = true := by
  unfold SwitchNode.holds
  rw [Bool.or_eq_true]
  rcases held with ⟨voq, unit, member, target⟩ | ⟨dev, qIndex, p, member, data, target⟩
  · left
    rw [List.any_eq_true]
    refine ⟨unit, ?_, by simp [target]⟩
    unfold Upstream.voqPackets at member
    cases known : s.upstream.voqGroups[voq.1]? with
    | none => simp [known] at member
    | some g =>
        simp only [known, VOQGroup.packets] at member
        cases stored : g.voqs[voq.2]? with
        | none => simp [stored] at member
        | some units =>
            simp only [stored, Option.getD_some] at member
            unfold Upstream.heldPackets
            rw [List.mem_flatMap]
            refine ⟨(voq.1, g), ExtTreeMap.mem_toList_iff_getElem?_eq_some.mpr known, ?_⟩
            rw [List.mem_flatMap]
            exact ⟨(voq.2, units), ExtTreeMap.mem_toList_iff_getElem?_eq_some.mpr stored, member⟩
  · right
    have placed := places.packets dev qIndex p member data
    rw [List.any_eq_true]
    refine ⟨dev, List.mem_range.mpr placed.egress, ?_⟩
    rw [List.any_eq_true]
    refine ⟨qIndex, List.mem_range.mpr placed.queue, ?_⟩
    rw [List.any_eq_true]
    exact ⟨p, member, by simp [data, target]⟩

end SwitchNode

end Floodgate
