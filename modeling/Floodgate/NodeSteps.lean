import Floodgate.NodeAcks

/-! The steps of a switch, each described once. -/

namespace Floodgate.SwitchNode

open Std Outcome Downstream

structure SameBytes (before after : Admission) : Prop where
  shared : after.sharedUsedBytes = before.sharedUsedBytes
  hdrm : after.hdrmBytes = before.hdrmBytes
  ingress : after.ingressBytes = before.ingressBytes
  egress : after.egressBytes = before.egressBytes

structure Signals (before after : SwitchNode) : Prop where
  emits : ∃ frames, Emits before after frames
  bytes : SameBytes before.admission after.admission
  downstream : after.downstream = before.downstream

section Signals

variable {first second third : SwitchNode} (c : SwitchNodeConfig) (s : SwitchNode)

theorem Signals.refl : Signals s s := ⟨⟨_, Emits.refl s⟩, ⟨rfl, rfl, rfl, rfl⟩, rfl⟩

theorem checkAndSendPfc_signals (inDev fine : Nat) :
    Signals s (s.checkAndSendPfc c inDev fine) := by
  unfold checkAndSendPfc
  split
  · have emits := switchSend_emits c s inDev (p := pfcPacket (c.device inDev) fine 0) rfl
    exact ⟨⟨_, emits.congr ⟨rfl, rfl⟩ ⟨rfl, rfl⟩⟩, ⟨rfl, rfl, rfl, rfl⟩, rfl⟩
  · exact Signals.refl s

theorem checkAndSendResume_signals (inDev fine : Nat) :
    Signals s (s.checkAndSendResume c inDev fine) := by
  unfold checkAndSendResume
  split
  · have emits := switchSend_emits c s inDev (p := pfcPacket (c.device inDev) fine 1) rfl
    exact ⟨⟨_, emits.congr ⟨rfl, rfl⟩ ⟨rfl, rfl⟩⟩, ⟨rfl, rfl, rfl, rfl⟩, rfl⟩
  · exact Signals.refl s

def charged (inDev outDev qIndex : Nat) (p : Packet) : SwitchNode :=
  if qIndex = 0 then s else s.charge c inDev outDev qIndex p

theorem admit_signals (inDev outDev qIndex : Nat) (p : Packet) :
    Signals (s.charged c inDev outDev qIndex p) (s.admitPacket c inDev outDev qIndex p) := by
  unfold charged admitPacket
  split
  · exact Signals.refl s
  · exact checkAndSendPfc_signals c _ _ _

def discharged (inDev ifIndex qIndex : Nat) (p : Packet) : SwitchNode :=
  if qIndex = 0 then s else s.discharge c inDev ifIndex qIndex p

theorem depart_signals (inDev ifIndex qIndex : Nat) (p : Packet) :
    Signals (s.discharged c inDev ifIndex qIndex p) (s.depart c inDev ifIndex qIndex p) := by
  unfold discharged depart
  split
  · exact Signals.refl s
  · exact checkAndSendResume_signals c _ _ _

theorem charged_same (inDev outDev qIndex : Nat) (p : Packet) :
    (s.charged c inDev outDev qIndex p).device = s.device ∧
      (s.charged c inDev outDev qIndex p).upstream = s.upstream ∧
      (s.charged c inDev outDev qIndex p).downstream = s.downstream := by
  unfold charged charge
  split
  · exact ⟨rfl, rfl, rfl⟩
  · exact ⟨rfl, rfl, rfl⟩

theorem discharged_same (inDev ifIndex qIndex : Nat) (p : Packet) :
    (s.discharged c inDev ifIndex qIndex p).device = s.device ∧
      (s.discharged c inDev ifIndex qIndex p).upstream = s.upstream ∧
      (s.discharged c inDev ifIndex qIndex p).downstream = s.downstream := by
  unfold discharged discharge
  split
  · exact ⟨rfl, rfl, rfl⟩
  · exact ⟨rfl, rfl, rfl⟩

end Signals

/-- The packet is refused for lack of buffer space, has no route, or passes on. -/
inductive Forwards (c : SwitchNodeConfig) (s : SwitchNode) (inDev : Nat) (p : Packet) :
    Option Nat → SwitchNode → Prop
  | unrouted : Forwards c s inDev p none s
  | dropped (outDev : Nat) (queue : c.qIndexOf p ≠ 0)
      (full : s.admission.checkIngressAdmission c.admission inDev
        (c.pfcFine inDev (c.qIndexOf p) p.dip) p.size = false) :
      Forwards c s inDev p (some outDev) { s with dropPackets := s.dropPackets + 1 }
  | admitted {outDev : Nat} {after : SwitchNode}
      (passed : PassedOn c (s.admitPacket c inDev outDev (c.qIndexOf p) p) p outDev (c.qIndexOf p)
        after) : Forwards c s inDev p (some outDev) after

section Forward

variable {c : SwitchNodeConfig} {s after : SwitchNode} {inDev : Nat} {p : Packet}

theorem admit_upstream (outDev qIndex : Nat) :
    (s.admitPacket c inDev outDev qIndex p).upstream = s.upstream := by
  obtain ⟨frames, emits⟩ := (admit_signals c s inDev outDev qIndex p).emits
  exact emits.upstream.trans (charged_same c s inDev outDev qIndex p).2.1

theorem forward_forwards (consistent : s.upstream.Consistent c.upstream) {outDev : Option Nat}
    (success : s.forward c inDev outDev p = .ok after) : Forwards c s inDev p outDev after := by
  unfold forward at success
  cases outDev with
  | none =>
      obtain rfl := Except.ok.inj success
      exact .unrouted
  | some outDev =>
      simp only at success
      split at success
      · refine .admitted (passOn_passed ?_ success)
        rw [admit_upstream]
        exact consistent
      · rename_i full
        obtain rfl := Except.ok.inj success
        simp only [Bool.or_eq_true, decide_eq_true_eq, Bool.and_eq_true, not_or, not_and] at full
        refine .dropped outDev full.1 ?_
        by_contra room
        exact full.2 (by simpa using room) rfl

end Forward

/-- The packets whose departure earns their upstream credit. -/
def Credited (c : SwitchNodeConfig) (p : Packet) : Prop :=
  c.useFloodgate = true ∧ p.isUdp = true ∧
    ¬ (c.isToR = true ∧ c.upstream.dst2group p.sip = .ignored)

/-- `SwitchNotifyDequeue` for the packet `p`, which travels on as another one. -/
inductive Notified (c : SwitchNodeConfig) (s : SwitchNode) (ifIndex qIndex : Nat) (p : Packet) :
    Packet → SwitchNode → Prop
  | plain (free : ¬ Credited c p) :
      Notified c s ifIndex qIndex p (p.setFlowId none)
        (s.depart c (p.flowId.getD 0) ifIndex qIndex p)
  | credit {after : SwitchNode} (credited : Credited c p)
      (mode : c.settings.switchAbsolutePsn = false)
      (replies : Replies c { s.depart c (p.flowId.getD 0) ifIndex qIndex p with
        downstream := s.downstream.addCreditCounter (c.creditRow (p.flowId.getD 0) p.sip) p.dip
          p.size } after) :
      Notified c s ifIndex qIndex p (p.setFlowId none) after
  | psn {psn : Nat} {after : SwitchNode} (credited : Credited c p)
      (mode : c.settings.switchAbsolutePsn = true) (tag : p.ingressPsn = some psn)
      (replies : Replies c { s.depart c (p.flowId.getD 0) ifIndex qIndex p with
        downstream := s.downstream.updateNxtAckPsn (c.creditRow (p.flowId.getD 0) p.sip) p.dip
          psn } after) :
      Notified c s ifIndex qIndex p ((p.setFlowId none).removeIngressPsn) after

section Notify

variable (c : SwitchNodeConfig) (route : Nat → Nat) (s : SwitchNode)

theorem excused_of_ordered (first second : SwitchNode) {failure : Assertion}
    (ordered : first.downstream.Ordered → second.downstream.Ordered)
    (excused : Excused c second failure) : Excused c first failure :=
  fun all => ⟨(excused all).1, fun before => (excused all).2 (ordered before)⟩

theorem updateNxtAckPsn_ordered {d : Downstream} (ordered : d.Ordered) (dev dst psn : Nat) :
    (d.updateNxtAckPsn dev dst psn).Ordered := by
  intro i j
  have before := ordered i j
  by_cases here : i = dev ∧ j = dst
  · obtain ⟨rfl, rfl⟩ := here
    simp only [updateNxtAckPsn, setCell_same]
    omega
  · simp only [updateNxtAckPsn, setCell_other _ _ _ _ _ _ here]
    exact before

theorem notifyDequeue_notified (ifIndex qIndex : Nat) (p : Packet) :
    Holds (Excused c s) (fun sent => Notified c s ifIndex qIndex p sent.1 sent.2)
      (s.notifyDequeue c route ifIndex qIndex p) := by
  have downstream : (s.depart c (p.flowId.getD 0) ifIndex qIndex p).downstream = s.downstream :=
    (depart_signals c s _ ifIndex qIndex p).downstream.trans
      (discharged_same c s _ ifIndex qIndex p).2.2
  unfold notifyDequeue
  simp only
  split
  case isFalse other =>
    refine .plain fun credited => other ?_
    simp [credited.1, credited.2.1]
  case isTrue data =>
    rw [Bool.and_eq_true] at data
    rw [downstream]
    have known := Upstream.shouldIgnore_input c.upstream p.sip
    cases rule : c.upstream.shouldIgnore p.sip with
    | error failure =>
        have input := known.of_error rule
        unfold UpstreamConfig.shouldIgnore at rule
        cases group : c.upstream.dst2group p.sip with
        | unset =>
            simp only [group, Except.error.injEq] at rule
            subst rule
            exact fun _ => ⟨by simp, fun _ => by simp⟩
        | ignored => simp [group] at rule
        | group id => simp [group] at rule
    | ok ignore =>
        have meaning := known.of_ok rule
        rw [ok_bind]
        split
        · rename_i source
          rw [Bool.and_eq_true] at source
          refine .plain fun credited => credited.2.2 ⟨source.1, ?_⟩
          rcases meaning with ⟨_, ignored⟩ | ⟨keep, _⟩
          · exact ignored
          · rw [keep] at source
            simp at source
        · rename_i source
          have credited : Credited c p := by
            refine ⟨data.1, data.2, ?_⟩
            rintro ⟨tor, ignored⟩
            rcases meaning with ⟨keep, _⟩ | ⟨_, id, group⟩
            · exact source (by simp [tor, keep])
            · rw [ignored] at group
              contradiction
          cases mode : c.settings.switchAbsolutePsn with
          | true =>
              simp only [if_true]
              cases tag : p.ingressPsn with
              | none => exact fun _ => ⟨by simp, fun _ => by simp⟩
              | some psn =>
                  have replies := (returnCredits_replies c route
                    { s.depart c (p.flowId.getD 0) ifIndex qIndex p with
                      downstream := s.downstream.updateNxtAckPsn
                        (c.creditRow (p.flowId.getD 0) p.sip) p.dip psn } p
                    (c.creditRow (p.flowId.getD 0) p.sip)).weaken
                      fun failure excused => excused_of_ordered c s _
                        (fun ordered => updateNxtAckPsn_ordered ordered _ _ _) excused
                  apply replies.bind
                  intro after _ sent
                  exact .psn credited mode tag sent
          | false =>
              simp only [Bool.false_eq_true, if_false]
              have replies := (returnCredits_replies c route
                { s.depart c (p.flowId.getD 0) ifIndex qIndex p with
                  downstream := s.downstream.addCreditCounter
                    (c.creditRow (p.flowId.getD 0) p.sip) p.dip p.size } p
                (c.creditRow (p.flowId.getD 0) p.sip)).weaken
                  fun failure excused => excused_of_ordered c s _
                    (fun ordered => ordered) excused
              apply replies.bind
              intro after _ sent
              exact .credit credited mode sent

end Notify

section Notified

variable {c : SwitchNodeConfig} {s after : SwitchNode} {ifIndex qIndex : Nat} {p p' : Packet}

theorem depart_upstream (inDev : Nat) :
    (s.depart c inDev ifIndex qIndex p).upstream = s.upstream := by
  obtain ⟨frames, emits⟩ := (depart_signals c s inDev ifIndex qIndex p).emits
  exact emits.upstream.trans (discharged_same c s inDev ifIndex qIndex p).2.1

theorem Notified.upstream (notified : Notified c s ifIndex qIndex p p' after) :
    after.upstream = s.upstream := by
  have departed := @depart_upstream c s ifIndex qIndex p (p.flowId.getD 0)
  cases notified with
  | plain => exact departed
  | credit _ _ replies =>
      obtain ⟨acks, returns⟩ := replies
      exact returns.emits.upstream.trans departed
  | psn _ _ _ replies =>
      obtain ⟨acks, returns⟩ := replies
      exact returns.emits.upstream.trans departed

theorem Notified.admission (notified : Notified c s ifIndex qIndex p p' after) :
    after.admission = (s.depart c (p.flowId.getD 0) ifIndex qIndex p).admission := by
  cases notified with
  | plain => rfl
  | credit _ _ replies =>
      obtain ⟨acks, returns⟩ := replies
      exact returns.admission
  | psn _ _ _ replies =>
      obtain ⟨acks, returns⟩ := replies
      exact returns.admission

end Notified

/-- The state in which the head of a queue has just been taken out. -/
def taken (s : SwitchNode) (ifIndex : Nat) (queue : BEgressQueue) : SwitchNode :=
  s.setDevice ifIndex { s.device ifIndex with queue := queue }

/-- `DequeueAndTransmit`: nothing may leave, or the head of a queue does. -/
inductive Transmits (c : SwitchNodeConfig) (s : SwitchNode) (ifIndex : Nat) :
    Option Packet → SwitchNode → Prop
  | idle : Transmits c s ifIndex none s
  | sent {p p' : Packet} {qIndex : Nat} {queue : BEgressQueue} {after : SwitchNode}
      (served : (s.device ifIndex).queue.dequeueRR (c.device ifIndex) (s.device ifIndex).paused =
        some (p, qIndex, queue))
      (notified : Notified c (s.taken ifIndex queue) ifIndex qIndex p p' after) :
      Transmits c s ifIndex (some p') after

theorem transmit_transmits (c : SwitchNodeConfig) (route : Nat → Nat) (s : SwitchNode)
    (ifIndex : Nat) : Holds (Excused c s) (fun sent => Transmits c s ifIndex sent.1 sent.2)
      (s.transmit c route ifIndex) := by
  unfold transmit
  cases served : (s.device ifIndex).queue.dequeueRR (c.device ifIndex) (s.device ifIndex).paused with
  | none => exact .idle
  | some head =>
      obtain ⟨p, qIndex, queue⟩ := head
      apply (notifyDequeue_notified c route (s.taken ifIndex queue) ifIndex qIndex p).bind
      intro sent _ notified
      exact .sent served notified

/-- `CheckAndSendOne`: the head of the VOQ stays, or goes to its port. -/
inductive Releases (c : SwitchNodeConfig) (s : SwitchNode) (voq : Nat × Nat) : SwitchNode → Prop
  | idle : Releases c s voq s
  | sent {top unit : PacketUnit} {up : Upstream}
      (sends : Upstream.Sends c.upstream s.upstream voq top unit up) :
      Releases c s voq ({ s with upstream := up }.sendUnit c unit)

theorem release_releases {c : SwitchNodeConfig} {s : SwitchNode}
    (consistent : s.upstream.Consistent c.upstream) (voq : Nat × Nat) :
    Holds Assertion.OfInput (Releases c s voq) (s.release c voq) := by
  unfold release
  apply (Upstream.checkAndSendOne_attempt consistent voq).bind
  rintro ⟨sent, up⟩ _ attempt
  cases attempt with
  | idle => exact .idle
  | refused => exact .idle
  | sent sends => exact .sent sends

/-- What `QbbNetDevice::Receive` and the start of `SendToDev` do with a frame. -/
inductive Receives (c : SwitchNodeConfig) (s : SwitchNode) (inDev : Nat) (outDev : Option Nat)
    (p : Packet) : SwitchNode → Prop
  | pfc {device : QbbNetDevice} (frame : p.isPfc = true)
      (received : (s.device inDev).receive (c.device inDev) p = .ok device) :
      Receives c s inDev outDev p (s.setDevice inDev device)
  | syn {tag : SwitchSYNTag} {after : SwitchNode} (floodgate : c.useFloodgate = true)
      (frame : p.body = .switchSyn tag)
      (replies : Replies c { s with
        downstream := (s.downstream.checkSYN c.settings (c.creditRow inDev p.sip) tag).2 } after) :
      Receives c s inDev outDev p after
  | ack {tag : SwitchACKTag} {up : Upstream} (floodgate : c.useFloodgate = true)
      (frame : p.ackTag = some tag)
      (restored : s.upstream.restoreWin c.upstream tag p.sip inDev = .ok up) :
      Receives c s inDev outDev p { s with upstream := up }
  | other {after : SwitchNode} (frame : p.isPfc = false)
      (plain : c.useFloodgate = true → p.ackTag = none)
      (forwards : Forwards c (s.recordPsn c inDev (p.setFlowId (some inDev))).2 inDev
        (s.recordPsn c inDev (p.setFlowId (some inDev))).1 outDev after) :
      Receives c s inDev outDev p after

section Receive

variable {c : SwitchNodeConfig} {s : SwitchNode} {inDev : Nat} {p : Packet}

/-- Packets with a `SwitchACKTag` carry no PSN. -/
theorem recordPsn_ack (s : SwitchNode) {tag : SwitchACKTag} (frame : p.ackTag = some tag) :
    s.recordPsn c inDev p = (p, s) := by
  have psn : p.psn = none := by
    cases shape : p.body <;> simp [Packet.ackTag, Packet.psn, shape] at frame ⊢
  unfold recordPsn
  rw [psn]
  cases c.settings.switchAbsolutePsn <;> rfl

theorem recordPsn_ackTag : (s.recordPsn c inDev p).1.ackTag = p.ackTag := by
  unfold recordPsn
  split
  · rename_i psn _ found
    cases shape : p.body with
    | udp old ingress =>
        cases old <;> simp [Packet.ackTag, Packet.toIngressPsn, shape]
    | _ => simp [Packet.psn, shape] at found
  · rfl

theorem recordPsn_same : (s.recordPsn c inDev p).2.upstream = s.upstream ∧
    (s.recordPsn c inDev p).2.device = s.device ∧
    (s.recordPsn c inDev p).2.admission = s.admission := by
  unfold recordPsn
  split
  · exact ⟨rfl, rfl, rfl⟩
  · exact ⟨rfl, rfl, rfl⟩

theorem enter_receives (route : Nat → Nat) {outDev : Option Nat} {after : SwitchNode}
    (consistent : s.upstream.Consistent c.upstream) (frame : p.isPfc = false)
    (success : s.enter c route inDev outDev (p.setFlowId (some inDev)) = .ok after) :
    Receives c s inDev outDev p after := by
  unfold enter at success
  have sameSyn : (p.setFlowId (some inDev)).synTag = p.synTag := rfl
  have sameAck : (p.setFlowId (some inDev)).ackTag = p.ackTag := rfl
  have sameSource : (p.setFlowId (some inDev)).sip = p.sip := rfl
  rw [sameSyn, sameSource] at success
  split at success
  · rename_i tag floodgate frame
    have body : p.body = .switchSyn tag := by
      cases shape : p.body <;> simp [Packet.synTag, shape] at frame
      rw [frame]
    exact .syn floodgate body ((receiveSYN_replies c route s tag p.sip _ inDev).of_ok success)
  · simp only at success
    rw [recordPsn_ackTag, sameAck] at success
    split at success
    · rename_i tag floodgate frame
      rw [recordPsn_ack s (sameAck.trans frame)] at success
      obtain ⟨up, restored, success⟩ := bind_ok.mp success
      obtain rfl := Except.ok.inj success
      exact .ack floodgate frame restored
    · rename_i plain
      refine .other frame (fun floodgate => ?_) (forward_forwards ?_ success)
      · by_contra tagged
        obtain ⟨tag, frame⟩ := Option.ne_none_iff_exists'.mp tagged
        exact plain tag floodgate frame
      · rw [recordPsn_same.1]
        exact consistent

theorem receive_receives (route : Nat → Nat) {outDev : Option Nat} {after : SwitchNode}
    (consistent : s.upstream.Consistent c.upstream)
    (success : s.receive c route inDev outDev p = .ok after) :
    Receives c s inDev outDev p after := by
  unfold receive at success
  cases frame : p.isPfc with
  | true =>
      rw [frame, if_pos rfl] at success
      obtain ⟨device, received, success⟩ := bind_ok.mp success
      obtain rfl := Except.ok.inj success
      exact .pfc frame received
  | false =>
      rw [frame, if_neg Bool.false_ne_true] at success
      exact enter_receives route consistent frame success

theorem receive_queue {d device : QbbNetDevice} {config : DeviceConfig}
    (received : d.receive config p = .ok device) : device.queue = d.queue := by
  unfold QbbNetDevice.receive at received
  split at received
  · unfold QbbNetDevice.receivePfc QbbNetDevice.resume at received
    split at received
    · obtain rfl := Except.ok.inj received
      rfl
    · split at received
      · obtain rfl := Except.ok.inj received
        rfl
      · split at received
        · obtain rfl := Except.ok.inj received
          rfl
        · contradiction
  · obtain rfl := Except.ok.inj received
    rfl

theorem setDevice_queues {device : QbbNetDevice} (queue : device.queue = (s.device inDev).queue) :
    (s.setDevice inDev device).queues = s.queues ∧
      (NoDrops (s.setDevice inDev device) → NoDrops s) := by
  have same : ∀ dev, ((s.setDevice inDev device).device dev).queue = (s.device dev).queue := by
    intro dev
    by_cases here : dev = inDev
    · subst here
      simp [setDevice, queue]
    · simp [setDevice, here]
  refine ⟨?_, fun whole dev => ?_⟩
  · funext dev q
    simp only [queues, same]
  · rw [← same]
    exact whole dev

end Receive

/-- The SYN timer: nothing is due, or one SYN goes out. -/
inductive Probes (c : SwitchNodeConfig) (s : SwitchNode) (dev : Nat) (recent : Nat → Bool) :
    SwitchNode → Prop
  | idle : Probes c s dev recent s
  | sent {port : Nat} {p : Packet} (body : p.body = .switchSyn (s.getSwitchSYNTag c dev recent))
      (direct : c.settings.resetOnlyToRSwitchWin = false → port = dev) :
      Probes c s dev recent (s.switchSend c port 0 p)

theorem synTimeout_probes (c : SwitchNodeConfig) (route : Nat → Nat) (s : SwitchNode) (dev : Nat)
    (recent : Nat → Bool) : Probes c s dev recent (s.synTimeout c route dev recent) := by
  unfold synTimeout sendSYN
  split
  · split
    · rename_i reset
      exact .sent rfl fun off => absurd reset (by simp [off])
    · exact .sent rfl fun _ => rfl
  · exact .idle

theorem Probes.emits {c : SwitchNodeConfig} {s after : SwitchNode} {dev : Nat}
    {recent : Nat → Bool} (probes : Probes c s dev recent after) :
    ∃ frames, Emits s after frames ∧
      ∀ port, ∀ p ∈ frames port, p.body = .switchSyn (s.getSwitchSYNTag c dev recent) := by
  cases probes with
  | idle => exact ⟨_, Emits.refl s, fun _ _ member => absurd member (by simp)⟩
  | @sent port p body =>
      refine ⟨_, switchSend_emits c s port (by simp [Packet.isUdp, body]), ?_⟩
      intro dev frame member
      unfold oneFrame at member
      split at member
      · rw [List.mem_singleton.mp member, body]
      · simp at member

inductive Handles (c : SwitchNodeConfig) (s : SwitchNode) :
    NodeEvent → Option Packet → SwitchNode → Prop
  | received {inDev : Nat} {outDev : Option Nat} {p : Packet} {after : SwitchNode}
      (receives : Receives c s inDev outDev p after) :
      Handles c s (.receive inDev outDev p) none after
  | wentOn {inDev : Nat} {outDev : Option Nat} {p : Packet} {after : SwitchNode}
      (tagged : p.ackTag.isSome = true)
      (forwards : Forwards c s inDev (p.setFlowId (some inDev)) outDev after) :
      Handles c s (.goOn inDev outDev p tagged) none after
  | released {voq : Nat × Nat} {after : SwitchNode} (releases : Releases c s voq after) :
      Handles c s (.release voq) none after
  | transmitted {ifIndex : Nat} {out : Option Packet} {after : SwitchNode}
      (transmits : Transmits c s ifIndex out after) : Handles c s (.transmit ifIndex) out after
  | fired {dev dst : Nat} {after : SwitchNode} (replies : Replies c s after) :
      Handles c s (.creditTimeout dev dst) none after
  | probed {dev : Nat} {recent : Nat → Bool} {after : SwitchNode}
      (probes : Probes c s dev recent after) : Handles c s (.synTimeout dev recent) none after

theorem handle_handles {c : SwitchNodeConfig} {route : Nat → Nat} {s after : SwitchNode}
    {event : NodeEvent} {out : Option Packet} (consistent : s.upstream.Consistent c.upstream)
    (success : s.handle c route event = .ok (out, after)) : Handles c s event out after := by
  cases event with
  | receive inDev outDev p =>
      obtain ⟨middle, received, success⟩ := bind_ok.mp success
      obtain ⟨rfl, rfl⟩ := Prod.mk.inj (Except.ok.inj success)
      exact .received (receive_receives route consistent received)
  | goOn inDev outDev p tagged =>
      obtain ⟨middle, forwarded, success⟩ := bind_ok.mp success
      obtain ⟨rfl, rfl⟩ := Prod.mk.inj (Except.ok.inj success)
      exact .wentOn tagged (forward_forwards consistent forwarded)
  | release voq =>
      obtain ⟨middle, released, success⟩ := bind_ok.mp success
      obtain ⟨rfl, rfl⟩ := Prod.mk.inj (Except.ok.inj success)
      exact .released ((release_releases consistent voq).of_ok released)
  | transmit ifIndex =>
      exact .transmitted ((transmit_transmits c route s ifIndex).of_ok success)
  | creditTimeout dev dst =>
      obtain ⟨middle, fired, success⟩ := bind_ok.mp success
      obtain ⟨rfl, rfl⟩ := Prod.mk.inj (Except.ok.inj success)
      exact .fired ((creditTimeout_replies c route s dev dst).of_ok fired)
  | synTimeout dev recent =>
      obtain ⟨rfl, rfl⟩ := Prod.mk.inj (Except.ok.inj success)
      exact .probed (synTimeout_probes c route s dev recent)

section Traffic

variable {c : SwitchNodeConfig} {s after : SwitchNode} {weight : PacketUnit → Nat}

theorem qIndexOf_lt (c : SwitchNodeConfig) (p : Packet) : c.qIndexOf p < qCnt := by
  have pg := p.pg_lt
  unfold SwitchNodeConfig.qIndexOf
  split
  · decide
  · decide
  · decide
  · decide
  · split
    · decide
    · exact pg
  · split
    · decide
    · exact pg
  · decide
  · exact pg

theorem qIndexOf_pfc (c : SwitchNodeConfig) (p : Packet) (other : c.qIndexOf p ≠ 0) :
    p.isPfc = false := by
  cases shape : p.body <;> simp [SwitchNodeConfig.qIndexOf, Packet.isPfc, shape] at other ⊢

theorem Releases.residentBy {voq : Nat × Nat} (releases : Releases c s voq after)
    (whole : NoDrops after) (traffic : TrafficWeight weight)
    (counted : ∀ unit ∈ s.upstream.voqPackets voq,
      (unit.outDev < c.nDevices ∧ unit.qIndex < qCnt) ∨ weight unit = 0) :
    after.residentBy c weight = s.residentBy c weight := by
  cases releases with
  | idle => rfl
  | @sent top unit up sends =>
      obtain ⟨rest, head⟩ := sends.head
      have place := counted top (by simp [head])
      have same : weight (unit.pkt.toUnit unit.outDev unit.qIndex) = weight top := by
        rw [sends.unit]
        exact passes_weight (c := c) traffic sends.passes
      have held := sends.heldBy weight
      have shape : unit.outDev = top.outDev ∧ unit.qIndex = top.qIndex := by
        rw [sends.unit]
        exact ⟨rfl, rfl⟩
      have joined := @queuedBy_join c { s with upstream := up } _ weight unit.outDev unit.qIndex
        unit.pkt (by rw [same, shape.1, shape.2]; exact place) (switchSend_queues whole)
      have before : ({ s with upstream := up } : SwitchNode).queuedBy c weight =
          s.queuedBy c weight := rfl
      have upstream : ({ s with upstream := up }.sendUnit c unit).upstream = up := rfl
      unfold SwitchNode.residentBy sendUnit
      rw [joined, before, same]
      unfold sendUnit at upstream
      rw [upstream]
      omega

theorem Releases.noDrops {voq : Nat × Nat} (releases : Releases c s voq after)
    (whole : NoDrops after) : NoDrops s := by
  cases releases with
  | idle => exact whole
  | sent => exact switchSend_noDrops whole

theorem taken_queues {ifIndex qIndex : Nat} {queue : BEgressQueue} {p : Packet}
    (dequeues : (s.device ifIndex).queue.Dequeues p qIndex queue) :
    s.queues ifIndex qIndex = p :: (s.taken ifIndex queue).queues ifIndex qIndex ∧
      ∀ i j, ¬ (i = ifIndex ∧ j = qIndex) → (s.taken ifIndex queue).queues i j = s.queues i j := by
  constructor
  · simpa [queues, taken, setDevice] using dequeues.head
  · intro i j apart
    by_cases here : i = ifIndex
    · subst here
      have other : j ≠ qIndex := fun same => apart ⟨rfl, same⟩
      simpa [queues, taken, setDevice] using dequeues.others j other
    · simp [queues, taken, setDevice, here]

theorem taken_member {ifIndex qIndex : Nat} {queue : BEgressQueue} {p other : Packet}
    (dequeues : (s.device ifIndex).queue.Dequeues p qIndex queue) {dev q : Nat}
    (member : other ∈ (s.taken ifIndex queue).queues dev q) : other ∈ s.queues dev q := by
  obtain ⟨head, others⟩ := taken_queues dequeues
  by_cases here : dev = ifIndex ∧ q = qIndex
  · obtain ⟨rfl, rfl⟩ := here
    rw [head]
    exact List.mem_cons_of_mem _ member
  · rwa [← others dev q here]

theorem taken_head {ifIndex qIndex : Nat} {queue : BEgressQueue} {p : Packet}
    (dequeues : (s.device ifIndex).queue.Dequeues p qIndex queue) : p ∈ s.queues ifIndex qIndex := by
  rw [(taken_queues dequeues).1]
  exact List.mem_cons_self

theorem taken_residentBy {ifIndex qIndex : Nat} {queue : BEgressQueue} {p : Packet}
    (dequeues : (s.device ifIndex).queue.Dequeues p qIndex queue) (port : ifIndex < c.nDevices)
    (weight : PacketUnit → Nat) :
    (s.taken ifIndex queue).residentBy c weight + weight (p.toUnit ifIndex qIndex) =
      s.residentBy c weight := by
  obtain ⟨head, others⟩ := taken_queues dequeues
  have leave := @queuedBy_leave c s (s.taken ifIndex queue) weight ifIndex qIndex p port
    dequeues.below head others
  have upstream : (s.taken ifIndex queue).upstream = s.upstream := rfl
  unfold SwitchNode.residentBy
  rw [upstream]
  omega

theorem residentBy_congr (device : after.device = s.device) (upstream : after.upstream = s.upstream) :
    after.residentBy c weight = s.residentBy c weight := by
  simp only [SwitchNode.residentBy, queuedBy, cellBy, queues, device, upstream]

theorem admitted_residentBy {inDev outDev qIndex : Nat} {p : Packet}
    (passed : PassedOn c (s.admitPacket c inDev outDev qIndex p) p outDev qIndex after)
    (whole : NoDrops after) (traffic : TrafficWeight weight)
    (counted : (outDev < c.nDevices ∧ qIndex < qCnt) ∨ weight (p.toUnit outDev qIndex) = 0) :
    after.residentBy c weight = s.residentBy c weight + weight (p.toUnit outDev qIndex) := by
  obtain ⟨frames, emits⟩ := (admit_signals c s inDev outDev qIndex p).emits
  obtain ⟨device, upstream, _⟩ := charged_same c s inDev outDev qIndex p
  rw [passed.residentBy whole traffic counted, emits.residentBy traffic,
    residentBy_congr device upstream]

theorem depart_residentBy (inDev ifIndex qIndex : Nat) (p : Packet)
    (traffic : TrafficWeight weight) :
    (s.depart c inDev ifIndex qIndex p).residentBy c weight = s.residentBy c weight := by
  obtain ⟨frames, emits⟩ := (depart_signals c s inDev ifIndex qIndex p).emits
  obtain ⟨device, upstream, _⟩ := discharged_same c s inDev ifIndex qIndex p
  rw [emits.residentBy traffic, residentBy_congr device upstream]

theorem Notified.residentBy {ifIndex qIndex : Nat} {p p' : Packet}
    (notified : Notified c s ifIndex qIndex p p' after) (traffic : TrafficWeight weight) :
    after.residentBy c weight = s.residentBy c weight := by
  have departed := depart_residentBy (c := c) (s := s) (p.flowId.getD 0) ifIndex qIndex p traffic
  cases notified with
  | plain => exact departed
  | credit _ _ replies =>
      obtain ⟨acks, returns⟩ := replies
      rw [returns.emits.residentBy traffic, ← departed]
      exact residentBy_congr rfl rfl
  | psn _ _ _ replies =>
      obtain ⟨acks, returns⟩ := replies
      rw [returns.emits.residentBy traffic, ← departed]
      exact residentBy_congr rfl rfl

end Traffic

end Floodgate.SwitchNode
