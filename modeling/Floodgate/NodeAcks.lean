import Floodgate.AckReturn

/-! The credit loops, the credit timer and SYNs of a switch: what they send settles its books. -/

namespace Floodgate.SwitchNode

open Std Outcome Downstream

structure Returns (c : SwitchNodeConfig) (before after : SwitchNode) (frames : Nat → List Packet) :
    Prop where
  emits : Emits before after frames
  admission : after.admission = before.admission
  acks : ∀ dev, ∀ p ∈ frames dev, ∃ tag, p.body = .switchAck tag
  settled : c.settings.resetOnlyToRSwitchWin = false →
    Settled c.settings before.downstream after.downstream frames

def Excused (c : SwitchNodeConfig) (s : SwitchNode) (failure : Assertion) : Prop :=
  c.settings.resetOnlyToRSwitchWin = false → s.downstream.Spares failure

def Replies (c : SwitchNodeConfig) (s after : SwitchNode) : Prop :=
  ∃ frames, Returns c s after frames

section Returns

variable {c : SwitchNodeConfig} {s first second third : SwitchNode}

theorem Replies.refl (c : SwitchNodeConfig) (s : SwitchNode) : Replies c s s :=
  ⟨fun _ => [], Emits.refl s, rfl, fun _ _ member => absurd member (by simp),
    fun _ => Settled.refl _ _⟩

theorem Returns.trans {frames later : Nat → List Packet} (left : Returns c first second frames)
    (right : Returns c second third later) :
    Returns c first third fun dev => frames dev ++ later dev := by
  refine ⟨left.emits.trans right.emits, right.admission.trans left.admission, ?_,
    fun all => (left.settled all).trans (right.settled all)⟩
  intro dev p member
  rcases List.mem_append.mp member with early | late
  · exact left.acks dev p early
  · exact right.acks dev p late

theorem Replies.trans (left : Replies c first second) (right : Replies c second third) :
    Replies c first third := by
  obtain ⟨frames, left⟩ := left
  obtain ⟨later, right⟩ := right
  exact ⟨_, left.trans right⟩

theorem Replies.excused (replies : Replies c first second) {failure : Assertion}
    (later : Excused c second failure) : Excused c first failure := by
  obtain ⟨frames, returns⟩ := replies
  intro all
  exact ⟨(later all).1, fun ordered => (later all).2 ((returns.settled all).ordered ordered)⟩

theorem Replies.andThen {Value : Type} (replies : Replies c first second)
    {result : Except Assertion Value} {post : Value → Prop}
    (next : Holds (Excused c second) post result) : Holds (Excused c first) post result :=
  next.weaken fun _ later => replies.excused later

theorem Spares.excused {Value : Type} {result : Except Assertion Value} {post : Value → Prop}
    (holds : Holds s.downstream.Spares post result) : Holds (Excused c s) post result :=
  holds.weaken fun _ spares _ => spares

theorem ackPacket_control (g : Settings) (tag : SwitchACKTag) (src dst : Nat) :
    (switchACKPacket g tag src dst).isUdp = false := rfl

theorem oneFrame_ack {g : Settings} {tag : SwitchACKTag} {src dst port dev : Nat} {p : Packet}
    (member : p ∈ oneFrame port (switchACKPacket g tag src dst) dev) :
    ∃ tag, p.body = .switchAck tag := by
  unfold oneFrame at member
  split at member
  · simp only [List.mem_singleton] at member
    exact ⟨tag, by rw [member]; rfl⟩
  · simp at member

end Returns

section Acks

variable (c : SwitchNodeConfig) (route : Nat → Nat) (s : SwitchNode)

theorem sendSwitchACK_replies (mode : c.settings.switchAckMode = .switchDstCredit)
    (inDev dst ackDst size : Nat)
    (next : c.settings.resetOnlyToRSwitchWin = false → c.settings.switchAbsolutePsn = true →
      size = s.downstream.nxtAckPsn inDev dst) :
    Holds (Excused c s) (Replies c s) (s.sendSwitchACK c inDev dst ackDst size) := by
  unfold sendSwitchACK
  have emits := switchSend_emits c s inDev
    (ackPacket_control c.settings (SwitchACKTag.setAckedSize size) dst ackDst)
  cases result : s.downstream.cleanIngressDstCreditCounter c.settings inDev dst size with
  | error failure =>
      intro all
      have holds := cleanIngressDst_settled (d := s.downstream) mode (next all) ackDst
      exact holds.of_error result
  | ok cleaned =>
      refine ⟨_, emits.congr ⟨rfl, rfl⟩ ⟨rfl, rfl⟩, rfl, fun _ _ => oneFrame_ack, ?_⟩
      intro all
      exact (cleanIngressDst_settled mode (next all) ackDst).of_ok result

theorem ackDue_undelayed (off : c.settings.switchAckThM = 0) (dst : Nat) :
    s.ackDue c dst = true := by
  simp [ackDue, off]

theorem sendAccSwitchACK_replies (mode : c.settings.switchAckMode = .switchIngressCredit)
    (dev : Nat) (tag : SwitchACKTag)
    (credit : c.settings.switchAbsolutePsn = false → ∀ dst,
      tag.getACKEntry dst = if s.ackDue c dst then s.downstream.credit dev dst else 0)
    (next : c.settings.switchAbsolutePsn = true →
      ∀ dst, tag.getACKEntry dst ≤ s.downstream.nxtAckPsn dev dst) :
    Holds (Excused c s) (Replies c s) (s.sendAccSwitchACK c route dev tag) := by
  unfold sendAccSwitchACK
  have settled : ∀ src dst, Holds s.downstream.Spares
      (fun after => Settled c.settings s.downstream after
        (oneFrame dev (switchACKPacket c.settings tag src dst)))
      (s.downstream.cleanIngressCreditCounter c.settings dev tag) :=
    fun src dst => cleanIngress_settled mode (ackDue_undelayed c s) credit next src dst
  cases result : s.downstream.cleanIngressCreditCounter c.settings dev tag with
  | error failure => exact fun _ => (settled 0 0).of_error result
  | ok cleaned =>
      cases all : c.settings.resetOnlyToRSwitchWin with
      | true =>
          have emits := switchSend_emits c s (route dev) (ackPacket_control c.settings tag
            (c.id * c.settings.hostPerRack) (dev * c.settings.hostPerRack))
          exact ⟨_, emits.congr ⟨rfl, rfl⟩ ⟨rfl, rfl⟩, rfl, fun _ _ => oneFrame_ack,
            fun off => absurd off (by simp [all])⟩
      | false =>
          have emits := switchSend_emits c s dev (ackPacket_control c.settings tag 0 0)
          exact ⟨_, emits.congr ⟨rfl, rfl⟩ ⟨rfl, rfl⟩, rfl, fun _ _ => oneFrame_ack,
            fun _ => (settled 0 0).of_ok result⟩

theorem sendDueACK_replies (mode : c.settings.switchAckMode = .switchIngressCredit) (dev : Nat) :
    Holds (Excused c s) (Replies c s) (s.sendAccSwitchACK c route dev
      (s.downstream.getSwitchACKTag c.settings (s.ackDue c) dev)) :=
  sendAccSwitchACK_replies c route s mode dev _ getSwitchACKTag_credit getSwitchACKTag_psn

theorem checkAndSendACK_replies (p : Packet) (threshold creditId : Nat) :
    Holds (Excused c s) (fun after => Replies c s after.2)
      (s.checkAndSendACK c route p threshold creditId) := by
  unfold checkAndSendACK
  cases mode : c.settings.switchAckMode with
  | hostPerPacketAck => exact Replies.refl c s
  | switchIngressCredit =>
      apply (Spares.excused (checkIngressCreditCounter_spares _ _ s.downstream _ _)).bind
      intro enough _ _
      split
      · apply (sendDueACK_replies c route s mode creditId).bind
        intro after _ replies
        exact replies
      · exact Replies.refl c s
  | switchDstCredit =>
      apply (Spares.excused (getIngressDstCreditCounter_spares _ _ s.downstream _ _)).bind
      intro credit _ _
      split
      · have sent := fun ackDst => sendSwitchACK_replies c s mode creditId p.dip ackDst
          (if c.settings.switchAbsolutePsn then s.downstream.nxtAckPsn creditId p.dip else credit)
          (fun _ absolute => by rw [if_pos absolute])
        apply (sent _).bind
        intro after _ replies
        exact replies
      · exact Replies.refl c s

theorem checkAndSendACKs_replies (p : Packet) (threshold : Nat) (ids : List Nat) :
    Holds (Excused c s) (fun after => Replies c s after.2)
      (s.checkAndSendACKs c route p threshold ids) := by
  apply Holds.foldlM (fun state : Bool × SwitchNode => Replies c s state.2) _ _ (Replies.refl c s)
  intro state creditId _ before
  apply before.andThen
  apply (checkAndSendACK_replies c route state.2 p threshold creditId).bind
  intro after _ replies
  exact before.trans replies

theorem returnCredits_replies (p : Packet) (creditId : Nat) :
    Holds (Excused c s) (Replies c s) (s.returnCredits c route p creditId) := by
  unfold returnCredits
  apply (checkAndSendACKs_replies c route s p _ _).bind
  intro first _ before
  split
  · apply before.andThen
    apply (checkAndSendACKs_replies c route first.2 p _ _).bind
    intro flushed _ replies
    exact before.trans replies
  · exact before

theorem creditTimeout_replies (dev dst : Nat) :
    Holds (Excused c s) (Replies c s) (s.creditTimeout c route dev dst) := by
  unfold creditTimeout
  cases mode : c.settings.switchAckMode with
  | hostPerPacketAck => exact fun _ => ⟨by simp, fun _ => by simp⟩
  | switchIngressCredit =>
      apply (Spares.excused (checkIngressCreditCounter_spares _ _ s.downstream _ _)).bind
      intro enough _ _
      split
      · exact sendDueACK_replies c route s mode dev
      · exact Replies.refl c s
  | switchDstCredit =>
      apply (Spares.excused (getIngressDstCreditCounter_spares _ _ s.downstream _ _)).bind
      intro credit _ _
      split
      · exact sendSwitchACK_replies c s mode dev dst 0 _ fun _ absolute => by rw [if_pos absolute]
      · exact Replies.refl c s

/-- The replies to a SYN, sent once `CheckSYN` has updated the PSNs. -/
theorem receiveSYN_replies (tag : SwitchSYNTag) (sip dip inDev : Nat) :
    Holds (Excused c { s with
        downstream := (s.downstream.checkSYN c.settings (c.creditRow inDev sip) tag).2 })
      (Replies c { s with
        downstream := (s.downstream.checkSYN c.settings (c.creditRow inDev sip) tag).2 })
      (s.receiveSYN c route tag sip dip inDev) := by
  unfold receiveSYN
  generalize s.downstream.checkSYN c.settings (c.creditRow inDev sip) tag = checked
  simp only
  split
  · exact Replies.refl c _
  cases mode : c.settings.switchAckMode with
  | hostPerPacketAck => exact Replies.refl c _
  | switchIngressCredit =>
      apply Holds.bind (Spares.excused (s := { s with downstream := checked.2 })
        (getDstsSwitchACKTag_psn checked.1))
      intro acks found below
      refine sendAccSwitchACK_replies c route _ mode _ acks ?_ fun _ => below
      intro off
      simp [Downstream.getDstsSwitchACKTag, off] at found
  | switchDstCredit =>
      apply Holds.foldlM (Replies c _) _ _ (Replies.refl c _)
      intro state dst _ before
      apply before.andThen
      have sent := sendSwitchACK_replies c state mode inDev dst dip
        (state.downstream.nxtAckPsn (c.creditRow inDev dip) dst) (by
          intro all _
          rw [SwitchNodeConfig.creditRow_all all])
      exact sent.mono fun _ _ replies => before.trans replies

end Acks

end Floodgate.SwitchNode
