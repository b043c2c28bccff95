import Floodgate.AbsoluteAcks
import Floodgate.PsnChain

/-! One exchange over a link after losses: a SYN of the upstream and the Switch-ACKs that the
downstream sends in reply. -/

namespace Floodgate

open Std Outcome LabelledRun SwitchNode

namespace Upstream

section Restoring

variable {c : UpstreamConfig} {s : Upstream} {dst : Nat}

/-- The log of a window never stops the switch. -/
theorem updateDstWin_absolute_ok (absolute : c.settings.switchAbsolutePsn = true)
    (known : c.dst2group dst ≠ .unset) (below : s.AcksBelow) (pktSize : Nat) (isAdd : Bool) :
    ∃ after, s.updateDstWin c dst pktSize isAdd = .ok after ∧
      after.rcvAckPsn = s.rcvAckPsn ∧ after.nxtDataPsn = s.nxtDataPsn := by
  have ordered : s.inflightOrdered dst = true :=
    (inflightOrdered_iff s dst).mpr fun i _ => below i dst
  unfold updateDstWin UpstreamConfig.shouldIgnore getInflightBytes
  cases rule : c.dst2group dst with
  | unset => exact absurd rule known
  | ignored => exact ⟨s, rfl, rfl, rfl⟩
  | group gid =>
      simp only [ok_bind, Bool.false_eq_true, if_false, absolute, if_true, ordered]
      exact ⟨s.touchWin dst, rfl, rfl, rfl⟩

theorem AcksBelow.set (below : s.AcksBelow) {dev psn : Nat} (sent : psn ≤ s.nxtDataPsn dev dst) :
    (s.setRcvAckPsn dev dst psn).AcksBelow := by
  intro i j
  rw [setRcvAckPsn_cell]
  split
  · rename_i here
    obtain ⟨rfl, rfl⟩ := here
    exact sent
  · exact below i j

theorem AcksBelow.of_same {after : Upstream} (below : s.AcksBelow)
    (acks : after.rcvAckPsn = s.rcvAckPsn) (data : after.nxtDataPsn = s.nxtDataPsn) :
    after.AcksBelow := by
  intro i j
  rw [acks, data]
  exact below i j

theorem recoverDst_ok (mode : c.settings.CountsPsns) (known : c.dst2group dst ≠ .unset)
    (below : s.AcksBelow) {tag : SwitchACKTag} {dev : Nat}
    (sent : tag.getACKEntry dst ≤ s.nxtDataPsn dev dst) :
    ∃ after, recoverDst c tag dev s dst = .ok after ∧ after.AcksBelow ∧
      after.nxtDataPsn = s.nxtDataPsn := by
  unfold recoverDst
  simp only [mode.absolute, if_true, psnRow_all mode]
  split
  · split
    · obtain ⟨after, success, acks, data⟩ := updateDstWin_absolute_ok mode.absolute known
        (below.set sent) (Word32.trunc (tag.getACKEntry dst - s.rcvAckPsn dev dst)) true
      exact ⟨after, success, (below.set sent).of_same acks data, data⟩
    · obtain ⟨after, success, acks, data⟩ :=
        updateDstWin_absolute_ok mode.absolute known below 0 true
      exact ⟨after, success, below.of_same acks data, data⟩
  · exact ⟨s, rfl, below, rfl⟩

theorem recoverAll_ok (mode : c.settings.CountsPsns) {tag : SwitchACKTag} {dev : Nat}
    (dsts : List Nat) (known : ∀ dst ∈ dsts, c.dst2group dst ≠ .unset) (below : s.AcksBelow)
    (sent : ∀ dst, tag.getACKEntry dst ≤ s.nxtDataPsn dev dst) :
    ∃ after, dsts.foldlM (recoverDst c tag dev) s = .ok after ∧ after.AcksBelow ∧
      after.nxtDataPsn = s.nxtDataPsn := by
  induction dsts generalizing s with
  | nil => exact ⟨s, rfl, below, rfl⟩
  | cons dst rest ih =>
      obtain ⟨middle, first, kept, same⟩ :=
        recoverDst_ok mode (known dst List.mem_cons_self) below (sent dst)
      obtain ⟨after, later, ordered, data⟩ := ih (s := middle)
        (fun other member => known other (List.mem_cons_of_mem _ member)) kept (by rwa [same])
      refine ⟨after, ?_, ordered, data.trans same⟩
      rw [List.foldlM_cons, first]
      exact later

theorem resumeDst_ok (mode : c.settings.CountsPsns) (known : c.dst2group dst ≠ .unset)
    (below : s.AcksBelow) {tag : SwitchACKTag} {dev : Nat}
    (sent : tag.getAckedSize ≤ s.nxtDataPsn dev dst) :
    ∃ after, s.resumeDst c tag dst dev = .ok after ∧ after.AcksBelow ∧
      after.nxtDataPsn = s.nxtDataPsn := by
  unfold resumeDst
  simp only [mode.absolute, if_true, psnRow_all mode]
  split
  · obtain ⟨after, success, acks, data⟩ := updateDstWin_absolute_ok mode.absolute known
      (below.set sent) 0 true
    exact ⟨after, success, (below.set sent).of_same acks data, data⟩
  · obtain ⟨after, success, acks, data⟩ :=
      updateDstWin_absolute_ok mode.absolute known below 0 true
    exact ⟨after, success, below.of_same acks data, data⟩

end Restoring

end Upstream

namespace SwitchNode

def synReplies (c : SwitchNodeConfig) (s : SwitchNode) (tag : SwitchSYNTag) (sip dip inDev : Nat) :
    Except Assertion (List Packet) :=
  let checked := s.downstream.checkSYN c.settings (c.creditRow inDev sip) tag
  if checked.1 = [] then .ok []
  else
    match c.settings.switchAckMode with
    | .switchIngressCredit => do
        let acks ← checked.2.getDstsSwitchACKTag c.settings (s.ackDue c) (c.creditRow inDev sip)
          checked.1
        .ok [switchACKPacket c.settings acks 0 0]
    | .switchDstCredit =>
        .ok (checked.1.map fun dst => switchACKPacket c.settings
          (SwitchACKTag.setAckedSize (checked.2.nxtAckPsn (c.creditRow inDev dip) dst)) dst dip)
    | .hostPerPacketAck => .ok []

section Replying

variable {c : SwitchNodeConfig} {s : SwitchNode}

theorem sendAll_device {t : SwitchNode} (same : s.device = t.device) (dev : Nat)
    (frames : List Packet) :
    (frames.foldl (fun s p => s.switchSend c dev 0 p) s).device =
      (frames.foldl (fun s p => s.switchSend c dev 0 p) t).device := by
  induction frames generalizing s t with
  | nil => exact same
  | cons p rest ih =>
      apply ih
      simp only [switchSend, setDevice, same]

theorem sendSwitchACKs_device (absolute : c.settings.switchAbsolutePsn = true) (inDev dip row : Nat)
    (dsts : List Nat) :
    ∃ after, dsts.foldlM (fun s dst => s.sendSwitchACK c inDev dst dip
        (s.downstream.nxtAckPsn row dst)) s = .ok after ∧
      after.device = ((dsts.map fun dst => switchACKPacket c.settings
        (SwitchACKTag.setAckedSize (s.downstream.nxtAckPsn row dst)) dst dip).foldl
          (fun s p => s.switchSend c inDev 0 p) s).device := by
  induction dsts generalizing s with
  | nil => exact ⟨s, rfl, rfl⟩
  | cons dst rest ih =>
      let frame := switchACKPacket c.settings
        (SwitchACKTag.setAckedSize (s.downstream.nxtAckPsn row dst)) dst dip
      let middle : SwitchNode :=
        { s.switchSend c inDev 0 frame with
          downstream :=
            { s.downstream with
              lstAckPsn := setCell s.downstream.lstAckPsn inDev dst
                (s.downstream.nxtAckPsn row dst) } }
      have first : s.sendSwitchACK c inDev dst dip (s.downstream.nxtAckPsn row dst) =
          .ok middle := by
        unfold sendSwitchACK Downstream.cleanIngressDstCreditCounter
        simp only [absolute, if_true, ok_bind]
        rfl
      obtain ⟨after, later, devices⟩ := ih (s := middle)
      refine ⟨after, ?_, ?_⟩
      · rw [List.foldlM_cons, first]
        exact later
      · rw [devices, List.map_cons, List.foldl_cons]
        exact sendAll_device (s := middle) (t := s.switchSend c inDev 0 frame) rfl inDev _

theorem sendAccSwitchACK_device (mode : c.Numbering) (route : Nat → Nat) (dev : Nat)
    (tag : SwitchACKTag) :
    ∃ after, s.sendAccSwitchACK c route dev tag = .ok after ∧
      after.device = (s.switchSend c dev 0 (switchACKPacket c.settings tag 0 0)).device := by
  unfold sendAccSwitchACK Downstream.cleanIngressCreditCounter
  simp only [mode.psns.all, mode.psns.absolute, if_true, Bool.false_eq_true, if_false, ok_bind]
  exact ⟨_, rfl, rfl⟩

/-- `ReceiveSYN` sends these Switch-ACKs and nothing else. -/
theorem receiveSYN_sends (mode : c.Numbering) (route : Nat → Nat) (tag : SwitchSYNTag)
    (sip dip inDev : Nat) :
    ∃ frames after, s.synReplies c tag sip dip inDev = .ok frames ∧
      s.receiveSYN c route tag sip dip inDev = .ok after ∧
      after.device = (frames.foldl (fun s p => s.switchSend c inDev 0 p) s).device := by
  have row := SwitchNodeConfig.creditRow_all mode.psns.all inDev
  unfold synReplies receiveSYN
  simp only [row]
  split
  · exact ⟨[], _, rfl, rfl, rfl⟩
  · cases credit : c.settings.switchAckMode with
    | hostPerPacketAck => exact absurd credit mode.psns.acks
    | switchIngressCredit =>
        simp only [Downstream.getDstsSwitchACKTag, mode.psns.absolute, if_true, ok_bind]
        obtain ⟨after, success, devices⟩ := sendAccSwitchACK_device mode route inDev _
        exact ⟨_, after, rfl, success, devices⟩
    | switchDstCredit =>
        let found : SwitchNode :=
          { s with downstream := (s.downstream.checkSYN c.settings inDev tag).2 }
        obtain ⟨after, success, devices⟩ := sendSwitchACKs_device mode.psns.absolute inDev dip inDev
          (s.downstream.checkSYN c.settings inDev tag).1 (s := found)
        refine ⟨_, after, rfl, success, devices.trans ?_⟩
        exact sendAll_device (s := found) (t := s) rfl inDev _

theorem receive_syn (mode : c.Numbering) (route : Nat → Nat) (tag : SwitchSYNTag) (inDev : Nat) :
    ∃ frames after, s.synReplies c tag 0 0 inDev = .ok frames ∧
      s.receive c route inDev none (switchSYNPacket c.settings tag 0 0) = .ok after ∧
      after.device = (frames.foldl (fun s p => s.switchSend c inDev 0 p) s).device := by
  let p := (switchSYNPacket c.settings tag 0 0).setFlowId (some inDev)
  have enters : s.receive c route inDev none (switchSYNPacket c.settings tag 0 0) =
      s.enter c route inDev none p := rfl
  have probe : p.synTag = some tag := rfl
  have probed : s.enter c route inDev none p = s.receiveSYN c route tag 0 0 inDev := by
    unfold enter
    simp only [mode.floodgate, probe]
    rfl
  rw [enters, probed]
  exact receiveSYN_sends mode route tag 0 0 inDev

theorem receive_switchACK (mode : c.Numbering) (route : Nat → Nat) (dev : Nat) (tag : SwitchACKTag)
    (sip dip : Nat) :
    s.receive c route dev none (switchACKPacket c.settings tag sip dip) =
      (s.upstream.restoreWin c.upstream tag sip dev).map fun up => { s with upstream := up } := by
  let p := (switchACKPacket c.settings tag sip dip).setFlowId (some dev)
  have plain : p.psn = none := rfl
  have recorded : s.recordPsn c dev p = (p, s) := by
    unfold recordPsn
    rw [mode.psns.absolute, plain]
  have enters : s.receive c route dev none (switchACKPacket c.settings tag sip dip) =
      s.enter c route dev none p := rfl
  have probe : p.synTag = none := rfl
  have tagged : p.ackTag = some tag := rfl
  have source : p.sip = sip := rfl
  rw [enters]
  unfold enter
  simp only [mode.floodgate, probe, recorded, tagged, source]
  cases s.upstream.restoreWin c.upstream tag sip dev <;> rfl

theorem receive_entries (mode : c.Numbering)
    (credit : c.settings.switchAckMode = .switchIngressCredit)
    (known : ∀ host < c.settings.hostNum, c.upstream.dst2group host ≠ .unset)
    (below : s.upstream.AcksBelow) (route : Nat → Nat) (dev : Nat) {tag : SwitchACKTag}
    (sent : ∀ dst, tag.getACKEntry dst ≤ s.upstream.nxtDataPsn dev dst) :
    ∃ after, s.receive c route dev none (switchACKPacket c.settings tag 0 0) = .ok after ∧
      after.upstream.nxtDataPsn = s.upstream.nxtDataPsn ∧
      ∀ dst < c.settings.hostNum, after.upstream.rcvAckPsn dev dst =
        max (s.upstream.rcvAckPsn dev dst) (tag.getACKEntry dst) := by
  obtain ⟨up, success, -, data⟩ := Upstream.recoverAll_ok mode.psns
    (List.range c.settings.hostNum) (fun dst member => known dst (List.mem_range.mp member)) below
    sent
  have cell := Upstream.recoverAll_cell mode.psns.absolute _ List.nodup_range success
  have restores : s.upstream.restoreWin c.upstream tag 0 dev = .ok up := by
    have same : c.upstream.settings.switchAckMode = .switchIngressCredit := credit
    unfold Upstream.restoreWin
    rw [same]
    exact success
  refine ⟨{ s with upstream := up }, ?_, data, fun dst host => ?_⟩
  · rw [receive_switchACK mode, restores]
    rfl
  · rw [cell, if_pos ⟨(Upstream.psnRow_all mode.psns dev dst).symm, List.mem_range.mpr host⟩]

theorem receive_acks (mode : c.Numbering) (credit : c.settings.switchAckMode = .switchDstCredit)
    (below : s.upstream.AcksBelow) (route : Nat → Nat) (dev dip : Nat) (psn : Nat → Nat)
    (sent : ∀ dst, psn dst ≤ s.upstream.nxtDataPsn dev dst) (dsts : List Nat) (once : dsts.Nodup)
    (known : ∀ dst ∈ dsts, c.upstream.dst2group dst ≠ .unset) :
    ∃ after, (dsts.map fun dst => switchACKPacket c.settings
          (SwitchACKTag.setAckedSize (psn dst)) dst dip).foldlM
        (fun s p => s.receive c route dev none p) s = .ok after ∧
      after.upstream.nxtDataPsn = s.upstream.nxtDataPsn ∧
      ∀ dst, after.upstream.rcvAckPsn dev dst =
        if dst ∈ dsts ∧ s.upstream.rcvAckPsn dev dst < Word32.trunc (psn dst) then psn dst
        else s.upstream.rcvAckPsn dev dst := by
  induction dsts generalizing s with
  | nil => exact ⟨s, rfl, rfl, fun dst => by simp⟩
  | cons target rest ih =>
      obtain ⟨fresh, once⟩ := List.nodup_cons.mp once
      have size : (SwitchACKTag.setAckedSize (psn target)).getAckedSize = psn target := rfl
      obtain ⟨up, success, kept, data⟩ := @Upstream.resumeDst_ok c.upstream s.upstream target
        mode.psns (known target List.mem_cons_self) below (SwitchACKTag.setAckedSize (psn target))
        dev (sent target)
      have cell := Upstream.resumeDst_cell mode.psns.absolute success dev
      simp only [Upstream.psnRow_all mode.psns, true_and, size] at cell
      have restores : s.upstream.restoreWin c.upstream (SwitchACKTag.setAckedSize (psn target))
          target dev = .ok up := by
        have same : c.upstream.settings.switchAckMode = .switchDstCredit := credit
        unfold Upstream.restoreWin
        rw [same]
        exact success
      obtain ⟨after, later, same, cells⟩ := ih (s := { s with upstream := up }) kept
        (fun dst => by rw [data]; exact sent dst) once
        (fun dst member => known dst (List.mem_cons_of_mem _ member))
      refine ⟨after, ?_, same.trans data, fun dst => ?_⟩
      · rw [List.map_cons, List.foldlM_cons, receive_switchACK mode, restores]
        exact later
      · rw [cells]
        simp only [cell]
        by_cases here : dst = target
        · subst here
          simp [fresh]
        · simp [here]

end Replying

end SwitchNode

namespace Mesh

/-- The SYN of the upstream `up` arrives at `down`, and all Switch-ACKs that `down` sends in reply
arrive at `up`. -/
def synExchange (c : MeshConfig) (route : Nat → Nat → Nat) (w : Mesh) (up down : Nat × Nat)
    (recent : Nat → Bool) : Except Assertion SwitchNode := do
  let tag := (w.node up.1).getSwitchSYNTag (c.node up.1) up.2 recent
  let _ ← (w.node down.1).receive (c.node down.1) (route down.1) down.2 none
    (switchSYNPacket c.settings tag 0 0)
  let replies ← (w.node down.1).synReplies (c.node down.1) tag 0 0 down.2
  replies.foldlM (fun s p => s.receive (c.node up.1) (route up.1) up.2 none p) (w.node up.1)

/-- The downstream has missed the last data for `dst` or passed it on, and its Switch-ACK is neither
delayed nor cut below what is acknowledged already. -/
def SynRecoverable (c : MeshConfig) (w : Mesh) (up down : Nat × Nat) (dst : Nat) : Prop :=
  ((w.node down.1).downstream.rcvDataPsn down.2 dst < (w.node up.1).upstream.nxtDataPsn up.2 dst ∨
    (w.node down.1).downstream.nxtAckPsn down.2 dst =
      (w.node up.1).upstream.nxtDataPsn up.2 dst) ∧
  (c.settings.switchAckMode = .switchIngressCredit →
    (w.node down.1).ackDue (c.node down.1) dst = true) ∧
  (c.settings.switchAckMode = .switchDstCredit →
    (w.node up.1).upstream.rcvAckPsn up.2 dst <
      Word32.trunc ((w.node up.1).upstream.nxtDataPsn up.2 dst))

section Exchange

variable {c : MeshConfig} {w : Mesh} {up down : Nat × Nat} {recent : Nat → Bool} {dst : Nat}

/-- What `down` may acknowledge after the SYN. -/
def probedPsn (c : MeshConfig) (w : Mesh) (up down : Nat × Nat) (recent : Nat → Bool) (dst : Nat) :
    Nat :=
  ((w.node down.1).downstream.checkSYN c.settings down.2
    ((w.node up.1).getSwitchSYNTag (c.node up.1) up.2 recent)).2.nxtAckPsn down.2 dst

theorem probedPsn_le (chained : Chained c w) (link : c.peer up = some down) (dst : Nat) :
    w.probedPsn c up down recent dst ≤ (w.node up.1).upstream.nxtDataPsn up.2 dst := by
  have entry := (getSwitchSYNTag_entry (c.node up.1) (w.node up.1) up.2 recent dst).2
  have jumps := @Downstream.checkSYN_jumps c.settings down.2
    ((w.node up.1).getSwitchSYNTag (c.node up.1) up.2 recent) (w.node down.1).downstream
  unfold probedPsn
  rw [jumps.passed]
  split
  · rw [entry]
    split
    · exact Nat.le_refl _
    · exact Nat.zero_le _
  · exact ((chained.books down.1).next down.2 dst).trans (chained.received up down link dst)

/-- The set of `CheckSYN`, for a SYN that tells of `dst`. -/
theorem mem_probed (host : dst < c.settings.hostNum) (probed : recent dst = true)
    (waits : (w.node up.1).upstream.rcvAckPsn up.2 dst <
      (w.node up.1).upstream.nxtDataPsn up.2 dst) :
    dst ∈ ((w.node down.1).downstream.checkSYN c.settings down.2
        ((w.node up.1).getSwitchSYNTag (c.node up.1) up.2 recent)).1 ↔
      (w.node up.1).upstream.rcvAckPsn up.2 dst < w.probedPsn c up down recent dst := by
  have entry := (getSwitchSYNTag_entry (c.node up.1) (w.node up.1) up.2 recent dst).1
  rw [if_pos ⟨by rwa [c.shared], waits, probed⟩] at entry
  rw [Downstream.mem_checkSYN, entry]
  exact and_iff_right host

/-- The jump of a SYN that tells of `dst`. -/
theorem probedPsn_eq (host : dst < c.settings.hostNum) (probed : recent dst = true)
    (waits : (w.node up.1).upstream.rcvAckPsn up.2 dst <
      (w.node up.1).upstream.nxtDataPsn up.2 dst) :
    w.probedPsn c up down recent dst =
      if (w.node down.1).downstream.rcvDataPsn down.2 dst <
          (w.node up.1).upstream.nxtDataPsn up.2 dst then
        (w.node up.1).upstream.nxtDataPsn up.2 dst
      else (w.node down.1).downstream.nxtAckPsn down.2 dst := by
  have known : dst < (c.node up.1).settings.hostNum := by rwa [c.shared]
  have entry := (getSwitchSYNTag_entry (c.node up.1) (w.node up.1) up.2 recent dst).2
  rw [if_pos ⟨known, waits, probed⟩] at entry
  have jumps := @Downstream.checkSYN_jumps c.settings down.2
    ((w.node up.1).getSwitchSYNTag (c.node up.1) up.2 recent) (w.node down.1).downstream
  unfold probedPsn
  rw [jumps.passed, entry]
  simp only [host, true_and]

/-- The SYN is received without a failure; what comes of it are the replies. -/
theorem synExchange_replies (mode : c.Numbering) (route : Nat → Nat → Nat) :
    w.synExchange c route up down recent =
      (w.node down.1).synReplies (c.node down.1)
          ((w.node up.1).getSwitchSYNTag (c.node up.1) up.2 recent) 0 0 down.2 >>= fun replies =>
        replies.foldlM (fun s p => s.receive (c.node up.1) (route up.1) up.2 none p)
          (w.node up.1) := by
  obtain ⟨_, _, _, answers, -⟩ := @receive_syn (c.node down.1) (w.node down.1) (mode down.1)
    (route down.1) ((w.node up.1).getSwitchSYNTag (c.node up.1) up.2 recent) down.2
  rw [c.shared] at answers
  unfold synExchange
  simp only [answers, ok_bind]

section Outcome

variable (mode : c.Numbering) (chained : Chained c w) (link : c.peer up = some down)
  (known : ∀ host < c.settings.hostNum, (c.node up.1).upstream.dst2group host ≠ .unset)
  (route : Nat → Nat → Nat)

include mode chained link known

theorem synExchange_entries (credit : c.settings.switchAckMode = .switchIngressCredit)
    (host : dst < c.settings.hostNum) (probed : recent dst = true)
    (waits : (w.node up.1).upstream.rcvAckPsn up.2 dst <
      (w.node up.1).upstream.nxtDataPsn up.2 dst) :
    ∃ recovered, w.synExchange c route up down recent = .ok recovered ∧
      recovered.upstream.nxtDataPsn = (w.node up.1).upstream.nxtDataPsn ∧
      recovered.upstream.rcvAckPsn up.2 dst =
        if (w.node down.1).ackDue (c.node down.1) dst = true then
          max ((w.node up.1).upstream.rcvAckPsn up.2 dst) (w.probedPsn c up down recent dst)
        else (w.node up.1).upstream.rcvAckPsn up.2 dst := by
  have row := SwitchNodeConfig.creditRow_all (mode down.1).psns.all down.2
  have told := @mem_probed c w up down recent dst host probed waits
  have psn : ∀ i, w.probedPsn c up down recent i = ((w.node down.1).downstream.checkSYN c.settings
      down.2 ((w.node up.1).getSwitchSYNTag (c.node up.1) up.2 recent)).2.nxtAckPsn down.2 i :=
    fun _ => rfl
  have sent := fun i => @probedPsn_le c w up down recent chained link i
  have absolute : c.settings.switchAbsolutePsn = true := by
    rw [← c.shared up.1]
    exact (mode up.1).psns.absolute
  rw [synExchange_replies mode]
  unfold synReplies
  simp only [row, c.shared, credit]
  simp only [psn] at sent told ⊢
  generalize (w.node down.1).downstream.checkSYN c.settings down.2
    ((w.node up.1).getSwitchSYNTag (c.node up.1) up.2 recent) = checked at *
  by_cases none : checked.1 = []
  · rw [if_pos none, ok_bind]
    refine ⟨w.node up.1, rfl, rfl, ?_⟩
    rw [none] at told
    have enough : checked.2.nxtAckPsn down.2 dst ≤ (w.node up.1).upstream.rcvAckPsn up.2 dst := by
      by_contra more
      exact absurd (told.mpr (Nat.not_le.mp more)) List.not_mem_nil
    rw [Nat.max_eq_left enough, ite_self]
  · rw [if_neg none]
    let tag := (List.range c.settings.hostNum).foldl
      (fun tag i =>
        if (checked.2.lstAckPsn down.2 i < checked.2.nxtAckPsn down.2 i ∨ i ∈ checked.1) ∧
            (w.node down.1).ackDue (c.node down.1) i = true then
          tag.setACKEntry i (checked.2.nxtAckPsn down.2 i)
        else tag) SwitchACKTag.empty
    have acks : checked.2.getDstsSwitchACKTag c.settings
        ((w.node down.1).ackDue (c.node down.1)) down.2 checked.1 = .ok tag := by
      unfold Downstream.getDstsSwitchACKTag
      rw [if_pos absolute]
    have entries : ∀ i, tag.getACKEntry i = if i ∈ List.range c.settings.hostNum ∧
        (checked.2.lstAckPsn down.2 i < checked.2.nxtAckPsn down.2 i ∨ i ∈ checked.1) ∧
          (w.node down.1).ackDue (c.node down.1) i = true then checked.2.nxtAckPsn down.2 i
        else 0 := fun i => SwitchACKTag.foldl_entry _ (fun i =>
      (checked.2.lstAckPsn down.2 i < checked.2.nxtAckPsn down.2 i ∨ i ∈ checked.1) ∧
        (w.node down.1).ackDue (c.node down.1) i = true) _ _ i
    have acked : ∀ i, tag.getACKEntry i ≤ (w.node up.1).upstream.nxtDataPsn up.2 i := by
      intro i
      rw [entries]
      split
      · exact sent i
      · exact Nat.zero_le _
    obtain ⟨recovered, success, data, cells⟩ := receive_entries (mode up.1)
      (by rw [c.shared]; exact credit) (by rw [c.shared]; exact known) (chained.books up.1).acks
      (route up.1) up.2 acked
    rw [c.shared] at success cells
    refine ⟨recovered, ?_, data, ?_⟩
    · rw [acks, ok_bind, ok_bind, List.foldlM_cons, success]
      rfl
    · rw [cells dst host, entries]
      by_cases due : (w.node down.1).ackDue (c.node down.1) dst = true
      · rw [if_pos due]
        by_cases newer : checked.2.lstAckPsn down.2 dst < checked.2.nxtAckPsn down.2 dst ∨
            dst ∈ checked.1
        · rw [if_pos ⟨List.mem_range.mpr host, newer, due⟩]
        · rw [if_neg fun all => newer all.2.1, Nat.max_zero]
          have enough : checked.2.nxtAckPsn down.2 dst ≤
              (w.node up.1).upstream.rcvAckPsn up.2 dst := by
            by_contra more
            exact newer (.inr (told.mpr (Nat.not_le.mp more)))
          exact (Nat.max_eq_left enough).symm
      · rw [if_neg fun all => due all.2.2, if_neg due, Nat.max_zero]

theorem synExchange_acks (credit : c.settings.switchAckMode = .switchDstCredit)
    (host : dst < c.settings.hostNum) (probed : recent dst = true)
    (waits : (w.node up.1).upstream.rcvAckPsn up.2 dst <
      (w.node up.1).upstream.nxtDataPsn up.2 dst) :
    ∃ recovered, w.synExchange c route up down recent = .ok recovered ∧
      recovered.upstream.nxtDataPsn = (w.node up.1).upstream.nxtDataPsn ∧
      recovered.upstream.rcvAckPsn up.2 dst =
        if (w.node up.1).upstream.rcvAckPsn up.2 dst <
            Word32.trunc (w.probedPsn c up down recent dst) then
          w.probedPsn c up down recent dst
        else (w.node up.1).upstream.rcvAckPsn up.2 dst := by
  have found := @Downstream.mem_checkSYN c.settings down.2
    ((w.node up.1).getSwitchSYNTag (c.node up.1) up.2 recent) (w.node down.1).downstream
  have once := @Downstream.checkSYN_nodup c.settings down.2
    ((w.node up.1).getSwitchSYNTag (c.node up.1) up.2 recent) (w.node down.1).downstream
  have row := SwitchNodeConfig.creditRow_all (mode down.1).psns.all down.2
  have told := @mem_probed c w up down recent dst host probed waits
  have psn : ∀ i, w.probedPsn c up down recent i = ((w.node down.1).downstream.checkSYN c.settings
      down.2 ((w.node up.1).getSwitchSYNTag (c.node up.1) up.2 recent)).2.nxtAckPsn down.2 i :=
    fun _ => rfl
  have sent := fun i => @probedPsn_le c w up down recent chained link i
  rw [synExchange_replies mode]
  unfold synReplies
  simp only [row, c.shared, credit]
  simp only [psn] at sent told ⊢
  generalize (w.node down.1).downstream.checkSYN c.settings down.2
    ((w.node up.1).getSwitchSYNTag (c.node up.1) up.2 recent) = checked at *
  have all : (if checked.1 = [] then (.ok [] : Except Assertion (List Packet)) else
      .ok (checked.1.map fun dst => switchACKPacket c.settings
        (SwitchACKTag.setAckedSize (checked.2.nxtAckPsn down.2 dst)) dst 0)) =
      .ok (checked.1.map fun dst => switchACKPacket c.settings
        (SwitchACKTag.setAckedSize (checked.2.nxtAckPsn down.2 dst)) dst 0) := by
    split
    · rename_i none
      rw [none, List.map_nil]
    · rfl
  obtain ⟨recovered, success, data, cells⟩ := receive_acks (mode up.1)
    (by rw [c.shared]; exact credit) (chained.books up.1).acks (route up.1) up.2 0
    (fun dst => checked.2.nxtAckPsn down.2 dst) sent checked.1 once
    (fun i member => known i ((found i).mp member).1)
  rw [c.shared] at success
  refine ⟨recovered, ?_, data, ?_⟩
  · rw [all, ok_bind]
    exact success
  · rw [cells]
    have cut := Word32.trunc_le (checked.2.nxtAckPsn down.2 dst)
    by_cases newer : (w.node up.1).upstream.rcvAckPsn up.2 dst <
        Word32.trunc (checked.2.nxtAckPsn down.2 dst)
    · rw [if_pos ⟨told.mpr (newer.trans_le cut), newer⟩, if_pos newer]
    · rw [if_neg fun both => newer both.2, if_neg newer]

end Outcome

/-- After any history of a link, with packets and Switch-ACKs lost on it or dropped by the
downstream, an exchange succeeds, and it returns all of the window exactly if it is recoverable. -/
theorem syn_exchange_recovers (c : MeshConfig) (mode : c.Numbering) (labels : List MeshEvent)
    (w : Mesh) (run : Run (Step c) (init c) labels w) (up down : Nat × Nat)
    (link : c.peer up = some down) (route : Nat → Nat → Nat)
    (known : ∀ host < c.settings.hostNum, (c.node up.1).upstream.dst2group host ≠ .unset)
    (recent : Nat → Bool) (dst : Nat) (host : dst < c.settings.hostNum)
    (probed : recent dst = true)
    (waits : (w.node up.1).upstream.rcvAckPsn up.2 dst <
      (w.node up.1).upstream.nxtDataPsn up.2 dst) :
    ∃ recovered, w.synExchange c route up down recent = .ok recovered ∧
      (recovered.upstream.rcvAckPsn up.2 dst = recovered.upstream.nxtDataPsn up.2 dst ↔
        w.SynRecoverable c up down dst) := by
  have chained := Chained.run mode run
  have jump := @probedPsn_eq c w up down recent dst host probed waits
  have exact : w.probedPsn c up down recent dst = (w.node up.1).upstream.nxtDataPsn up.2 dst ↔
      ((w.node down.1).downstream.rcvDataPsn down.2 dst <
          (w.node up.1).upstream.nxtDataPsn up.2 dst ∨
        (w.node down.1).downstream.nxtAckPsn down.2 dst =
          (w.node up.1).upstream.nxtDataPsn up.2 dst) := by
    rw [jump]
    split <;> simp_all
  cases credit : c.settings.switchAckMode with
  | hostPerPacketAck =>
      rw [← c.shared up.1] at credit
      exact absurd credit (mode up.1).psns.acks
  | switchIngressCredit =>
      obtain ⟨recovered, success, data, cell⟩ :=
        synExchange_entries mode chained link known route credit host probed waits
      refine ⟨recovered, success, ?_⟩
      rw [data, cell]
      unfold SynRecoverable
      rw [← exact, credit]
      simp only [reduceCtorEq, false_implies, true_implies, and_true]
      split
      · rename_i due
        have enough : max ((w.node up.1).upstream.rcvAckPsn up.2 dst)
            (w.probedPsn c up down recent dst) = (w.node up.1).upstream.nxtDataPsn up.2 dst ↔
            w.probedPsn c up down recent dst = (w.node up.1).upstream.nxtDataPsn up.2 dst := by
          omega
        rw [enough]
        exact ⟨fun same => ⟨same, due⟩, fun both => both.1⟩
      · rename_i late
        constructor
        · intro same
          exact absurd same (Nat.ne_of_lt waits)
        · intro both
          exact absurd both.2 late
  | switchDstCredit =>
      obtain ⟨recovered, success, data, cell⟩ :=
        synExchange_acks mode chained link known route credit host probed waits
      refine ⟨recovered, success, ?_⟩
      rw [data, cell]
      unfold SynRecoverable
      rw [← exact, credit]
      simp only [reduceCtorEq, false_implies, true_implies, true_and]
      split
      · rename_i newer
        constructor
        · intro same
          exact ⟨same, same ▸ newer⟩
        · exact fun both => both.1
      · rename_i old
        constructor
        · intro same
          exact absurd same (Nat.ne_of_lt waits)
        · rintro ⟨same, newer⟩
          rw [same] at old
          exact absurd newer old

end Exchange

/-- Nothing is in the two switches or on the link between them. -/
def Still (c : MeshConfig) (w : Mesh) (up down : Nat × Nat) : Prop :=
  (w.node up.1).residentBy (c.node up.1) (fun _ => 1) = 0 ∧
    (w.node down.1).residentBy (c.node down.1) (fun _ => 1) = 0 ∧
    (w.wire up).length = 0 ∧ (w.wire down).length = 0

instance (c : MeshConfig) (w : Mesh) (up down : Nat × Nat) : Decidable (Still c w up down) :=
  inferInstanceAs (Decidable (_ ∧ _))

instance (c : MeshConfig) (w : Mesh) (up down : Nat × Nat) (dst : Nat) :
    Decidable (SynRecoverable c w up down dst) :=
  inferInstanceAs (Decidable (_ ∧ _))

end Mesh

/-- The second of the two switches has no headroom. -/
def tightMesh : MeshConfig :=
  { wideMesh with
    node := fun n => if n = 0 then wideSwitch true else smallSwitch wideUpstream true
    shared := fun n => by split <;> rfl }

namespace Mesh

theorem tightMesh_numbering : tightMesh.Numbering := by
  intro n
  have credit : tightMesh.settings.switchAckMode ≠ .hostPerPacketAck := by decide
  rw [← tightMesh.shared n] at credit
  refine ⟨?_, ?_, ?_, credit⟩
  · by_cases here : n = 0 <;> simp [tightMesh, here, wideSwitch, smallSwitch]
  · rw [tightMesh.shared]
    rfl
  · rw [tightMesh.shared]
    rfl

theorem tightMesh_known (n : Nat) (host : Nat) :
    (tightMesh.node n).upstream.dst2group host ≠ .unset := by
  have rule : (tightMesh.node n).upstream.dst2group host =
      if host = 1 then .group 0 else .ignored := by
    by_cases here : n = 0 <;> simp [tightMesh, here, wideSwitch, smallSwitch] <;> rfl
  rw [rule]
  split <;> simp

/-- Then 60000 bytes follow; the host is paused for a while. -/
def sentRun : List MeshEvent :=
  passedRun ++
    [.host 0 0 (some 1) (dataOf 60000 (by decide) (by decide)),
     .act 0 (.transmit 1) trivial,
     .act 0 (.transmit 0) trivial,
     .act 0 (.transmit 0) trivial]

/-- The second switch has no room for them. -/
def droppedRun : List MeshEvent := sentRun ++ [.deliver 1 1 0 (some 3)]

/-- The link loses them. -/
def lostRun : List MeshEvent := sentRun ++ [.lose 1 1 0]

def exchanged (w : Mesh) : Bool :=
  match w.synExchange tightMesh (fun _ => id) (0, 1) (1, 1) (fun _ => true) with
  | .ok s => decide (s.upstream.rcvAckPsn 1 1 = s.upstream.nxtDataPsn 1 1)
  | .error _ => false

def waits (w : Mesh) : Bool :=
  decide ((w.node 0).upstream.rcvAckPsn 1 1 < (w.node 0).upstream.nxtDataPsn 1 1)

set_option maxRecDepth 20000 in
theorem droppedRun_ends : ends tightMesh droppedRun
    (fun w => decide (Still tightMesh w (0, 1) (1, 1)) && waits w && !exchanged w) = true := by
  decide +kernel

set_option maxRecDepth 20000 in
theorem lostRun_ends : ends tightMesh lostRun
    (fun w => decide (SynRecoverable tightMesh w (0, 1) (1, 1) 1) && waits w) = true := by
  decide +kernel

theorem tight_host {inDev n : Nat} (outDev : Option Nat) (size : Nat) (pos : 0 < size)
    (lt : size < Word32.size) (port : twoLinks (n, inDev) = none) (w : Mesh) :
    (MeshEvent.host n inDev outDev (dataOf size pos lt)).Valid tightMesh w := by
  refine ⟨port, kilo_fromHost size pos lt, fun dev _ _ _ _ _ ignored => ?_⟩
  have group : (tightMesh.node n).upstream.dst2group 1 = .group 0 := by
    by_cases here : n = 0 <;> simp [tightMesh, here, wideSwitch, smallSwitch] <;> rfl
  have target : (dataOf size pos lt).dip = 1 := rfl
  rw [target, group] at ignored
  contradiction

theorem tight_deliver (w : Mesh) : (MeshEvent.deliver 1 1 0 (some 3)).Valid tightMesh w :=
  MeshEvent.deliver_valid _ rfl fun _ same => Option.some.inj same ▸ rfl

theorem sentRun_valid : ∀ event ∈ sentRun, ∀ w, event.Valid tightMesh w := by
  intro event member w
  simp only [sentRun, passedRun, List.cons_append, List.nil_append, List.mem_cons,
    List.not_mem_nil, or_false] at member
  rcases member with rfl | rfl | rfl | rfl | rfl | rfl | rfl | rfl | rfl | rfl
  · exact tight_host _ _ _ _ rfl w
  · trivial
  · exact tight_deliver w
  · trivial
  · trivial
  · exact ⟨rfl, fun p _ dev toNone => by contradiction⟩
  · exact tight_host _ _ _ _ rfl w
  · trivial
  · trivial
  · trivial

/-- Data that the downstream drops itself is never recovered. -/
theorem dropped_data_unrecovered : ¬ ∀ (c : MeshConfig), c.Numbering → ∀ labels w,
    Run (Step c) (init c) labels w → ∀ up down, c.peer up = some down → ∀ route,
    (∀ host < c.settings.hostNum, (c.node up.1).upstream.dst2group host ≠ .unset) →
    ∀ recent : Nat → Bool, ∀ dst < c.settings.hostNum, recent dst = true →
    (w.node up.1).upstream.rcvAckPsn up.2 dst < (w.node up.1).upstream.nxtDataPsn up.2 dst →
    Still c w up down →
    ∃ recovered, w.synExchange c route up down recent = .ok recovered ∧
      recovered.upstream.rcvAckPsn up.2 dst = recovered.upstream.nxtDataPsn up.2 dst := by
  intro claim
  have valid : ∀ event ∈ droppedRun, ∀ w, event.Valid tightMesh w := by
    intro event member w
    rcases List.mem_append.mp member with sent | last
    · exact sentRun_valid event sent w
    · obtain rfl := List.mem_singleton.mp last
      exact tight_deliver w
  obtain ⟨w, run, found⟩ := ends_run valid droppedRun_ends
  simp only [Bool.and_eq_true, decide_eq_true_eq, Bool.not_eq_true', waits] at found
  obtain ⟨⟨still, more⟩, missed⟩ := found
  obtain ⟨recovered, success, same⟩ := claim tightMesh tightMesh_numbering droppedRun w run (0, 1)
    (1, 1) rfl (fun _ => id) (fun host _ => tightMesh_known 0 host) (fun _ => true) 1 (by decide)
    rfl more still
  unfold exchanged at missed
  rw [success] at missed
  simp only [decide_eq_false_iff_not] at missed
  exact missed same

/-- Data that the link loses is recovered. -/
theorem syn_exchange_recovers_lost : ∃ w recovered,
    Run (Step tightMesh) (init tightMesh) lostRun w ∧
    w.synExchange tightMesh (fun _ => id) (0, 1) (1, 1) (fun _ => true) = .ok recovered ∧
    recovered.upstream.rcvAckPsn 1 1 = recovered.upstream.nxtDataPsn 1 1 := by
  have valid : ∀ event ∈ lostRun, ∀ w, event.Valid tightMesh w := by
    intro event member w
    rcases List.mem_append.mp member with sent | last
    · exact sentRun_valid event sent w
    · obtain rfl := List.mem_singleton.mp last
      trivial
  obtain ⟨w, run, found⟩ := ends_run valid lostRun_ends
  simp only [Bool.and_eq_true, decide_eq_true_eq, waits] at found
  obtain ⟨recovered, success, exact⟩ := syn_exchange_recovers tightMesh tightMesh_numbering lostRun
    w run (0, 1) (1, 1) rfl (fun _ => id) (fun host _ => tightMesh_known 0 host) (fun _ => true) 1
    (by decide) rfl found.2
  exact ⟨w, recovered, run, success, exact.mpr found.1⟩

end Mesh

end Floodgate
