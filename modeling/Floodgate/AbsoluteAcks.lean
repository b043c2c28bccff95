import Floodgate.Downstream
import Floodgate.TorWindows

/-! Absolute PSNs in Switch-ACKs: what becomes of 64-bit numbers on their way through 32-bit
variables, at the upstream that records them and at the downstream that counts what it owes. -/

namespace Floodgate

open Std Outcome LabelledRun

/-- The PSN up to which an event acknowledges the data for `dst` in a row of the PSN tables. -/
def FloodgateEvent.ackedPsn (c : UpstreamConfig) (row dst : Nat) : FloodgateEvent → Nat
  | .data _ _ _ _ => 0
  | .ack tag sip inDev =>
      if row = c.psnRow inDev dst then
        match c.settings.switchAckMode with
        | .switchIngressCredit => if dst < c.settings.hostNum then tag.getACKEntry dst else 0
        | _ => if dst = sip then tag.getAckedSize else 0
      else 0

/-- The acknowledged PSNs are cumulative maxima. -/
def Recorded (c : UpstreamConfig) (s : Upstream) (event : FloodgateEvent) (after : Upstream) :
    Prop :=
  ∀ row dst, after.rcvAckPsn row dst = max (s.rcvAckPsn row dst) (event.ackedPsn c row dst)

/-- An acked size for one destination is old, or it is still new when cut to 32 bits. -/
def UpstreamConfig.SurvivesCut (c : UpstreamConfig) (s : Upstream) : FloodgateEvent → Prop
  | .data _ _ _ _ => True
  | .ack tag sip inDev =>
      c.settings.switchAckMode = .switchIngressCredit ∨
      tag.getAckedSize ≤ s.rcvAckPsn (c.psnRow inDev sip) sip ∨
      s.rcvAckPsn (c.psnRow inDev sip) sip < Word32.trunc tag.getAckedSize

namespace Upstream

variable {c : UpstreamConfig} {s after : Upstream}

section Kept

variable {First : Type} {result : Except Assertion First}

theorem any_outcome : Holds (fun _ => True) (fun _ => True) result :=
  holds_of_success fun _ _ => trivial

theorem ensureRegisteredWin_acks (dst : Nat) :
    Holds (fun _ => True) (fun after => after.rcvAckPsn = s.rcvAckPsn)
      (s.ensureRegisteredWin c dst) := by
  unfold ensureRegisteredWin
  split
  · rfl
  · split
    · trivial
    · split
      · exact any_outcome.bind fun _ _ _ => rfl
      · rfl

theorem checkDstWin_acks (dst pktSize : Nat) :
    Holds (fun _ => True) (fun checked => checked.2.rcvAckPsn = s.rcvAckPsn)
      (s.checkDstWin c dst pktSize) := by
  unfold checkDstWin
  apply (ensureRegisteredWin_acks dst).bind
  intro registered _ kept
  split
  · exact any_outcome.bind fun _ _ _ => kept
  · exact kept

theorem updateDstWin_acks (dst pktSize : Nat) (isAdd : Bool) :
    Holds (fun _ => True) (fun after => after.rcvAckPsn = s.rcvAckPsn)
      (s.updateDstWin c dst pktSize isAdd) := by
  unfold updateDstWin
  apply any_outcome.bind
  intro ignore _ _
  split
  · rfl
  · split
    · exact any_outcome.bind fun _ _ _ => rfl
    · split
      · split
        · rfl
        · trivial
      · apply (ensureRegisteredWin_acks dst).bind
        intro registered _ kept
        exact kept

theorem updateBufferingCount_acks (dst pktSize : Nat) (isAdd : Bool) :
    Holds (fun _ => True) (fun after => after.rcvAckPsn = s.rcvAckPsn)
      (s.updateBufferingCount dst pktSize isAdd) := by
  unfold updateBufferingCount
  split
  · rfl
  · split
    · rfl
    · trivial

theorem voqDequeueCallback_acks (unit : PacketUnit) :
    Holds (fun _ => True) (fun called => called.2.rcvAckPsn = s.rcvAckPsn)
      (s.voqDequeueCallback c unit) := by
  unfold voqDequeueCallback
  have numbered : (if c.settings.switchAbsolutePsn then s.updateDataPSN c unit.outDev unit.dst
      unit.pkt else (unit.pkt, s)).2.rcvAckPsn = s.rcvAckPsn := by
    split
    · rfl
    · rfl
  apply (updateDstWin_acks unit.dst unit.pkt.size false).bind
  intro windowed _ same
  apply (updateBufferingCount_acks unit.dst unit.pkt.size false).bind
  intro counted _ kept
  exact kept.trans (same.trans numbered)

theorem checkAndSendOne_acks (voq : Nat × Nat) :
    Holds (fun _ => True) (fun sent => sent.2.rcvAckPsn = s.rcvAckPsn)
      (s.checkAndSendOne c voq) := by
  unfold checkAndSendOne
  split
  · rfl
  · split
    · rfl
    · apply (checkDstWin_acks _ _).bind
      intro checked _ same
      split
      · dsimp only
        split
        · apply (voqDequeueCallback_acks _).bind
          intro called _ kept
          exact kept.trans same
        · trivial
      · exact same

theorem checkAndSendAll_acks (voq : Nat × Nat) (rounds : Nat) :
    Holds (fun _ => True) (fun sent => sent.2.rcvAckPsn = s.rcvAckPsn)
      (checkAndSendAll c voq rounds s) := by
  induction rounds generalizing s with
  | zero => rfl
  | succ rounds ih =>
      unfold checkAndSendAll
      apply (checkAndSendOne_acks voq).bind
      intro sent _ first
      split
      · exact first
      · apply ih.bind
        intro later _ rest
        exact rest.trans first

theorem checkAndSendDst_acks (dst : Nat) :
    Holds (fun _ => True) (fun sent => sent.2.rcvAckPsn = s.rcvAckPsn)
      (s.checkAndSendDst c dst) := by
  unfold checkAndSendDst
  apply any_outcome.bind
  intro ignore _ _
  split
  · rfl
  · apply any_outcome.bind
    intro found _ _
    split
    · exact checkAndSendAll_acks _ _
    · split
      · rfl
      · trivial

theorem sendFirstRound_acks (keys : List Nat) :
    Holds (fun _ => True) (fun sent => sent.2.2.rcvAckPsn = s.rcvAckPsn)
      (sendFirstRound c keys s) := by
  induction keys generalizing s with
  | nil => rfl
  | cons key rest ih =>
      unfold sendFirstRound
      split
      · apply any_outcome.bind
        intro ignore _ _
        split
        · rfl
        · apply any_outcome.bind
          intro found _ _
          split
          · exact ih
          · apply (checkAndSendOne_acks _).bind
            intro sent _ first
            split
            · exact ih.mono fun later _ rest => rest.trans first
            · apply ih.bind
              intro later _ rest
              exact rest.trans first
      · exact ih

theorem sendRoundRobin_acks (rounds : Nat) (left : List (Nat × Nat)) :
    Holds (fun _ => True) (fun sent => sent.2.rcvAckPsn = s.rcvAckPsn)
      (sendRoundRobin c rounds left s) := by
  induction rounds generalizing left s with
  | zero => rfl
  | succ rounds ih =>
      cases left with
      | nil => rfl
      | cons voq left =>
          unfold sendRoundRobin
          apply (checkAndSendOne_acks voq).bind
          intro sent _ first
          split
          · exact (ih left).mono fun later _ rest => rest.trans first
          · apply (ih _).bind
            intro later _ rest
            exact rest.trans first

theorem checkAndSendVOQ_acks :
    Holds (fun _ => True) (fun sent => sent.2.rcvAckPsn = s.rcvAckPsn) (s.checkAndSendVOQ c) := by
  unfold checkAndSendVOQ
  apply (sendFirstRound_acks _).bind
  intro first _ kept
  split
  · exact kept
  · apply (sendRoundRobin_acks _ _).bind
    intro second _ rest
    exact rest.trans kept

theorem drain_acks (sip : Nat) :
    Holds (fun _ => True) (fun sent => sent.2.rcvAckPsn = s.rcvAckPsn) (s.drain c sip) := by
  unfold drain
  split
  · exact checkAndSendVOQ_acks
  · exact checkAndSendDst_acks sip

theorem checkVOQWin_acks (pkt : Packet) (outDev qIndex : Nat) :
    Holds (fun _ => True) (fun routed => routed.2.rcvAckPsn = s.rcvAckPsn)
      (s.checkVOQWin c pkt outDev qIndex) := by
  unfold checkVOQWin
  split
  · apply any_outcome.bind
    intro ignore _ _
    split
    · rfl
    · apply (checkDstWin_acks _ _).bind
      intro checked _ same
      split
      · apply (updateDstWin_acks _ _ false).bind
        intro passed _ kept
        split
        · exact kept.trans same
        · exact kept.trans same
      · have buffers : Holds (fun _ => True) (fun after => after.rcvAckPsn = checked.2.rcvAckPsn)
            (checked.2.bufferPacket c ⟨pkt, pkt.dip, outDev, qIndex⟩) := by
          unfold bufferPacket
          apply any_outcome.bind
          intro found _ _
          apply any_outcome.bind
          intro voq _ _
          exact updateBufferingCount_acks _ _ true
        apply buffers.bind
        intro buffered _ kept
        exact kept.trans same
  · rfl

end Kept

section Recording

theorem setRcvAckPsn_cell (row dst psn i j : Nat) :
    (s.setRcvAckPsn row dst psn).rcvAckPsn i j =
      if i = row ∧ j = dst then psn else s.rcvAckPsn i j := by
  simp only [setRcvAckPsn]
  by_cases here : i = row ∧ j = dst
  · obtain ⟨rfl, rfl⟩ := here
    rw [setCell_same, if_pos ⟨rfl, rfl⟩]
  · rw [setCell_other _ _ _ _ _ _ here, if_neg here]

/-- `RecoverWin` compares PSNs in full. -/
theorem recoverDst_cell (absolute : c.settings.switchAbsolutePsn = true) {tag : SwitchACKTag}
    {dev dst : Nat} (success : recoverDst c tag dev s dst = .ok after) (i j : Nat) :
    after.rcvAckPsn i j =
      if i = c.psnRow dev dst ∧ j = dst then max (s.rcvAckPsn i j) (tag.getACKEntry dst)
      else s.rcvAckPsn i j := by
  unfold recoverDst at success
  simp only [absolute, if_true] at success
  split at success
  · split at success
    · rename_i newer
      have kept := (updateDstWin_acks _ _ true).of_ok success
      rw [kept, setRcvAckPsn_cell]
      split
      · rename_i here
        obtain ⟨rfl, rfl⟩ := here
        exact (Nat.max_eq_right (by omega)).symm
      · rfl
    · rename_i old
      have kept := (updateDstWin_acks _ _ true).of_ok success
      rw [kept]
      split
      · rename_i here
        obtain ⟨rfl, rfl⟩ := here
        exact (Nat.max_eq_left (by omega)).symm
      · rfl
  · rename_i nothing
    obtain rfl := Except.ok.inj success
    split
    · exact (Nat.max_eq_left (by omega)).symm
    · rfl

theorem recoverAll_cell (absolute : c.settings.switchAbsolutePsn = true) {tag : SwitchACKTag}
    {dev : Nat} (dsts : List Nat) (once : dsts.Nodup)
    (success : dsts.foldlM (recoverDst c tag dev) s = .ok after) (i j : Nat) :
    after.rcvAckPsn i j =
      if i = c.psnRow dev j ∧ j ∈ dsts then max (s.rcvAckPsn i j) (tag.getACKEntry j)
      else s.rcvAckPsn i j := by
  induction dsts generalizing s with
  | nil =>
      obtain rfl := Except.ok.inj success
      simp
  | cons dst rest ih =>
      rw [List.foldlM_cons] at success
      obtain ⟨middle, first, later⟩ := bind_ok.mp success
      obtain ⟨fresh, once⟩ := List.nodup_cons.mp once
      have head := recoverDst_cell absolute first i j
      rw [ih once later, head]
      by_cases same : j = dst
      · subst same
        simp [fresh]
      · simp [same]

theorem resumeDst_cell (absolute : c.settings.switchAbsolutePsn = true) {tag : SwitchACKTag}
    {dst dev : Nat} (success : s.resumeDst c tag dst dev = .ok after) (i j : Nat) :
    after.rcvAckPsn i j =
      if (i = c.psnRow dev dst ∧ j = dst) ∧
          s.rcvAckPsn (c.psnRow dev dst) dst < Word32.trunc tag.getAckedSize then
        tag.getAckedSize
      else s.rcvAckPsn i j := by
  unfold resumeDst at success
  simp only [absolute, if_true] at success
  split at success
  · rename_i newer
    have kept := (updateDstWin_acks _ _ true).of_ok success
    rw [kept, setRcvAckPsn_cell]
    simp only [gt_iff_lt] at newer
    simp only [newer, and_true]
  · rename_i old
    have kept := (updateDstWin_acks _ _ true).of_ok success
    rw [kept, if_neg fun both => old both.2]

theorem resumeDst_recorded (absolute : c.settings.switchAbsolutePsn = true) {tag : SwitchACKTag}
    {sip inDev : Nat} (single : c.settings.switchAckMode ≠ .switchIngressCredit)
    (success : s.resumeDst c tag sip inDev = .ok after) :
    c.SurvivesCut s (.ack tag sip inDev) ↔ Recorded c s (.ack tag sip inDev) after := by
  have cell := resumeDst_cell absolute success
  have cut := Word32.trunc_le tag.getAckedSize
  have acked : ∀ row dst, FloodgateEvent.ackedPsn c row dst (.ack tag sip inDev) =
      if row = c.psnRow inDev sip ∧ dst = sip then tag.getAckedSize else 0 := by
    intro row dst
    unfold FloodgateEvent.ackedPsn
    by_cases same : dst = sip
    · subst same
      by_cases here : row = c.psnRow inDev dst
      · cases mode : c.settings.switchAckMode <;> simp_all
      · simp [here]
    · cases mode : c.settings.switchAckMode <;> simp_all
  constructor
  · intro survives row dst
    rw [cell, acked]
    have fine := survives.resolve_left single
    by_cases here : row = c.psnRow inDev sip ∧ dst = sip
    · rw [if_pos here]
      obtain ⟨rfl, rfl⟩ := here
      by_cases newer : s.rcvAckPsn (c.psnRow inDev dst) dst < Word32.trunc tag.getAckedSize
      · rw [if_pos ⟨⟨rfl, rfl⟩, newer⟩]
        exact (Nat.max_eq_right (by omega)).symm
      · rw [if_neg fun both => newer both.2]
        have old := fine.resolve_right newer
        exact (Nat.max_eq_left old).symm
    · rw [if_neg fun both => here both.1, if_neg here, Nat.max_zero]
  · intro recorded
    right
    have here : c.psnRow inDev sip = c.psnRow inDev sip ∧ sip = sip := ⟨rfl, rfl⟩
    have own := recorded (c.psnRow inDev sip) sip
    rw [cell, acked, if_pos here] at own
    by_cases newer : s.rcvAckPsn (c.psnRow inDev sip) sip < Word32.trunc tag.getAckedSize
    · exact .inr newer
    · left
      rw [if_neg fun both => newer both.2] at own
      exact own ▸ Nat.le_max_right _ _

theorem recoverWin_recorded (absolute : c.settings.switchAbsolutePsn = true) {tag : SwitchACKTag}
    {sip inDev : Nat} (mode : c.settings.switchAckMode = .switchIngressCredit)
    (success : s.recoverWin c tag inDev = .ok after) :
    Recorded c s (.ack tag sip inDev) after := by
  intro row dst
  rw [recoverAll_cell absolute _ List.nodup_range success]
  simp only [FloodgateEvent.ackedPsn, mode, List.mem_range]
  by_cases here : row = c.psnRow inDev dst
  · by_cases host : dst < c.settings.hostNum
    · simp [here, host]
    · simp [here, host]
  · simp [here]

theorem recorded_iff (absolute : c.settings.switchAbsolutePsn = true)
    {label : FloodgateEvent × List PacketUnit} (step : Upstream.Step c s label after) :
    c.SurvivesCut s label.1 ↔ Recorded c s label.1 after := by
  obtain ⟨event, sent⟩ := label
  cases event with
  | data pkt isData outDev qIndex =>
      obtain ⟨routed, routes, success⟩ := bind_ok.mp step
      have kept := (checkVOQWin_acks pkt outDev qIndex).of_ok routes
      have same : routed.2 = after := congrArg Prod.snd (Except.ok.inj success)
      rw [same] at kept
      refine ⟨fun _ row dst => ?_, fun _ => trivial⟩
      rw [kept]
      exact (Nat.max_zero _).symm
  | ack tag sip inDev =>
      obtain ⟨restored, restores, drains⟩ := bind_ok.mp step
      have kept : after.rcvAckPsn = restored.rcvAckPsn := (drain_acks sip).of_ok drains
      have congr : Recorded c s (.ack tag sip inDev) restored ↔
          Recorded c s (.ack tag sip inDev) after := by
        simp only [Recorded, kept]
      rw [← congr]
      by_cases mode : c.settings.switchAckMode = .switchIngressCredit
      · simp only [restoreWin, mode] at restores
        have recorded : Recorded c s (.ack tag sip inDev) restored :=
          recoverWin_recorded absolute mode restores
        exact ⟨fun _ => recorded, fun _ => .inl mode⟩
      · have single : s.resumeDst c tag sip inDev = .ok restored := by
          unfold restoreWin at restores
          split at restores
          · contradiction
          · exact restores
        exact resumeDst_recorded absolute mode single

theorem recorded_run (absolute : c.settings.switchAbsolutePsn = true)
    {entries : List (Upstream × FloodgateEvent × List PacketUnit)}
    (run : Run (Traced (Upstream.Step c)) s entries after)
    (survives : ∀ entry ∈ entries, c.SurvivesCut entry.1 entry.2.1) (row dst : Nat) :
    after.rcvAckPsn row dst =
      (entries.map fun entry => entry.2.1.ackedPsn c row dst).foldl max (s.rcvAckPsn row dst) := by
  induction run with
  | nil => rfl
  | @snoc entries middle finish entry _ last ih =>
      simp only [List.forall_mem_append, List.forall_mem_singleton] at survives
      obtain ⟨here, step⟩ := last
      rw [← here] at step
      have recorded := (recorded_iff absolute step).mp survives.2
      have earlier := ih survives.1
      rw [List.map_append, List.foldl_append, ← earlier, recorded row dst, here]
      rfl

end Recording

end Upstream

namespace Downstream

variable {g : Settings} {due : Nat → Bool} {d : Downstream} {dev dst : Nat}

theorem getIngressDstCreditCounter_exact (absolute : g.switchAbsolutePsn = true)
    (tested : due dst = true) :
    d.getIngressDstCreditCounter g due dev dst = .ok (d.nxtAckPsn dev dst - d.lstAckPsn dev dst) ↔
      d.lstAckPsn dev dst ≤ d.nxtAckPsn dev dst ∧
        d.nxtAckPsn dev dst - d.lstAckPsn dev dst < Word32.size := by
  simp only [getIngressDstCreditCounter, absolute, tested, if_true]
  by_cases ordered : d.lstAckPsn dev dst ≤ d.nxtAckPsn dev dst
  · rw [if_pos ordered]
    constructor
    · intro same
      exact ⟨ordered, Except.ok.inj same ▸ Word32.trunc_lt _⟩
    · intro fits
      rw [Word32.trunc_eq _ fits.2]
  · rw [if_neg ordered]
    exact ⟨nofun, fun fits => absurd fits.1 ordered⟩

end Downstream

namespace Upstream

/-- ACKs of absolute PSNs are recorded as maxima exactly as long as those for one destination
survive being cut to 32 bits, and then nothing is left in flight once everything is acknowledged.
A downstream counts what it owes exactly while that fits 32 bits. -/
theorem absolute_acks_cumulative (c : UpstreamConfig)
    (absolute : c.settings.switchAbsolutePsn = true) {start finish : Upstream}
    {entries : List (Upstream × FloodgateEvent × List PacketUnit)}
    (run : Run (Traced (Upstream.Step c)) start entries finish) :
    ((∀ entry ∈ entries, c.SurvivesCut entry.1 entry.2.1) ↔
      ∀ entry ∈ entries, ∀ after, Upstream.Step c entry.1 entry.2 after →
        Recorded c entry.1 entry.2.1 after) ∧
    ((∀ entry ∈ entries, c.SurvivesCut entry.1 entry.2.1) →
      (∀ row dst, finish.rcvAckPsn row dst = (entries.map fun entry =>
        entry.2.1.ackedPsn c row dst).foldl max (start.rcvAckPsn row dst)) ∧
      ∀ dst, (∀ row < switchScale, finish.nxtDataPsn row dst = (entries.map fun entry =>
          entry.2.1.ackedPsn c row dst).foldl max (start.rcvAckPsn row dst)) →
        finish.getInflightBytes dst = .ok 0) ∧
    ∀ (d : Downstream) (due : Nat → Bool) (dev dst : Nat), due dst = true →
      (d.getIngressDstCreditCounter c.settings due dev dst =
          .ok (d.nxtAckPsn dev dst - d.lstAckPsn dev dst) ↔
        d.lstAckPsn dev dst ≤ d.nxtAckPsn dev dst ∧
          d.nxtAckPsn dev dst - d.lstAckPsn dev dst < Word32.size) := by
  refine ⟨⟨?_, ?_⟩, ?_, ?_⟩
  · intro survives entry member after step
    exact (recorded_iff absolute step).mp (survives entry member)
  · intro recorded entry member
    obtain ⟨next, step⟩ := run.taken entry member
    exact (recorded_iff absolute step).mpr (recorded entry member next step)
  · intro survives
    have maxima := recorded_run absolute run survives
    refine ⟨maxima, fun dst everything => ?_⟩
    have idle : ∀ row < switchScale, finish.nxtDataPsn row dst = finish.rcvAckPsn row dst := by
      intro row inside
      rw [everything row inside, maxima]
    have ordered : finish.inflightOrdered dst = true :=
      (inflightOrdered_iff finish dst).mpr fun row inside => Nat.le_of_eq (idle row inside).symm
    rw [getInflightBytes, if_pos ordered, inflightBytes_zero idle]
  · intro d due dev dst tested
    exact Downstream.getIngressDstCreditCounter_exact absolute tested

end Upstream

def psnSwitch : UpstreamConfig where
  settings := { (narrow .switchDstCredit unlimited 2000 Word32.two_thousand_lt).settings with
    switchAbsolutePsn := true }
  dst2group := fun dst => if dst = 1 then .group 0 else .ignored
  bdpMap := fun dst => if dst = 1 then some 2000 else none
  groups := (∅ : ExtTreeMap Nat VOQGroupConfig).insert 0 unlimited
  group_known := by
    intro dst id rule
    split at rule
    · simp [(DstRule.group.inj rule).symm]
    · contradiction
  bdpMap_lt := by
    intro dst win known
    split at known
    · exact Option.some.inj known ▸ Word32.two_thousand_lt
    · contradiction

namespace Upstream

/-- The window of host 1 when `sent` bytes have passed to the device 2 and `acked` of them have been
acknowledged. -/
def psnState (sent acked : Nat) : Upstream :=
  { Upstream.init psnSwitch with
    wins := (∅ : ExtTreeMap Nat Nat).insert 1 2000
    nxtDataPsn := setCell (fun _ _ => 0) 2 1 sent
    rcvAckPsn := setCell (fun _ _ => 0) 2 1 acked }

def lastAck (sent : Nat) : FloodgateEvent × List PacketUnit :=
  (.ack (SwitchACKTag.setAckedSize sent) 1 2, [])

theorem lastAck_covers {sent acked : Nat} (order : acked ≤ sent) (row : Nat) :
    (psnState sent acked).nxtDataPsn row 1 =
      ([(psnState sent acked, lastAck sent)].map fun entry =>
        entry.2.1.ackedPsn psnSwitch row 1).foldl max ((psnState sent acked).rcvAckPsn row 1) := by
  by_cases same : row = 2
  · subst same
    exact (Nat.max_eq_right order).symm
  · simp [psnState, setCell, same, FloodgateEvent.ackedPsn, UpstreamConfig.psnRow, psnSwitch,
      narrow, lastAck]

theorem absolute_acks_cumulative_one_ack : ∃ s : Upstream,
    (∀ entry ∈ [(psnState 2048 1024, lastAck 2048)], psnSwitch.SurvivesCut entry.1 entry.2.1) ∧
    s.getInflightBytes 1 = .ok 0 ∧
    (Downstream.init.getIngressDstCreditCounter psnSwitch.settings (fun _ => true) 2 1 = .ok 0 ↔
      0 ≤ 0 ∧ 0 - 0 < Word32.size) := by
  have step : ∃ s, Upstream.Step psnSwitch (psnState 2048 1024) (lastAck 2048) s ∧
      s.nxtDataPsn = (psnState 2048 1024).nxtDataPsn := ⟨_, rfl, rfl⟩
  obtain ⟨s, step, sent⟩ := step
  have run : Run (Traced (Upstream.Step psnSwitch)) (psnState 2048 1024)
      [(psnState 2048 1024, lastAck 2048)] s := Run.single ⟨rfl, step⟩
  obtain ⟨-, cumulative, counter⟩ := absolute_acks_cumulative psnSwitch rfl run
  have survives : ∀ entry ∈ [(psnState 2048 1024, lastAck 2048)],
      psnSwitch.SurvivesCut entry.1 entry.2.1 := by
    intro entry here
    rw [List.mem_singleton.mp here]
    exact .inr (.inr (by decide))
  refine ⟨s, survives, (cumulative survives).2 1 ?_, counter Downstream.init _ 2 1 rfl⟩
  intro row _
  rw [sent]
  exact lastAck_covers (by decide) row

set_option maxRecDepth 4000 in
/-- All of 2^32 bytes are acknowledged at last, but of that PSN 32 bits are left: 0. The last 1024
bytes stay in flight. -/
theorem ack_of_full_word_ignored : ¬ ∀ (c : UpstreamConfig), c.settings.switchAbsolutePsn = true →
    ∀ start finish entries, Run (Traced (Upstream.Step c)) start entries finish →
      ∀ dst, (∀ row < switchScale, finish.nxtDataPsn row dst = (entries.map fun entry =>
          entry.2.1.ackedPsn c row dst).foldl max (start.rcvAckPsn row dst)) →
        finish.getInflightBytes dst = .ok 0 := by
  intro claim
  have step : ∃ s, Upstream.Step psnSwitch (psnState 4294967296 4294966272)
      (lastAck 4294967296) s ∧ s.nxtDataPsn = (psnState 4294967296 4294966272).nxtDataPsn ∧
      s.inflightBytes 1 = 1024 := ⟨_, rfl, rfl, rfl⟩
  obtain ⟨s, step, sent, inflight⟩ := step
  have run : Run (Traced (Upstream.Step psnSwitch)) (psnState 4294967296 4294966272)
      [(psnState 4294967296 4294966272, lastAck 4294967296)] s := Run.single ⟨rfl, step⟩
  have idle : s.getInflightBytes 1 = .ok 0 := by
    refine claim psnSwitch rfl _ s _ run 1 fun row _ => ?_
    rw [sent]
    exact lastAck_covers (by decide) row
  obtain ⟨-, nothing⟩ := (getInflightBytes_input s 1).of_ok idle
  rw [inflight] at nothing
  exact absurd nothing (by decide)

end Upstream

end Floodgate
