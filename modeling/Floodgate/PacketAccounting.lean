import Floodgate.RetransmissionTimer
import Mathlib.Order.Interval.Finset.Nat

/-! Outstanding bytes with packet-level routing. The two sets of packet numbers are counted by their
sizes, with a correction for the short last packet. -/

namespace Floodgate

open Outcome LabelledRun RdmaFlow

namespace MsgStatus

variable (g : RdmaSettings) (m : MsgStatus) (psns : Finset Nat)

/-- What the last packet of a flow or any other packet counts in a set. -/
def lastBytes : Nat :=
  if Word32.trunc (m.size - m.size % g.packetPayload) ∈ psns then m.size % g.packetPayload
  else g.packetPayload

/-- The bytes of a set as `GetBytesLeft` computes them, in 64 bits. `size() - 1` wraps. -/
def psnBytes64 : Nat :=
  if m.size % g.packetPayload ≠ 0 then
    (sub64 psns.card 1 * g.packetPayload % 18446744073709551616 + m.lastBytes g psns) %
      18446744073709551616
  else psns.card * g.packetPayload % 18446744073709551616

def psnBytes32 : Nat :=
  if m.size % g.packetPayload ≠ 0 then
    Word32.add (Word32.trunc (sub64 psns.card 1 * g.packetPayload % 18446744073709551616))
      (m.lastBytes g psns)
  else Word32.trunc (psns.card * g.packetPayload % 18446744073709551616)

def payloadAt (psn : Nat) : Nat := (RdmaHw.packetAt g m psn).payload

end MsgStatus

section Bytes

variable {g : RdmaSettings} {m : MsgStatus} {size : Nat}

/-- The wrapped `size() - 1` and the added packet cancel. -/
theorem psnBytes64_eq (psns : Finset Nat) :
    m.psnBytes64 g psns = m.psnBytes g psns % 18446744073709551616 := by
  unfold MsgStatus.psnBytes64 MsgStatus.psnBytes MsgStatus.lastBytes
  by_cases whole : m.size % g.packetPayload = 0
  · simp only [whole, ne_eq, not_true, if_false, if_true]
  · simp only [whole, ne_eq, not_false_eq_true, if_true, if_false]
    by_cases empty : psns.card = 0
    · have none : psns = ∅ := Finset.card_eq_zero.mp empty
      have wraps : sub64 0 1 * g.packetPayload + g.packetPayload =
          18446744073709551616 * g.packetPayload := by
        unfold sub64
        omega
      rw [if_pos empty, empty, none, if_neg (Finset.notMem_empty _), Nat.mod_add_mod, wraps]
      omega
    · rw [if_neg empty, Nat.mod_add_mod, Nat.add_mod]
      have order : sub64 psns.card 1 % 18446744073709551616 =
          (psns.card - 1) % 18446744073709551616 := by
        unfold sub64
        omega
      rw [Nat.mul_mod, order, ← Nat.mul_mod, ← Nat.add_mod]

theorem psnBytes32_eq (psns : Finset Nat) :
    m.psnBytes32 g psns = Word32.trunc (m.psnBytes64 g psns) := by
  unfold MsgStatus.psnBytes32 MsgStatus.psnBytes64
  split
  · unfold Word32.add Word32.trunc
    omega
  · rfl

theorem InFlow.payload (mtu : g.mtu = g.packetPayload)
    (fits : size + g.packetPayload < Word32.size) (same : m.size = size) {psn : Nat}
    (inFlow : InFlow g size psn) : m.payloadAt g psn = min g.packetPayload (size - psn) :=
  (packetAt_isPacket mtu fits m same inFlow).payload

theorem InFlow.bytesOf (mtu : g.mtu = g.packetPayload) (positive : 0 < g.packetPayload)
    (fits : size + g.packetPayload < Word32.size) (same : m.size = size) {psn : Nat}
    (inFlow : InFlow g size psn) : m.bytesOf g psn = m.payloadAt g psn := by
  rw [inFlow.payload mtu fits same]
  obtain ⟨⟨k, rfl⟩, below⟩ := inFlow
  have split := Nat.div_add_mod size g.packetPayload
  have rest := Nat.mod_lt size positive
  have last : Word32.trunc (size - size % g.packetPayload) =
      size / g.packetPayload * g.packetPayload := by
    rw [Nat.mul_comm] at split
    have below : size - size % g.packetPayload = size / g.packetPayload * g.packetPayload := by
      omega
    rw [below]
    exact Word32.trunc_eq _ (by omega)
  unfold MsgStatus.bytesOf
  rw [same, last]
  rw [Nat.mul_comm] at split
  by_cases here : k = size / g.packetPayload
  · subst here
    by_cases whole : size % g.packetPayload = 0
    · omega
    · rw [if_pos ⟨whole, rfl⟩]
      omega
  · have order : k + 1 ≤ size / g.packetPayload := by
      have reached : k ≤ size / g.packetPayload :=
        (Nat.le_div_iff_mul_le positive).mpr (Nat.le_of_lt below)
      omega
    have next := Nat.mul_le_mul_right g.packetPayload order
    rw [Nat.succ_mul] at next
    have other : k * g.packetPayload ≠ size / g.packetPayload * g.packetPayload := by omega
    rw [if_neg fun both => other both.2]
    omega

/-- The packets of a set do not overlap and lie within the flow. -/
theorem payload_sum_le (psns : Finset Nat) (inFlow : ∀ psn ∈ psns, InFlow g size psn) :
    (psns.sum fun psn => min g.packetPayload (size - psn)) ≤ size := by
  have apart : (psns : Set Nat).PairwiseDisjoint
      fun psn => Finset.Ico psn (psn + min g.packetPayload (size - psn)) := by
    intro first firstIn second secondIn other
    apply Finset.disjoint_left.mpr
    intro byte here there
    simp only [Finset.mem_Ico] at here there
    have before := (inFlow first firstIn).of_lt_next (inFlow second secondIn) (by omega)
    have after := (inFlow second secondIn).of_lt_next (inFlow first firstIn) (by omega)
    exact other (Nat.le_antisymm after before)
  have within : psns.biUnion
      (fun psn => Finset.Ico psn (psn + min g.packetPayload (size - psn))) ⊆
        Finset.range size := by
    intro byte member
    obtain ⟨psn, psnIn, here⟩ := Finset.mem_biUnion.mp member
    have below := (inFlow psn psnIn).2
    simp only [Finset.mem_Ico] at here
    exact Finset.mem_range.mpr (by omega)
  calc (psns.sum fun psn => min g.packetPayload (size - psn))
      = psns.sum fun psn =>
          (Finset.Ico psn (psn + min g.packetPayload (size - psn))).card := by
        apply Finset.sum_congr rfl
        intro psn _
        rw [Nat.card_Ico, Nat.add_sub_cancel_left]
    _ = _ := (Finset.card_biUnion apart).symm
    _ ≤ (Finset.range size).card := Finset.card_le_card within
    _ = size := Finset.card_range size

theorem psnBytes_exact (mtu : g.mtu = g.packetPayload) (positive : 0 < g.packetPayload)
    (fits : size + g.packetPayload < Word32.size) (same : m.size = size) {psns : Finset Nat}
    (inFlow : ∀ psn ∈ psns, InFlow g size psn) :
    m.psnBytes g psns = (psns.sum fun psn => m.payloadAt g psn) ∧
      m.psnBytes64 g psns = (psns.sum fun psn => m.payloadAt g psn) ∧
      m.psnBytes32 g psns = (psns.sum fun psn => m.payloadAt g psn) ∧
      m.psnBytes g psns < Word32.size := by
  have exact : m.psnBytes g psns = psns.sum fun psn => m.payloadAt g psn := by
    rw [psnBytes_sum]
    exact Finset.sum_congr rfl fun psn member => (inFlow psn member).bytesOf mtu positive fits same
  have bound : m.psnBytes g psns ≤ size := by
    rw [exact]
    calc (psns.sum fun psn => m.payloadAt g psn)
        = psns.sum fun psn => min g.packetPayload (size - psn) :=
          Finset.sum_congr rfl fun psn member => (inFlow psn member).payload mtu fits same
      _ ≤ size := payload_sum_le psns inFlow
  have small : m.psnBytes g psns < Word32.size := by omega
  have wide : m.psnBytes64 g psns = m.psnBytes g psns := by
    rw [psnBytes64_eq]
    exact Nat.mod_eq_of_lt (by unfold Word32.size at small; omega)
  refine ⟨exact, wide.trans exact, ?_, small⟩
  rw [psnBytes32_eq, wide, Word32.trunc_eq _ small]
  exact exact

end Bytes

structure PsnSound (size : Nat) (pending : Bool) (m : MsgStatus) : Prop where
  resent : m.timeoutPsn ⊆ m.sentPsn
  calm : m.timeouted = false → m.timeoutPsn = ∅
  exhausted : m.timeouted = true ∨ pending = true → m.sndNxt = size

section Sender

variable {g : RdmaSettings} {m : MsgStatus} {size : Nat} {pending : Bool}

/-- The bytes in flight are those of the packets that have been sent and are not to be resent. -/
theorem PsnSound.getOnTheFly (sound : PsnSound size pending m) (sender : SenderSound g size m)
    (packets : g.packetLevelRouting = true) (mtu : g.mtu = g.packetPayload)
    (positive : 0 < g.packetPayload) (fits : size + g.packetPayload < Word32.size) :
    m.getOnTheFly g =
      .ok ((m.sentPsn \ m.timeoutPsn).sum fun psn => m.payloadAt g psn) := by
  obtain ⟨sent, -, -, sentSmall⟩ := psnBytes_exact mtu positive fits sender.sized
    fun psn member => sender.psns psn (.inl member)
  obtain ⟨late, -, -, lateSmall⟩ := psnBytes_exact mtu positive fits sender.sized
    fun psn member => sender.psns psn (.inr member)
  have split := Finset.sum_sdiff sound.resent (f := fun psn => m.payloadAt g psn)
  rw [onTheFly_packets packets, Word32.trunc_eq _ sentSmall, Word32.trunc_eq _ lateSmall, sent,
    late]
  by_cases again : m.timeouted = true
  · rw [if_pos again]
    omega
  · rw [if_neg again, sound.calm (Bool.eq_false_iff.mpr again), Finset.sdiff_empty]

/-- After a timeout the bytes left are those of the packets to be resent. -/
theorem PsnSound.getBytesLeft (sound : PsnSound size pending m) (sender : SenderSound g size m)
    (packets : g.packetLevelRouting = true) (mtu : g.mtu = g.packetPayload)
    (positive : 0 < g.packetPayload) (fits : size + g.packetPayload < Word32.size)
    (again : m.timeouted = true) :
    m.getBytesLeft g = m.timeoutPsn.sum fun psn => m.payloadAt g psn := by
  by_cases some : m.timeoutPsn.card > 0
  · obtain ⟨late, _⟩ := psnBytes_exact mtu positive fits sender.sized
      fun psn member => sender.psns psn (.inr member)
    rw [← late]
    simp [MsgStatus.getBytesLeft, packets, again, some]
  · have none : m.timeoutPsn = ∅ := Finset.card_eq_zero.mp (by omega)
    rw [MsgStatus.getBytesLeft_fresh (by simp [some]), none, Finset.sum_empty, sender.sized,
      sound.exhausted (.inl again)]
    exact Nat.sub_self _

theorem SenderSound.nothing_left (sender : SenderSound g size m)
    (nothing : m.getBytesLeft g = 0) (calm : m.timeouted = false) : m.sndNxt = size := by
  have fresh : m.getBytesLeft g = m.size - m.sndNxt := MsgStatus.getBytesLeft_calm calm
  have bound := sender.sndNxt.le
  rw [nothing, sender.sized] at fresh
  omega

theorem PsnSound.chooseSeq (sound : PsnSound size pending m) (sender : SenderSound g size m)
    (packets : g.packetLevelRouting = true) (fits : size < Word32.size)
    (left : 0 < m.getBytesLeft g) :
    ∃ seq chosen, RdmaHw.chooseSeq g m = .ok (seq, chosen) ∧ PsnSound size pending chosen ∧
      chosen.timeouted = m.timeouted ∧ chosen.sentPsn = insert seq m.sentPsn ∧
      (m.timeouted = true → seq ≠ chosen.sndNxt) := by
  have whole : Word32.trunc m.sndNxt = m.sndNxt :=
    Word32.trunc_eq _ (Nat.lt_of_le_of_lt sender.sndNxt.le fits)
  unfold RdmaHw.chooseSeq
  simp only [packets, Bool.not_true, Bool.false_eq_true, if_false, whole]
  by_cases again : m.timeouted = true
  · have finished := sound.exhausted (.inl again)
    have some : m.timeoutPsn.card > 0 := by
      by_contra none
      have fresh : m.getBytesLeft g = m.size - m.sndNxt :=
        MsgStatus.getBytesLeft_fresh (by simp [none])
      rw [fresh, sender.sized] at left
      omega
    have member := headD_mem some
    have below := (sender.psns _ (.inr member)).2
    have resends : (decide (m.sndNxt ≥ m.size) && m.timeouted && decide (m.timeoutPsn.card > 0)) =
        true := by
      simp only [finished, sender.sized, ge_iff_le, Nat.le_refl, decide_true, again, some,
        Bool.and_self]
    rw [if_pos resends, sender.sized, if_pos below]
    refine ⟨_, _, rfl, ⟨?_, fun calm => ?_, sound.exhausted⟩, rfl, ?_, fun _ => ?_⟩
    · exact (Finset.erase_subset _ _).trans sound.resent
    · rw [again] at calm
      contradiction
    · exact (Finset.insert_eq_of_mem (sound.resent member)).symm
    · simp only [finished]
      exact Nat.ne_of_lt below
  · have calm : m.timeouted = false := Bool.eq_false_iff.mpr again
    have empty := sound.calm calm
    rw [if_neg (by simp [calm])]
    refine ⟨_, _, rfl, ⟨?_, fun _ => empty, sound.exhausted⟩, rfl, rfl, fun late => absurd late again⟩
    simp only [empty]
    exact Finset.empty_subset _

theorem PsnSound.advance (sound : PsnSound size pending m) {p : DataPacket}
    (moves : p.seq = m.sndNxt → m.timeouted = false ∧ pending = false) :
    PsnSound size pending (RdmaHw.advance m p) := by
  unfold RdmaHw.advance
  split
  · rename_i here
    obtain ⟨calm, idle⟩ := moves here
    refine ⟨sound.resent, sound.calm, ?_⟩
    rintro (late | armed)
    · exact absurd (late.symm.trans calm) (by decide)
    · exact absurd (armed.symm.trans idle) (by decide)
  · exact sound

theorem PsnSound.acknowledge (sound : PsnSound size pending m)
    (packets : g.packetLevelRouting = true) (ack : Nat) (last : Bool) :
    PsnSound size pending (m.acknowledge g ack last) ∧
      (m.acknowledge g ack last).sentPsn ⊆ m.sentPsn := by
  have erased : PsnSound size pending
      (if ack ∈ m.sentPsn then
        { m with
          sentPsn := m.sentPsn.erase ack
          timeoutPsn := m.timeoutPsn.erase ack }.updateReceivedACK
      else m) ∧
      (if ack ∈ m.sentPsn then
        { m with
          sentPsn := m.sentPsn.erase ack
          timeoutPsn := m.timeoutPsn.erase ack }.updateReceivedACK
      else m).sentPsn ⊆ m.sentPsn := by
    split
    · refine ⟨⟨Finset.erase_subset_erase _ sound.resent, fun calm => ?_, sound.exhausted⟩,
        Finset.erase_subset _ _⟩
      have empty : m.timeoutPsn = ∅ := sound.calm calm
      simp only [MsgStatus.updateReceivedACK, empty, Finset.erase_empty]
    · exact ⟨sound, Finset.Subset.refl _⟩
  unfold MsgStatus.acknowledge
  simp only [packets, if_true]
  split
  · exact ⟨⟨erased.1.resent, erased.1.calm, erased.1.exhausted⟩, erased.2⟩
  · exact erased

theorem PsnSound.recover (sound : PsnSound size true m) (packets : g.packetLevelRouting = true) :
    PsnSound size false (m.recover g) := by
  refine ⟨Finset.Subset.refl _, fun calm => by contradiction, fun _ => ?_⟩
  simp only [MsgStatus.recover, packets, if_true]
  exact sound.exhausted (.inr rfl)

end Sender

section Handlers

variable {g : RdmaSettings} {q : RdmaQueuePair} {size : Nat}

def QpSound (size : Nat) (q : RdmaQueuePair) : Prop :=
  PsnSound size q.eventTimeoutRetransmission.isSome q.current

theorem QpSound.timed (sound : QpSound size q) (sender : SenderSound g size q.current)
    (single : g.qpMode = false) (packets : g.packetLevelRouting = true)
    (mtu : g.mtu = g.packetPayload) (positive : 0 < g.packetPayload)
    (fits : size + g.packetPayload < Word32.size) (now msgSeq : Nat) :
    ∃ after, RdmaHw.resetTimer g now q msgSeq = .ok after ∧ after.current = q.current ∧
      QpSound size after := by
  have onTheFly : q.getOnTheFly g = _ := sound.getOnTheFly sender packets mtu positive fits
  unfold RdmaHw.resetTimer
  by_cases off : g.rtoUs = 0
  · rw [if_pos off]
    exact ⟨q, rfl, rfl, sound⟩
  · rw [if_neg off, single]
    simp only [Bool.false_eq_true, if_false]
    by_cases nothing : q.getBytesLeft g = 0
    · rw [if_pos nothing, onTheFly, ok_bind]
      split
      · refine ⟨_, rfl, rfl, sound.resent, sound.calm, fun _ => ?_⟩
        by_cases again : q.current.timeouted = true
        · exact sound.exhausted (.inl again)
        · exact sender.nothing_left nothing (Bool.eq_false_iff.mpr again)
      · exact ⟨q, rfl, rfl, sound⟩
    · rw [if_neg nothing]
      exact ⟨q, rfl, rfl, sound⟩

/-- `GetNxtPacket` fails no assertion. -/
theorem QpSound.sent (sound : QpSound size q) (sender : SenderSound g size q.current)
    (single : g.qpMode = false) (packets : g.packetLevelRouting = true)
    (mtu : g.mtu = g.packetPayload) (positive : 0 < g.packetPayload)
    (fits : size + g.packetPayload < Word32.size) (left : 0 < q.getBytesLeft g) (now : Nat) :
    ∃ p after, RdmaHw.getNxtPacket g now q = .ok (p, after) ∧ QpSound size after ∧
      after.current.sentPsn = insert p.seq q.current.sentPsn := by
  have small : size < Word32.size := by omega
  obtain ⟨seq, chosen, choice, chosenSound, same, sent, moves⟩ :=
    PsnSound.chooseSeq sound sender packets small left
  obtain ⟨inFlow, chosenSender, -⟩ := sender.chooseSeq small left choice
  have packet := packetAt_isPacket mtu fits chosen chosenSender.sized inFlow
  have moved : PsnSound size q.eventTimeoutRetransmission.isSome
      (RdmaHw.advance chosen (RdmaHw.packetAt g chosen seq)) := by
    apply chosenSound.advance
    intro here
    have calm : q.current.timeouted = false :=
      Bool.eq_false_iff.mpr fun again => moves again here
    refine ⟨same.trans calm, Bool.eq_false_iff.mpr fun pending => ?_⟩
    have fresh : q.getBytesLeft g = q.current.size - q.current.sndNxt :=
      MsgStatus.getBytesLeft_calm calm
    rw [fresh, sender.sized, sound.exhausted (.inr pending)] at left
    omega
  obtain ⟨after, reset, current, afterSound⟩ := @QpSound.timed g
    { q with current := RdmaHw.advance chosen (RdmaHw.packetAt g chosen seq) } size moved
    (chosenSender.advance small packet) single packets mtu positive fits now q.current.msgSeq
  refine ⟨RdmaHw.packetAt g chosen seq, after, ?_, afterSound, ?_⟩
  · simp only [RdmaHw.getNxtPacket, choice, reset, ok_bind, single, Bool.false_and,
      Bool.false_eq_true, if_false]
  · rw [current, (advance_sets chosen _).2.1, sent]
    rfl

/-- `ReceiveAck` fails no assertion. -/
theorem QpSound.answered (sound : QpSound size q) (sender : SenderSound g size q.current)
    (single : g.qpMode = false) (packets : g.packetLevelRouting = true)
    (mtu : g.mtu = g.packetPayload) (positive : 0 < g.packetPayload)
    (fits : size + g.packetPayload < Word32.size) {a : AckPacket} (ack : a.nack = false)
    (now : Nat) :
    ∃ completion after, RdmaHw.receiveAck g now q a = .ok (completion, after) ∧
      QpSound size after ∧ after.current.sentPsn ⊆ q.current.sentPsn := by
  have acked : QpSound size (RdmaHw.acknowledge g q a).2 ∧
      SenderSound g size (RdmaHw.acknowledge g q a).2.current ∧
      (RdmaHw.acknowledge g q a).2.current.sentPsn ⊆ q.current.sentPsn := by
    unfold RdmaHw.acknowledge
    generalize (if g.backto0 = true then a.seq / g.chunk * g.chunk else a.seq) = seq
    obtain ⟨kept, fewer⟩ := PsnSound.acknowledge sound packets seq a.last
    have known : SenderSound g size (q.current.acknowledge g seq a.last) :=
      sender.acknowledge fun flow => absurd (flow.symm.trans packets) (by decide)
    simp only [single, Bool.not_false, if_true]
    by_cases off : g.ackInterval = 0
    · rw [if_pos off]
      exact ⟨sound, sender, Finset.Subset.refl _⟩
    · rw [if_neg off]
      split
      · exact ⟨⟨kept.resent, kept.calm, fun late => kept.exhausted (late.imp id (by simp))⟩,
          known, fewer⟩
      · exact ⟨kept, known, fewer⟩
  have quiet : RdmaHw.reactToNack g (RdmaHw.acknowledge g q a).2 a =
      (RdmaHw.acknowledge g q a).2 := by
    simp [RdmaHw.reactToNack, ack]
  obtain ⟨after, reset, current, afterSound⟩ :=
    acked.1.timed acked.2.1 single packets mtu positive fits now a.msgSeq
  refine ⟨(RdmaHw.acknowledge g q a).1, after, ?_, afterSound, ?_⟩
  · simp only [RdmaHw.receiveAck, quiet, reset, ok_bind]
  · rw [current]
    exact acked.2.2

end Handlers

structure PacketSound (g : RdmaSettings) (size : Nat) (s : RdmaFlow) : Prop where
  flow : FlowSound g size s
  psns : QpSound size s.qp
  sent : ∀ psn ∈ s.qp.current.sentPsn, ∃ p ∈ s.data, p.seq = psn

theorem PacketSound.create (g : RdmaSettings) (size flowId sport : Nat) :
    PacketSound g size (create g size flowId sport) := by
  refine ⟨FlowSound.create g size flowId sport, ⟨Finset.Subset.refl _, fun _ => rfl, ?_⟩, ?_⟩
  · rintro (late | pending)
    · contradiction
    · contradiction
  · exact fun psn member => absurd member (Finset.notMem_empty psn)

/-- Every event keeps the packet numbers sound. -/
theorem PacketSound.step {g : RdmaSettings} {size : Nat} {s next : RdmaFlow}
    (sound : PacketSound g size s) (single : g.qpMode = false)
    (packets : g.packetLevelRouting = true) (mtu : g.mtu = g.packetPayload)
    (positive : 0 < g.packetPayload) (fits : size + g.packetPayload < Word32.size)
    {label : FlowEvent × Completion} (step : Step g s label next) : PacketSound g size next := by
  have flow : FlowSound g size next := sound.flow.step single mtu fits
    (fun flow => absurd (flow.symm.trans packets) (by decide)) step
  cases step with
  | @send p qp left room success =>
      obtain ⟨sentPacket, after, same, psns, sent⟩ :=
        sound.psns.sent sound.flow.sender single packets mtu positive fits left s.now
      obtain ⟨rfl, rfl⟩ := Prod.mk.inj (Except.ok.inj (same.symm.trans success))
      refine ⟨flow, psns, fun psn member => ?_⟩
      rw [sent] at member
      rcases Finset.mem_insert.mp member with rfl | earlier
      · exact ⟨sentPacket, List.mem_append_right _ (List.mem_singleton.mpr rfl), rfl⟩
      · obtain ⟨p, known, seq⟩ := sound.sent psn earlier
        exact ⟨p, List.mem_append_left _ known, seq⟩
  | data sent => exact ⟨flow, sound.psns, sound.sent⟩
  | @ack a completion qp sent received =>
      obtain ⟨told, after, same, psns, fewer⟩ := sound.psns.answered sound.flow.sender single
        packets mtu positive fits ((sound.flow.acks a sent).nack packets) s.now
      obtain ⟨rfl, rfl⟩ := Prod.mk.inj (Except.ok.inj (same.symm.trans received))
      exact ⟨flow, psns, fun psn member => sound.sent psn (fewer member)⟩
  | timeout due =>
      refine ⟨flow, ?_, sound.sent⟩
      have psns := sound.psns
      unfold QpSound at psns
      rw [due] at psns
      exact PsnSound.recover psns packets
  | pace rate => exact ⟨flow, sound.psns, sound.sent⟩
  | wait forward before => exact ⟨flow, sound.psns, sound.sent⟩

namespace RdmaFlow

/-- The byte counts of a sender are those of its packets, and no assertion fails. -/
structure PacketsCounted (g : RdmaSettings) (s : RdmaFlow) : Prop where
  resent : s.qp.current.timeoutPsn ⊆ s.qp.current.sentPsn
  carried : ∀ p ∈ s.data, p.payload = s.qp.current.payloadAt g p.seq
  sent : ∀ psn ∈ s.qp.current.sentPsn, ∃ p ∈ s.data, p.seq = psn
  onTheFly : s.qp.getOnTheFly g = .ok ((s.qp.current.sentPsn \ s.qp.current.timeoutPsn).sum
    fun psn => s.qp.current.payloadAt g psn)
  bytesLeft : s.qp.current.timeouted = true → s.qp.getBytesLeft g =
    s.qp.current.timeoutPsn.sum fun psn => s.qp.current.payloadAt g psn
  wraps : ∀ psns ⊆ s.qp.current.sentPsn,
    s.qp.current.psnBytes g psns = (psns.sum fun psn => s.qp.current.payloadAt g psn) ∧
      s.qp.current.psnBytes64 g psns = (psns.sum fun psn => s.qp.current.payloadAt g psn) ∧
      s.qp.current.psnBytes32 g psns = psns.sum fun psn => s.qp.current.payloadAt g psn
  winBound : ∃ bound, s.qp.isWinBound g = .ok bound
  sends : 0 < s.qp.getBytesLeft g → ∃ p qp, RdmaHw.getNxtPacket g s.now s.qp = .ok (p, qp)
  hears : ∀ a ∈ s.acks, ∃ completion qp, RdmaHw.receiveAck g s.now s.qp a = .ok (completion, qp)

/-- Whatever is lost, repeated and reordered, the byte counts of packet-level routing are exact. -/
theorem packets_counted (g : RdmaSettings) (size flowId sport : Nat) (single : g.qpMode = false)
    (packets : g.packetLevelRouting = true) (mtu : g.mtu = g.packetPayload)
    (positive : 0 < g.packetPayload) (fits : size < Word32.size - g.mtu)
    (labels : List (FlowEvent × Completion)) (s : RdmaFlow)
    (run : Run (Step g) (create g size flowId sport) labels s) : PacketsCounted g s := by
  have total : size + g.packetPayload < Word32.size := by omega
  have sound : PacketSound g size s :=
    run.invariant (PacketSound g size) (PacketSound.create g size flowId sport)
      fun _ _ _ sound step => sound.step single packets mtu positive total step
  have sender := sound.flow.sender
  have onTheFly : s.qp.getOnTheFly g = _ :=
    sound.psns.getOnTheFly sender packets mtu positive total
  refine ⟨sound.psns.resent, fun p sent => ?_, sound.sent, onTheFly, fun again => ?_,
    fun psns fewer => ?_, ?_, fun left => ?_, fun a sent => ?_⟩
  · have packet := sound.flow.data p sent
    rw [packet.inFlow.payload mtu total sender.sized, packet.payload]
  · exact sound.psns.getBytesLeft sender packets mtu positive total again
  · obtain ⟨plain, wide, narrow, _⟩ := psnBytes_exact mtu positive total sender.sized
      fun psn member => sender.psns psn (.inl (fewer member))
    exact ⟨plain, wide, narrow⟩
  · unfold RdmaQueuePair.isWinBound
    rw [onTheFly, ok_bind]
    split
    · exact ⟨_, rfl⟩
    · exact ⟨_, rfl⟩
  · obtain ⟨p, after, success, _⟩ :=
      sound.psns.sent sender single packets mtu positive total left s.now
    exact ⟨p, after, success⟩
  · obtain ⟨completion, after, success, _⟩ := sound.psns.answered sender single packets mtu
      positive total ((sound.flow.acks a sent).nack packets) s.now
    exact ⟨completion, after, success⟩

/-- Packets of a flow take their own paths, and one that is lost is sent again after 5 us. -/
def spread : RdmaSettings := { singlePath with packetLevelRouting := true }

/-- Two packets, the second of 500 bytes, and the timeout of both. -/
theorem packets_counted_timeout : ∃ s,
    Run (Step spread) (create spread 1500 0 0)
      [(.send, .none), (.send, .none), (.wait 5000, .none), (.timeout, .none)] s ∧
      s.qp.getBytesLeft spread = 1500 ∧ PacketsCounted spread s := by
  have first := Run.single (Step.send (g := spread) (s := create spread 1500 0 0)
    (by decide) (by decide) rfl)
  have second := first.snoc (Step.send (by decide +kernel) (by decide +kernel) rfl)
  have waited := second.snoc (@Step.wait _ _ 5000 (by decide) (by decide))
  have late := waited.snoc (Step.timeout rfl)
  exact ⟨_, late, by decide +kernel,
    packets_counted spread 1500 0 0 rfl rfl rfl (by decide) (by decide) _ _ late⟩

end RdmaFlow

end Floodgate
