import Floodgate.RdmaFlow
import Mathlib.Algebra.BigOperators.Ring.Finset
import Mathlib.Algebra.Order.BigOperators.Group.Finset

/-! The retransmission timer of a sender outside `qp_mode`: when it is pending while the sender can
do nothing but wait. -/

namespace Floodgate

open Outcome LabelledRun RdmaFlow

/-- An unfinished sender with data in flight that may not send. -/
structure Stuck (g : RdmaSettings) (q : RdmaQueuePair) : Prop where
  unfinished : q.isFinished g = false
  inFlight : ∃ onTheFly, q.getOnTheFly g = .ok onTheFly ∧ 0 < onTheFly
  blocked : q.getBytesLeft g = 0 ∨ q.isWinBound g = .ok true

/-- A stuck sender waits for its timer. -/
def HasTimer (g : RdmaSettings) (q : RdmaQueuePair) : Prop :=
  Stuck g q → q.eventTimeoutRetransmission.isSome

/-- The packet that a sender with bytes left sends next is its last for now. -/
def LastPacket (g : RdmaSettings) (m : MsgStatus) : Prop :=
  if g.packetLevelRouting && m.timeouted && decide (m.timeoutPsn.card > 0) then
    m.size ≤ Word32.trunc m.sndNxt ∧
      m.psnBytes g (m.timeoutPsn.erase ((m.timeoutPsn.sort (· ≤ ·)).headD 0)) = 0
  else m.sndNxt < Word32.size ∧ m.size ≤ m.sndNxt + g.mtu

def MsgStatus.bytesOf (g : RdmaSettings) (m : MsgStatus) (psn : Nat) : Nat :=
  if m.size % g.packetPayload ≠ 0 ∧ psn = Word32.trunc (m.size - m.size % g.packetPayload) then
    m.size % g.packetPayload
  else g.packetPayload

def MsgStatus.nextBytes (g : RdmaSettings) (m : MsgStatus) : Nat :=
  if !g.packetLevelRouting then g.mtu
  else if Word32.trunc m.sndNxt ≥ m.size && m.timeouted && decide (m.timeoutPsn.card > 0) then
    m.bytesOf g ((m.timeoutPsn.sort (· ≤ ·)).headD 0)
  else m.bytesOf g (Word32.trunc m.sndNxt)

/-- The condition on an event where no timer is pending. A packet is the last one or leaves room in
the window; an acknowledgement does not go from within what is in flight beyond it, short of the
end; a new rate leaves room in the window. -/
def KeepsRoom (g : RdmaSettings) (q : RdmaQueuePair) : FlowEvent × Completion → Prop
  | (.send, _) => LastPacket g q.current ∨ q.pacing.getWin = 0 ∨
      ∀ onTheFly, q.getOnTheFly g = .ok onTheFly →
        onTheFly + q.current.nextBytes g < q.pacing.getWin
  | (.ack a, _) => g.ackInterval = 0 ∨ q.pacing.getWin = 0 ∨
      if g.packetLevelRouting then q.current.psnBytes g q.current.sentPsn < Word32.size
      else (a.nack && g.nackReaction) = true ∨ q.current.size ≤ ackSeq g a ∨
        ackSeq g a ≤ q.current.sndNxt ∨ q.current.sndNxt < q.current.sndUna
  | (.pace rate, _) => q.isFinished g = true ∨
      { q with pacing := { q.pacing with rate := rate } }.isWinBound g ≠ .ok true
  | _ => True

/-- The condition of a step: a timer is pending or the event needs none. -/
def ArmsTimer (g : RdmaSettings) (s : RdmaFlow) (label : FlowEvent × Completion) : Prop :=
  s.qp.eventTimeoutRetransmission.isSome ∨ KeepsRoom g s.qp label

/-- `snd_nxt` is a `uint64_t`, or what `snd_una` has been. -/
def Counted (m : MsgStatus) : Prop := m.sndNxt < 18446744073709551616 ∨ m.sndNxt ≤ m.sndUna

section Bytes

variable {g : RdmaSettings} {m : MsgStatus}

theorem psnBytes_sum (psns : Finset Nat) :
    m.psnBytes g psns = psns.sum fun psn => m.bytesOf g psn := by
  unfold MsgStatus.psnBytes MsgStatus.bytesOf
  by_cases whole : m.size % g.packetPayload = 0
  · simp [whole]
  · simp only [whole, if_false, ne_eq, not_false_eq_true, true_and]
    generalize Word32.trunc (m.size - m.size % g.packetPayload) = last
    by_cases present : last ∈ psns
    · have rest : (psns.erase last).sum (fun psn =>
          if psn = last then m.size % g.packetPayload else g.packetPayload) =
          (psns.card - 1) * g.packetPayload := by
        rw [Finset.sum_const_nat fun psn member => if_neg (Finset.ne_of_mem_erase member),
          Finset.card_erase_of_mem present]
      have some : psns.card ≠ 0 := Finset.card_ne_zero_of_mem present
      rw [← Finset.sum_erase_add _ _ present, rest, if_neg some, if_pos present, if_pos rfl]
    · have others : ∀ psn ∈ psns,
          (if psn = last then m.size % g.packetPayload else g.packetPayload) =
            g.packetPayload := by
        intro psn member
        apply if_neg
        rintro rfl
        exact present member
      rw [Finset.sum_const_nat others, if_neg present]
      split
      · rename_i none
        rw [none, Nat.zero_mul]
      · rename_i some
        obtain ⟨n, card⟩ := Nat.exists_eq_succ_of_ne_zero some
        rw [card, Nat.succ_sub_one, Nat.succ_mul]

theorem psnBytes_erase {psns : Finset Nat} {psn : Nat} (member : psn ∈ psns) :
    m.psnBytes g (psns.erase psn) + m.bytesOf g psn = m.psnBytes g psns := by
  rw [psnBytes_sum, psnBytes_sum]
  exact Finset.sum_erase_add _ _ member

theorem psnBytes_insert_le (psns : Finset Nat) (psn : Nat) :
    m.psnBytes g (insert psn psns) = m.psnBytes g psns ∨
      m.psnBytes g (insert psn psns) = m.psnBytes g psns + m.bytesOf g psn := by
  by_cases member : psn ∈ psns
  · rw [Finset.insert_eq_of_mem member]
    exact .inl rfl
  · rw [psnBytes_sum, psnBytes_sum, Finset.sum_insert member]
    exact .inr (Nat.add_comm _ _)

theorem trunc_le (n : Nat) : Word32.trunc n ≤ n := Nat.mod_le _ _

/-- Unsent bytes of a sender that is not resending lie beyond `snd_nxt`. -/
theorem left_beyond (fresh : (g.packetLevelRouting && m.timeouted &&
    decide (m.timeoutPsn.card > 0)) = false) (left : 0 < m.getBytesLeft g) : m.sndNxt < m.size := by
  rw [MsgStatus.getBytesLeft_fresh fresh] at left
  omega

theorem packetAt_payload_le {seq : Nat} (below : seq < m.size) :
    (RdmaHw.packetAt g m seq).payload ≤ g.mtu := by
  simp only [RdmaHw.packetAt]
  split
  · rename_i last
    simp only [ge_iff_le, decide_eq_true_eq] at last
    have above : Word32.add seq g.mtu ≤ seq + g.mtu := Nat.mod_le _ _
    have cut : Word32.trunc (sub64 m.size seq) ≤ sub64 m.size seq := trunc_le _
    have rest : sub64 m.size seq ≤ m.size - seq := by
      unfold sub64
      omega
    omega
  · exact Nat.le_refl _

theorem sub64_advance (nxt una payload : Nat) :
    sub64 ((nxt + payload) % 18446744073709551616) una ≤ sub64 nxt una + payload := by
  unfold sub64
  omega

theorem onTheFly_sendOne_flow (flow : g.packetLevelRouting = false) (left : 0 < m.getBytesLeft g) :
    sub64 (m.sendOne g).sndNxt (m.sendOne g).sndUna ≤ sub64 m.sndNxt m.sndUna + g.mtu := by
  have unsent := left_beyond (by simp [flow]) left
  unfold MsgStatus.sendOne
  rw [chooseSeq_flow flow]
  simp only [RdmaHw.advance]
  split
  · rename_i same
    have here : Word32.trunc m.sndNxt = m.sndNxt := same
    rw [here]
    have short := packetAt_payload_le (g := g) unsent
    have step := sub64_advance m.sndNxt m.sndUna (RdmaHw.packetAt g m m.sndNxt).payload
    simp only
    omega
  · exact Nat.le_add_right _ _

theorem onTheFly_packets (packets : g.packetLevelRouting = true) {onTheFly : Nat} :
    m.getOnTheFly g = .ok onTheFly ↔
      if m.timeouted then
        Word32.trunc (m.psnBytes g m.timeoutPsn) ≤ Word32.trunc (m.psnBytes g m.sentPsn) ∧
          onTheFly = Word32.trunc (m.psnBytes g m.sentPsn) -
            Word32.trunc (m.psnBytes g m.timeoutPsn)
      else onTheFly = Word32.trunc (m.psnBytes g m.sentPsn) := by
  unfold MsgStatus.getOnTheFly
  simp only [packets, Bool.not_true, Bool.false_eq_true, if_false]
  split
  · split
    · rename_i covered
      simp only [covered, true_and, Except.ok.injEq]
      exact eq_comm
    · rename_i uncovered
      simp [uncovered]
  · simp only [Except.ok.injEq]
    exact eq_comm

theorem headD_mem {psns : Finset Nat} (some : psns.card > 0) :
    (psns.sort (· ≤ ·)).headD 0 ∈ psns := by
  have nonempty : psns.sort (· ≤ ·) ≠ [] := by
    intro empty
    have length := Finset.length_sort (s := psns) (· ≤ ·)
    rw [empty] at length
    simp only [List.length_nil] at length
    omega
  obtain ⟨first, rest, list⟩ := List.exists_cons_of_ne_nil nonempty
  rw [list]
  exact (Finset.mem_sort (· ≤ ·)).mp (by rw [list]; exact List.mem_cons_self)

theorem chooseSeq_packets (packets : g.packetLevelRouting = true) {seq : Nat} {chosen : MsgStatus}
    (choice : RdmaHw.chooseSeq g m = .ok (seq, chosen)) :
    ((Word32.trunc m.sndNxt ≥ m.size && m.timeouted && decide (m.timeoutPsn.card > 0)) = true ∧
      seq = (m.timeoutPsn.sort (· ≤ ·)).headD 0 ∧ seq < m.size ∧
      chosen = { m with timeoutPsn := m.timeoutPsn.erase seq }) ∨
    ((Word32.trunc m.sndNxt ≥ m.size && m.timeouted && decide (m.timeoutPsn.card > 0)) = false ∧
      seq = Word32.trunc m.sndNxt ∧ chosen = { m with sentPsn := insert seq m.sentPsn }) := by
  unfold RdmaHw.chooseSeq at choice
  simp only [packets, Bool.not_true, Bool.false_eq_true, if_false] at choice
  split at choice
  · rename_i resends
    split at choice
    · rename_i below
      obtain ⟨rfl, rfl⟩ := Prod.mk.inj (Except.ok.inj choice)
      exact .inl ⟨resends, rfl, below, rfl⟩
    · contradiction
  · rename_i fresh
    obtain ⟨rfl, rfl⟩ := Prod.mk.inj (Except.ok.inj choice)
    exact .inr ⟨Bool.eq_false_iff.mpr fresh, rfl, rfl⟩

theorem advance_sets (chosen : MsgStatus) (p : DataPacket) :
    (RdmaHw.advance chosen p).size = chosen.size ∧
      (RdmaHw.advance chosen p).sentPsn = chosen.sentPsn ∧
      (RdmaHw.advance chosen p).timeoutPsn = chosen.timeoutPsn ∧
      (RdmaHw.advance chosen p).timeouted = chosen.timeouted := by
  unfold RdmaHw.advance
  split
  · exact ⟨rfl, rfl, rfl, rfl⟩
  · exact ⟨rfl, rfl, rfl, rfl⟩

theorem psnBytes_congr {other : MsgStatus} (size : other.size = m.size) (psns : Finset Nat) :
    other.psnBytes g psns = m.psnBytes g psns := by
  unfold MsgStatus.psnBytes
  rw [size]

theorem sendOne_chosen {seq : Nat} {chosen : MsgStatus}
    (choice : RdmaHw.chooseSeq g m = .ok (seq, chosen)) :
    m.sendOne g = RdmaHw.advance chosen (RdmaHw.packetAt g chosen seq) := by
  unfold MsgStatus.sendOne
  rw [choice]

theorem sendOne_kept {seq : Nat} {chosen : MsgStatus}
    (choice : RdmaHw.chooseSeq g m = .ok (seq, chosen)) :
    (m.sendOne g).size = chosen.size ∧ (m.sendOne g).sentPsn = chosen.sentPsn ∧
      (m.sendOne g).timeoutPsn = chosen.timeoutPsn ∧
      (m.sendOne g).timeouted = chosen.timeouted := by
  rw [sendOne_chosen choice]
  exact advance_sets chosen (RdmaHw.packetAt g chosen seq)

theorem onTheFly_sendOne (left : 0 < m.getBytesLeft g) {seq : Nat} {chosen : MsgStatus}
    (choice : RdmaHw.chooseSeq g m = .ok (seq, chosen)) {before after : Nat}
    (earlier : m.getOnTheFly g = .ok before) (later : (m.sendOne g).getOnTheFly g = .ok after) :
    after ≤ before + m.nextBytes g := by
  cases packets : g.packetLevelRouting with
  | false =>
      unfold MsgStatus.getOnTheFly at earlier later
      simp only [packets, Bool.not_false, if_true, Except.ok.injEq] at earlier later
      have flow := onTheFly_sendOne_flow packets left
      unfold MsgStatus.nextBytes
      simp only [packets, Bool.not_false, if_true]
      omega
  | true =>
      obtain ⟨size, sentPsn, timeoutPsn, timeouted⟩ := sendOne_kept choice
      rw [onTheFly_packets packets] at earlier later
      unfold MsgStatus.nextBytes
      simp only [packets, Bool.not_true, Bool.false_eq_true, if_false]
      rcases chooseSeq_packets packets choice with ⟨resends, rfl, -, rfl⟩ | ⟨fresh, rfl, rfl⟩
      · rw [if_pos resends]
        simp only [Bool.and_eq_true, decide_eq_true_eq] at resends
        have bytesSame := @psnBytes_congr g m (m.sendOne g) size
        simp only [timeouted, sentPsn, timeoutPsn, bytesSame, resends.1.2, if_true]
          at earlier later
        have bytes := psnBytes_erase (g := g) (m := m) (headD_mem resends.2)
        have change : Word32.trunc (m.psnBytes g m.timeoutPsn) ≤ Word32.trunc (m.psnBytes g
            (m.timeoutPsn.erase ((m.timeoutPsn.sort (· ≤ ·)).headD 0))) +
            m.bytesOf g ((m.timeoutPsn.sort (· ≤ ·)).headD 0) := by
          rw [← bytes]
          unfold Word32.trunc
          omega
        omega
      · rw [if_neg (Bool.eq_false_iff.mp fresh)]
        have change : Word32.trunc (m.psnBytes g (insert (Word32.trunc m.sndNxt) m.sentPsn)) ≤
            Word32.trunc (m.psnBytes g m.sentPsn) + m.bytesOf g (Word32.trunc m.sndNxt) := by
          rcases psnBytes_insert_le (g := g) (m := m) m.sentPsn (Word32.trunc m.sndNxt) with
            same | more
          · rw [same]
            exact Nat.le_add_right _ _
          · rw [more]
            unfold Word32.trunc
            omega
        have bytesSame := @psnBytes_congr g m (m.sendOne g) size
        simp only [timeouted, sentPsn, timeoutPsn, bytesSame] at earlier later
        split at earlier
        · rename_i timed
          simp only [timed, if_true] at later
          omega
        · rename_i untimed
          simp only [untimed, Bool.false_eq_true, if_false] at later
          omega

/-- Where nothing is resent the new packet starts at `snd_nxt`. -/
theorem sendOne_bytesLeft_new (mtu : g.mtu < Word32.size) (fits : m.size < 18446744073709551616)
    (left : 0 < m.getBytesLeft g) {seq : Nat} {chosen : MsgStatus}
    (choice : RdmaHw.chooseSeq g m = .ok (seq, chosen))
    (fresh : (g.packetLevelRouting && m.timeouted && decide (m.timeoutPsn.card > 0)) = false)
    (sameSize : chosen.size = m.size) (sameNxt : chosen.sndNxt = m.sndNxt)
    (sameTimeouted : chosen.timeouted = m.timeouted)
    (sameTimeout : chosen.timeoutPsn = m.timeoutPsn) (start : seq = Word32.trunc m.sndNxt) :
    (m.sendOne g).getBytesLeft g = 0 ↔ LastPacket g m := by
  have sent := sendOne_chosen choice
  obtain ⟨size, -, timeoutPsn, timeouted⟩ := sendOne_kept choice
  have unsent := left_beyond fresh left
  have still : (g.packetLevelRouting && (m.sendOne g).timeouted &&
      decide ((m.sendOne g).timeoutPsn.card > 0)) = false := by
    rw [timeouted, timeoutPsn, sameTimeouted, sameTimeout]
    exact fresh
  unfold MsgStatus.getBytesLeft LastPacket
  rw [still, fresh, size, sameSize]
  simp only [Bool.false_eq_true, if_false]
  rw [sent]
  unfold RdmaHw.advance
  by_cases small : m.sndNxt < Word32.size
  · have here : seq = m.sndNxt := start.trans (Word32.trunc_eq _ small)
    rw [if_pos (show (RdmaHw.packetAt g chosen seq).seq = chosen.sndNxt from
      here.trans sameNxt.symm)]
    simp only [RdmaHw.packetAt, sameSize, sameNxt, here, small, true_and]
    unfold Word32.size at small mtu
    have rest : sub64 m.size m.sndNxt = m.size - m.sndNxt := by
      unfold sub64
      omega
    by_cases last : Word32.add m.sndNxt g.mtu ≥ m.size
    · have sum : Word32.add m.sndNxt g.mtu = (m.sndNxt + g.mtu) % 4294967296 := rfl
      have whole : Word32.trunc (m.size - m.sndNxt) = m.size - m.sndNxt :=
        Word32.trunc_eq _ (by unfold Word32.size; omega)
      simp only [last, decide_true, if_true, rest, whole]
      split
      all_goals omega
    · have sum : Word32.add m.sndNxt g.mtu = (m.sndNxt + g.mtu) % 4294967296 := rfl
      simp only [last, decide_false, Bool.false_eq_true, if_false]
      split
      all_goals omega
  · have elsewhere : ¬ ((RdmaHw.packetAt g chosen seq).seq = chosen.sndNxt) := by
      intro same
      have here : seq = chosen.sndNxt := same
      have bound := Word32.trunc_lt m.sndNxt
      rw [← start, here, sameNxt] at bound
      exact small bound
    rw [if_neg elsewhere, sameNxt]
    simp only [small, false_and, iff_false]
    split
    all_goals omega

/-- A packet that is resent is the last one when no other timed out. -/
theorem sendOne_bytesLeft_resent (packets : g.packetLevelRouting = true) {seq : Nat}
    (choice : RdmaHw.chooseSeq g m = .ok (seq, { m with timeoutPsn := m.timeoutPsn.erase seq }))
    (resends : (Word32.trunc m.sndNxt ≥ m.size && m.timeouted &&
      decide (m.timeoutPsn.card > 0)) = true)
    (first : seq = (m.timeoutPsn.sort (· ≤ ·)).headD 0) (below : seq < m.size) :
    (m.sendOne g).getBytesLeft g = 0 ↔ LastPacket g m := by
  have sent := sendOne_chosen choice
  simp only [ge_iff_le, Bool.and_eq_true, decide_eq_true_eq] at resends
  obtain ⟨⟨beyond, timed⟩, some⟩ := resends
  have elsewhere : ¬ (seq = m.sndNxt) := by
    have bound := trunc_le m.sndNxt
    omega
  have unmoved : m.sendOne g = { m with timeoutPsn := m.timeoutPsn.erase seq } := by
    rw [sent]
    exact if_neg elsewhere
  have end_ : ¬ (m.sndNxt < m.size) := by
    have bound := trunc_le m.sndNxt
    omega
  rw [unmoved]
  unfold MsgStatus.getBytesLeft LastPacket
  simp only [packets, timed, some, Bool.true_and, decide_true, if_true, beyond, true_and,
    ← first]
  by_cases more : (m.timeoutPsn.erase seq).card > 0
  · simp only [more, decide_true, if_true]
    exact Iff.rfl
  · have empty : m.timeoutPsn.erase seq = ∅ := Finset.card_eq_zero.mp (by omega)
    have none : m.psnBytes g ∅ = 0 := by rw [psnBytes_sum]; rfl
    rw [empty, none]
    simp only [Finset.card_empty, gt_iff_lt, Nat.lt_irrefl, decide_false,
      Bool.false_eq_true, if_false, iff_true]
    split
    all_goals omega

/-- The bytes left after a packet, zero exactly after the last one. -/
theorem sendOne_bytesLeft (mtu : g.mtu < Word32.size) (fits : m.size < 18446744073709551616)
    (left : 0 < m.getBytesLeft g) {seq : Nat} {chosen : MsgStatus}
    (choice : RdmaHw.chooseSeq g m = .ok (seq, chosen)) :
    (m.sendOne g).getBytesLeft g = 0 ↔ LastPacket g m := by
  cases packets : g.packetLevelRouting with
  | false =>
      have choice' := chooseSeq_flow packets m
      rw [choice'] at choice
      obtain ⟨rfl, rfl⟩ := Prod.mk.inj (Except.ok.inj choice)
      exact sendOne_bytesLeft_new mtu fits left choice' (by simp [packets]) rfl rfl rfl rfl rfl
  | true =>
      rcases chooseSeq_packets packets choice with ⟨resends, first, below, rfl⟩ | ⟨new, rfl, rfl⟩
      · exact sendOne_bytesLeft_resent packets choice resends first below
      · obtain ⟨size, -, timeoutPsn, timeouted⟩ := sendOne_kept choice
        by_cases resending : (g.packetLevelRouting && m.timeouted &&
            decide (m.timeoutPsn.card > 0)) = true
        · have same : (m.sendOne g).getBytesLeft g = m.getBytesLeft g := by
            unfold MsgStatus.getBytesLeft
            rw [timeouted, timeoutPsn, if_pos resending, if_pos resending,
              @psnBytes_congr g m (m.sendOne g) size]
          unfold LastPacket
          rw [same, if_pos resending]
          simp only [packets, Bool.true_and, Bool.and_eq_true, decide_eq_true_eq] at resending
          simp only [resending.1, resending.2, Bool.and_true, decide_true, decide_eq_false_iff_not]
            at new
          refine iff_of_false (by omega) fun last => new last.1
        · exact sendOne_bytesLeft_new mtu fits left choice (Bool.eq_false_iff.mpr resending) rfl rfl rfl
            rfl rfl

theorem onTheFly_hear_flow (counted : Counted m) {ack : Nat}
    (within : ack ≤ m.sndNxt ∨ m.sndNxt < m.sndUna) :
    sub64 m.sndNxt (max m.sndUna ack) ≤ sub64 m.sndNxt m.sndUna := by
  unfold sub64
  unfold Counted at counted
  omega

theorem onTheFly_hear_packets (packets : g.packetLevelRouting = true)
    (small : m.psnBytes g m.sentPsn < Word32.size) (ack : Nat) (last : Bool) {after : Nat}
    (later : (m.acknowledge g ack last).getOnTheFly g = .ok after) :
    ∃ before, m.getOnTheFly g = .ok before ∧ after ≤ before := by
  simp only [onTheFly_packets packets] at later ⊢
  have whole : Word32.trunc (m.psnBytes g m.sentPsn) = m.psnBytes g m.sentPsn :=
    Word32.trunc_eq _ small
  have sets : (m.acknowledge g ack last).size = m.size ∧
      (m.acknowledge g ack last).timeouted = m.timeouted ∧
      (m.acknowledge g ack last).sentPsn = m.sentPsn.erase ack ∧
      ((m.acknowledge g ack last).timeoutPsn =
        if ack ∈ m.sentPsn then m.timeoutPsn.erase ack else m.timeoutPsn) := by
    unfold MsgStatus.acknowledge MsgStatus.updateReceivedACK
    simp only [packets, if_true]
    by_cases present : ack ∈ m.sentPsn
    · simp only [present, if_true]
      cases last
      all_goals exact ⟨rfl, rfl, rfl, rfl⟩
    · simp only [present, if_false]
      cases last
      all_goals exact ⟨rfl, rfl, (Finset.erase_eq_of_notMem present).symm, rfl⟩
  obtain ⟨size, timeouted, sentPsn, timeoutPsn⟩ := sets
  have bytesSame := @psnBytes_congr g m (m.acknowledge g ack last) size
  simp only [timeouted, sentPsn, timeoutPsn, bytesSame] at later
  by_cases present : ack ∈ m.sentPsn
  · have removed := psnBytes_erase (g := g) (m := m) present
    have rest : Word32.trunc (m.psnBytes g (m.sentPsn.erase ack)) =
        m.psnBytes g (m.sentPsn.erase ack) := Word32.trunc_eq _ (by omega)
    have kept : Word32.trunc (m.psnBytes g m.timeoutPsn) ≤
        Word32.trunc (m.psnBytes g (m.timeoutPsn.erase ack)) + m.bytesOf g ack := by
      by_cases resent : ack ∈ m.timeoutPsn
      · rw [← psnBytes_erase (g := g) (m := m) resent]
        unfold Word32.trunc
        omega
      · rw [Finset.erase_eq_of_notMem resent]
        exact Nat.le_add_right _ _
    rw [whole]
    rw [rest, if_pos present] at later
    cases timed : m.timeouted with
    | true =>
        simp only [timed, if_true] at later ⊢
        exact ⟨_, ⟨by omega, rfl⟩, by omega⟩
    | false =>
        simp only [timed, Bool.false_eq_true, if_false] at later ⊢
        exact ⟨_, rfl, by omega⟩
  · rw [Finset.erase_eq_of_notMem present, if_neg present] at later
    exact ⟨after, later, Nat.le_refl _⟩

end Bytes

section Steps

variable {g : RdmaSettings} {q after : RdmaQueuePair}

theorem isWinBound_true :
    q.isWinBound g = .ok true ↔ q.pacing.getWin ≠ 0 ∧
      ∃ onTheFly, q.getOnTheFly g = .ok onTheFly ∧ q.pacing.getWin ≤ onTheFly := by
  unfold RdmaQueuePair.isWinBound
  by_cases none : q.pacing.getWin = 0
  · simp [none]
  · rw [if_neg none, bind_ok]
    simp [none]

theorem isWinBound_false (some : q.pacing.getWin ≠ 0) (room : q.isWinBound g = .ok false) :
    ∃ onTheFly, q.getOnTheFly g = .ok onTheFly ∧ onTheFly < q.pacing.getWin := by
  unfold RdmaQueuePair.isWinBound at room
  rw [if_neg some] at room
  obtain ⟨onTheFly, inFlight, room⟩ := bind_ok.mp room
  simp only [Except.ok.injEq, decide_eq_false_iff_not] at room
  exact ⟨onTheFly, inFlight, by omega⟩

/-- Outside `qp_mode` the timer is armed once nothing is left to send. -/
theorem resetTimer_arms (single : g.qpMode = false) (rto : g.rtoUs ≠ 0) {now msgSeq : Nat}
    (success : RdmaHw.resetTimer g now q msgSeq = .ok after) :
    (q.eventTimeoutRetransmission.isSome → after.eventTimeoutRetransmission.isSome) ∧
      (q.getBytesLeft g = 0 → ∀ onTheFly, q.getOnTheFly g = .ok onTheFly → 0 < onTheFly →
        after.eventTimeoutRetransmission.isSome) := by
  unfold RdmaHw.resetTimer at success
  rw [if_neg rto, single] at success
  simp only [Bool.false_eq_true, if_false] at success
  split at success
  · obtain ⟨onTheFly, inFlight, success⟩ := bind_ok.mp success
    split at success
    · rw [← Except.ok.inj success]
      exact ⟨fun _ => rfl, fun _ _ _ _ => rfl⟩
    · rename_i nothing
      rw [← Except.ok.inj success]
      refine ⟨id, fun _ other same some => ?_⟩
      rw [inFlight] at same
      rw [← Except.ok.inj same] at some
      exact absurd some nothing
  · rename_i left
    rw [← Except.ok.inj success]
    exact ⟨id, fun none => absurd none left⟩

/-- A handler that ends with the timer keeps it pending, and need not where the window has room. -/
theorem hasTimer_of_room (single : g.qpMode = false) (rto : g.rtoUs ≠ 0) {now msgSeq : Nat}
    (success : RdmaHw.resetTimer g now q msgSeq = .ok after)
    (room : q.eventTimeoutRetransmission.isSome ∨ (q.getBytesLeft g ≠ 0 →
      q.isFinished g = false → q.isWinBound g ≠ .ok true)) : HasTimer g after := by
  intro stuck
  obtain ⟨current, pacing⟩ := resetTimer_current single success
  obtain ⟨kept, armed⟩ := resetTimer_arms single rto success
  have bytesLeft : after.getBytesLeft g = q.getBytesLeft g :=
    congrArg (MsgStatus.getBytesLeft g) current
  have onTheFly : after.getOnTheFly g = q.getOnTheFly g :=
    congrArg (MsgStatus.getOnTheFly g) current
  have finished : after.isFinished g = q.isFinished g := congrArg (MsgStatus.isFinished g) current
  have winBound : after.isWinBound g = q.isWinBound g := by
    unfold RdmaQueuePair.isWinBound
    rw [onTheFly, pacing]
  obtain ⟨unfinished, ⟨n, inFlight, some⟩, blocked⟩ := stuck
  rw [finished] at unfinished
  rw [onTheFly] at inFlight
  rw [bytesLeft, winBound] at blocked
  by_cases left : q.getBytesLeft g = 0
  · exact armed left n inFlight some
  · rcases room with pending | room
    · exact kept pending
    · exact absurd (blocked.resolve_left left) (room left unfinished)

structure TimerSound (g : RdmaSettings) (q : RdmaQueuePair) : Prop where
  size : q.current.size < 18446744073709551616
  counted : g.packetLevelRouting = false → Counted q.current
  timer : HasTimer g q

theorem sendOne_counted {m : MsgStatus} (flow : g.packetLevelRouting = false)
    (counted : Counted m) : (m.sendOne g).size = m.size ∧ Counted (m.sendOne g) := by
  unfold MsgStatus.sendOne
  rw [chooseSeq_flow flow]
  simp only [RdmaHw.advance]
  split
  · refine ⟨rfl, .inl ?_⟩
    simp only
    omega
  · exact ⟨rfl, counted⟩

theorem TimerSound.sent (sound : TimerSound g q) (single : g.qpMode = false) (rto : g.rtoUs ≠ 0)
    (mtu : g.mtu < Word32.size) (left : 0 < q.getBytesLeft g) (room : q.isWinBound g = .ok false)
    {now : Nat} {p : DataPacket} {completion : Completion}
    (success : RdmaHw.getNxtPacket g now q = .ok (p, after))
    (arms : q.eventTimeoutRetransmission.isSome ∨ KeepsRoom g q (.send, completion)) :
    TimerSound g after := by
  obtain ⟨seq, m, chosen, rfl, reset⟩ := getNxtPacket_single single success
  have sent : q.current.sendOne g = RdmaHw.advance m (RdmaHw.packetAt g m seq) := by
    unfold MsgStatus.sendOne
    rw [chosen]
  rw [← sent] at reset
  have current := (resetTimer_current single reset).1
  have size : (q.current.sendOne g).size = q.current.size := by
    rw [sent, (advance_sets m _).1]
    cases packets : g.packetLevelRouting with
    | false =>
        rw [chooseSeq_flow packets] at chosen
        rw [← (Prod.mk.inj (Except.ok.inj chosen)).2]
    | true =>
        rcases chooseSeq_packets packets chosen with ⟨-, -, -, rfl⟩ | ⟨-, -, rfl⟩
        · rfl
        · rfl
  refine ⟨?_, fun flow => ?_, hasTimer_of_room single rto reset ?_⟩
  · rw [current]
    exact size.symm ▸ sound.size
  · rw [current]
    exact (sendOne_counted flow (sound.counted flow)).2
  · refine arms.imp id fun keeps more unfinished bound => ?_
    obtain ⟨some, n, inFlight, full⟩ := isWinBound_true.mp bound
    rcases keeps with last | none | fits
    · exact more ((sendOne_bytesLeft mtu sound.size left chosen).mpr last)
    · exact some none
    · have windowed : q.pacing.getWin ≠ 0 := some
      obtain ⟨before, earlier, open_⟩ := isWinBound_false windowed room
      have more := onTheFly_sendOne left chosen earlier inFlight
      have limit := fits before earlier
      have full : q.pacing.getWin ≤ n := full
      omega

theorem isFinished_hear (a : AckPacket) {m : MsgStatus} (finished : m.isFinished g = true) :
    (m.hear g a).isFinished g = true := by
  unfold MsgStatus.hear
  split
  · exact finished
  · unfold MsgStatus.isFinished at finished ⊢
    cases packets : g.packetLevelRouting with
    | true =>
        simp only [packets, Bool.not_true, Bool.false_eq_true, if_false] at finished ⊢
        unfold MsgStatus.acknowledge MsgStatus.updateReceivedACK
        simp only [packets, if_true]
        split
        · rfl
        · split
          · exact finished
          · exact finished
    | false =>
        simp only [packets, Bool.not_false, if_true, decide_eq_true_eq] at finished ⊢
        unfold MsgStatus.acknowledge
        simp only [packets, Bool.false_eq_true, if_false]
        split
        · simp only
          omega
        · exact finished

theorem ackReact_single (single : g.qpMode = false) (a : AckPacket) :
    (RdmaHw.reactToNack g (RdmaHw.acknowledge g q a).2 a).current =
        (if a.nack && g.nackReaction then (q.current.hear g a).pullBack
          else q.current.hear g a) ∧
      (RdmaHw.reactToNack g (RdmaHw.acknowledge g q a).2 a).pacing = q.pacing ∧
      ((RdmaHw.reactToNack g (RdmaHw.acknowledge g q a).2 a).eventTimeoutRetransmission =
          q.eventTimeoutRetransmission ∨ (q.current.hear g a).isFinished g = true) := by
  have acked : (RdmaHw.acknowledge g q a).2.current = q.current.hear g a ∧
      (RdmaHw.acknowledge g q a).2.pacing = q.pacing ∧
      ((RdmaHw.acknowledge g q a).2.eventTimeoutRetransmission =
        q.eventTimeoutRetransmission ∨ (q.current.hear g a).isFinished g = true) := by
    unfold RdmaHw.acknowledge MsgStatus.hear ackSeq
    generalize (if g.backto0 = true then a.seq / g.chunk * g.chunk else a.seq) = seq
    simp only [single, Bool.not_false, if_true]
    split
    · exact ⟨rfl, rfl, .inl rfl⟩
    · split
      · rename_i finished
        exact ⟨rfl, rfl, .inr finished⟩
      · exact ⟨rfl, rfl, .inl rfl⟩
  refine ⟨?_, ?_, ?_⟩
  · rw [reactToNack_single single, acked.1]
  · rw [← acked.2.1]
    unfold RdmaHw.reactToNack
    split
    · simp [single]
    · rfl
  · refine acked.2.2.imp (fun same => ?_) id
    rw [← same]
    unfold RdmaHw.reactToNack
    split
    · simp [single]
    · rfl

theorem hear_flow (flow : g.packetLevelRouting = false) (a : AckPacket) (m : MsgStatus) :
    (m.hear g a).size = m.size ∧ (m.hear g a).sndNxt = m.sndNxt ∧
      (m.hear g a).sndUna = if g.ackInterval = 0 then m.sndUna else max m.sndUna (ackSeq g a) := by
  unfold MsgStatus.hear
  split
  · exact ⟨rfl, rfl, rfl⟩
  · refine ⟨?_, ?_, acknowledge_sndUna flow _ _⟩
    all_goals
      unfold MsgStatus.acknowledge
      simp only [flow, Bool.false_eq_true, if_false]
      split
      · rfl
      · rfl

theorem hear_size (a : AckPacket) (m : MsgStatus) : (m.hear g a).size = m.size := by
  unfold MsgStatus.hear MsgStatus.acknowledge MsgStatus.updateReceivedACK
  split_ifs
  all_goals rfl

theorem pullBack_onTheFly {m : MsgStatus} (packets : g.packetLevelRouting = true) :
    m.pullBack.getOnTheFly g = m.getOnTheFly g := by
  simp only [MsgStatus.getOnTheFly, packets, Bool.not_true, Bool.false_eq_true, if_false]
  rfl

theorem onTheFly_acked {a : AckPacket} {completion : Completion}
    (counted : g.packetLevelRouting = false → Counted q.current)
    (keeps : KeepsRoom g q (.ack a, completion)) (windowed : q.pacing.getWin ≠ 0)
    (unfinished : (q.current.hear g a).isFinished g = false) {n : Nat}
    (inFlight : (if a.nack && g.nackReaction then (q.current.hear g a).pullBack
      else q.current.hear g a).getOnTheFly g = .ok n) (some : 0 < n) :
    ∃ before, q.getOnTheFly g = .ok before ∧ n ≤ before := by
  cases packets : g.packetLevelRouting with
  | true =>
      have heard : (q.current.hear g a).getOnTheFly g = .ok n := by
        rw [← inFlight]
        split
        · exact (pullBack_onTheFly packets).symm
        · rfl
      by_cases none : g.ackInterval = 0
      · unfold MsgStatus.hear at heard
        rw [if_pos none] at heard
        exact ⟨n, heard, Nat.le_refl _⟩
      · rcases keeps with same | same | small
        · exact absurd same none
        · exact absurd same windowed
        · rw [if_pos packets] at small
          unfold MsgStatus.hear at heard
          rw [if_neg none] at heard
          exact onTheFly_hear_packets packets small _ _ heard
  | false =>
      obtain ⟨size, nxt, una⟩ := hear_flow packets a q.current
      have value : ∀ m : MsgStatus, m.getOnTheFly g = .ok (sub64 m.sndNxt m.sndUna) := by
        intro m
        simp [MsgStatus.getOnTheFly, packets]
      have before : q.getOnTheFly g = .ok (sub64 q.current.sndNxt q.current.sndUna) :=
        value q.current
      by_cases react : (a.nack && g.nackReaction) = true
      · rw [if_pos react, value] at inFlight
        have nothing : sub64 (q.current.hear g a).pullBack.sndNxt
            (q.current.hear g a).pullBack.sndUna = 0 := by
          show sub64 (q.current.hear g a).sndUna (q.current.hear g a).sndUna = 0
          unfold sub64
          omega
        rw [nothing] at inFlight
        exact absurd (Except.ok.inj inFlight) (by omega)
      · rw [if_neg react, value, nxt, una] at inFlight
        refine ⟨_, before, ?_⟩
        rw [← Except.ok.inj inFlight]
        split
        · exact Nat.le_refl _
        · rename_i some
          rcases keeps with same | same | within
          · exact absurd same some
          · exact absurd same windowed
          · rw [packets] at within
            simp only [Bool.false_eq_true, if_false] at within
            rcases within with nack | done | within
            · exact absurd nack react
            · unfold MsgStatus.isFinished at unfinished
              rw [size, una, if_neg some] at unfinished
              simp only [packets, Bool.not_false, if_true, decide_eq_false_iff_not] at unfinished
              omega
            · exact onTheFly_hear_flow (counted packets) within

theorem TimerSound.acked (sound : TimerSound g q) (single : g.qpMode = false) (rto : g.rtoUs ≠ 0)
    {now : Nat} {a : AckPacket} {completion : Completion}
    (success : RdmaHw.receiveAck g now q a = .ok (completion, after))
    (arms : q.eventTimeoutRetransmission.isSome ∨ KeepsRoom g q (.ack a, completion)) :
    TimerSound g after := by
  unfold RdmaHw.receiveAck at success
  obtain ⟨timed, reset, success⟩ := bind_ok.mp success
  obtain ⟨-, rfl⟩ := Prod.mk.inj (Except.ok.inj success)
  have later := (resetTimer_current single reset).1
  obtain ⟨current, pacing, timer⟩ := ackReact_single (q := q) single a
  refine ⟨?_, fun flow => ?_, hasTimer_of_room single rto reset ?_⟩
  · rw [later, current]
    have size := hear_size (g := g) a q.current
    split
    · exact size.symm ▸ sound.size
    · exact size.symm ▸ sound.size
  · rw [later, current]
    obtain ⟨-, nxt, una⟩ := hear_flow flow a q.current
    split
    · exact .inr (Nat.le_refl _)
    · have counted := sound.counted flow
      unfold Counted at counted ⊢
      rw [nxt, una]
      split
      · exact counted
      · omega
  · by_cases finished : (q.current.hear g a).isFinished g = true
    · refine .inr fun _ unfinished => ?_
      unfold RdmaQueuePair.isFinished at unfinished
      rw [current] at unfinished
      have still : (if a.nack && g.nackReaction then (q.current.hear g a).pullBack
          else q.current.hear g a).isFinished g = true := by
        split
        · exact finished
        · exact finished
      rw [still] at unfinished
      contradiction
    · rw [timer.resolve_right finished]
      by_cases pending : q.eventTimeoutRetransmission.isSome
      · exact .inl pending
      · refine .inr fun _ unfinished bound => pending (sound.timer ?_)
        have keeps := arms.resolve_left pending
        obtain ⟨windowed, n, inFlight, full⟩ := isWinBound_true.mp bound
        rw [pacing] at windowed full
        unfold RdmaQueuePair.getOnTheFly at inFlight
        rw [current] at inFlight
        obtain ⟨before, earlier, more⟩ := onTheFly_acked sound.counted keeps windowed
          (Bool.eq_false_iff.mpr finished) inFlight (by omega)
        refine ⟨?_, ⟨before, earlier, by omega⟩,
          .inr (isWinBound_true.mpr ⟨windowed, before, earlier, by omega⟩)⟩
        exact Bool.eq_false_iff.mpr fun done => finished (isFinished_hear a done)

theorem recoverQueue_idle : HasTimer g (q.recoverQueue g) := by
  rintro ⟨-, ⟨n, inFlight, some⟩, -⟩
  unfold RdmaQueuePair.getOnTheFly RdmaQueuePair.recoverQueue at inFlight
  cases packets : g.packetLevelRouting with
  | false =>
      simp only [MsgStatus.getOnTheFly, MsgStatus.recover, packets, Bool.not_false, if_true,
        Bool.false_eq_true, if_false, Except.ok.injEq] at inFlight
      unfold sub64 at inFlight
      omega
  | true =>
      rw [onTheFly_packets packets] at inFlight
      simp only [MsgStatus.recover, if_true] at inFlight
      omega

theorem TimerSound.step {s next : RdmaFlow} (sound : TimerSound g s.qp) (single : g.qpMode = false)
    (rto : g.rtoUs ≠ 0) (mtu : g.mtu < Word32.size) {label : FlowEvent × Completion}
    (arms : ArmsTimer g s label) (step : Step g s label next) : TimerSound g next.qp := by
  cases step with
  | send left room success => exact sound.sent single rto mtu left room success arms
  | data sent => exact sound
  | ack sent received => exact sound.acked single rto received arms
  | timeout due =>
      refine ⟨sound.size, fun flow => .inr ?_, recoverQueue_idle⟩
      simp [RdmaQueuePair.recoverQueue, MsgStatus.recover, flow]
  | pace rate =>
      refine ⟨sound.size, sound.counted, fun stuck => ?_⟩
      rcases arms with pending | finished | room
      · exact pending
      · have unfinished : s.qp.isFinished g = false := stuck.unfinished
        rw [finished] at unfinished
        contradiction
      · refine sound.timer ⟨stuck.unfinished, stuck.inFlight, ?_⟩
        exact .inl (stuck.blocked.resolve_right room)
  | wait forward before => exact sound

end Steps

/-- Outside `qp_mode` a stuck sender has a timer in every state of a run whose events arm it or
leave room in the window. -/
theorem sender_has_timer (g : RdmaSettings) (single : g.qpMode = false) (rto : g.rtoUs ≠ 0)
    (mtu : g.mtu < Word32.size) (size flowId sport : Nat) (fits : size < 18446744073709551616)
    (entries : List (RdmaFlow × (FlowEvent × Completion))) (s : RdmaFlow)
    (run : Run (Traced (Step g)) (create g size flowId sport) entries s)
    (arms : ∀ entry ∈ entries, ArmsTimer g entry.1 entry.2) :
    (∀ entry ∈ entries, HasTimer g entry.1.qp) ∧ HasTimer g s.qp := by
  have base : TimerSound g (create g size flowId sport).qp := by
    refine ⟨fits, fun _ => .inr (Nat.le_refl _), ?_⟩
    rintro ⟨-, ⟨n, inFlight, some⟩, -⟩
    unfold RdmaQueuePair.getOnTheFly create at inFlight
    cases packets : g.packetLevelRouting with
    | false =>
        simp only [MsgStatus.getOnTheFly, packets, Bool.not_false, if_true, Except.ok.injEq]
          at inFlight
        unfold sub64 at inFlight
        omega
    | true =>
        rw [onTheFly_packets packets] at inFlight
        simp only [Bool.false_eq_true, if_false, psnBytes_sum, Finset.sum_empty] at inFlight
        rw [inFlight] at some
        contradiction
  obtain ⟨along, last⟩ := run.holds_along (fun s => TimerSound g s.qp) (ArmsTimer g) base
    (fun s label next sound arms step => sound.step single rto mtu arms step) arms
  exact ⟨fun entry member => (along entry member).timer, last.timer⟩

end Floodgate
