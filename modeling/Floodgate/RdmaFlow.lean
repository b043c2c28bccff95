import Floodgate.Library.LabelledRun
import Floodgate.RdmaHw

/-! One flow outside `qp_mode`: a sender and a receiver with a network between them that loses,
duplicates and reorders. -/

namespace Floodgate

open Outcome LabelledRun

/-- The two ends of a flow and every packet and acknowledgement that has ever been sent. -/
structure RdmaFlow where
  now : Nat
  qp : RdmaQueuePair
  rx : RdmaRxQueuePair
  data : List DataPacket
  acks : List AckPacket

/-- What can happen next. Congestion control acts on the flow through its rate. -/
inductive FlowEvent where
  | send
  | data (p : DataPacket)
  | ack (a : AckPacket)
  | timeout
  | pace (rate : Nat)
  | wait (later : Nat)
  deriving DecidableEq

namespace RdmaFlow

def create (g : RdmaSettings) (size flowId sport : Nat) : RdmaFlow where
  now := 0
  qp :=
    { current :=
        { size := size
          msgSeq := 0
          sport := sport
          dport := 0
          src := 0
          dst := 0
          flowId := flowId
          sndNxt := 0
          sndUna := 0
          timeouted := false
          sentPsn := ∅
          timeoutPsn := ∅
          receivedLastAck := false }
      rdmaMsgs := []
      rdmaMsgsUnfinished := []
      operations := fun _ => ⟨⟨0, 0, 0, 0, 0, 0, 0, 0, 0, false, ∅, ∅, false⟩, 0⟩
      pacing := g.initial
      eventTimeoutRetransmission := none }
  rx := RdmaRxQueuePair.init
  data := []
  acks := []

/-- One event. Whatever has been sent may arrive at any time, any number of times or never. -/
inductive Step (g : RdmaSettings) (s : RdmaFlow) : FlowEvent × Completion → RdmaFlow → Prop
  | send {p : DataPacket} {qp : RdmaQueuePair} (left : 0 < s.qp.getBytesLeft g)
      (room : s.qp.isWinBound g = .ok false)
      (next : RdmaHw.getNxtPacket g s.now s.qp = .ok (p, qp)) :
      Step g s (.send, .none) { s with qp := qp, data := s.data ++ [p] }
  | data {p : DataPacket} (sent : p ∈ s.data) :
      Step g s (.data p, .none)
        { s with
          rx := (RdmaHw.receiveUdp g s.now s.rx p).2
          acks := s.acks ++ (RdmaHw.receiveUdp g s.now s.rx p).1.toList }
  | ack {a : AckPacket} {completion : Completion} {qp : RdmaQueuePair} (sent : a ∈ s.acks)
      (received : RdmaHw.receiveAck g s.now s.qp a = .ok (completion, qp)) :
      Step g s (.ack a, completion) { s with qp := qp }
  | timeout (due : s.qp.eventTimeoutRetransmission = some s.now) :
      Step g s (.timeout, .none) { s with qp := s.qp.recoverQueue g }
  | pace (rate : Nat) :
      Step g s (.pace rate, .none)
        { s with qp := { s.qp with pacing := { s.qp.pacing with rate := rate } } }
  | wait {later : Nat} (forward : s.now < later)
      (before : ∀ time, s.qp.eventTimeoutRetransmission = some time → later ≤ time) :
      Step g s (.wait later, .none) { s with now := later }

end RdmaFlow

section Timer

variable {g : RdmaSettings} {now msgSeq : Nat} {q after : RdmaQueuePair}

/-- Outside `qp_mode` the timer is armed for a full timeout, or left as it is. -/
theorem resetTimer_single (single : g.qpMode = false)
    (success : RdmaHw.resetTimer g now q msgSeq = .ok after) :
    after = q ∨ after = q.resetRTOEvent g now := by
  unfold RdmaHw.resetTimer at success
  rw [single] at success
  split at success
  · exact .inl (Except.ok.inj success).symm
  · simp only [Bool.false_eq_true, if_false] at success
    split at success
    · obtain ⟨onTheFly, _, success⟩ := bind_ok.mp success
      split at success
      · exact .inr (Except.ok.inj success).symm
      · exact .inl (Except.ok.inj success).symm
    · exact .inl (Except.ok.inj success).symm

theorem resetTimer_current (single : g.qpMode = false)
    (success : RdmaHw.resetTimer g now q msgSeq = .ok after) :
    after.current = q.current ∧ after.pacing = q.pacing := by
  rcases resetTimer_single single success with rfl | rfl
  · exact ⟨rfl, rfl⟩
  · exact ⟨rfl, rfl⟩

/-- What `GetNxtPacket` does to the sender outside `qp_mode`. -/
theorem getNxtPacket_single {p : DataPacket} (single : g.qpMode = false)
    (success : RdmaHw.getNxtPacket g now q = .ok (p, after)) :
    ∃ seq m, RdmaHw.chooseSeq g q.current = .ok (seq, m) ∧ p = RdmaHw.packetAt g m seq ∧
      RdmaHw.resetTimer g now { q with current := RdmaHw.advance m p } q.current.msgSeq =
        .ok after := by
  unfold RdmaHw.getNxtPacket at success
  obtain ⟨⟨seq, m⟩, chosen, success⟩ := bind_ok.mp success
  obtain ⟨timed, reset, success⟩ := bind_ok.mp success
  rw [single] at success
  simp only [Bool.false_and, Bool.false_eq_true, if_false, Except.ok.injEq, Prod.mk.injEq]
    at success
  obtain ⟨rfl, rfl⟩ := success
  exact ⟨seq, m, chosen, rfl, reset⟩

/-- What `ReceiveAck` does to the sender outside `qp_mode`. -/
theorem receiveAck_single {a : AckPacket} {completion : Completion} (single : g.qpMode = false)
    (success : RdmaHw.receiveAck g now q a = .ok (completion, after)) :
    completion = (RdmaHw.acknowledge g q a).1 ∧
      after.current = (RdmaHw.reactToNack g (RdmaHw.acknowledge g q a).2 a).current ∧
      after.pacing = (RdmaHw.reactToNack g (RdmaHw.acknowledge g q a).2 a).pacing := by
  unfold RdmaHw.receiveAck at success
  obtain ⟨timed, reset, success⟩ := bind_ok.mp success
  obtain ⟨rfl, rfl⟩ := Prod.mk.inj (Except.ok.inj success)
  obtain ⟨current, pacing⟩ := resetTimer_current single reset
  exact ⟨rfl, current, pacing⟩

end Timer

def InFlow (g : RdmaSettings) (size psn : Nat) : Prop :=
  (∃ k, psn = k * g.packetPayload) ∧ psn < size

def Aligned (g : RdmaSettings) (size seq : Nat) : Prop := seq = size ∨ InFlow g size seq

structure IsPacket (g : RdmaSettings) (size : Nat) (p : DataPacket) : Prop where
  inFlow : InFlow g size p.seq
  payload : p.payload = min g.packetPayload (size - p.seq)
  last : p.last = true ↔ size ≤ p.seq + g.packetPayload

def Complete (g : RdmaSettings) (size : Nat) (rx : RdmaRxQueuePair) : Prop :=
  ∀ psn, InFlow g size psn → psn ∈ rx.receivedPsn

section Arithmetic

variable {g : RdmaSettings} {size : Nat}

theorem Aligned.le {seq : Nat} (aligned : Aligned g size seq) : seq ≤ size := by
  rcases aligned with rfl | ⟨_, below⟩
  · exact Nat.le_refl _
  · exact Nat.le_of_lt below

/-- The packet at `seq` ends at the next position. -/
theorem InFlow.next {seq : Nat} (inFlow : InFlow g size seq) :
    Aligned g size (seq + min g.packetPayload (size - seq)) := by
  obtain ⟨⟨k, rfl⟩, below⟩ := inFlow
  by_cases last : size ≤ k * g.packetPayload + g.packetPayload
  · refine .inl ?_
    omega
  · refine .inr ⟨⟨k + 1, ?_⟩, by omega⟩
    rw [Nat.succ_mul]
    omega

theorem InFlow.of_lt_next {seq psn : Nat} (inFlow : InFlow g size seq) (other : InFlow g size psn)
    (below : psn < seq + g.packetPayload) : psn ≤ seq := by
  obtain ⟨⟨k, rfl⟩, _⟩ := inFlow
  obtain ⟨⟨j, rfl⟩, _⟩ := other
  have order : j < k + 1 := by
    by_contra above
    have bound : (k + 1) * g.packetPayload ≤ j * g.packetPayload :=
      Nat.mul_le_mul_right _ (by omega)
    rw [Nat.succ_mul] at bound
    omega
  exact Nat.mul_le_mul_right _ (by omega)

theorem Aligned.inFlow {seq : Nat} (aligned : Aligned g size seq) (below : seq < size) :
    InFlow g size seq := by
  rcases aligned with rfl | inFlow
  · omega
  · exact inFlow

theorem zero_aligned : Aligned g size 0 := by
  by_cases empty : size = 0
  · exact .inl empty.symm
  · exact .inr ⟨⟨0, (Nat.zero_mul _).symm⟩, by omega⟩

theorem packetAt_isPacket (mtu : g.mtu = g.packetPayload)
    (fits : size + g.packetPayload < Word32.size) (m : MsgStatus) (same : m.size = size)
    {seq : Nat} (inFlow : InFlow g size seq) : IsPacket g size (RdmaHw.packetAt g m seq) := by
  have below := inFlow.2
  have whole : Word32.add seq g.packetPayload = seq + g.packetPayload :=
    Word32.add_eq _ _ (by omega)
  have rest : Word32.trunc (sub64 size seq) = size - seq := by
    have small : sub64 size seq = size - seq := by
      unfold Word32.size at fits
      unfold sub64
      omega
    rw [small]
    exact Word32.trunc_eq _ (by omega)
  refine ⟨inFlow, ?_, ?_⟩
  · simp only [RdmaHw.packetAt, mtu, whole, same, rest]
    by_cases last : seq + g.packetPayload ≥ size
    · simp only [last, decide_true, if_true]
      omega
    · simp only [last, decide_false, Bool.false_eq_true, if_false]
      omega
  · simp only [RdmaHw.packetAt, mtu, whole, same, decide_eq_true_eq, ge_iff_le]

end Arithmetic

section ReceivedAll

variable {g : RdmaSettings} {size : Nat}

open RdmaRxQueuePair

theorem inSequence_closed (fits : size + g.packetPayload < Word32.size) {psns : List Nat}
    {expected : Nat} (below : ∀ psn ∈ psns, psn < size)
    (accepted : inSequence g.packetPayload expected psns = true) {psn j : Nat}
    (member : psn ∈ psns) (order : expected + j * g.packetPayload ≤ psn) :
    expected + j * g.packetPayload ∈ psns := by
  induction psns generalizing expected j with
  | nil => contradiction
  | cons head rest ih =>
      simp only [inSequence, Bool.and_eq_true, decide_eq_true_eq] at accepted
      obtain ⟨rfl, accepted⟩ := accepted
      have small := below expected (by simp)
      rw [Word32.add_eq _ _ (by omega)] at accepted
      rcases j with _ | j
      · simp
      · have split : expected + (j + 1) * g.packetPayload =
            expected + g.packetPayload + j * g.packetPayload := by
          rw [Nat.succ_mul]
          omega
        rcases List.mem_cons.mp member with rfl | later
        · have none : (j + 1) * g.packetPayload = 0 := by omega
          rw [none]
          simp
        · rw [split] at order ⊢
          exact List.mem_cons_of_mem _
            (ih (fun psn member => below psn (List.mem_cons_of_mem _ member)) accepted later order)

theorem inSequence_of_closed (fits : size + g.packetPayload < Word32.size) {psns : List Nat}
    {expected : Nat} (increasing : psns.Pairwise (· < ·))
    (shape : ∀ psn ∈ psns, psn < size ∧ ∃ j, psn = expected + j * g.packetPayload)
    (closed : ∀ j, expected + j * g.packetPayload < size →
      expected + j * g.packetPayload ∈ psns) :
    inSequence g.packetPayload expected psns = true := by
  induction psns generalizing expected with
  | nil => rfl
  | cons head rest ih =>
      obtain ⟨order, tail⟩ := List.pairwise_cons.mp increasing
      obtain ⟨small, j, position⟩ := shape head (by simp)
      have first : expected ∈ head :: rest := by
        have present := closed 0
        simp only [Nat.zero_mul, Nat.add_zero] at present
        exact present (by omega)
      have same : expected = head := by
        rcases List.mem_cons.mp first with same | later
        · exact same
        · have above := order expected later
          omega
      subst same
      simp only [inSequence, decide_true, Bool.true_and]
      rw [Word32.add_eq _ _ (by omega)]
      by_cases none : g.packetPayload = 0
      · have alone : rest = [] := by
          apply List.eq_nil_iff_forall_not_mem.mpr
          intro psn member
          obtain ⟨_, i, position⟩ := shape psn (List.mem_cons_of_mem _ member)
          have above := order psn member
          rw [none] at position
          omega
        rw [alone]
        rfl
      have shift : ∀ j, expected + g.packetPayload + j * g.packetPayload =
          expected + (j + 1) * g.packetPayload := by
        intro j
        rw [Nat.succ_mul]
        omega
      refine ih tail ?_ ?_
      · intro psn member
        obtain ⟨below, i, position⟩ := shape psn (List.mem_cons_of_mem _ member)
        have above := order psn member
        rcases i with _ | i
        · omega
        · exact ⟨below, i, by rw [shift]; exact position⟩
      · intro i below
        rw [shift] at below ⊢
        rcases List.mem_cons.mp (closed (i + 1) below) with same | later
        · rw [Nat.succ_mul] at same
          omega
        · exact later

/-- `ReceivedAll` on packets of one flow: the loop finds no gap and the last packet is there. -/
theorem receivedAll_iff (fits : size + g.packetPayload < Word32.size) {rx : RdmaRxQueuePair}
    (shape : ∀ psn ∈ rx.receivedPsn, InFlow g size psn)
    (tagged : rx.receivedLastPsnPacket = true →
      ∃ psn ∈ rx.receivedPsn, size ≤ psn + g.packetPayload) :
    rx.receivedAll g.packetPayload = true ↔
      Complete g size rx ∧ rx.receivedLastPsnPacket = true := by
  have member : ∀ psn, psn ∈ rx.receivedPsn.sort (· ≤ ·) ↔ psn ∈ rx.receivedPsn :=
    fun psn => Finset.mem_sort _
  unfold receivedAll
  rw [Bool.and_eq_true]
  constructor
  · rintro ⟨last, accepted⟩
    refine ⟨?_, last⟩
    obtain ⟨top, present, final⟩ := tagged last
    intro psn inFlow
    have below := InFlow.of_lt_next (shape top present) inFlow (by have small := inFlow.2; omega)
    obtain ⟨⟨j, rfl⟩, _⟩ := inFlow
    have found := @inSequence_closed g size fits _ 0
      (fun psn inside => (shape psn ((member psn).mp inside)).2) accepted top j
      ((member top).mpr present) (by omega)
    rw [Nat.zero_add] at found
    exact (member _).mp found
  · rintro ⟨complete, last⟩
    refine ⟨last, inSequence_of_closed fits ?_ ?_ ?_⟩
    · exact (Finset.sortedLT_sort rx.receivedPsn).pairwise
    · intro psn inside
      obtain ⟨⟨j, position⟩, below⟩ := shape psn ((member psn).mp inside)
      exact ⟨below, j, by rw [Nat.zero_add]; exact position⟩
    · intro j below
      rw [Nat.zero_add] at below ⊢
      exact (member _).mpr (complete _ ⟨⟨j, rfl⟩, below⟩)

end ReceivedAll

structure SenderSound (g : RdmaSettings) (size : Nat) (m : MsgStatus) : Prop where
  sized : m.size = size
  sndNxt : Aligned g size m.sndNxt
  sndUna : Aligned g size m.sndUna
  psns : ∀ psn, psn ∈ m.sentPsn ∨ psn ∈ m.timeoutPsn → InFlow g size psn

/-- The receiver has packets of the flow only; with flow routing, all below what it expects. -/
structure ReceiverSound (g : RdmaSettings) (size : Nat) (rx : RdmaRxQueuePair) : Prop where
  received : ∀ psn ∈ rx.receivedPsn, InFlow g size psn
  tagged : rx.receivedLastPsnPacket = true →
    ∃ psn ∈ rx.receivedPsn, size ≤ psn + g.packetPayload
  next : g.packetLevelRouting = false → Aligned g size rx.receiverNextExpectedSeq
  below : g.packetLevelRouting = false → ∀ psn, InFlow g size psn →
    psn < rx.receiverNextExpectedSeq → psn ∈ rx.receivedPsn

/-- An acknowledgement says no more than what the receiver has. -/
structure AckSound (g : RdmaSettings) (size : Nat) (rx : RdmaRxQueuePair) (a : AckPacket) :
    Prop where
  last : a.last = true → Complete g size rx
  seq : g.packetLevelRouting = false →
    Aligned g size a.seq ∧ a.seq ≤ rx.receiverNextExpectedSeq
  nack : g.packetLevelRouting = true → a.nack = false

structure FlowSound (g : RdmaSettings) (size : Nat) (s : RdmaFlow) : Prop where
  sender : SenderSound g size s.qp.current
  receiver : ReceiverSound g size s.rx
  data : ∀ p ∈ s.data, IsPacket g size p
  acks : ∀ a ∈ s.acks, AckSound g size s.rx a
  una : g.packetLevelRouting = false → s.qp.current.sndUna ≤ s.rx.receiverNextExpectedSeq
  finished : s.qp.current.receivedLastAck = true → Complete g size s.rx

section Sender

variable {g : RdmaSettings} {size : Nat} {m : MsgStatus}

theorem sort_head_mem {psns : Finset Nat} (some : psns ≠ ∅) :
    (psns.sort (· ≤ ·)).headD 0 ∈ psns := by
  cases order : psns.sort (· ≤ ·) with
  | nil =>
      refine absurd ?_ some
      rw [← Finset.sort_toFinset psns (· ≤ ·), order]
      rfl
  | cons head rest =>
      have member : head ∈ psns.sort (· ≤ ·) := by simp [order]
      exact (Finset.mem_sort _).mp member

theorem SenderSound.chooseSeq (sound : SenderSound g size m) (fits : size < Word32.size)
    (left : 0 < m.getBytesLeft g) {seq : Nat} {chosen : MsgStatus}
    (success : RdmaHw.chooseSeq g m = .ok (seq, chosen)) :
    InFlow g size seq ∧ SenderSound g size chosen ∧ chosen.sndNxt = m.sndNxt ∧
      chosen.sndUna = m.sndUna ∧ chosen.receivedLastAck = m.receivedLastAck := by
  have whole : Word32.trunc m.sndNxt = m.sndNxt :=
    Word32.trunc_eq _ (Nat.lt_of_le_of_lt sound.sndNxt.le fits)
  have fresh : m.sndNxt < m.size → InFlow g size m.sndNxt := by
    rw [sound.sized]
    exact sound.sndNxt.inFlow
  unfold MsgStatus.getBytesLeft at left
  unfold RdmaHw.chooseSeq at success
  simp only [whole] at success
  cases routing : g.packetLevelRouting with
  | false =>
      simp only [routing, Bool.false_and, Bool.false_eq_true, if_false] at left
      simp only [routing, Bool.not_false, if_true, Except.ok.injEq, Prod.mk.injEq] at success
      obtain ⟨rfl, rfl⟩ := success
      refine ⟨fresh ?_, sound, rfl, rfl, rfl⟩
      split at left
      · omega
      · omega
  | true =>
      simp only [routing, Bool.not_true, Bool.false_eq_true, if_false, Bool.true_and] at success left
      split at success
      · rename_i again
        simp only [Bool.and_eq_true, decide_eq_true_eq, Finset.card_pos] at again
        have member := sort_head_mem again.2.ne_empty
        split at success
        · obtain ⟨rfl, rfl⟩ := Prod.mk.inj (Except.ok.inj success)
          refine ⟨sound.psns _ (.inr member), ⟨sound.sized, sound.sndNxt, sound.sndUna, ?_⟩,
            rfl, rfl, rfl⟩
          rintro psn (sent | late)
          · exact sound.psns psn (.inl sent)
          · exact sound.psns psn (.inr (Finset.mem_of_mem_erase late))
        · contradiction
      · rename_i again
        obtain ⟨rfl, rfl⟩ := Prod.mk.inj (Except.ok.inj success)
        have below : m.sndNxt < m.size := by
          by_contra above
          have reached : m.sndNxt ≥ m.size := by omega
          simp only [reached, decide_true, Bool.true_and] at again
          rw [if_neg again] at left
          split at left
          · omega
          · omega
        refine ⟨fresh below, ⟨sound.sized, sound.sndNxt, sound.sndUna, ?_⟩, rfl, rfl, rfl⟩
        rintro psn (sent | late)
        · rcases Finset.mem_insert.mp sent with rfl | earlier
          · exact fresh below
          · exact sound.psns psn (.inl earlier)
        · exact sound.psns psn (.inr late)

theorem SenderSound.advance (sound : SenderSound g size m) (fits : size < Word32.size)
    {p : DataPacket} (packet : IsPacket g size p) :
    SenderSound g size (RdmaHw.advance m p) := by
  unfold RdmaHw.advance
  split
  · rename_i new
    refine ⟨sound.sized, ?_, sound.sndUna, sound.psns⟩
    have next := packet.inFlow.next
    rw [← packet.payload, new] at next
    have bound := next.le
    have small : (m.sndNxt + p.payload) % 18446744073709551616 = m.sndNxt + p.payload := by
      unfold Word32.size at fits
      exact Nat.mod_eq_of_lt (by omega)
    simp only [small]
    exact next
  · exact sound

theorem SenderSound.acknowledge (sound : SenderSound g size m) {ack : Nat} {last : Bool}
    (aligned : g.packetLevelRouting = false → Aligned g size ack) :
    SenderSound g size (m.acknowledge g ack last) := by
  unfold MsgStatus.acknowledge
  cases routing : g.packetLevelRouting with
  | false =>
      simp only [Bool.false_eq_true, if_false]
      split
      · exact ⟨sound.sized, sound.sndNxt, aligned routing, sound.psns⟩
      · exact sound
  | true =>
      have erased : SenderSound g size
          (if ack ∈ m.sentPsn then
            { m with
              sentPsn := m.sentPsn.erase ack
              timeoutPsn := m.timeoutPsn.erase ack }.updateReceivedACK
          else m) := by
        split
        · have psns : ∀ psn, psn ∈ m.sentPsn.erase ack ∨ psn ∈ m.timeoutPsn.erase ack →
              InFlow g size psn := by
            rintro psn (sent | late)
            · exact sound.psns psn (.inl (Finset.mem_of_mem_erase sent))
            · exact sound.psns psn (.inr (Finset.mem_of_mem_erase late))
          refine ⟨sound.sized, sound.sndNxt, ?_, psns⟩
          simp only [MsgStatus.updateReceivedACK]
          split
          · exact sound.sndNxt
          · rename_i some
            exact .inr (psns _ (.inl (sort_head_mem some)))
        · exact sound
      simp only [if_true]
      split
      · exact ⟨erased.sized, erased.sndNxt, erased.sndUna, erased.psns⟩
      · exact erased

theorem SenderSound.recover (sound : SenderSound g size m) : SenderSound g size (m.recover g) := by
  refine ⟨sound.sized, ?_, sound.sndUna, ?_⟩
  · unfold MsgStatus.recover
    simp only
    split
    · exact sound.sndNxt
    · exact sound.sndUna
  · rintro psn (sent | late)
    · exact sound.psns psn (.inl sent)
    · exact sound.psns psn (.inl late)

theorem SenderSound.pullBack (sound : SenderSound g size m) : SenderSound g size m.pullBack :=
  ⟨sound.sized, sound.sndUna, sound.sndUna, sound.psns⟩

end Sender

section Receiver

variable {g : RdmaSettings} {size now : Nat} {rx : RdmaRxQueuePair}

/-- `ReceiverCheckSeq` moves at most the expected number. -/
theorem receiverCheckSeq_same (seq bytes : Nat) :
    (RdmaHw.receiverCheckSeq g now rx seq bytes).2.receivedPsn = rx.receivedPsn ∧
      (RdmaHw.receiverCheckSeq g now rx seq bytes).2.receivedLastPsnPacket =
        rx.receivedLastPsnPacket := by
  unfold RdmaHw.receiverCheckSeq
  simp only
  split
  · split
    · exact ⟨rfl, rfl⟩
    · split
      · exact ⟨rfl, rfl⟩
      · exact ⟨rfl, rfl⟩
  · split
    · split
      · exact ⟨rfl, rfl⟩
      · exact ⟨rfl, rfl⟩
    · exact ⟨rfl, rfl⟩

theorem receiverCheckSeq_next (forward : g.backto0 = false) (seq bytes : Nat) :
    (RdmaHw.receiverCheckSeq g now rx seq bytes).2.receiverNextExpectedSeq =
      if seq = rx.receiverNextExpectedSeq then Word32.add rx.receiverNextExpectedSeq bytes
      else rx.receiverNextExpectedSeq := by
  unfold RdmaHw.receiverCheckSeq
  simp only
  split
  · split
    · rfl
    · split
      · rfl
      · rfl
  · split
    · split
      · simp [forward]
      · rfl
    · rfl

theorem receiveUdp_state (p : DataPacket) :
    ∃ checked, checked = (RdmaHw.receiverCheckSeq g now { rx with milestoneRx := g.ackInterval }
        p.seq p.payload).2 ∧
      (RdmaHw.receiveUdp g now rx p).2 = { checked with
        receivedPsn := insert p.seq checked.receivedPsn
        receivedLastPsnPacket := checked.receivedLastPsnPacket || p.last } := by
  refine ⟨_, rfl, ?_⟩
  unfold RdmaHw.receiveUdp
  simp only
  generalize (if g.packetLevelRouting = true then 1 else _) = x
  split
  · rfl
  · rfl

theorem receiveUdp_receivedPsn (p : DataPacket) :
    (RdmaHw.receiveUdp g now rx p).2.receivedPsn = insert p.seq rx.receivedPsn ∧
      (RdmaHw.receiveUdp g now rx p).2.receivedLastPsnPacket =
        (rx.receivedLastPsnPacket || p.last) := by
  obtain ⟨checked, rfl, state⟩ := @receiveUdp_state g now rx p
  obtain ⟨psns, last⟩ := @receiverCheckSeq_same g now { rx with milestoneRx := g.ackInterval }
    p.seq p.payload
  rw [state]
  exact ⟨by rw [psns], by rw [last]⟩

theorem receiveUdp_next (forward : g.backto0 = false) (p : DataPacket) :
    (RdmaHw.receiveUdp g now rx p).2.receiverNextExpectedSeq =
      if p.seq = rx.receiverNextExpectedSeq
        then Word32.add rx.receiverNextExpectedSeq p.payload
        else rx.receiverNextExpectedSeq := by
  obtain ⟨checked, rfl, state⟩ := @receiveUdp_state g now rx p
  rw [state]
  exact receiverCheckSeq_next forward p.seq p.payload

theorem Complete.grows {rx rx' : RdmaRxQueuePair} (complete : Complete g size rx)
    (more : rx.receivedPsn ⊆ rx'.receivedPsn) : Complete g size rx' :=
  fun psn inFlow => more (complete psn inFlow)

/-- In flow routing a packet that is expected moves the receiver to the next position. -/
theorem ReceiverSound.next_le (sound : ReceiverSound g size rx) (fits : size < Word32.size)
    (flow : g.packetLevelRouting = false) (forward : g.backto0 = false) {p : DataPacket}
    (packet : IsPacket g size p) :
    Aligned g size (RdmaHw.receiveUdp g now rx p).2.receiverNextExpectedSeq ∧
      rx.receiverNextExpectedSeq ≤ (RdmaHw.receiveUdp g now rx p).2.receiverNextExpectedSeq ∧
      ∀ psn, InFlow g size psn →
        psn < (RdmaHw.receiveUdp g now rx p).2.receiverNextExpectedSeq →
        psn = p.seq ∨ psn < rx.receiverNextExpectedSeq := by
  rw [receiveUdp_next forward]
  split
  · rename_i expected
    have next := packet.inFlow.next
    have bound := next.le
    rw [← expected, packet.payload, Word32.add_eq _ _ (by omega)]
    refine ⟨next, Nat.le_add_right _ _, fun psn inFlow below => ?_⟩
    have order := packet.inFlow.of_lt_next inFlow (by omega)
    omega
  · exact ⟨sound.next flow, Nat.le_refl _, fun psn _ below => .inr below⟩

theorem ReceiverSound.receiveUdp (sound : ReceiverSound g size rx) (fits : size < Word32.size)
    (usual : g.packetLevelRouting = false → g.backto0 = false) {p : DataPacket}
    (packet : IsPacket g size p) :
    ReceiverSound g size (RdmaHw.receiveUdp g now rx p).2 := by
  obtain ⟨psns, last⟩ := @receiveUdp_receivedPsn g now rx p
  refine ⟨fun psn member => ?_, fun tag => ?_, fun flow => ?_, fun flow psn inFlow below => ?_⟩
  · rw [psns] at member
    rcases Finset.mem_insert.mp member with rfl | earlier
    · exact packet.inFlow
    · exact sound.received psn earlier
  · rw [last, Bool.or_eq_true] at tag
    rw [psns]
    rcases tag with earlier | now
    · obtain ⟨psn, member, final⟩ := sound.tagged earlier
      exact ⟨psn, Finset.mem_insert_of_mem member, final⟩
    · exact ⟨p.seq, Finset.mem_insert_self _ _, packet.last.mp now⟩
  · exact (sound.next_le fits flow (usual flow) packet).1
  · rw [psns]
    rcases (sound.next_le fits flow (usual flow) packet).2.2 psn inFlow below with rfl | earlier
    · exact Finset.mem_insert_self _ _
    · exact Finset.mem_insert_of_mem (sound.below flow psn inFlow earlier)

/-- An acknowledgement stays true while the receiver goes on. -/
theorem AckSound.later {rx' : RdmaRxQueuePair} {a : AckPacket} (sound : AckSound g size rx a)
    (more : rx.receivedPsn ⊆ rx'.receivedPsn)
    (forward : g.packetLevelRouting = false →
      rx.receiverNextExpectedSeq ≤ rx'.receiverNextExpectedSeq) : AckSound g size rx' a :=
  ⟨fun last => (sound.last last).grows more,
    fun flow => ⟨(sound.seq flow).1, Nat.le_trans (sound.seq flow).2 (forward flow)⟩, sound.nack⟩

theorem receiveUdp_ack (sound : ReceiverSound g size (RdmaHw.receiveUdp g now rx p).2)
    (fits : size + g.packetPayload < Word32.size) {a : AckPacket}
    (sent : (RdmaHw.receiveUdp g now rx p).1 = some a) :
    AckSound g size (RdmaHw.receiveUdp g now rx p).2 a := by
  have told : a.last = (RdmaHw.receiveUdp g now rx p).2.receivedAll g.packetPayload ∧
      (g.packetLevelRouting = false →
        a.seq = (RdmaHw.receiveUdp g now rx p).2.receiverNextExpectedSeq) ∧
      (g.packetLevelRouting = true → a.nack = false) := by
    unfold RdmaHw.receiveUdp at sent ⊢
    simp only at sent ⊢
    generalize kind : (if g.packetLevelRouting = true then 1 else _) = x at sent ⊢
    split at sent
    · rename_i answered
      obtain rfl := Option.some.inj sent
      rw [if_pos answered]
      refine ⟨rfl, fun flow => ?_, fun packets => ?_⟩
      · simp [flow]
      · rw [if_pos packets] at kind
        simp [← kind]
    · contradiction
  refine ⟨fun last => ?_, fun flow => ?_, told.2.2⟩
  · rw [told.1, receivedAll_iff fits sound.received sound.tagged] at last
    exact last.1
  · rw [told.2.1 flow]
    exact ⟨sound.next flow, Nat.le_refl _⟩

end Receiver

section Acknowledge

variable {g : RdmaSettings} {q : RdmaQueuePair} {a : AckPacket}

theorem acknowledge_single (single : g.qpMode = false) :
    (RdmaHw.acknowledge g q a = (.none, q)) ∨
      (RdmaHw.acknowledge g q a).2.current = q.current.acknowledge g (ackSeq g a) a.last ∧
        ((RdmaHw.acknowledge g q a).1 = .qp →
          (q.current.acknowledge g (ackSeq g a) a.last).isFinished g = true) := by
  unfold RdmaHw.acknowledge ackSeq
  generalize (if g.backto0 = true then a.seq / g.chunk * g.chunk else a.seq) = seq
  simp only [single, Bool.not_false, if_true]
  split
  · exact .inl rfl
  · refine .inr ?_
    split
    · rename_i finished
      exact ⟨rfl, fun _ => finished⟩
    · exact ⟨rfl, fun complete => by contradiction⟩

theorem acknowledge_receivedLastAck {m : MsgStatus} {ack : Nat} {last : Bool}
    (done : (m.acknowledge g ack last).receivedLastAck = true) :
    m.receivedLastAck = true ∨ last = true := by
  unfold MsgStatus.acknowledge at done
  split at done
  · simp only at done
    split at done
    · rename_i told
      exact .inr told
    · split at done
      · exact .inl done
      · exact .inl done
  · split at done
    · exact .inl done
    · exact .inl done

theorem acknowledge_sndUna {m : MsgStatus} (flow : g.packetLevelRouting = false) (ack : Nat)
    (last : Bool) : (m.acknowledge g ack last).sndUna = max m.sndUna ack := by
  unfold MsgStatus.acknowledge
  simp only [flow, Bool.false_eq_true, if_false]
  split
  · rename_i above
    exact (Nat.max_eq_right (Nat.le_of_lt above)).symm
  · rename_i below
    exact (Nat.max_eq_left (Nat.not_lt.mp below)).symm

/-- The sender after `ReceiveAck`, which may have gone back to `snd_una`. -/
theorem reactToNack_single (single : g.qpMode = false) :
    (RdmaHw.reactToNack g q a).current =
      if a.nack && g.nackReaction then q.current.pullBack else q.current := by
  unfold RdmaHw.reactToNack
  split
  · simp [single]
  · rfl

end Acknowledge

section Steps

open RdmaFlow

variable {g : RdmaSettings} {size : Nat} {s next : RdmaFlow}

theorem FlowSound.create (g : RdmaSettings) (size flowId sport : Nat) :
    FlowSound g size (create g size flowId sport) := by
  refine ⟨⟨rfl, zero_aligned, zero_aligned, ?_⟩, ⟨?_, ?_, fun _ => zero_aligned, ?_⟩, ?_, ?_, ?_, ?_⟩
  · rintro psn (sent | late)
    · exact absurd sent (Finset.notMem_empty psn)
    · exact absurd late (Finset.notMem_empty psn)
  · exact fun psn member => absurd member (Finset.notMem_empty psn)
  · exact fun tag => by contradiction
  · exact fun _ psn _ below => absurd below (Nat.not_lt_zero psn)
  · exact fun p member => by contradiction
  · exact fun a member => by contradiction
  · exact fun _ => Nat.le_refl _
  · exact fun done => by contradiction

theorem FlowSound.sent (sound : FlowSound g size s) (single : g.qpMode = false)
    (mtu : g.mtu = g.packetPayload) (fits : size + g.packetPayload < Word32.size)
    {p : DataPacket} {qp : RdmaQueuePair} (left : 0 < s.qp.getBytesLeft g)
    (success : RdmaHw.getNxtPacket g s.now s.qp = .ok (p, qp)) :
    FlowSound g size { s with qp := qp, data := s.data ++ [p] } := by
  obtain ⟨seq, m, chosen, rfl, reset⟩ := getNxtPacket_single single success
  have small : size < Word32.size := by omega
  obtain ⟨inFlow, sender, _, una, last⟩ := sound.sender.chooseSeq small left chosen
  have packet := packetAt_isPacket mtu fits m sender.sized inFlow
  have current := (resetTimer_current single reset).1
  have moved : qp.current.sndUna = m.sndUna ∧ qp.current.receivedLastAck = m.receivedLastAck := by
    rw [current]
    unfold RdmaHw.advance
    split
    · exact ⟨rfl, rfl⟩
    · exact ⟨rfl, rfl⟩
  refine ⟨?_, sound.receiver, ?_, sound.acks, fun flow => ?_, fun done => ?_⟩
  · rw [current]
    exact sender.advance small packet
  · intro p member
    rcases List.mem_append.mp member with earlier | new
    · exact sound.data p earlier
    · rw [List.mem_singleton.mp new]
      exact packet
  · rw [moved.1, una]
    exact sound.una flow
  · rw [moved.2, last] at done
    exact sound.finished done

theorem FlowSound.arrived (sound : FlowSound g size s)
    (usual : g.packetLevelRouting = false → g.backto0 = false)
    (fits : size + g.packetPayload < Word32.size) {p : DataPacket} (sent : p ∈ s.data) :
    FlowSound g size { s with
      rx := (RdmaHw.receiveUdp g s.now s.rx p).2
      acks := s.acks ++ (RdmaHw.receiveUdp g s.now s.rx p).1.toList } := by
  have small : size < Word32.size := by omega
  have packet := sound.data p sent
  have receiver := @ReceiverSound.receiveUdp g size s.now s.rx sound.receiver small usual p packet
  have more : s.rx.receivedPsn ⊆ (RdmaHw.receiveUdp g s.now s.rx p).2.receivedPsn := by
    rw [(receiveUdp_receivedPsn p).1]
    exact Finset.subset_insert _ _
  have forward : g.packetLevelRouting = false → s.rx.receiverNextExpectedSeq ≤
      (RdmaHw.receiveUdp g s.now s.rx p).2.receiverNextExpectedSeq :=
    fun flow => (sound.receiver.next_le small flow (usual flow) packet).2.1
  refine ⟨sound.sender, receiver, sound.data, ?_, fun flow => ?_, fun done => ?_⟩
  · intro a member
    rcases List.mem_append.mp member with earlier | new
    · exact (sound.acks a earlier).later more forward
    · exact receiveUdp_ack receiver fits (Option.mem_toList.mp new)
  · exact Nat.le_trans (sound.una flow) (forward flow)
  · exact (sound.finished done).grows more

/-- What the sender knows after an acknowledgement is what the receiver has said. -/
theorem FlowSound.acknowledged (sound : FlowSound g size s) (single : g.qpMode = false)
    (usual : g.packetLevelRouting = false → g.backto0 = false) {a : AckPacket}
    (sent : a ∈ s.acks) :
    FlowSound g size { s with qp := (RdmaHw.acknowledge g s.qp a).2 } := by
  rcases acknowledge_single (q := s.qp) (a := a) single with nothing | ⟨current, _⟩
  · rw [nothing]
    exact sound
  · have told := sound.acks a sent
    have seq : g.packetLevelRouting = false → ackSeq g a = a.seq := by
      intro flow
      simp [ackSeq, usual flow]
    refine ⟨?_, sound.receiver, sound.data, sound.acks, fun flow => ?_, fun done => ?_⟩
    · rw [current]
      apply sound.sender.acknowledge
      intro flow
      rw [seq flow]
      exact (told.seq flow).1
    · rw [current, acknowledge_sndUna flow, seq flow]
      exact Nat.max_le.mpr ⟨sound.una flow, (told.seq flow).2⟩
    · rw [current] at done
      rcases acknowledge_receivedLastAck done with earlier | last
      · exact sound.finished earlier
      · exact told.last last

theorem FlowSound.congr (sound : FlowSound g size s) {qp : RdmaQueuePair} {now : Nat}
    (current : qp.current = s.qp.current) : FlowSound g size { s with now := now, qp := qp } := by
  refine ⟨?_, sound.receiver, sound.data, sound.acks, fun flow => ?_, fun done => ?_⟩
  · rw [current]
    exact sound.sender
  · rw [current]
    exact sound.una flow
  · rw [current] at done
    exact sound.finished done

theorem FlowSound.answered (sound : FlowSound g size s) (single : g.qpMode = false)
    (usual : g.packetLevelRouting = false → g.backto0 = false) {a : AckPacket}
    {completion : Completion} {qp : RdmaQueuePair} (sent : a ∈ s.acks)
    (received : RdmaHw.receiveAck g s.now s.qp a = .ok (completion, qp)) :
    FlowSound g size { s with qp := qp } := by
  have acked := sound.acknowledged single usual sent
  obtain ⟨-, current, -⟩ := receiveAck_single single received
  rw [reactToNack_single single] at current
  by_cases back : (a.nack && g.nackReaction) = true
  · rw [if_pos back] at current
    refine ⟨?_, sound.receiver, sound.data, sound.acks, fun flow => ?_, fun done => ?_⟩
    · rw [current]
      exact acked.sender.pullBack
    · rw [current]
      exact acked.una flow
    · rw [current] at done
      exact acked.finished done
  · rw [if_neg back] at current
    exact @FlowSound.congr g size _ acked qp s.now current

theorem FlowSound.step (sound : FlowSound g size s) (single : g.qpMode = false)
    (mtu : g.mtu = g.packetPayload) (fits : size + g.packetPayload < Word32.size)
    (usual : g.packetLevelRouting = false → g.backto0 = false) {label : FlowEvent × Completion}
    (step : Step g s label next) : FlowSound g size next := by
  cases step with
  | send left room next => exact sound.sent single mtu fits left next
  | data sent => exact sound.arrived usual fits sent
  | ack sent received => exact sound.answered single usual sent received
  | timeout due =>
      exact ⟨sound.sender.recover, sound.receiver, sound.data, sound.acks, sound.una,
        sound.finished⟩
  | pace rate => exact @FlowSound.congr g size s sound _ s.now rfl
  | wait forward before => exact sound.congr rfl

end Steps

namespace RdmaFlow

/-- What completion means at the sender of a flow of `size` bytes, in one state and in the next
step from there. -/
structure CompletionSafe (g : RdmaSettings) (size : Nat) (s : RdmaFlow) : Prop where
  complete : g.packetLevelRouting = false → g.backto0 = false → ∀ event next,
    Step g s (event, .qp) next → size ≤ next.rx.receiverNextExpectedSeq ∧ Complete g size next.rx
  finished : g.packetLevelRouting = true → s.qp.isFinished g = true → Complete g size s.rx
  receivedAll : g.packetLevelRouting = true →
    (s.rx.receivedAll g.packetPayload = true ↔
      Complete g size s.rx ∧ s.rx.receivedLastPsnPacket = true)

/-- Whatever the network loses, repeats and reorders, the sender does not finish too early. -/
theorem completion_safe (g : RdmaSettings) (size flowId sport : Nat) (single : g.qpMode = false)
    (mtu : g.mtu = g.packetPayload) (fits : size < Word32.size - g.mtu)
    (labels : List (FlowEvent × Completion)) (s : RdmaFlow)
    (run : Run (Step g) (create g size flowId sport) labels s) : CompletionSafe g size s := by
  have total : size + g.packetPayload < Word32.size := by omega
  have sound : (g.packetLevelRouting = false → g.backto0 = false) → FlowSound g size s := by
    intro usual
    exact run.invariant (FlowSound g size) (FlowSound.create g size flowId sport)
      fun _ _ _ sound step => sound.step single mtu total usual step
  refine ⟨fun flow forward event next step => ?_, fun packets finished => ?_, fun packets => ?_⟩
  · have sound := sound fun _ => forward
    have later := sound.step single mtu total (fun _ => forward) step
    have reached : size ≤ next.rx.receiverNextExpectedSeq := by
      cases step with
      | @ack a _ qp sent received =>
          obtain ⟨completion, _, _⟩ := receiveAck_single single received
          rcases acknowledge_single (q := s.qp) (a := a) single with nothing | ⟨current, done⟩
          · rw [nothing] at completion
            contradiction
          · have acked := sound.acknowledged single (fun _ => forward) sent
            have finished := done completion.symm
            rw [← current] at finished
            simp only [MsgStatus.isFinished, flow, Bool.not_false, if_true, decide_eq_true_eq,
              ge_iff_le] at finished
            rw [acked.sender.sized] at finished
            exact Nat.le_trans finished (acked.una flow)
    refine ⟨reached, fun psn inFlow => ?_⟩
    exact later.receiver.below flow psn inFlow (Nat.lt_of_lt_of_le inFlow.2 reached)
  · have sound := sound fun flow => by rw [packets] at flow; contradiction
    apply sound.finished
    simpa only [RdmaQueuePair.isFinished, MsgStatus.isFinished, packets, Bool.not_true,
      Bool.false_eq_true, if_false] using finished
  · have sound := sound fun flow => by rw [packets] at flow; contradiction
    exact receivedAll_iff total sound.receiver.received sound.receiver.tagged

/-- Acknowledgements for every packet, on a single path and without `qp_mode`. -/
def singlePath : RdmaSettings where
  mtu := 1000
  packetPayload := 1000
  packetLevelRouting := false
  qpMode := false
  nackReaction := true
  resetQpRate := false
  backto0 := false
  rtoUs := 5
  ackInterval := 1
  chunk := 4000
  nackInterval := 500
  initial := ⟨0, false, 0, 0⟩

theorem completion_safe_one_packet : ∃ s,
    Run (Step singlePath) (create singlePath 1000 0 0)
      [(.send, .none), (.data ⟨0, 1000, 0, 0, 0, true⟩, .none), (.ack ⟨1000, false, 0, true⟩, .qp)]
      s ∧ CompletionSafe singlePath 1000 s := by
  have sent := Run.single (Step.send (g := singlePath) (s := create singlePath 1000 0 0)
    (by decide) (by decide) rfl)
  have arrived := sent.snoc (Step.data (List.mem_singleton.mpr rfl))
  have acked := arrived.snoc (Step.ack (a := ⟨1000, false, 0, true⟩) (by decide +kernel) rfl)
  exact ⟨_, acked, completion_safe singlePath 1000 0 0 rfl rfl (by decide) _ _ acked⟩
end RdmaFlow

end Floodgate
