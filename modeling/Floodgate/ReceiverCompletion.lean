import Floodgate.GoBackN

/-! When the receiver of a flow announces that it has everything. -/

namespace Floodgate

open Outcome LabelledRun RdmaFlow

/-- A sender of a flow of `size` bytes makes this packet, at whatever sequence number it stands. -/
structure FromSender (g : RdmaSettings) (size : Nat) (p : DataPacket) : Prop where
  below : p.seq < size
  last : p.last = true ↔ size ≤ Word32.add p.seq g.mtu
  payload : p.payload = if p.last then Word32.trunc (sub64 size p.seq) else g.mtu

def rcvFinish (g : RdmaSettings) (now : Nat) (rx : RdmaRxQueuePair) (p : DataPacket) : Prop :=
  (RdmaHw.receiveUdp g now rx p).1.isSome ∧
    (RdmaHw.receiveUdp g now rx p).2.receivedAll g.packetPayload = true

/-- `RcvFinish` is called, and the `LastPacketTag` put on the answer, with all bytes accepted in
order only. -/
structure AnnouncesComplete (g : RdmaSettings) (size now : Nat) (rx : RdmaRxQueuePair)
    (p : DataPacket) : Prop where
  finish : rcvFinish g now rx p →
    (RdmaHw.receiveUdp g now rx p).2.receiverNextExpectedSeq = size
  tag : ∀ a, (RdmaHw.receiveUdp g now rx p).1 = some a → a.last = true →
    (RdmaHw.receiveUdp g now rx p).2.receiverNextExpectedSeq = size

/-- With `p`, everything up to a last packet has arrived at least once, accepted or not. -/
def Arrived (g : RdmaSettings) (rx : RdmaRxQueuePair) (p : DataPacket) : Prop :=
  (rx.receivedLastPsnPacket = true ∨ p.last = true) ∧
    RdmaRxQueuePair.inSequence g.packetPayload 0 ((insert p.seq rx.receivedPsn).sort (· ≤ ·)) = true

/-- `ReceiverCheckSeq` asks for an answer: an ACK, or a NACK that is not suppressed. -/
def Answered (g : RdmaSettings) (now : Nat) (rx : RdmaRxQueuePair) (p : DataPacket) : Prop :=
  let next := Word32.add rx.receiverNextExpectedSeq p.payload
  p.seq = rx.receiverNextExpectedSeq ∧ (g.ackInterval ≤ next ∨ next % g.chunk = 0) ∨
    rx.receiverNextExpectedSeq < p.seq ∧
      (rx.nackTimer ≤ now ∨ rx.lastNACK ≠ rx.receiverNextExpectedSeq)

/-- The condition on an arrival: if it is answered and the last one missing, it is the last packet
of the flow and in order. -/
def ArrivesInOrder (g : RdmaSettings) (now : Nat) (rx : RdmaRxQueuePair) (p : DataPacket) : Prop :=
  Answered g now rx p → Arrived g rx p →
    p.seq = rx.receiverNextExpectedSeq ∧ p.last = true

section Receiver

variable {g : RdmaSettings} {size now : Nat} {rx : RdmaRxQueuePair} {p : DataPacket}

theorem receiveUdp_answered (flow : g.packetLevelRouting = false) :
    (RdmaHw.receiveUdp g now rx p).1.isSome ↔ Answered g now rx p := by
  unfold RdmaHw.receiveUdp RdmaHw.receiverCheckSeq Answered
  simp only [flow, Bool.false_eq_true, if_false]
  by_cases expected : p.seq = rx.receiverNextExpectedSeq
  · simp only [expected, if_true, lt_irrefl, false_and, or_false, true_and]
    by_cases milestone : Word32.add rx.receiverNextExpectedSeq p.payload ≥ g.ackInterval
    · simp [milestone]
    · by_cases chunk : Word32.add rx.receiverNextExpectedSeq p.payload % g.chunk = 0
      · simp [milestone, chunk]
      · simp [milestone, chunk]
  · simp only [expected, if_false, false_and, false_or]
    by_cases above : p.seq > rx.receiverNextExpectedSeq
    · by_cases due : (now ≥ rx.nackTimer || decide (rx.lastNACK ≠ rx.receiverNextExpectedSeq)) = true
      · simp only [above, if_true, due]
        simpa [above] using due
      · simp only [above, if_true, due]
        simpa [above] using due
    · simp [above]

theorem receiveUdp_receivedAll :
    (RdmaHw.receiveUdp g now rx p).2.receivedAll g.packetPayload = true ↔ Arrived g rx p := by
  obtain ⟨psns, last⟩ := @receiveUdp_receivedPsn g now rx p
  unfold RdmaRxQueuePair.receivedAll Arrived
  rw [psns, last, Bool.and_eq_true, Bool.or_eq_true]

theorem receiveUdp_last {a : AckPacket} (sent : (RdmaHw.receiveUdp g now rx p).1 = some a) :
    a.last = (RdmaHw.receiveUdp g now rx p).2.receivedAll g.packetPayload := by
  unfold RdmaHw.receiveUdp at sent ⊢
  simp only at sent ⊢
  generalize (if g.packetLevelRouting = true then 1 else _) = x at sent ⊢
  split at sent
  · rename_i answered
    obtain rfl := Option.some.inj sent
    rw [if_pos answered]
  · contradiction

/-- A packet brings the receiver to the end of the flow exactly if it is the last one and in
order, unless the receiver expects as much or more. -/
theorem FromSender.ends (sent : FromSender g size p) (fits : size < Word32.size)
    (answered : Answered g now rx p) :
    (if p.seq = rx.receiverNextExpectedSeq then Word32.add rx.receiverNextExpectedSeq p.payload
      else rx.receiverNextExpectedSeq) = size ↔
      p.seq = rx.receiverNextExpectedSeq ∧ p.last = true := by
  have below := sent.below
  by_cases expected : p.seq = rx.receiverNextExpectedSeq
  · rw [if_pos expected, ← expected, sent.payload]
    cases last : p.last with
    | true =>
        have rest : sub64 size p.seq = size - p.seq := by
          unfold Word32.size at fits
          unfold sub64
          omega
        rw [if_pos rfl, rest, Word32.trunc_eq _ (by omega), Word32.add_eq _ _ (by omega)]
        exact iff_of_true (by omega) ⟨rfl, rfl⟩
    | false =>
        have middle : ¬ size ≤ Word32.add p.seq g.mtu := by
          rw [← sent.last, last]
          exact Bool.false_ne_true
        simp only [Bool.false_eq_true, if_false, and_false, iff_false]
        omega
  · rw [if_neg expected]
    refine iff_of_false (fun done => ?_) fun order => expected order.1
    rcases answered with ⟨same, _⟩ | ⟨above, _⟩
    · exact expected same
    · omega

/-- One arrival is announced rightly exactly under the condition. -/
theorem announces_iff (flow : g.packetLevelRouting = false) (forward : g.backto0 = false)
    (fits : size < Word32.size) (sent : FromSender g size p) :
    ArrivesInOrder g now rx p ↔ AnnouncesComplete g size now rx p := by
  have next := @receiveUdp_next g now rx forward p
  have called : rcvFinish g now rx p ↔ Answered g now rx p ∧ Arrived g rx p := by
    unfold rcvFinish
    rw [receiveUdp_answered flow, receiveUdp_receivedAll]
  constructor
  · intro inOrder
    have finish : rcvFinish g now rx p →
        (RdmaHw.receiveUdp g now rx p).2.receiverNextExpectedSeq = size := by
      intro finished
      obtain ⟨answered, arrived⟩ := called.mp finished
      rw [next, sent.ends fits answered]
      exact inOrder answered arrived
    refine ⟨finish, fun a answer last => finish ⟨by rw [answer]; rfl, ?_⟩⟩
    rw [← receiveUdp_last answer]
    exact last
  · intro complete answered arrived
    have done := complete.finish (called.mpr ⟨answered, arrived⟩)
    rw [next, sent.ends fits answered] at done
    exact done

end Receiver

section Sender

variable {g : RdmaSettings} {size : Nat} {s next : RdmaFlow}

/-- The sender keeps to its size, and every packet is one of the flow. -/
structure SendsFlow (g : RdmaSettings) (size : Nat) (s : RdmaFlow) : Prop where
  sized : s.qp.current.size = size
  data : ∀ p ∈ s.data, FromSender g size p

theorem packetAt_fromSender {m : MsgStatus} {seq : Nat} (below : seq < m.size) :
    FromSender g m.size (RdmaHw.packetAt g m seq) :=
  ⟨below, by simp [RdmaHw.packetAt], by simp [RdmaHw.packetAt]⟩

theorem acknowledge_size (m : MsgStatus) (ack : Nat) (last : Bool) :
    (m.acknowledge g ack last).size = m.size := by
  unfold MsgStatus.acknowledge
  split
  · simp only
    split_ifs
    all_goals rfl
  · split
    · rfl
    · rfl

theorem SendsFlow.step (sends : SendsFlow g size s) (single : g.qpMode = false)
    (flow : g.packetLevelRouting = false) {label : FlowEvent × Completion}
    (step : Step g s label next) : SendsFlow g size next := by
  cases step with
  | @send p qp left room sent =>
      obtain ⟨seq, m, chosen, rfl, reset⟩ := getNxtPacket_single single sent
      rw [chooseSeq_flow flow] at chosen
      obtain ⟨rfl, rfl⟩ := Prod.mk.inj (Except.ok.inj chosen)
      have current := (resetTimer_current single reset).1
      have unsent : s.qp.current.sndNxt < s.qp.current.size := by
        rw [RdmaQueuePair.getBytesLeft, MsgStatus.getBytesLeft_flow flow] at left
        omega
      have below : Word32.trunc s.qp.current.sndNxt < s.qp.current.size :=
        Nat.lt_of_le_of_lt (Word32.trunc_le _) unsent
      refine ⟨?_, ?_⟩
      · rw [current]
        unfold RdmaHw.advance
        split
        · exact sends.sized
        · exact sends.sized
      · intro p member
        rcases List.mem_append.mp member with earlier | new
        · exact sends.data p earlier
        · rw [List.mem_singleton.mp new, ← sends.sized]
          exact packetAt_fromSender below
  | data sent => exact ⟨sends.sized, sends.data⟩
  | @ack a _ qp sent received =>
      refine ⟨?_, sends.data⟩
      obtain ⟨-, current, -⟩ := receiveAck_single single received
      have acked : (RdmaHw.acknowledge g s.qp a).2.current.size = s.qp.current.size := by
        rcases acknowledge_single (q := s.qp) (a := a) single with nothing | ⟨told, _⟩
        · rw [nothing]
        · rw [told, acknowledge_size]
      rw [current, reactToNack_single single]
      split
      · exact acked.trans sends.sized
      · exact acked.trans sends.sized
  | timeout due => exact ⟨sends.sized, sends.data⟩
  | pace rate => exact ⟨sends.sized, sends.data⟩
  | wait forward before => exact ⟨sends.sized, sends.data⟩

end Sender

namespace RdmaFlow

/-- The condition on an event of a run. -/
def DeliversInOrder (g : RdmaSettings) (s : RdmaFlow) : FlowEvent → Prop
  | .data p => ArrivesInOrder g s.now s.rx p
  | _ => True

/-- The receiver announces completion rightly in an event of a run. -/
def AnnouncedComplete (g : RdmaSettings) (size : Nat) (s : RdmaFlow) : FlowEvent → Prop
  | .data p => AnnouncesComplete g size s.now s.rx p
  | _ => True

theorem SendsFlow.create (g : RdmaSettings) (size flowId sport : Nat) :
    SendsFlow g size (create g size flowId sport) :=
  ⟨rfl, fun _ member => by contradiction⟩

/-- Over a whole run the receiver announces completion only with the whole flow accepted in order,
exactly if no other packet than the last one in order is answered as the last one missing. -/
theorem receiver_announces (g : RdmaSettings) (size flowId sport : Nat) (single : g.qpMode = false)
    (flow : g.packetLevelRouting = false) (forward : g.backto0 = false)
    (fits : size < Word32.size) (entries : List (RdmaFlow × (FlowEvent × Completion)))
    (s : RdmaFlow) (run : Run (Traced (Step g)) (create g size flowId sport) entries s) :
    (∀ entry ∈ entries, DeliversInOrder g entry.1 entry.2.1) ↔
      ∀ entry ∈ entries, AnnouncedComplete g size entry.1 entry.2.1 := by
  have sends := (run.holds_along (SendsFlow g size) (fun _ _ => True)
    (SendsFlow.create g size flowId sport)
    (fun _ _ _ sends _ step => sends.step single flow step) fun _ _ => trivial).1
  have each : ∀ entry ∈ entries, DeliversInOrder g entry.1 entry.2.1 ↔
      AnnouncedComplete g size entry.1 entry.2.1 := by
    rintro ⟨s, event, completion⟩ member
    obtain ⟨next, step⟩ := run.taken _ member
    cases step with
    | data sent => exact announces_iff flow forward fits ((sends _ member).data _ sent)
    | _ => exact Iff.rfl
  exact forall₂_congr each

/-- The one packet of a flow sent and received. -/
theorem receiver_announces_one_packet :
    ∃ entries : List (RdmaFlow × (FlowEvent × Completion)),
    entries.map Prod.snd = [(.send, .none), (.data ⟨0, 1000, 0, 0, 0, true⟩, .none)] ∧
    ((∀ entry ∈ entries, DeliversInOrder singlePath entry.1 entry.2.1) ↔
      ∀ entry ∈ entries, AnnouncedComplete singlePath 1000 entry.1 entry.2.1) := by
  have sent : Run (Step singlePath) (create singlePath 1000 0 0) _ _ :=
    Run.single (Step.send (by decide) (by decide) rfl)
  have arrived := sent.snoc (Step.data (List.mem_singleton.mpr rfl))
  obtain ⟨entries, traced, labels⟩ := arrived.traced
  exact ⟨entries, labels, receiver_announces singlePath 1000 0 0 rfl rfl rfl (by decide) entries
    _ traced⟩

/-- Of two packets the last overtakes the first: it is rejected, and still counts. -/
theorem rejected_packet_completes : ¬ ∀ (g : RdmaSettings) (size flowId sport : Nat),
    g.qpMode = false → g.packetLevelRouting = false → g.backto0 = false → size < Word32.size →
    ∀ (entries : List (RdmaFlow × (FlowEvent × Completion))) (s : RdmaFlow),
      Run (Traced (Step g)) (create g size flowId sport) entries s →
      ∀ entry ∈ entries, AnnouncedComplete g size entry.1 entry.2.1 := by
  intro claim
  have first : Run (Step singlePath) (create singlePath 2000 0 0) _ _ :=
    Run.single (Step.send (by decide) (by decide) rfl)
  have second := first.snoc (Step.send (by decide) (by decide) rfl)
  have rejected := second.snoc (Step.data (p := ⟨1000, 1000, 0, 0, 0, true⟩) (by decide))
  obtain ⟨entries, traced, -⟩ := rejected.traced
  have finished := traced.told (Step.data (p := ⟨0, 1000, 0, 0, 0, false⟩) (by decide))
  have complete := claim singlePath 2000 0 0 rfl rfl rfl (by decide) _ _ finished _
    (List.mem_append_right _ (List.mem_singleton.mpr rfl))
  have order : (insert 0 (insert 1000 ∅) : Finset Nat).sort (· ≤ ·) = [0, 1000] := by
    rw [Finset.sort_insert _ (by simp) (by simp), insert_empty_eq, Finset.sort_singleton]
  have arrived : RdmaRxQueuePair.inSequence 1000 0
      ((insert 0 (insert 1000 ∅) : Finset Nat).sort (· ≤ ·)) = true := by
    rw [order]
    rfl
  have called := complete.finish
    ⟨by decide +kernel, receiveUdp_receivedAll.mpr ⟨.inl rfl, arrived⟩⟩
  exact absurd called (by decide +kernel)

end RdmaFlow

end Floodgate
