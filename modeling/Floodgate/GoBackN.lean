import Floodgate.RdmaFlow

/-! The window arithmetic of a go-back-N sender: what it takes to keep `snd_una`, `snd_nxt` and the
size in order. -/

namespace Floodgate

open Outcome LabelledRun RdmaFlow

structure WindowInOrder (g : RdmaSettings) (q : RdmaQueuePair) : Prop where
  una : q.current.sndUna ≤ q.current.sndNxt
  nxt : q.current.sndNxt ≤ q.current.size
  onTheFly : q.getOnTheFly g = .ok (q.current.sndNxt - q.current.sndUna)
  window : q.pacing.win ≠ 0 → q.pacing.varWin = false →
    q.current.sndNxt - q.current.sndUna ≤ q.pacing.win + g.mtu
  unbound : q.isFinished g = false → q.isWinBound g = .ok true →
    q.current.sndUna < q.current.sndNxt

/-- The condition on a step: no packet is sent that the 32-bit arithmetic takes for a middle one
though it reaches past the end, and no acknowledgement goes beyond what the sender is at. -/
def StaysInOrder (g : RdmaSettings) (s : RdmaFlow) : FlowEvent × Completion → Prop
  | (.send, _) => Word32.size ≤ s.qp.current.sndNxt ∨
      s.qp.current.sndNxt + g.mtu < Word32.size ∨
      s.qp.current.sndNxt + g.mtu ≤ s.qp.current.size
  | (.ack a, _) => g.ackInterval = 0 ∨
      if a.nack && g.nackReaction then a.seq ≤ s.qp.current.size
      else a.seq ≤ s.qp.current.sndNxt
  | _ => True

structure SenderBounds (g : RdmaSettings) (q : RdmaQueuePair) : Prop where
  size : q.current.size < 18446744073709551616
  window : q.pacing.win ≠ 0 → q.pacing.varWin = false →
    q.current.sndNxt ≤ q.current.sndUna + q.pacing.win + g.mtu

section Steps

variable {g : RdmaSettings} {q : RdmaQueuePair}

theorem sub64_eq {left right : Nat} (order : right ≤ left) (fits : left < 18446744073709551616) :
    sub64 left right = left - right := by
  unfold sub64
  omega

theorem onTheFly_flow (flow : g.packetLevelRouting = false) :
    q.getOnTheFly g = .ok (sub64 q.current.sndNxt q.current.sndUna) := by
  simp [RdmaQueuePair.getOnTheFly, MsgStatus.getOnTheFly, flow]

theorem isWinBound_flow (flow : g.packetLevelRouting = false) :
    q.isWinBound g = .ok (decide (q.pacing.getWin ≠ 0) &&
      decide (q.pacing.getWin ≤ sub64 q.current.sndNxt q.current.sndUna)) := by
  unfold RdmaQueuePair.isWinBound
  rw [onTheFly_flow flow]
  by_cases none : q.pacing.getWin = 0
  · simp [none]
  · simp [none]

theorem windowInOrder_iff (flow : g.packetLevelRouting = false) (bounds : SenderBounds g q) :
    WindowInOrder g q ↔
      q.current.sndUna ≤ q.current.sndNxt ∧ q.current.sndNxt ≤ q.current.size := by
  constructor
  · intro order
    exact ⟨order.una, order.nxt⟩
  · rintro ⟨una, nxt⟩
    have fits := bounds.size
    have difference := sub64_eq una (by omega)
    refine ⟨una, nxt, ?_, fun some fixed => ?_, fun unfinished bound => ?_⟩
    · rw [onTheFly_flow flow, difference]
    · have limit := bounds.window some fixed
      omega
    · rw [isWinBound_flow flow, difference] at bound
      simp only [Except.ok.injEq, Bool.and_eq_true, decide_eq_true_eq] at bound
      omega

/-- How far one packet moves `snd_nxt`: not at all once it needs more than 32 bits, to the end for a
last packet and by the MTU otherwise. -/
theorem advance_sndNxt (mtu : g.mtu < Word32.size) {m : MsgStatus} (left : m.sndNxt < m.size)
    (fits : m.size < 18446744073709551616) :
    (RdmaHw.advance m (RdmaHw.packetAt g m (Word32.trunc m.sndNxt))).sndNxt =
      if Word32.size ≤ m.sndNxt then m.sndNxt
      else if m.sndNxt + g.mtu < Word32.size then min (m.sndNxt + g.mtu) m.size
      else m.sndNxt + g.mtu := by
  by_cases large : Word32.size ≤ m.sndNxt
  · have other : ¬ (Word32.trunc m.sndNxt = m.sndNxt) := by
      have small := Word32.trunc_lt m.sndNxt
      omega
    have away : (RdmaHw.packetAt g m (Word32.trunc m.sndNxt)).seq ≠ m.sndNxt := other
    rw [if_pos large]
    unfold RdmaHw.advance
    rw [if_neg away]
  · have same : Word32.trunc m.sndNxt = m.sndNxt := Word32.trunc_eq _ (by omega)
    have rest : sub64 m.size m.sndNxt = m.size - m.sndNxt := sub64_eq (by omega) fits
    rw [if_neg large, same]
    simp only [RdmaHw.advance, RdmaHw.packetAt, if_true, rest]
    by_cases wraps : m.sndNxt + g.mtu < Word32.size
    · rw [if_pos wraps, Word32.add_eq _ _ wraps]
      by_cases last : m.sndNxt + g.mtu ≥ m.size
      · have short : Word32.trunc (m.size - m.sndNxt) = m.size - m.sndNxt :=
          Word32.trunc_eq _ (by omega)
        simp only [last, decide_true, if_true, short]
        unfold Word32.size at wraps mtu
        omega
      · simp only [last, decide_false, Bool.false_eq_true, if_false]
        unfold Word32.size at wraps mtu
        omega
    · rw [if_neg wraps]
      have wrapped : Word32.add m.sndNxt g.mtu < m.size := by
        unfold Word32.add
        unfold Word32.size at wraps mtu large
        omega
      have middle : ¬ (Word32.add m.sndNxt g.mtu ≥ m.size) := by omega
      simp only [middle, decide_false, Bool.false_eq_true, if_false]
      unfold Word32.size at mtu large
      omega

structure Moves (g : RdmaSettings) (before after : RdmaQueuePair) (una nxt : Nat) : Prop where
  size : after.current.size = before.current.size
  una : after.current.sndUna = una
  nxt : after.current.sndNxt = nxt
  win : after.pacing.win = before.pacing.win
  varWin : after.pacing.varWin = before.pacing.varWin

theorem getNxtPacket_moves (single : g.qpMode = false) (flow : g.packetLevelRouting = false)
    (mtu : g.mtu < Word32.size) (bounds : SenderBounds g q) (left : 0 < q.getBytesLeft g)
    {now : Nat} {p : DataPacket} {after : RdmaQueuePair}
    (success : RdmaHw.getNxtPacket g now q = .ok (p, after)) :
    Moves g q after q.current.sndUna
      (if Word32.size ≤ q.current.sndNxt then q.current.sndNxt
      else if q.current.sndNxt + g.mtu < Word32.size then
        min (q.current.sndNxt + g.mtu) q.current.size
      else q.current.sndNxt + g.mtu) := by
  obtain ⟨seq, m, chosen, rfl, reset⟩ := getNxtPacket_single single success
  rw [chooseSeq_flow flow] at chosen
  obtain ⟨rfl, rfl⟩ := Prod.mk.inj (Except.ok.inj chosen)
  obtain ⟨current, pacing⟩ := resetTimer_current single reset
  have unsent : q.current.sndNxt < q.current.size := by
    rw [RdmaQueuePair.getBytesLeft, MsgStatus.getBytesLeft_flow flow] at left
    omega
  have same : ∀ p, (RdmaHw.advance q.current p).size = q.current.size ∧
      (RdmaHw.advance q.current p).sndUna = q.current.sndUna := by
    intro p
    unfold RdmaHw.advance
    split
    · exact ⟨rfl, rfl⟩
    · exact ⟨rfl, rfl⟩
  refine ⟨?_, ?_, ?_, by rw [pacing], by rw [pacing]⟩
  · rw [current, (same _).1]
  · rw [current, (same _).2]
  · rw [current]
    exact advance_sndNxt mtu unsent bounds.size

theorem receiveAck_moves (single : g.qpMode = false) (flow : g.packetLevelRouting = false)
    (forward : g.backto0 = false) {now : Nat} {a : AckPacket} {completion : Completion}
    {after : RdmaQueuePair}
    (success : RdmaHw.receiveAck g now q a = .ok (completion, after)) :
    ∃ una, una = (if g.ackInterval = 0 then q.current.sndUna else max q.current.sndUna a.seq) ∧
      Moves g q after una (if a.nack && g.nackReaction then una else q.current.sndNxt) := by
  obtain ⟨-, current, pacing⟩ := receiveAck_single single success
  have acked : Moves g q (RdmaHw.acknowledge g q a).2
      (if g.ackInterval = 0 then q.current.sndUna else max q.current.sndUna a.seq)
      q.current.sndNxt := by
    unfold RdmaHw.acknowledge
    simp only [forward, Bool.false_eq_true, if_false, single, Bool.not_false, if_true]
    split
    · exact ⟨rfl, rfl, rfl, rfl, rfl⟩
    · have una := acknowledge_sndUna (m := q.current) flow a.seq a.last
      have same : (q.current.acknowledge g a.seq a.last).size = q.current.size ∧
          (q.current.acknowledge g a.seq a.last).sndNxt = q.current.sndNxt := by
        unfold MsgStatus.acknowledge
        simp only [flow, Bool.false_eq_true, if_false]
        split
        · exact ⟨rfl, rfl⟩
        · exact ⟨rfl, rfl⟩
      split
      · exact ⟨same.1, una, same.2, rfl, rfl⟩
      · exact ⟨same.1, una, same.2, rfl, rfl⟩
  have reacted : (RdmaHw.reactToNack g (RdmaHw.acknowledge g q a).2 a).pacing =
      (RdmaHw.acknowledge g q a).2.pacing := by
    unfold RdmaHw.reactToNack
    split
    · simp [single]
    · rfl
  rw [reactToNack_single single] at current
  rw [reacted] at pacing
  refine ⟨_, rfl, ?_⟩
  by_cases back : (a.nack && g.nackReaction) = true
  · rw [if_pos back] at current
    rw [if_pos back]
    exact ⟨by rw [current]; exact acked.size, by rw [current]; exact acked.una,
      by rw [current]; exact acked.una, by rw [pacing]; exact acked.win,
      by rw [pacing]; exact acked.varWin⟩
  · rw [if_neg back] at current
    rw [if_neg back]
    exact ⟨by rw [current]; exact acked.size, by rw [current]; exact acked.una,
      by rw [current]; exact acked.nxt, by rw [pacing]; exact acked.win,
      by rw [pacing]; exact acked.varWin⟩

theorem recoverQueue_moves (flow : g.packetLevelRouting = false) :
    Moves g q (q.recoverQueue g) q.current.sndUna q.current.sndUna := by
  refine ⟨rfl, rfl, ?_, rfl, rfl⟩
  simp [RdmaQueuePair.recoverQueue, MsgStatus.recover, flow]

/-- The bounds need no more than that `snd_nxt` stays within a window and an MTU. -/
theorem SenderBounds.moved (bounds : SenderBounds g q) {after : RdmaQueuePair} {una nxt : Nat}
    (moves : Moves g q after una nxt)
    (within : q.pacing.win ≠ 0 → q.pacing.varWin = false → nxt ≤ una + q.pacing.win + g.mtu) :
    SenderBounds g after := by
  refine ⟨by rw [moves.size]; exact bounds.size, ?_⟩
  rw [moves.win, moves.varWin, moves.una, moves.nxt]
  exact within

end Steps

section Runs

variable {g : RdmaSettings} {s next : RdmaFlow}

/-- One event keeps the bounds, and keeps the counters in order exactly under the condition. -/
theorem windowInOrder_step (single : g.qpMode = false) (flow : g.packetLevelRouting = false)
    (forward : g.backto0 = false) (mtu : g.mtu < Word32.size) (bounds : SenderBounds g s.qp)
    (order : WindowInOrder g s.qp) {label : FlowEvent × Completion} (step : Step g s label next) :
    SenderBounds g next.qp ∧ (StaysInOrder g s label ↔ WindowInOrder g next.qp) := by
  have una := order.una
  have nxt := order.nxt
  cases step with
  | send left room sent =>
      have moves := getNxtPacket_moves single flow mtu bounds left sent
      have open_window : s.qp.pacing.win ≠ 0 → s.qp.pacing.varWin = false →
          s.qp.current.sndNxt < s.qp.current.sndUna + s.qp.pacing.win := by
        intro some fixed
        have size := bounds.size
        rw [isWinBound_flow flow, sub64_eq una (by omega)] at room
        simp only [Pacing.getWin, some, fixed, if_false, Bool.false_eq_true,
          Except.ok.injEq] at room
        simp only [ne_eq, some, not_false_eq_true, decide_true, Bool.true_and,
          decide_eq_false_iff_not] at room
        omega
      have kept := bounds.moved moves fun some fixed => by
        have within := open_window some fixed
        split_ifs
        all_goals omega
      refine ⟨kept, ?_⟩
      rw [windowInOrder_iff flow kept, moves.size, moves.una, moves.nxt]
      simp only [StaysInOrder]
      split_ifs
      all_goals omega
  | data sent => exact ⟨bounds, iff_of_true trivial order⟩
  | @ack a _ qp sent received =>
      obtain ⟨reached, acked, moves⟩ := receiveAck_moves single flow forward received
      have kept := bounds.moved moves fun some fixed => by
        have within := bounds.window some fixed
        rw [acked]
        split_ifs
        all_goals omega
      refine ⟨kept, ?_⟩
      rw [windowInOrder_iff flow kept, moves.size, moves.una, moves.nxt, acked]
      simp only [StaysInOrder]
      split_ifs
      all_goals omega
  | timeout due =>
      have moves := recoverQueue_moves (q := s.qp) flow
      have kept := bounds.moved moves fun _ _ => by omega
      refine ⟨kept, iff_of_true trivial ((windowInOrder_iff flow kept).mpr ?_)⟩
      rw [moves.size, moves.una, moves.nxt]
      omega
  | pace rate =>
      have kept : SenderBounds g { s.qp with pacing := { s.qp.pacing with rate := rate } } :=
        ⟨bounds.size, bounds.window⟩
      exact ⟨kept, iff_of_true trivial ((windowInOrder_iff flow kept).mpr ⟨una, nxt⟩)⟩
  | wait forward before => exact ⟨bounds, iff_of_true trivial order⟩

/-- The counters of a sender stay in order in the whole of a run exactly if no acknowledgement goes
beyond what the sender is at and no packet reaches past both the end and 32 bits. -/
theorem go_back_n_in_order (g : RdmaSettings) (size flowId sport : Nat)
    (single : g.qpMode = false) (flow : g.packetLevelRouting = false)
    (forward : g.backto0 = false) (mtu : g.mtu < Word32.size)
    (fits : size < 18446744073709551616)
    (entries : List (RdmaFlow × (FlowEvent × Completion))) (s : RdmaFlow)
    (run : Run (Traced (Step g)) (create g size flowId sport) entries s) :
    (∀ entry ∈ entries, StaysInOrder g entry.1 entry.2) ↔
      (∀ entry ∈ entries, WindowInOrder g entry.1.qp) ∧ WindowInOrder g s.qp := by
  have bounds : SenderBounds g (create g size flowId sport).qp :=
    ⟨fits, fun _ _ => Nat.zero_le _⟩
  have order : WindowInOrder g (create g size flowId sport).qp :=
    (windowInOrder_iff flow bounds).mpr ⟨Nat.le_refl _, Nat.zero_le _⟩
  refine run.traced_iff (fun s => SenderBounds g s.qp) (fun s => WindowInOrder g s.qp)
    (StaysInOrder g) bounds order ?_ ?_
  · intro s label next bounds order step
    exact (windowInOrder_step single flow forward mtu bounds order step).1
  · intro s label next bounds order step
    exact (windowInOrder_step single flow forward mtu bounds order step).2

/-- The one packet of a flow sent and acknowledged. -/
theorem go_back_n_in_order_one_packet :
    ∃ (entries : List (RdmaFlow × (FlowEvent × Completion))) (s : RdmaFlow),
    entries.map Prod.snd = [(.send, .none), (.data ⟨0, 1000, 0, 0, 0, true⟩, .none),
      (.ack ⟨1000, false, 0, true⟩, .qp)] ∧
    ((∀ entry ∈ entries, StaysInOrder singlePath entry.1 entry.2) ↔
      (∀ entry ∈ entries, WindowInOrder singlePath entry.1.qp) ∧
        WindowInOrder singlePath s.qp) := by
  have sent : Run (Step singlePath) (create singlePath 1000 0 0) _ _ :=
    Run.single (Step.send (by decide) (by decide) rfl)
  have arrived := sent.snoc (Step.data (List.mem_singleton.mpr rfl))
  have acked := arrived.snoc (Step.ack (a := ⟨1000, false, 0, true⟩) (by decide +kernel) rfl)
  obtain ⟨entries, traced, labels⟩ := acked.traced
  exact ⟨entries, _, labels, go_back_n_in_order singlePath 1000 0 0 rfl rfl rfl (by decide)
    (by decide) entries _ traced⟩

/-- Two packets are sent and the first arrives; then the timer expires before its ACK does. -/
theorem late_ack_passes_snd_nxt : ¬ ∀ (g : RdmaSettings) (size flowId sport : Nat),
    g.qpMode = false → g.packetLevelRouting = false → g.backto0 = false →
    ∀ labels s, Run (Step g) (create g size flowId sport) labels s → WindowInOrder g s.qp := by
  intro claim
  have first : Run (Step singlePath) (create singlePath 2000 0 0) _ _ :=
    Run.single (Step.send (by decide) (by decide) rfl)
  have second := first.snoc (Step.send (by decide) (by decide) rfl)
  have arrived := second.snoc (Step.data (p := ⟨0, 1000, 0, 0, 0, false⟩) (by decide))
  have waited := arrived.snoc (@Step.wait _ _ 5000 (by decide) (by decide))
  have recovered := waited.snoc (Step.timeout rfl)
  have acked := recovered.snoc
    (Step.ack (a := ⟨1000, false, 0, false⟩) (by decide +kernel) rfl)
  have order := (claim singlePath 2000 0 0 rfl rfl rfl _ _ acked).una
  exact absurd order (by decide)

end Runs

end Floodgate
