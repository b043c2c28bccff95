import Floodgate.MessageAcks
import Floodgate.RetransmissionTimer

/-! The retransmission timer of a queue pair in `qp_mode`: when it is pending for every message that
has been sent and is not finished. -/

namespace Floodgate

open Outcome LabelledRun RdmaQueuePair

/-- What `ResetMSGRTOTime` looks for: everything has been sent and something is in flight. -/
def InFlight (g : RdmaSettings) (m : MsgStatus) : Prop :=
  m.getBytesLeft g = 0 ∧ ∃ onTheFly, m.getOnTheFly g = .ok onTheFly ∧ onTheFly ≠ 0

def StillOut (g : RdmaSettings) (m : MsgStatus) : Prop := m.isFinished g = true ∨ InFlight g m

/-- Every message that waits and is not finished has a `RecoverMSG` pending in time. -/
def MessagesCovered (g : RdmaSettings) (q : RdmaQueuePair) : Prop :=
  ∀ id ∈ q.rdmaMsgsUnfinished, (q.operations id).status.isFinished g = false →
    ∃ time, q.eventTimeoutRetransmission = some time ∧
      time ≤ (q.operations id).lastActionTime + g.rto

def FrontMeant (q : RdmaQueuePair) : Prop :=
  ∀ front ∈ q.rdmaMsgs.head?, q.msgSeqOf front = q.current.msgSeq ∧
    ∀ id ∈ q.rdmaMsgsUnfinished, q.msgSeqOf id = q.current.msgSeq → id = front

def MsgStatus.nextSent (m : MsgStatus) : Finset Nat :=
  if Word32.trunc m.sndNxt ≥ m.size && m.timeouted && decide (m.timeoutPsn.card > 0) then m.sentPsn
  else insert (Word32.trunc m.sndNxt) m.sentPsn

/-- An acknowledgement of a packet leaves bytes of others in flight, unless it is the last. -/
def LeavesBytes (g : RdmaSettings) (a : AckPacket) (m : MsgStatus) : Prop :=
  m.isFinished g = true ∨ a.last = true ∨ ackSeq g a ∉ m.sentPsn ∨
    (m.timeouted = false ∨ m.timeoutPsn = ∅) ∧
      Word32.trunc (m.psnBytes g (m.sentPsn.erase (ackSeq g a))) ≠ 0

/-- The condition on an event. A last packet is sent for the message at the front while a timer is
pending or another message in flight, or for a finished message; `RecoverMSG` expires with finished
messages only. -/
def CoversMessages (g : RdmaSettings) (s : MessageFlow) : MessageEvent → Prop
  | .send _ => LastPacket g s.qp.current → s.qp.isFinished g = true ∨
      FrontMeant s.qp ∧
      (s.qp.eventTimeoutRetransmission.isSome ∨
        ∃ id ∈ s.qp.queued, InFlight g (s.qp.operations id).status) ∧
      (g.packetLevelRouting = true →
        Word32.trunc (s.qp.current.psnBytes g s.qp.current.nextSent) ≠ 0)
  | .ack a =>
      (g.packetLevelRouting = true → g.ackInterval ≠ 0 → ∀ id ∈ s.qp.rdmaMsgsUnfinished,
        s.qp.msgSeqOf id = a.msgSeq → LeavesBytes g a (s.qp.operations id).status) ∧
      ((a.nack && g.nackReaction) = true → a.msgSeq ≠ s.qp.current.msgSeq →
        ∀ id ∈ s.qp.rdmaMsgs, id ∈ s.qp.rdmaMsgsUnfinished →
          s.qp.msgSeqOf id = s.qp.current.msgSeq ∨ s.qp.isFinished g = true)
  | .timeout => ∀ id ∈ s.qp.rdmaMsgsUnfinished,
      (s.qp.operations id).status.isFinished g = true ∧
        (s.qp.progressOf id).isFinished g = true
  | _ => True

section Reset

variable {g : RdmaSettings} {q after : RdmaQueuePair} {now : Nat}

theorem mem_filterM {p : Nat → Except RdmaAssertion Bool} (ids : List Nat) {result : List Nat}
    (success : ids.filterM p = .ok result) (id : Nat) :
    id ∈ result ↔ id ∈ ids ∧ p id = .ok true := by
  have general : ∀ (ids kept result : List Nat), ids.filterAuxM p kept = .ok result →
      (id ∈ result ↔ (id ∈ ids ∧ p id = .ok true) ∨ id ∈ kept) := by
    intro ids
    induction ids with
    | nil =>
        intro kept result success
        rw [← Except.ok.inj success]
        simp
    | cons first rest ih =>
        intro kept result success
        unfold List.filterAuxM at success
        obtain ⟨chosen, test, success⟩ := bind_ok.mp success
        rw [ih _ _ success]
        cases chosen with
        | true =>
            simp only [cond_true, List.mem_cons]
            constructor
            · rintro (later | same | old)
              · exact .inl ⟨.inr later.1, later.2⟩
              · exact .inl ⟨.inl same, by rw [same]; exact test⟩
              · exact .inr old
            · rintro (⟨same | later, passes⟩ | old)
              · exact .inr (.inl same)
              · exact .inl ⟨later, passes⟩
              · exact .inr (.inr old)
        | false =>
            simp only [cond_false, List.mem_cons]
            constructor
            · rintro (later | old)
              · exact .inl ⟨.inr later.1, later.2⟩
              · exact .inr old
            · rintro (⟨same | later, passes⟩ | old)
              · rw [same, test] at passes
                contradiction
              · exact .inl ⟨later, passes⟩
              · exact .inr old
  unfold List.filterM at success
  obtain ⟨kept, collected, success⟩ := bind_ok.mp success
  rw [← Except.ok.inj success, List.mem_reverse, general ids [] kept collected]
  simp

theorem mem_inflightMsgs {ids result : List Nat} (success : q.inflightMsgs g ids = .ok result)
    (id : Nat) : id ∈ result ↔ id ∈ ids ∧ InFlight g (q.operations id).status := by
  unfold RdmaQueuePair.inflightMsgs at success
  rw [mem_filterM ids success id]
  unfold InFlight
  by_cases none : (q.operations id).status.getBytesLeft g = 0
  · rw [if_pos none, bind_ok]
    simp [none]
  · rw [if_neg none]
    simp [none]

/-- The times of a queue pair: no message has acted in the future and the timer expires within the
period. -/
structure Timely (g : RdmaSettings) (q : RdmaQueuePair) (now : Nat) : Prop where
  acted : ∀ id, (q.operations id).lastActionTime ≤ now
  timer : ∀ time ∈ q.eventTimeoutRetransmission, now ≤ time ∧ time ≤ now + g.rto

theorem touch_lastActionTime (msgSeq id : Nat) (acted : (q.operations id).lastActionTime ≤ now) :
    (q.operations id).lastActionTime ≤ ((q.touch now msgSeq).operations id).lastActionTime ∧
      ((q.touch now msgSeq).operations id).lastActionTime ≤ now := by
  unfold touch
  simp only
  have either : ∀ found : List Nat, (q.operations id).lastActionTime ≤
      (if id ∈ found then { q.operations id with lastActionTime := now }
        else q.operations id).lastActionTime ∧
      (if id ∈ found then { q.operations id with lastActionTime := now }
        else q.operations id).lastActionTime ≤ now := by
    intro found
    split
    · exact ⟨acted, Nat.le_refl _⟩
    · exact ⟨Nat.le_refl _, acted⟩
  exact either _

/-- What `ResetMSGRTOTime` does to the timer: it expires by the time of every message in flight. -/
theorem resetMSGRTOTime_timer {msgSeq : Nat}
    (success : q.resetMSGRTOTime g now msgSeq = .ok after) :
    after.operations = (q.touch now msgSeq).operations ∧
      ((∃ id ∈ q.queued, InFlight g (q.operations id).status) →
        ∃ oldest ∈ q.queued, after.eventTimeoutRetransmission =
            some (max now ((after.operations oldest).lastActionTime + g.rto)) ∧
          ∀ id ∈ q.queued, InFlight g (q.operations id).status →
            (after.operations oldest).lastActionTime ≤ (after.operations id).lastActionTime) ∧
      (¬ (∃ id ∈ q.queued, InFlight g (q.operations id).status) →
        after.eventTimeoutRetransmission = q.eventTimeoutRetransmission) := by
  unfold resetMSGRTOTime at success
  obtain ⟨inflight, collected, success⟩ := bind_ok.mp success
  have members : ∀ id, id ∈ inflight ↔ id ∈ q.queued ∧ InFlight g (q.operations id).status := by
    intro id
    rw [mem_inflightMsgs collected, touch_status]
    show id ∈ q.rdmaMsgsUnfinished ++ q.rdmaMsgs ∧ _ ↔ _
    unfold queued
    simp only [List.mem_append, or_comm]
  split at success
  · rename_i oldest found
    have state := Except.ok.inj success
    have operations : after.operations = (q.touch now msgSeq).operations := by
      rw [← state]
      rfl
    obtain ⟨first, inside, time⟩ := List.mem_map.mp (List.min?_mem found)
    have timer : after.eventTimeoutRetransmission = some (max now (oldest + g.rto)) := by
      rw [← state]
      unfold resetRTOEventAt
      simp only
      split
      · rename_i past
        rw [Nat.max_eq_left past]
      · rename_i future
        rw [Nat.max_eq_right (by omega)]
    refine ⟨operations, fun _ => ⟨first, ((members first).mp inside).1, ?_, ?_⟩, ?_⟩
    · rw [timer, operations, time]
    · intro id member flying
      rw [operations, time]
      have least := (List.le_min?_iff found).mp (Nat.le_refl oldest)
      exact least _ (List.mem_map_of_mem ((members id).mpr ⟨member, flying⟩))
    · intro nothing
      exact absurd ⟨first, (members first).mp inside⟩ nothing
  · rename_i none
    have state := Except.ok.inj success
    have empty : inflight = [] := by simpa using none
    refine ⟨by rw [← state], ?_, fun _ => by rw [← state]; rfl⟩
    rintro ⟨id, member, flying⟩
    have inside := (members id).mpr ⟨member, flying⟩
    rw [empty] at inside
    contradiction

theorem resetMSGRTOTime_acts {msgSeq : Nat} (timely : Timely g q now)
    (success : q.resetMSGRTOTime g now msgSeq = .ok after) (id : Nat) :
    (q.operations id).lastActionTime ≤ (after.operations id).lastActionTime ∧
      (after.operations id).lastActionTime ≤ now := by
  rw [(resetMSGRTOTime_timer success).1]
  exact touch_lastActionTime msgSeq id (timely.acted id)

theorem Timely.reset {msgSeq : Nat} (timely : Timely g q now)
    (success : q.resetMSGRTOTime g now msgSeq = .ok after) : Timely g after now := by
  have acted := resetMSGRTOTime_acts timely success
  obtain ⟨-, flying, idle⟩ := resetMSGRTOTime_timer success
  refine ⟨fun id => (acted id).2, fun time pending => ?_⟩
  by_cases some : ∃ id ∈ q.queued, InFlight g (q.operations id).status
  · obtain ⟨oldest, -, timer, -⟩ := flying some
    have bound := (acted oldest).2
    rw [Option.mem_def, timer, Option.some.injEq] at pending
    omega
  · rw [idle some] at pending
    exact timely.timer time pending

/-- After `ResetMSGRTOTime` the timer is in time for a message that acts now, if there is one. -/
theorem resetMSGRTOTime_arms {msgSeq : Nat} (timely : Timely g q now)
    (success : q.resetMSGRTOTime g now msgSeq = .ok after)
    (armed : q.eventTimeoutRetransmission.isSome ∨
      ∃ id ∈ q.queued, InFlight g (q.operations id).status) :
    ∃ time, after.eventTimeoutRetransmission = some time ∧ time ≤ now + g.rto := by
  obtain ⟨-, flying, idle⟩ := resetMSGRTOTime_timer success
  have later := timely.reset success
  have pending : after.eventTimeoutRetransmission.isSome := by
    by_cases some : ∃ id ∈ q.queued, InFlight g (q.operations id).status
    · obtain ⟨oldest, -, timer, -⟩ := flying some
      rw [timer]
      rfl
    · rw [idle some]
      exact armed.resolve_right some
  obtain ⟨time, timer⟩ := Option.isSome_iff_exists.mp pending
  exact ⟨time, timer, (later.timer time timer).2⟩

/-- The messages that wait: each is still out and has its timer. -/
structure Attended (g : RdmaSettings) (q : RdmaQueuePair) : Prop where
  out : ∀ id ∈ q.rdmaMsgsUnfinished, StillOut g (q.operations id).status
  covered : MessagesCovered g q

/-- `ResetMSGRTOTime` keeps the timer in time for what is in flight. -/
theorem Attended.reset {msgSeq : Nat} (attended : Attended g q) (timely : Timely g q now)
    (success : q.resetMSGRTOTime g now msgSeq = .ok after) : Attended g after := by
  have acted := resetMSGRTOTime_acts timely success
  obtain ⟨-, flying, idle⟩ := resetMSGRTOTime_timer success
  have same := resetMSGRTOTime_progress success
  refine ⟨fun id member => ?_, fun id member unfinished => ?_⟩
  · rw [same.status]
    exact attended.out id (same.rdmaMsgsUnfinished ▸ member)
  · rw [same.rdmaMsgsUnfinished] at member
    rw [same.status] at unfinished
    obtain ⟨time, pending, early⟩ := attended.covered id member unfinished
    have later := (acted id).1
    by_cases some : ∃ id ∈ q.queued, InFlight g (q.operations id).status
    · obtain ⟨oldest, -, timer, least⟩ := flying some
      obtain ⟨late, -⟩ := timely.timer time pending
      have waits : InFlight g (q.operations id).status := by
        rcases attended.out id member with finished | waits
        · rw [finished] at unfinished
          contradiction
        · exact waits
      have order := least id (List.mem_append_right _ member) waits
      exact ⟨_, timer, by omega⟩
    · exact ⟨time, (idle some).trans pending, by omega⟩

end Reset

section Records

variable {g : RdmaSettings} {q after : RdmaQueuePair} {now : Nat}

structure EachStatus (P : MsgStatus → Prop) (q : RdmaQueuePair) : Prop where
  current : P q.current
  stored : ∀ id, P (q.operations id).status

theorem EachStatus.progressOf {P : MsgStatus → Prop} (each : EachStatus P q) (id : Nat) :
    P (q.progressOf id) := by
  rw [progressOf_eq]
  split
  · exact each.current
  · exact each.stored id

theorem EachStatus.loadQPStatus {P : MsgStatus → Prop} (each : EachStatus P q)
    (renumbered : ∀ m number, P m → P { m with msgSeq := number }) :
    EachStatus P (q.loadQPStatus g) := by
  unfold RdmaQueuePair.loadQPStatus
  split
  · exact ⟨each.stored _, each.stored⟩
  · exact ⟨renumbered _ _ each.current, each.stored⟩

theorem EachStatus.loadMsgStatus {P : MsgStatus → Prop} (each : EachStatus P q) :
    EachStatus P q.loadMsgStatus := by
  refine ⟨?_, each.progressOf⟩
  have same : q.loadMsgStatus.current = q.current := by
    unfold RdmaQueuePair.loadMsgStatus
    split
    · rfl
    · rfl
  exact same ▸ each.current

theorem EachStatus.recoverAll {P : MsgStatus → Prop} (each : EachStatus P q)
    (recovers : ∀ m, P m → P (m.recover g)) (ids : List Nat) :
    EachStatus P (q.recoverAll g ids) := by
  refine ⟨each.current, fun id => ?_⟩
  rw [recoverAll_status]
  split
  · exact recovers _ (each.stored id)
  · exact each.stored id

theorem EachStatus.of_same {P : MsgStatus → Prop} (each : EachStatus P q)
    (same : SameProgress q after) : EachStatus P after :=
  ⟨same.current ▸ each.current, fun id => same.status id ▸ each.stored id⟩

theorem loadQPStatus_operations : (q.loadQPStatus g).operations = q.operations := by
  unfold RdmaQueuePair.loadQPStatus
  split
  · rfl
  · rfl

theorem loadQPStatus_timer :
    (q.loadQPStatus g).eventTimeoutRetransmission = q.eventTimeoutRetransmission := by
  unfold RdmaQueuePair.loadQPStatus
  split
  · rfl
  · rfl

theorem loadMsgStatus_timer :
    q.loadMsgStatus.eventTimeoutRetransmission = q.eventTimeoutRetransmission := by
  unfold RdmaQueuePair.loadMsgStatus
  split
  · rfl
  · rfl

/-- `RecoverMSG` leaves in an object what was there or on the queue pair, perhaps recovered. -/
theorem recoverMSG_status {P : MsgStatus → Prop} (recovers : ∀ m, P m → P (m.recover g)) {id : Nat}
    (stored : P (q.operations id).status) (copy : P (q.progressOf id)) :
    P ((q.recoverMSG g now).operations id).status := by
  have again : ∀ (q : RdmaQueuePair) (ids : List Nat), P (q.operations id).status →
      P ((q.recoverAll g ids).operations id).status := by
    intro q ids before
    rw [recoverAll_status]
    split
    · exact recovers _ before
    · exact before
  have first := again q (q.rdmaMsgsUnfinished.filter (q.overdue g now)) stored
  unfold recoverMSG
  simp only
  generalize (q.rdmaMsgsUnfinished.filter (q.overdue g now)).mergeSort _ = targets
  by_cases none : targets = []
  · simp only [none, if_true]
    exact again _ _ first
  · simp only [none, if_false]
    rw [loadQPStatus_operations]
    apply again
    show P ((q.recoverAll g _).progressOf id)
    rw [progressOf_eq] at copy ⊢
    show P (if q.rdmaMsgs.head? = some id then q.current else _)
    split
    · rename_i front
      rw [if_pos front] at copy
      exact copy
    · exact first

end Records

section Sizes

variable {g : RdmaSettings} {m : MsgStatus}

/-- Sizes of messages are those of `SetSize`. -/
def Sized (g : RdmaSettings) (m : MsgStatus) : Prop :=
  m.size < Word32.size ∧ (g.packetLevelRouting = false → Counted m)

theorem Sized.recover (sized : Sized g m) : Sized g (m.recover g) :=
  ⟨sized.1, fun flow => .inr (by simp [MsgStatus.recover, flow])⟩

theorem Sized.pullBack (sized : Sized g m) : Sized g m.pullBack :=
  ⟨sized.1, fun _ => .inr (Nat.le_refl _)⟩

theorem Sized.hear (sized : Sized g m) (a : AckPacket) : Sized g (m.hear g a) := by
  refine ⟨hear_size (g := g) a m ▸ sized.1, fun flow => ?_⟩
  obtain ⟨-, nxt, una⟩ := hear_flow flow a m
  have counted := sized.2 flow
  unfold Counted at counted ⊢
  rw [nxt, una]
  split
  · exact counted
  · omega

theorem sendOne_sets {seq : Nat} {chosen : MsgStatus}
    (choice : RdmaHw.chooseSeq g m = .ok (seq, chosen)) :
    (m.sendOne g).size = m.size ∧
      (g.packetLevelRouting = true → (m.sendOne g).sentPsn = m.nextSent) := by
  obtain ⟨size, sentPsn, -, -⟩ := sendOne_kept choice
  rw [size, sentPsn]
  cases packets : g.packetLevelRouting with
  | false =>
      rw [chooseSeq_flow packets] at choice
      obtain ⟨-, rfl⟩ := Prod.mk.inj (Except.ok.inj choice)
      exact ⟨rfl, fun routing => by contradiction⟩
  | true =>
      unfold MsgStatus.nextSent
      rcases chooseSeq_packets packets choice with ⟨resends, -, -, rfl⟩ | ⟨fresh, rfl, rfl⟩
      · exact ⟨rfl, fun _ => by rw [if_pos resends]⟩
      · exact ⟨rfl, fun _ => by rw [if_neg (Bool.eq_false_iff.mp fresh)]⟩

theorem Sized.sendOne (sized : Sized g m) {seq : Nat} {chosen : MsgStatus}
    (choice : RdmaHw.chooseSeq g m = .ok (seq, chosen)) : Sized g (m.sendOne g) :=
  ⟨(sendOne_sets choice).1 ▸ sized.1, fun flow => (sendOne_counted flow (sized.2 flow)).2⟩

theorem isFinished_sendOne : (m.sendOne g).isFinished g = m.isFinished g := by
  have advanced : ∀ (chosen : MsgStatus) (p : DataPacket),
      (RdmaHw.advance chosen p).isFinished g = chosen.isFinished g := by
    intro chosen p
    unfold RdmaHw.advance
    split
    · rfl
    · rfl
  unfold MsgStatus.sendOne
  split
  · rename_i seq chosen choice
    rw [advanced]
    unfold RdmaHw.chooseSeq at choice
    simp only at choice
    split_ifs at choice
    · rw [← (Prod.mk.inj (Except.ok.inj choice)).2]
    · rw [← (Prod.mk.inj (Except.ok.inj choice)).2]
      rfl
    · rw [← (Prod.mk.inj (Except.ok.inj choice)).2]
      rfl
  · rfl

/-- With flow routing an unfinished message with nothing left to send has bytes in flight. -/
theorem inFlight_flow (flow : g.packetLevelRouting = false) (sized : Sized g m)
    (none : m.getBytesLeft g = 0) (unfinished : m.isFinished g = false) : InFlight g m := by
  refine ⟨none, sub64 m.sndNxt m.sndUna, by simp [MsgStatus.getOnTheFly, flow], ?_⟩
  have counted := sized.2 flow
  unfold MsgStatus.isFinished at unfinished
  simp only [flow, Bool.not_false, if_true, decide_eq_false_iff_not] at unfinished
  rw [MsgStatus.getBytesLeft_flow flow] at none
  unfold Counted at counted
  unfold sub64
  omega

theorem inFlight_packets (packets : g.packetLevelRouting = true) (none : m.getBytesLeft g = 0)
    (some : Word32.trunc (m.psnBytes g m.sentPsn) ≠ 0) : InFlight g m := by
  refine ⟨none, Word32.trunc (m.psnBytes g m.sentPsn), (onTheFly_packets packets).mpr ?_, some⟩
  unfold MsgStatus.getBytesLeft at none
  simp only [packets, Bool.true_and] at none
  split
  · rename_i timed
    have resent : m.psnBytes g m.timeoutPsn = 0 := by
      by_cases more : m.timeoutPsn.card > 0
      · simpa only [timed, more, decide_true, Bool.and_self, if_true] using none
      · have empty : m.timeoutPsn = ∅ := Finset.card_eq_zero.mp (by omega)
        rw [empty, psnBytes_sum]
        rfl
    rw [resent]
    exact ⟨Nat.zero_le _, rfl⟩
  · rfl

theorem StillOut.hear (out : StillOut g m) (sized : Sized g m) {a : AckPacket}
    (leaves : g.packetLevelRouting = true → g.ackInterval ≠ 0 → LeavesBytes g a m) :
    StillOut g (m.hear g a) := by
  rcases out with finished | flying
  · exact .inl (isFinished_hear a finished)
  by_cases finished : (m.hear g a).isFinished g = true
  · exact .inl finished
  refine .inr ?_
  cases packets : g.packetLevelRouting with
  | false =>
      refine inFlight_flow packets (sized.hear a) ?_ (Bool.eq_false_iff.mpr finished)
      obtain ⟨size, nxt, -⟩ := hear_flow packets a m
      have none := flying.1
      rw [MsgStatus.getBytesLeft_flow packets] at none ⊢
      rwa [size, nxt]
  | true =>
      by_cases quiet : g.ackInterval = 0
      · unfold MsgStatus.hear
        rw [if_pos quiet]
        exact flying
      by_cases last : a.last = true
      · refine absurd ?_ finished
        unfold MsgStatus.hear MsgStatus.acknowledge MsgStatus.isFinished
        simp [quiet, packets, last]
      by_cases absent : ackSeq g a ∉ m.sentPsn
      · have same : m.hear g a = m := by
          unfold MsgStatus.hear MsgStatus.acknowledge
          simp [quiet, packets, last, absent]
        rw [same]
        exact flying
      obtain ⟨settled, some⟩ : (m.timeouted = false ∨ m.timeoutPsn = ∅) ∧
          Word32.trunc (m.psnBytes g (m.sentPsn.erase (ackSeq g a))) ≠ 0 := by
        rcases leaves packets quiet with done | lastAck | other | bytes
        · exact absurd (isFinished_hear a done) finished
        · exact absurd lastAck last
        · exact absurd other absent
        · exact bytes
      have heard : m.hear g a = { m with
          sentPsn := m.sentPsn.erase (ackSeq g a)
          timeoutPsn := m.timeoutPsn.erase (ackSeq g a) }.updateReceivedACK := by
        unfold MsgStatus.hear MsgStatus.acknowledge
        simp only [not_not] at absent
        simp [quiet, packets, last, absent]
      rw [heard]
      refine inFlight_packets packets ?_ ((@psnBytes_congr g m _ rfl _).symm ▸ some)
      have none := flying.1
      unfold MsgStatus.getBytesLeft at none ⊢
      simp only [packets, Bool.true_and, MsgStatus.updateReceivedACK] at none ⊢
      rcases settled with timed | empty
      · simpa only [timed, Bool.false_and, Bool.false_eq_true, if_false] using none
      · simpa [empty] using none

end Sizes

section Steps

variable {g : RdmaSettings} {q after : RdmaQueuePair} {now : Nat}

structure TimerBounds (g : RdmaSettings) (q : RdmaQueuePair) (now : Nat) : Prop where
  sized : EachStatus (Sized g) q
  timely : Timely g q now

theorem TimerBounds.reset (bounds : TimerBounds g q now) {msgSeq : Nat}
    (success : q.resetMSGRTOTime g now msgSeq = .ok after) : TimerBounds g after now :=
  ⟨bounds.sized.of_same (resetMSGRTOTime_progress success), bounds.timely.reset success⟩

theorem resetTimer_qpMode (qpMode : g.qpMode = true) (rto : g.rtoUs ≠ 0) (msgSeq : Nat) :
    RdmaHw.resetTimer g now q msgSeq = q.resetMSGRTOTime g now msgSeq := by
  unfold RdmaHw.resetTimer
  rw [if_neg rto, if_pos qpMode]

theorem addRdmaOperation_frame (id : Nat) (operation : RdmaOperation) :
    (q.addRdmaOperation g id operation).operations = (q.setOperation id operation).operations ∧
      (q.addRdmaOperation g id operation).eventTimeoutRetransmission =
        q.eventTimeoutRetransmission := by
  unfold addRdmaOperation
  simp only
  split
  · exact ⟨loadQPStatus_operations, loadQPStatus_timer⟩
  · exact ⟨rfl, rfl⟩

theorem TimerBounds.added (bounds : TimerBounds g q now) (id : Nat) (request : MessageRequest) :
    TimerBounds g (q.addRdmaOperation g id (request.operation now)) now := by
  obtain ⟨operations, timer⟩ := @addRdmaOperation_frame g q id (request.operation now)
  have placed : EachStatus (Sized g) { q.setOperation id (request.operation now) with
      rdmaMsgs := q.rdmaMsgs ++ [id] } := by
    refine ⟨bounds.sized.current, fun other => ?_⟩
    show Sized g (if other = id then request.operation now else q.operations other).status
    split
    · exact ⟨Word32.trunc_lt _, fun _ => .inr (Nat.le_refl _)⟩
    · exact bounds.sized.stored other
  refine ⟨?_, fun other => ?_, ?_⟩
  · unfold addRdmaOperation
    simp only
    split
    · exact placed.loadQPStatus fun _ _ sized => sized
    · exact placed
  · rw [operations]
    show (if other = id then request.operation now else q.operations other).lastActionTime ≤ now
    split
    · exact Nat.le_refl _
    · exact bounds.timely.acted other
  · rw [timer]
    exact bounds.timely.timer

theorem Attended.added (attended : Attended g q) {id : Nat} (fresh : id ∉ q.queued)
    (operation : RdmaOperation) : Attended g (q.addRdmaOperation g id operation) := by
  obtain ⟨operations, timer⟩ := @addRdmaOperation_frame g q id operation
  have unfinished := (@addRdmaOperation_queues g q id operation).2.1
  have others : ∀ other ∈ q.rdmaMsgsUnfinished,
      (q.setOperation id operation).operations other = q.operations other := by
    intro other member
    refine if_neg ?_
    rintro rfl
    exact fresh (List.mem_append_right _ member)
  refine ⟨fun other member => ?_, fun other member => ?_⟩
  · rw [unfinished] at member
    rw [operations, others other member]
    exact attended.out other member
  · rw [unfinished] at member
    rw [operations, others other member, timer]
    exact attended.covered other member

theorem moveRdmaOperationToUnfinished_frame (success : q.moveRdmaOperationToUnfinished g = .ok after) :
    ∃ front rest, q.rdmaMsgs = front :: rest ∧
      after.rdmaMsgsUnfinished = q.rdmaMsgsUnfinished ++ [front] ∧
      after.eventTimeoutRetransmission = q.eventTimeoutRetransmission ∧
      (∀ id, (after.operations id).status = q.progressOf id) ∧
      ∀ id, (after.operations id).lastActionTime = (q.operations id).lastActionTime := by
  unfold moveRdmaOperationToUnfinished at success
  split at success
  · contradiction
  · rename_i front rest queue
    have state := Except.ok.inj success
    have operations : after.operations = q.loadMsgStatus.operations := by
      rw [← state]
      exact loadQPStatus_operations
    refine ⟨front, rest, queue, ?_, ?_, fun id => ?_, fun id => ?_⟩
    · rw [← state]
      exact (sameMessages_loadQPStatus _).rdmaMsgsUnfinished
    · rw [← state, loadQPStatus_timer]
      exact loadMsgStatus_timer
    · rw [operations]
      rfl
    · rw [operations]
      exact loadMsgStatus_lastActionTime id

theorem TimerBounds.moved (bounds : TimerBounds g q now)
    (success : q.moveRdmaOperationToUnfinished g = .ok after) : TimerBounds g after now := by
  obtain ⟨front, rest, queue, -, timer, status, acted⟩ :=
    moveRdmaOperationToUnfinished_frame success
  refine ⟨⟨?_, fun id => ?_⟩, fun id => ?_, ?_⟩
  · unfold moveRdmaOperationToUnfinished at success
    rw [queue] at success
    rw [← Except.ok.inj success]
    have stored := bounds.sized.loadMsgStatus
    have placed : EachStatus (Sized g) { q.loadMsgStatus with
        rdmaMsgs := rest
        rdmaMsgsUnfinished := q.rdmaMsgsUnfinished ++ [front] } :=
      ⟨stored.current, stored.stored⟩
    exact (placed.loadQPStatus fun _ _ sized => sized).current
  · rw [status]
    exact bounds.sized.progressOf id
  · rw [acted]
    exact bounds.timely.acted id
  · rw [timer]
    exact bounds.timely.timer

theorem Attended.moved (attended : Attended g q)
    (success : q.moveRdmaOperationToUnfinished g = .ok after) (out : StillOut g q.current)
    (covers : q.current.isFinished g = false → ∀ front ∈ q.rdmaMsgs.head?,
      ∃ time, q.eventTimeoutRetransmission = some time ∧
        time ≤ (q.operations front).lastActionTime + g.rto) : Attended g after := by
  obtain ⟨front, rest, queue, unfinished, timer, status, acted⟩ :=
    moveRdmaOperationToUnfinished_frame success
  have head : q.rdmaMsgs.head? = some front := by rw [queue]; rfl
  have record : ∀ id, (after.operations id).status =
      if front = id then q.current else (q.operations id).status := by
    intro id
    rw [status, progressOf_eq, head]
    simp only [Option.some.injEq]
  have earlier : ∀ id ∈ after.rdmaMsgsUnfinished, front ≠ id → id ∈ q.rdmaMsgsUnfinished := by
    intro id member different
    rw [unfinished, List.mem_append, List.mem_singleton] at member
    exact member.resolve_right (Ne.symm different)
  refine ⟨fun id member => ?_, fun id member waits => ?_⟩
  · rw [record]
    split
    · exact out
    · rename_i different
      exact attended.out id (earlier id member different)
  · rw [record] at waits
    rw [acted, timer]
    split at waits
    · rename_i same
      exact same ▸ covers waits front head
    · rename_i different
      exact attended.covered id (earlier id member different) waits

/-- The front is among what `ResetMSGRTOTime` touches if the number means it. -/
theorem touch_front (meant : FrontMeant q) {front : Nat} (head : q.rdmaMsgs.head? = some front) :
    ((q.touch now q.current.msgSeq).operations front).lastActionTime = now := by
  obtain ⟨number, only⟩ := meant front head
  have found : front ∈ if q.rdmaMsgsUnfinished.any fun id => q.msgSeqOf id = q.current.msgSeq then
      q.lookup q.current.msgSeq else (q.lookup q.current.msgSeq).take 1 := by
    split
    · rename_i present
      obtain ⟨id, waiting, same⟩ := List.any_eq_true.mp present
      rw [decide_eq_true_eq] at same
      unfold lookup
      rw [if_pos present, List.mem_filter, decide_eq_true_eq]
      exact ⟨only id waiting same ▸ waiting, number⟩
    · rename_i absent
      unfold lookup
      rw [if_neg absent]
      cases queue : q.rdmaMsgs with
      | nil =>
          rw [queue] at head
          contradiction
      | cons first rest =>
          rw [queue] at head
          have same : first = front := Option.some.inj head
          rw [same, List.filter_cons_of_pos (by simpa using number)]
          exact List.mem_cons_self
  unfold touch
  simp only
  rw [if_pos found]

theorem getNxtPacket_timed (qpMode : g.qpMode = true) (rto : g.rtoUs ≠ 0) {p : DataPacket}
    (success : RdmaHw.getNxtPacket g now q = .ok (p, after)) :
    ∃ seq chosen timed, RdmaHw.chooseSeq g q.current = .ok (seq, chosen) ∧
      { q with current := q.current.sendOne g }.resetMSGRTOTime g now q.current.msgSeq =
        .ok timed ∧
      ((q.current.sendOne g).getBytesLeft g = 0 ∧
          (∃ moved, timed.moveRdmaOperationToUnfinished g = .ok moved ∧
            after = if g.resetQpRate then { moved with pacing := g.initial } else moved) ∨
        (q.current.sendOne g).getBytesLeft g ≠ 0 ∧ after = timed) := by
  unfold RdmaHw.getNxtPacket at success
  obtain ⟨⟨seq, chosen⟩, choice, success⟩ := bind_ok.mp success
  obtain ⟨timed, reset, success⟩ := bind_ok.mp success
  have sent : RdmaHw.advance chosen (RdmaHw.packetAt g chosen seq) = q.current.sendOne g := by
    unfold MsgStatus.sendOne
    rw [choice]
  simp only [sent] at reset
  rw [resetTimer_qpMode qpMode rto] at reset
  refine ⟨seq, chosen, timed, choice, reset, ?_⟩
  have left : timed.getBytesLeft g = (q.current.sendOne g).getBytesLeft g :=
    congrArg (MsgStatus.getBytesLeft g) (resetMSGRTOTime_progress reset).current
  rw [qpMode, left] at success
  simp only [Bool.true_and, decide_eq_true_eq] at success
  split at success
  · rename_i none
    obtain ⟨moved, move, success⟩ := bind_ok.mp success
    exact .inl ⟨none, moved, move, (Prod.mk.inj (Except.ok.inj success)).2.symm⟩
  · rename_i some
    exact .inr ⟨some, (Prod.mk.inj (Except.ok.inj success)).2.symm⟩

theorem TimerBounds.sent (bounds : TimerBounds g q now) (qpMode : g.qpMode = true)
    (rto : g.rtoUs ≠ 0) {p : DataPacket}
    (success : RdmaHw.getNxtPacket g now q = .ok (p, after)) : TimerBounds g after now := by
  obtain ⟨seq, chosen, timed, choice, reset, moves⟩ := getNxtPacket_timed qpMode rto success
  have next : TimerBounds g { q with current := q.current.sendOne g } now :=
    ⟨⟨bounds.sized.current.sendOne choice, bounds.sized.stored⟩,
      bounds.timely.acted, bounds.timely.timer⟩
  rcases moves with ⟨-, moved, move, rfl⟩ | ⟨-, rfl⟩
  · have later := (next.reset reset).moved move
    split
    · exact ⟨⟨later.sized.current, later.sized.stored⟩, later.timely.acted, later.timely.timer⟩
    · exact later
  · exact next.reset reset

theorem Attended.sent (attended : Attended g q) (bounds : TimerBounds g q now)
    (qpMode : g.qpMode = true) (rto : g.rtoUs ≠ 0) (mtu : g.mtu < Word32.size)
    (left : 0 < q.getBytesLeft g) {p : DataPacket}
    (success : RdmaHw.getNxtPacket g now q = .ok (p, after))
    (covers : LastPacket g q.current → q.isFinished g = true ∨
      FrontMeant q ∧
      (q.eventTimeoutRetransmission.isSome ∨ ∃ id ∈ q.queued, InFlight g (q.operations id).status) ∧
      (g.packetLevelRouting = true →
        Word32.trunc (q.current.psnBytes g q.current.nextSent) ≠ 0)) :
    Attended g after := by
  obtain ⟨seq, chosen, timed, choice, reset, moves⟩ := getNxtPacket_timed qpMode rto success
  have sized := bounds.sized.current.sendOne choice
  have timely : Timely g { q with current := q.current.sendOne g } now :=
    ⟨bounds.timely.acted, bounds.timely.timer⟩
  have before : Attended g { q with current := q.current.sendOne g } :=
    ⟨attended.out, attended.covered⟩
  have same := resetMSGRTOTime_progress reset
  have current : timed.current = q.current.sendOne g := same.current
  rcases moves with ⟨none, moved, move, rfl⟩ | ⟨-, rfl⟩
  · have fits : q.current.size < 18446744073709551616 := by
      have small := bounds.sized.current.1
      unfold Word32.size at small
      omega
    have last := (sendOne_bytesLeft mtu fits left choice).mp none
    have later : Attended g moved := by
      refine (before.reset timely reset).moved move ?_ fun waits front head => ?_
      · rw [current]
        by_cases finished : (q.current.sendOne g).isFinished g = true
        · exact .inl finished
        · refine .inr ?_
          cases packets : g.packetLevelRouting with
          | false => exact inFlight_flow packets sized none (Bool.eq_false_iff.mpr finished)
          | true =>
              rw [isFinished_sendOne] at finished
              obtain ⟨-, -, some⟩ := (covers last).resolve_left finished
              obtain ⟨size, sentPsn⟩ := sendOne_sets choice
              refine inFlight_packets packets none ?_
              rw [sentPsn packets, @psnBytes_congr g _ _ size]
              exact some packets
      · rw [current, isFinished_sendOne] at waits
        obtain ⟨meant, armed, -⟩ := (covers last).resolve_left (Bool.eq_false_iff.mp waits)
        obtain ⟨time, pending, early⟩ := resetMSGRTOTime_arms timely reset armed
        rw [same.rdmaMsgs] at head
        refine ⟨time, pending, ?_⟩
        rw [(resetMSGRTOTime_timer reset).1]
        have touched := @touch_front q now meant front head
        show time ≤ ((q.touch now q.current.msgSeq).operations front).lastActionTime + g.rto
        rw [touched]
        exact early
    split
    · exact ⟨later.out, later.covered⟩
    · exact later
  · exact before.reset timely reset

theorem removeRdmaOperation_timer (msgSeq : Nat) :
    (q.removeRdmaOperation msgSeq).2.eventTimeoutRetransmission = q.eventTimeoutRetransmission ∨
      (q.removeRdmaOperation msgSeq).2.eventTimeoutRetransmission = none ∧
        (q.removeRdmaOperation msgSeq).2.rdmaMsgsUnfinished = [] := by
  unfold removeRdmaOperation
  simp only
  generalize removedEq : (if q.rdmaMsgsUnfinished.any fun id => decide (q.msgSeqOf id = msgSeq) then
    { q with rdmaMsgsUnfinished := q.rdmaMsgsUnfinished.filter fun id => q.msgSeqOf id ≠ msgSeq }
    else { q with rdmaMsgs := q.rdmaMsgs.filter fun id => q.msgSeqOf id ≠ msgSeq }) = removed
  have timer : removed.eventTimeoutRetransmission = q.eventTimeoutRetransmission := by
    rw [← removedEq]
    split
    · rfl
    · rfl
  split
  · rename_i none
    refine .inr ⟨rfl, ?_⟩
    show removed.rdmaMsgsUnfinished = []
    unfold getMsgNumber at none
    exact List.length_eq_zero_iff.mp (by omega)
  · exact .inl timer

/-- What an acknowledgement leaves of the messages that wait. -/
structure Waiting (g : RdmaSettings) (a : AckPacket) (before after : RdmaQueuePair) : Prop where
  sized : EachStatus (Sized g) after
  acted : ∀ id, (after.operations id).lastActionTime = (before.operations id).lastActionTime
  timer : after.eventTimeoutRetransmission = before.eventTimeoutRetransmission ∨
    after.eventTimeoutRetransmission = none ∧ after.rdmaMsgsUnfinished = []
  waits : ∀ id ∈ after.rdmaMsgsUnfinished, id ∈ before.rdmaMsgsUnfinished

theorem TimerBounds.waiting (bounds : TimerBounds g q now) {a : AckPacket}
    (waiting : Waiting g a q after) : TimerBounds g after now := by
  refine ⟨waiting.sized, fun id => ?_, fun time pending => ?_⟩
  · rw [waiting.acted]
    exact bounds.timely.acted id
  · rcases waiting.timer with same | ⟨none, -⟩
    · rw [same] at pending
      exact bounds.timely.timer time pending
    · rw [none] at pending
      contradiction

theorem Attended.waiting (attended : Attended g q) (sized : EachStatus (Sized g) q) {a : AckPacket}
    (waiting : Waiting g a q after) (status : ∀ id ∈ after.rdmaMsgsUnfinished,
      (after.operations id).status.isFinished g = true ∨
      (after.operations id).status = (q.operations id).status ∨
      q.msgSeqOf id = a.msgSeq ∧ (after.operations id).status = (q.operations id).status.hear g a)
    (leaves : g.packetLevelRouting = true → g.ackInterval ≠ 0 → ∀ id ∈ q.rdmaMsgsUnfinished,
      q.msgSeqOf id = a.msgSeq → LeavesBytes g a (q.operations id).status) :
    Attended g after := by
  refine ⟨fun id member => ?_, fun id member unfinished => ?_⟩
  · have earlier := waiting.waits id member
    rcases status id member with finished | same | ⟨number, heard⟩
    · exact .inl finished
    · rw [same]
      exact attended.out id earlier
    · rw [heard]
      exact (attended.out id earlier).hear (sized.stored id)
        fun packets some => leaves packets some id earlier number
  · have earlier := waiting.waits id member
    have before : (q.operations id).status.isFinished g = false := by
      refine Bool.eq_false_iff.mpr fun finished => ?_
      rcases status id member with done | same | ⟨-, heard⟩
      · rw [done] at unfinished
        contradiction
      · rw [same, finished] at unfinished
        contradiction
      · rw [heard, isFinished_hear a finished] at unfinished
        contradiction
    obtain ⟨time, pending, early⟩ := attended.covered id earlier before
    rcases waiting.timer with same | ⟨-, empty⟩
    · exact ⟨time, same.trans pending, by rw [waiting.acted]; exact early⟩
    · rw [empty] at member
      contradiction

theorem hear_eq (some : g.ackInterval ≠ 0) (a : AckPacket) (m : MsgStatus) :
    m.acknowledge g (ackSeq g a) a.last = m.hear g a := by
  unfold MsgStatus.hear
  rw [if_neg some]

theorem listen_waiting (some : g.ackInterval ≠ 0) (sized : EachStatus (Sized g) q)
    (a : AckPacket) : Waiting g a q (q.listen g a) ∧
      ∀ id, ((q.listen g a).operations id).status = (q.operations id).status ∨
        q.msgSeqOf id = a.msgSeq ∧
          ((q.listen g a).operations id).status = (q.operations id).status.hear g a := by
  unfold RdmaQueuePair.listen
  split
  · refine ⟨⟨⟨?_, sized.stored⟩, fun _ => rfl, .inl rfl, fun _ member => member⟩,
      fun _ => .inl rfl⟩
    rw [hear_eq some]
    exact sized.current.hear a
  · have status : ∀ id,
        ((q.acknowledgeMsg g (ackSeq g a) a.msgSeq a.last).operations id).status =
          if id ∈ q.lookup a.msgSeq then (q.operations id).status.hear g a
          else (q.operations id).status := by
      intro id
      rw [← hear_eq some]
      exact apply_ite RdmaOperation.status _ _ _
    refine ⟨⟨⟨sized.current, fun id => ?_⟩, fun id => ?_, .inl rfl, fun _ member => member⟩,
      fun id => ?_⟩
    · rw [status]
      split
      · exact (sized.stored id).hear a
      · exact sized.stored id
    · exact (apply_ite RdmaOperation.lastActionTime _ _ _).trans (ite_self _)
    · rw [status]
      split
      · rename_i found
        exact .inr ⟨(mem_lookup found).2, rfl⟩
      · exact .inl rfl

theorem acknowledge_waiting (qpMode : g.qpMode = true) (sized : EachStatus (Sized g) q)
    (a : AckPacket) : Waiting g a q (RdmaHw.acknowledge g q a).2 ∧
      ∀ id, ((RdmaHw.acknowledge g q a).2.operations id).status = (q.operations id).status ∨
        q.msgSeqOf id = a.msgSeq ∧ ((RdmaHw.acknowledge g q a).2.operations id).status =
          (q.operations id).status.hear g a := by
  by_cases none : g.ackInterval = 0
  · rw [acknowledge_off none]
    exact ⟨⟨sized, fun _ => rfl, .inl rfl, fun _ member => member⟩, fun _ => .inl rfl⟩
  · rw [acknowledge_qpMode qpMode none]
    obtain ⟨listened, status⟩ := listen_waiting none sized a
    split
    · obtain ⟨operations, current, lists⟩ := removeRdmaOperation_parts (q.listen g a) a.msgSeq
      have subset : ∀ id ∈ ((q.listen g a).removeRdmaOperation a.msgSeq).2.rdmaMsgsUnfinished,
          id ∈ (q.listen g a).rdmaMsgsUnfinished := by
        intro id member
        rcases lists with ⟨-, -, kept⟩ | ⟨-, -, kept⟩
        · rw [kept] at member
          exact List.mem_of_mem_filter member
        · rw [kept] at member
          exact member
      rw [operations]
      refine ⟨⟨⟨current ▸ listened.sized.current, fun id => ?_⟩, fun id => ?_, ?_,
        fun id member => listened.waits id (subset id member)⟩, status⟩
      · rw [operations]
        exact listened.sized.stored id
      · rw [operations]
        exact listened.acted id
      · rcases removeRdmaOperation_timer (q := q.listen g a) a.msgSeq with same | empty
        · rw [same]
          rcases listened.timer with kept | ⟨none, waiting⟩
          · exact .inl kept
          · refine .inr ⟨none, List.eq_nil_iff_forall_not_mem.mpr fun id member => ?_⟩
            have inside := subset id member
            rw [waiting] at inside
            contradiction
        · exact .inr empty
    · exact ⟨listened, status⟩

theorem acknowledge_other {a : AckPacket} (qpMode : g.qpMode = true)
    (other : a.msgSeq ≠ q.current.msgSeq) : (RdmaHw.acknowledge g q a).2.current = q.current := by
  by_cases none : g.ackInterval = 0
  · unfold RdmaHw.acknowledge
    simp [none]
  · have listened : (q.listen g a).current = q.current := by
      unfold RdmaQueuePair.listen
      rw [if_neg other]
      rfl
    rw [acknowledge_qpMode qpMode none]
    split
    · exact (removeRdmaOperation_parts (q.listen g a) a.msgSeq).2.1.trans listened
    · exact listened

/-- What `RecoverMsg` does to the timer, the objects and the messages that go on waiting. -/
theorem recoverMsg_frame (sized : EachStatus (Sized g) q) (number : Nat) :
    EachStatus (Sized g) (q.recoverMsg g number) ∧
      (∀ id, ((q.recoverMsg g number).operations id).lastActionTime =
        (q.operations id).lastActionTime) ∧
      (q.recoverMsg g number).eventTimeoutRetransmission = q.eventTimeoutRetransmission ∧
      ∀ id ∈ (q.recoverMsg g number).rdmaMsgsUnfinished, id ∈ q.rdmaMsgsUnfinished ∧
        q.msgSeqOf id ≠ number ∧
        (((q.recoverMsg g number).operations id).status = (q.operations id).status ∨
          q.rdmaMsgs.head? = some id ∧
            ((q.recoverMsg g number).operations id).status = q.current) := by
  unfold recoverMsg
  simp only
  generalize targetsEq : q.rdmaMsgsUnfinished.filter (fun id => q.msgSeqOf id = number) = targets
  generalize foundEq : { q.recoverAll g targets with
    rdmaMsgsUnfinished := q.rdmaMsgsUnfinished.filter fun id => q.msgSeqOf id ≠ number } = found
  have recovered := sized.recoverAll (fun _ sized => sized.recover) targets
  have each : EachStatus (Sized g) found := by
    rw [← foundEq]
    exact ⟨recovered.current, recovered.stored⟩
  have acted : ∀ id, (found.operations id).lastActionTime = (q.operations id).lastActionTime := by
    rw [← foundEq]
    exact recoverAll_lastActionTime targets
  have timer : found.eventTimeoutRetransmission = q.eventTimeoutRetransmission := by
    rw [← foundEq]
    rfl
  have waits : ∀ id ∈ found.rdmaMsgsUnfinished, id ∈ q.rdmaMsgsUnfinished ∧
      q.msgSeqOf id ≠ number ∧ (found.operations id).status = (q.operations id).status := by
    intro id member
    rw [← foundEq, List.mem_filter, decide_eq_true_eq] at member
    refine ⟨member.1, member.2, ?_⟩
    rw [← foundEq]
    show ((q.recoverAll g targets).operations id).status = _
    rw [recoverAll_status, if_neg]
    rw [← targetsEq, List.mem_filter, decide_eq_true_eq]
    exact fun target => member.2 target.2
  have front : found.rdmaMsgs = q.rdmaMsgs ∧ found.current = q.current := by
    rw [← foundEq]
    exact ⟨rfl, rfl⟩
  cases targets.getLast? with
  | none =>
      refine ⟨each, acted, timer, fun id member => ?_⟩
      obtain ⟨waiting, other, same⟩ := waits id member
      exact ⟨waiting, other, .inl same⟩
  | some target =>
      simp only
      have loaded := each.loadMsgStatus
      have placed : EachStatus (Sized g) { found.loadMsgStatus with
          rdmaMsgs := found.loadMsgStatus.insertTarget target found.loadMsgStatus.rdmaMsgs } :=
        ⟨loaded.current, loaded.stored⟩
      refine ⟨placed.loadQPStatus fun _ _ sized => sized, fun id => ?_, ?_, fun id member => ?_⟩
      · rw [loadQPStatus_operations]
        exact (loadMsgStatus_lastActionTime id).trans (acted id)
      · rw [loadQPStatus_timer]
        exact loadMsgStatus_timer.trans timer
      · rw [(sameMessages_loadQPStatus _).rdmaMsgsUnfinished] at member
        have inside : id ∈ found.rdmaMsgsUnfinished := loadMsgStatus_queues.2 ▸ member
        obtain ⟨waiting, other, same⟩ := waits id inside
        refine ⟨waiting, other, ?_⟩
        rw [loadQPStatus_operations]
        show found.progressOf id = _ ∨ _ ∧ found.progressOf id = _
        rw [progressOf_eq, front.1, front.2]
        split
        · rename_i head
          exact .inr ⟨head, rfl⟩
        · exact .inl same

theorem reactToNack_cases (qpMode : g.qpMode = true) (q : RdmaQueuePair) (a : AckPacket) :
    RdmaHw.reactToNack g q a = q ∨
      RdmaHw.reactToNack g q a = { q with current := q.current.pullBack } ∨
      (a.nack && g.nackReaction) = true ∧ a.msgSeq ≠ q.current.msgSeq ∧
        RdmaHw.reactToNack g q a = q.recoverMsg g q.current.msgSeq := by
  unfold RdmaHw.reactToNack
  split
  · rename_i react
    by_cases same : a.msgSeq = q.current.msgSeq
    · simp [same]
    · exact .inr (.inr ⟨react, same, by simp [qpMode, same]⟩)
  · exact .inl rfl

theorem Waiting.reactToNack {middle : RdmaQueuePair} {a : AckPacket} (qpMode : g.qpMode = true)
    (waiting : Waiting g a q middle) : Waiting g a q (RdmaHw.reactToNack g middle a) := by
  rcases reactToNack_cases qpMode middle a with same | pulled | ⟨-, -, recovered⟩
  · rw [same]
    exact waiting
  · rw [pulled]
    exact ⟨⟨waiting.sized.current.pullBack, waiting.sized.stored⟩, waiting.acted, waiting.timer,
      waiting.waits⟩
  · rw [recovered]
    obtain ⟨sized, acted, timer, waits⟩ := recoverMsg_frame waiting.sized middle.current.msgSeq
    refine ⟨sized, fun id => (acted id).trans (waiting.acted id), ?_,
      fun id member => waiting.waits id (waits id member).1⟩
    rw [timer]
    rcases waiting.timer with kept | ⟨none, empty⟩
    · exact .inl kept
    · refine .inr ⟨none, List.eq_nil_iff_forall_not_mem.mpr fun id member => ?_⟩
      have inside := (waits id member).1
      rw [empty] at inside
      contradiction

theorem receiveAck_timed {a : AckPacket} {completion : Completion} (qpMode : g.qpMode = true)
    (rto : g.rtoUs ≠ 0) (success : RdmaHw.receiveAck g now q a = .ok (completion, after)) :
    (RdmaHw.reactToNack g (RdmaHw.acknowledge g q a).2 a).resetMSGRTOTime g now a.msgSeq =
      .ok after := by
  unfold RdmaHw.receiveAck at success
  obtain ⟨timed, reset, success⟩ := bind_ok.mp success
  obtain ⟨-, rfl⟩ := Prod.mk.inj (Except.ok.inj success)
  rw [resetTimer_qpMode qpMode rto] at reset
  exact reset

theorem TimerBounds.acked (bounds : TimerBounds g q now) (qpMode : g.qpMode = true)
    (rto : g.rtoUs ≠ 0) {a : AckPacket} {completion : Completion}
    (success : RdmaHw.receiveAck g now q a = .ok (completion, after)) : TimerBounds g after now := by
  have waiting := (acknowledge_waiting qpMode bounds.sized a).1.reactToNack qpMode
  exact (bounds.waiting waiting).reset (receiveAck_timed qpMode rto success)

theorem Attended.acked (attended : Attended g q) (bounds : TimerBounds g q now)
    (qpMode : g.qpMode = true) (rto : g.rtoUs ≠ 0) {a : AckPacket} {completion : Completion}
    (success : RdmaHw.receiveAck g now q a = .ok (completion, after))
    (leaves : g.packetLevelRouting = true → g.ackInterval ≠ 0 → ∀ id ∈ q.rdmaMsgsUnfinished,
      q.msgSeqOf id = a.msgSeq → LeavesBytes g a (q.operations id).status)
    (safe : (a.nack && g.nackReaction) = true → a.msgSeq ≠ q.current.msgSeq →
      ∀ id ∈ q.rdmaMsgs, id ∈ q.rdmaMsgsUnfinished →
        q.msgSeqOf id = q.current.msgSeq ∨ q.isFinished g = true) : Attended g after := by
  obtain ⟨waiting, status⟩ := acknowledge_waiting qpMode bounds.sized a
  have completed := @acknowledge_completed g q a qpMode
  have reacted := waiting.reactToNack qpMode
  refine Attended.reset (attended.waiting bounds.sized reacted (fun id member => ?_) leaves)
    (bounds.waiting reacted).timely (receiveAck_timed qpMode rto success)
  rcases reactToNack_cases qpMode (RdmaHw.acknowledge g q a).2 a with same | pulled |
    ⟨react, other, recovered⟩
  · rw [same]
    exact .inr (status id)
  · rw [pulled]
    exact .inr (status id)
  · rw [recovered] at member ⊢
    rw [completed.number] at other
    obtain ⟨-, -, -, waits⟩ := recoverMsg_frame waiting.sized
      (RdmaHw.acknowledge g q a).2.current.msgSeq
    obtain ⟨inside, number, kept | ⟨head, written⟩⟩ := waits id member
    · rw [kept]
      exact .inr (status id)
    · rw [completed.numbers, completed.number] at number
      have sending := completed.sending id (List.mem_of_head? head)
      have finished := (safe react other id sending (waiting.waits id inside)).resolve_left number
      rw [written, acknowledge_other qpMode other]
      exact .inl finished

theorem recoverMSG_frame (sized : EachStatus (Sized g) q) :
    Sized g (q.recoverMSG g now).current ∧
      (∀ id, ((q.recoverMSG g now).operations id).lastActionTime =
        (q.operations id).lastActionTime) ∧
      (q.recoverMSG g now).eventTimeoutRetransmission = none := by
  unfold recoverMSG
  simp only
  generalize q.rdmaMsgsUnfinished.filter (q.overdue g now) = late
  generalize late.mergeSort _ = targets
  have first := sized.recoverAll (fun _ sized => sized.recover) late
  have acted := @recoverAll_lastActionTime g q late
  by_cases none : targets = []
  · simp only [none, if_true]
    exact ⟨first.current, fun id => (recoverAll_lastActionTime _ id).trans (acted id), trivial⟩
  · simp only [none, if_false]
    have stored := first.loadMsgStatus.recoverAll (fun _ sized => sized.recover)
    refine ⟨?_, fun id => ?_, loadQPStatus_timer⟩
    · refine (EachStatus.loadQPStatus ?_ fun _ _ sized => sized).current
      exact ⟨first.loadMsgStatus.current, (stored _).stored⟩
    · rw [loadQPStatus_operations]
      exact (recoverAll_lastActionTime _ id).trans
        ((loadMsgStatus_lastActionTime id).trans (acted id))

theorem TimerBounds.expired (bounds : TimerBounds g q now) :
    TimerBounds g (q.recoverMSG g now) now := by
  obtain ⟨current, acted, timer⟩ := @recoverMSG_frame g q now bounds.sized
  refine ⟨⟨current, fun id => ?_⟩, fun id => ?_, ?_⟩
  · exact recoverMSG_status (fun _ sized => sized.recover) (bounds.sized.stored id)
      (bounds.sized.progressOf id)
  · rw [acted]
    exact bounds.timely.acted id
  · rw [timer]
    simp

theorem attended_expired (finished : ∀ id ∈ q.rdmaMsgsUnfinished,
    (q.operations id).status.isFinished g = true ∧ (q.progressOf id).isFinished g = true) :
    Attended g (q.recoverMSG g now) := by
  have done : ∀ id ∈ (q.recoverMSG g now).rdmaMsgsUnfinished,
      ((q.recoverMSG g now).operations id).status.isFinished g = true := by
    intro id member
    rw [recoverMSG_unfinished] at member
    obtain ⟨stored, copy⟩ := finished id member
    exact @recoverMSG_status g q now (fun m => m.isFinished g = true) (fun m finished => finished)
      id stored copy
  refine ⟨fun id member => .inl (done id member), fun id member unfinished => ?_⟩
  rw [done id member] at unfinished
  contradiction

theorem recoverMsg_queued (number id : Nat) (member : id ∈ (q.recoverMsg g number).queued) :
    id ∈ q.queued := by
  unfold recoverMsg at member
  simp only at member
  generalize targetsEq : q.rdmaMsgsUnfinished.filter (fun id => q.msgSeqOf id = number) = targets
    at member
  generalize foundEq : { q.recoverAll g targets with
    rdmaMsgsUnfinished := q.rdmaMsgsUnfinished.filter fun id => q.msgSeqOf id ≠ number } = found
    at member
  have lists : found.rdmaMsgs = q.rdmaMsgs ∧ ∀ id ∈ found.rdmaMsgsUnfinished,
      id ∈ q.rdmaMsgsUnfinished := by
    rw [← foundEq]
    exact ⟨rfl, fun id member => List.mem_of_mem_filter member⟩
  have stored := @loadMsgStatus_queues found
  unfold queued at member ⊢
  cases last : targets.getLast? with
  | none =>
      rw [last] at member
      rcases List.mem_append.mp member with sending | waiting
      · exact List.mem_append_left _ (lists.1 ▸ sending)
      · exact List.mem_append_right _ (lists.2 id waiting)
  | some target =>
      have waits := List.mem_of_getLast? last
      rw [← targetsEq] at waits
      rw [last] at member
      simp only [(sameMessages_loadQPStatus _).rdmaMsgs,
        (sameMessages_loadQPStatus _).rdmaMsgsUnfinished, stored.1, stored.2, lists.1] at member
      rcases List.mem_append.mp member with sending | waiting
      · rcases List.mem_cons.mp ((insertTarget_perm target q.rdmaMsgs).mem_iff.mp sending) with
          same | other
        · exact List.mem_append_right _ (same ▸ List.mem_of_mem_filter waits)
        · exact List.mem_append_left _ other
      · exact List.mem_append_right _ (lists.2 id waiting)

theorem receiveAck_queued {a : AckPacket} {completion : Completion} (qpMode : g.qpMode = true)
    (success : RdmaHw.receiveAck g now q a = .ok (completion, after)) (id : Nat)
    (member : id ∈ after.queued) : id ∈ q.queued := by
  have same := receiveAck_steps success
  have completed := @acknowledge_completed g q a qpMode
  rw [same.queued] at member
  unfold RdmaHw.reactToNack at member
  split at member
  · split at member
    · exact completed.queued id member
    · exact completed.queued id (recoverMsg_queued _ id member)
  · exact completed.queued id member

/-- What every handler keeps of the messages in any case. -/
structure MessagesTimed (g : RdmaSettings) (s : MessageFlow) : Prop where
  known : ∀ id ∈ s.qp.queued, ∃ request, (id, request) ∈ s.added
  bounds : TimerBounds g s.qp s.now

theorem MessagesTimed.unseen {s : MessageFlow} (timed : MessagesTimed g s) {id : Nat}
    {request : MessageRequest} (fresh : ∀ m ∈ s.added, m.1 ≠ id ∧ m.2.msgSeq < request.msgSeq) :
    id ∉ s.qp.queued := by
  intro member
  obtain ⟨request, known⟩ := timed.known id member
  exact (fresh _ known).1 rfl

theorem MessagesTimed.step {s next : MessageFlow} (timed : MessagesTimed g s)
    (qpMode : g.qpMode = true) (rto : g.rtoUs ≠ 0) {event : MessageEvent}
    (step : MessageFlow.Step g s event next) : MessagesTimed g next := by
  cases step with
  | @add id request fresh =>
      refine ⟨fun other member => ?_, timed.bounds.added id request⟩
      obtain ⟨sending, unfinished, -⟩ :=
        @addRdmaOperation_queues g s.qp id (request.operation s.now)
      simp only [queued, sending, unfinished, List.mem_append, List.mem_singleton] at member ⊢
      by_cases same : other = id
      · exact ⟨request, .inr (by rw [same])⟩
      · obtain ⟨request, known⟩ := timed.known other (by
          rw [queued, List.mem_append]
          tauto)
        exact ⟨request, .inl known⟩
  | send left room success =>
      refine ⟨fun id member => timed.known id ?_, timed.bounds.sent qpMode rto success⟩
      obtain ⟨_, _, -, -, leaves⟩ := getNxtPacket_leaves success
      exact (leaves.queued id).mp member
  | data sent => exact ⟨timed.known, timed.bounds⟩
  | ack sent received =>
      exact ⟨fun id member => timed.known id (receiveAck_queued qpMode received id member),
        timed.bounds.acked qpMode rto received⟩
  | timeout due =>
      refine ⟨fun id member => timed.known id ?_, timed.bounds.expired⟩
      exact ((@recoverMSG_leaves g s.qp s.now).queued id).mp member
  | pace rate =>
      exact ⟨timed.known, ⟨timed.bounds.sized.current, timed.bounds.sized.stored⟩,
        timed.bounds.timely.acted, timed.bounds.timely.timer⟩
  | @wait later forward before =>
      refine ⟨timed.known, timed.bounds.sized, fun id => ?_, fun time pending => ?_⟩
      · have acted := timed.bounds.timely.acted id
        show (s.qp.operations id).lastActionTime ≤ later
        omega
      · have bound := (timed.bounds.timely.timer time pending).2
        have early := before time pending
        show later ≤ time ∧ time ≤ later + g.rto
        omega

/-- One handler that meets the condition keeps the messages that wait attended. -/
theorem Attended.step {s next : MessageFlow} (attended : Attended g s.qp)
    (timed : MessagesTimed g s) (qpMode : g.qpMode = true) (rto : g.rtoUs ≠ 0)
    (mtu : g.mtu < Word32.size) {event : MessageEvent} (covers : CoversMessages g s event)
    (step : MessageFlow.Step g s event next) : Attended g next.qp := by
  cases step with
  | add fresh => exact attended.added (timed.unseen fresh) _
  | send left room success =>
      exact attended.sent timed.bounds qpMode rto mtu left success covers
  | data sent => exact attended
  | ack sent received =>
      exact attended.acked timed.bounds qpMode rto received covers.1 covers.2
  | timeout due => exact attended_expired covers
  | pace rate => exact ⟨attended.out, attended.covered⟩
  | wait forward before => exact attended

theorem timed_create (g : RdmaSettings) (id : Nat) (request : MessageRequest) :
    MessagesTimed g (MessageFlow.create g id request) ∧
      Attended g (MessageFlow.create g id request).qp := by
  have empty : TimerBounds g (RdmaQueuePair.empty g) 0 := by
    have small : 0 < Word32.size := by decide
    refine ⟨⟨⟨small, fun _ => .inr (Nat.le_refl _)⟩,
      fun _ => ⟨small, fun _ => .inr (Nat.le_refl _)⟩⟩, fun _ => Nat.le_refl _, ?_⟩
    simp [RdmaQueuePair.empty]
  have first := empty.added id request
  obtain ⟨sending, unfinished, -⟩ :=
    @addRdmaOperation_queues g (RdmaQueuePair.empty g) id (request.operation 0)
  have none : (MessageFlow.create g id request).qp.rdmaMsgsUnfinished = [] := unfinished
  have one : (MessageFlow.create g id request).qp.rdmaMsgs = [id] := sending
  refine ⟨⟨fun other member => ⟨request, ?_⟩, ⟨first.sized.current, first.sized.stored⟩,
    first.timely.acted, first.timely.timer⟩, ⟨fun id member => ?_, fun id member => ?_⟩⟩
  · rw [queued, none, one] at member
    simp only [List.append_nil, List.mem_singleton] at member
    rw [member]
    exact List.mem_singleton.mpr rfl
  · rw [none] at member
    contradiction
  · rw [none] at member
    contradiction

/-- A sender that may only wait has its timer. Outside `qp_mode` in every state of a run whose events
meet the condition; in `qp_mode` for every message that waits, in every state of a run whose events
meet the condition since all such messages were attended. -/
theorem stuck_sender_has_timer (g : RdmaSettings) (rto : g.rtoUs ≠ 0) (mtu : g.mtu < Word32.size) :
    (g.qpMode = false → ∀ size flowId sport, size < 18446744073709551616 →
      ∀ (entries : List (RdmaFlow × (FlowEvent × Completion))) (s : RdmaFlow),
      Run (Traced (RdmaFlow.Step g)) (RdmaFlow.create g size flowId sport) entries s →
      (∀ entry ∈ entries, ArmsTimer g entry.1 entry.2) →
      (∀ entry ∈ entries, HasTimer g entry.1.qp) ∧ HasTimer g s.qp) ∧
    (g.qpMode = true → ∀ id request,
      Attended g (MessageFlow.create g id request).qp ∧
      ∀ labels start, Run (MessageFlow.Step g) (MessageFlow.create g id request) labels start →
      Attended g start.qp → ∀ (entries : List (MessageFlow × MessageEvent)) (s : MessageFlow),
      Run (Traced (MessageFlow.Step g)) start entries s →
      (∀ entry ∈ entries, CoversMessages g entry.1 entry.2) →
      (∀ entry ∈ entries, MessagesCovered g entry.1.qp) ∧ MessagesCovered g s.qp) := by
  refine ⟨fun single size flowId sport fits entries s run arms =>
    sender_has_timer g single rto mtu size flowId sport fits entries s run arms,
    fun qpMode id request => ?_⟩
  obtain ⟨timed, attended⟩ := timed_create g id request
  refine ⟨attended, fun labels start earlier here entries s run covers => ?_⟩
  have known := earlier.invariant (MessagesTimed g) timed
    fun _ _ _ timed step => timed.step qpMode rto step
  obtain ⟨along, last⟩ := run.holds_along
    (fun s => MessagesTimed g s ∧ Attended g s.qp) (CoversMessages g) ⟨known, here⟩
    (fun s event next both covers step =>
      ⟨both.1.step qpMode rto step, both.2.step both.1 qpMode rto mtu covers step⟩) covers
  exact ⟨fun entry member => (along entry member).2.covered, last.2.covered⟩

/-- The last packet of a flow arms the timer; with one message waiting under its timer another is
sent. -/
theorem stuck_sender_has_timer_last_packets :
    (∃ s, Run (RdmaFlow.Step RdmaFlow.singlePath) (RdmaFlow.create RdmaFlow.singlePath 1000 0 0)
        [(.send, .none)] s ∧
      Stuck RdmaFlow.singlePath s.qp ∧ HasTimer RdmaFlow.singlePath s.qp) ∧
    ∃ s : MessageFlow, s.qp.rdmaMsgsUnfinished = [0, 1] ∧ MessagesCovered qpModeSettings s.qp := by
  constructor
  · have step : RdmaFlow.Step RdmaFlow.singlePath (RdmaFlow.create RdmaFlow.singlePath 1000 0 0)
        (.send, .none) _ := .send (by decide) (by decide) rfl
    have last : LastPacket RdmaFlow.singlePath
        (RdmaFlow.create RdmaFlow.singlePath 1000 0 0).qp.current := by
      unfold LastPacket
      decide
    have timers := ((stuck_sender_has_timer RdmaFlow.singlePath (by decide) (by decide)).1 rfl
      1000 0 0 (by decide) [(_, (.send, .none))] _ (Run.single ⟨rfl, step⟩) (by
        intro entry member
        rw [List.mem_singleton.mp member]
        exact .inr (Or.inl last))).2
    exact ⟨_, Run.single step, ⟨by decide, ⟨1000, rfl, by decide⟩, .inl (by decide)⟩, timers⟩
  · have added : Run (MessageFlow.Step qpModeSettings)
        (MessageFlow.create qpModeSettings 0 ⟨2000, 1, 1, 0, 0, 0, 1⟩) _ _ :=
      Run.single (@MessageFlow.Step.add _ _ 1 (onePacket 2) (by decide))
    have first := added.snoc (.send (by decide) (by decide) rfl)
    have second := first.snoc (.send (by decide +kernel) (by decide +kernel) rfl)
    have arrived := second.snoc
      (@MessageFlow.Step.data _ _ ⟨0, 1000, 1, 1, 1, false⟩ (by decide +kernel))
    have acked := arrived.snoc
      (@MessageFlow.Step.ack _ _ ⟨1000, false, 1, false⟩ _ _ (by decide +kernel) rfl)
    refine ⟨_, ?_, (((stuck_sender_has_timer qpModeSettings (by decide) (by decide)).2 rfl 0
      ⟨2000, 1, 1, 0, 0, 0, 1⟩).2 _ _ acked ?_ [(_, .send _)] _
      (Run.single ⟨rfl, .send (by decide +kernel) (by decide +kernel) rfl⟩) ?_).2⟩
    · decide +kernel
    · refine ⟨fun id member => ?_, fun id member _ => ?_⟩
      · rw [List.mem_singleton.mp member]
        exact .inr ⟨by decide +kernel, 1000, rfl, by decide⟩
      · rw [List.mem_singleton.mp member]
        exact ⟨5000, by decide +kernel, by decide +kernel⟩
    · intro entry member
      rw [List.mem_singleton.mp member]
      refine fun _ => .inr ⟨fun front head => ?_, .inl (by decide +kernel), nofun⟩
      rw [← Option.some.inj head]
      refine ⟨by decide +kernel, fun id member number => ?_⟩
      rw [List.mem_singleton.mp member] at number
      exact absurd number (by decide +kernel)

/-- A window that fills before the last packet arms no timer, and neither does the last packet of the
only message. -/
theorem stuck_sender_without_timer :
    (¬ ∀ g : RdmaSettings, g.rtoUs ≠ 0 → g.qpMode = false → ∀ size flowId sport labels s,
      Run (RdmaFlow.Step g) (RdmaFlow.create g size flowId sport) labels s → HasTimer g s.qp) ∧
    ¬ ∀ g : RdmaSettings, g.rtoUs ≠ 0 → g.qpMode = true → ∀ id request labels s,
      Run (MessageFlow.Step g) (MessageFlow.create g id request) labels s →
      MessagesCovered g s.qp := by
  constructor
  · intro claim
    have sent : Run (RdmaFlow.Step { RdmaFlow.singlePath with initial := ⟨1000, false, 0, 0⟩ })
        (RdmaFlow.create { RdmaFlow.singlePath with initial := ⟨1000, false, 0, 0⟩ } 3000 0 0) _ _ :=
      Run.single (.send (by decide) (by decide) rfl)
    have pending := claim _ (by decide) rfl 3000 0 0 _ _ sent
      ⟨by decide, ⟨1000, rfl, by decide⟩, .inr (by decide)⟩
    exact absurd pending (by decide)
  · intro claim
    have sent : Run (MessageFlow.Step qpModeSettings)
        (MessageFlow.create qpModeSettings 0 (onePacket 1)) _ _ :=
      Run.single (.send (by decide) (by decide) rfl)
    obtain ⟨time, pending, -⟩ := claim qpModeSettings (by decide) rfl 0 (onePacket 1) _ _ sent 0
      (List.mem_singleton.mpr rfl) (by decide)
    have none : some time = none := pending.symm
    contradiction

end Steps

end Floodgate
