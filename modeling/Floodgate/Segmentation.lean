import Floodgate.GoBackN
import Floodgate.MessageProgress

/-! The packets that a sender cuts a flow into when nothing is lost. -/

namespace Floodgate

open Outcome RdmaFlow

namespace RdmaHw

/-- The queue pair of a flow that has just been added, alone on its queue pair in `qp_mode`. -/
def firstQueuePair (g : RdmaSettings) (id now : Nat) (request : MessageRequest) : RdmaQueuePair :=
  if g.qpMode then newQueuePair g id (request.operation now)
  else (RdmaFlow.create g request.size request.flowId request.sport).qp

/-- `GetNxtPacket` at the given times, for as long as `GetBytesLeft` is positive. -/
def segments (g : RdmaSettings) :
    List Nat → RdmaQueuePair → Except RdmaAssertion (List DataPacket × RdmaQueuePair)
  | [], q => .ok ([], q)
  | now :: later, q =>
      if 0 < q.getBytesLeft g then do
        let sent ← getNxtPacket g now q
        let rest ← segments g later sent.2
        .ok (sent.1 :: rest.1, rest.2)
      else .ok ([], q)

end RdmaHw

/-- The packets cover the bytes from `start` up to `size` in order, each byte once. -/
def Partitions (size : Nat) : Nat → List DataPacket → Prop
  | start, [] => start = size
  | start, p :: rest => p.seq = start ∧ Partitions size (start + p.payload) rest

/-- The rest of a flow from `sent` on, in packets of at most an MTU of which the last one says so.
`before` are the packet numbers in flight at the start. -/
structure ExactSegments (g : RdmaSettings) (size sent : Nat) (before : Finset Nat)
    (packets : List DataPacket) (final : RdmaQueuePair) : Prop where
  stopped : final.getBytesLeft g = 0
  partition : Partitions size sent packets
  payload : ∀ p ∈ packets, 1 ≤ p.payload ∧ p.payload ≤ g.mtu
  last : ∃ front p, packets = front ++ [p] ∧ p.last = true ∧ ∀ other ∈ front, other.last = false
  sndNxt : final.current.sndNxt = size
  sentPsn : g.packetLevelRouting = true →
    final.current.sentPsn = before ∪ (packets.map DataPacket.seq).toFinset

section Timer

variable {g : RdmaSettings}

theorem getOnTheFly_calm {m : MsgStatus} (calm : m.timeouted = false) :
    ∃ onTheFly, m.getOnTheFly g = .ok onTheFly := by
  unfold MsgStatus.getOnTheFly
  rw [calm]
  split
  · exact ⟨_, rfl⟩
  · exact ⟨_, rfl⟩

end Timer

section Loop

variable {g : RdmaSettings} {q : RdmaQueuePair} {size sent : Nat}

structure Sending (g : RdmaSettings) (size sent : Nat) (q : RdmaQueuePair) : Prop where
  size : q.current.size = size
  sndNxt : q.current.sndNxt = sent
  calm : q.current.timeouted = false
  others : ∀ id, (q.operations id).status.timeouted = false
  front : g.qpMode = true → ∃ front, q.rdmaMsgs = [front]

theorem chooseSeq_calm {m : MsgStatus} (calm : m.timeouted = false) :
    RdmaHw.chooseSeq g m = .ok (Word32.trunc m.sndNxt,
      if g.packetLevelRouting then { m with sentPsn := insert (Word32.trunc m.sndNxt) m.sentPsn }
      else m) := by
  unfold RdmaHw.chooseSeq
  cases g.packetLevelRouting with
  | false => rfl
  | true => simp [calm]

/-- The packet at `sent` is the last one exactly if it is seen to reach the end in 32 bits. -/
theorem packetAt_parts {m : MsgStatus} (mtu : g.mtu < Word32.size) (fits : m.size < Word32.size)
    (left : sent < m.size) :
    ((RdmaHw.packetAt g m sent).payload, (RdmaHw.packetAt g m sent).last) =
      if m.size ≤ sent + g.mtu ∧ sent + g.mtu < Word32.size then (m.size - sent, true)
      else (g.mtu, false) := by
  have rest : Word32.trunc (sub64 m.size sent) = m.size - sent := by
    rw [sub64_eq (by omega) (by unfold Word32.size at fits; omega), Word32.trunc_eq _ (by omega)]
  have seen : Word32.add sent g.mtu ≥ m.size ↔
      m.size ≤ sent + g.mtu ∧ sent + g.mtu < Word32.size := by
    unfold Word32.size at fits mtu ⊢
    unfold Word32.add
    omega
  by_cases reaches : m.size ≤ sent + g.mtu ∧ sent + g.mtu < Word32.size
  · rw [if_pos reaches]
    simp only [RdmaHw.packetAt, seen.mpr reaches, decide_true, if_true, rest]
  · rw [if_neg reaches]
    simp only [RdmaHw.packetAt, mt seen.mp reaches, decide_false, Bool.false_eq_true, if_false]

/-- What one call of `GetNxtPacket` gives on a flow with bytes left. -/
structure Cut (g : RdmaSettings) (size sent : Nat) (q : RdmaQueuePair) (p : DataPacket)
    (after : RdmaQueuePair) : Prop where
  seq : p.seq = sent
  parts : (p.payload, p.last) =
    if size ≤ sent + g.mtu ∧ sent + g.mtu < Word32.size then (size - sent, true)
    else (g.mtu, false)
  sndNxt : after.current.sndNxt = sent + p.payload
  bytesLeft : after.getBytesLeft g = size - (sent + p.payload)
  sentPsn : g.packetLevelRouting = true →
    after.current.sentPsn = insert sent q.current.sentPsn
  sending : sent + p.payload < size → Sending g size (sent + p.payload) after

theorem moveRdmaOperationToUnfinished_last {front : Nat} (queue : q.rdmaMsgs = [front]) :
    ∃ moved, q.moveRdmaOperationToUnfinished g = .ok moved ∧
      moved.current = { q.current with msgSeq := Word32.add q.current.msgSeq 1 } := by
  unfold RdmaQueuePair.moveRdmaOperationToUnfinished
  rw [queue]
  refine ⟨_, rfl, ?_⟩
  unfold RdmaQueuePair.loadMsgStatus
  rw [queue]
  rfl

theorem Sending.packet (sending : Sending g size sent q) (mtu : g.mtu < Word32.size)
    (fits : size < Word32.size) (left : sent < size) (now : Nat) :
    ∃ p after, RdmaHw.getNxtPacket g now q = .ok (p, after) ∧ Cut g size sent q p after := by
  have small : Word32.trunc q.current.sndNxt = sent := by
    rw [sending.sndNxt]
    exact Word32.trunc_eq _ (by omega)
  have choice := chooseSeq_calm (g := g) sending.calm
  rw [small] at choice
  obtain ⟨m, chosen, same⟩ : ∃ m, RdmaHw.chooseSeq g q.current = .ok (sent, m) ∧
      m = if g.packetLevelRouting then
        { q.current with sentPsn := insert sent q.current.sentPsn } else q.current :=
    ⟨_, choice, rfl⟩
  have kept : m.size = size ∧ m.sndNxt = sent ∧ m.timeouted = false := by
    rw [same]
    split
    · exact ⟨sending.size, sending.sndNxt, sending.calm⟩
    · exact ⟨sending.size, sending.sndNxt, sending.calm⟩
  have inserted : g.packetLevelRouting = true → m.sentPsn = insert sent q.current.sentPsn := by
    intro packets
    rw [same, if_pos packets]
  obtain ⟨mSize, mNxt, mCalm⟩ := kept
  have parts := packetAt_parts (m := m) mtu (by omega) (by omega : sent < m.size)
  rw [mSize] at parts
  obtain ⟨p, made⟩ : ∃ p, p = RdmaHw.packetAt g m sent := ⟨_, rfl⟩
  have seq : p.seq = sent := by rw [made]; rfl
  rw [← made] at parts
  have short : sent + p.payload < 18446744073709551616 := by
    have payload := congrArg Prod.fst parts
    unfold Word32.size at *
    split at payload
    all_goals simp only at payload; omega
  have advanced : RdmaHw.advance m p = { m with sndNxt := sent + p.payload } := by
    unfold RdmaHw.advance
    rw [if_pos (by rw [seq, mNxt]), mNxt, Nat.mod_eq_of_lt short]
  obtain ⟨timed, reset⟩ := @resetTimer_total g
    { q with current := { m with sndNxt := sent + p.payload } } now q.current.msgSeq
    (getOnTheFly_calm mCalm) fun id => getOnTheFly_calm (sending.others id)
  have progress := resetTimer_progress reset
  have others : ∀ id, (timed.operations id).status.timeouted = false := by
    intro id
    rw [progress.status]
    exact sending.others id
  have current : timed.current = { m with sndNxt := sent + p.payload } := progress.current
  have bytes : timed.getBytesLeft g = size - (sent + p.payload) := by
    have calm : timed.current.timeouted = false := by rw [current]; exact mCalm
    unfold RdmaQueuePair.getBytesLeft
    rw [MsgStatus.getBytesLeft_calm calm, current, mSize]
  by_cases moves : g.qpMode = true ∧ timed.getBytesLeft g = 0
  · obtain ⟨qpMode, none⟩ := moves
    obtain ⟨front, head⟩ := sending.front qpMode
    have queue : timed.rdmaMsgs = [front] := progress.rdmaMsgs.trans head
    obtain ⟨moved, move, same⟩ := moveRdmaOperationToUnfinished_last (g := g) queue
    have last : (if g.resetQpRate then { moved with pacing := g.initial } else moved).current =
        { m with sndNxt := sent + p.payload, msgSeq := Word32.add timed.current.msgSeq 1 } := by
      rw [current] at same
      rw [current]
      split
      · exact same
      · exact same
    refine ⟨p, _, ?_, seq, parts, by rw [last], ?_, fun packets => by rw [last]; exact inserted packets,
      fun more => ?_⟩
    · unfold RdmaHw.getNxtPacket
      simp only [chosen, ok_bind, ← made, advanced, reset, qpMode, none, move]
      rfl
    · rw [← bytes]
      unfold RdmaQueuePair.getBytesLeft
      rw [last, current]
      rfl
    · omega
  · refine ⟨p, timed, ?_, seq, parts, by rw [current], bytes,
      fun packets => by rw [current]; exact inserted packets, fun more => ?_⟩
    · unfold RdmaHw.getNxtPacket
      simp only [chosen, ok_bind, ← made, advanced, reset]
      rw [if_neg (by simpa using moves)]
    · exact ⟨by rw [current]; exact mSize, by rw [current], by rw [current]; exact mCalm, others,
        fun qpMode => by rw [progress.rdmaMsgs]; exact sending.front qpMode⟩

theorem Cut.ends {p : DataPacket} {after : RdmaQueuePair} (cut : Cut g size sent q p after)
    (reached : size ≤ sent + p.payload) (times : List Nat) :
    RdmaHw.segments g times after = .ok ([], after) := by
  have none : after.getBytesLeft g = 0 := by
    rw [cut.bytesLeft]
    omega
  cases times with
  | nil => rfl
  | cons now later =>
      unfold RdmaHw.segments
      rw [if_neg (by omega)]

theorem Cut.exact_last {p : DataPacket} {after : RdmaQueuePair} (cut : Cut g size sent q p after)
    (parts : (p.payload, p.last) = (size - sent, true)) (left : sent < size)
    (reaches : size ≤ sent + g.mtu) :
    ExactSegments g size sent q.current.sentPsn [p] after := by
  obtain ⟨payload, last⟩ := Prod.mk.inj parts
  have bytes := cut.bytesLeft
  have sndNxt := cut.sndNxt
  refine ⟨by omega, ⟨cut.seq, ?_⟩, ?_, ⟨[], p, rfl, last, by simp⟩, by omega, fun packets => ?_⟩
  · change sent + p.payload = size
    omega
  · intro other member
    rw [List.mem_singleton.mp member]
    omega
  · rw [cut.sentPsn packets]
    simp only [List.map_cons, List.map_nil, List.toFinset_cons, List.toFinset_nil, cut.seq,
      Finset.union_insert, Finset.union_empty]

theorem Cut.exact_middle {p : DataPacket} {after final : RdmaQueuePair} {packets : List DataPacket}
    (cut : Cut g size sent q p after) (positive : 0 < g.mtu)
    (parts : (p.payload, p.last) = (g.mtu, false))
    (rest : ExactSegments g size (sent + g.mtu) after.current.sentPsn packets final) :
    ExactSegments g size sent q.current.sentPsn (p :: packets) final := by
  obtain ⟨payload, middle⟩ := Prod.mk.inj parts
  obtain ⟨front, tail, split, last, others⟩ := rest.last
  refine ⟨rest.stopped, ⟨cut.seq, ?_⟩, ?_, ⟨p :: front, tail, ?_, last, ?_⟩, rest.sndNxt,
    fun packets => ?_⟩
  · rw [payload]
    exact rest.partition
  · intro other member
    rcases List.mem_cons.mp member with rfl | later
    · omega
    · exact rest.payload other later
  · rw [split, List.cons_append]
  · intro other member
    rcases List.mem_cons.mp member with rfl | earlier
    · exact middle
    · exact others other earlier
  · rw [rest.sentPsn packets, cut.sentPsn packets]
    simp only [List.map_cons, List.toFinset_cons, cut.seq, Finset.insert_union, Finset.union_insert]

/-- Where no packet start comes within an MTU of 32 bits, the loop cuts the rest exactly. -/
theorem Sending.exact (positive : 0 < g.mtu) (mtu : g.mtu < Word32.size)
    (fits : size < Word32.size) (times : List Nat) (sending : Sending g size sent q)
    (left : sent < size)
    (clear : ∀ k, sent + k * g.mtu < size → sent + k * g.mtu + g.mtu < Word32.size)
    (enough : size ≤ sent + times.length * g.mtu) :
    ∃ packets final, RdmaHw.segments g times q = .ok (packets, final) ∧
      ExactSegments g size sent q.current.sentPsn packets final := by
  induction times generalizing q sent with
  | nil =>
      simp only [List.length_nil, Nat.zero_mul] at enough
      omega
  | cons now later ih =>
      obtain ⟨p, after, next, cut⟩ := sending.packet mtu fits left now
      have some : 0 < q.getBytesLeft g := by
        unfold RdmaQueuePair.getBytesLeft
        rw [MsgStatus.getBytesLeft_calm sending.calm, sending.size, sending.sndNxt]
        omega
      have within : sent + g.mtu < Word32.size := by
        have first := clear 0
        simp only [Nat.zero_mul, Nat.add_zero] at first
        exact first left
      have parts := cut.parts
      unfold RdmaHw.segments
      simp only [if_pos some, next, ok_bind]
      by_cases reaches : size ≤ sent + g.mtu
      · rw [if_pos ⟨reaches, within⟩] at parts
        have payload := (Prod.mk.inj parts).1
        rw [cut.ends (by omega) later]
        exact ⟨_, _, rfl, cut.exact_last parts left reaches⟩
      · rw [if_neg fun both => reaches both.1] at parts
        have payload := (Prod.mk.inj parts).1
        have goes := cut.sending (by omega)
        rw [payload] at goes
        obtain ⟨packets, final, rest, exact⟩ := ih goes (by omega)
          (fun k below => by
            have further := clear (k + 1)
            rw [Nat.succ_mul] at further
            omega)
          (by
            rw [List.length_cons, Nat.succ_mul] at enough
            omega)
        rw [rest]
        exact ⟨_, _, rfl, cut.exact_middle positive parts exact⟩

/-- Where a packet starts within an MTU of 32 bits, `snd_nxt` never stops at the size: that packet
is taken for a middle one. -/
theorem Sending.overshoots (mtu : g.mtu < Word32.size) (fits : size < Word32.size)
    (times : List Nat) (sending : Sending g size sent q) (k : Nat)
    (starts : sent + k * g.mtu < size) (wraps : Word32.size ≤ sent + k * g.mtu + g.mtu)
    {packets : List DataPacket} {final : RdmaQueuePair}
    (loop : RdmaHw.segments g times q = .ok (packets, final)) : final.current.sndNxt ≠ size := by
  induction times generalizing q sent k packets with
  | nil =>
      obtain ⟨-, rfl⟩ := Prod.mk.inj (Except.ok.inj loop)
      rw [sending.sndNxt]
      omega
  | cons now later ih =>
      have left : sent < size := by omega
      obtain ⟨p, after, next, cut⟩ := sending.packet mtu fits left now
      have some : 0 < q.getBytesLeft g := by
        unfold RdmaQueuePair.getBytesLeft
        rw [MsgStatus.getBytesLeft_calm sending.calm, sending.size, sending.sndNxt]
        omega
      unfold RdmaHw.segments at loop
      simp only [if_pos some, next, ok_bind] at loop
      obtain ⟨⟨others, last⟩, looped, loop⟩ := bind_ok.mp loop
      obtain ⟨-, rfl⟩ := Prod.mk.inj (Except.ok.inj loop)
      have parts := cut.parts
      cases k with
      | zero =>
          simp only [Nat.zero_mul, Nat.add_zero] at wraps
          rw [if_neg (by omega)] at parts
          have payload := (Prod.mk.inj parts).1
          rw [cut.ends (by omega) later] at looped
          rw [← (Prod.mk.inj (Except.ok.inj looped)).2, cut.sndNxt, payload]
          omega
      | succ k =>
          rw [Nat.succ_mul] at starts wraps
          rw [if_neg (by omega)] at parts
          have payload := (Prod.mk.inj parts).1
          have goes := cut.sending (by omega)
          rw [payload] at goes
          exact ih goes k (by omega) (by omega) looped

end Loop

section Flows

variable {g : RdmaSettings} {id now : Nat} {request : MessageRequest}

theorem newQueuePair_current (operation : RdmaOperation) :
    (RdmaHw.newQueuePair g id operation).current = operation.status := by
  simp [RdmaHw.newQueuePair, RdmaQueuePair.addRdmaOperation, RdmaQueuePair.loadQPStatus,
    RdmaQueuePair.empty, RdmaQueuePair.setOperation]

theorem newQueuePair_operations (operation : RdmaOperation) (other : Nat) :
    (RdmaHw.newQueuePair g id operation).operations other =
      if other = id then operation else (RdmaQueuePair.empty g).operations other := by
  simp [RdmaHw.newQueuePair, RdmaQueuePair.addRdmaOperation, RdmaQueuePair.loadQPStatus,
    RdmaQueuePair.empty, RdmaQueuePair.setOperation]

theorem newQueuePair_rdmaMsgs (operation : RdmaOperation) :
    (RdmaHw.newQueuePair g id operation).rdmaMsgs = [id] := by
  simp [RdmaHw.newQueuePair, RdmaQueuePair.addRdmaOperation, RdmaQueuePair.loadQPStatus,
    RdmaQueuePair.empty, RdmaQueuePair.setOperation]

theorem sending_first (fits : request.size < Word32.size) :
    Sending g request.size 0 (RdmaHw.firstQueuePair g id now request) := by
  unfold RdmaHw.firstQueuePair
  cases qpMode : g.qpMode with
  | false => exact ⟨rfl, rfl, rfl, fun _ => rfl, fun shared => by simp [qpMode] at shared⟩
  | true =>
      rw [if_pos rfl]
      refine ⟨?_, ?_, ?_, fun other => ?_, fun _ => ⟨id, newQueuePair_rdmaMsgs _⟩⟩
      · rw [newQueuePair_current]
        exact Word32.trunc_eq _ fits
      · rw [newQueuePair_current]
        rfl
      · rw [newQueuePair_current]
        rfl
      · rw [newQueuePair_operations]
        split
        · rfl
        · rfl

theorem first_sentPsn : (RdmaHw.firstQueuePair g id now request).current.sentPsn = ∅ := by
  unfold RdmaHw.firstQueuePair
  split
  · rw [newQueuePair_current]
    rfl
  · rfl

/-- No packet starts within an MTU of 32 bits exactly if the size rounded up to whole packets is
below 32 bits. -/
theorem rounded_up_iff {size mtu : Nat} (some : 0 < size) (positive : 0 < mtu) :
    ((size - 1) / mtu + 1) * mtu < Word32.size ↔
      ∀ k, k * mtu < size → k * mtu + mtu < Word32.size := by
  constructor
  · intro rounded k starts
    have below : k ≤ (size - 1) / mtu := (Nat.le_div_iff_mul_le positive).mpr (by omega)
    calc
      k * mtu + mtu = (k + 1) * mtu := (Nat.succ_mul k mtu).symm
      _ ≤ ((size - 1) / mtu + 1) * mtu := Nat.mul_le_mul_right mtu (by omega)
      _ < Word32.size := rounded
  · intro clear
    have starts : (size - 1) / mtu * mtu ≤ size - 1 := Nat.div_mul_le_self _ _
    rw [Nat.succ_mul]
    exact clear _ (by omega)

/-- A flow is cut exactly if and only if its size rounded up to whole packets is below 32 bits. The
times are enough for a call for each packet. -/
theorem segments_exact (g : RdmaSettings) (id now : Nat) (request : MessageRequest)
    (times : List Nat) (positive : 0 < g.mtu) (mtu : g.mtu < Word32.size)
    (some : 0 < request.size) (fits : request.size < Word32.size)
    (enough : request.size ≤ times.length * g.mtu) :
    (∃ packets final,
      RdmaHw.segments g times (RdmaHw.firstQueuePair g id now request) = .ok (packets, final) ∧
        ExactSegments g request.size 0 ∅ packets final) ↔
      ((request.size - 1) / g.mtu + 1) * g.mtu < Word32.size := by
  have sending : Sending g request.size 0 (RdmaHw.firstQueuePair g id now request) :=
    sending_first fits
  rw [rounded_up_iff some positive]
  constructor
  · intro ⟨packets, final, loop, exact⟩ k starts
    by_contra wraps
    exact sending.overshoots mtu fits times k (by omega) (by omega) loop exact.sndNxt
  · intro clear
    have cut := sending.exact positive mtu fits times some
      (fun k below => by
        have within := clear k
        omega)
      (by omega)
    rw [first_sentPsn] at cut
    exact cut

/-- A flow of two and a half packets. -/
theorem segments_exact_three_packets :
    (∃ packets final, RdmaHw.segments singlePath [0, 1, 2]
        (RdmaHw.firstQueuePair singlePath 0 0 ⟨2500, 0, 0, 0, 0, 0, 0⟩) = .ok (packets, final) ∧
        ExactSegments singlePath 2500 0 ∅ packets final) ↔
      ((2500 - 1) / 1000 + 1) * 1000 < Word32.size :=
  segments_exact singlePath 0 0 ⟨2500, 0, 0, 0, 0, 0, 0⟩ [0, 1, 2] (by decide) (by decide)
    (by decide) (by decide) (by decide)

/-- The last packet of the largest flow starts at 4294967000: its end is past 32 bits and the packet
goes out as a middle one, of a whole MTU. -/
theorem largest_flow_overshoots : ¬ ∀ (g : RdmaSettings) (id now : Nat) (request : MessageRequest)
    (times : List Nat), 0 < g.mtu → g.mtu < Word32.size → 0 < request.size →
    request.size < Word32.size → request.size ≤ times.length * g.mtu → ∃ packets final,
      RdmaHw.segments g times (RdmaHw.firstQueuePair g id now request) = .ok (packets, final) ∧
        ExactSegments g request.size 0 ∅ packets final := by
  intro claim
  obtain ⟨packets, final, loop, exact⟩ := claim singlePath 0 0 ⟨4294967295, 0, 0, 0, 0, 0, 0⟩
    (List.replicate 4294968 0) (by decide) (by decide) (by decide) (by decide)
    (by rw [List.length_replicate]; decide)
  have sending : Sending singlePath 4294967295 0
      (RdmaHw.firstQueuePair singlePath 0 0 ⟨4294967295, 0, 0, 0, 0, 0, 0⟩) :=
    @sending_first singlePath 0 0 ⟨4294967295, 0, 0, 0, 0, 0, 0⟩ (by decide)
  exact sending.overshoots (by decide) (by decide) _ 4294967 (by decide) (by decide) loop
    exact.sndNxt

end Flows

end Floodgate
