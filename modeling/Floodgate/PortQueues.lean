import Floodgate.EgressQueue
import Floodgate.Library.LabelledRun
import Floodgate.Library.MapSum
import Floodgate.Library.Outcome
import Floodgate.Library.RoundRobin
import Mathlib.Algebra.Order.Ring.Unbundled.Rat

/-! The egress queue of a switch port with its sub-queues. `BEgressQueue` counts a packet whether the
`DropTailQueue` under it takes the packet or not. -/

namespace Floodgate

open Outcome LabelledRun RoundRobin

/-- The sub-queues of a port; a switch serves the first `qCnt` of them. -/
def fCnt : Nat := 128

/-- The default of `MaxBytes` of a `DropTailQueue`, 30000 * 65535. -/
def dropTailMaxBytes : Nat := 1966050000

/-- What can fail in `Queue::Dequeue`; `noPacket` is a null packet that is used. -/
inductive QueueAssertion where
  | bytesCovered
  | packetsCovered
  | noPacket
  deriving DecidableEq

/-- A `DropTailQueue` in its mode of bytes, with `m_nBytes` and `m_nPackets` of its base class. -/
structure DropTailQueue where
  packets : List Packet
  bytesInQueue : Nat
  nBytes : Nat
  nPackets : Nat

namespace DropTailQueue

def init : DropTailQueue := ⟨[], 0, 0, 0⟩

def enqueue (q : DropTailQueue) (p : Packet) : Bool × DropTailQueue :=
  if Word32.add q.bytesInQueue p.size ≥ dropTailMaxBytes then (false, q)
  else (true,
    { packets := q.packets ++ [p]
      bytesInQueue := Word32.add q.bytesInQueue p.size
      nBytes := Word32.add q.nBytes p.size
      nPackets := Word32.add q.nPackets 1 })

def dequeue (q : DropTailQueue) : Except QueueAssertion (Option (Packet × DropTailQueue)) :=
  match q.packets with
  | [] => .ok none
  | p :: rest =>
      if q.nBytes < p.size then .error .bytesCovered
      else if q.nPackets = 0 then .error .packetsCovered
      else .ok (some (p,
        { packets := rest
          bytesInQueue := Word32.sub q.bytesInQueue p.size
          nBytes := Word32.sub q.nBytes p.size
          nPackets := Word32.sub q.nPackets 1 }))

end DropTailQueue

/-- `BEgressQueue` with everything that `Enqueue` and `DequeueRR` read. -/
structure PortQueues where
  queues : Nat → DropTailQueue
  bytesInQueue : Nat → Nat
  bytesInQueueTotal : Nat
  rrlast : Nat
  nBytes : Nat
  nPackets : Nat
  dropped : Nat

namespace PortQueues

def init : PortQueues := ⟨fun _ => DropTailQueue.init, fun _ => 0, 0, 0, 0, 0, 0⟩

def setQueue (queues : Nat → DropTailQueue) (qIndex : Nat) (queue : DropTailQueue) :
    Nat → DropTailQueue :=
  fun i => if i = qIndex then queue else queues i

section Calls

variable (c : DeviceConfig) (e : PortQueues)

/-- `Enqueue`. The verdict of the sub-queue is not read. -/
def enqueue (p : Packet) (qIndex : Nat) : Bool × PortQueues :=
  if (Word32.add e.bytesInQueueTotal p.size : Rat) < c.maxBytes then
    (true,
      { e with
        queues := setQueue e.queues qIndex ((e.queues qIndex).enqueue p).2
        bytesInQueueTotal := Word32.add e.bytesInQueueTotal p.size
        bytesInQueue := BEgressQueue.setBytes e.bytesInQueue qIndex
          (Word32.add (e.bytesInQueue qIndex) p.size)
        nBytes := Word32.add e.nBytes p.size
        nPackets := Word32.add e.nPackets 1 })
  else (false, { e with dropped := e.dropped + 1 })

def eligible (paused : Nat → Bool) (qIndex : Nat) : Bool :=
  if c.pfcOnQueue then !paused qIndex && decide ((e.queues qIndex).nPackets > 0)
  else decide ((e.queues qIndex).nPackets > 0) &&
    !(e.queues qIndex).packets.head?.any fun p => p.isUdp && paused p.dip

/-- The queue to serve: 0 whatever is paused, or the next in turn. -/
def nextQueue (paused : Nat → Bool) : Option Nat :=
  if (e.queues 0).nPackets > 0 then some 0
  else firstWanted (e.eligible c paused) qCnt e.rrlast

def popped (p : Packet) (qIndex : Nat) (rest : DropTailQueue) : PortQueues :=
  { e with
    queues := setQueue e.queues qIndex rest
    bytesInQueueTotal := Word32.sub e.bytesInQueueTotal p.size
    bytesInQueue := BEgressQueue.setBytes e.bytesInQueue qIndex
      (Word32.sub (e.bytesInQueue qIndex) p.size)
    rrlast := if qIndex ≠ 0 then qIndex else e.rrlast
    nBytes := Word32.sub e.nBytes p.size
    nPackets := Word32.sub e.nPackets 1 }

def dequeueRR (paused : Nat → Bool) :
    Except QueueAssertion (Option (Packet × Nat × PortQueues)) :=
  if e.bytesInQueueTotal = 0 then .ok none
  else
    match e.nextQueue c paused with
    | none => .ok none
    | some qIndex => do
        match ← (e.queues qIndex).dequeue with
        | none => .error .noPacket
        | some (p, rest) =>
            if e.nBytes < p.size then .error .bytesCovered
            else if e.nPackets = 0 then .error .packetsCovered
            else .ok (some (p, qIndex, e.popped p qIndex rest))

end Calls

end PortQueues

def held (packets : List Packet) : Nat := (packets.map Packet.size).sum

theorem held_append (packets : List Packet) (p : Packet) :
    held (packets ++ [p]) = held packets + p.size := by
  simp [held]

theorem held_cons (packets : List Packet) (p : Packet) :
    held (p :: packets) = p.size + held packets := by
  simp [held]

theorem length_le_held (packets : List Packet) : packets.length ≤ held packets := by
  induction packets with
  | nil => exact Nat.le_refl _
  | cons p rest ih =>
      rw [held_cons, List.length_cons]
      have some := p.size_pos
      omega

structure DropTailQueue.Exact (q : DropTailQueue) : Prop where
  bytes : q.bytesInQueue = held q.packets
  nBytes : q.nBytes = held q.packets
  nPackets : q.nPackets = q.packets.length

structure PortQueues.Exact (e : PortQueues) : Prop where
  inner : ∀ i, (e.queues i).Exact
  each : ∀ i, e.bytesInQueue i = held (e.queues i).packets
  beyond : ∀ i, fCnt ≤ i → (e.queues i).packets = []
  total : e.bytesInQueueTotal = ∑ i ∈ Finset.range fCnt, e.bytesInQueue i
  nBytes : e.nBytes = e.bytesInQueueTotal
  nPackets : e.nPackets = ∑ i ∈ Finset.range fCnt, (e.queues i).packets.length
  word : e.bytesInQueueTotal < Word32.size
  rrlast : e.rrlast < qCnt

section Inner

variable {q : DropTailQueue} {p : Packet}

theorem DropTailQueue.Exact.enqueued (counted : q.Exact)
    (fits : held q.packets + p.size < dropTailMaxBytes) :
    (q.enqueue p).1 = true ∧ (q.enqueue p).2.packets = q.packets ++ [p] ∧
      (q.enqueue p).2.Exact := by
  have count := length_le_held q.packets
  have size := p.size_pos
  have word : held q.packets + p.size < Word32.size := by
    unfold dropTailMaxBytes at fits
    unfold Word32.size
    omega
  have room : ¬ Word32.add q.bytesInQueue p.size ≥ dropTailMaxBytes := by
    rw [counted.bytes, Word32.add_eq _ _ word]
    exact Nat.not_le.mpr fits
  unfold DropTailQueue.enqueue
  rw [if_neg room]
  refine ⟨rfl, rfl, ?_, ?_, ?_⟩
  · simp only [counted.bytes, held_append]
    exact Word32.add_eq _ _ word
  · simp only [counted.nBytes, held_append]
    exact Word32.add_eq _ _ word
  · simp only [counted.nPackets, List.length_append, List.length_singleton]
    exact Word32.add_eq _ _ (by omega)

theorem DropTailQueue.Exact.dequeued (counted : q.Exact) {rest : List Packet}
    (head : q.packets = p :: rest) (word : held q.packets < Word32.size) :
    ∃ after, q.dequeue = .ok (some (p, after)) ∧ after.packets = rest ∧ after.Exact := by
  have bytes := counted.bytes
  have nBytes := counted.nBytes
  have nPackets := counted.nPackets
  have count := length_le_held q.packets
  rw [head] at bytes nBytes nPackets word count
  rw [held_cons] at bytes nBytes word count
  rw [List.length_cons] at nPackets count
  unfold DropTailQueue.dequeue
  rw [head]
  simp only
  rw [if_neg (by omega), if_neg (by omega)]
  refine ⟨_, rfl, rfl, ?_, ?_, ?_⟩
  · simp only [bytes]
    rw [Word32.sub_eq _ _ word (by omega)]
    omega
  · simp only [nBytes]
    rw [Word32.sub_eq _ _ word (by omega)]
    omega
  · simp only [nPackets]
    rw [Word32.sub_eq _ _ (by omega) (by omega)]
    omega

end Inner

namespace PortQueues

section Steps

variable {c : DeviceConfig} {e : PortQueues} {p : Packet} {qIndex : Nat}

theorem Exact.held_le (counted : e.Exact) (i : Nat) :
    held (e.queues i).packets ≤ e.bytesInQueueTotal := by
  by_cases inside : i < fCnt
  · rw [counted.total, ← counted.each i]
    exact Finset.single_le_sum (fun _ _ => Nat.zero_le _) (Finset.mem_range.mpr inside)
  · rw [counted.beyond i (by omega)]
    exact Nat.zero_le _

theorem Exact.length_le (counted : e.Exact) : e.nPackets ≤ e.bytesInQueueTotal := by
  rw [counted.nPackets, counted.total]
  apply Finset.sum_le_sum
  intro i _
  rw [counted.each i]
  exact length_le_held _

theorem Exact.changed (counted : e.Exact) {after : PortQueues} (inside : qIndex < fCnt)
    (others : ∀ i, i ≠ qIndex → after.queues i = e.queues i ∧
      after.bytesInQueue i = e.bytesInQueue i)
    (inner : (after.queues qIndex).Exact)
    (each : after.bytesInQueue qIndex = held (after.queues qIndex).packets)
    (total : after.bytesInQueueTotal + e.bytesInQueue qIndex =
      e.bytesInQueueTotal + after.bytesInQueue qIndex)
    (nBytes : after.nBytes = after.bytesInQueueTotal)
    (nPackets : after.nPackets + (e.queues qIndex).packets.length =
      e.nPackets + (after.queues qIndex).packets.length)
    (word : after.bytesInQueueTotal < Word32.size) (rrlast : after.rrlast < qCnt) :
    after.Exact := by
  have member := Finset.mem_range.mpr inside
  have bytes := MapSum.sum_change after.bytesInQueue e.bytesInQueue member
    fun i _ other => (others i other).2
  have packets := MapSum.sum_change (fun i => (after.queues i).packets.length)
    (fun i => (e.queues i).packets.length) member fun i _ other => by rw [(others i other).1]
  have before := counted.total
  have count := counted.nPackets
  refine ⟨fun i => ?_, fun i => ?_, fun i out => ?_, by omega, nBytes, by omega, word, rrlast⟩
  · by_cases here : i = qIndex
    · rw [here]
      exact inner
    · rw [(others i here).1]
      exact counted.inner i
  · by_cases here : i = qIndex
    · rw [here]
      exact each
    · rw [(others i here).1, (others i here).2]
      exact counted.each i
  · rw [(others i (by omega)).1]
    exact counted.beyond i out

/-- An `Enqueue` call: what is added does not wrap. -/
theorem Exact.enqueued (counted : e.Exact) (limit : c.maxBytes ≤ dropTailMaxBytes)
    (inside : qIndex < fCnt) (word : e.bytesInQueueTotal + p.size < Word32.size) :
    (e.enqueue c p qIndex).2.Exact ∧
      ((e.enqueue c p qIndex).2.queues qIndex).packets = (e.queues qIndex).packets ++
        (if (e.enqueue c p qIndex).1 then [p] else []) ∧
      ∀ i, i ≠ qIndex → (e.enqueue c p qIndex).2.queues i = e.queues i := by
  have whole := Word32.add_eq _ _ word
  unfold enqueue
  by_cases room : (Word32.add e.bytesInQueueTotal p.size : Rat) < c.maxBytes
  · rw [if_pos room]
    have below : e.bytesInQueueTotal + p.size < dropTailMaxBytes := by
      rw [whole] at room
      have both := lt_of_lt_of_le room limit
      exact_mod_cast both
    have part := counted.held_le qIndex
    obtain ⟨_, packets, inner⟩ := (counted.inner qIndex).enqueued (p := p) (by omega)
    have count := counted.length_le
    have some := p.size_pos
    refine ⟨counted.changed inside ?_ ?_ ?_ ?_ ?_ ?_ ?_ counted.rrlast, ?_, ?_⟩
    · intro i other
      simp [setQueue, BEgressQueue.setBytes, other]
    · simpa [setQueue] using inner
    · simp only [setQueue, BEgressQueue.setBytes, if_true, packets, held_append, counted.each]
      exact Word32.add_eq _ _ (by omega)
    · simp only [BEgressQueue.setBytes, if_true, whole, counted.each]
      rw [Word32.add_eq _ _ (by omega)]
      omega
    · simp only [counted.nBytes]
    · simp only [setQueue, if_true, packets, List.length_append, List.length_singleton]
      rw [Word32.add_eq _ _ (by omega)]
      omega
    · simp only [whole]
      exact word
    · simp [setQueue, packets]
    · intro i other
      simp [setQueue, other]
  · rw [if_neg room]
    exact ⟨⟨counted.inner, counted.each, counted.beyond, counted.total, counted.nBytes,
      counted.nPackets, counted.word, counted.rrlast⟩, by simp, fun _ _ => rfl⟩

theorem Exact.filled (counted : e.Exact) (i : Nat) :
    (e.queues i).nPackets > 0 ↔ (e.queues i).packets ≠ [] := by
  rw [(counted.inner i).nPackets]
  exact List.length_pos_iff

theorem Exact.nextQueue_some (counted : e.Exact) {paused : Nat → Bool}
    (served : e.nextQueue c paused = some qIndex) :
    qIndex < qCnt ∧ (e.queues qIndex).packets ≠ [] ∧
      (qIndex ≠ 0 → (e.queues 0).packets = [] ∧
        ∀ j < qCnt, e.eligible c paused j = true →
          distance qCnt e.rrlast qIndex ≤ distance qCnt e.rrlast j) := by
  unfold nextQueue at served
  by_cases priority : (e.queues 0).nPackets > 0
  · rw [if_pos priority] at served
    obtain rfl := Option.some.inj served
    exact ⟨by decide, (counted.filled 0).mp priority, fun other => absurd rfl other⟩
  · rw [if_neg priority] at served
    obtain ⟨below, wanted, first⟩ := firstWanted_some served
    refine ⟨below, (counted.filled qIndex).mp ?_, fun _ => ⟨?_, first⟩⟩
    · unfold eligible at wanted
      split at wanted
      · simpa using (Bool.and_eq_true_iff.mp wanted).2
      · simpa using (Bool.and_eq_true_iff.mp wanted).1
    · by_contra waiting
      exact priority ((counted.filled 0).mpr waiting)

theorem Exact.popped (counted : e.Exact) (below : qIndex < qCnt) {rest : DropTailQueue}
    (head : (e.queues qIndex).packets = p :: rest.packets) (inner : rest.Exact) :
    (e.popped p qIndex rest).Exact ∧ p.size ≤ e.nBytes ∧ 0 < e.nPackets := by
  have inside : qIndex < fCnt := Nat.lt_of_lt_of_le below (by decide)
  have part := counted.held_le qIndex
  have bytes := counted.each qIndex
  have word := counted.word
  have nBytes := counted.nBytes
  have count : (e.queues qIndex).packets.length ≤ e.nPackets := by
    rw [counted.nPackets]
    exact Finset.single_le_sum (f := fun i => (e.queues i).packets.length)
      (fun _ _ => Nat.zero_le _) (Finset.mem_range.mpr inside)
  have bound := counted.length_le
  rw [head, held_cons] at part bytes
  rw [head, List.length_cons] at count
  refine ⟨counted.changed inside ?_ ?_ ?_ ?_ ?_ ?_ ?_ ?_, by omega, by omega⟩
  · intro i other
    simp [PortQueues.popped, setQueue, BEgressQueue.setBytes, other]
  · simpa [PortQueues.popped, setQueue] using inner
  · simp only [PortQueues.popped, setQueue, BEgressQueue.setBytes, if_true, bytes]
    rw [Word32.sub_eq _ _ (by omega) (by omega)]
    omega
  · simp only [PortQueues.popped, BEgressQueue.setBytes, if_true, bytes]
    rw [Word32.sub_eq _ _ word (by omega), Word32.sub_eq _ _ (by omega) (by omega)]
    omega
  · simp only [PortQueues.popped, nBytes]
  · simp only [PortQueues.popped, setQueue, if_true, head, List.length_cons]
    rw [Word32.sub_eq _ _ (by omega) (by omega)]
    omega
  · exact Word32.sub_lt _ _
  · simp only [PortQueues.popped]
    split
    · exact below
    · exact counted.rrlast

/-- A `DequeueRR` call fails no assertion and takes the head of a queue, if it finds one. -/
theorem Exact.dequeued (counted : e.Exact) (paused : Nat → Bool) :
    (e.dequeueRR c paused = .ok none ∧ e.nextQueue c paused = none) ∨
      ∃ p qIndex rest, e.dequeueRR c paused = .ok (some (p, qIndex, e.popped p qIndex rest)) ∧
        e.nextQueue c paused = some qIndex ∧
        (e.queues qIndex).packets = p :: rest.packets ∧ rest.Exact ∧
        0 < e.bytesInQueueTotal := by
  cases served : e.nextQueue c paused with
  | none =>
      refine .inl ⟨?_, rfl⟩
      unfold dequeueRR
      rw [served]
      split
      · rfl
      · rfl
  | some qIndex =>
      refine .inr ?_
      obtain ⟨below, some, _⟩ := counted.nextQueue_some served
      obtain ⟨p, packets, head⟩ := List.exists_cons_of_ne_nil some
      have part := counted.held_le qIndex
      have word := counted.word
      obtain ⟨rest, taken, rfl, inner⟩ := (counted.inner qIndex).dequeued head (by omega)
      obtain ⟨_, nBytes, nPackets⟩ := counted.popped below head inner
      have size := p.size_pos
      have total : 0 < e.bytesInQueueTotal := by
        rw [← counted.nBytes]
        omega
      refine ⟨p, qIndex, rest, ?_, rfl, head, inner, total⟩
      unfold dequeueRR
      rw [if_neg (by omega), served]
      simp only [taken, ok_bind]
      rw [if_neg (by omega), if_neg (by omega)]

theorem Exact.served (counted : e.Exact) {paused : Nat → Bool} {next : PortQueues}
    (result : e.dequeueRR c paused = .ok (some (p, qIndex, next))) :
    e.nextQueue c paused = some qIndex ∧ next.Exact ∧
      (e.queues qIndex).packets = p :: (next.queues qIndex).packets ∧
      (∀ i, i ≠ qIndex → next.queues i = e.queues i) ∧
      next.rrlast = if qIndex ≠ 0 then qIndex else e.rrlast := by
  rcases counted.dequeued (c := c) paused with
    ⟨nothing, _⟩ | ⟨q, i, rest, taken, chosen, head, inner, _⟩
  · rw [nothing] at result
    exact absurd (Except.ok.inj result) (by simp)
  · rw [taken, Except.ok.injEq, Option.some.injEq] at result
    obtain ⟨rfl, same⟩ := Prod.mk.inj result
    obtain ⟨rfl, rfl⟩ := Prod.mk.inj same
    refine ⟨chosen, (counted.popped (counted.nextQueue_some chosen).1 head inner).1, ?_, ?_, rfl⟩
    · simpa [PortQueues.popped, setQueue] using head
    · intro j other
      simp [PortQueues.popped, setQueue, other]

end Steps

section Forget

def forget (e : PortQueues) : BEgressQueue :=
  ⟨fun i => (e.queues i).packets, e.bytesInQueue, e.bytesInQueueTotal, e.rrlast, e.dropped⟩

variable {c : DeviceConfig} {e : PortQueues} {p : Packet} {qIndex : Nat}

theorem Exact.forget_enqueue (counted : e.Exact) (limit : c.maxBytes ≤ dropTailMaxBytes)
    (inside : qIndex < fCnt) (word : e.bytesInQueueTotal + p.size < Word32.size) :
    (e.enqueue c p qIndex).2.forget = e.forget.enqueue c p qIndex := by
  obtain ⟨-, packets, others⟩ := counted.enqueued limit inside word
  by_cases room : (Word32.add e.bytesInQueueTotal p.size : Rat) < c.maxBytes
  · have same : (Word32.add e.forget.bytesInQueueTotal p.size : Rat) < c.maxBytes := room
    unfold BEgressQueue.enqueue
    rw [if_pos same]
    simp only [enqueue, if_pos room, if_true] at packets others ⊢
    simp only [forget, BEgressQueue.mk.injEq, and_true]
    funext i
    by_cases here : i = qIndex
    · subst here
      rw [packets]
      simp [BEgressQueue.setQueue]
    · rw [others i here]
      simp [BEgressQueue.setQueue, here]
  · have same : ¬ (Word32.add e.forget.bytesInQueueTotal p.size : Rat) < c.maxBytes := room
    unfold BEgressQueue.enqueue enqueue
    rw [if_neg same, if_neg room]
    rfl

theorem Exact.forget_nextQueue (counted : e.Exact) (paused : Nat → Bool) :
    e.forget.nextQueue c paused = e.nextQueue c paused := by
  have eligible : e.forget.eligible c paused = e.eligible c paused := by
    funext i
    unfold BEgressQueue.eligible PortQueues.eligible
    rw [show e.forget.queues i = (e.queues i).packets from rfl, (counted.inner i).nPackets]
    cases (e.queues i).packets with
    | nil => simp
    | cons p rest => simp
  unfold BEgressQueue.nextQueue nextQueue firstWanted
  rw [eligible]
  by_cases priority : e.forget.queues 0 ≠ []
  · rw [if_pos priority, if_pos ((counted.filled 0).mpr priority)]
  · rw [if_neg priority, if_neg fun count => priority ((counted.filled 0).mp count)]
    rfl

/-- `DequeueRR` does to the packets what the port without sub-queue counters does. -/
theorem Exact.forget_dequeueRR (counted : e.Exact) (paused : Nat → Bool) :
    e.dequeueRR c paused = .ok none ∧ e.forget.dequeueRR c paused = none ∨
      ∃ p qIndex after, e.dequeueRR c paused = .ok (some (p, qIndex, after)) ∧
        e.forget.dequeueRR c paused = some (p, qIndex, after.forget) := by
  have chosen := counted.forget_nextQueue (c := c) paused
  rcases counted.dequeued (c := c) paused with
    ⟨nothing, none⟩ | ⟨p, qIndex, rest, taken, some, head, -, total⟩
  · refine .inl ⟨nothing, ?_⟩
    unfold BEgressQueue.dequeueRR
    rw [chosen, none]
    split
    · rfl
    · rfl
  · refine .inr ⟨p, qIndex, _, taken, ?_⟩
    have filled : e.forget.bytesInQueueTotal ≠ 0 := Nat.ne_of_gt total
    have queue : e.forget.queues qIndex = p :: rest.packets := head
    unfold BEgressQueue.dequeueRR
    rw [if_neg filled, chosen, some]
    simp only [queue, Option.some.injEq, Prod.mk.injEq, true_and]
    have queues : (e.popped p qIndex rest).forget.queues =
        BEgressQueue.setQueue e.forget.queues qIndex rest.packets := by
      funext i
      simp only [forget, PortQueues.popped, setQueue, BEgressQueue.setQueue]
      split
      · rfl
      · rfl
    rw [← queues]
    rfl

end Forget

end PortQueues

end Floodgate
