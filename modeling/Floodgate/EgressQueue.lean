import Floodgate.Packet

/-! The egress queues of a switch port and the device around them. -/

namespace Floodgate

/-- The attributes of a `QbbNetDevice` and the limit of its queue, a double. -/
structure DeviceConfig where
  maxBytes : Rat
  pfcOnQueue : Bool
  qbbEnabled : Bool
  pauseTime : Nat

/-- `dropped` is `m_nTotalDroppedPackets`. -/
structure BEgressQueue where
  queues : Nat → List Packet
  bytesInQueue : Nat → Nat
  bytesInQueueTotal : Nat
  rrlast : Nat
  dropped : Nat

namespace BEgressQueue

def init : BEgressQueue := ⟨fun _ => [], fun _ => 0, 0, 0, 0⟩

def setQueue (queues : Nat → List Packet) (qIndex : Nat) (packets : List Packet) :
    Nat → List Packet :=
  fun i => if i = qIndex then packets else queues i

def setBytes (bytes : Nat → Nat) (qIndex value : Nat) : Nat → Nat :=
  fun i => if i = qIndex then value else bytes i

/-- A packet that does not fit is counted and lost. -/
def enqueue (c : DeviceConfig) (e : BEgressQueue) (p : Packet) (qIndex : Nat) : BEgressQueue :=
  if (Word32.add e.bytesInQueueTotal p.size : Rat) < c.maxBytes then
    { e with
      queues := setQueue e.queues qIndex (e.queues qIndex ++ [p])
      bytesInQueueTotal := Word32.add e.bytesInQueueTotal p.size
      bytesInQueue := setBytes e.bytesInQueue qIndex (Word32.add (e.bytesInQueue qIndex) p.size) }
  else { e with dropped := e.dropped + 1 }

/-- Whether the round robin may serve a queue: PFC pauses queues, or destinations of data. -/
def eligible (c : DeviceConfig) (paused : Nat → Bool) (e : BEgressQueue) (qIndex : Nat) : Bool :=
  match e.queues qIndex with
  | [] => false
  | p :: _ =>
      if c.pfcOnQueue then !paused qIndex
      else !(p.isUdp && paused p.dip)

/-- The queue to serve. Queue 0 goes first and is never paused. -/
def nextQueue (c : DeviceConfig) (paused : Nat → Bool) (e : BEgressQueue) : Option Nat :=
  if e.queues 0 ≠ [] then some 0
  else ((List.range qCnt).map fun i => (i + 1 + e.rrlast) % qCnt).find? (e.eligible c paused)

/-- `DequeueRR` with `GetLastQueue`. -/
def dequeueRR (c : DeviceConfig) (paused : Nat → Bool) (e : BEgressQueue) :
    Option (Packet × Nat × BEgressQueue) :=
  if e.bytesInQueueTotal = 0 then none
  else
    match e.nextQueue c paused with
    | none => none
    | some qIndex =>
        match e.queues qIndex with
        | [] => none
        | p :: rest => some (p, qIndex,
            { e with
              queues := setQueue e.queues qIndex rest
              bytesInQueueTotal := Word32.sub e.bytesInQueueTotal p.size
              bytesInQueue := setBytes e.bytesInQueue qIndex
                (Word32.sub (e.bytesInQueue qIndex) p.size)
              rrlast := if qIndex ≠ 0 then qIndex else e.rrlast })

/-- Taking the head `p` out of one queue. -/
structure Dequeues (e : BEgressQueue) (p : Packet) (qIndex : Nat) (after : BEgressQueue) :
    Prop where
  head : e.queues qIndex = p :: after.queues qIndex
  others : ∀ i, i ≠ qIndex → after.queues i = e.queues i
  priority : qIndex ≠ 0 → e.queues 0 = []
  below : qIndex < qCnt
  dropped : after.dropped = e.dropped

theorem dequeueRR_dequeues {c : DeviceConfig} {paused : Nat → Bool} {e after : BEgressQueue}
    {p : Packet} {qIndex : Nat} (served : e.dequeueRR c paused = some (p, qIndex, after)) :
    Dequeues e p qIndex after := by
  unfold dequeueRR at served
  split at served
  · contradiction
  cases found : e.nextQueue c paused with
  | none => simp [found] at served
  | some q =>
      simp only [found] at served
      cases head : e.queues q with
      | nil => simp [head] at served
      | cons top rest =>
          simp only [head, Option.some.injEq, Prod.mk.injEq] at served
          obtain ⟨rfl, rfl, rfl⟩ := served
          unfold nextQueue at found
          have order : (q ≠ 0 → e.queues 0 = []) ∧ q < qCnt := by
            by_cases waiting : e.queues 0 ≠ []
            · rw [if_pos waiting] at found
              obtain rfl := Option.some.inj found
              exact ⟨fun other => absurd rfl other, by decide⟩
            · rw [if_neg waiting] at found
              obtain ⟨i, _, rfl⟩ := List.mem_map.mp (List.mem_of_find?_eq_some found)
              exact ⟨fun _ => by simpa using waiting, Nat.mod_lt _ (by decide)⟩
          refine ⟨?_, ?_, order.1, order.2, rfl⟩
          · simp [setQueue, head]
          · intro i different
            simp [setQueue, different]

theorem enqueue_dropped_le (c : DeviceConfig) (e : BEgressQueue) (p : Packet) (qIndex : Nat) :
    e.dropped ≤ (e.enqueue c p qIndex).dropped := by
  unfold enqueue
  split <;> simp

theorem enqueue_queues (c : DeviceConfig) (e : BEgressQueue) (p : Packet) (qIndex : Nat) :
    ∃ taken, taken.Sublist [p] ∧
      ((e.enqueue c p qIndex).dropped = e.dropped → taken = [p]) ∧
      (e.enqueue c p qIndex).queues = setQueue e.queues qIndex (e.queues qIndex ++ taken) := by
  unfold enqueue
  split
  · exact ⟨[p], List.Sublist.refl _, fun _ => rfl, rfl⟩
  · refine ⟨[], List.nil_sublist _, fun kept => absurd kept (by simp), ?_⟩
    funext i
    simp only [setQueue, List.append_nil]
    split
    · rename_i same
      rw [same]
    · rfl

end BEgressQueue

/-- The run-time state of a device that this development follows: its queue and which queues or
destinations the other end of the link has paused. -/
structure QbbNetDevice where
  queue : BEgressQueue
  paused : Nat → Bool

namespace QbbNetDevice

def init : QbbNetDevice := ⟨BEgressQueue.init, fun _ => false⟩

/-- The enqueueing part of `SwitchSend`; its attempt to transmit is an event of its own. -/
def switchSend (c : DeviceConfig) (d : QbbNetDevice) (qIndex : Nat) (p : Packet) : QbbNetDevice :=
  { d with queue := d.queue.enqueue c p qIndex }

def setPaused (d : QbbNetDevice) (qIndex : Nat) (value : Bool) : QbbNetDevice :=
  { d with paused := fun i => if i = qIndex then value else d.paused i }

/-- `Resume` without its attempt to transmit. -/
def resume (d : QbbNetDevice) (qIndex : Nat) : Except Assertion QbbNetDevice :=
  if d.paused qIndex then .ok (d.setPaused qIndex false) else .error .mustBePaused

def receivePfc (c : DeviceConfig) (d : QbbNetDevice) (time qIndex : Nat) :
    Except Assertion QbbNetDevice :=
  if !c.qbbEnabled then .ok d
  else if time > 0 then .ok (d.setPaused qIndex true)
  else d.resume qIndex

def receive (c : DeviceConfig) (d : QbbNetDevice) (p : Packet) : Except Assertion QbbNetDevice :=
  match p.body with
  | .pfc time qIndex => d.receivePfc c time qIndex
  | _ => .ok d

end QbbNetDevice

/-- Control frames of switches: layer-2 and layer-3 headers around at most one MTU. -/
def controlPacket (size : Nat) (fits : size + 58 < Word32.size) (sip dip : Nat) (body : Body) :
    Packet where
  size := size + 58
  sip := sip
  dip := dip
  pg := 0
  flowId := none
  body := body
  size_pos := by omega
  size_lt := fits
  pg_lt := by decide

/-- The frame of `SendPfc`: type 0 pauses, any other type resumes. -/
def pfcPacket (c : DeviceConfig) (qIndex type : Nat) : Packet :=
  controlPacket 12 (by decide) 0 0 (.pfc (if type = 0 then c.pauseTime else 0) qIndex)

theorem payload_fits (g : Settings) (size : Nat) :
    min g.packetPayload size + 58 < Word32.size := by
  have bound := g.packetPayload_lt
  omega

def switchACKPacket (g : Settings) (tag : SwitchACKTag) (src dst : Nat) : Packet :=
  controlPacket (min g.packetPayload (tag.getPacketSize g)) (payload_fits g _) src dst
    (.switchAck tag)

def switchSYNPacket (g : Settings) (tag : SwitchSYNTag) (src dst : Nat) : Packet :=
  controlPacket (min g.packetPayload (tag.getPacketSize g)) (payload_fits g _) src dst
    (.switchSyn tag)

end Floodgate
