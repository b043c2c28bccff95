import Floodgate.VoqEntries

/-! Properties of single egress queues along the steps of a switch, and the byte count with which a
queue decides that it is empty. -/

namespace Floodgate

open Std Outcome LabelledRun

structure QueueInvariant (c : SwitchNodeConfig) (keep : Nat → BEgressQueue → Prop) : Prop where
  enqueue : ∀ {dev : Nat} {e : BEgressQueue}, keep dev e → ∀ (p : Packet) (qIndex : Nat),
    qIndex < qCnt → keep dev (e.enqueue (c.device dev) p qIndex)
  dequeue : ∀ {dev : Nat} {e after : BEgressQueue} {p : Packet} {qIndex : Nat}, keep dev e →
    e.Dequeues p qIndex after →
    after.bytesInQueueTotal = Word32.sub e.bytesInQueueTotal p.size → keep dev after

theorem BEgressQueue.dequeueRR_total {c : DeviceConfig} {paused : Nat → Bool}
    {e after : BEgressQueue} {p : Packet} {qIndex : Nat}
    (served : e.dequeueRR c paused = some (p, qIndex, after)) :
    after.bytesInQueueTotal = Word32.sub e.bytesInQueueTotal p.size := by
  unfold dequeueRR at served
  split at served
  · contradiction
  · split at served
    · contradiction
    · split at served
      · contradiction
      · simp only [Option.some.injEq, Prod.mk.injEq] at served
        obtain ⟨rfl, rfl, rfl⟩ := served
        rfl

namespace BEgressQueue

def sumBy (weight : Nat → Packet → Nat) (e : BEgressQueue) : Nat :=
  ∑ qIndex ∈ Finset.range qCnt, ((e.queues qIndex).map (weight qIndex)).sum

def bytes (e : BEgressQueue) : Nat := e.sumBy fun _ p => p.size

/-- `m_bytesInQueueTotal`, a 32-bit variable, counts what is queued, in the queues of a switch. -/
structure Totalled (e : BEgressQueue) : Prop where
  total : e.bytesInQueueTotal = Word32.trunc e.bytes
  beyond : ∀ qIndex, qCnt ≤ qIndex → e.queues qIndex = []

section Totals

variable {c : DeviceConfig} {e after : BEgressQueue} {p : Packet} {qIndex : Nat}

theorem Dequeues.sumBy (dequeues : Dequeues e p qIndex after) (weight : Nat → Packet → Nat) :
    after.sumBy weight + weight qIndex p = e.sumBy weight := by
  have change := MapSum.sum_change (fun q => ((after.queues q).map (weight q)).sum)
    (fun q => ((e.queues q).map (weight q)).sum) (Finset.mem_range.mpr dequeues.below)
    fun other _ different => by simp only [dequeues.others other different]
  simp only [dequeues.head, List.map_cons, List.sum_cons] at change
  unfold BEgressQueue.sumBy
  omega

theorem sumBy_append (below : qIndex < qCnt)
    (changed : after.queues = setQueue e.queues qIndex (e.queues qIndex ++ [p]))
    (weight : Nat → Packet → Nat) : after.sumBy weight = e.sumBy weight + weight qIndex p := by
  have change := MapSum.sum_change (fun q => ((after.queues q).map (weight q)).sum)
    (fun q => ((e.queues q).map (weight q)).sum) (Finset.mem_range.mpr below)
    fun other _ different => by simp only [changed, setQueue, if_neg different]
  simp only [changed, setQueue, if_true, List.map_append, List.sum_append, List.map_cons,
    List.map_nil, List.sum_cons, List.sum_nil] at change
  unfold BEgressQueue.sumBy
  simp only [changed, setQueue]
  omega

theorem Totalled.init : Totalled BEgressQueue.init :=
  ⟨by simp [BEgressQueue.init, bytes, BEgressQueue.sumBy, Word32.trunc], fun _ _ => rfl⟩

theorem Totalled.enqueued (totalled : Totalled e) (p : Packet) (below : qIndex < qCnt) :
    Totalled (e.enqueue c p qIndex) := by
  unfold enqueue
  split
  · constructor
    · have grown := @sumBy_append e { e with
        queues := setQueue e.queues qIndex (e.queues qIndex ++ [p]) } p qIndex below rfl
          fun _ p => p.size
      have total := totalled.total
      unfold bytes at total ⊢
      simp only [total, Word32.add_trunc]
      exact congrArg Word32.trunc grown.symm
    · intro q beyond
      have other : q ≠ qIndex := by omega
      simp only [setQueue, if_neg other]
      exact totalled.beyond q beyond
  · exact ⟨totalled.total, totalled.beyond⟩

theorem Totalled.dequeued (totalled : Totalled e) (dequeues : Dequeues e p qIndex after)
    (total : after.bytesInQueueTotal = Word32.sub e.bytesInQueueTotal p.size) : Totalled after := by
  constructor
  · have less := dequeues.sumBy fun _ p => p.size
    have before := totalled.total
    unfold bytes at before ⊢
    rw [total, before, Word32.sub_trunc _ _ p.size_lt (by omega)]
    congr 1
    omega
  · intro q beyond
    have below := dequeues.below
    rw [dequeues.others q (by omega)]
    exact totalled.beyond q beyond

theorem totalled_invariant (c : SwitchNodeConfig) : QueueInvariant c fun _ e => Totalled e :=
  ⟨fun kept p _ below => kept.enqueued p below, fun kept dequeues total => kept.dequeued dequeues total⟩

/-- A total of zero bytes, where it cannot have wrapped, means that nothing is queued. -/
theorem Totalled.empty (totalled : Totalled e) (small : e.bytes < Word32.size)
    (zero : e.bytesInQueueTotal = 0) (q : Nat) : e.queues q = [] := by
  have total := totalled.total
  rw [zero, Word32.trunc_eq _ small] at total
  by_cases below : q < qCnt
  · unfold bytes BEgressQueue.sumBy at total
    have none := Finset.sum_eq_zero_iff.mp total.symm q (Finset.mem_range.mpr below)
    cases queue : e.queues q with
    | nil => rfl
    | cons p rest =>
        have positive := p.size_pos
        simp only [queue, List.map_cons, List.sum_cons] at none
        omega
  · exact totalled.beyond q (by omega)

end Totals

end BEgressQueue

namespace SwitchNode

def Kept (keep : Nat → BEgressQueue → Prop) (s : SwitchNode) : Prop :=
  ∀ dev, keep dev (s.device dev).queue

section Sends

variable {c : SwitchNodeConfig} {keep : Nat → BEgressQueue → Prop} {s : SwitchNode}

theorem Kept.same {after : SwitchNode} (kept : Kept keep s) (device : after.device = s.device) :
    Kept keep after := by
  intro dev
  rw [device]
  exact kept dev

theorem Kept.sent (kept : Kept keep s) (invariant : QueueInvariant c keep) (dev : Nat) {qIndex : Nat}
    (below : qIndex < qCnt) (p : Packet) : Kept keep (s.switchSend c dev qIndex p) := by
  intro i
  by_cases here : i = dev
  · subst here
    simpa [switchSend, setDevice, QbbNetDevice.switchSend] using
      invariant.enqueue (kept i) p qIndex below
  · simpa [switchSend, setDevice, here] using kept i

theorem Kept.control (kept : Kept keep s) (invariant : QueueInvariant c keep) (dev : Nat)
    (p : Packet) : Kept keep (s.switchSend c dev 0 p) :=
  kept.sent invariant dev (by decide) p

theorem Kept.paused (kept : Kept keep s) (invariant : QueueInvariant c keep) (inDev fine : Nat) :
    Kept keep (s.checkAndSendPfc c inDev fine) := by
  unfold checkAndSendPfc
  split
  · exact kept.control invariant inDev _
  · exact kept

theorem Kept.resumed (kept : Kept keep s) (invariant : QueueInvariant c keep) (inDev fine : Nat) :
    Kept keep (s.checkAndSendResume c inDev fine) := by
  unfold checkAndSendResume
  split
  · exact kept.control invariant inDev _
  · exact kept

theorem Kept.admitted (kept : Kept keep s) (invariant : QueueInvariant c keep)
    (inDev outDev qIndex : Nat) (p : Packet) :
    Kept keep (s.admitPacket c inDev outDev qIndex p) := by
  unfold admitPacket
  split
  · exact kept
  · have charged : Kept keep (s.charge c inDev outDev qIndex p) := by
      apply kept.same
      unfold charge
      rfl
    exact charged.paused invariant _ _

theorem Kept.departed (kept : Kept keep s) (invariant : QueueInvariant c keep)
    (inDev ifIndex qIndex : Nat) (p : Packet) : Kept keep (s.depart c inDev ifIndex qIndex p) := by
  unfold depart
  split
  · exact kept
  · have discharged : Kept keep (s.discharge c inDev ifIndex qIndex p) := by
      apply kept.same
      unfold discharge
      rfl
    exact discharged.resumed invariant _ _

theorem Kept.acked (kept : Kept keep s) (invariant : QueueInvariant c keep) (route : Nat → Nat)
    (dev : Nat) (tag : SwitchACKTag) :
    Holds (fun _ => True) (Kept keep) (s.sendAccSwitchACK c route dev tag) := by
  unfold sendAccSwitchACK
  apply (holds_any _).bind
  intro cleaned _ _
  cases c.settings.resetOnlyToRSwitchWin with
  | true => exact (kept.control invariant (route dev) _).same rfl
  | false => exact (kept.control invariant dev _).same rfl

theorem Kept.dstAcked (kept : Kept keep s) (invariant : QueueInvariant c keep)
    (inDev dst ackDst size : Nat) :
    Holds (fun _ => True) (Kept keep) (s.sendSwitchACK c inDev dst ackDst size) := by
  unfold sendSwitchACK
  apply (holds_any _).bind
  intro cleaned _ _
  exact (kept.control invariant inDev _).same rfl

theorem Kept.checked (kept : Kept keep s) (invariant : QueueInvariant c keep) (route : Nat → Nat)
    (p : Packet) (threshold creditId : Nat) :
    Holds (fun _ => True) (fun sent => Kept keep sent.2)
      (s.checkAndSendACK c route p threshold creditId) := by
  unfold checkAndSendACK
  split
  · apply (holds_any _).bind
    intro enough _ _
    split
    · apply (kept.acked invariant route creditId _).bind
      intro sent _ after
      exact after
    · exact kept
  · apply (holds_any _).bind
    intro credit _ _
    split
    · apply (kept.dstAcked invariant creditId p.dip _ _).bind
      intro sent _ after
      exact after
    · exact kept
  · exact kept

theorem Kept.returned (kept : Kept keep s) (invariant : QueueInvariant c keep) (route : Nat → Nat)
    (p : Packet) (creditId : Nat) :
    Holds (fun _ => True) (Kept keep) (s.returnCredits c route p creditId) := by
  have loop : ∀ {state : SwitchNode}, Kept keep state → ∀ threshold ids,
      Holds (fun _ => True) (fun sent => Kept keep sent.2)
        (state.checkAndSendACKs c route p threshold ids) := by
    intro state before threshold ids
    apply Holds.foldlM (fun sent : Bool × SwitchNode => Kept keep sent.2) _ _ before
    intro sent creditId _ now
    apply (now.checked invariant route p threshold creditId).bind
    intro after _ later
    exact later
  unfold returnCredits
  apply (loop kept _ _).bind
  intro first _ before
  split
  · apply (loop before _ _).bind
    intro flushed _ after
    exact after
  · exact before

theorem Kept.timedOut (kept : Kept keep s) (invariant : QueueInvariant c keep) (route : Nat → Nat)
    (dev dst : Nat) : Holds (fun _ => True) (Kept keep) (s.creditTimeout c route dev dst) := by
  unfold creditTimeout
  split
  · apply (holds_any _).bind
    intro enough _ _
    split
    · exact kept.acked invariant route dev _
    · exact kept
  · apply (holds_any _).bind
    intro credit _ _
    split
    · exact kept.dstAcked invariant dev dst _ _
    · exact kept
  · trivial

theorem Kept.probed (kept : Kept keep s) (invariant : QueueInvariant c keep) (route : Nat → Nat)
    (dev : Nat) (recent : Nat → Bool) : Kept keep (s.synTimeout c route dev recent) := by
  unfold synTimeout sendSYN
  split
  · split
    · exact kept.control invariant _ _
    · exact kept.control invariant _ _
  · exact kept

theorem Kept.synced (kept : Kept keep s) (invariant : QueueInvariant c keep) (route : Nat → Nat)
    (tag : SwitchSYNTag) (sip dip inDev : Nat) :
    Holds (fun _ => True) (Kept keep) (s.receiveSYN c route tag sip dip inDev) := by
  unfold receiveSYN
  simp only
  generalize s.downstream.checkSYN c.settings (c.creditRow inDev sip) tag = checked
  have found : Kept keep { s with downstream := checked.2 } := kept
  split
  · exact kept
  · split
    · apply (holds_any _).bind
      intro acks _ _
      exact found.acked invariant route _ acks
    · apply Holds.foldlM (Kept keep)
      · exact found
      · intro state dst _ before
        exact before.dstAcked invariant inDev dst dip _
    · exact kept

theorem Kept.passedOn (kept : Kept keep s) (invariant : QueueInvariant c keep) (outDev : Nat)
    {qIndex : Nat} (below : qIndex < qCnt) (p : Packet) :
    Holds (fun _ => True) (Kept keep) (s.passOn c outDev qIndex p) := by
  unfold passOn
  split
  · apply (holds_any _).bind
    intro routed _ _
    split
    · exact Kept.sent (kept.same rfl) invariant outDev below _
    · exact kept
  · exact kept.sent invariant outDev below p

theorem Kept.forwarded (kept : Kept keep s) (invariant : QueueInvariant c keep) (inDev : Nat)
    (outDev : Option Nat) (p : Packet) :
    Holds (fun _ => True) (Kept keep) (s.forward c inDev outDev p) := by
  unfold forward
  split
  · exact kept
  · simp only
    split
    · exact (kept.admitted invariant inDev _ _ p).passedOn invariant _ (qIndexOf_lt c p) p
    · exact kept

theorem Kept.recorded (kept : Kept keep s) (inDev : Nat) (p : Packet) :
    Kept keep (s.recordPsn c inDev p).2 := by
  unfold recordPsn
  split
  · exact kept
  · exact kept

theorem Kept.received (kept : Kept keep s) (invariant : QueueInvariant c keep) (route : Nat → Nat)
    (inDev : Nat) (outDev : Option Nat) (p : Packet) :
    Holds (fun _ => True) (Kept keep) (s.receive c route inDev outDev p) := by
  unfold receive
  split
  · apply (holds_any _).bind
    intro device received _ dev
    have same := receive_queue received
    by_cases here : dev = inDev
    · subst here
      simpa [setDevice, same] using kept dev
    · simpa [setDevice, here] using kept dev
  · unfold enter
    split
    · exact kept.synced invariant route _ _ _ _
    · simp only
      have recorded := @Kept.recorded c keep s kept inDev (p.setFlowId (some inDev))
      split
      · apply (holds_any _).bind
        intro restored _ _
        exact recorded
      · exact recorded.forwarded invariant inDev outDev _

theorem Kept.notified (kept : Kept keep s) (invariant : QueueInvariant c keep) (route : Nat → Nat)
    (ifIndex qIndex : Nat) (p : Packet) :
    Holds (fun _ => True) (fun sent => Kept keep sent.2)
      (s.notifyDequeue c route ifIndex qIndex p) := by
  have departed := kept.departed invariant (p.flowId.getD 0) ifIndex qIndex p
  have credited : ∀ d, Kept keep
      { s.depart c (p.flowId.getD 0) ifIndex qIndex p with downstream := d } :=
    fun _ => departed.same rfl
  unfold notifyDequeue
  simp only
  split
  · apply (holds_any _).bind
    intro ignore _ _
    split
    · exact departed
    · split
      · split
        · trivial
        · apply ((credited _).returned invariant route p _).bind
          intro returned _ after
          exact after
      · apply ((credited _).returned invariant route p _).bind
        intro returned _ after
        exact after
  · exact departed

theorem Kept.transmitted (kept : Kept keep s) (invariant : QueueInvariant c keep)
    (route : Nat → Nat) (ifIndex : Nat) :
    Holds (fun _ => True) (fun sent => Kept keep sent.2) (s.transmit c route ifIndex) := by
  unfold transmit
  cases served : (s.device ifIndex).queue.dequeueRR (c.device ifIndex)
      (s.device ifIndex).paused with
  | none => exact kept
  | some head =>
      obtain ⟨p, qIndex, queue⟩ := head
      have taken : Kept keep (s.setDevice ifIndex { s.device ifIndex with queue := queue }) := by
        intro dev
        by_cases here : dev = ifIndex
        · subst here
          simpa [setDevice] using invariant.dequeue (kept dev)
            (BEgressQueue.dequeueRR_dequeues served) (BEgressQueue.dequeueRR_total served)
        · simpa [setDevice, here] using kept dev
      apply (taken.notified invariant route ifIndex qIndex p).bind
      intro sent _ after
      exact after

theorem Kept.released (kept : Kept keep s) (invariant : QueueInvariant c keep)
    (units : ∀ unit, s.Buffered unit → unit.qIndex < qCnt) (voq : Nat × Nat) :
    Holds (fun _ => True) (Kept keep) (s.release c voq) := by
  unfold release
  apply (Upstream.checkAndSendOne_yields voq).bind
  rintro ⟨sent, up⟩ _ contents
  cases sent with
  | none => exact kept.same rfl
  | some unit =>
      obtain ⟨top, yields⟩ := contents
      have below : unit.qIndex < qCnt := by
        have place := units top ⟨voq, yields.top_mem⟩
        rcases yields.unit with rfl | ⟨psn, rfl⟩
        · exact place
        · exact place
      have popped : Kept keep { s with upstream := up } := kept.same rfl
      exact popped.sent invariant unit.outDev below unit.pkt

theorem Kept.handled {after : SwitchNode} (kept : Kept keep s) (invariant : QueueInvariant c keep)
    (units : ∀ unit, s.Buffered unit → unit.qIndex < qCnt) {label : NodeEvent × Option Packet}
    (step : Step c s label after) : Kept keep after := by
  obtain ⟨event, out⟩ := label
  obtain ⟨-, route, success⟩ := step
  cases event with
  | receive inDev outDev p =>
      obtain ⟨middle, received, success⟩ := bind_ok.mp success
      obtain ⟨-, rfl⟩ := Prod.mk.inj (Except.ok.inj success)
      exact (kept.received invariant route inDev outDev p).of_ok received
  | goOn inDev outDev p tagged =>
      obtain ⟨middle, forwarded, success⟩ := bind_ok.mp success
      obtain ⟨-, rfl⟩ := Prod.mk.inj (Except.ok.inj success)
      exact (kept.forwarded invariant inDev outDev _).of_ok forwarded
  | release voq =>
      obtain ⟨middle, released, success⟩ := bind_ok.mp success
      obtain ⟨-, rfl⟩ := Prod.mk.inj (Except.ok.inj success)
      exact (kept.released invariant units voq).of_ok released
  | transmit ifIndex => exact (kept.transmitted invariant route ifIndex).of_ok success
  | creditTimeout dev dst =>
      obtain ⟨middle, fired, success⟩ := bind_ok.mp success
      obtain ⟨-, rfl⟩ := Prod.mk.inj (Except.ok.inj success)
      exact (kept.timedOut invariant route dev dst).of_ok fired
  | synTimeout dev recent =>
      obtain ⟨-, rfl⟩ := Prod.mk.inj (Except.ok.inj success)
      exact kept.probed invariant route dev recent

end Sends

end SwitchNode

end Floodgate
