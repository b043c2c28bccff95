import Floodgate.Library.LabelledRun
import Floodgate.RdmaQueuePair
import Mathlib.Data.List.Nodup

/-! The two message queues of a queue pair in `qp_mode` under any sequence of its operations: which
messages they hold. -/

namespace Floodgate

open Outcome LabelledRun

namespace RdmaQueuePair

def empty (g : RdmaSettings) : RdmaQueuePair where
  current := ⟨0, 0, 0, 0, 0, 0, 0, 0, 0, false, ∅, ∅, false⟩
  rdmaMsgs := []
  rdmaMsgsUnfinished := []
  operations := fun _ => ⟨⟨0, 0, 0, 0, 0, 0, 0, 0, 0, false, ∅, ∅, false⟩, 0⟩
  pacing := g.initial
  eventTimeoutRetransmission := none

def tag (q : RdmaQueuePair) (id : Nat) : Nat × Nat := (id, q.msgSeqOf id)

def queued (q : RdmaQueuePair) : List Nat := q.rdmaMsgs ++ q.rdmaMsgsUnfinished

def messages (q : RdmaQueuePair) : List (Nat × Nat) := q.queued.map q.tag

end RdmaQueuePair

structure MessageQueues where
  now : Nat
  qp : RdmaQueuePair
  added : List (Nat × Nat)
  removed : List (Nat × Nat)

inductive QueueEvent where
  | add (id : Nat) (operation : RdmaOperation)
  | sent (sndNxt : Nat)
  | move
  | acknowledge (ack : Nat) (last : Bool)
  | acknowledgeMsg (ack msgSeq : Nat) (last : Bool)
  | recoverMsg (msgSeq : Nat)
  | recoverMSG
  | resetMSGRTOTime (msgSeq : Nat)
  | finish (msgSeq : Nat)
  | wait (later : Nat)

namespace MessageQueues

def create (g : RdmaSettings) : MessageQueues := ⟨0, RdmaQueuePair.empty g, [], []⟩

/-- One operation. Numbers increase from message to message. -/
inductive Step (g : RdmaSettings) (s : MessageQueues) : QueueEvent → MessageQueues → Prop
  | add {id : Nat} {operation : RdmaOperation}
      (fresh : ∀ m ∈ s.added, m.1 ≠ id ∧ m.2 < operation.status.msgSeq) :
      Step g s (.add id operation)
        { s with
          qp := s.qp.addRdmaOperation g id operation
          added := s.added ++ [(id, operation.status.msgSeq)] }
  | sent (sndNxt : Nat) :
      Step g s (.sent sndNxt)
        { s with qp := { s.qp with current := { s.qp.current with sndNxt := sndNxt } } }
  | move {qp : RdmaQueuePair} (success : s.qp.moveRdmaOperationToUnfinished g = .ok qp) :
      Step g s .move { s with qp := qp }
  | acknowledge (ack : Nat) (last : Bool) :
      Step g s (.acknowledge ack last)
        { s with qp := { s.qp with current := s.qp.current.acknowledge g ack last } }
  | acknowledgeMsg (ack msgSeq : Nat) (last : Bool) :
      Step g s (.acknowledgeMsg ack msgSeq last)
        { s with qp := s.qp.acknowledgeMsg g ack msgSeq last }
  | recoverMsg (msgSeq : Nat) :
      Step g s (.recoverMsg msgSeq) { s with qp := s.qp.recoverMsg g msgSeq }
  | recoverMSG : Step g s .recoverMSG { s with qp := s.qp.recoverMSG g s.now }
  | resetMSGRTOTime {msgSeq : Nat} {qp : RdmaQueuePair}
      (success : s.qp.resetMSGRTOTime g s.now msgSeq = .ok qp) :
      Step g s (.resetMSGRTOTime msgSeq) { s with qp := qp }
  | finish {msgSeq id : Nat} (finished : s.qp.checkFinish g msgSeq = some id) :
      Step g s (.finish msgSeq)
        { s with
          qp := (s.qp.removeRdmaOperation msgSeq).2
          removed := s.removed ++ [s.qp.tag id] }
  | wait {later : Nat} (forward : s.now ≤ later) : Step g s (.wait later) { s with now := later }

/-- Every message that was added and not removed is in one of the queues, once, nothing else is,
and the sending queue is in the order of the numbers. -/
structure Conserved (s : MessageQueues) : Prop where
  once : s.qp.messages.Nodup
  exactly : ∀ m, m ∈ s.qp.messages ↔ m ∈ s.added ∧ m ∉ s.removed
  sorted : (s.qp.rdmaMsgs.map s.qp.msgSeqOf).Pairwise (· < ·)

/-- `RecoverMSG` moves every overdue message to the sending queue. -/
def Recovers (g : RdmaSettings) (s : MessageQueues) : QueueEvent → Prop
  | .recoverMSG => ∀ id ∈ s.qp.rdmaMsgsUnfinished, s.qp.overdue g s.now id = true →
      id ∈ (s.qp.recoverMSG g s.now).rdmaMsgs ∧
        id ∉ (s.qp.recoverMSG g s.now).rdmaMsgsUnfinished
  | _ => True

def FrontCached (q : RdmaQueuePair) : Prop :=
  ∀ front ∈ q.rdmaMsgs.head?, q.current.msgSeq = q.msgSeqOf front

/-- The condition on an operation: the queue pair is written back to the message that it came from,
and no message of the unfinished queue is overdue when `RecoverMSG` runs. -/
def KeepsMessages (g : RdmaSettings) (s : MessageQueues) : QueueEvent → Prop
  | .move => FrontCached s.qp
  | .recoverMsg msgSeq =>
      (∃ id ∈ s.qp.rdmaMsgsUnfinished, s.qp.msgSeqOf id = msgSeq) → FrontCached s.qp
  | .recoverMSG => ∀ id ∈ s.qp.rdmaMsgsUnfinished, s.qp.overdue g s.now id = false
  | _ => True

structure Registered (s : MessageQueues) : Prop where
  added : s.added.Pairwise fun earlier later => earlier.1 ≠ later.1 ∧ earlier.2 < later.2
  removed : s.removed ⊆ s.added

end MessageQueues

section Frames

variable {g : RdmaSettings} {q after : RdmaQueuePair}

structure SameMessages (before after : RdmaQueuePair) : Prop where
  rdmaMsgs : after.rdmaMsgs = before.rdmaMsgs
  rdmaMsgsUnfinished : after.rdmaMsgsUnfinished = before.rdmaMsgsUnfinished
  msgSeqOf : ∀ id, after.msgSeqOf id = before.msgSeqOf id

theorem SameMessages.messages (same : SameMessages q after) : after.messages = q.messages := by
  unfold RdmaQueuePair.messages RdmaQueuePair.queued
  rw [same.rdmaMsgs, same.rdmaMsgsUnfinished]
  apply List.map_congr_left
  intro id _
  exact Prod.ext rfl (same.msgSeqOf id)

theorem acknowledge_msgSeq (m : MsgStatus) (ack : Nat) (last : Bool) :
    (m.acknowledge g ack last).msgSeq = m.msgSeq := by
  unfold MsgStatus.acknowledge MsgStatus.updateReceivedACK
  split_ifs
  all_goals rfl

theorem sameMessages_acknowledgeMsg (ack msgSeq : Nat) (last : Bool) :
    SameMessages q (q.acknowledgeMsg g ack msgSeq last) := by
  refine ⟨rfl, rfl, fun id => ?_⟩
  simp only [RdmaQueuePair.msgSeqOf, RdmaQueuePair.acknowledgeMsg]
  split
  · exact acknowledge_msgSeq _ ack last
  · rfl

theorem sameMessages_recoverAll (ids : List Nat) : SameMessages q (q.recoverAll g ids) := by
  refine ⟨rfl, rfl, fun id => ?_⟩
  simp only [RdmaQueuePair.msgSeqOf, RdmaQueuePair.recoverAll]
  split
  · rfl
  · rfl

theorem touch_status (now msgSeq id : Nat) :
    ((q.touch now msgSeq).operations id).status = (q.operations id).status :=
  (apply_ite RdmaOperation.status _ _ _).trans (ite_self _)

theorem sameMessages_resetMSGRTOTime {now msgSeq : Nat}
    (success : q.resetMSGRTOTime g now msgSeq = .ok after) : SameMessages q after := by
  have touched : SameMessages q (q.touch now msgSeq) :=
    ⟨rfl, rfl, fun id => congrArg MsgStatus.msgSeq (touch_status now msgSeq id)⟩
  unfold RdmaQueuePair.resetMSGRTOTime at success
  obtain ⟨inflight, _, success⟩ := bind_ok.mp success
  split at success
  · rw [← Except.ok.inj success]
    exact ⟨touched.rdmaMsgs, touched.rdmaMsgsUnfinished, touched.msgSeqOf⟩
  · rw [← Except.ok.inj success]
    exact touched

/-- `LoadQPStatus` does not touch the messages. -/
theorem sameMessages_loadQPStatus (q : RdmaQueuePair) : SameMessages q (q.loadQPStatus g) := by
  unfold RdmaQueuePair.loadQPStatus
  split
  · exact ⟨rfl, rfl, fun _ => rfl⟩
  · exact ⟨rfl, rfl, fun _ => rfl⟩

theorem loadQPStatus_rdmaMsgs : (q.loadQPStatus g).rdmaMsgs = q.rdmaMsgs :=
  (sameMessages_loadQPStatus q).rdmaMsgs

/-- `LoadMsgStatus` moves nothing; it gives the front the number of the queue pair. -/
theorem loadMsgStatus_msgSeqOf (id : Nat) :
    q.loadMsgStatus.msgSeqOf id =
      if q.rdmaMsgs.head? = some id then q.current.msgSeq else q.msgSeqOf id := by
  unfold RdmaQueuePair.loadMsgStatus
  split
  · rename_i front rest queue
    simp only [RdmaQueuePair.msgSeqOf, RdmaQueuePair.setOperation, queue, List.head?_cons,
      Option.some.injEq]
    by_cases same : id = front
    · simp [same]
    · simp [same, Ne.symm same]
  · rename_i queue
    simp [queue]

theorem loadMsgStatus_queues :
    q.loadMsgStatus.rdmaMsgs = q.rdmaMsgs ∧
      q.loadMsgStatus.rdmaMsgsUnfinished = q.rdmaMsgsUnfinished := by
  unfold RdmaQueuePair.loadMsgStatus
  split
  · exact ⟨rfl, rfl⟩
  · exact ⟨rfl, rfl⟩

theorem insertTarget_perm (target : Nat) (ids : List Nat) :
    (q.insertTarget target ids).Perm (target :: ids) := by
  induction ids with
  | nil => exact List.Perm.refl _
  | cons curr rest ih =>
      simp only [RdmaQueuePair.insertTarget]
      split
      · exact List.Perm.refl _
      · exact (ih.cons curr).trans (List.Perm.swap target curr rest)

theorem insertTarget_sorted {target : Nat} {ids : List Nat}
    (sorted : (ids.map q.msgSeqOf).Pairwise (· < ·))
    (other : ∀ id ∈ ids, q.msgSeqOf id ≠ q.msgSeqOf target) :
    ((q.insertTarget target ids).map q.msgSeqOf).Pairwise (· < ·) := by
  induction ids with
  | nil => simp [RdmaQueuePair.insertTarget]
  | cons curr rest ih =>
      simp only [List.map_cons, List.pairwise_cons, List.mem_map, forall_exists_index, and_imp,
        forall_apply_eq_imp_iff₂] at sorted
      obtain ⟨least, sorted⟩ := sorted
      have here := other curr (by simp)
      simp only [RdmaQueuePair.insertTarget]
      split
      · rename_i larger
        simp only [List.map_cons, List.pairwise_cons, List.mem_cons, List.mem_map,
          forall_eq_or_imp, forall_exists_index, and_imp, forall_apply_eq_imp_iff₂]
        refine ⟨⟨larger, fun id member => ?_⟩, least, sorted⟩
        have above := least id member
        omega
      · rename_i notLarger
        have tail := ih sorted fun id member => other id (List.mem_cons_of_mem _ member)
        simp only [List.map_cons, List.pairwise_cons, List.mem_map, forall_exists_index, and_imp,
          forall_apply_eq_imp_iff₂]
        refine ⟨fun id member => ?_, tail⟩
        rcases List.mem_cons.mp ((insertTarget_perm target rest).mem_iff.mp member) with rfl | later
        · omega
        · exact least id later

theorem mergeTargets_nil (ids : List Nat) : q.mergeTargets [] ids = ids := by
  induction ids with
  | nil => rfl
  | cons curr rest ih => simp [RdmaQueuePair.mergeTargets, ih]

/-- `RecoverMSG` without an overdue message in the unfinished queue moves nothing. -/
theorem sameMessages_recoverMSG {now : Nat}
    (none : ∀ id ∈ q.rdmaMsgsUnfinished, q.overdue g now id = false) :
    SameMessages q (q.recoverMSG g now) := by
  have late : q.rdmaMsgsUnfinished.filter (q.overdue g now) = [] :=
    List.filter_eq_nil_iff.mpr fun id member => by simp [none id member]
  unfold RdmaQueuePair.recoverMSG
  simp only [late, List.mergeSort_nil, if_true, mergeTargets_nil]
  refine ⟨rfl, rfl, fun id => ?_⟩
  exact ((sameMessages_recoverAll _).msgSeqOf id).trans ((sameMessages_recoverAll []).msgSeqOf id)

theorem recoverMSG_unfinished {now : Nat} :
    (q.recoverMSG g now).rdmaMsgsUnfinished = q.rdmaMsgsUnfinished := by
  unfold RdmaQueuePair.recoverMSG
  simp only
  split
  · rfl
  · rw [(sameMessages_loadQPStatus _).rdmaMsgsUnfinished]
    exact loadMsgStatus_queues.2

/-- `RemoveRdmaOperation` looks into the sending queue only if the unfinished queue has no message
of that number. -/
theorem removeRdmaOperation_parts (q : RdmaQueuePair) (msgSeq : Nat) :
    (q.removeRdmaOperation msgSeq).2.operations = q.operations ∧
      (q.removeRdmaOperation msgSeq).2.current = q.current ∧
      ((∃ id ∈ q.rdmaMsgsUnfinished, q.msgSeqOf id = msgSeq) ∧
          (q.removeRdmaOperation msgSeq).2.rdmaMsgs = q.rdmaMsgs ∧
          (q.removeRdmaOperation msgSeq).2.rdmaMsgsUnfinished =
            q.rdmaMsgsUnfinished.filter (fun id => q.msgSeqOf id ≠ msgSeq) ∨
        (∀ id ∈ q.rdmaMsgsUnfinished, q.msgSeqOf id ≠ msgSeq) ∧
          (q.removeRdmaOperation msgSeq).2.rdmaMsgs =
            q.rdmaMsgs.filter (fun id => q.msgSeqOf id ≠ msgSeq) ∧
          (q.removeRdmaOperation msgSeq).2.rdmaMsgsUnfinished = q.rdmaMsgsUnfinished) := by
  unfold RdmaQueuePair.removeRdmaOperation
  simp only
  cases found : q.rdmaMsgsUnfinished.any fun id => decide (q.msgSeqOf id = msgSeq) with
  | true =>
      have present : ∃ id ∈ q.rdmaMsgsUnfinished, q.msgSeqOf id = msgSeq := by simpa using found
      simp only [if_true]
      split
      · exact ⟨rfl, rfl, .inl ⟨present, rfl, rfl⟩⟩
      · exact ⟨rfl, rfl, .inl ⟨present, rfl, rfl⟩⟩
  | false =>
      have absent : ∀ id ∈ q.rdmaMsgsUnfinished, q.msgSeqOf id ≠ msgSeq := by simpa using found
      simp only [Bool.false_eq_true, if_false]
      split
      · exact ⟨rfl, rfl, .inr ⟨absent, rfl, rfl⟩⟩
      · exact ⟨rfl, rfl, .inr ⟨absent, rfl, rfl⟩⟩

end Frames

section Steps

open MessageQueues RdmaQueuePair

variable {g : RdmaSettings} {s next : MessageQueues}

theorem mem_messages {q : RdmaQueuePair} {m : Nat × Nat} :
    m ∈ q.messages ↔ ∃ id ∈ q.queued, q.tag id = m := by
  simp [messages]

theorem MessageQueues.Registered.distinct (registered : Registered s) {first second : Nat × Nat}
    (one : first ∈ s.added) (other : second ∈ s.added) (different : first ≠ second) :
    first.1 ≠ second.1 ∧ first.2 ≠ second.2 := by
  have symmetric : Std.Symm fun earlier later : Nat × Nat =>
      earlier.1 ≠ later.1 ∧ earlier.2 ≠ later.2 :=
    ⟨fun _ _ apart => ⟨apart.1.symm, apart.2.symm⟩⟩
  have pairwise : s.added.Pairwise fun earlier later =>
      earlier.1 ≠ later.1 ∧ earlier.2 ≠ later.2 :=
    registered.added.imp fun apart => ⟨apart.1, Nat.ne_of_lt apart.2⟩
  exact pairwise.forall one other different

/-- In queues that hold what they should, a number means one object. -/
theorem MessageQueues.Conserved.same_object (conserved : Conserved s) (registered : Registered s)
    {first second : Nat} (one : first ∈ s.qp.queued) (other : second ∈ s.qp.queued)
    (same : s.qp.msgSeqOf first = s.qp.msgSeqOf second) : first = second := by
  have added : ∀ id ∈ s.qp.queued, s.qp.tag id ∈ s.added := fun id member =>
    ((conserved.exactly _).mp (mem_messages.mpr ⟨id, member, rfl⟩)).1
  by_contra different
  have apart := registered.distinct (added first one) (added second other)
    fun equal => different (congrArg Prod.fst equal)
  exact apart.2 same

theorem MessageQueues.Conserved.queued_nodup (conserved : Conserved s) : s.qp.queued.Nodup :=
  conserved.once.of_map

theorem MessageQueues.Conserved.of_same (conserved : Conserved s) {qp : RdmaQueuePair} {now : Nat}
    (same : SameMessages s.qp qp) : Conserved { s with now := now, qp := qp } := by
  refine ⟨?_, ?_, ?_⟩
  · rw [same.messages]
    exact conserved.once
  · rw [same.messages]
    exact conserved.exactly
  · rw [same.rdmaMsgs, funext same.msgSeqOf]
    exact conserved.sorted

/-- A write-back to the front keeps the messages exactly if it came from there. -/
theorem conserved_iff_frontCached (registered : Registered s) (conserved : Conserved s)
    {qp : RdmaQueuePair} (queued : qp.queued.Perm s.qp.queued)
    (numbers : ∀ id, qp.msgSeqOf id = s.qp.loadMsgStatus.msgSeqOf id)
    (sorted : qp.msgSeqOf = s.qp.msgSeqOf → (qp.rdmaMsgs.map qp.msgSeqOf).Pairwise (· < ·)) :
    FrontCached s.qp ↔ Conserved { s with qp := qp } := by
  constructor
  · intro cached
    have same : qp.msgSeqOf = s.qp.msgSeqOf := by
      funext id
      rw [numbers, loadMsgStatus_msgSeqOf]
      split
      · rename_i front
        exact cached id front
      · rfl
    have tags : qp.tag = s.qp.tag := by
      funext id
      exact Prod.ext rfl (congrFun same id)
    have perm : qp.messages.Perm s.qp.messages := by
      unfold messages
      rw [tags]
      exact queued.map s.qp.tag
    refine ⟨perm.nodup_iff.mpr conserved.once, fun m => ?_, sorted same⟩
    rw [perm.mem_iff]
    exact conserved.exactly m
  · intro after front head
    rw [Option.mem_def] at head
    have member : front ∈ s.qp.queued := by
      obtain ⟨rest, queue⟩ := List.head?_eq_some_iff.mp head
      simp [RdmaQueuePair.queued, queue]
    have before : (front, s.qp.msgSeqOf front) ∈ s.added :=
      ((conserved.exactly _).mp (mem_messages.mpr ⟨front, member, rfl⟩)).1
    have number : qp.msgSeqOf front = s.qp.current.msgSeq := by
      rw [numbers, loadMsgStatus_msgSeqOf, if_pos head]
    have tagged : qp.tag front = (front, s.qp.current.msgSeq) := Prod.ext rfl number
    have written : (front, s.qp.current.msgSeq) ∈ s.added :=
      ((after.exactly _).mp (mem_messages.mpr ⟨front, queued.mem_iff.mpr member, tagged⟩)).1
    by_contra different
    exact (registered.distinct written before fun equal =>
      different (congrArg Prod.snd equal)).1 rfl

theorem move_conserved (registered : Registered s) (conserved : Conserved s)
    {qp : RdmaQueuePair} (success : s.qp.moveRdmaOperationToUnfinished g = .ok qp) :
    FrontCached s.qp ↔ Conserved { s with qp := qp } := by
  unfold moveRdmaOperationToUnfinished at success
  split at success
  · contradiction
  · rename_i front rest queue
    have same := @sameMessages_loadQPStatus g { s.qp.loadMsgStatus with
      rdmaMsgs := rest
      rdmaMsgsUnfinished := s.qp.rdmaMsgsUnfinished ++ [front] }
    rw [Except.ok.inj success] at same
    refine conserved_iff_frontCached registered conserved ?_ same.msgSeqOf fun numbers => ?_
    · unfold queued
      rw [same.rdmaMsgs, same.rdmaMsgsUnfinished, queue, ← List.append_assoc]
      exact List.perm_append_singleton front (rest ++ s.qp.rdmaMsgsUnfinished)
    · have sorted := conserved.sorted
      rw [queue, List.map_cons, List.pairwise_cons] at sorted
      rw [same.rdmaMsgs, numbers]
      exact sorted.2

theorem recoverMsg_conserved (registered : Registered s) (conserved : Conserved s) (msgSeq : Nat) :
    ((∃ id ∈ s.qp.rdmaMsgsUnfinished, s.qp.msgSeqOf id = msgSeq) → FrontCached s.qp) ↔
      Conserved { s with qp := s.qp.recoverMsg g msgSeq } := by
  have unique : ∀ id ∈ s.qp.rdmaMsgsUnfinished, ∀ other ∈ s.qp.rdmaMsgsUnfinished,
      s.qp.msgSeqOf id = msgSeq → s.qp.msgSeqOf other = msgSeq → id = other := by
    intro id member other second here there
    exact conserved.same_object registered (List.mem_append_right _ member)
      (List.mem_append_right _ second) (here.trans there.symm)
  have split := List.filter_append_perm (fun id => decide (s.qp.msgSeqOf id = msgSeq))
    s.qp.rdmaMsgsUnfinished
  unfold recoverMsg
  simp only
  cases last : (s.qp.rdmaMsgsUnfinished.filter fun id => s.qp.msgSeqOf id = msgSeq).getLast? with
  | none =>
      have targets := List.getLast?_eq_none_iff.mp last
      have absent : ∀ id ∈ s.qp.rdmaMsgsUnfinished, s.qp.msgSeqOf id ≠ msgSeq := by
        intro id member
        simpa using List.filter_eq_nil_iff.mp targets id member
      refine iff_of_true (fun ⟨id, member, same⟩ => absurd same (absent id member)) ?_
      refine conserved.of_same ⟨rfl, ?_, (sameMessages_recoverAll _).msgSeqOf⟩
      exact List.filter_eq_self.mpr fun id member => by simp [absent id member]
  | some target =>
      have found := List.mem_of_getLast? last
      rw [List.mem_filter, decide_eq_true_eq] at found
      have targets : (s.qp.rdmaMsgsUnfinished.filter fun id => s.qp.msgSeqOf id = msgSeq) =
          [target] := by
        have nodup := (List.Nodup.of_append_right conserved.queued_nodup).filter
          fun id => decide (s.qp.msgSeqOf id = msgSeq)
        apply List.perm_singleton.mp
        rw [List.perm_ext_iff_of_nodup nodup (by simp)]
        intro id
        simp only [List.mem_filter, decide_eq_true_eq, List.mem_singleton]
        constructor
        · exact fun ⟨member, same⟩ => unique id member target found.1 same found.2
        · rintro rfl
          exact found
      rw [targets] at split
      generalize recovered : { s.qp.recoverAll g
        (s.qp.rdmaMsgsUnfinished.filter fun id => s.qp.msgSeqOf id = msgSeq) with
        rdmaMsgsUnfinished :=
          s.qp.rdmaMsgsUnfinished.filter fun id => s.qp.msgSeqOf id ≠ msgSeq } = foundPair
      have numbers : ∀ id, foundPair.msgSeqOf id = s.qp.msgSeqOf id := by
        rw [← recovered]
        exact (sameMessages_recoverAll _).msgSeqOf
      have rdmaMsgs : foundPair.rdmaMsgs = s.qp.rdmaMsgs := by rw [← recovered]; rfl
      have current : foundPair.current = s.qp.current := by rw [← recovered]; rfl
      have unfinished : foundPair.rdmaMsgsUnfinished =
          s.qp.rdmaMsgsUnfinished.filter fun id => s.qp.msgSeqOf id ≠ msgSeq := by
        rw [← recovered]
      have stored := @loadMsgStatus_queues foundPair
      rw [rdmaMsgs, unfinished] at stored
      have same := @sameMessages_loadQPStatus g { foundPair.loadMsgStatus with
        rdmaMsgs := foundPair.loadMsgStatus.insertTarget target foundPair.loadMsgStatus.rdmaMsgs }
      rw [imp_iff_right ⟨target, found⟩]
      refine conserved_iff_frontCached registered conserved ?_ ?_ fun equal => ?_
      · unfold queued
        rw [same.rdmaMsgs, same.rdmaMsgsUnfinished]
        simp only [stored]
        refine ((insertTarget_perm target s.qp.rdmaMsgs).append_right _).trans ?_
        refine List.perm_middle.symm.trans (List.Perm.append_left _ ?_)
        simpa using split
      · intro id
        rw [same.msgSeqOf]
        show foundPair.loadMsgStatus.msgSeqOf id = _
        rw [loadMsgStatus_msgSeqOf, loadMsgStatus_msgSeqOf, rdmaMsgs, current, numbers]
      · have stable : foundPair.loadMsgStatus.msgSeqOf = s.qp.msgSeqOf := by
          rw [← equal]
          exact (funext same.msgSeqOf).symm
        have sorted := @insertTarget_sorted foundPair.loadMsgStatus target s.qp.rdmaMsgs
          (by rw [stable]; exact conserved.sorted) (by
            intro id member number
            rw [stable] at number
            have twice := conserved.same_object registered (List.mem_append_left _ member)
              (List.mem_append_right _ found.1) number
            subst twice
            exact List.disjoint_of_nodup_append conserved.queued_nodup member found.1)
        rw [same.rdmaMsgs, equal, ← stable]
        simp only [stored]
        exact sorted

theorem mem_lookup {q : RdmaQueuePair} {msgSeq id : Nat} (found : id ∈ q.lookup msgSeq) :
    id ∈ q.queued ∧ q.msgSeqOf id = msgSeq := by
  unfold lookup at found
  split at found
  · rw [List.mem_filter, decide_eq_true_eq] at found
    exact ⟨List.mem_append_right _ found.1, found.2⟩
  · rw [List.mem_filter, decide_eq_true_eq] at found
    exact ⟨List.mem_append_left _ found.1, found.2⟩

theorem checkFinish_lookup {q : RdmaQueuePair} {msgSeq id : Nat}
    (finished : q.checkFinish g msgSeq = some id) :
    id ∈ q.lookup msgSeq ∧ (q.operations id).status.isFinished g = true :=
  List.mem_filter.mp (List.mem_of_getLast? finished)

/-- Where a number means one object, `RemoveRdmaOperation` takes it out of both queues. -/
theorem removeRdmaOperation_queues (registered : Registered s) (conserved : Conserved s)
    (msgSeq : Nat) :
    (s.qp.removeRdmaOperation msgSeq).2.rdmaMsgs =
        s.qp.rdmaMsgs.filter (fun id => s.qp.msgSeqOf id ≠ msgSeq) ∧
      (s.qp.removeRdmaOperation msgSeq).2.rdmaMsgsUnfinished =
        s.qp.rdmaMsgsUnfinished.filter (fun id => s.qp.msgSeqOf id ≠ msgSeq) ∧
      (s.qp.removeRdmaOperation msgSeq).2.operations = s.qp.operations := by
  obtain ⟨operations, -, ⟨⟨target, member, number⟩, sending, unfinished⟩ |
    ⟨absent, sending, unfinished⟩⟩ := removeRdmaOperation_parts s.qp msgSeq
  · refine ⟨sending.trans (List.filter_eq_self.mpr fun id present => ?_).symm, unfinished,
      operations⟩
    rw [decide_eq_true_eq]
    intro same
    have twice := conserved.same_object registered (List.mem_append_left _ present)
      (List.mem_append_right _ member) (same.trans number.symm)
    subst twice
    exact List.disjoint_of_nodup_append conserved.queued_nodup present member
  · refine ⟨sending, unfinished.trans (List.filter_eq_self.mpr fun id present => ?_).symm,
      operations⟩
    exact decide_eq_true (absent id present)

theorem finish_conserved (registered : Registered s) (conserved : Conserved s) {msgSeq id : Nat}
    (finished : s.qp.checkFinish g msgSeq = some id) :
    Conserved { s with
      qp := (s.qp.removeRdmaOperation msgSeq).2
      removed := s.removed ++ [s.qp.tag id] } := by
  obtain ⟨member, number⟩ := mem_lookup (checkFinish_lookup finished).1
  obtain ⟨sending, unfinished, same⟩ := removeRdmaOperation_queues registered conserved msgSeq
  have numbers : (s.qp.removeRdmaOperation msgSeq).2.msgSeqOf = s.qp.msgSeqOf := by
    funext other
    simp only [msgSeqOf, same]
  have left : (s.qp.removeRdmaOperation msgSeq).2.messages =
      (s.qp.queued.filter fun id => s.qp.msgSeqOf id ≠ msgSeq).map s.qp.tag := by
    have tags : (s.qp.removeRdmaOperation msgSeq).2.tag = s.qp.tag := by
      funext other
      exact Prod.ext rfl (congrFun numbers other)
    unfold messages queued
    rw [sending, unfinished, tags, List.filter_append]
  refine ⟨?_, fun m => ?_, ?_⟩
  · rw [left]
    exact conserved.once.sublist (List.filter_sublist.map s.qp.tag)
  · rw [left, List.mem_append, List.mem_singleton, not_or, ← and_assoc, ← conserved.exactly,
      mem_messages, List.mem_map]
    constructor
    · rintro ⟨other, kept, rfl⟩
      rw [List.mem_filter, decide_eq_true_eq] at kept
      refine ⟨⟨other, kept.1, rfl⟩, fun equal => kept.2 ?_⟩
      rw [← number]
      exact congrArg Prod.snd equal
    · rintro ⟨⟨other, present, rfl⟩, different⟩
      refine ⟨other, List.mem_filter.mpr ⟨present, decide_eq_true ?_⟩, rfl⟩
      intro equal
      have twice := conserved.same_object registered present member (equal.trans number.symm)
      exact different (congrArg s.qp.tag twice)
  · rw [sending, numbers]
    exact conserved.sorted.sublist (List.filter_sublist.map s.qp.msgSeqOf)

theorem addRdmaOperation_queues {q : RdmaQueuePair} (id : Nat) (operation : RdmaOperation) :
    (q.addRdmaOperation g id operation).rdmaMsgs = q.rdmaMsgs ++ [id] ∧
      (q.addRdmaOperation g id operation).rdmaMsgsUnfinished = q.rdmaMsgsUnfinished ∧
      ∀ other, (q.addRdmaOperation g id operation).msgSeqOf other =
        if other = id then operation.status.msgSeq else q.msgSeqOf other := by
  have numbers : ∀ other, (q.setOperation id operation).msgSeqOf other =
      if other = id then operation.status.msgSeq else q.msgSeqOf other := by
    intro other
    unfold msgSeqOf setOperation
    split_ifs with same
    · simp [same]
    · simp [same]
  unfold addRdmaOperation
  simp only
  split
  · have same := @sameMessages_loadQPStatus g
      { q.setOperation id operation with rdmaMsgs := q.rdmaMsgs ++ [id] }
    exact ⟨same.rdmaMsgs, same.rdmaMsgsUnfinished, fun other =>
      (same.msgSeqOf other).trans (numbers other)⟩
  · exact ⟨rfl, rfl, numbers⟩

theorem add_conserved (registered : Registered s) (conserved : Conserved s) {id : Nat}
    {operation : RdmaOperation}
    (fresh : ∀ m ∈ s.added, m.1 ≠ id ∧ m.2 < operation.status.msgSeq) :
    Conserved { s with
      qp := s.qp.addRdmaOperation g id operation
      added := s.added ++ [(id, operation.status.msgSeq)] } := by
  obtain ⟨sending, unfinished, numbers⟩ := @addRdmaOperation_queues g s.qp id operation
  have earlier : ∀ other ∈ s.qp.queued,
      other ≠ id ∧ s.qp.msgSeqOf other < operation.status.msgSeq := fun other member =>
    fresh _ ((conserved.exactly _).mp (mem_messages.mpr ⟨other, member, rfl⟩)).1
  have same : ∀ other ∈ s.qp.queued,
      (s.qp.addRdmaOperation g id operation).msgSeqOf other = s.qp.msgSeqOf other :=
    fun other member => (numbers other).trans (if_neg (earlier other member).1)
  have here : (s.qp.addRdmaOperation g id operation).tag id = (id, operation.status.msgSeq) :=
    Prod.ext rfl ((numbers id).trans (if_pos rfl))
  have perm : (s.qp.addRdmaOperation g id operation).messages.Perm
      (s.qp.messages ++ [(id, operation.status.msgSeq)]) := by
    have old : s.qp.queued.map (s.qp.addRdmaOperation g id operation).tag = s.qp.messages :=
      List.map_congr_left fun other member => Prod.ext rfl (same other member)
    have moved : (s.qp.addRdmaOperation g id operation).queued.Perm (s.qp.queued ++ [id]) := by
      unfold queued
      rw [sending, unfinished, List.append_assoc, List.append_assoc]
      exact List.Perm.append_left _ List.perm_append_comm
    have mapped := moved.map (s.qp.addRdmaOperation g id operation).tag
    rw [List.map_append, old, List.map_singleton, here] at mapped
    exact mapped
  have unseen : (id, operation.status.msgSeq) ∉ s.added := fun old => (fresh _ old).1 rfl
  refine ⟨?_, fun m => ?_, ?_⟩
  · rw [perm.nodup_iff, List.nodup_append]
    refine ⟨conserved.once, by simp, fun m present other last => ?_⟩
    rw [List.mem_singleton.mp last]
    rintro rfl
    exact unseen ((conserved.exactly _).mp present).1
  · rw [perm.mem_iff, List.mem_append, List.mem_append, List.mem_singleton, conserved.exactly]
    constructor
    · rintro (⟨old, kept⟩ | rfl)
      · exact ⟨.inl old, kept⟩
      · exact ⟨.inr rfl, fun gone => unseen (registered.removed gone)⟩
    · rintro ⟨old | rfl, kept⟩
      · exact .inl ⟨old, kept⟩
      · exact .inr rfl
  · simp only [sending, List.map_append, List.map_singleton, List.pairwise_append]
    refine ⟨?_, List.pairwise_singleton _ _, ?_⟩
    · rw [List.map_congr_left fun other member => same other (List.mem_append_left _ member)]
      exact conserved.sorted
    · intro number member last added
      obtain ⟨other, present, rfl⟩ := List.mem_map.mp member
      rw [List.mem_singleton.mp added, numbers id, if_pos rfl,
        same other (List.mem_append_left _ present)]
      exact (earlier other (List.mem_append_left _ present)).2

theorem MessageQueues.Registered.step (registered : Registered s) (conserved : Conserved s)
    {event : QueueEvent} (step : Step g s event next) : Registered next := by
  cases step with
  | @add id operation fresh =>
      refine ⟨?_, fun m gone => List.mem_append_left _ (registered.removed gone)⟩
      refine List.pairwise_append.mpr ⟨registered.added, List.pairwise_singleton _ _, ?_⟩
      intro earlier member last added
      rw [List.mem_singleton.mp added]
      exact fresh earlier member
  | finish finished =>
      refine ⟨registered.added, fun m gone => ?_⟩
      rcases List.mem_append.mp gone with before | last
      · exact registered.removed before
      · rw [List.mem_singleton.mp last]
        exact ((conserved.exactly _).mp (mem_messages.mpr
          ⟨_, (mem_lookup (checkFinish_lookup finished).1).1, rfl⟩)).1
  | sent | move | acknowledge | acknowledgeMsg | recoverMsg | recoverMSG | resetMSGRTOTime | wait =>
      exact ⟨registered.added, registered.removed⟩

/-- One operation conserves the messages exactly under the condition. -/
theorem conserved_step (registered : Registered s) (conserved : Conserved s) {event : QueueEvent}
    (step : Step g s event next) :
    KeepsMessages g s event ↔ Recovers g s event ∧ Conserved next := by
  cases step with
  | add fresh =>
      exact iff_of_true trivial ⟨trivial, add_conserved registered conserved fresh⟩
  | sent sndNxt =>
      exact iff_of_true trivial ⟨trivial, conserved.of_same ⟨rfl, rfl, fun _ => rfl⟩⟩
  | move success =>
      exact (move_conserved registered conserved success).trans (iff_of_eq (true_and _)).symm
  | acknowledge ack last =>
      exact iff_of_true trivial ⟨trivial, conserved.of_same ⟨rfl, rfl, fun _ => rfl⟩⟩
  | acknowledgeMsg ack msgSeq last =>
      exact iff_of_true trivial
        ⟨trivial, conserved.of_same (sameMessages_acknowledgeMsg ack msgSeq last)⟩
  | recoverMsg msgSeq =>
      exact (recoverMsg_conserved registered conserved msgSeq).trans (iff_of_eq (true_and _)).symm
  | recoverMSG =>
      constructor
      · intro none
        refine ⟨fun id member late => ?_, conserved.of_same (sameMessages_recoverMSG none)⟩
        rw [none id member] at late
        contradiction
      · rintro ⟨recovers, -⟩ id member
        cases late : s.qp.overdue g s.now id with
        | false => rfl
        | true =>
            have moved := (recovers id member late).2
            rw [recoverMSG_unfinished] at moved
            exact absurd member moved
  | resetMSGRTOTime success =>
      exact iff_of_true trivial
        ⟨trivial, conserved.of_same (sameMessages_resetMSGRTOTime success)⟩
  | finish finished =>
      exact iff_of_true trivial ⟨trivial, finish_conserved registered conserved finished⟩
  | wait forward =>
      exact iff_of_true trivial ⟨trivial, conserved.of_same ⟨rfl, rfl, fun _ => rfl⟩⟩

theorem conserved_create (g : RdmaSettings) :
    Registered (create g) ∧ Conserved (create g) := by
  refine ⟨⟨List.Pairwise.nil, List.nil_subset _⟩, ⟨List.nodup_nil, fun m => ?_, List.Pairwise.nil⟩⟩
  simp [create, messages, queued, RdmaQueuePair.empty]

/-- The messages are conserved and recovered in the whole of a run exactly if every write-back in it
goes to the message it came from and `RecoverMSG` never finds work in the unfinished queue. -/
theorem messages_conserved (g : RdmaSettings)
    (entries : List (MessageQueues × QueueEvent)) (s : MessageQueues)
    (run : Run (Traced (Step g)) (create g) entries s) :
    (∀ entry ∈ entries, KeepsMessages g entry.1 entry.2) ↔
      (∀ entry ∈ entries, Conserved entry.1 ∧ Recovers g entry.1 entry.2) ∧ Conserved s := by
  obtain ⟨registered, conserved⟩ := conserved_create g
  refine run.served_iff Registered Conserved (KeepsMessages g) (Recovers g) registered conserved
    ?_ ?_
  · exact fun s event next registered conserved step => registered.step conserved step
  · exact fun s event next registered conserved step => conserved_step registered conserved step

/-- A flow-routing configuration in `qp_mode`. -/
def qpModeSettings : RdmaSettings where
  mtu := 1000
  packetPayload := 1000
  packetLevelRouting := false
  qpMode := true
  nackReaction := true
  resetQpRate := false
  backto0 := false
  rtoUs := 5
  ackInterval := 1
  chunk := 4000
  nackInterval := 500
  initial := ⟨0, false, 0, 0⟩

def onePacket (msgSeq : Nat) : MessageRequest := ⟨1000, msgSeq, msgSeq, 0, 0, 0, msgSeq⟩

/-- One message sent, acknowledged and completed. -/
theorem messages_conserved_one_message :
    ∃ (entries : List (MessageQueues × QueueEvent)) (s : MessageQueues),
      entries.length = 5 ∧ s.removed = [(0, 1)] ∧
      ((∀ entry ∈ entries, KeepsMessages qpModeSettings entry.1 entry.2) ↔
        (∀ entry ∈ entries, Conserved entry.1 ∧ Recovers qpModeSettings entry.1 entry.2) ∧
          Conserved s) := by
  have added : Run (Step qpModeSettings) (create qpModeSettings) _ _ :=
    Run.single (@Step.add _ _ 0 ((onePacket 1).operation 0) (by decide))
  have sent := added.snoc (Step.sent 1000)
  have moved := sent.snoc (Step.move rfl)
  have acked := moved.snoc (Step.acknowledgeMsg 1000 1 true)
  have finished := acked.snoc (@Step.finish _ _ 1 0 (by decide))
  obtain ⟨entries, traced, labels⟩ := finished.traced
  refine ⟨entries, _, ?_, rfl, messages_conserved qpModeSettings entries _ traced⟩
  rw [← List.length_map Prod.snd, labels]
  rfl

/-- A timeout of a message that is followed by another one puts it into both queues. -/
theorem recoverMSG_duplicates : ¬ ∀ (g : RdmaSettings), g.packetLevelRouting = false →
    ∀ labels s, Run (Step g) (create g) labels s → Conserved s := by
  intro claim
  have first : Run (Step qpModeSettings) (create qpModeSettings) _ _ :=
    Run.single (@Step.add _ _ 0 ((onePacket 1).operation 0) (by decide))
  have second := first.snoc (@Step.add _ _ 1 ((onePacket 2).operation 0) (by decide))
  have sent := second.snoc (Step.sent 1000)
  have moved := sent.snoc (Step.move rfl)
  have waited := moved.snoc (@Step.wait _ _ 5000 (by decide))
  have recovered := waited.snoc Step.recoverMSG
  have once := (claim qpModeSettings rfl _ _ recovered).once
  exact absurd once (by decide +kernel)

end Steps

end Floodgate
