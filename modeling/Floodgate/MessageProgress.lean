import Floodgate.MessageFlow

/-! The progress of the messages of a queue pair, on its copy and in their objects, and what the
handlers do to it. -/

namespace Floodgate

open Outcome LabelledRun RdmaQueuePair

/-- The progress of a message: what a write-back at this point leaves in its object. -/
def RdmaQueuePair.progressOf (q : RdmaQueuePair) (id : Nat) : MsgStatus :=
  (q.loadMsgStatus.operations id).status

section Progress

variable {g : RdmaSettings} {q after : RdmaQueuePair}

theorem progressOf_eq (id : Nat) :
    q.progressOf id =
      if q.rdmaMsgs.head? = some id then q.current else (q.operations id).status := by
  unfold progressOf loadMsgStatus
  split
  · rename_i front rest queue
    simp only [setOperation, queue, List.head?_cons, Option.some.injEq]
    by_cases same : id = front
    · simp [same]
    · simp [same, Ne.symm same]
  · rename_i queue
    simp [queue]

theorem progressOf_loadQPStatus (id : Nat) :
    (q.loadQPStatus g).progressOf id = (q.operations id).status := by
  rw [progressOf_eq]
  unfold loadQPStatus
  split
  · rename_i front rest queue
    simp only [queue, List.head?_cons, Option.some.injEq]
    split
    · rename_i same
      rw [same]
    · rfl
  · rename_i queue
    simp [queue]

structure SameProgress (before after : RdmaQueuePair) : Prop where
  rdmaMsgs : after.rdmaMsgs = before.rdmaMsgs
  rdmaMsgsUnfinished : after.rdmaMsgsUnfinished = before.rdmaMsgsUnfinished
  current : after.current = before.current
  status : ∀ id, (after.operations id).status = (before.operations id).status

theorem SameProgress.queued (same : SameProgress q after) : after.queued = q.queued := by
  unfold RdmaQueuePair.queued
  rw [same.rdmaMsgs, same.rdmaMsgsUnfinished]

theorem SameProgress.progressOf (same : SameProgress q after) (id : Nat) :
    after.progressOf id = q.progressOf id := by
  rw [progressOf_eq, progressOf_eq, same.rdmaMsgs, same.current, same.status]

theorem SameProgress.msgSeqOf (same : SameProgress q after) (id : Nat) :
    after.msgSeqOf id = q.msgSeqOf id := congrArg MsgStatus.msgSeq (same.status id)

theorem resetMSGRTOTime_progress {now msgSeq : Nat}
    (success : q.resetMSGRTOTime g now msgSeq = .ok after) : SameProgress q after := by
  have touched : SameProgress q (q.touch now msgSeq) := ⟨rfl, rfl, rfl, touch_status now msgSeq⟩
  unfold resetMSGRTOTime at success
  obtain ⟨inflight, _, success⟩ := bind_ok.mp success
  split at success
  · rw [← Except.ok.inj success]
    exact ⟨touched.rdmaMsgs, touched.rdmaMsgsUnfinished, touched.current, touched.status⟩
  · rw [← Except.ok.inj success]
    exact touched

theorem resetTimer_progress {now msgSeq : Nat}
    (success : RdmaHw.resetTimer g now q msgSeq = .ok after) : SameProgress q after := by
  unfold RdmaHw.resetTimer at success
  split at success
  · rw [← Except.ok.inj success]
    exact ⟨rfl, rfl, rfl, fun _ => rfl⟩
  · split at success
    · exact resetMSGRTOTime_progress success
    · split at success
      · obtain ⟨onTheFly, _, success⟩ := bind_ok.mp success
        split at success
        all_goals rw [← Except.ok.inj success]; exact ⟨rfl, rfl, rfl, fun _ => rfl⟩
      · rw [← Except.ok.inj success]
        exact ⟨rfl, rfl, rfl, fun _ => rfl⟩

theorem filterM_total {p : Nat → Except RdmaAssertion Bool} (ids : List Nat)
    (total : ∀ id, ∃ chosen, p id = .ok chosen) : ∃ result, ids.filterM p = .ok result := by
  have general : ∀ (ids kept : List Nat), ∃ result, ids.filterAuxM p kept = .ok result := by
    intro ids
    induction ids with
    | nil => exact fun kept => ⟨kept, rfl⟩
    | cons first rest ih =>
        intro kept
        obtain ⟨chosen, test⟩ := total first
        unfold List.filterAuxM
        rw [test, ok_bind]
        exact ih _
  obtain ⟨result, collected⟩ := general ids []
  refine ⟨result.reverse, ?_⟩
  unfold List.filterM
  rw [collected, ok_bind]
  rfl

theorem resetTimer_total (now msgSeq : Nat)
    (current : ∃ onTheFly, q.current.getOnTheFly g = .ok onTheFly)
    (others : ∀ id, ∃ onTheFly, (q.operations id).status.getOnTheFly g = .ok onTheFly) :
    ∃ timed, RdmaHw.resetTimer g now q msgSeq = .ok timed := by
  unfold RdmaHw.resetTimer
  split
  · exact ⟨q, rfl⟩
  · split
    · unfold RdmaQueuePair.resetMSGRTOTime RdmaQueuePair.inflightMsgs
      have total : ∀ id, ∃ chosen, (if ((q.touch now msgSeq).operations id).status.getBytesLeft g = 0
          then do
            let onTheFly ← ((q.touch now msgSeq).operations id).status.getOnTheFly g
            .ok (decide (onTheFly ≠ 0))
          else .ok false : Except RdmaAssertion Bool) = .ok chosen := by
        intro id
        split
        · obtain ⟨onTheFly, known⟩ := others id
          exact ⟨decide (onTheFly ≠ 0), by rw [touch_status, known, ok_bind]⟩
        · exact ⟨false, rfl⟩
      obtain ⟨inflight, found⟩ := filterM_total
        ((q.touch now msgSeq).rdmaMsgsUnfinished ++ (q.touch now msgSeq).rdmaMsgs) total
      simp only [found, ok_bind]
      split
      · exact ⟨_, rfl⟩
      · exact ⟨_, rfl⟩
    · split
      · obtain ⟨onTheFly, known⟩ := current
        simp only [RdmaQueuePair.getOnTheFly, known, ok_bind]
        split
        · exact ⟨_, rfl⟩
        · exact ⟨_, rfl⟩
      · exact ⟨q, rfl⟩

/-- What a handler leaves: the same messages with the progress `f`; only the number of the front may
have been written. -/
structure Leaves (before after : RdmaQueuePair) (f : Nat → MsgStatus) : Prop where
  queued : ∀ id, id ∈ after.queued ↔ id ∈ before.queued
  progress : ∀ id ∈ before.queued, after.progressOf id = f id
  numbers : ∀ id, after.msgSeqOf id = before.msgSeqOf id ∨
    before.rdmaMsgs.head? = some id ∧ after.msgSeqOf id = before.current.msgSeq

theorem SameProgress.leaves (same : SameProgress q after) : Leaves q after q.progressOf :=
  ⟨fun id => by rw [same.queued], fun id _ => same.progressOf id,
    fun id => .inl (same.msgSeqOf id)⟩

theorem Leaves.then_same {middle : RdmaQueuePair} {f : Nat → MsgStatus}
    (leaves : Leaves q middle f) (same : SameProgress middle after) : Leaves q after f := by
  refine ⟨fun id => ?_, fun id member => ?_, fun id => ?_⟩
  · rw [same.queued]
    exact leaves.queued id
  · rw [same.progressOf]
    exact leaves.progress id member
  · rw [same.msgSeqOf]
    exact leaves.numbers id

/-- Messages rearranged between a write-back and a load keep their progress. -/
theorem leaves_rearranged {before : RdmaQueuePair} {f : Nat → MsgStatus}
    {rdmaMsgs rdmaMsgsUnfinished : List Nat} (front : q.rdmaMsgs = before.rdmaMsgs)
    (current : q.current = before.current) (numbers : ∀ id, q.msgSeqOf id = before.msgSeqOf id)
    (progress : ∀ id ∈ before.queued, q.progressOf id = f id)
    (queued : ∀ id, id ∈ rdmaMsgs ++ rdmaMsgsUnfinished ↔ id ∈ before.queued) :
    Leaves before ({ q.loadMsgStatus with
      rdmaMsgs := rdmaMsgs
      rdmaMsgsUnfinished := rdmaMsgsUnfinished }.loadQPStatus g) f := by
  have same := @sameMessages_loadQPStatus g { q.loadMsgStatus with
    rdmaMsgs := rdmaMsgs
    rdmaMsgsUnfinished := rdmaMsgsUnfinished }
  refine ⟨fun id => ?_, fun id member => ?_, fun id => ?_⟩
  · unfold RdmaQueuePair.queued
    rw [same.rdmaMsgs, same.rdmaMsgsUnfinished]
    exact queued id
  · rw [progressOf_loadQPStatus]
    exact progress id member
  · rw [same.msgSeqOf]
    show q.loadMsgStatus.msgSeqOf id = _ ∨ _ ∧ q.loadMsgStatus.msgSeqOf id = _
    rw [loadMsgStatus_msgSeqOf, front, current, numbers]
    split
    · rename_i head
      exact .inr ⟨head, rfl⟩
    · exact .inl rfl

theorem move_leaves (success : q.moveRdmaOperationToUnfinished g = .ok after) :
    Leaves q after q.progressOf := by
  unfold moveRdmaOperationToUnfinished at success
  split at success
  · contradiction
  · rename_i front rest queue
    rw [← Except.ok.inj success]
    refine leaves_rearranged rfl rfl (fun _ => rfl) (fun _ _ => rfl) fun id => ?_
    simp only [RdmaQueuePair.queued, queue, List.mem_append, List.mem_cons, List.not_mem_nil,
      or_false]
    tauto

theorem advance_msgSeq (m : MsgStatus) (p : DataPacket) :
    (RdmaHw.advance m p).msgSeq = m.msgSeq := by
  unfold RdmaHw.advance
  split
  · rfl
  · rfl

theorem chooseSeq_msgSeq {m chosen : MsgStatus} {seq : Nat}
    (choice : RdmaHw.chooseSeq g m = .ok (seq, chosen)) : chosen.msgSeq = m.msgSeq := by
  unfold RdmaHw.chooseSeq at choice
  simp only at choice
  split at choice
  · rw [← (Prod.mk.inj (Except.ok.inj choice)).2]
  · split at choice
    · split at choice
      · rw [← (Prod.mk.inj (Except.ok.inj choice)).2]
      · contradiction
    · rw [← (Prod.mk.inj (Except.ok.inj choice)).2]

/-- `GetNxtPacket` makes progress on the queue pair alone. -/
theorem getNxtPacket_leaves {now : Nat} {p : DataPacket}
    (success : RdmaHw.getNxtPacket g now q = .ok (p, after)) :
    ∃ seq m, RdmaHw.chooseSeq g q.current = .ok (seq, m) ∧ p = RdmaHw.packetAt g m seq ∧
      Leaves q after { q with current := RdmaHw.advance m p }.progressOf := by
  unfold RdmaHw.getNxtPacket at success
  obtain ⟨⟨seq, m⟩, chosen, success⟩ := bind_ok.mp success
  obtain ⟨timed, reset, success⟩ := bind_ok.mp success
  refine ⟨seq, m, chosen, ?_⟩
  have timer := (resetTimer_progress reset).leaves
  have number : (RdmaHw.advance m (RdmaHw.packetAt g m seq)).msgSeq = q.current.msgSeq :=
    (advance_msgSeq _ _).trans (chooseSeq_msgSeq chosen)
  split at success
  · obtain ⟨moved, move, success⟩ := bind_ok.mp success
    obtain ⟨rfl, rfl⟩ := Prod.mk.inj (Except.ok.inj success)
    have rearranged := move_leaves move
    have same : SameProgress moved
        (if g.resetQpRate then { moved with pacing := g.initial } else moved) := by
      split
      · exact ⟨rfl, rfl, rfl, fun _ => rfl⟩
      · exact ⟨rfl, rfl, rfl, fun _ => rfl⟩
    refine ⟨rfl, Leaves.then_same ⟨fun id => ?_, fun id member => ?_, fun id => ?_⟩ same⟩
    · exact (rearranged.queued id).trans (timer.queued id)
    · rw [rearranged.progress id ((timer.queued id).mpr member), timer.progress id member]
    · rcases rearranged.numbers id with old | ⟨front, written⟩
      · rw [old]
        refine .inl ?_
        exact (resetTimer_progress reset).msgSeqOf id
      · rw [(resetTimer_progress reset).rdmaMsgs] at front
        rw [(resetTimer_progress reset).current] at written
        exact .inr ⟨front, written.trans number⟩
  · obtain ⟨rfl, rfl⟩ := Prod.mk.inj (Except.ok.inj success)
    exact ⟨rfl, timer.queued, timer.progress, fun id =>
      .inl ((resetTimer_progress reset).msgSeqOf id)⟩

theorem recover_idem (m : MsgStatus) : (m.recover g).recover g = m.recover g := by
  cases packets : g.packetLevelRouting <;> simp [MsgStatus.recover, packets]

theorem mem_mergeTargets (targets ids : List Nat) (id : Nat) :
    (id ∈ ids → id ∈ q.mergeTargets targets ids) ∧
      (id ∈ q.mergeTargets targets ids → id ∈ targets ∨ id ∈ ids) := by
  induction ids generalizing targets with
  | nil => simp [mergeTargets]
  | cons curr rest ih =>
      obtain ⟨kept, source⟩ := ih (targets.dropWhile fun id =>
        decide (q.msgSeqOf id < q.msgSeqOf curr))
      simp only [mergeTargets, List.mem_append, List.mem_cons]
      constructor
      · rintro (rfl | later)
        · exact .inr (.inl rfl)
        · exact .inr (.inr (kept later))
      · rintro (before | rfl | later)
        · exact .inl ((List.takeWhile_sublist _).subset before)
        · exact .inr (.inl rfl)
        · rcases source later with target | later
          · exact .inl ((List.dropWhile_sublist _).subset target)
          · exact .inr (.inr later)

/-- `RecoverMsg` recovers what it finds in the unfinished queue, the copy of the front apart. -/
theorem recoverMsg_leaves {number : Nat}
    (unique : ∀ id ∈ q.rdmaMsgsUnfinished, ∀ other ∈ q.rdmaMsgsUnfinished,
      q.msgSeqOf id = number → q.msgSeqOf other = number → id = other) :
    Leaves q (q.recoverMsg g number) fun id =>
      if q.rdmaMsgs.head? = some id then q.current
      else if id ∈ q.rdmaMsgsUnfinished ∧ q.msgSeqOf id = number then
        (q.operations id).status.recover g
      else (q.operations id).status := by
  unfold recoverMsg
  simp only
  generalize recovered : { q.recoverAll g
    (q.rdmaMsgsUnfinished.filter fun id => q.msgSeqOf id = number) with
    rdmaMsgsUnfinished := q.rdmaMsgsUnfinished.filter fun id => q.msgSeqOf id ≠ number } = found
  have rdmaMsgs : found.rdmaMsgs = q.rdmaMsgs := by rw [← recovered]; rfl
  have current : found.current = q.current := by rw [← recovered]; rfl
  have unfinished : found.rdmaMsgsUnfinished =
      q.rdmaMsgsUnfinished.filter fun id => q.msgSeqOf id ≠ number := by rw [← recovered]
  have numbers : ∀ id, found.msgSeqOf id = q.msgSeqOf id := by
    rw [← recovered]
    exact (sameMessages_recoverAll _).msgSeqOf
  have progress : ∀ id, found.progressOf id =
      if q.rdmaMsgs.head? = some id then q.current
      else if id ∈ q.rdmaMsgsUnfinished ∧ q.msgSeqOf id = number then
        (q.operations id).status.recover g
      else (q.operations id).status := by
    intro id
    rw [progressOf_eq, rdmaMsgs, current, ← recovered]
    simp only [recoverAll, List.mem_filter, decide_eq_true_eq]
    split_ifs
    all_goals rfl
  cases last : (q.rdmaMsgsUnfinished.filter fun id => q.msgSeqOf id = number).getLast? with
  | none =>
      have absent := List.filter_eq_nil_iff.mp (List.getLast?_eq_none_iff.mp last)
      refine ⟨fun id => ?_, fun id _ => progress id, fun id => .inl (numbers id)⟩
      unfold queued
      rw [rdmaMsgs, unfinished, List.filter_eq_self.mpr]
      intro id member
      simpa using absent id member
  | some target =>
      have member := List.mem_of_getLast? last
      rw [List.mem_filter, decide_eq_true_eq] at member
      have lists := @loadMsgStatus_queues found
      refine leaves_rearranged rdmaMsgs current numbers (fun id _ => progress id) fun id => ?_
      rw [lists.1, lists.2, rdmaMsgs, unfinished, List.mem_append,
        (insertTarget_perm target q.rdmaMsgs).mem_iff]
      simp only [queued, List.mem_append, List.mem_cons, List.mem_filter, decide_eq_true_eq]
      constructor
      · rintro ((rfl | sending) | ⟨other, -⟩)
        · exact .inr member.1
        · exact .inl sending
        · exact .inr other
      · rintro (sending | other)
        · exact .inl (.inr sending)
        · by_cases here : q.msgSeqOf id = number
          · exact .inl (.inl (unique id other target member.1 here member.2))
          · exact .inr ⟨other, here⟩

theorem recoverAll_lastActionTime (ids : List Nat) (id : Nat) :
    ((q.recoverAll g ids).operations id).lastActionTime = (q.operations id).lastActionTime :=
  (apply_ite RdmaOperation.lastActionTime _ _ _).trans (ite_self _)

theorem recoverAll_status (ids : List Nat) (id : Nat) :
    ((q.recoverAll g ids).operations id).status =
      if id ∈ ids then (q.operations id).status.recover g else (q.operations id).status :=
  apply_ite RdmaOperation.status _ _ _

theorem loadMsgStatus_lastActionTime (id : Nat) :
    (q.loadMsgStatus.operations id).lastActionTime = (q.operations id).lastActionTime := by
  unfold loadMsgStatus
  split
  · rename_i front rest queue
    simp only [setOperation]
    split
    · rename_i same
      rw [same]
    · rfl
  · rfl

theorem overdue_recoverAll {now : Nat} (ids : List Nat) :
    (q.recoverAll g ids).overdue g now = q.overdue g now := by
  funext id
  unfold overdue
  rw [recoverAll_lastActionTime]

/-- `RecoverMSG` with nothing overdue in the unfinished queue changes objects of the sending queue
only. -/
theorem recoverMSG_idle {now : Nat}
    (idle : ∀ id ∈ q.rdmaMsgsUnfinished, q.overdue g now id = false) :
    q.recoverMSG g now =
      { (q.recoverAll g []).recoverAll g (q.rdmaMsgs.filter (q.overdue g now)) with
        eventTimeoutRetransmission := none } := by
  have late : q.rdmaMsgsUnfinished.filter (q.overdue g now) = [] :=
    List.filter_eq_nil_iff.mpr fun id member => by simp [idle id member]
  unfold recoverMSG
  simp only [late, List.mergeSort_nil, if_true, mergeTargets_nil, overdue_recoverAll]
  rfl

theorem recoverMSG_leaves_idle {now : Nat}
    (idle : q.rdmaMsgsUnfinished.any (q.overdue g now) = false) :
    Leaves q (q.recoverMSG g now) fun id =>
      if q.overdue g now id && decide (q.rdmaMsgs.head? ≠ some id) then (q.progressOf id).recover g
      else q.progressOf id := by
  have plain := recoverMSG_idle (g := g) (by simpa using idle)
  have status : ∀ id, ((q.recoverMSG g now).operations id).status =
      if id ∈ q.rdmaMsgs.filter (q.overdue g now) then (q.operations id).status.recover g
      else (q.operations id).status := by
    intro id
    rw [plain]
    show (((q.recoverAll g []).recoverAll g _).operations id).status = _
    rw [recoverAll_status, recoverAll_status]
    simp
  refine ⟨fun id => ?_, fun id member => ?_, fun id => .inl ?_⟩
  · rw [plain]
    exact Iff.rfl
  · have head : (q.recoverMSG g now).rdmaMsgs = q.rdmaMsgs := by rw [plain]; rfl
    have current : (q.recoverMSG g now).current = q.current := by rw [plain]; rfl
    have unfinished : id ∈ q.rdmaMsgsUnfinished → q.overdue g now id = false := by
      intro member
      simpa using List.any_eq_false.mp idle id member
    rw [progressOf_eq, progressOf_eq, head, current, status]
    by_cases front : q.rdmaMsgs.head? = some id
    · simp [front]
    · rcases List.mem_append.mp member with sending | other
      · simp [front, sending]
      · have early := unfinished other
        simp [front, early]
  · unfold msgSeqOf
    rw [status]
    split
    · rfl
    · rfl

section Late

variable (g q) (now : Nat)

/-- The overdue messages of the unfinished queue after the first loop of `RecoverMSG`. -/
def lateRecovered : RdmaQueuePair :=
  q.recoverAll g (q.rdmaMsgsUnfinished.filter (q.overdue g now))

/-- They go back to the sending queue in the order of their numbers. -/
def lateTargets : List Nat :=
  (q.rdmaMsgsUnfinished.filter (q.overdue g now)).mergeSort fun first second =>
    decide ((lateRecovered g q now).msgSeqOf first ≤ (lateRecovered g q now).msgSeqOf second)

def lateMerged : RdmaQueuePair :=
  { (lateRecovered g q now).loadMsgStatus.recoverAll g (q.rdmaMsgs.filter (q.overdue g now)) with
    rdmaMsgs := (lateRecovered g q now).loadMsgStatus.mergeTargets (lateTargets g q now) q.rdmaMsgs
    eventTimeoutRetransmission := none }

variable {g q now}

theorem mem_lateTargets {id : Nat} :
    id ∈ lateTargets g q now ↔ id ∈ q.rdmaMsgsUnfinished ∧ q.overdue g now id = true := by
  unfold lateTargets
  rw [(List.mergeSort_perm _ _).mem_iff, List.mem_filter]

theorem recoverMSG_late (late : q.rdmaMsgsUnfinished.any (q.overdue g now) = true) :
    q.recoverMSG g now = (lateMerged g q now).loadQPStatus g := by
  obtain ⟨target, waiting, timedOut⟩ := List.any_eq_true.mp late
  have nonempty : lateTargets g q now ≠ [] :=
    List.ne_nil_of_mem (mem_lateTargets.mpr ⟨waiting, timedOut⟩)
  have stored : (lateRecovered g q now).loadMsgStatus.overdue g now = q.overdue g now := by
    rw [← @overdue_recoverAll g q now (q.rdmaMsgsUnfinished.filter (q.overdue g now))]
    funext id
    unfold overdue
    rw [loadMsgStatus_lastActionTime]
    rfl
  have lists := @loadMsgStatus_queues (lateRecovered g q now)
  unfold lateTargets at nonempty
  unfold recoverMSG lateMerged
  unfold lateTargets lateRecovered at *
  simp only [nonempty, if_false, stored, lists.1]
  rfl

theorem lateMerged_queued (id : Nat) : id ∈ (lateMerged g q now).queued ↔ id ∈ q.queued := by
  unfold queued
  rw [List.mem_append, List.mem_append]
  have lists := @loadMsgStatus_queues (lateRecovered g q now)
  show id ∈ mergeTargets _ (lateTargets g q now) q.rdmaMsgs ∨
    id ∈ (lateRecovered g q now).loadMsgStatus.rdmaMsgsUnfinished ↔ _
  rw [lists.2]
  obtain ⟨kept, source⟩ :=
    @mem_mergeTargets (lateRecovered g q now).loadMsgStatus (lateTargets g q now) q.rdmaMsgs id
  constructor
  · rintro (merged | other)
    · rcases source merged with target | sending
      · exact .inr (mem_lateTargets.mp target).1
      · exact .inl sending
    · exact .inr other
  · rintro (sending | other)
    · exact .inl (kept sending)
    · exact .inr other

theorem lateMerged_status {id : Nat} (member : id ∈ q.queued) :
    ((lateMerged g q now).operations id).status =
      if q.overdue g now id then (q.progressOf id).recover g else q.progressOf id := by
  show (((lateRecovered g q now).loadMsgStatus.recoverAll g _).operations id).status = _
  rw [recoverAll_status]
  show (if _ then ((lateRecovered g q now).progressOf id).recover g
    else (lateRecovered g q now).progressOf id) = _
  unfold lateRecovered
  rw [progressOf_eq, progressOf_eq, recoverAll_status]
  show (if _ then (if q.rdmaMsgs.head? = some id then q.current else _ : MsgStatus).recover g
    else if q.rdmaMsgs.head? = some id then q.current else _) = _
  simp only [List.mem_filter]
  by_cases timely : q.overdue g now id = true
  · by_cases front : q.rdmaMsgs.head? = some id
    · have sending : id ∈ q.rdmaMsgs := List.mem_of_head? front
      simp [timely, front, sending]
    · rcases List.mem_append.mp member with sending | other
      · by_cases both : id ∈ q.rdmaMsgsUnfinished
        · simp [timely, front, sending, both, recover_idem]
        · simp [timely, front, sending, both]
      · by_cases both : id ∈ q.rdmaMsgs
        · simp [timely, front, other, both, recover_idem]
        · simp [timely, front, other, both]
  · simp [timely]

theorem lateMerged_msgSeqOf (id : Nat) : (lateMerged g q now).msgSeqOf id =
    if q.rdmaMsgs.head? = some id then q.current.msgSeq else q.msgSeqOf id := by
  have number := (@sameMessages_recoverAll g (lateRecovered g q now).loadMsgStatus
    (q.rdmaMsgs.filter (q.overdue g now))).msgSeqOf id
  show msgSeqOf (recoverAll g _ _) id = _
  rw [number, loadMsgStatus_msgSeqOf]
  unfold lateRecovered
  rw [(sameMessages_recoverAll _).msgSeqOf]
  rfl

end Late

/-- `RecoverMSG` recovers what is overdue, the front only along with an unfinished message. -/
theorem recoverMSG_leaves (now : Nat) :
    Leaves q (q.recoverMSG g now) fun id =>
      if q.overdue g now id && (decide (q.rdmaMsgs.head? ≠ some id) ||
        q.rdmaMsgsUnfinished.any (q.overdue g now)) then (q.progressOf id).recover g
      else q.progressOf id := by
  cases some : q.rdmaMsgsUnfinished.any (q.overdue g now) with
  | false =>
      simp only [Bool.or_false]
      exact recoverMSG_leaves_idle some
  | true =>
      have same := @sameMessages_loadQPStatus g (lateMerged g q now)
      rw [recoverMSG_late some]
      refine ⟨fun id => ?_, fun id member => ?_, fun id => ?_⟩
      · unfold queued
        rw [same.rdmaMsgs, same.rdmaMsgsUnfinished]
        exact lateMerged_queued id
      · rw [progressOf_loadQPStatus, lateMerged_status member, Bool.or_true, Bool.and_true]
      · rw [same.msgSeqOf, lateMerged_msgSeqOf]
        split
        · rename_i front
          exact .inr ⟨front, rfl⟩
        · exact .inl rfl

end Progress

end Floodgate
