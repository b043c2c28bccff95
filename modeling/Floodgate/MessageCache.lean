import Floodgate.MessageAcks

/-! The queue pair as a cache of the message at the front of its sending queue: when its copy and
the objects together are the progress of the messages. -/

namespace Floodgate

open Outcome LabelledRun RdmaQueuePair

/-- A queue pair with the progress that each message has made, from what has been done for it. -/
structure TrackedFlow where
  flow : MessageFlow
  progress : Nat → MsgStatus

namespace TrackedFlow

def progressAfter (g : RdmaSettings) (s : TrackedFlow) : MessageEvent → Nat → MsgStatus
  | .add id request, i =>
      if i = id then (request.operation s.flow.now).status else s.progress i
  | .send _, i =>
      if s.flow.qp.rdmaMsgs.head? = some i then (s.progress i).sendOne g else s.progress i
  | .ack a, i =>
      nacked g s.flow.qp a i
        (if (s.progress i).msgSeq = a.msgSeq then (s.progress i).hear g a else s.progress i)
  | .timeout, i =>
      if i ∈ s.flow.qp.queued ∧ s.flow.qp.overdue g s.flow.now i = true then
        (s.progress i).recover g
      else s.progress i
  | _, i => s.progress i

inductive Step (g : RdmaSettings) (s : TrackedFlow) (event : MessageEvent) : TrackedFlow → Prop
  | step {flow : MessageFlow} (step : MessageFlow.Step g s.flow event flow) :
      Step g s event ⟨flow, progressAfter g s event⟩

def create (g : RdmaSettings) (id : Nat) (request : MessageRequest) : TrackedFlow :=
  ⟨MessageFlow.create g id request, fun _ => (request.operation 0).status⟩

end TrackedFlow

structure Carries (request : MessageRequest) (m : MsgStatus) : Prop where
  size : m.size = Word32.trunc request.size
  msgSeq : m.msgSeq = request.msgSeq
  sport : m.sport = request.sport
  flowId : m.flowId = request.flowId

namespace TrackedFlow

/-- The queue pair stands for the message at the front, and with a write-back at this point every
object has the progress of its own message. -/
structure Cached (s : TrackedFlow) : Prop where
  front : ∀ front ∈ s.flow.qp.rdmaMsgs.head?,
    ∃ request, (front, request) ∈ s.flow.added ∧ Carries request s.flow.qp.current
  stored : ∀ id ∈ s.flow.qp.queued, s.flow.qp.progressOf id = s.progress id

/-- A packet that is sent is the next one of the message at the front. -/
def Emits (g : RdmaSettings) (s : TrackedFlow) : MessageEvent → Prop
  | .send p => ∃ front ∈ s.flow.qp.rdmaMsgs.head?, ∃ seq m,
      RdmaHw.chooseSeq g (s.progress front) = .ok (seq, m) ∧ p = RdmaHw.packetAt g m seq
  | _ => True

/-- The condition on a handler. `RecoverMSG` does not find the message at the front overdue and no
message of the unfinished queue, except where recovering it changes nothing. -/
def KeepsCache (g : RdmaSettings) (q : RdmaQueuePair) (now : Nat) : MessageEvent → Prop
  | .send _ => q.rdmaMsgs ≠ []
  | .ack a => Reaches g q a ∧ NackHarmless g q a
  | .timeout => (∀ id ∈ q.rdmaMsgsUnfinished, q.overdue g now id = false) →
      ∀ front ∈ q.rdmaMsgs.head?, q.overdue g now front = true → q.current.recover g = q.current
  | _ => True

structure Numbered (s : TrackedFlow) : Prop where
  distinct : s.flow.added.Pairwise fun earlier later =>
    earlier.1 ≠ later.1 ∧ earlier.2.msgSeq < later.2.msgSeq
  requested : ∀ id ∈ s.flow.qp.queued,
    ∃ request, (id, request) ∈ s.flow.added ∧ Carries request (s.progress id)
  numbers : ∀ id ∈ s.flow.qp.queued, s.flow.qp.msgSeqOf id = (s.progress id).msgSeq

end TrackedFlow

section Carried

variable {g : RdmaSettings} {request : MessageRequest} {m : MsgStatus}

theorem Carries.recover (carries : Carries request m) : Carries request (m.recover g) :=
  ⟨carries.size, carries.msgSeq, carries.sport, carries.flowId⟩

theorem Carries.acknowledge (carries : Carries request m) (ack : Nat) (last : Bool) :
    Carries request (m.acknowledge g ack last) := by
  unfold MsgStatus.acknowledge MsgStatus.updateReceivedACK
  split_ifs
  all_goals exact ⟨carries.size, carries.msgSeq, carries.sport, carries.flowId⟩

theorem Carries.told (carries : Carries request m) (a : AckPacket) :
    Carries request (told g a m) := by
  unfold Floodgate.told MsgStatus.hear
  split_ifs
  · exact carries
  · exact carries.acknowledge _ _
  · exact carries

theorem Carries.nacked (carries : Carries request m) (q : RdmaQueuePair) (a : AckPacket) (i : Nat) :
    Carries request (Floodgate.nacked g q a i m) := by
  unfold Floodgate.nacked
  split_ifs
  all_goals exact ⟨carries.size, carries.msgSeq, carries.sport, carries.flowId⟩

theorem Carries.sendOne (carries : Carries request m) : Carries request (m.sendOne g) := by
  have advanced : ∀ (chosen : MsgStatus) (p : DataPacket), Carries request chosen →
      Carries request (RdmaHw.advance chosen p) := by
    intro chosen p carries
    unfold RdmaHw.advance
    split
    all_goals exact ⟨carries.size, carries.msgSeq, carries.sport, carries.flowId⟩
  unfold MsgStatus.sendOne
  split
  · rename_i seq chosen choice
    apply advanced
    unfold RdmaHw.chooseSeq at choice
    simp only at choice
    split at choice
    · rw [← (Prod.mk.inj (Except.ok.inj choice)).2]
      exact carries
    · split at choice
      · split at choice
        · rw [← (Prod.mk.inj (Except.ok.inj choice)).2]
          exact ⟨carries.size, carries.msgSeq, carries.sport, carries.flowId⟩
        · contradiction
      · rw [← (Prod.mk.inj (Except.ok.inj choice)).2]
        exact ⟨carries.size, carries.msgSeq, carries.sport, carries.flowId⟩
  · exact carries

end Carried

section Steps

open MessageQueues TrackedFlow

variable {g : RdmaSettings} {s : TrackedFlow} {flow : MessageFlow} {progress : Nat → MsgStatus}

theorem TrackedFlow.Numbered.distinct_queued (numbered : Numbered s) : Distinct s.flow.qp := by
  intro id member other inside same
  obtain ⟨request, added, carries⟩ := numbered.requested id member
  obtain ⟨request', added', carries'⟩ := numbered.requested other inside
  have equal : request.msgSeq = request'.msgSeq := by
    rw [← carries.msgSeq, ← carries'.msgSeq, ← numbered.numbers id member,
      ← numbered.numbers other inside, same]
  have symmetric : Std.Symm fun earlier later : Nat × MessageRequest =>
      earlier.2.msgSeq ≠ later.2.msgSeq := ⟨fun _ _ apart => Ne.symm apart⟩
  have apart : s.flow.added.Pairwise fun earlier later =>
      earlier.2.msgSeq ≠ later.2.msgSeq :=
    numbered.distinct.imp fun order => Nat.ne_of_lt order.2
  by_contra different
  exact apart.forall added added' (fun pair => different (congrArg Prod.fst pair)) equal

theorem TrackedFlow.Cached.frontCached (cached : Cached s) (numbered : Numbered s) :
    FrontCached s.flow.qp := by
  intro front head
  rw [Option.mem_def] at head
  have member : front ∈ s.flow.qp.queued := List.mem_append_left _ (List.mem_of_head? head)
  have current := cached.stored front member
  rw [progressOf_eq, if_pos head] at current
  rw [current, numbered.numbers front member]

/-- The identity of the front follows from its progress. -/
theorem TrackedFlow.Numbered.cached_iff (numbered : Numbered s) :
    Cached s ↔ ∀ id ∈ s.flow.qp.queued, s.flow.qp.progressOf id = s.progress id := by
  refine ⟨Cached.stored, fun stored => ⟨fun front head => ?_, stored⟩⟩
  rw [Option.mem_def] at head
  have member : front ∈ s.flow.qp.queued := List.mem_append_left _ (List.mem_of_head? head)
  have current := stored front member
  rw [progressOf_eq, if_pos head] at current
  rw [current]
  exact numbered.requested front member

theorem TrackedFlow.Numbered.handled (numbered : Numbered s) (added : flow.added = s.flow.added)
    (queued : ∀ id ∈ flow.qp.queued, id ∈ s.flow.qp.queued)
    (numbers : ∀ id ∈ flow.qp.queued, flow.qp.msgSeqOf id = s.flow.qp.msgSeqOf id)
    (carries : ∀ id request, Carries request (s.progress id) → Carries request (progress id)) :
    Numbered ⟨flow, progress⟩ := by
  refine ⟨by rw [added]; exact numbered.distinct, fun id member => ?_, fun id member => ?_⟩
  · obtain ⟨request, known, carried⟩ := numbered.requested id (queued id member)
    exact ⟨request, by rw [added]; exact known, carries id request carried⟩
  · obtain ⟨request, known, carried⟩ := numbered.requested id (queued id member)
    show flow.qp.msgSeqOf id = (progress id).msgSeq
    rw [numbers id member, numbered.numbers id (queued id member), carried.msgSeq,
      (carries id request carried).msgSeq]

theorem Leaves.numbered {q after : RdmaQueuePair} {f : Nat → MsgStatus} (leaves : Leaves q after f)
    (cached : FrontCached q) (id : Nat) : after.msgSeqOf id = q.msgSeqOf id := by
  rcases leaves.numbers id with kept | ⟨head, written⟩
  · exact kept
  · exact written.trans (cached id head)

theorem addRdmaOperation_progress {q : RdmaQueuePair} {id : Nat} (operation : RdmaOperation)
    (fresh : id ∉ q.queued) (other : Nat) :
    (q.addRdmaOperation g id operation).progressOf other =
      if other = id then operation.status else q.progressOf other := by
  have record : ((q.setOperation id operation).operations other).status =
      if other = id then operation.status else (q.operations other).status :=
    apply_ite RdmaOperation.status _ _ _
  unfold addRdmaOperation
  simp only
  split
  · rename_i single
    rw [progressOf_loadQPStatus]
    show ((q.setOperation id operation).operations other).status = _
    have empty : q.rdmaMsgs = [] := by
      rw [List.length_append, List.length_singleton] at single
      exact List.length_eq_zero_iff.mp (by omega)
    rw [record, progressOf_eq, empty]
    simp
  · rename_i several
    have nonempty : q.rdmaMsgs ≠ [] := by
      intro empty
      rw [empty] at several
      exact several rfl
    rw [progressOf_eq, progressOf_eq]
    show (if (q.rdmaMsgs ++ [id]).head? = some other then q.current
      else ((q.setOperation id operation).operations other).status) = _
    rw [record, List.head?_append_of_ne_nil _ nonempty]
    by_cases same : other = id
    · have apart : ¬ (q.rdmaMsgs.head? = some other) := by
        intro head
        rw [same] at head
        exact fresh (List.mem_append_left _ (List.mem_of_head? head))
      simp [same] at apart ⊢
      simp [apart]
    · simp [same]

theorem add_cached (numbered : Numbered s) (cached : Cached s) {id : Nat}
    {request : MessageRequest}
    (fresh : ∀ m ∈ s.flow.added, m.1 ≠ id ∧ m.2.msgSeq < request.msgSeq) {next : TrackedFlow}
    (qp : next.flow.qp = s.flow.qp.addRdmaOperation g id (request.operation s.flow.now))
    (added : next.flow.added = s.flow.added ++ [(id, request)])
    (progress : next.progress = progressAfter g s (.add id request)) :
    Numbered next ∧ Cached next := by
  have unseen : id ∉ s.flow.qp.queued := by
    intro member
    obtain ⟨old, known, -⟩ := numbered.requested id member
    exact (fresh _ known).1 rfl
  obtain ⟨sending, unfinished, numbers⟩ := @addRdmaOperation_queues g s.flow.qp id
    (request.operation s.flow.now)
  have members : ∀ other ∈ next.flow.qp.queued, other = id ∨ other ∈ s.flow.qp.queued := by
    intro other member
    rw [qp] at member
    unfold queued at member ⊢
    rw [sending, unfinished] at member
    simp only [List.mem_append, List.mem_singleton] at member ⊢
    tauto
  have after : ∀ other, next.progress other =
      if other = id then (request.operation s.flow.now).status else s.progress other := by
    rw [progress]
    exact fun _ => rfl
  have carried : Carries request (request.operation s.flow.now).status := ⟨rfl, rfl, rfl, rfl⟩
  have later : Numbered next := by
    refine ⟨?_, fun other member => ?_, fun other member => ?_⟩
    · rw [added]
      refine List.pairwise_append.mpr ⟨numbered.distinct, List.pairwise_singleton _ _, ?_⟩
      intro earlier known last new
      rw [List.mem_singleton.mp new]
      exact fresh earlier known
    · rw [after, added]
      split
      · rename_i same
        exact ⟨request, by rw [same]; simp, carried⟩
      · rename_i different
        obtain ⟨old, known, carries⟩ :=
          numbered.requested other ((members other member).resolve_left different)
        exact ⟨old, List.mem_append_left _ known, carries⟩
    · rw [qp, numbers, after]
      split
      · rfl
      · rename_i different
        exact numbered.numbers other ((members other member).resolve_left different)
  refine ⟨later, later.cached_iff.mpr fun other member => ?_⟩
  have here := members other member
  rw [qp, addRdmaOperation_progress _ unseen other, after]
  split
  · rfl
  · rename_i different
    exact cached.stored other (here.resolve_left different)

theorem send_cached (numbered : Numbered s) (cached : Cached s) {p : DataPacket}
    {qp : RdmaQueuePair} (success : RdmaHw.getNxtPacket g s.flow.now s.flow.qp = .ok (p, qp))
    {next : TrackedFlow} (after : next.flow.qp = qp) (added : next.flow.added = s.flow.added)
    (progress : next.progress = progressAfter g s (.send p)) :
    Numbered next ∧ (s.flow.qp.rdmaMsgs ≠ [] ↔ Emits g s (.send p) ∧ Cached next) := by
  obtain ⟨seq, m, chosen, packet, leaves⟩ := getNxtPacket_leaves success
  have front := cached.frontCached numbered
  have handled : Numbered next := by
    refine numbered.handled added (fun id member => ?_) (fun id _ => ?_) fun id request carries => ?_
    · rw [after] at member
      exact (leaves.queued id).mp member
    · rw [after]
      exact leaves.numbered front id
    · rw [progress]
      simp only [progressAfter]
      split
      · exact carries.sendOne
      · exact carries
  refine ⟨handled, ?_⟩
  rw [handled.cached_iff]
  have head : ∀ id, s.flow.qp.rdmaMsgs.head? = some id → s.flow.qp.current = s.progress id := by
    intro id first
    have stored := cached.stored id (List.mem_append_left _ (List.mem_of_head? first))
    rw [progressOf_eq, if_pos first] at stored
    exact stored
  constructor
  · intro nonempty
    obtain ⟨id, rest, queue⟩ := List.exists_cons_of_ne_nil nonempty
    have first : s.flow.qp.rdmaMsgs.head? = some id := by rw [queue]; rfl
    refine ⟨⟨id, first, seq, m, by rw [← head id first]; exact chosen, packet⟩, ?_⟩
    intro other member
    rw [after] at member ⊢
    have inside := (leaves.queued other).mp member
    have stored := cached.stored other inside
    rw [leaves.progress other inside, progress, progressOf_eq]
    rw [progressOf_eq] at stored
    simp only [progressAfter]
    split
    · rename_i here
      rw [if_pos here] at stored
      rw [← stored]
      unfold MsgStatus.sendOne
      rw [chosen, packet]
    · rename_i elsewhere
      rw [if_neg elsewhere] at stored
      exact stored
  · rintro ⟨⟨id, first, -⟩, -⟩ empty
    rw [Option.mem_def, empty] at first
    contradiction

theorem timeout_cached (numbered : Numbered s) (cached : Cached s) {next : TrackedFlow}
    (after : next.flow.qp = s.flow.qp.recoverMSG g s.flow.now)
    (added : next.flow.added = s.flow.added)
    (progress : next.progress = progressAfter g s .timeout) :
    Numbered next ∧
      (KeepsCache g s.flow.qp s.flow.now .timeout ↔ Emits g s .timeout ∧ Cached next) := by
  have leaves := @recoverMSG_leaves g s.flow.qp s.flow.now
  have front := cached.frontCached numbered
  have handled : Numbered next := by
    refine numbered.handled added (fun id member => ?_) (fun id _ => ?_) fun id request carries => ?_
    · rw [after] at member
      exact (leaves.queued id).mp member
    · rw [after]
      exact leaves.numbered front id
    · rw [progress]
      simp only [progressAfter]
      split
      · exact carries.recover
      · exact carries
  refine ⟨handled, Iff.trans ?_ (iff_of_eq (true_and _)).symm⟩
  rw [handled.cached_iff, after, progress]
  have value : ∀ id ∈ s.flow.qp.queued, (s.flow.qp.recoverMSG g s.flow.now).progressOf id =
      if s.flow.qp.overdue g s.flow.now id && (decide (s.flow.qp.rdmaMsgs.head? ≠ some id) ||
        s.flow.qp.rdmaMsgsUnfinished.any (s.flow.qp.overdue g s.flow.now)) then
        (s.progress id).recover g
      else s.progress id := by
    intro id member
    rw [leaves.progress id member, cached.stored id member]
  constructor
  · intro harmless id member
    have inside := (leaves.queued id).mp member
    rw [value id inside]
    simp only [progressAfter, inside, true_and]
    by_cases late : s.flow.qp.overdue g s.flow.now id = true
    · by_cases first : s.flow.qp.rdmaMsgs.head? = some id
      · cases others : s.flow.qp.rdmaMsgsUnfinished.any (s.flow.qp.overdue g s.flow.now) with
        | true => simp [late]
        | false =>
            have idle : ∀ id ∈ s.flow.qp.rdmaMsgsUnfinished,
                s.flow.qp.overdue g s.flow.now id = false := by
              simpa using List.any_eq_false.mp others
            have current := cached.stored id inside
            rw [progressOf_eq, if_pos first] at current
            have same := harmless idle id first late
            rw [current] at same
            simp [late, first, same]
      · simp [late, first]
    · simp [late]
  · intro right idle id first late
    rw [Option.mem_def] at first
    have inside : id ∈ s.flow.qp.queued := List.mem_append_left _ (List.mem_of_head? first)
    have equal := right id ((leaves.queued id).mpr inside)
    have others : s.flow.qp.rdmaMsgsUnfinished.any (s.flow.qp.overdue g s.flow.now) = false := by
      simpa using idle
    have current := cached.stored id inside
    rw [progressOf_eq, if_pos first] at current
    rw [value id inside, others] at equal
    simp only [progressAfter, inside, late, first, ne_eq, not_true, decide_false, Bool.or_false,
      Bool.and_false, Bool.false_eq_true, if_false, and_self, if_true] at equal
    rw [current]
    exact equal.symm

theorem same_cached (numbered : Numbered s) (cached : Cached s) {next : TrackedFlow}
    (same : SameProgress s.flow.qp next.flow.qp) (added : next.flow.added = s.flow.added)
    (progress : next.progress = s.progress) : Numbered next ∧ Cached next := by
  have handled : Numbered next := by
    refine numbered.handled added (fun id member => ?_) (fun id _ => same.msgSeqOf id)
      fun id request carries => ?_
    · rw [same.queued] at member
      exact member
    · rw [progress]
      exact carries
  refine ⟨handled, handled.cached_iff.mpr fun id member => ?_⟩
  rw [same.queued] at member
  rw [same.progressOf, progress]
  exact cached.stored id member

/-- One handler keeps the numbers, and the copy exactly under the condition. -/
theorem cached_step (qpMode : g.qpMode = true) (numbered : Numbered s) (cached : Cached s)
    {event : MessageEvent} {next : TrackedFlow} (step : TrackedFlow.Step g s event next) :
    Numbered next ∧
      (KeepsCache g s.flow.qp s.flow.now event ↔ Emits g s event ∧ Cached next) := by
  have front := cached.frontCached numbered
  have distinct := numbered.distinct_queued
  have settled : ∀ {next : TrackedFlow}, Numbered next ∧ Cached next →
      Numbered next ∧ (True ↔ True ∧ Cached next) :=
    fun ⟨numbers, keeps⟩ => ⟨numbers, iff_of_true trivial ⟨trivial, keeps⟩⟩
  obtain ⟨step⟩ := step
  cases step with
  | add fresh => exact settled (add_cached numbered cached fresh rfl rfl rfl)
  | send left room success => exact send_cached numbered cached success rfl rfl rfl
  | data sent => exact settled (same_cached numbered cached ⟨rfl, rfl, rfl, fun _ => rfl⟩ rfl rfl)
  | @ack a _ qp sent received =>
      obtain ⟨queued, numbers⟩ := receiveAck_frame qpMode distinct front received
      have handled : Numbered ⟨{ s.flow with qp := qp }, progressAfter g s (.ack a)⟩ :=
        numbered.handled rfl queued numbers
          fun id request carries => (carries.told a).nacked s.flow.qp a id
      refine ⟨handled, ?_⟩
      rw [handled.cached_iff]
      exact (receiveAck_stored qpMode distinct front cached.stored received).trans
        (iff_of_eq (true_and _)).symm
  | timeout due => exact timeout_cached numbered cached rfl rfl rfl
  | pace rate =>
      exact settled (same_cached numbered cached ⟨rfl, rfl, rfl, fun _ => rfl⟩ rfl rfl)
  | wait forward before =>
      exact settled (same_cached numbered cached ⟨rfl, rfl, rfl, fun _ => rfl⟩ rfl rfl)

theorem cached_create (g : RdmaSettings) (id : Nat) (request : MessageRequest) :
    Numbered (TrackedFlow.create g id request) ∧ Cached (TrackedFlow.create g id request) := by
  have fresh : id ∉ (RdmaQueuePair.empty g).queued := by simp [RdmaQueuePair.empty, queued]
  obtain ⟨sending, unfinished, numbers⟩ :=
    @addRdmaOperation_queues g (RdmaQueuePair.empty g) id (request.operation 0)
  have same : SameProgress
      ((RdmaQueuePair.empty g).addRdmaOperation g id (request.operation 0))
      (TrackedFlow.create g id request).flow.qp := ⟨rfl, rfl, rfl, fun _ => rfl⟩
  have only : ∀ other ∈ (TrackedFlow.create g id request).flow.qp.queued, other = id := by
    intro other member
    rw [same.queued] at member
    unfold queued at member
    rw [sending, unfinished] at member
    simpa [RdmaQueuePair.empty] using member
  have numbered : Numbered (TrackedFlow.create g id request) := by
    refine ⟨List.pairwise_singleton _ _, fun other member => ?_, fun other member => ?_⟩
    · rw [only other member]
      exact ⟨request, List.mem_singleton.mpr rfl, rfl, rfl, rfl, rfl⟩
    · rw [same.msgSeqOf, numbers, if_pos (only other member)]
      rfl
  refine ⟨numbered, numbered.cached_iff.mpr fun other member => ?_⟩
  rw [same.progressOf, addRdmaOperation_progress _ fresh other, if_pos (only other member)]
  rfl

/-- The queue pair is a faithful cache of the message at the front, and every packet the next one of
that message, in the whole of a run exactly if every handler in it meets the condition. -/
theorem cache_faithful (g : RdmaSettings) (qpMode : g.qpMode = true) (id : Nat)
    (request : MessageRequest) (entries : List (TrackedFlow × MessageEvent)) (s : TrackedFlow)
    (run : Run (Traced (TrackedFlow.Step g)) (TrackedFlow.create g id request) entries s) :
    (∀ entry ∈ entries, KeepsCache g entry.1.flow.qp entry.1.flow.now entry.2) ↔
      (∀ entry ∈ entries, Cached entry.1 ∧ Emits g entry.1 entry.2) ∧ Cached s := by
  obtain ⟨numbered, cached⟩ := cached_create g id request
  refine run.served_iff Numbered Cached (fun s => KeepsCache g s.flow.qp s.flow.now) (Emits g)
    numbered cached ?_ ?_
  · exact fun s event next numbered cached step => (cached_step qpMode numbered cached step).1
  · exact fun s event next numbered cached step => (cached_step qpMode numbered cached step).2

/-- A message of one packet sent, received and completed. -/
theorem cache_faithful_one_packet :
    ∃ (entries : List (TrackedFlow × MessageEvent)) (s : TrackedFlow),
      entries.length = 3 ∧ s.flow.qp.queued = [] ∧
      ((∀ entry ∈ entries, KeepsCache qpModeSettings entry.1.flow.qp entry.1.flow.now entry.2) ↔
        (∀ entry ∈ entries, Cached entry.1 ∧ Emits qpModeSettings entry.1 entry.2) ∧ Cached s) := by
  have sent : Run (TrackedFlow.Step qpModeSettings)
      (TrackedFlow.create qpModeSettings 0 (onePacket 1)) _ _ :=
    Run.single (.step (.send (by decide) (by decide) rfl))
  have arrived := sent.snoc (.step (.data (List.mem_singleton.mpr rfl)))
  have acked := arrived.snoc
    (.step (@MessageFlow.Step.ack _ _ ⟨1000, false, 1, true⟩ _ _ (by decide +kernel) rfl))
  obtain ⟨entries, traced, labels⟩ := acked.traced
  refine ⟨entries, _, ?_, by decide +kernel,
    cache_faithful qpModeSettings rfl 0 (onePacket 1) entries _ traced⟩
  rw [← List.length_map Prod.snd, labels]
  rfl

/-- A timer that was set for a completed message expires while the next one is being sent: what it
says of that message does not reach the queue pair. -/
theorem timeout_misses_front : ¬ ∀ g : RdmaSettings, g.qpMode = true → ∀ id request labels s,
    Run (TrackedFlow.Step g) (TrackedFlow.create g id request) labels s → Cached s := by
  intro claim
  have added : Run (TrackedFlow.Step qpModeSettings)
      (TrackedFlow.create qpModeSettings 0 (onePacket 1)) _ _ :=
    Run.single (.step (@MessageFlow.Step.add _ _ 1 ⟨3000, 2, 2, 0, 0, 0, 2⟩ (by decide)))
  have first := added.snoc (.step (.send (by decide) (by decide) rfl))
  have second := first.snoc (.step (.send (by decide +kernel) (by decide +kernel) rfl))
  have arrived := second.snoc
    (.step (@MessageFlow.Step.data _ _ ⟨0, 1000, 1, 1, 1, true⟩ (by decide +kernel)))
  have acked := arrived.snoc
    (.step (@MessageFlow.Step.ack _ _ ⟨1000, false, 1, true⟩ _ _ (by decide +kernel) rfl))
  have waited := acked.snoc
    (.step (@MessageFlow.Step.wait _ _ 5000 (by decide +kernel) (by decide +kernel)))
  have expired := waited.snoc (.step (.timeout (by decide +kernel)))
  have cached := claim qpModeSettings rfl 0 (onePacket 1) _ _ expired
  have stored := congrArg MsgStatus.sndNxt (cached.stored 1 (by decide +kernel))
  exact absurd stored (by decide +kernel)

end Steps

end Floodgate
