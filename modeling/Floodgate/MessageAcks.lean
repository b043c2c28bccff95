import Floodgate.MessageProgress

/-! What an acknowledgement does to the progress of every message of a queue pair, and when that is
what it should do. -/

namespace Floodgate

open Outcome RdmaQueuePair

def told (g : RdmaSettings) (a : AckPacket) (m : MsgStatus) : MsgStatus :=
  if m.msgSeq = a.msgSeq then m.hear g a else m

/-- What a NACK does to a message: that of the message at the front pulls it back, any other makes
`RecoverMsg` look for the number on the queue pair. -/
def nacked (g : RdmaSettings) (q : RdmaQueuePair) (a : AckPacket) (i : Nat) (m : MsgStatus) :
    MsgStatus :=
  if a.nack && g.nackReaction then
    if a.msgSeq = q.current.msgSeq then
      if q.rdmaMsgs.head? = some i then m.pullBack else m
    else if i ∈ q.rdmaMsgsUnfinished ∧ m.msgSeq = q.current.msgSeq then m.recover g
    else m
  else m

/-- An acknowledgement for the number on the queue pair does not complete the message at the front
of a longer queue; where the queue is empty, it has nothing new to say to any message. -/
def Reaches (g : RdmaSettings) (q : RdmaQueuePair) (a : AckPacket) : Prop :=
  g.ackInterval ≠ 0 → a.msgSeq = q.current.msgSeq →
    (q.rdmaMsgs = [] → ∀ id ∈ q.rdmaMsgsUnfinished, q.msgSeqOf id = a.msgSeq →
      (q.operations id).status.isFinished g = false →
      (q.operations id).status.hear g a = (q.operations id).status) ∧
    ∀ front rest, q.rdmaMsgs = front :: rest → front ∉ q.rdmaMsgsUnfinished →
      (q.operations front).status.isFinished g = true → ∀ id ∈ rest, id = front

/-- A NACK of another message does not find the message at the front in the unfinished queue,
except where recovering it changes nothing. -/
def NackHarmless (g : RdmaSettings) (q : RdmaQueuePair) (a : AckPacket) : Prop :=
  (a.nack && g.nackReaction) = true → a.msgSeq ≠ q.current.msgSeq →
    ∀ front ∈ q.rdmaMsgs.head?, front ∈ q.rdmaMsgsUnfinished → q.current.recover g = q.current

section Acknowledge

open MessageQueues

variable {g : RdmaSettings} {q after : RdmaQueuePair} {a : AckPacket}

def Distinct (q : RdmaQueuePair) : Prop :=
  ∀ id ∈ q.queued, ∀ other ∈ q.queued, q.msgSeqOf id = q.msgSeqOf other → id = other

theorem progressOf_msgSeq (cached : FrontCached q) (id : Nat) :
    (q.progressOf id).msgSeq = q.msgSeqOf id := by
  rw [progressOf_eq]
  split
  · rename_i front
    exact cached id front
  · rfl

theorem hear_msgSeq (m : MsgStatus) : (m.hear g a).msgSeq = m.msgSeq := by
  unfold MsgStatus.hear
  split
  · rfl
  · exact acknowledge_msgSeq m _ _

/-- A queue pair that has been told of an acknowledgement, before completion. -/
def RdmaQueuePair.listen (g : RdmaSettings) (q : RdmaQueuePair) (a : AckPacket) : RdmaQueuePair :=
  if a.msgSeq = q.current.msgSeq then
    { q with current := q.current.acknowledge g (ackSeq g a) a.last }
  else q.acknowledgeMsg g (ackSeq g a) a.msgSeq a.last

theorem acknowledge_off (off : g.ackInterval = 0) : (RdmaHw.acknowledge g q a).2 = q := by
  unfold RdmaHw.acknowledge
  simp [off]

theorem acknowledge_qpMode (qpMode : g.qpMode = true) (some : g.ackInterval ≠ 0) :
    (RdmaHw.acknowledge g q a).2 =
      if ((q.listen g a).checkFinish g a.msgSeq).isSome then
        ((q.listen g a).removeRdmaOperation a.msgSeq).2
      else q.listen g a := by
  unfold RdmaHw.acknowledge
  simp only [some, qpMode, if_false, Bool.not_true, Bool.false_eq_true]
  unfold RdmaQueuePair.listen ackSeq
  split
  · rename_i id finished
    rw [finished]
    rfl
  · rename_i unfinished
    rw [unfinished]
    rfl

theorem listen_messages : SameMessages q (q.listen g a) := by
  unfold RdmaQueuePair.listen
  split
  · exact ⟨rfl, rfl, fun _ => rfl⟩
  · exact sameMessages_acknowledgeMsg _ _ _

theorem listen_number : (q.listen g a).current.msgSeq = q.current.msgSeq := by
  unfold RdmaQueuePair.listen
  split
  · exact acknowledge_msgSeq _ _ _
  · rfl

theorem lookup_same (same : SameMessages q after) (msgSeq : Nat) :
    after.lookup msgSeq = q.lookup msgSeq := by
  unfold lookup
  simp only [same.rdmaMsgs, same.rdmaMsgsUnfinished, same.msgSeqOf]

structure Completed (g : RdmaSettings) (a : AckPacket) (before after : RdmaQueuePair) : Prop where
  queued : ∀ id ∈ after.queued, id ∈ before.queued
  sending : ∀ id ∈ after.rdmaMsgs, id ∈ before.rdmaMsgs
  unfinished : ∀ id, before.msgSeqOf id ≠ a.msgSeq →
    (id ∈ after.rdmaMsgsUnfinished ↔ id ∈ before.rdmaMsgsUnfinished)
  numbers : ∀ id, after.msgSeqOf id = before.msgSeqOf id
  number : after.current.msgSeq = before.current.msgSeq

theorem acknowledge_completed (qpMode : g.qpMode = true) :
    Completed g a q (RdmaHw.acknowledge g q a).2 := by
  by_cases none : g.ackInterval = 0
  · rw [acknowledge_off none]
    exact ⟨fun _ member => member, fun _ member => member, fun _ _ => Iff.rfl, fun _ => rfl, rfl⟩
  · rw [acknowledge_qpMode qpMode none]
    have same := @listen_messages g q a
    have listened : Completed g a q (q.listen g a) := by
      refine ⟨fun id member => ?_, fun id member => ?_, fun id _ => ?_, same.msgSeqOf,
        listen_number⟩
      · unfold RdmaQueuePair.queued at member ⊢
        rw [same.rdmaMsgs, same.rdmaMsgsUnfinished] at member
        exact member
      · rw [same.rdmaMsgs] at member
        exact member
      · rw [same.rdmaMsgsUnfinished]
    split
    · obtain ⟨operations, current, lists⟩ := removeRdmaOperation_parts (q.listen g a) a.msgSeq
      have numbers : ∀ id, ((q.listen g a).removeRdmaOperation a.msgSeq).2.msgSeqOf id =
          q.msgSeqOf id := by
        intro id
        unfold msgSeqOf
        rw [operations]
        exact same.msgSeqOf id
      have sending : ∀ id ∈ ((q.listen g a).removeRdmaOperation a.msgSeq).2.rdmaMsgs,
          id ∈ q.rdmaMsgs := by
        intro id member
        rcases lists with ⟨-, kept, -⟩ | ⟨-, kept, -⟩
        · rw [kept] at member
          exact listened.sending id member
        · rw [kept] at member
          exact listened.sending id (List.mem_of_mem_filter member)
      have subset : ∀ id ∈ ((q.listen g a).removeRdmaOperation a.msgSeq).2.rdmaMsgsUnfinished,
          id ∈ q.rdmaMsgsUnfinished := by
        intro id member
        rw [← same.rdmaMsgsUnfinished]
        rcases lists with ⟨-, -, kept⟩ | ⟨-, -, kept⟩
        · rw [kept] at member
          exact List.mem_of_mem_filter member
        · rw [kept] at member
          exact member
      refine ⟨fun id member => ?_, sending, fun id other => ⟨subset id, fun member => ?_⟩,
        numbers, ?_⟩
      · rcases List.mem_append.mp member with send | wait
        · exact List.mem_append_left _ (sending id send)
        · exact List.mem_append_right _ (subset id wait)
      · rw [← same.rdmaMsgsUnfinished] at member
        rcases lists with ⟨-, -, kept⟩ | ⟨-, -, kept⟩
        · rw [kept, List.mem_filter, decide_eq_true_eq, same.msgSeqOf]
          exact ⟨member, other⟩
        · rw [kept]
          exact member
      · rw [current]
        exact listen_number
    · exact listened

/-- After the acknowledgement every message that is left has heard what it should, and the one at
the front, if it is left, is at the front. -/
structure Heard (g : RdmaSettings) (a : AckPacket) (before after : RdmaQueuePair) : Prop where
  front : ∀ id ∈ after.queued, after.rdmaMsgs.head? = some id ↔ before.rdmaMsgs.head? = some id
  progress : ∀ id ∈ after.queued, after.progressOf id = told g a (before.progressOf id)

theorem mem_lookup_iff (distinct : Distinct q) {msgSeq id : Nat} :
    id ∈ q.lookup msgSeq ↔ id ∈ q.queued ∧ q.msgSeqOf id = msgSeq := by
  refine ⟨mem_lookup, fun ⟨member, number⟩ => ?_⟩
  unfold lookup
  split
  · rename_i present
    obtain ⟨other, waiting, same⟩ := List.any_eq_true.mp present
    rw [decide_eq_true_eq] at same
    have equal := distinct id member other (List.mem_append_right _ waiting)
      (number.trans same.symm)
    rw [equal]
    exact List.mem_filter.mpr ⟨waiting, decide_eq_true same⟩
  · rename_i absent
    rcases List.mem_append.mp member with sending | waiting
    · exact List.mem_filter.mpr ⟨sending, decide_eq_true number⟩
    · exact absurd (List.any_eq_true.mpr ⟨id, waiting, decide_eq_true number⟩) absent

theorem acknowledge_removed (q : RdmaQueuePair) (msgSeq : Nat)
    (other : ∀ front ∈ q.rdmaMsgs.head?, q.msgSeqOf front ≠ msgSeq) :
    (q.removeRdmaOperation msgSeq).2.rdmaMsgs.head? = q.rdmaMsgs.head? := by
  obtain ⟨-, -, ⟨-, kept, -⟩ | ⟨-, kept, -⟩⟩ := removeRdmaOperation_parts q msgSeq
  · rw [kept]
  · rw [kept]
    cases queue : q.rdmaMsgs with
    | nil => rfl
    | cons front rest =>
        have passes := other front (by simp [queue])
        rw [List.filter_cons_of_pos (by simpa using passes)]
        rfl

theorem listen_other (other : a.msgSeq ≠ q.current.msgSeq) :
    q.listen g a = q.acknowledgeMsg g (ackSeq g a) a.msgSeq a.last := by
  unfold RdmaQueuePair.listen
  rw [if_neg other]

theorem acknowledge_state (qpMode : g.qpMode = true) (some : g.ackInterval ≠ 0)
    (cached : FrontCached q) (other : a.msgSeq ≠ q.current.msgSeq) :
    (RdmaHw.acknowledge g q a).2.rdmaMsgs.head? = q.rdmaMsgs.head? ∧
      (RdmaHw.acknowledge g q a).2.current = q.current ∧
      (RdmaHw.acknowledge g q a).2.operations = (q.listen g a).operations := by
  have listened := @listen_other g q a other
  rw [acknowledge_qpMode qpMode some]
  split
  · obtain ⟨operations, current, -⟩ := removeRdmaOperation_parts (q.listen g a) a.msgSeq
    refine ⟨?_, current.trans (by rw [listened]; rfl), operations⟩
    rw [acknowledge_removed]
    · rw [listen_messages.rdmaMsgs]
    · intro front head
      rw [listen_messages.rdmaMsgs] at head
      rw [listen_messages.msgSeqOf, ← cached front head]
      exact Ne.symm other
  · exact ⟨by rw [listen_messages.rdmaMsgs], by rw [listened]; rfl, rfl⟩

theorem heard_other (qpMode : g.qpMode = true) (some : g.ackInterval ≠ 0) (distinct : Distinct q)
    (cached : FrontCached q) (other : a.msgSeq ≠ q.current.msgSeq) :
    Heard g a q (RdmaHw.acknowledge g q a).2 := by
  have completed := @acknowledge_completed g q a qpMode
  have listened := @listen_other g q a other
  have state := acknowledge_state qpMode some cached other
  refine ⟨fun id _ => by rw [state.1], fun id member => ?_⟩
  have queued := completed.queued id member
  unfold told
  rw [progressOf_msgSeq cached, progressOf_eq, progressOf_eq, state.1, state.2.1, state.2.2]
  by_cases front : q.rdmaMsgs.head? = Option.some id
  · have number : q.msgSeqOf id ≠ a.msgSeq := by
      rw [← cached id front]
      exact Ne.symm other
    rw [if_pos front, if_pos front, if_neg number]
  · rw [if_neg front, if_neg front, listened]
    show (if id ∈ q.lookup a.msgSeq then _ else _ : RdmaOperation).status = _
    rw [apply_ite RdmaOperation.status]
    simp only [mem_lookup_iff distinct, queued, true_and, MsgStatus.hear, some, if_false]

theorem heard_front (qpMode : g.qpMode = true) (some : g.ackInterval ≠ 0) (distinct : Distinct q)
    (cached : FrontCached q) (same : a.msgSeq = q.current.msgSeq) {front : Nat} {rest : List Nat}
    (queue : q.rdmaMsgs = front :: rest)
    (alone : front ∉ q.rdmaMsgsUnfinished → (q.operations front).status.isFinished g = true →
      ∀ id ∈ rest, id = front) : Heard g a q (RdmaHw.acknowledge g q a).2 := by
  have completed := @acknowledge_completed g q a qpMode
  have head : q.rdmaMsgs.head? = Option.some front := by rw [queue]; rfl
  have number : q.msgSeqOf front = a.msgSeq := (same.trans (cached front head)).symm
  have frontQueued : front ∈ q.queued := List.mem_append_left _ (List.mem_of_head? head)
  have others : ∀ id ∈ q.queued, id ≠ front → q.msgSeqOf id ≠ a.msgSeq :=
    fun id member different equal =>
      different (distinct id member front frontQueued (equal.trans number.symm))
  have listened : q.listen g a =
      { q with current := q.current.acknowledge g (ackSeq g a) a.last } := by
    unfold RdmaQueuePair.listen
    rw [if_pos same]
  -- With the front still there, it alone hears the acknowledgement, through the queue pair.
  have stays : ∀ after : RdmaQueuePair, after.rdmaMsgs.head? = q.rdmaMsgs.head? →
      after.current = q.current.acknowledge g (ackSeq g a) a.last →
      after.operations = q.operations → (∀ id ∈ after.queued, id ∈ q.queued) →
      Heard g a q after := by
    intro after frontSame current operations subset
    refine ⟨fun id _ => by rw [frontSame], fun id member => ?_⟩
    unfold told
    rw [progressOf_msgSeq cached, progressOf_eq, progressOf_eq, frontSame, current, operations,
      head]
    by_cases here : front = id
    · subst here
      simp only [if_true, number, MsgStatus.hear, some, if_false]
    · have apart : Option.some front ≠ Option.some id := fun equal => here (Option.some.inj equal)
      rw [if_neg apart, if_neg apart, if_neg (others id (subset id member) (Ne.symm here))]
  have messages := @listen_messages g q a
  have subset := completed.queued
  rw [acknowledge_qpMode qpMode some] at subset ⊢
  split at subset
  · rename_i finished
    rw [if_pos finished]
    obtain ⟨operations, current, ⟨-, kept, -⟩ | ⟨absent, kept, waiting⟩⟩ :=
      removeRdmaOperation_parts (q.listen g a) a.msgSeq
    · refine stays _ (by rw [kept, messages.rdmaMsgs]) ?_ ?_ subset
      · rw [current, listened]
      · rw [operations, listened]
    · -- The front is found in the sending queue, so its object is finished and it is alone.
      simp only [messages.rdmaMsgsUnfinished, messages.msgSeqOf] at absent
      obtain ⟨id, found⟩ := Option.isSome_iff_exists.mp finished
      obtain ⟨lookup, done⟩ := checkFinish_lookup found
      obtain ⟨member, numbered⟩ := mem_lookup lookup
      rw [messages.msgSeqOf] at numbered
      have isFront : id = front := by
        by_contra different
        refine others id ?_ different numbered
        unfold RdmaQueuePair.queued at member ⊢
        rw [messages.rdmaMsgs, messages.rdmaMsgsUnfinished] at member
        exact member
      subst isFront
      rw [listened] at done
      have outside : id ∉ q.rdmaMsgsUnfinished := fun inside => absent id inside number
      have single := alone outside done
      have empty : ((q.listen g a).removeRdmaOperation a.msgSeq).2.rdmaMsgs = [] := by
        rw [kept, messages.rdmaMsgs, queue]
        apply List.filter_eq_nil_iff.mpr
        intro other inside
        have equal : other = id := by
          rcases List.mem_cons.mp inside with first | later
          · exact first
          · exact single other later
        rw [equal, messages.msgSeqOf]
        simp [number]
      have gone : ∀ other ∈ ((q.listen g a).removeRdmaOperation a.msgSeq).2.queued,
          other ≠ id := by
        rintro other inside rfl
        rcases List.mem_append.mp inside with sending | rest
        · rw [empty] at sending
          contradiction
        · rw [waiting, messages.rdmaMsgsUnfinished] at rest
          exact outside rest
      refine ⟨fun other inside => ?_, fun other inside => ?_⟩
      · rw [empty, head]
        simp [(gone other inside).symm]
      · have different := gone other inside
        have apart : Option.some id ≠ Option.some other :=
          fun equal => different (Option.some.inj equal).symm
        unfold told
        rw [progressOf_msgSeq cached, if_neg (others other (subset other inside) different),
          progressOf_eq, progressOf_eq, empty, head, if_neg apart, operations, listened]
        rfl
  · rename_i unfinished
    rw [if_neg unfinished]
    exact stays _ (by rw [messages.rdmaMsgs]) (by rw [listened]) (by rw [listened]) subset

theorem acknowledge_idle (qpMode : g.qpMode = true) (some : g.ackInterval ≠ 0)
    (same : a.msgSeq = q.current.msgSeq) (idle : q.rdmaMsgs = []) :
    (RdmaHw.acknowledge g q a).2.rdmaMsgs = [] ∧
      (RdmaHw.acknowledge g q a).2.operations = q.operations ∧
      ∀ id ∈ q.rdmaMsgsUnfinished, q.msgSeqOf id = a.msgSeq →
        (id ∈ (RdmaHw.acknowledge g q a).2.rdmaMsgsUnfinished →
          (q.operations id).status.isFinished g = false) ∧
        ((∀ other ∈ q.rdmaMsgsUnfinished, q.msgSeqOf other = a.msgSeq → id = other) →
          (q.operations id).status.isFinished g = false →
          id ∈ (RdmaHw.acknowledge g q a).2.rdmaMsgsUnfinished) := by
  have messages := @listen_messages g q a
  have listened : (q.listen g a).operations = q.operations := by
    unfold RdmaQueuePair.listen
    rw [if_pos same]
  have waiting : ∀ id ∈ q.rdmaMsgsUnfinished, q.msgSeqOf id = a.msgSeq → id ∈ q.lookup a.msgSeq := by
    intro id member number
    unfold lookup
    rw [if_pos (List.any_eq_true.mpr ⟨id, member, decide_eq_true number⟩)]
    exact List.mem_filter.mpr ⟨member, decide_eq_true number⟩
  rw [acknowledge_qpMode qpMode some]
  split
  · rename_i finished
    obtain ⟨operations, -, lists⟩ := removeRdmaOperation_parts (q.listen g a) a.msgSeq
    refine ⟨?_, operations.trans listened, fun id member number => ⟨fun left => ?_, ?_⟩⟩
    · rcases lists with ⟨-, kept, -⟩ | ⟨-, kept, -⟩
      · rw [kept, messages.rdmaMsgs, idle]
      · rw [kept, messages.rdmaMsgs, idle]
        rfl
    · rcases lists with ⟨-, -, kept⟩ | ⟨absent, -, -⟩
      · rw [kept, List.mem_filter, decide_eq_true_eq, messages.msgSeqOf] at left
        exact absurd number left.2
      · rw [messages.rdmaMsgsUnfinished] at absent
        have apart := absent id member
        rw [messages.msgSeqOf] at apart
        exact absurd number apart
    · intro unique unfinished
      obtain ⟨found, target⟩ := Option.isSome_iff_exists.mp finished
      obtain ⟨lookup, done⟩ := checkFinish_lookup target
      rw [lookup_same messages] at lookup
      obtain ⟨inside, numbered⟩ := mem_lookup lookup
      unfold RdmaQueuePair.queued at inside
      rw [idle, List.nil_append] at inside
      rw [listened, ← unique found inside numbered, unfinished] at done
      contradiction
  · rename_i unfinished
    refine ⟨by rw [messages.rdmaMsgs, idle], listened, fun id member number => ⟨fun _ => ?_, ?_⟩⟩
    · by_contra done
      have none : (q.listen g a).checkFinish g a.msgSeq = Option.none := by
        simpa using unfinished
      have empty := List.filter_eq_nil_iff.mp (List.getLast?_eq_none_iff.mp none) id (by
        rw [lookup_same messages]
        exact waiting id member number)
      rw [listened] at empty
      simp only [Bool.not_eq_false] at done
      exact empty done
    · intro _ _
      rw [messages.rdmaMsgsUnfinished]
      exact member

theorem heard_idle (qpMode : g.qpMode = true) (some : g.ackInterval ≠ 0)
    (same : a.msgSeq = q.current.msgSeq) (idle : q.rdmaMsgs = [])
    (nothing : ∀ id ∈ q.rdmaMsgsUnfinished, q.msgSeqOf id = a.msgSeq →
      (q.operations id).status.isFinished g = false →
      (q.operations id).status.hear g a = (q.operations id).status) :
    Heard g a q (RdmaHw.acknowledge g q a).2 := by
  obtain ⟨empty, operations, unfinished⟩ := acknowledge_idle qpMode some same idle
  have completed := @acknowledge_completed g q a qpMode
  refine ⟨fun id _ => by rw [empty, idle], fun id member => ?_⟩
  rw [progressOf_eq, progressOf_eq, empty, idle, operations]
  simp only [List.head?_nil, reduceCtorEq, if_false]
  unfold told
  split
  · rename_i number
    have inside := completed.queued id member
    unfold RdmaQueuePair.queued at inside member
    rw [idle, List.nil_append] at inside
    rw [empty, List.nil_append] at member
    exact (nothing id inside number ((unfinished id inside number).1 member)).symm
  · rfl

/-- Under the condition every message hears of an acknowledgement what is meant for it. -/
theorem heard_of_reaches (qpMode : g.qpMode = true) (distinct : Distinct q)
    (cached : FrontCached q) (reaches : Reaches g q a) :
    Heard g a q (RdmaHw.acknowledge g q a).2 := by
  by_cases none : g.ackInterval = 0
  · rw [acknowledge_off none]
    refine ⟨fun _ _ => Iff.rfl, fun id _ => ?_⟩
    unfold told MsgStatus.hear
    rw [if_pos none, ite_self]
  · by_cases same : a.msgSeq = q.current.msgSeq
    · obtain ⟨nothing, alone⟩ := reaches none same
      cases queue : q.rdmaMsgs with
      | nil => exact heard_idle qpMode none same queue (nothing queue)
      | cons front rest =>
          exact heard_front qpMode none distinct cached same queue (alone front rest queue)
    · exact heard_other qpMode none distinct cached same

/-- Otherwise some message that is left has not. -/
theorem not_heard (qpMode : g.qpMode = true) (distinct : Distinct q) (cached : FrontCached q)
    (unreached : ¬ Reaches g q a) :
    a.msgSeq = q.current.msgSeq ∧
      ((∃ id ∈ (RdmaHw.acknowledge g q a).2.queued, q.rdmaMsgs = [] ∧
          (RdmaHw.acknowledge g q a).2.rdmaMsgs = [] ∧
          (RdmaHw.acknowledge g q a).2.progressOf id ≠ told g a (q.progressOf id)) ∨
        ∃ id ∈ q.queued, (RdmaHw.acknowledge g q a).2.rdmaMsgs.head? = some id ∧
          q.msgSeqOf id ≠ a.msgSeq) := by
  unfold Reaches at unreached
  push Not at unreached
  obtain ⟨some, same, failed⟩ := unreached
  refine ⟨same, ?_⟩
  by_cases idle : q.rdmaMsgs = []
  · left
    have lost : ∃ id ∈ q.rdmaMsgsUnfinished, q.msgSeqOf id = a.msgSeq ∧
        (q.operations id).status.isFinished g = false ∧
        (q.operations id).status.hear g a ≠ (q.operations id).status := by
      by_contra none
      push Not at none
      obtain ⟨front, rest, queue, -⟩ := failed fun _ => none
      rw [idle] at queue
      contradiction
    obtain ⟨id, member, number, unfinished, news⟩ := lost
    obtain ⟨empty, operations, left⟩ := acknowledge_idle qpMode some same idle
    have stays := (left id member number).2 (fun other inside numbered =>
      distinct id (List.mem_append_right _ member) other (List.mem_append_right _ inside)
        (number.trans numbered.symm)) unfinished
    refine ⟨id, List.mem_append_right _ stays, idle, empty, ?_⟩
    unfold told
    rw [progressOf_msgSeq cached, if_pos number, progressOf_eq, progressOf_eq, empty, idle,
      operations]
    exact Ne.symm news
  · right
    obtain ⟨front, rest, queue, outside, finished, other, inside, different⟩ :=
      failed fun empty => absurd empty idle
    have head : q.rdmaMsgs.head? = Option.some front := by rw [queue]; rfl
    have number : q.msgSeqOf front = a.msgSeq := (same.trans (cached front head)).symm
    have frontQueued : front ∈ q.queued := List.mem_append_left _ (List.mem_of_head? head)
    have messages := @listen_messages g q a
    have absent : ∀ id ∈ q.rdmaMsgsUnfinished, q.msgSeqOf id ≠ a.msgSeq := by
      intro id member equal
      have isFront := distinct id (List.mem_append_right _ member) front frontQueued
        (equal.trans number.symm)
      rw [isFront] at member
      exact outside member
    have found : ((q.listen g a).checkFinish g a.msgSeq).isSome = true := by
      rw [Option.isSome_iff_ne_none]
      intro none
      have empty := List.filter_eq_nil_iff.mp (List.getLast?_eq_none_iff.mp none) front (by
        rw [lookup_same messages]
        exact (mem_lookup_iff distinct).mpr ⟨frontQueued, number⟩)
      have listened : (q.listen g a).operations = q.operations := by
        unfold RdmaQueuePair.listen
        rw [if_pos same]
      rw [listened] at empty
      exact empty finished
    rw [acknowledge_qpMode qpMode some, if_pos found]
    obtain ⟨-, -, ⟨⟨id, member, equal⟩, -, -⟩ | ⟨-, kept, -⟩⟩ :=
      removeRdmaOperation_parts (q.listen g a) a.msgSeq
    · rw [messages.rdmaMsgsUnfinished] at member
      rw [messages.msgSeqOf] at equal
      exact absurd equal (absent id member)
    · have remains : other ∈ ((q.listen g a).removeRdmaOperation a.msgSeq).2.rdmaMsgs := by
        rw [kept, messages.rdmaMsgs, queue, List.mem_filter, decide_eq_true_eq, messages.msgSeqOf]
        refine ⟨List.mem_cons_of_mem _ inside, fun equal => different ?_⟩
        refine distinct other (List.mem_append_left _ ?_) front frontQueued
          (equal.trans number.symm)
        rw [queue]
        exact List.mem_cons_of_mem _ inside
      cases left : ((q.listen g a).removeRdmaOperation a.msgSeq).2.rdmaMsgs with
      | nil =>
          rw [left] at remains
          contradiction
      | cons next tail =>
          have first : next ∈ ((q.listen g a).removeRdmaOperation a.msgSeq).2.rdmaMsgs := by
            rw [left]
            exact List.mem_cons_self
          rw [kept, messages.rdmaMsgs, List.mem_filter, decide_eq_true_eq, messages.msgSeqOf]
            at first
          exact ⟨next, List.mem_append_left _ first.1, rfl, first.2⟩

theorem nacked_msgSeq (i : Nat) (m : MsgStatus) : (nacked g q a i m).msgSeq = m.msgSeq := by
  unfold nacked
  split_ifs
  all_goals rfl

theorem told_msgSeq (m : MsgStatus) : (told g a m).msgSeq = m.msgSeq := by
  unfold told
  split
  · exact hear_msgSeq m
  · rfl

theorem reactToNack_same (same : a.msgSeq = q.current.msgSeq) :
    (RdmaHw.reactToNack g q a).rdmaMsgs = q.rdmaMsgs ∧
      (RdmaHw.reactToNack g q a).rdmaMsgsUnfinished = q.rdmaMsgsUnfinished ∧
      (RdmaHw.reactToNack g q a).operations = q.operations ∧
      (RdmaHw.reactToNack g q a).current =
        if a.nack && g.nackReaction then q.current.pullBack else q.current := by
  unfold RdmaHw.reactToNack
  split
  · simp [same]
  · exact ⟨rfl, rfl, rfl, rfl⟩

/-- Under the condition on the acknowledgement, the reaction to a NACK is right for every message
but, perhaps, the one at the front, whose object is recovered in vain. -/
theorem nack_leaves (qpMode : g.qpMode = true) (distinct : Distinct q) (cached : FrontCached q)
    {middle : RdmaQueuePair} (completed : Completed g a q middle) (heard : Heard g a q middle) :
    Leaves middle (RdmaHw.reactToNack g middle a) fun id =>
      if (a.nack && g.nackReaction) = true ∧ a.msgSeq ≠ q.current.msgSeq ∧
        q.rdmaMsgs.head? = some id then middle.progressOf id
      else nacked g q a id (middle.progressOf id) := by
  have numbers : ∀ id ∈ middle.queued, (middle.progressOf id).msgSeq = q.msgSeqOf id := by
    intro id member
    rw [heard.progress id member, told_msgSeq, progressOf_msgSeq cached]
  by_cases react : (a.nack && g.nackReaction) = true
  · by_cases same : a.msgSeq = q.current.msgSeq
    · obtain ⟨sending, unfinished, operations, current⟩ :=
        @reactToNack_same g middle a (same.trans completed.number.symm)
      refine ⟨fun id => ?_, fun id member => ?_, fun id => .inl ?_⟩
      · unfold queued
        rw [sending, unfinished]
      · have front := heard.front id member
        rw [progressOf_eq, progressOf_eq, sending, operations, current, if_pos react]
        unfold nacked
        simp only [react, if_true, same, ne_eq, not_true, false_and, and_false, if_false, front]
        split
        · rfl
        · rfl
      · unfold msgSeqOf
        rw [operations]
    · have other : ¬ (a.msgSeq = middle.current.msgSeq) := by
        rw [completed.number]
        exact same
      have found : RdmaHw.reactToNack g middle a = middle.recoverMsg g q.current.msgSeq := by
        unfold RdmaHw.reactToNack
        rw [if_pos react, completed.number]
        simp [qpMode, same]
      have unique : ∀ id ∈ middle.rdmaMsgsUnfinished, ∀ other ∈ middle.rdmaMsgsUnfinished,
          middle.msgSeqOf id = q.current.msgSeq → middle.msgSeqOf other = q.current.msgSeq →
          id = other := by
        intro id member second inside here there
        rw [completed.numbers] at here there
        exact distinct id (completed.queued id (List.mem_append_right _ member)) second
          (completed.queued second (List.mem_append_right _ inside)) (here.trans there.symm)
      have recovered := @recoverMsg_leaves g middle _ unique
      rw [found]
      refine ⟨recovered.queued, fun id member => ?_, recovered.numbers⟩
      rw [recovered.progress id member]
      have front := heard.front id member
      have number := numbers id member
      simp only [react, same, ne_eq, not_false_eq_true, true_and]
      by_cases head : q.rdmaMsgs.head? = some id
      · rw [if_pos (front.mpr head), if_pos head, progressOf_eq, if_pos (front.mpr head)]
      · have apart : ¬ (middle.rdmaMsgs.head? = some id) := fun first => head (front.mp first)
        rw [if_neg apart, if_neg head]
        have record : middle.progressOf id = (middle.operations id).status := by
          rw [progressOf_eq, if_neg apart]
        unfold nacked
        rw [if_pos react, if_neg same, number, completed.numbers, record]
        by_cases here : q.msgSeqOf id = q.current.msgSeq
        · have unfinished := completed.unfinished id (by rw [here]; exact Ne.symm same)
          simp only [here, and_true, unfinished]
        · simp only [here, and_false, if_false]
  · have nothing : RdmaHw.reactToNack g middle a = middle := by
      unfold RdmaHw.reactToNack
      rw [if_neg react]
    rw [nothing]
    refine ⟨fun _ => Iff.rfl, fun id _ => ?_, fun _ => .inl rfl⟩
    have still : ¬ ((a.nack && g.nackReaction) = true ∧ a.msgSeq ≠ q.current.msgSeq ∧
        q.rdmaMsgs.head? = some id) := fun reacts => react reacts.1
    unfold nacked
    rw [if_neg still, if_neg react]

theorem receiveAck_steps {now : Nat} {completion : Completion}
    (success : RdmaHw.receiveAck g now q a = .ok (completion, after)) :
    SameProgress (RdmaHw.reactToNack g (RdmaHw.acknowledge g q a).2 a) after := by
  unfold RdmaHw.receiveAck at success
  obtain ⟨timed, reset, success⟩ := bind_ok.mp success
  obtain ⟨rfl, rfl⟩ := Prod.mk.inj (Except.ok.inj success)
  exact resetTimer_progress reset

theorem reaches_other (other : a.msgSeq ≠ q.current.msgSeq) : Reaches g q a :=
  fun _ same => absurd same other

/-- `ReceiveAck` adds no message and changes no number. -/
theorem receiveAck_frame (qpMode : g.qpMode = true) (distinct : Distinct q)
    (cached : FrontCached q) {now : Nat} {completion : Completion}
    (success : RdmaHw.receiveAck g now q a = .ok (completion, after)) :
    (∀ id ∈ after.queued, id ∈ q.queued) ∧ ∀ id ∈ after.queued, after.msgSeqOf id = q.msgSeqOf id := by
  have same := receiveAck_steps success
  have completed := @acknowledge_completed g q a qpMode
  rw [same.queued]
  simp only [same.msgSeqOf]
  by_cases number : a.msgSeq = q.current.msgSeq
  · obtain ⟨sending, unfinished, operations, -⟩ := @reactToNack_same g
      (RdmaHw.acknowledge g q a).2 a (number.trans completed.number.symm)
    refine ⟨fun id member => completed.queued id ?_, fun id _ => ?_⟩
    · unfold queued at member ⊢
      rw [sending, unfinished] at member
      exact member
    · rw [← completed.numbers]
      unfold msgSeqOf
      rw [operations]
  · have heard := heard_of_reaches qpMode distinct cached (@reaches_other g q a number)
    have leaves := nack_leaves qpMode distinct cached completed heard
    refine ⟨fun id member => completed.queued id ((leaves.queued id).mp member), fun id member => ?_⟩
    rcases leaves.numbers id with kept | ⟨head, written⟩
    · rw [kept, completed.numbers]
    · have first := (heard.front id ((leaves.queued id).mp member)).mp head
      rw [written, completed.number, cached id first]

/-- `ReceiveAck` makes the right progress exactly under the condition. -/
theorem receiveAck_stored (qpMode : g.qpMode = true) (distinct : Distinct q)
    (cached : FrontCached q) {progress : Nat → MsgStatus}
    (stored : ∀ id ∈ q.queued, q.progressOf id = progress id) {now : Nat}
    {completion : Completion}
    (success : RdmaHw.receiveAck g now q a = .ok (completion, after)) :
    Reaches g q a ∧ NackHarmless g q a ↔
      ∀ id ∈ after.queued, after.progressOf id = nacked g q a id (told g a (progress id)) := by
  have same := receiveAck_steps success
  have completed := @acknowledge_completed g q a qpMode
  rw [same.queued]
  simp only [same.progressOf]
  by_cases reaches : Reaches g q a
  · have heard := heard_of_reaches qpMode distinct cached reaches
    have leaves := nack_leaves qpMode distinct cached completed heard
    simp only [reaches, true_and]
    constructor
    · intro harmless id member
      have inside := (leaves.queued id).mp member
      rw [leaves.progress id inside, heard.progress id inside,
        stored id (completed.queued id inside)]
      split
      · rename_i vain
        obtain ⟨react, other, head⟩ := vain
        have current : progress id = q.current := by
          rw [← stored id (completed.queued id inside), progressOf_eq, if_pos head]
        have number : q.current.msgSeq ≠ a.msgSeq := Ne.symm other
        unfold told
        rw [current, if_neg number]
        unfold nacked
        rw [if_pos react, if_neg other]
        split
        · rename_i found
          exact (harmless react other id head found.1).symm
        · rfl
      · rfl
    · intro right react other front head unfinished
      rw [Option.mem_def] at head
      have frontQueued : front ∈ q.queued := List.mem_append_right _ unfinished
      have number : q.msgSeqOf front = q.current.msgSeq := (cached front head).symm
      have inside : front ∈ (RdmaHw.acknowledge g q a).2.queued :=
        List.mem_append_right _ ((completed.unfinished front (by
          rw [number]
          exact Ne.symm other)).mpr unfinished)
      have current : progress front = q.current := by
        rw [← stored front frontQueued, progressOf_eq, if_pos head]
      have value := right front ((leaves.queued front).mpr inside)
      rw [leaves.progress front inside, if_pos ⟨react, other, head⟩, heard.progress front inside,
        stored front frontQueued, current] at value
      have deaf : told g a q.current = q.current := by
        unfold told
        rw [if_neg (Ne.symm other)]
      rw [deaf] at value
      unfold nacked at value
      rw [if_pos react, if_neg other, if_pos ⟨unfinished, rfl⟩] at value
      exact value.symm
  · simp only [reaches, false_and, false_iff]
    intro right
    obtain ⟨number, lost⟩ := not_heard qpMode distinct cached reaches
    obtain ⟨sending, unfinished, operations, current⟩ := @reactToNack_same g
      (RdmaHw.acknowledge g q a).2 a (number.trans completed.number.symm)
    have queued : (RdmaHw.reactToNack g (RdmaHw.acknowledge g q a).2 a).queued =
        (RdmaHw.acknowledge g q a).2.queued := by
      unfold RdmaQueuePair.queued
      rw [sending, unfinished]
    rcases lost with ⟨id, member, idle, empty, different⟩ | ⟨id, member, head, other⟩
    · have value := right id (by rw [queued]; exact member)
      rw [progressOf_eq, sending, empty, operations] at value
      rw [progressOf_eq, empty, stored id (completed.queued id member)] at different
      have still : nacked g q a id (told g a (progress id)) = told g a (progress id) := by
        unfold nacked
        simp only [number, if_true, idle, List.head?_nil, reduceCtorEq, if_false, ite_self]
      rw [still] at value
      exact different value
    · have value := right id (by
        rw [queued]
        exact List.mem_append_left _ (List.mem_of_head? head))
      have numbers := congrArg MsgStatus.msgSeq value
      rw [nacked_msgSeq, told_msgSeq, ← stored id member, progressOf_msgSeq cached, progressOf_eq,
        sending, if_pos head, current] at numbers
      refine other (numbers.symm.trans (Eq.trans ?_ (completed.number.trans number.symm)))
      split
      · rfl
      · rfl

end Acknowledge

end Floodgate
