import Floodgate.MessageAcks

/-! What a NACK recovers in `qp_mode`: the message it is about only if that is the one on the queue
pair. -/

namespace Floodgate

open Outcome RdmaQueuePair MessageQueues

/-- A message has been recovered from the sequence number `seq`, and no other. -/
structure Recovered (g : RdmaSettings) (before after : RdmaQueuePair) (id seq : Nat) : Prop where
  una : seq ≤ (after.progressOf id).sndUna
  nxt : (after.progressOf id).sndNxt = (after.progressOf id).sndUna
  sending : 0 < (after.progressOf id).getBytesLeft g → id ∈ after.rdmaMsgs
  sorted : (after.rdmaMsgs.map after.msgSeqOf).Pairwise (· < ·)
  others : ∀ other ∈ before.queued, other ≠ id →
    (after.progressOf other).sndNxt = (before.progressOf other).sndNxt ∧
      (other ∈ after.rdmaMsgs ↔ other ∈ before.rdmaMsgs) ∧
      (other ∈ after.rdmaMsgsUnfinished ↔ other ∈ before.rdmaMsgsUnfinished)

/-- `snd_una` of a message once it has heard of an acknowledgement. -/
def heardUna (g : RdmaSettings) (a : AckPacket) (m : MsgStatus) : Nat :=
  if g.ackInterval = 0 then m.sndUna else max m.sndUna (ackSeq g a)

/-- The condition: the message is at the front of the sending queue, or there is nothing to recover,
with a number on the queue pair that is not that of the message or of any in the unfinished queue. -/
def Recoverable (g : RdmaSettings) (q : RdmaQueuePair) (a : AckPacket) (id : Nat) : Prop :=
  a.seq ≤ heardUna g a (q.progressOf id) ∧
    (q.rdmaMsgs.head? = some id ∨
      a.msgSeq ≠ q.current.msgSeq ∧
      (∀ other ∈ q.rdmaMsgsUnfinished, q.msgSeqOf other ≠ q.current.msgSeq) ∧
      (q.progressOf id).sndNxt = heardUna g a (q.progressOf id) ∧
      (id ∈ q.rdmaMsgs ∨ (q.progressOf id).size ≤ heardUna g a (q.progressOf id)))

section Nack

variable {g : RdmaSettings} {q after : RdmaQueuePair} {a : AckPacket} {id : Nat}

theorem Recovered.same {before middle : RdmaQueuePair} {seq : Nat} (same : SameProgress middle after) :
    Recovered g before after id seq ↔ Recovered g before middle id seq := by
  have numbers : after.msgSeqOf = middle.msgSeqOf := funext same.msgSeqOf
  constructor
  · intro recovered
    refine ⟨?_, ?_, ?_, ?_, ?_⟩
    · rw [← same.progressOf]
      exact recovered.una
    · rw [← same.progressOf]
      exact recovered.nxt
    · rw [← same.progressOf, ← same.rdmaMsgs]
      exact recovered.sending
    · rw [← same.rdmaMsgs, ← numbers]
      exact recovered.sorted
    · intro other member apart
      rw [← same.progressOf, ← same.rdmaMsgs, ← same.rdmaMsgsUnfinished]
      exact recovered.others other member apart
  · intro recovered
    refine ⟨?_, ?_, ?_, ?_, ?_⟩
    · rw [same.progressOf]
      exact recovered.una
    · rw [same.progressOf]
      exact recovered.nxt
    · rw [same.progressOf, same.rdmaMsgs]
      exact recovered.sending
    · rw [same.rdmaMsgs, numbers]
      exact recovered.sorted
    · intro other member apart
      rw [same.progressOf, same.rdmaMsgs, same.rdmaMsgsUnfinished]
      exact recovered.others other member apart

end Nack

end Floodgate
