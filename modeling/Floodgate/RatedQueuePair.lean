import Floodgate.MessageAcks

/-! Queue pairs with the rate state that `LoadQPStatus` clears under `reset_qp_rate`: the base round
trip, the pacing of the next packet and the record of DCQCN. -/

namespace Floodgate

open Outcome

/-- The record `mlx`, where events are known by their number. `m_alpha` is a `double` that decides
nothing but rates. -/
structure MlxRecord where
  targetRate : Nat
  alphaCnpArrived : Bool
  firstCnp : Bool
  decreaseCnpArrived : Bool
  rpTimeStage : Nat
  eventUpdateAlpha : Option Nat
  eventDecreaseRate : Option Nat
  rpTimer : Option Nat

namespace MlxRecord

def init : MlxRecord := ⟨0, false, true, false, 0, none, none, none⟩

/-- What `LoadQPStatus` does to it. The events stay. -/
def reload (m : MlxRecord) : MlxRecord :=
  { m with
    alphaCnpArrived := false
    firstCnp := true
    decreaseCnpArrived := false
    rpTimeStage := 0 }

end MlxRecord

structure RatedQueuePair where
  qp : RdmaQueuePair
  baseRtt : Nat
  nextAvail : Int
  lastPktSize : Nat
  mlx : MlxRecord

namespace RatedQueuePair

variable (g : RdmaSettings) (q : RatedQueuePair) (now : Nat)

/-- What an operation on the messages leaves, given whether it calls `LoadQPStatus`. The window and
the rates are part of `qp`. -/
def reloadWith (qp : RdmaQueuePair) (called : Bool) : RatedQueuePair :=
  if called && !qp.rdmaMsgs.isEmpty && g.resetQpRate then
    { q with qp := qp, baseRtt := 0, nextAvail := 0, mlx := q.mlx.reload }
  else { q with qp := qp }

def addRdmaOperation (id : Nat) (operation : RdmaOperation) : RatedQueuePair :=
  q.reloadWith g (q.qp.addRdmaOperation g id operation) q.qp.rdmaMsgs.isEmpty

def moveRdmaOperationToUnfinished : Except RdmaAssertion RatedQueuePair := do
  let moved ← q.qp.moveRdmaOperationToUnfinished g
  .ok (q.reloadWith g moved true)

def recoverMsg (msgSeq : Nat) : RatedQueuePair :=
  q.reloadWith g (q.qp.recoverMsg g msgSeq)
    (q.qp.rdmaMsgsUnfinished.any fun id => q.qp.msgSeqOf id = msgSeq)

def recoverMSG : RatedQueuePair :=
  q.reloadWith g (q.qp.recoverMSG g now) (q.qp.rdmaMsgsUnfinished.any (q.qp.overdue g now))

/-- `ResetQP` with `m_baseRtt_initial`. The other initial values are those of the settings. -/
def resetQP (baseRtt : Nat) : RatedQueuePair :=
  { q with
    qp := { q.qp with pacing := g.initial }
    baseRtt := baseRtt
    mlx := { q.mlx with targetRate := g.initial.rate } }

def create (baseRtt id : Nat) (operation : RdmaOperation) : RatedQueuePair :=
  let set : RatedQueuePair := ⟨RdmaQueuePair.empty g, baseRtt, 0, 0, MlxRecord.init⟩
  let added := set.addRdmaOperation g id operation
  { added with
    qp := { added.qp with
      pacing := { added.qp.pacing with rate := g.initial.rate, maxRate := g.initial.maxRate } }
    mlx := { added.mlx with targetRate := g.initial.rate } }

def getNxtPacket (baseRtt : Nat) : Except RdmaAssertion (DataPacket × RatedQueuePair) := do
  let chosen ← RdmaHw.chooseSeq g q.qp.current
  let p := RdmaHw.packetAt g chosen.2 chosen.1
  let timed ← RdmaHw.resetTimer g now { q.qp with current := RdmaHw.advance chosen.2 p }
    q.qp.current.msgSeq
  if g.qpMode && decide (timed.getBytesLeft g = 0) then
    let moved ← { q with qp := timed }.moveRdmaOperationToUnfinished g
    .ok (p, if g.resetQpRate then moved.resetQP g baseRtt else moved)
  else .ok (p, { q with qp := timed })

def reactToNack (a : AckPacket) : RatedQueuePair :=
  if a.nack && g.nackReaction then
    if !g.qpMode || decide (a.msgSeq = q.qp.current.msgSeq) then
      { q with qp := { q.qp with current := q.qp.current.pullBack } }
    else q.recoverMsg g q.qp.current.msgSeq
  else q

def receiveAck (a : AckPacket) : Except RdmaAssertion (Completion × RatedQueuePair) := do
  let acked := RdmaHw.acknowledge g q.qp a
  let reacted := { q with qp := acked.2 }.reactToNack g a
  let timed ← RdmaHw.resetTimer g now reacted.qp a.msgSeq
  .ok (acked.1, { reacted with qp := timed })

def setRate (rate : Nat) : RatedQueuePair :=
  { q with qp := { q.qp with pacing := { q.qp.pacing with rate := rate } } }

/-- `PktSent` and `UpdateNextAvail`. `txTime` is `CalculateTxTime`. -/
def pktSent (txTime : Nat → Nat → Nat) (rateBound : Bool) (gap size : Nat) : RatedQueuePair :=
  let rate := if rateBound then q.qp.pacing.rate else q.qp.pacing.maxRate
  { q with
    lastPktSize := size
    nextAvail := now + gap + txTime rate size }

def changeRate (txTime : Nat → Nat → Nat) (rate : Nat) : RatedQueuePair :=
  { q.setRate rate with
    nextAvail := q.nextAvail + txTime rate q.lastPktSize - txTime q.qp.pacing.rate q.lastPktSize }

/-- `ReceiveCnp`, which gives a queue pair without a rate that of its device. -/
def receiveCnp (dataRate : Nat) : RatedQueuePair :=
  if q.qp.pacing.rate = 0 then
    { q.setRate dataRate with mlx := { q.mlx with targetRate := dataRate } }
  else q

end RatedQueuePair

section Loads

variable {g : RdmaSettings} {now : Nat}

def reloadedPacing (g : RdmaSettings) (pacing : Pacing) (loaded : Bool) : Pacing :=
  if loaded && g.resetQpRate then ⟨0, false, 0, 0⟩ else pacing

theorem loadQPStatus_pacing (q : RdmaQueuePair) :
    (q.loadQPStatus g).pacing = reloadedPacing g q.pacing (!q.rdmaMsgs.isEmpty) := by
  unfold RdmaQueuePair.loadQPStatus reloadedPacing
  cases q.rdmaMsgs with
  | nil => rfl
  | cons front rest => simp

theorem loadMsgStatus_pacing (q : RdmaQueuePair) : q.loadMsgStatus.pacing = q.pacing := by
  unfold RdmaQueuePair.loadMsgStatus RdmaQueuePair.setOperation
  split
  · rfl
  · rfl

/-- `AddRdmaOperation` loads a message into a queue pair that sends none. -/
theorem addRdmaOperation_pacing (q : RdmaQueuePair) (id : Nat) (operation : RdmaOperation) :
    (q.addRdmaOperation g id operation).pacing = reloadedPacing g q.pacing
      (q.rdmaMsgs.isEmpty && !(q.addRdmaOperation g id operation).rdmaMsgs.isEmpty) := by
  rw [(addRdmaOperation_queues id operation).1]
  unfold RdmaQueuePair.addRdmaOperation
  cases queue : q.rdmaMsgs with
  | nil =>
      simp only [List.nil_append, List.length_singleton, if_true, loadQPStatus_pacing]
      rfl
  | cons front rest => simp [reloadedPacing, RdmaQueuePair.setOperation]

theorem moveRdmaOperationToUnfinished_pacing {q moved : RdmaQueuePair}
    (success : q.moveRdmaOperationToUnfinished g = .ok moved) :
    moved.pacing = reloadedPacing g q.pacing (true && !moved.rdmaMsgs.isEmpty) := by
  unfold RdmaQueuePair.moveRdmaOperationToUnfinished at success
  cases queue : q.rdmaMsgs with
  | nil => simp [queue] at success
  | cons front rest =>
      simp only [queue, Except.ok.injEq] at success
      rw [← success, loadQPStatus_pacing, loadMsgStatus_pacing,
        (sameMessages_loadQPStatus _).rdmaMsgs, Bool.true_and]

theorem recoverMsg_absent {q : RdmaQueuePair} {msgSeq : Nat}
    (absent : (q.rdmaMsgsUnfinished.any fun id => q.msgSeqOf id = msgSeq) = false) :
    (q.recoverMsg g msgSeq).pacing = q.pacing := by
  have none : q.rdmaMsgsUnfinished.filter (fun id => q.msgSeqOf id = msgSeq) = [] :=
    List.filter_eq_nil_iff.mpr (List.any_eq_false.mp absent)
  unfold RdmaQueuePair.recoverMsg
  simp only [none, List.getLast?_nil]
  rfl

theorem recoverMsg_present {q : RdmaQueuePair} {msgSeq : Nat}
    (present : (q.rdmaMsgsUnfinished.any fun id => q.msgSeqOf id = msgSeq) = true) :
    ∃ stored : RdmaQueuePair,
      q.recoverMsg g msgSeq = stored.loadQPStatus g ∧ stored.pacing = q.pacing := by
  unfold RdmaQueuePair.recoverMsg
  simp only
  split
  · rename_i none
    obtain ⟨id, member, same⟩ := List.any_eq_true.mp present
    exact absurd same (List.filter_eq_nil_iff.mp (List.getLast?_eq_none_iff.mp none) id member)
  · exact ⟨_, rfl, loadMsgStatus_pacing _⟩

/-- `RecoverMsg` calls `LoadQPStatus` exactly when it finds the message. -/
theorem recoverMsg_pacing (q : RdmaQueuePair) (msgSeq : Nat) :
    (q.recoverMsg g msgSeq).pacing = reloadedPacing g q.pacing
      (q.rdmaMsgsUnfinished.any (fun id => q.msgSeqOf id = msgSeq) &&
        !(q.recoverMsg g msgSeq).rdmaMsgs.isEmpty) := by
  cases found : q.rdmaMsgsUnfinished.any fun id => q.msgSeqOf id = msgSeq with
  | false =>
      rw [recoverMsg_absent found]
      rfl
  | true =>
      obtain ⟨stored, loaded, kept⟩ := @recoverMsg_present g q msgSeq found
      rw [loaded, loadQPStatus_pacing, loadQPStatus_rdmaMsgs, kept, Bool.true_and]

theorem recoverMSG_absent {q : RdmaQueuePair}
    (absent : q.rdmaMsgsUnfinished.any (q.overdue g now) = false) :
    (q.recoverMSG g now).pacing = q.pacing := by
  have none : q.rdmaMsgsUnfinished.filter (q.overdue g now) = [] :=
    List.filter_eq_nil_iff.mpr (List.any_eq_false.mp absent)
  unfold RdmaQueuePair.recoverMSG
  simp only [none, List.mergeSort_nil, if_true]
  rfl

theorem recoverMSG_present {q : RdmaQueuePair}
    (present : q.rdmaMsgsUnfinished.any (q.overdue g now) = true) :
    ∃ stored : RdmaQueuePair,
      q.recoverMSG g now = stored.loadQPStatus g ∧ stored.pacing = q.pacing := by
  unfold RdmaQueuePair.recoverMSG
  simp only
  split
  · rename_i none
    obtain ⟨id, member, late⟩ := List.any_eq_true.mp present
    have empty := (List.mergeSort_perm _ _).symm.trans (List.Perm.of_eq none)
    exact absurd late (List.filter_eq_nil_iff.mp empty.eq_nil id member)
  · exact ⟨_, rfl, loadMsgStatus_pacing _⟩

/-- `RecoverMSG` calls `LoadQPStatus` exactly when a message of the unfinished queue is overdue. -/
theorem recoverMSG_pacing (q : RdmaQueuePair) :
    (q.recoverMSG g now).pacing = reloadedPacing g q.pacing
      (q.rdmaMsgsUnfinished.any (q.overdue g now) && !(q.recoverMSG g now).rdmaMsgs.isEmpty) := by
  cases found : q.rdmaMsgsUnfinished.any (q.overdue g now) with
  | false =>
      rw [recoverMSG_absent found]
      rfl
  | true =>
      obtain ⟨stored, loaded, kept⟩ := @recoverMSG_present g now q found
      rw [loaded, loadQPStatus_pacing, loadQPStatus_rdmaMsgs, kept, Bool.true_and]

theorem resetTimer_pacing {q after : RdmaQueuePair} {msgSeq : Nat}
    (success : RdmaHw.resetTimer g now q msgSeq = .ok after) : after.pacing = q.pacing := by
  unfold RdmaHw.resetTimer at success
  split at success
  · rw [← Except.ok.inj success]
  · split at success
    · unfold RdmaQueuePair.resetMSGRTOTime at success
      obtain ⟨inflight, _, success⟩ := bind_ok.mp success
      split at success
      all_goals rw [← Except.ok.inj success]; rfl
    · split at success
      · obtain ⟨onTheFly, _, success⟩ := bind_ok.mp success
        split at success
        all_goals rw [← Except.ok.inj success]; try rfl
      · rw [← Except.ok.inj success]

theorem acknowledge_pacing (q : RdmaQueuePair) (a : AckPacket) :
    (RdmaHw.acknowledge g q a).2.pacing = q.pacing := by
  have removed : ∀ (q : RdmaQueuePair) msgSeq, (q.removeRdmaOperation msgSeq).2.pacing = q.pacing := by
    intro q msgSeq
    unfold RdmaQueuePair.removeRdmaOperation
    simp only
    split_ifs
    all_goals rfl
  unfold RdmaHw.acknowledge
  extract_lets seq
  split
  · rfl
  · split
    · split
      · rfl
      · rfl
    · have heard : (if a.msgSeq = q.current.msgSeq then
          { q with current := q.current.acknowledge g seq a.last }
          else q.acknowledgeMsg g seq a.msgSeq a.last).pacing = q.pacing := by
        split
        · rfl
        · rfl
      rw [← heard]
      split
      · exact removed _ _
      · rfl

end Loads

namespace RatedQueuePair

section Handlers

variable {g : RdmaSettings} {q next : RatedQueuePair} {now : Nat} {a : AckPacket}

@[simp] theorem reloadWith_qp (qp : RdmaQueuePair) (called : Bool) :
    (q.reloadWith g qp called).qp = qp := by
  unfold reloadWith
  split
  · rfl
  · rfl

theorem addRdmaOperation_qp (id : Nat) (operation : RdmaOperation) :
    (q.addRdmaOperation g id operation).qp = q.qp.addRdmaOperation g id operation :=
  reloadWith_qp _ _

theorem create_qp (baseRtt id : Nat) (operation : RdmaOperation) :
    (create g baseRtt id operation).qp = RdmaHw.newQueuePair g id operation := by
  unfold create RdmaHw.newQueuePair
  simp only [addRdmaOperation_qp]

theorem reactToNack_qp : (q.reactToNack g a).qp = RdmaHw.reactToNack g q.qp a := by
  unfold reactToNack RdmaHw.reactToNack
  split
  · split
    · rfl
    · exact reloadWith_qp _ _
  · rfl

/-- What sending a packet leaves: the queue pair with the packet sent, or that with the message moved
to the unfinished queue. -/
theorem getNxtPacket_cases {baseRtt : Nat} {p : DataPacket}
    (success : q.getNxtPacket g now baseRtt = .ok (p, next)) :
    ∃ timed : RdmaQueuePair, timed.pacing = q.qp.pacing ∧ timed.rdmaMsgs = q.qp.rdmaMsgs ∧
      timed.current = q.qp.current.sendOne g ∧
      ((g.qpMode && decide ((q.qp.current.sendOne g).getBytesLeft g = 0)) = false ∧
          next = { q with qp := timed } ∧ RdmaHw.getNxtPacket g now q.qp = .ok (p, timed) ∨
        (g.qpMode && decide ((q.qp.current.sendOne g).getBytesLeft g = 0)) = true ∧
          ∃ moved, timed.moveRdmaOperationToUnfinished g = .ok moved ∧
            next = (if g.resetQpRate then
              ({ q with qp := timed }.reloadWith g moved true).resetQP g baseRtt
            else { q with qp := timed }.reloadWith g moved true) ∧
            RdmaHw.getNxtPacket g now q.qp = .ok (p, next.qp)) := by
  unfold getNxtPacket at success
  obtain ⟨⟨seq, m⟩, chosen, success⟩ := bind_ok.mp success
  obtain ⟨timed, reset, success⟩ := bind_ok.mp success
  have same := resetTimer_progress reset
  have current : timed.current = q.qp.current.sendOne g := by
    rw [same.current]
    unfold MsgStatus.sendOne
    rw [chosen]
  have pacing := resetTimer_pacing reset
  refine ⟨timed, pacing, same.rdmaMsgs, current, ?_⟩
  have left : timed.getBytesLeft g = (q.qp.current.sendOne g).getBytesLeft g := by
    unfold RdmaQueuePair.getBytesLeft
    rw [current]
  have base : RdmaHw.getNxtPacket g now q.qp =
      if g.qpMode && decide ((q.qp.current.sendOne g).getBytesLeft g = 0) then do
        let moved ← timed.moveRdmaOperationToUnfinished g
        .ok (RdmaHw.packetAt g m seq, if g.resetQpRate then { moved with pacing := g.initial } else moved)
      else .ok (RdmaHw.packetAt g m seq, timed) := by
    unfold RdmaHw.getNxtPacket
    simp only [chosen, ok_bind, reset, left]
  rw [left] at success
  rw [base]
  cases moves : g.qpMode && decide ((q.qp.current.sendOne g).getBytesLeft g = 0) with
  | false =>
      simp only [moves, Bool.false_eq_true, if_false, Except.ok.injEq, Prod.mk.injEq] at success
      obtain ⟨rfl, rfl⟩ := success
      exact .inl ⟨rfl, rfl, rfl⟩
  | true =>
      simp only [moves, if_true] at success
      obtain ⟨reloaded, move, success⟩ := bind_ok.mp success
      obtain ⟨moved, change, reload⟩ := bind_ok.mp move
      obtain ⟨rfl, rfl⟩ := Prod.mk.inj (Except.ok.inj success)
      refine .inr ⟨rfl, moved, change, ?_, ?_⟩
      · rw [← Except.ok.inj reload]
      · simp only [if_true, change, ok_bind, ← Except.ok.inj reload]
        split
        · simp [resetQP]
        · simp

theorem getNxtPacket_qp {baseRtt : Nat} {p : DataPacket}
    (success : q.getNxtPacket g now baseRtt = .ok (p, next)) :
    RdmaHw.getNxtPacket g now q.qp = .ok (p, next.qp) := by
  obtain ⟨timed, -, -, -, ⟨-, rfl, sent⟩ | ⟨-, moved, -, -, sent⟩⟩ := getNxtPacket_cases success
  · exact sent
  · exact sent

theorem receiveAck_cases {completion : Completion}
    (success : q.receiveAck g now a = .ok (completion, next)) :
    ∃ timed : RdmaQueuePair,
      completion = (RdmaHw.acknowledge g q.qp a).1 ∧
      next = { { q with qp := (RdmaHw.acknowledge g q.qp a).2 }.reactToNack g a with qp := timed } ∧
      timed.pacing = (RdmaHw.reactToNack g (RdmaHw.acknowledge g q.qp a).2 a).pacing ∧
      RdmaHw.receiveAck g now q.qp a = .ok (completion, timed) := by
  unfold receiveAck at success
  obtain ⟨timed, reset, success⟩ := bind_ok.mp success
  obtain ⟨rfl, rfl⟩ := Prod.mk.inj (Except.ok.inj success)
  have timer := reset
  rw [reactToNack_qp] at timer
  refine ⟨timed, rfl, rfl, resetTimer_pacing timer, ?_⟩
  unfold RdmaHw.receiveAck
  simp only [timer, ok_bind]

theorem receiveAck_qp {completion : Completion}
    (success : q.receiveAck g now a = .ok (completion, next)) :
    RdmaHw.receiveAck g now q.qp a = .ok (completion, next.qp) := by
  obtain ⟨timed, -, rfl, -, received⟩ := receiveAck_cases success
  exact received

end Handlers

end RatedQueuePair

end Floodgate
