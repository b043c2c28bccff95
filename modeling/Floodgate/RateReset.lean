import Floodgate.RatedQueuePair
import Floodgate.Library.LabelledRun

/-! The window, the base round trip and the rates of all queue pairs of a host in `qp_mode`, whatever
loads a message. -/

namespace Floodgate

open Outcome LabelledRun RatedQueuePair

/-- What a host is configured with: the device of each queue pair, and the window and the base round
trip that `AddQueuePair` is given for its messages. `txTime` is `CalculateTxTime`. -/
structure RateConfig where
  settings : RdmaSettings
  varWin : Bool
  rateBound : Bool
  txTime : Nat → Nat → Nat
  dataRate : Nat → Nat
  win : Nat → Nat
  baseRtt : Nat → Nat

/-- A host with the initial values that the last `AddQueuePair` has left. -/
structure RateHost where
  now : Nat
  winInitial : Nat
  baseRttInitial : Nat
  qpMap : Nat → Option RatedQueuePair

inductive RateEvent where
  | add (qpid id : Nat) (request : MessageRequest)
  | send (qpid : Nat) (p : DataPacket)
  | sent (qpid gap size : Nat)
  | ack (qpid : Nat) (a : AckPacket)
  | cnp (qpid : Nat)
  | changeRate (qpid rate : Nat)
  | setRate (qpid rate : Nat)
  | timeout (qpid : Nat)
  | wait (later : Nat)

namespace RateHost

variable (c : RateConfig) (h : RateHost)

def create : RateHost := ⟨0, 0, 0, fun _ => none⟩

def settings (qpid : Nat) : RdmaSettings :=
  { c.settings with initial := ⟨h.winInitial, c.varWin, c.dataRate qpid, c.dataRate qpid⟩ }

def setQp (qpid : Nat) (q : RatedQueuePair) : RateHost :=
  { h with qpMap := fun i => if i = qpid then some q else h.qpMap i }

/-- The initial values as `AddQueuePair` sets them. -/
def asked (qpid : Nat) : RateHost :=
  { h with winInitial := c.win qpid, baseRttInitial := c.baseRtt qpid }

def addQueuePair (qpid id : Nat) (request : MessageRequest) : RateHost :=
  let asked := h.asked c qpid
  match h.qpMap qpid with
  | none => asked.setQp qpid
      (RatedQueuePair.create (asked.settings c qpid) (c.baseRtt qpid) id (request.operation h.now))
  | some q => asked.setQp qpid
      (q.addRdmaOperation (asked.settings c qpid) id (request.operation h.now))

inductive Step : RateEvent → RateHost → Prop
  | add (qpid id : Nat) (request : MessageRequest) :
      Step (.add qpid id request) (h.addQueuePair c qpid id request)
  | send {qpid : Nat} {p : DataPacket} {q next : RatedQueuePair} (found : h.qpMap qpid = some q)
      (left : 0 < q.qp.getBytesLeft (h.settings c qpid))
      (room : q.qp.isWinBound (h.settings c qpid) = .ok false)
      (packet : q.getNxtPacket (h.settings c qpid) h.now h.baseRttInitial = .ok (p, next)) :
      Step (.send qpid p) (h.setQp qpid next)
  | sent {qpid : Nat} {q : RatedQueuePair} (gap size : Nat) (found : h.qpMap qpid = some q) :
      Step (.sent qpid gap size)
        (h.setQp qpid (q.pktSent h.now c.txTime c.rateBound gap size))
  | ack {qpid : Nat} {a : AckPacket} {q next : RatedQueuePair} {completion : Completion}
      (found : h.qpMap qpid = some q)
      (received : q.receiveAck (h.settings c qpid) h.now a = .ok (completion, next)) :
      Step (.ack qpid a) (h.setQp qpid next)
  | cnp {qpid : Nat} {q : RatedQueuePair} (found : h.qpMap qpid = some q) :
      Step (.cnp qpid) (h.setQp qpid (q.receiveCnp (c.dataRate qpid)))
  | changeRate {qpid : Nat} {q : RatedQueuePair} (rate : Nat) (found : h.qpMap qpid = some q) :
      Step (.changeRate qpid rate) (h.setQp qpid (q.changeRate c.txTime rate))
  | setRate {qpid : Nat} {q : RatedQueuePair} (rate : Nat) (found : h.qpMap qpid = some q) :
      Step (.setRate qpid rate) (h.setQp qpid (q.setRate rate))
  | timeout {qpid : Nat} {q : RatedQueuePair} (found : h.qpMap qpid = some q)
      (due : q.qp.eventTimeoutRetransmission = some h.now) :
      Step (.timeout qpid) (h.setQp qpid (q.recoverMSG (h.settings c qpid) h.now))
  | wait {later : Nat} (forward : h.now < later) :
      Step (.wait later) { h with now := later }

end RateHost

/-- A queue pair has the values configured for it, rates that can divide and a positive rate. -/
structure Configured (c : RateConfig) (qpid : Nat) (q : RatedQueuePair) : Prop where
  win : q.qp.pacing.win = c.win qpid
  varWin : q.qp.pacing.varWin = c.varWin
  maxRate : q.qp.pacing.maxRate = c.dataRate qpid
  divides : 0 < q.qp.pacing.maxRate
  rate : 0 < q.qp.pacing.rate
  baseRtt : q.baseRtt = c.baseRtt qpid

def RatesConfigured (c : RateConfig) (h : RateHost) : Prop :=
  ∀ qpid q, h.qpMap qpid = some q → Configured c qpid q

/-- The condition on an event. Under `reset_qp_rate` a new queue pair is to have nothing configured, a
queue pair gets no message while it sends none, the last message added to the host was for the queue
pair that ends a message, and neither a NACK nor a timeout brings a message back. -/
def KeepsRates (c : RateConfig) (h : RateHost) : RateEvent → Prop
  | .add qpid _ _ =>
      match h.qpMap qpid with
      | none => 0 < c.dataRate qpid ∧
          (c.settings.resetQpRate = true →
            c.win qpid = 0 ∧ c.baseRtt qpid = 0 ∧ c.varWin = false)
      | some q => c.settings.resetQpRate = true → q.qp.rdmaMsgs ≠ []
  | .send qpid _ => ∀ q, h.qpMap qpid = some q → c.settings.resetQpRate = true →
      (q.qp.current.sendOne (h.settings c qpid)).getBytesLeft (h.settings c qpid) = 0 →
      h.winInitial = c.win qpid ∧ h.baseRttInitial = c.baseRtt qpid
  | .ack qpid a => ∀ q, h.qpMap qpid = some q → c.settings.resetQpRate = true →
      a.nack = true → c.settings.nackReaction = true → a.msgSeq ≠ q.qp.current.msgSeq →
      ∀ id ∈ q.qp.rdmaMsgsUnfinished, q.qp.msgSeqOf id ≠ q.qp.current.msgSeq
  | .changeRate _ rate => 0 < rate
  | .setRate _ rate => 0 < rate
  | .timeout qpid => ∀ q, h.qpMap qpid = some q → c.settings.resetQpRate = true →
      q.qp.rdmaMsgs ≠ [] →
      ∀ id ∈ q.qp.rdmaMsgsUnfinished, q.qp.overdue (h.settings c qpid) h.now id = false
  | _ => True

section Rates

variable {c : RateConfig} {h : RateHost} {qpid : Nat} {q next : RatedQueuePair}

theorem setQp_configured (all : RatesConfigured c h) {initial : RateHost}
    (others : initial.qpMap = h.qpMap) :
    RatesConfigured c (initial.setQp qpid q) ↔ Configured c qpid q := by
  constructor
  · intro configured
    exact configured qpid q (by simp [RateHost.setQp])
  · intro configured other found lookup
    simp only [RateHost.setQp, others] at lookup
    split at lookup
    · rename_i same
      rw [same, ← Option.some.inj lookup]
      exact configured
    · exact all other found lookup

/-- Only a load under `reset_qp_rate` spoils a configured queue pair. -/
theorem reloadWith_configured {g : RdmaSettings} {qp : RdmaQueuePair} {called : Bool}
    (configured : Configured c qpid q)
    (pacing : qp.pacing = reloadedPacing g q.qp.pacing (called && !qp.rdmaMsgs.isEmpty)) :
    Configured c qpid (q.reloadWith g qp called) ↔
      (g.resetQpRate = true → called = true → qp.rdmaMsgs = []) := by
  unfold reloadedPacing at pacing
  unfold RatedQueuePair.reloadWith
  by_cases load : (called && !qp.rdmaMsgs.isEmpty && g.resetQpRate) = true
  · rw [if_pos load] at pacing ⊢
    simp only [Bool.and_eq_true, Bool.not_eq_true', List.isEmpty_eq_false_iff] at load
    constructor
    · intro spoiled
      have rate := spoiled.rate
      simp only [pacing] at rate
      exact absurd rate (Nat.lt_irrefl 0)
    · intro kept
      exact absurd (kept load.2 load.1.1) load.1.2
  · rw [if_neg load] at pacing ⊢
    simp only [Bool.and_eq_true, Bool.not_eq_true', List.isEmpty_eq_false_iff] at load
    constructor
    · intro _ reset call
      by_contra some
      exact load ⟨⟨call, some⟩, reset⟩
    · intro _
      obtain ⟨win, varWin, maxRate, divides, rate, baseRtt⟩ := configured
      refine ⟨?_, ?_, ?_, ?_, ?_, baseRtt⟩
      · rw [pacing]
        exact win
      · rw [pacing]
        exact varWin
      · rw [pacing]
        exact maxRate
      · rw [pacing]
        exact divides
      · rw [pacing]
        exact rate

theorem withQp_configured {qp : RdmaQueuePair} (pacing : qp.pacing = q.qp.pacing) :
    Configured c qpid { q with qp := qp } ↔ Configured c qpid q := by
  constructor
  · intro configured
    obtain ⟨win, varWin, maxRate, divides, rate, base⟩ := configured
    simp only [pacing] at win varWin maxRate divides rate
    exact ⟨win, varWin, maxRate, divides, rate, base⟩
  · intro configured
    obtain ⟨win, varWin, maxRate, divides, rate, base⟩ := configured
    rw [← pacing] at win varWin maxRate divides rate
    exact ⟨win, varWin, maxRate, divides, rate, base⟩

/-- The first message clears what `AddQueuePair` has set before it. -/
theorem create_configured {g : RdmaSettings} (reset : g.resetQpRate = c.settings.resetQpRate)
    (initial : g.initial = ⟨c.win qpid, c.varWin, c.dataRate qpid, c.dataRate qpid⟩) (id : Nat)
    (operation : RdmaOperation) :
    Configured c qpid (RatedQueuePair.create g (c.baseRtt qpid) id operation) ↔
      0 < c.dataRate qpid ∧ (c.settings.resetQpRate = true →
        c.win qpid = 0 ∧ c.baseRtt qpid = 0 ∧ c.varWin = false) := by
  have pacing : (RatedQueuePair.create g (c.baseRtt qpid) id operation).qp.pacing =
      { reloadedPacing g g.initial true with
        rate := c.dataRate qpid, maxRate := c.dataRate qpid } := by
    have loaded : ((RdmaQueuePair.empty g).addRdmaOperation g id operation).pacing =
        reloadedPacing g g.initial true := by
      rw [addRdmaOperation_pacing, (addRdmaOperation_queues id operation).1]
      rfl
    rw [create_qp]
    unfold RdmaHw.newQueuePair
    simp only [loaded, initial]
  have baseRtt : (RatedQueuePair.create g (c.baseRtt qpid) id operation).baseRtt =
      if g.resetQpRate then 0 else c.baseRtt qpid := by
    unfold RatedQueuePair.create RatedQueuePair.addRdmaOperation RatedQueuePair.reloadWith
    simp only [(addRdmaOperation_queues id operation).1]
    cases g.resetQpRate with
    | true => rfl
    | false => rfl
  unfold reloadedPacing at pacing
  rw [initial, reset, Bool.true_and] at pacing
  rw [reset] at baseRtt
  cases on : c.settings.resetQpRate with
  | false =>
      simp only [on, Bool.false_eq_true, if_false] at pacing baseRtt
      constructor
      · intro configured
        have divides := configured.divides
        rw [pacing] at divides
        exact ⟨divides, by simp⟩
      · intro condition
        refine ⟨?_, ?_, ?_, ?_, ?_, baseRtt⟩
        all_goals rw [pacing]
        all_goals exact condition.1
  | true =>
      simp only [on, if_true] at pacing baseRtt
      constructor
      · intro configured
        obtain ⟨win, varWin, -, divides, -, base⟩ := configured
        rw [pacing] at win varWin divides
        rw [baseRtt] at base
        exact ⟨divides, fun _ => ⟨win.symm, base.symm, varWin.symm⟩⟩
      · intro condition
        obtain ⟨positive, zero⟩ := condition
        obtain ⟨win, base, varWin⟩ := zero rfl
        refine ⟨?_, ?_, ?_, ?_, ?_, baseRtt.trans base.symm⟩
        · rw [pacing]
          exact win.symm
        · rw [pacing]
          exact varWin.symm
        · rw [pacing]
        · rw [pacing]
          exact positive
        · rw [pacing]
          exact positive

theorem addRdmaOperation_configured {g : RdmaSettings} (configured : Configured c qpid q)
    (id : Nat) (operation : RdmaOperation) :
    Configured c qpid (q.addRdmaOperation g id operation) ↔
      (g.resetQpRate = true → q.qp.rdmaMsgs ≠ []) := by
  unfold RatedQueuePair.addRdmaOperation
  rw [reloadWith_configured configured (addRdmaOperation_pacing q.qp id operation),
    (addRdmaOperation_queues id operation).1]
  simp

/-- The end of a message is followed by `ResetQP`, with the values of the last `AddQueuePair`. -/
theorem getNxtPacket_configured {g : RdmaSettings} {now baseRtt : Nat} {p : DataPacket}
    (qpMode : g.qpMode = true) {win : Nat}
    (initial : g.initial = ⟨win, c.varWin, c.dataRate qpid, c.dataRate qpid⟩)
    (configured : Configured c qpid q)
    (success : q.getNxtPacket g now baseRtt = .ok (p, next)) :
    Configured c qpid next ↔ (g.resetQpRate = true →
      (q.qp.current.sendOne g).getBytesLeft g = 0 → win = c.win qpid ∧ baseRtt = c.baseRtt qpid) := by
  obtain ⟨timed, pacing, -, -, ⟨ends, rfl, -⟩ | ⟨ends, moved, change, rfl, -⟩⟩ :=
    getNxtPacket_cases success
  · rw [qpMode, Bool.true_and, decide_eq_false_iff_not] at ends
    rw [withQp_configured pacing]
    exact ⟨fun _ _ done => absurd done ends, fun _ => configured⟩
  · rw [qpMode, Bool.true_and, decide_eq_true_eq] at ends
    simp only [ends, forall_const]
    cases on : g.resetQpRate with
    | false =>
        have same : Configured c qpid { q with qp := timed } :=
          (withQp_configured pacing).mpr configured
        simp only [Bool.false_eq_true, if_false, false_implies, iff_true]
        rw [reloadWith_configured same (moveRdmaOperationToUnfinished_pacing change)]
        simp [on]
    | true =>
        have positive : 0 < c.dataRate qpid := configured.maxRate ▸ configured.divides
        simp only [if_true, forall_const]
        unfold RatedQueuePair.resetQP
        rw [initial]
        constructor
        · intro values
          exact ⟨values.win, values.baseRtt⟩
        · intro values
          exact ⟨values.1, rfl, rfl, positive, positive, values.2⟩

theorem insertTarget_ne_nil (qp : RdmaQueuePair) (target : Nat) (ids : List Nat) :
    qp.insertTarget target ids ≠ [] := by
  intro empty
  have perm := @insertTarget_perm qp target ids
  rw [empty] at perm
  exact absurd perm.symm.eq_nil (by simp)

theorem recoverMsg_rdmaMsgs {g : RdmaSettings} {qp : RdmaQueuePair} {msgSeq : Nat}
    (present : (qp.rdmaMsgsUnfinished.any fun id => qp.msgSeqOf id = msgSeq) = true) :
    (qp.recoverMsg g msgSeq).rdmaMsgs ≠ [] := by
  unfold RdmaQueuePair.recoverMsg
  simp only
  split
  · rename_i none
    obtain ⟨id, member, same⟩ := List.any_eq_true.mp present
    exact absurd same (List.filter_eq_nil_iff.mp (List.getLast?_eq_none_iff.mp none) id member)
  · rw [loadQPStatus_rdmaMsgs]
    exact insertTarget_ne_nil _ _ _

theorem mergeTargets_eq_nil (qp : RdmaQueuePair) (targets ids : List Nat) :
    qp.mergeTargets targets ids = [] ↔ ids = [] := by
  cases ids with
  | nil => simp [RdmaQueuePair.mergeTargets]
  | cons curr rest => simp [RdmaQueuePair.mergeTargets]

/-- `RecoverMSG` finds nothing to merge into where nothing is being sent. -/
theorem recoverMSG_rdmaMsgs (g : RdmaSettings) (qp : RdmaQueuePair) (now : Nat) :
    (qp.recoverMSG g now).rdmaMsgs = [] ↔ qp.rdmaMsgs = [] := by
  unfold RdmaQueuePair.recoverMSG
  simp only
  split
  · rename_i none
    simp only [none]
    exact mergeTargets_eq_nil _ _ _
  · rw [loadQPStatus_rdmaMsgs]
    simp only [mergeTargets_eq_nil, loadMsgStatus_queues.1]
    rfl

theorem recoverMSG_configured {g : RdmaSettings} {now : Nat} (configured : Configured c qpid q) :
    Configured c qpid (q.recoverMSG g now) ↔ (g.resetQpRate = true → q.qp.rdmaMsgs ≠ [] →
      ∀ id ∈ q.qp.rdmaMsgsUnfinished, q.qp.overdue g now id = false) := by
  unfold RatedQueuePair.recoverMSG
  rw [reloadWith_configured configured (recoverMSG_pacing q.qp), recoverMSG_rdmaMsgs,
    List.any_eq_true]
  constructor
  · intro kept reset some id member
    by_contra late
    exact some (kept reset ⟨id, member, by simpa using late⟩)
  · intro kept reset late
    obtain ⟨id, member, overdue⟩ := late
    by_contra some
    rw [kept reset some id member] at overdue
    exact absurd overdue Bool.false_ne_true

theorem receiveAck_configured {g : RdmaSettings} {now : Nat} {a : AckPacket}
    {completion : Completion} (qpMode : g.qpMode = true) (configured : Configured c qpid q)
    (success : q.receiveAck g now a = .ok (completion, next)) :
    Configured c qpid next ↔ (g.resetQpRate = true → a.nack = true → g.nackReaction = true →
      a.msgSeq ≠ q.qp.current.msgSeq →
      ∀ id ∈ q.qp.rdmaMsgsUnfinished, q.qp.msgSeqOf id ≠ q.qp.current.msgSeq) := by
  obtain ⟨timed, -, rfl, pacing, -⟩ := receiveAck_cases success
  have completed := @acknowledge_completed g q.qp a qpMode
  have acked : Configured c qpid { q with qp := (RdmaHw.acknowledge g q.qp a).2 } :=
    (withQp_configured (acknowledge_pacing q.qp a)).mpr configured
  rw [← @reactToNack_qp g { q with qp := (RdmaHw.acknowledge g q.qp a).2 } a] at pacing
  rw [withQp_configured pacing]
  unfold RatedQueuePair.reactToNack
  split
  · rename_i reacts
    rw [Bool.and_eq_true] at reacts
    split
    · rename_i current
      simp only [qpMode, Bool.not_true, Bool.false_or, decide_eq_true_eq, completed.number] at current
      refine ⟨fun _ _ _ _ other => absurd current other,
        fun _ => (@withQp_configured c qpid _ _ ?_).mpr acked⟩
      rfl
    · rename_i current
      simp only [qpMode, Bool.not_true, Bool.false_or, decide_eq_true_eq, completed.number] at current
      unfold RatedQueuePair.recoverMsg
      rw [reloadWith_configured acked (recoverMsg_pacing _ _)]
      constructor
      · intro kept reset _ _ _ id member same
        have waits : id ∈ (RdmaHw.acknowledge g q.qp a).2.rdmaMsgsUnfinished :=
          (completed.unfinished id (same ▸ Ne.symm current)).mpr member
        have present : ((RdmaHw.acknowledge g q.qp a).2.rdmaMsgsUnfinished.any fun id =>
            (RdmaHw.acknowledge g q.qp a).2.msgSeqOf id =
              (RdmaHw.acknowledge g q.qp a).2.current.msgSeq) = true := by
          refine List.any_eq_true.mpr ⟨id, waits, decide_eq_true ?_⟩
          rw [completed.numbers, completed.number]
          exact same
        exact recoverMsg_rdmaMsgs present (kept reset present)
      · intro absent reset found
        obtain ⟨id, waits, same⟩ := List.any_eq_true.mp found
        simp only [completed.numbers, completed.number, decide_eq_true_eq] at same
        have member := (completed.unfinished id (same ▸ Ne.symm current)).mp waits
        exact absurd same (absent reset reacts.1 reacts.2 current id member)
  · rename_i reacts
    rw [Bool.and_eq_true] at reacts
    exact ⟨fun _ _ nack reaction => absurd ⟨nack, reaction⟩ reacts, fun _ => acked⟩

theorem setRate_configured (configured : Configured c qpid q) (rate : Nat) :
    Configured c qpid (q.setRate rate) ↔ 0 < rate := by
  constructor
  · intro set
    exact set.rate
  · intro positive
    exact ⟨configured.win, configured.varWin, configured.maxRate, configured.divides, positive,
      configured.baseRtt⟩

/-- One event keeps all queue pairs configured exactly under its condition. -/
theorem step_configured (qpMode : c.settings.qpMode = true) {event : RateEvent} {after : RateHost}
    (all : RatesConfigured c h) (step : h.Step c event after) :
    KeepsRates c h event ↔ RatesConfigured c after := by
  cases step with
  | add qpid id request =>
      have others : (h.asked c qpid).qpMap = h.qpMap := rfl
      cases found : h.qpMap qpid with
      | none =>
          simp only [RateHost.addQueuePair, KeepsRates, found]
          rw [setQp_configured all others]
          exact (@create_configured c qpid ((h.asked c qpid).settings c qpid) rfl rfl id _).symm
      | some q =>
          simp only [RateHost.addQueuePair, KeepsRates, found]
          rw [setQp_configured all others]
          exact (addRdmaOperation_configured (all qpid q found) id _).symm
  | @send qpid p q next found left room packet =>
      rw [setQp_configured all rfl, @getNxtPacket_configured c qpid q next (h.settings c qpid) h.now
        h.baseRttInitial p qpMode h.winInitial rfl (all qpid q found) packet]
      simp only [KeepsRates, found, Option.some.injEq, forall_eq']
      rfl
  | @sent qpid q gap size found =>
      rw [setQp_configured all rfl]
      have configured := all qpid q found
      exact ⟨fun _ => ⟨configured.win, configured.varWin, configured.maxRate, configured.divides,
        configured.rate, configured.baseRtt⟩, fun _ => trivial⟩
  | @ack qpid a q next completion found received =>
      rw [setQp_configured all rfl,
        @receiveAck_configured c qpid q next (h.settings c qpid) h.now a completion qpMode
          (all qpid q found) received]
      simp only [KeepsRates, found, Option.some.injEq, forall_eq']
      rfl
  | @cnp qpid q found =>
      have configured := all qpid q found
      have same : q.receiveCnp (c.dataRate qpid) = q := by
        unfold RatedQueuePair.receiveCnp
        rw [if_neg (Nat.ne_of_gt configured.rate)]
      rw [setQp_configured all rfl, same]
      exact ⟨fun _ => configured, fun _ => trivial⟩
  | @changeRate qpid q rate found =>
      rw [setQp_configured all rfl]
      have configured := all qpid q found
      constructor
      · intro positive
        exact ⟨configured.win, configured.varWin, configured.maxRate, configured.divides, positive,
          configured.baseRtt⟩
      · intro changed
        exact changed.rate
  | @setRate qpid q rate found =>
      rw [setQp_configured all rfl, setRate_configured (all qpid q found)]
      exact Iff.rfl
  | @timeout qpid q found due =>
      rw [setQp_configured all rfl, recoverMSG_configured (all qpid q found)]
      simp only [KeepsRates, found, Option.some.injEq, forall_eq']
      rfl
  | wait forward =>
      exact ⟨fun _ => all, fun _ => trivial⟩

/-- The queue pairs of a host are configured in every state of a run exactly when every event of it
meets the condition. -/
theorem rates_configured (c : RateConfig) (qpMode : c.settings.qpMode = true)
    (entries : List (RateHost × RateEvent)) (h : RateHost)
    (run : Run (Traced (RateHost.Step c)) RateHost.create entries h) :
    (∀ entry ∈ entries, KeepsRates c entry.1 entry.2) ↔
      (∀ entry ∈ entries, RatesConfigured c entry.1) ∧ RatesConfigured c h := by
  have first : RatesConfigured c RateHost.create := by
    intro qpid q found
    exact absurd found (by simp [RateHost.create])
  exact run.traced_iff (fun _ => True) (RatesConfigured c) (KeepsRates c) trivial first
    (fun _ _ _ _ _ _ => trivial) fun _ _ _ _ all step => step_configured qpMode all step

end Rates

/-- A host that resets the rate with every message, with the window of each queue pair. -/
def resettingHost (win : Nat) : RateConfig where
  settings := { qpModeSettings with resetQpRate := true }
  varWin := false
  rateBound := true
  txTime := fun _ _ => 0
  dataRate := fun _ => 100
  win := fun _ => win
  baseRtt := fun _ => 0

/-- Without a window a message is sent as configured. -/
theorem rates_configured_without_window :
    ∃ (entries : List (RateHost × RateEvent)) (h : RateHost), entries.length = 2 ∧
      ((∀ entry ∈ entries, KeepsRates (resettingHost 0) entry.1 entry.2) ↔
        (∀ entry ∈ entries, RatesConfigured (resettingHost 0) entry.1) ∧
          RatesConfigured (resettingHost 0) h) := by
  have added : Run (Traced (RateHost.Step (resettingHost 0))) RateHost.create _ _ :=
    Run.nil.told (RateHost.Step.add 0 0 (onePacket 1))
  have sent := added.told (@RateHost.Step.send _ _ 0 _ _ _ rfl (by decide +kernel) rfl rfl)
  exact ⟨_, _, rfl, rates_configured (resettingHost 0) rfl _ _ sent⟩

/-- The first packet of a queue pair is sent without the window of its flow. -/
theorem window_cleared : ¬ ∀ c : RateConfig, c.settings.qpMode = true →
    c.settings.resetQpRate = true → ∀ entries h,
    Run (Traced (RateHost.Step c)) RateHost.create entries h →
    ∀ entry ∈ entries, RatesConfigured c entry.1 := by
  intro claim
  have added : Run (Traced (RateHost.Step (resettingHost 4000))) RateHost.create _ _ :=
    Run.nil.told (RateHost.Step.add 0 0 (onePacket 1))
  have sent := added.told (@RateHost.Step.send _ _ 0 _ _ _ rfl (by decide +kernel) rfl rfl)
  have configured := claim (resettingHost 4000) rfl rfl _ _ sent _
    (List.mem_append_right _ (List.mem_singleton.mpr rfl))
  have win := (configured 0 _ rfl).win
  exact absurd win (by decide +kernel)

end Floodgate
