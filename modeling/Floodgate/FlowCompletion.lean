import Floodgate.RetransmissionTimer

/-! What happens to a flow after `QpComplete`: with the timers of DCQCN beside the retransmission
timer, and CNP marks on acknowledgements. -/

namespace Floodgate

open Outcome LabelledRun

/-- `m_cc_mode` and the intervals of DCQCN. -/
structure DcqcnSettings where
  ccMode : Nat
  alphaResumeInterval : Nat
  rateDecreaseInterval : Nat
  rpgTimeReset : Nat

/-- The part of `mlx` that decides about events. What they do to rates is left to `pace`. -/
structure Mlx where
  eventUpdateAlpha : Option Nat
  eventDecreaseRate : Option Nat
  rpTimer : Option Nat
  alphaCnpArrived : Bool
  decreaseCnpArrived : Bool
  firstCnp : Bool
  rpTimeStage : Nat

namespace Mlx

def init : Mlx := ⟨none, none, none, false, false, true, 0⟩

variable (d : DcqcnSettings) (now : Nat) (m : Mlx)

def updateAlphaMlx : Mlx :=
  { m with alphaCnpArrived := false, eventUpdateAlpha := some (now + d.alphaResumeInterval) }

def cnpReceivedMlx : Mlx :=
  let arrived := { m with alphaCnpArrived := true, decreaseCnpArrived := true }
  if arrived.firstCnp then
    { arrived with
      alphaCnpArrived := false
      eventUpdateAlpha := some (now + d.alphaResumeInterval)
      eventDecreaseRate := some (now + d.rateDecreaseInterval + 1)
      firstCnp := false }
  else arrived

def checkRateDecreaseMlx : Mlx :=
  let scheduled := { m with eventDecreaseRate := some (now + d.rateDecreaseInterval) }
  if scheduled.decreaseCnpArrived then
    { scheduled with
      rpTimeStage := 0
      decreaseCnpArrived := false
      rpTimer := some (now + d.rpgTimeReset) }
  else scheduled

def rateIncEventTimerMlx : Mlx :=
  { m with rpTimer := some (now + d.rpgTimeReset), rpTimeStage := Word32.add m.rpTimeStage 1 }

def cancel : Mlx :=
  { m with eventUpdateAlpha := none, eventDecreaseRate := none, rpTimer := none }

structure Idle : Prop where
  eventUpdateAlpha : m.eventUpdateAlpha = none
  eventDecreaseRate : m.eventDecreaseRate = none
  rpTimer : m.rpTimer = none

end Mlx

/-- A flow with its congestion control. An acknowledgement carries the CNP flag of the packet that
caused it; `completions` counts the calls of `QpComplete`. -/
structure DcqcnFlow where
  now : Nat
  qp : RdmaQueuePair
  mlx : Mlx
  rx : RdmaRxQueuePair
  data : List DataPacket
  acks : List (AckPacket × Bool)
  completions : Nat

inductive DcqcnEvent where
  | send
  | data (p : DataPacket) (ecn : Bool)
  | ack (a : AckPacket) (cnp : Bool)
  | timeout
  | updateAlpha
  | decreaseRate
  | increaseRate
  | pace (rate : Nat)
  | wait (later : Nat)

namespace DcqcnFlow

def create (g : RdmaSettings) (size flowId sport : Nat) : DcqcnFlow where
  now := 0
  qp := (RdmaFlow.create g size flowId sport).qp
  mlx := Mlx.init
  rx := RdmaRxQueuePair.init
  data := []
  acks := []
  completions := 0

/-- `ReceiveAck` outside `qp_mode`, with DCQCN. -/
def receiveAck (g : RdmaSettings) (d : DcqcnSettings) (s : DcqcnFlow) (a : AckPacket) (cnp : Bool) :
    Except RdmaAssertion DcqcnFlow := do
  let acked ← RdmaHw.receiveAck g s.now s.qp a
  let cancelled := if acked.1 = .qp ∧ d.ccMode = 1 then s.mlx.cancel else s.mlx
  .ok { s with
    qp := acked.2
    mlx := if cnp = true ∧ d.ccMode = 1 then cancelled.cnpReceivedMlx d s.now else cancelled
    completions := if acked.1 = .qp then s.completions + 1 else s.completions }

/-- Nothing is scheduled before `later`. -/
def Waits (s : DcqcnFlow) (later : Nat) : Prop :=
  ∀ time, some time ∈ [s.qp.eventTimeoutRetransmission, s.mlx.eventUpdateAlpha,
    s.mlx.eventDecreaseRate, s.mlx.rpTimer] → later ≤ time

inductive Step (g : RdmaSettings) (d : DcqcnSettings) (s : DcqcnFlow) :
    DcqcnEvent → DcqcnFlow → Prop
  | send {p : DataPacket} {qp : RdmaQueuePair} (left : 0 < s.qp.getBytesLeft g)
      (room : s.qp.isWinBound g = .ok false)
      (next : RdmaHw.getNxtPacket g s.now s.qp = .ok (p, qp)) :
      Step g d s .send { s with qp := qp, data := s.data ++ [p] }
  | data {p : DataPacket} (sent : p ∈ s.data) (ecn : Bool) :
      Step g d s (.data p ecn)
        { s with
          rx := (RdmaHw.receiveUdp g s.now s.rx p).2
          acks := s.acks ++ (RdmaHw.receiveUdp g s.now s.rx p).1.toList.map fun a => (a, ecn) }
  | ack {a : AckPacket} {cnp : Bool} {after : DcqcnFlow} (sent : (a, cnp) ∈ s.acks)
      (received : s.receiveAck g d a cnp = .ok after) : Step g d s (.ack a cnp) after
  | timeout (due : s.qp.eventTimeoutRetransmission = some s.now) :
      Step g d s .timeout { s with qp := s.qp.recoverQueue g }
  | updateAlpha (due : s.mlx.eventUpdateAlpha = some s.now) :
      Step g d s .updateAlpha { s with mlx := s.mlx.updateAlphaMlx d s.now }
  | decreaseRate (due : s.mlx.eventDecreaseRate = some s.now) :
      Step g d s .decreaseRate { s with mlx := s.mlx.checkRateDecreaseMlx d s.now }
  | increaseRate (due : s.mlx.rpTimer = some s.now) :
      Step g d s .increaseRate { s with mlx := s.mlx.rateIncEventTimerMlx d s.now }
  | pace (rate : Nat) :
      Step g d s (.pace rate) { s with qp := { s.qp with pacing := { s.qp.pacing with rate := rate } } }
  | wait {later : Nat} (forward : s.now < later) (before : s.Waits later) :
      Step g d s (.wait later) { s with now := later }

end DcqcnFlow

namespace RdmaQueuePair

variable (g : RdmaSettings) (q : RdmaQueuePair)

def Sendable : Prop := 0 < q.getBytesLeft g ∧ q.isWinBound g = .ok false

def acked (a : AckPacket) : MsgStatus :=
  if a.nack && g.nackReaction then (q.current.hear g a).pullBack else q.current.hear g a

def Finishes (a : AckPacket) : Prop :=
  g.ackInterval ≠ 0 ∧ (q.current.hear g a).isFinished g = true

def Rearms (a : AckPacket) : Prop :=
  g.rtoUs ≠ 0 ∧ (q.acked g a).getBytesLeft g = 0 ∧
    ∃ onTheFly, (q.acked g a).getOnTheFly g = .ok onTheFly ∧ 0 < onTheFly

end RdmaQueuePair

section Acks

variable {g : RdmaSettings} {now : Nat} {q after : RdmaQueuePair} {a : AckPacket}
  {completion : Completion}

theorem acknowledge_completes (single : g.qpMode = false) (a : AckPacket) :
    ((RdmaHw.acknowledge g q a).1 = .qp ↔ q.Finishes g a) ∧
      (q.Finishes g a → (RdmaHw.acknowledge g q a).2.eventTimeoutRetransmission = none) := by
  unfold RdmaHw.acknowledge RdmaQueuePair.Finishes MsgStatus.hear ackSeq
  generalize (if g.backto0 = true then a.seq / g.chunk * g.chunk else a.seq) = seq
  simp only [single, Bool.not_false, if_true, RdmaQueuePair.isFinished]
  by_cases none : g.ackInterval = 0
  · simp [none]
  · by_cases finished : (q.current.acknowledge g seq a.last).isFinished g = true
    · simp [none, finished]
    · simp [none, finished]

/-- Everything that `ReceiveAck` does to the sender outside `qp_mode`. -/
theorem receiveAck_completes (single : g.qpMode = false)
    (success : RdmaHw.receiveAck g now q a = .ok (completion, after)) :
    (completion = .qp ↔ q.Finishes g a) ∧ after.current = q.acked g a ∧
      after.pacing = q.pacing ∧
      (q.Finishes g a → (after.eventTimeoutRetransmission = none ↔ ¬ q.Rearms g a)) := by
  obtain ⟨same, current, pacing⟩ := receiveAck_single single success
  obtain ⟨completes, cancelled⟩ := @acknowledge_completes g q single a
  obtain ⟨reacted, unpaced, -⟩ := @ackReact_single g q single a
  have whole : (RdmaHw.reactToNack g (RdmaHw.acknowledge g q a).2 a).current = q.acked g a := reacted
  refine ⟨same ▸ completes, current.trans whole, pacing.trans unpaced, fun finishes => ?_⟩
  unfold RdmaHw.receiveAck at success
  obtain ⟨timed, reset, success⟩ := bind_ok.mp success
  obtain ⟨-, rfl⟩ := Prod.mk.inj (Except.ok.inj success)
  have idle : (RdmaHw.reactToNack g (RdmaHw.acknowledge g q a).2 a).eventTimeoutRetransmission =
      none := by
    unfold RdmaHw.reactToNack
    simp only [single, Bool.not_false, Bool.true_or, if_true]
    split
    · exact cancelled finishes
    · exact cancelled finishes
  unfold RdmaHw.resetTimer at reset
  unfold RdmaQueuePair.Rearms
  rw [← whole]
  generalize RdmaHw.reactToNack g (RdmaHw.acknowledge g q a).2 a = reacted at reset idle ⊢
  by_cases off : g.rtoUs = 0
  · rw [if_pos off] at reset
    rw [← Except.ok.inj reset, idle]
    simp [off]
  · rw [if_neg off, single] at reset
    simp only [Bool.false_eq_true, if_false] at reset
    split at reset
    · rename_i nothing
      obtain ⟨onTheFly, inFlight, reset⟩ := bind_ok.mp reset
      split at reset
      · rename_i some
        rw [← Except.ok.inj reset]
        constructor
        · intro none
          contradiction
        · intro rearms
          exact absurd ⟨off, nothing, onTheFly, inFlight, some⟩ rearms
      · rename_i none
        rw [← Except.ok.inj reset]
        refine ⟨fun _ rearms => ?_, fun _ => idle⟩
        obtain ⟨-, -, other, same, some⟩ := rearms
        have equal : onTheFly = other := Except.ok.inj (inFlight.symm.trans same)
        exact none (equal ▸ some)
    · rename_i left
      rw [← Except.ok.inj reset]
      exact ⟨fun _ rearms => left rearms.2.1, fun _ => idle⟩

end Acks

/-- The events that a scheduled timer or the device causes. -/
def DcqcnEvent.Active : DcqcnEvent → Prop
  | .send | .timeout | .updateAlpha | .decreaseRate | .increaseRate => True
  | _ => False

namespace DcqcnFlow

structure Quiet (g : RdmaSettings) (s : DcqcnFlow) : Prop where
  timer : s.qp.eventTimeoutRetransmission = none
  idle : s.mlx.Idle
  silent : ¬ s.qp.Sendable g

structure CompletedOnce (g : RdmaSettings) (s : DcqcnFlow) : Prop where
  once : s.completions ≤ 1
  quiet : 0 < s.completions → s.Quiet g

/-- The condition before an event. No acknowledgement comes after the completing one; that one does
not arm the retransmission timer, is not the first with a CNP mark and leaves nothing that can be
sent, which no change of the rate alters later. -/
def StaysQuiet (g : RdmaSettings) (d : DcqcnSettings) (s : DcqcnFlow) : DcqcnEvent → Prop
  | .ack a cnp =>
      s.completions = 0 ∧ (s.qp.Finishes g a → ¬ s.qp.Rearms g a ∧
        ¬ (cnp = true ∧ d.ccMode = 1 ∧ s.mlx.firstCnp = true) ∧
        ¬ { s.qp with current := s.qp.acked g a }.Sendable g)
  | .pace rate =>
      0 < s.completions →
        ¬ { s.qp with pacing := { s.qp.pacing with rate := rate } }.Sendable g
  | _ => True

/-- A completed flow is finished, and DCQCN is idle where it is not used. -/
structure Books (g : RdmaSettings) (d : DcqcnSettings) (s : DcqcnFlow) : Prop where
  finished : 0 < s.completions → g.ackInterval ≠ 0 ∧ s.qp.isFinished g = true
  unused : d.ccMode ≠ 1 → s.mlx.Idle

section Steps

variable {g : RdmaSettings} {d : DcqcnSettings} {s next : DcqcnFlow} {event : DcqcnEvent}

theorem receiveAck_parts (single : g.qpMode = false) {a : AckPacket} {cnp : Bool}
    (success : s.receiveAck g d a cnp = .ok next) :
    next.qp.current = s.qp.acked g a ∧ next.qp.pacing = s.qp.pacing ∧
      (s.qp.Finishes g a → next.completions = s.completions + 1 ∧
        (next.qp.eventTimeoutRetransmission = none ↔ ¬ s.qp.Rearms g a) ∧
        next.mlx = if cnp = true ∧ d.ccMode = 1 then
          (if d.ccMode = 1 then s.mlx.cancel else s.mlx).cnpReceivedMlx d s.now
          else if d.ccMode = 1 then s.mlx.cancel else s.mlx) ∧
      (¬ s.qp.Finishes g a → next.completions = s.completions) ∧
      (d.ccMode ≠ 1 → next.mlx = s.mlx) := by
  unfold receiveAck at success
  obtain ⟨⟨completion, qp⟩, acks, success⟩ := bind_ok.mp success
  obtain rfl := Except.ok.inj success
  obtain ⟨completes, current, pacing, timer⟩ := receiveAck_completes single acks
  refine ⟨current, pacing, fun finishes => ?_, fun unfinished => ?_, fun other => ?_⟩
  · have same := completes.mpr finishes
    subst same
    exact ⟨by simp only [if_true], timer finishes, by simp only [true_and]⟩
  · exact if_neg fun same => unfinished (completes.mp same)
  · simp only [other, and_false, if_false]

theorem acked_finished {q : RdmaQueuePair} {a : AckPacket}
    (finished : (q.current.hear g a).isFinished g = true) :
    (q.acked g a).isFinished g = true := by
  unfold RdmaQueuePair.acked
  split
  · exact finished
  · exact finished

theorem cnpReceivedMlx_idle {m : Mlx} {now : Nat} (idle : m.Idle) :
    (m.cnpReceivedMlx d now).Idle ↔ ¬ m.firstCnp = true := by
  unfold Mlx.cnpReceivedMlx
  simp only
  split
  · rename_i first
    constructor
    · intro scheduled
      have none := scheduled.eventUpdateAlpha
      contradiction
    · exact fun later => absurd first later
  · rename_i later
    exact ⟨fun _ => later, fun _ => ⟨idle.eventUpdateAlpha, idle.eventDecreaseRate, idle.rpTimer⟩⟩

theorem cancel_idle (m : Mlx) : m.cancel.Idle := ⟨rfl, rfl, rfl⟩

theorem completing_iff (single : g.qpMode = false) (books : Books g d s) {a : AckPacket}
    {cnp : Bool} (success : s.receiveAck g d a cnp = .ok next) (finishes : s.qp.Finishes g a) :
    next.Quiet g ↔ ¬ s.qp.Rearms g a ∧
      ¬ (cnp = true ∧ d.ccMode = 1 ∧ s.mlx.firstCnp = true) ∧
      ¬ { s.qp with current := s.qp.acked g a }.Sendable g := by
  obtain ⟨current, pacing, completes, -, -⟩ := receiveAck_parts single success
  obtain ⟨-, timer, mlx⟩ := completes finishes
  have silent : next.qp.Sendable g ↔
      { s.qp with current := s.qp.acked g a }.Sendable g := by
    simp only [RdmaQueuePair.Sendable, RdmaQueuePair.getBytesLeft, RdmaQueuePair.isWinBound,
      RdmaQueuePair.getOnTheFly, current, pacing]
  have idle : next.mlx.Idle ↔ ¬ (cnp = true ∧ d.ccMode = 1 ∧ s.mlx.firstCnp = true) := by
    rw [mlx]
    by_cases used : d.ccMode = 1
    · by_cases marked : cnp = true
      · rw [if_pos ⟨marked, used⟩, if_pos used, cnpReceivedMlx_idle (cancel_idle _)]
        simp [marked, used, Mlx.cancel]
      · rw [if_neg fun both => marked both.1, if_pos used]
        exact ⟨fun _ both => marked both.1, fun _ => cancel_idle _⟩
    · rw [if_neg fun both => used both.2, if_neg used]
      exact ⟨fun _ both => used both.2.1, fun _ => books.unused used⟩
  rw [← timer, ← idle, ← silent]
  exact ⟨fun quiet => ⟨quiet.timer, quiet.idle, quiet.silent⟩,
    fun parts => ⟨parts.1, parts.2.1, parts.2.2⟩⟩

theorem ack_iff (single : g.qpMode = false) (books : Books g d s) {a : AckPacket} {cnp : Bool}
    (success : s.receiveAck g d a cnp = .ok next) :
    s.StaysQuiet g d (.ack a cnp) ↔ next.CompletedOnce g := by
  obtain ⟨-, -, completes, continues, -⟩ := receiveAck_parts single success
  by_cases running : s.completions = 0
  · by_cases finishes : s.qp.Finishes g a
    · have first : next.completions = 1 := by
        rw [(completes finishes).1, running]
      have equal := completing_iff single books success finishes
      constructor
      · intro stays
        exact ⟨by omega, fun _ => equal.mpr (stays.2 finishes)⟩
      · intro once
        exact ⟨running, fun _ => equal.mp (once.quiet (by omega))⟩
    · have still : next.completions = 0 := by
        rw [continues finishes, running]
      exact ⟨fun _ => ⟨by omega, fun some => by omega⟩,
        fun _ => ⟨running, fun finishing => absurd finishing finishes⟩⟩
  · obtain ⟨acks, finished⟩ := books.finished (by omega)
    have again : s.qp.Finishes g a := ⟨acks, isFinished_hear a finished⟩
    have second : next.completions = s.completions + 1 := (completes again).1
    constructor
    · exact fun stays => absurd stays.1 running
    · intro once
      have bound := once.once
      omega

theorem CompletedOnce.running (good : s.CompletedOnce g) (loud : ¬ s.Quiet g) :
    s.completions = 0 := by
  by_contra some
  exact loud (good.quiet (by omega))

theorem running_stays (running : s.completions = 0) (same : next.completions = s.completions) :
    (0 < s.completions → ¬ event.Active) ∧ next.CompletedOnce g :=
  ⟨fun some => by omega, by omega, fun some => by omega⟩

theorem quiet_stays (good : s.CompletedOnce g) (passive : ¬ event.Active)
    (same : next.completions = s.completions ∧ next.qp = s.qp ∧ next.mlx = s.mlx) :
    (0 < s.completions → ¬ event.Active) ∧ next.CompletedOnce g := by
  obtain ⟨completions, qp, mlx⟩ := same
  refine ⟨fun _ => passive, completions ▸ good.once, fun some => ?_⟩
  have quiet := good.quiet (completions ▸ some)
  exact ⟨qp ▸ quiet.timer, mlx ▸ quiet.idle, qp ▸ quiet.silent⟩

/-- One event leaves the flow completed once exactly under the condition. -/
theorem step_iff (single : g.qpMode = false) (books : Books g d s) (good : s.CompletedOnce g)
    (step : Step g d s event next) :
    s.StaysQuiet g d event ↔
      (0 < s.completions → ¬ event.Active) ∧ next.CompletedOnce g := by
  cases step with
  | send left room sends =>
      have running := good.running fun quiet => quiet.silent ⟨left, room⟩
      exact ⟨fun _ => running_stays running rfl, fun _ => trivial⟩
  | data sent ecn => exact ⟨fun _ => quiet_stays good id ⟨rfl, rfl, rfl⟩, fun _ => trivial⟩
  | ack sent received =>
      rw [ack_iff single books received]
      exact ⟨fun once => ⟨fun _ => id, once⟩, fun both => both.2⟩
  | timeout due =>
      have running := good.running fun quiet => by
        have none := quiet.timer
        rw [due] at none
        contradiction
      exact ⟨fun _ => running_stays running rfl, fun _ => trivial⟩
  | updateAlpha due =>
      have running := good.running fun quiet => by
        have none := quiet.idle.eventUpdateAlpha
        rw [due] at none
        contradiction
      exact ⟨fun _ => running_stays running rfl, fun _ => trivial⟩
  | decreaseRate due =>
      have running := good.running fun quiet => by
        have none := quiet.idle.eventDecreaseRate
        rw [due] at none
        contradiction
      exact ⟨fun _ => running_stays running rfl, fun _ => trivial⟩
  | increaseRate due =>
      have running := good.running fun quiet => by
        have none := quiet.idle.rpTimer
        rw [due] at none
        contradiction
      exact ⟨fun _ => running_stays running rfl, fun _ => trivial⟩
  | pace rate =>
      constructor
      · intro silent
        exact ⟨fun _ => id, good.once, fun some =>
          ⟨(good.quiet some).timer, (good.quiet some).idle, silent some⟩⟩
      · intro both some
        exact (both.2.quiet some).silent
  | wait forward before => exact ⟨fun _ => quiet_stays good id ⟨rfl, rfl, rfl⟩, fun _ => trivial⟩

theorem Books.create (g : RdmaSettings) (d : DcqcnSettings) (size flowId sport : Nat) :
    Books g d (create g size flowId sport) :=
  ⟨fun some => absurd some (Nat.lt_irrefl 0), fun _ => ⟨rfl, rfl, rfl⟩⟩

theorem Books.unfinished (running : s.completions = 0)
    (same : next.completions = s.completions) (unused : d.ccMode ≠ 1 → next.mlx.Idle) :
    Books g d next :=
  ⟨fun some => by omega, unused⟩

theorem Books.step (single : g.qpMode = false) (books : Books g d s) (good : s.CompletedOnce g)
    (step : Step g d s event next) : Books g d next := by
  cases step with
  | send left room sends =>
      have running := good.running fun quiet => quiet.silent ⟨left, room⟩
      exact Books.unfinished running rfl books.unused
  | data sent ecn => exact ⟨books.finished, books.unused⟩
  | ack sent received =>
      rename_i a cnp
      obtain ⟨current, -, completes, continues, other⟩ := receiveAck_parts single received
      refine ⟨fun some => ?_, fun unused => other unused ▸ books.unused unused⟩
      have finished : (next.qp.current = s.qp.acked g a) → s.qp.Finishes g a →
          g.ackInterval ≠ 0 ∧ next.qp.isFinished g = true := by
        intro same finishes
        refine ⟨finishes.1, ?_⟩
        rw [RdmaQueuePair.isFinished, same]
        exact acked_finished finishes.2
      by_cases finishes : s.qp.Finishes g a
      · exact finished current finishes
      · obtain ⟨acks, done⟩ := books.finished (continues finishes ▸ some)
        exact absurd ⟨acks, isFinished_hear a done⟩ finishes
  | timeout due => exact ⟨books.finished, books.unused⟩
  | updateAlpha due =>
      refine ⟨books.finished, fun unused => ?_⟩
      have none := (books.unused unused).eventUpdateAlpha
      rw [due] at none
      contradiction
  | decreaseRate due =>
      refine ⟨books.finished, fun unused => ?_⟩
      have none := (books.unused unused).eventDecreaseRate
      rw [due] at none
      contradiction
  | increaseRate due =>
      refine ⟨books.finished, fun unused => ?_⟩
      have none := (books.unused unused).rpTimer
      rw [due] at none
      contradiction
  | pace rate => exact ⟨books.finished, books.unused⟩
  | wait forward before => exact ⟨books.finished, books.unused⟩

end Steps

/-- A flow completes once and stays quiet exactly as long as the condition holds. -/
theorem flow_completes_once (g : RdmaSettings) (d : DcqcnSettings) (single : g.qpMode = false)
    (size flowId sport : Nat) (entries : List (DcqcnFlow × DcqcnEvent)) (finish : DcqcnFlow)
    (run : Run (Traced (Step g d)) (create g size flowId sport) entries finish) :
    (∀ entry ∈ entries, entry.1.StaysQuiet g d entry.2) ↔
      (∀ entry ∈ entries, entry.1.CompletedOnce g ∧
        (0 < entry.1.completions → ¬ entry.2.Active)) ∧ finish.CompletedOnce g := by
  apply run.served_iff (Books g d) (CompletedOnce g) (StaysQuiet g d)
    (fun state event => 0 < state.completions → ¬ event.Active)
  · exact Books.create g d size flowId sport
  · exact ⟨Nat.zero_le 1, fun some => absurd some (Nat.lt_irrefl 0)⟩
  · intro state event next books good step
    exact books.step single good step
  · intro state event next books good step
    exact step_iff single books good step

def dcqcn : DcqcnSettings := ⟨1, 1000, 4000, 1500000⟩

def onlyPacket : DataPacket := ⟨0, 1000, 0, 0, 0, true⟩
def onlyAck : AckPacket := ⟨1000, false, 0, true⟩

open RdmaFlow in
theorem one_packet_run : ∃ s, Run (Step singlePath dcqcn) (create singlePath 1000 0 0)
    [.send, .data onlyPacket false, .ack onlyAck false] s ∧ s.completions = 1 ∧
    (onlyAck, false) ∈ s.acks ∧ ∃ after, s.receiveAck singlePath dcqcn onlyAck false = .ok after ∧
      after.completions = 2 := by
  have sent := Run.single (Step.send (g := singlePath) (d := dcqcn) (s := create singlePath 1000 0 0)
    (by decide) (by decide) rfl)
  have arrived := sent.snoc (Step.data (List.mem_singleton.mpr rfl) false)
  have acked := arrived.snoc (@Step.ack _ _ _ onlyAck false _ (by decide +kernel) rfl)
  exact ⟨_, acked, rfl, by decide +kernel, _, rfl, rfl⟩

open RdmaFlow in
theorem flow_completes_once_one_packet : ∃ (entries : List (DcqcnFlow × DcqcnEvent))
    (finish : DcqcnFlow),
    ((∀ entry ∈ entries, entry.1.StaysQuiet singlePath dcqcn entry.2) ↔
      (∀ entry ∈ entries, entry.1.CompletedOnce singlePath ∧
        (0 < entry.1.completions → ¬ entry.2.Active)) ∧ finish.CompletedOnce singlePath) ∧
    finish.completions = 1 := by
  obtain ⟨finish, run, once, -⟩ := one_packet_run
  obtain ⟨entries, traced, -⟩ := run.traced
  exact ⟨entries, finish,
    flow_completes_once singlePath dcqcn rfl 1000 0 0 entries finish traced, once⟩

/-- The acknowledgement that completed the flow arrives again. -/
theorem repeated_ack_completes_again : ¬ ∀ (g : RdmaSettings) (d : DcqcnSettings),
    g.qpMode = false → ∀ size flowId sport labels finish,
      Run (Step g d) (create g size flowId sport) labels finish → finish.CompletedOnce g := by
  intro claim
  obtain ⟨s, run, -, sent, after, again, twice⟩ := one_packet_run
  have bound := (claim RdmaFlow.singlePath dcqcn rfl 1000 0 0 _ after
    (run.snoc (.ack sent again))).once
  omega

end DcqcnFlow

end Floodgate
