import Floodgate.RatedQueuePair
import Floodgate.Library.LabelledRun
import Mathlib.Data.List.Chain

/-! The three timers of DCQCN on a queue pair, with the events that the simulator holds for them. -/

namespace Floodgate

open Outcome LabelledRun

inductive MlxTimer where
  | updateAlpha
  | decreaseRate
  | rateIncrease
  deriving DecidableEq

namespace MlxRecord

def handle (m : MlxRecord) : MlxTimer → Option Nat
  | .updateAlpha => m.eventUpdateAlpha
  | .decreaseRate => m.eventDecreaseRate
  | .rateIncrease => m.rpTimer

def store (m : MlxRecord) (timer : MlxTimer) (uid : Nat) : MlxRecord :=
  match timer with
  | .updateAlpha => { m with eventUpdateAlpha := some uid }
  | .decreaseRate => { m with eventDecreaseRate := some uid }
  | .rateIncrease => { m with rpTimer := some uid }

theorem handle_store (m : MlxRecord) (timer other : MlxTimer) (uid : Nat) :
    (m.store timer uid).handle other = if other = timer then some uid else m.handle other := by
  cases timer with
  | updateAlpha => cases other with | _ => rfl
  | decreaseRate => cases other with | _ => rfl
  | rateIncrease => cases other with | _ => rfl

end MlxRecord

structure DcqcnAttributes where
  rdma : RdmaSettings
  alphaResumeInterval : Nat
  rateDecreaseInterval : Nat
  rpgTimeReset : Nat
  rpgThreshold : Nat
  ecnClampTgtRate : Bool
  rai : Nat
  rhai : Nat
  dataRate : Nat

structure MlxEvent where
  uid : Nat
  timer : MlxTimer
  time : Nat
  deriving DecidableEq

/-- A queue pair with its pending events. `alphaTimes` tells when alpha has been set or updated. -/
structure TimedQueuePair where
  now : Nat
  q : RatedQueuePair
  events : List MlxEvent
  uid : Nat
  alphaTimes : List Nat

namespace TimedQueuePair

variable (d : DcqcnAttributes) (s : TimedQueuePair)

def create (q : RatedQueuePair) : TimedQueuePair := ⟨0, q, [], 0, []⟩

def setMlx (mlx : MlxRecord) : TimedQueuePair := { s with q := { s.q with mlx := mlx } }

def schedule (timer : MlxTimer) (delay : Nat) : TimedQueuePair :=
  { s with
    q := { s.q with mlx := s.q.mlx.store timer s.uid }
    events := s.events ++ [⟨s.uid, timer, s.now + delay⟩]
    uid := s.uid + 1 }

def cancel (timer : MlxTimer) : TimedQueuePair :=
  { s with events := s.events.filter fun e => some e.uid ≠ s.q.mlx.handle timer }

def scheduleUpdateAlphaMlx : TimedQueuePair :=
  s.schedule .updateAlpha (d.alphaResumeInterval * 1000)

def scheduleDecreaseRateMlx (delta : Nat) : TimedQueuePair :=
  s.schedule .decreaseRate (d.rateDecreaseInterval * 1000 + delta)

/-- Alpha has been set or updated, and no CNP has arrived since. -/
def alphaSet : TimedQueuePair :=
  { s.setMlx { s.q.mlx with alphaCnpArrived := false } with alphaTimes := s.alphaTimes ++ [s.now] }

def updateAlphaMlx : TimedQueuePair := s.alphaSet.scheduleUpdateAlphaMlx d

def slowDown (rate : Nat) : TimedQueuePair :=
  { s with
    q := { s.q.setRate rate with
      mlx := { s.q.mlx with targetRate := rate, firstCnp := false } } }

/-- `cnp_received_mlx`. The rate is `m_rateOnFirstCNP` times the present one. -/
def cnpReceivedMlx (rate : Nat) : TimedQueuePair :=
  let told := s.setMlx { s.q.mlx with alphaCnpArrived := true, decreaseCnpArrived := true }
  if s.q.mlx.firstCnp then
    ((told.alphaSet.scheduleUpdateAlphaMlx d).scheduleDecreaseRateMlx d 1).slowDown rate
  else told

def decrease (rate : Nat) : TimedQueuePair :=
  let clamp := d.ecnClampTgtRate || decide (s.q.mlx.rpTimeStage ≠ 0)
  { s with
    q := { s.q.setRate rate with
      mlx := { s.q.mlx with
        targetRate := if clamp then s.q.qp.pacing.rate else s.q.mlx.targetRate
        rpTimeStage := 0
        decreaseCnpArrived := false } } }

/-- `CheckRateDecreaseMlx`. The rate is what alpha makes of the present one. -/
def checkRateDecreaseMlx (rate : Nat) : TimedQueuePair :=
  let next := s.scheduleDecreaseRateMlx d 0
  if s.q.mlx.decreaseCnpArrived then
    ((next.decrease d rate).cancel .rateIncrease).schedule .rateIncrease (d.rpgTimeReset * 1000)
  else next

/-- `RateIncEventMlx`. The rate is half of the present one and half of the target rate. -/
def rateIncEventMlx (rate : Nat) : TimedQueuePair :=
  let raised (step : Nat) := min (s.q.mlx.targetRate + step) d.dataRate
  let target :=
    if s.q.mlx.rpTimeStage < d.rpgThreshold then s.q.mlx.targetRate
    else if s.q.mlx.rpTimeStage = d.rpgThreshold then raised d.rai
    else raised d.rhai
  { s with q := { s.q.setRate rate with mlx := { s.q.mlx with targetRate := target } } }

def rateIncEventTimerMlx (rate : Nat) : TimedQueuePair :=
  let increased := (s.schedule .rateIncrease (d.rpgTimeReset * 1000)).rateIncEventMlx d rate
  increased.setMlx
    { increased.q.mlx with rpTimeStage := increased.q.mlx.rpTimeStage + 1 }

def qpComplete : TimedQueuePair :=
  ((s.cancel .updateAlpha).cancel .decreaseRate).cancel .rateIncrease

def run (timer : MlxTimer) (rate : Nat) : TimedQueuePair :=
  match timer with
  | .updateAlpha => s.updateAlphaMlx d
  | .decreaseRate => s.checkRateDecreaseMlx d rate
  | .rateIncrease => s.rateIncEventTimerMlx d rate

def take (e : MlxEvent) : TimedQueuePair :=
  { s with events := s.events.filter fun other => other.uid ≠ e.uid }

end TimedQueuePair

inductive TimerEvent where
  | add (id : Nat) (operation : RdmaOperation)
  | send (p : DataPacket)
  | ack (a : AckPacket)
  | cnp (rate : Nat)
  | rto
  | fire (e : MlxEvent) (rate : Nat)
  | wait (later : Nat)

namespace TimedQueuePair

/-- One handler. The CNP flag of an acknowledgement is handled after its other parts, `cnp` after
`ack`. -/
inductive Step (d : DcqcnAttributes) (s : TimedQueuePair) : TimerEvent → TimedQueuePair → Prop
  | add (qpMode : d.rdma.qpMode = true) (id : Nat) (operation : RdmaOperation) :
      Step d s (.add id operation) { s with q := s.q.addRdmaOperation d.rdma id operation }
  | send {p : DataPacket} {next : RatedQueuePair} (baseRtt : Nat)
      (packet : s.q.getNxtPacket d.rdma s.now baseRtt = .ok (p, next)) :
      Step d s (.send p) { s with q := next }
  | ack {a : AckPacket} {next : RatedQueuePair} {completion : Completion}
      (received : s.q.receiveAck d.rdma s.now a = .ok (completion, next)) :
      Step d s (.ack a)
        (if completion = .qp then { s with q := next }.qpComplete else { s with q := next })
  | cnp (rate : Nat) : Step d s (.cnp rate) (s.cnpReceivedMlx d rate)
  | rto (due : s.q.qp.eventTimeoutRetransmission = some s.now) :
      Step d s .rto
        { s with
          q := if d.rdma.qpMode then s.q.recoverMSG d.rdma s.now
            else { s.q with qp := s.q.qp.recoverQueue d.rdma } }
  | fire {e : MlxEvent} (rate : Nat) (pending : e ∈ s.events) (due : e.time = s.now) :
      Step d s (.fire e rate) ((s.take e).run d e.timer rate)
  | wait {later : Nat} (forward : s.now < later) (before : ∀ e ∈ s.events, later ≤ e.time) :
      Step d s (.wait later) { s with now := later }

/-- One timer of each kind: the stored event is the only one, cancelling the stored events leaves
none, and alpha is updated once in each interval. -/
structure OneTimerEach (d : DcqcnAttributes) (s : TimedQueuePair) : Prop where
  stored : ∀ e ∈ s.events, s.q.mlx.handle e.timer = some e.uid
  single : ∀ timer, (s.events.filter fun e => e.timer = timer).length ≤ 1
  stops : s.qpComplete.events = []
  spaced : s.alphaTimes.IsChain fun before after => after = before + d.alphaResumeInterval * 1000
  next : ∀ e ∈ s.events, e.timer = .updateAlpha →
    ∃ last ∈ s.alphaTimes.getLast?, e.time = last + d.alphaResumeInterval * 1000

/-- The condition: a CNP that finds `m_first_cnp` set finds neither an alpha update nor a check for a
decrease pending. -/
def ArmedOnce (s : TimedQueuePair) : TimerEvent → Prop
  | .cnp _ => s.q.mlx.firstCnp = true → ∀ e ∈ s.events, e.timer = .rateIncrease
  | _ => True

end TimedQueuePair

namespace RatedQueuePair

def SameHandles (before after : RatedQueuePair) : Prop :=
  ∀ timer, after.mlx.handle timer = before.mlx.handle timer

section Handles

variable {g : RdmaSettings} {q next : RatedQueuePair} {now : Nat}

theorem reloadWith_handles (qp : RdmaQueuePair) (called : Bool) :
    SameHandles q (q.reloadWith g qp called) := by
  intro timer
  unfold reloadWith
  split
  · cases timer with | _ => rfl
  · rfl

theorem getNxtPacket_handles {baseRtt : Nat} {p : DataPacket}
    (success : q.getNxtPacket g now baseRtt = .ok (p, next)) :
    SameHandles q next ∧ (g.qpMode = false → next.mlx = q.mlx) := by
  obtain ⟨timed, -, -, -, ⟨-, rfl, -⟩ | ⟨ends, moved, -, rfl, -⟩⟩ := getNxtPacket_cases success
  · exact ⟨fun _ => rfl, fun _ => rfl⟩
  · have handles := @reloadWith_handles g { q with qp := timed } moved true
    refine ⟨fun timer => ?_, fun other => ?_⟩
    · split
      · refine Eq.trans ?_ (handles timer)
        cases timer with | _ => rfl
      · exact handles timer
    · rw [other] at ends
      exact absurd ends Bool.false_ne_true

theorem receiveAck_handles {a : AckPacket} {completion : Completion}
    (success : q.receiveAck g now a = .ok (completion, next)) :
    SameHandles q next ∧ (g.qpMode = false → next.mlx = q.mlx) := by
  obtain ⟨timed, -, rfl, -, -⟩ := receiveAck_cases success
  unfold reactToNack
  split
  · split
    · exact ⟨fun _ => rfl, fun _ => rfl⟩
    · rename_i other
      refine ⟨fun timer => reloadWith_handles _ _ timer, fun mode => ?_⟩
      rw [mode] at other
      exact absurd rfl other
  · exact ⟨fun _ => rfl, fun _ => rfl⟩

/-- No queue pair completes in `qp_mode`. -/
theorem receiveAck_completion {a : AckPacket} {completion : Completion} (qpMode : g.qpMode = true)
    (success : q.receiveAck g now a = .ok (completion, next)) : completion ≠ .qp := by
  obtain ⟨timed, rfl, -, -, -⟩ := receiveAck_cases success
  unfold RdmaHw.acknowledge
  extract_lets seq
  split
  · exact Completion.noConfusion
  · rw [if_neg (by simp [qpMode])]
    split
    · exact Completion.noConfusion
    · exact Completion.noConfusion

end Handles

end RatedQueuePair

namespace TimedQueuePair

/-- The events have numbers of their own, below the next one, and a stored number is that of an event
of the same timer, if any. -/
structure Numbered (s : TimedQueuePair) : Prop where
  distinct : (s.events.map MlxEvent.uid).Nodup
  fresh : ∀ e ∈ s.events, e.uid < s.uid
  owned : ∀ timer uid, s.q.mlx.handle timer = some uid →
    uid < s.uid ∧ ∀ e ∈ s.events, e.uid = uid → e.timer = timer

/-- Once alpha is in use, its update stays pending in `qp_mode`, and no other first CNP comes in the
other mode. -/
def Armed (d : DcqcnAttributes) (s : TimedQueuePair) : Prop :=
  s.alphaTimes = [] ∨
    if d.rdma.qpMode then ∃ e ∈ s.events, e.timer = .updateAlpha else s.q.mlx.firstCnp = false

def Stored (s : TimedQueuePair) : Prop :=
  ∀ e ∈ s.events, s.q.mlx.handle e.timer = some e.uid

section Numbers

variable {d : DcqcnAttributes} {s : TimedQueuePair}

theorem Numbered.same (numbered : Numbered s) {next : TimedQueuePair} (uid : next.uid = s.uid)
    (events : next.events.Sublist s.events)
    (handles : RatedQueuePair.SameHandles s.q next.q) : Numbered next := by
  refine ⟨?_, ?_, ?_⟩
  · exact numbered.distinct.sublist (events.map _)
  · intro e member
    rw [uid]
    exact numbered.fresh e (events.subset member)
  · intro timer number stored
    rw [handles] at stored
    rw [uid]
    obtain ⟨below, mine⟩ := numbered.owned timer number stored
    exact ⟨below, fun e member => mine e (events.subset member)⟩

theorem Numbered.schedule (numbered : Numbered s) (timer : MlxTimer) (delay : Nat) :
    Numbered (s.schedule timer delay) := by
  unfold TimedQueuePair.schedule
  refine ⟨?_, ?_, ?_⟩
  · simp only [List.map_append, List.map_singleton]
    refine List.Nodup.append numbered.distinct (List.nodup_singleton _) ?_
    intro uid old new
    obtain ⟨e, member, rfl⟩ := List.mem_map.mp old
    have below := numbered.fresh e member
    rw [List.mem_singleton.mp new] at below
    exact Nat.lt_irrefl _ below
  · intro e member
    rcases List.mem_append.mp member with old | new
    · exact Nat.lt_succ_of_lt (numbered.fresh e old)
    · rw [List.mem_singleton.mp new]
      exact Nat.lt_succ_self _
  · intro other uid stored
    rw [MlxRecord.handle_store] at stored
    split at stored
    · rename_i same
      rw [← Option.some.inj stored, same]
      refine ⟨Nat.lt_succ_self _, fun e member number => ?_⟩
      rcases List.mem_append.mp member with old | new
      · have below := numbered.fresh e old
        omega
      · rw [List.mem_singleton.mp new]
    · obtain ⟨below, mine⟩ := numbered.owned other uid stored
      refine ⟨Nat.lt_succ_of_lt below, fun e member number => ?_⟩
      rcases List.mem_append.mp member with old | new
      · exact mine e old number
      · rw [List.mem_singleton.mp new] at number
        simp only at number
        omega

theorem Numbered.unique (numbered : Numbered s) {e other : MlxEvent} (here : e ∈ s.events)
    (there : other ∈ s.events) (same : e.uid = other.uid) : e = other :=
  List.inj_on_of_nodup_map numbered.distinct here there same

theorem Stored.schedule (stored : Stored s) {timer : MlxTimer}
    (absent : ∀ e ∈ s.events, e.timer ≠ timer) (delay : Nat) :
    Stored (s.schedule timer delay) := by
  intro e member
  unfold TimedQueuePair.schedule
  rw [MlxRecord.handle_store]
  rcases List.mem_append.mp member with old | new
  · rw [if_neg (absent e old)]
    exact stored e old
  · rw [List.mem_singleton.mp new, if_pos rfl]

theorem Stored.cancelled (stored : Stored s) (timer : MlxTimer) :
    ∀ e ∈ (s.cancel timer).events, e.timer ≠ timer := by
  intro e member same
  obtain ⟨old, kept⟩ := List.mem_filter.mp member
  rw [decide_eq_true_eq, ← same, stored e old] at kept
  exact kept rfl

theorem Stored.taken (stored : Stored s) {e : MlxEvent} (pending : e ∈ s.events) :
    ∀ other ∈ (s.take e).events, other.timer ≠ e.timer := by
  intro other member same
  obtain ⟨old, kept⟩ := List.mem_filter.mp member
  have mine := stored other old
  rw [same, stored e pending] at mine
  rw [decide_eq_true_eq] at kept
  exact kept (Option.some.inj mine).symm

theorem Stored.single (stored : Stored s) (numbered : Numbered s) (timer : MlxTimer) :
    (s.events.filter fun e => e.timer = timer).length ≤ 1 := by
  have equal : ∀ e ∈ s.events.filter (fun e => e.timer = timer),
      ∀ other ∈ s.events.filter (fun e => e.timer = timer), e = other := by
    intro e here other there
    obtain ⟨here, mine⟩ := List.mem_filter.mp here
    obtain ⟨there, its⟩ := List.mem_filter.mp there
    rw [decide_eq_true_eq] at mine its
    have first := stored e here
    have second := stored other there
    rw [mine] at first
    rw [its, first] at second
    exact numbered.unique here there (Option.some.inj second)
  have nodup := (List.Nodup.of_map _ numbered.distinct).filter fun e => decide (e.timer = timer)
  cases kept : s.events.filter fun e => decide (e.timer = timer) with
  | nil => simp
  | cons first rest =>
      cases rest with
      | nil => simp
      | cons second others =>
          rw [kept] at equal nodup
          have same := equal first (by simp) second (by simp)
          simp [same] at nodup

theorem Stored.stops (stored : Stored s) : s.qpComplete.events = [] := by
  rw [List.eq_nil_iff_forall_not_mem]
  intro e member
  obtain ⟨member, increase⟩ := List.mem_filter.mp member
  obtain ⟨member, decrease⟩ := List.mem_filter.mp member
  obtain ⟨old, alpha⟩ := List.mem_filter.mp member
  rw [decide_eq_true_eq] at alpha decrease increase
  have mine := stored e old
  cases timer : e.timer with
  | updateAlpha =>
      rw [timer] at mine
      exact alpha mine.symm
  | decreaseRate =>
      rw [timer] at mine
      exact decrease mine.symm
  | rateIncrease =>
      rw [timer] at mine
      exact increase mine.symm

theorem qpComplete_events : s.qpComplete.events.Sublist s.events :=
  (List.filter_sublist.trans List.filter_sublist).trans List.filter_sublist

theorem Numbered.mlx (numbered : Numbered s) {next : TimedQueuePair} (uid : next.uid = s.uid)
    (events : next.events = s.events) (handles : RatedQueuePair.SameHandles s.q next.q) :
    Numbered next :=
  numbered.same uid (events ▸ List.Sublist.refl _) handles

theorem Numbered.alphaSet (numbered : Numbered s) : Numbered s.alphaSet :=
  numbered.mlx rfl rfl fun timer => by cases timer with | _ => rfl

theorem Numbered.cnpReceivedMlx (numbered : Numbered s) (rate : Nat) :
    Numbered (s.cnpReceivedMlx d rate) := by
  have told : Numbered
      (s.setMlx { s.q.mlx with alphaCnpArrived := true, decreaseCnpArrived := true }) :=
    numbered.mlx rfl rfl fun timer => by cases timer with | _ => rfl
  unfold TimedQueuePair.cnpReceivedMlx
  simp only
  split
  · exact ((told.alphaSet.schedule _ _).schedule _ _).mlx rfl rfl
      fun timer => by cases timer with | _ => rfl
  · exact told

theorem Numbered.checkRateDecreaseMlx (numbered : Numbered s) (rate : Nat) :
    Numbered (s.checkRateDecreaseMlx d rate) := by
  have scheduled := numbered.schedule .decreaseRate (d.rateDecreaseInterval * 1000 + 0)
  unfold TimedQueuePair.checkRateDecreaseMlx
  simp only
  split
  · have decreased : Numbered ((s.scheduleDecreaseRateMlx d 0).decrease d rate) :=
      scheduled.mlx rfl rfl fun timer => by cases timer with | _ => rfl
    have cancelled : Numbered
        (((s.scheduleDecreaseRateMlx d 0).decrease d rate).cancel .rateIncrease) :=
      decreased.same rfl List.filter_sublist fun _ => rfl
    exact cancelled.schedule _ _
  · exact scheduled

theorem Numbered.rateIncEventTimerMlx (numbered : Numbered s) (rate : Nat) :
    Numbered (s.rateIncEventTimerMlx d rate) :=
  (numbered.schedule .rateIncrease (d.rpgTimeReset * 1000)).mlx rfl rfl
    fun timer => by cases timer with | _ => rfl

theorem Numbered.step (numbered : Numbered s) {event : TimerEvent} {next : TimedQueuePair}
    (step : Step d s event next) : Numbered next := by
  cases step with
  | add qpMode id operation =>
      exact numbered.mlx rfl rfl (RatedQueuePair.reloadWith_handles _ _)
  | send baseRtt packet =>
      exact numbered.mlx rfl rfl (RatedQueuePair.getNxtPacket_handles packet).1
  | ack received =>
      have handles := (RatedQueuePair.receiveAck_handles received).1
      split
      · exact numbered.same rfl qpComplete_events handles
      · exact numbered.mlx rfl rfl handles
  | cnp rate => exact numbered.cnpReceivedMlx rate
  | rto due =>
      refine numbered.mlx rfl rfl fun timer => ?_
      split
      · exact RatedQueuePair.reloadWith_handles _ _ timer
      · rfl
  | @fire e rate pending due =>
      have taken : Numbered (s.take e) := numbered.same rfl List.filter_sublist fun _ => rfl
      unfold TimedQueuePair.run
      split
      · exact taken.alphaSet.schedule _ _
      · exact taken.checkRateDecreaseMlx rate
      · exact taken.rateIncEventTimerMlx rate
  | wait forward before => exact numbered.mlx rfl rfl fun _ => rfl

theorem Numbered.untaken (numbered : Numbered s) {e other : MlxEvent} (pending : e ∈ s.events)
    (there : other ∈ s.events) (apart : other.timer ≠ e.timer) : other ∈ (s.take e).events := by
  refine List.mem_filter.mpr ⟨there, decide_eq_true fun same => apart ?_⟩
  rw [numbered.unique there pending same]

theorem Numbered.uncancelled (numbered : Numbered s) {e : MlxEvent} (pending : e ∈ s.events)
    {timer : MlxTimer} (apart : e.timer ≠ timer) : e ∈ (s.cancel timer).events :=
  List.mem_filter.mpr ⟨pending, decide_eq_true fun stored =>
    apart ((numbered.owned timer e.uid stored.symm).2 e pending rfl)⟩

theorem Numbered.unchecked (numbered : Numbered s) {e : MlxEvent} (pending : e ∈ s.events)
    (apart : e.timer ≠ .rateIncrease) (rate : Nat) :
    e ∈ (s.checkRateDecreaseMlx d rate).events := by
  have here : e ∈ (s.scheduleDecreaseRateMlx d 0).events := List.mem_append_left _ pending
  unfold TimedQueuePair.checkRateDecreaseMlx
  simp only
  split
  · have scheduled := numbered.schedule .decreaseRate (d.rateDecreaseInterval * 1000 + 0)
    have decreased : Numbered ((s.scheduleDecreaseRateMlx d 0).decrease d rate) :=
      scheduled.mlx rfl rfl fun timer => by cases timer with | _ => rfl
    exact List.mem_append_left _ (decreased.uncancelled here apart)
  · exact here

theorem Armed.step (numbered : Numbered s) (armed : Armed d s) (one : OneTimerEach d s)
    {event : TimerEvent} {next : TimedQueuePair} (step : Step d s event next) : Armed d next := by
  unfold Armed at armed ⊢
  cases qpMode : d.rdma.qpMode with
  | true =>
      simp only [qpMode, if_true] at armed ⊢
      cases step with
      | add mode id operation => exact armed
      | send baseRtt packet => exact armed
      | @ack a next completion received =>
          rw [if_neg (RatedQueuePair.receiveAck_completion qpMode received)]
          exact armed
      | cnp rate =>
          unfold TimedQueuePair.cnpReceivedMlx
          simp only
          split
          · exact .inr ⟨⟨s.uid, .updateAlpha, s.now + d.alphaResumeInterval * 1000⟩,
              List.mem_append_left _ (List.mem_append_right _ (List.mem_singleton.mpr rfl)), rfl⟩
          · exact armed
      | rto due => exact armed
      | @fire e rate pending due =>
          have taken : Numbered (s.take e) := numbered.same rfl List.filter_sublist fun _ => rfl
          unfold TimedQueuePair.run
          cases timer : e.timer with
          | updateAlpha =>
              exact .inr ⟨⟨s.uid, .updateAlpha, s.now + d.alphaResumeInterval * 1000⟩,
                List.mem_append_right _ (List.mem_singleton.mpr rfl), rfl⟩
          | decreaseRate =>
              rcases armed with unused | ⟨alpha, there, mine⟩
              · refine .inl ?_
                simp only [TimedQueuePair.checkRateDecreaseMlx]
                split
                · exact unused
                · exact unused
              · have kept := numbered.untaken pending there (by simp [mine, timer])
                exact .inr ⟨alpha, taken.unchecked kept (by simp [mine]) rate, mine⟩
          | rateIncrease =>
              rcases armed with unused | ⟨alpha, there, mine⟩
              · exact .inl unused
              · have kept := numbered.untaken pending there (by simp [mine, timer])
                exact .inr ⟨alpha, List.mem_append_left _ kept, mine⟩
      | wait forward before => exact armed
  | false =>
      simp only [qpMode, Bool.false_eq_true, if_false] at armed ⊢
      cases step with
      | add mode id operation =>
          rw [mode] at qpMode
          exact absurd qpMode.symm Bool.false_ne_true
      | send baseRtt packet =>
          rw [(RatedQueuePair.getNxtPacket_handles packet).2 qpMode]
          exact armed
      | ack received =>
          have same := (RatedQueuePair.receiveAck_handles received).2 qpMode
          split
          · refine armed.imp id fun first => ?_
            rw [← first, ← same]
            rfl
          · rw [same]
            exact armed
      | cnp rate =>
          unfold TimedQueuePair.cnpReceivedMlx
          simp only
          split
          · exact .inr rfl
          · exact armed
      | rto due =>
          simp only [qpMode, Bool.false_eq_true, if_false]
          exact armed
      | @fire e rate pending due =>
          unfold TimedQueuePair.run
          cases timer : e.timer with
          | updateAlpha =>
              rcases armed with unused | first
              · obtain ⟨last, member, -⟩ := one.next e pending timer
                rw [unused] at member
                exact absurd member (by simp)
              · exact .inr first
          | decreaseRate =>
              simp only [TimedQueuePair.checkRateDecreaseMlx]
              split
              · exact armed
              · exact armed
          | rateIncrease => exact armed
      | wait forward before => exact armed

theorem OneTimerEach.of (numbered : Numbered s) (stored : Stored s)
    (spaced : s.alphaTimes.IsChain fun before after => after = before + d.alphaResumeInterval * 1000)
    (next : ∀ e ∈ s.events, e.timer = .updateAlpha →
      ∃ last ∈ s.alphaTimes.getLast?, e.time = last + d.alphaResumeInterval * 1000) :
    OneTimerEach d s :=
  ⟨stored, stored.single numbered, stored.stops, spaced, next⟩

theorem OneTimerEach.same (one : OneTimerEach d s) {after : TimedQueuePair}
    (numbered : Numbered after) (events : after.events.Sublist s.events)
    (handles : RatedQueuePair.SameHandles s.q after.q) (times : after.alphaTimes = s.alphaTimes) :
    OneTimerEach d after := by
  refine OneTimerEach.of numbered (fun e member => ?_) ?_ (fun e member timer => ?_)
  · rw [handles]
    exact one.stored e (events.subset member)
  · rw [times]
    exact one.spaced
  · rw [times]
    exact one.next e (events.subset member) timer

theorem OneTimerEach.schedule (one : OneTimerEach d s) (numbered : Numbered s) {timer : MlxTimer}
    (absent : ∀ e ∈ s.events, e.timer ≠ timer) (other : timer ≠ .updateAlpha) (delay : Nat) :
    OneTimerEach d (s.schedule timer delay) := by
  refine OneTimerEach.of (numbered.schedule timer delay) (Stored.schedule one.stored absent delay)
    one.spaced (fun e member alpha => ?_)
  rcases List.mem_append.mp member with old | new
  · exact one.next e old alpha
  · rw [List.mem_singleton.mp new] at alpha
    exact absurd alpha other

theorem OneTimerEach.alpha (one : OneTimerEach d s) (numbered : Numbered s)
    (absent : ∀ e ∈ s.events, e.timer ≠ .updateAlpha)
    (turn : ∀ last ∈ s.alphaTimes.getLast?, s.now = last + d.alphaResumeInterval * 1000) :
    OneTimerEach d (s.updateAlphaMlx d) := by
  have set : Stored s.alphaSet := by
    intro e member
    rw [← one.stored e member]
    cases e.timer with | _ => rfl
  refine OneTimerEach.of (numbered.alphaSet.schedule _ _) (set.schedule absent _) ?_
    (fun e member alpha => ?_)
  · refine List.isChain_append.mpr ⟨one.spaced, List.isChain_singleton _, ?_⟩
    intro last here now there
    rw [← Option.some.inj there]
    exact turn last here
  · rcases List.mem_append.mp member with old | new
    · exact absurd alpha (absent e old)
    · refine ⟨s.now, ?_, ?_⟩
      · simp [TimedQueuePair.updateAlphaMlx, TimedQueuePair.scheduleUpdateAlphaMlx,
          TimedQueuePair.schedule, TimedQueuePair.alphaSet]
      · rw [List.mem_singleton.mp new]
        rfl

theorem OneTimerEach.checkRateDecreaseMlx (one : OneTimerEach d s) (numbered : Numbered s)
    (absent : ∀ e ∈ s.events, e.timer ≠ .decreaseRate) (rate : Nat) :
    OneTimerEach d (s.checkRateDecreaseMlx d rate) := by
  have scheduled := numbered.schedule .decreaseRate (d.rateDecreaseInterval * 1000 + 0)
  have checked : OneTimerEach d (s.scheduleDecreaseRateMlx d 0) :=
    one.schedule numbered absent MlxTimer.noConfusion _
  unfold TimedQueuePair.checkRateDecreaseMlx
  simp only
  split
  · have numbers : Numbered ((s.scheduleDecreaseRateMlx d 0).decrease d rate) :=
      scheduled.mlx rfl rfl fun timer => by cases timer with | _ => rfl
    have decreased : OneTimerEach d ((s.scheduleDecreaseRateMlx d 0).decrease d rate) :=
      checked.same numbers (List.Sublist.refl _) (fun timer => by cases timer with | _ => rfl) rfl
    have fewer : Numbered (((s.scheduleDecreaseRateMlx d 0).decrease d rate).cancel .rateIncrease) :=
      numbers.same rfl List.filter_sublist fun _ => rfl
    have cancelled : OneTimerEach d
        (((s.scheduleDecreaseRateMlx d 0).decrease d rate).cancel .rateIncrease) :=
      decreased.same fewer List.filter_sublist (fun _ => rfl) rfl
    exact cancelled.schedule fewer (Stored.cancelled decreased.stored _) MlxTimer.noConfusion _
  · exact checked

theorem OneTimerEach.cnpReceivedMlx (one : OneTimerEach d s) (numbered : Numbered s)
    (armed : Armed d s) (rate : Nat) (once : ArmedOnce s (.cnp rate)) :
    OneTimerEach d (s.cnpReceivedMlx d rate) := by
  have numbers : Numbered
      (s.setMlx { s.q.mlx with alphaCnpArrived := true, decreaseCnpArrived := true }) :=
    numbered.mlx rfl rfl fun timer => by cases timer with | _ => rfl
  have told : OneTimerEach d
      (s.setMlx { s.q.mlx with alphaCnpArrived := true, decreaseCnpArrived := true }) :=
    one.same numbers (List.Sublist.refl _) (fun timer => by cases timer with | _ => rfl) rfl
  have received := @Numbered.cnpReceivedMlx d s numbered rate
  unfold TimedQueuePair.cnpReceivedMlx at received ⊢
  simp only at received ⊢
  split
  · rename_i first
    rw [if_pos first] at received
    have only := once first
    have unused : s.alphaTimes = [] := by
      unfold Armed at armed
      rcases armed with unused | used
      · exact unused
      · split at used
        · obtain ⟨e, pending, timer⟩ := used
          rw [only e pending] at timer
          exact absurd timer MlxTimer.noConfusion
        · rw [first] at used
          exact absurd used.symm Bool.false_ne_true
    have alpha := told.alpha numbers (fun e pending timer => by
        rw [only e pending] at timer
        exact absurd timer MlxTimer.noConfusion)
      (fun last here => by
        rw [show (s.setMlx { s.q.mlx with
          alphaCnpArrived := true, decreaseCnpArrived := true }).alphaTimes = [] from unused] at here
        exact absurd here (by simp))
    have decrease := alpha.schedule (numbers.alphaSet.schedule _ _) (fun e pending => by
        rcases List.mem_append.mp pending with old | new
        · rw [only e old]
          exact MlxTimer.noConfusion
        · rw [List.mem_singleton.mp new]
          exact MlxTimer.noConfusion) (@MlxTimer.noConfusion _ .decreaseRate .updateAlpha)
      (d.rateDecreaseInterval * 1000 + 1)
    exact decrease.same received (List.Sublist.refl _)
      (fun timer => by cases timer with | _ => rfl) rfl
  · exact told

theorem cnpReceivedMlx_first (first : s.q.mlx.firstCnp = true) (rate : Nat) :
    (s.cnpReceivedMlx d rate).q.mlx.handle .updateAlpha = some s.uid ∧
      (s.cnpReceivedMlx d rate).q.mlx.handle .decreaseRate = some (s.uid + 1) ∧
      ∀ e ∈ s.events, e ∈ (s.cnpReceivedMlx d rate).events := by
  unfold TimedQueuePair.cnpReceivedMlx
  simp only [first, if_true]
  exact ⟨rfl, rfl, fun e pending => List.mem_append_left _ (List.mem_append_left _ pending)⟩

/-- One handler keeps the property exactly under its condition. -/
theorem OneTimerEach.step (one : OneTimerEach d s) (numbered : Numbered s) (armed : Armed d s)
    {event : TimerEvent} {next : TimedQueuePair} (step : Step d s event next) :
    ArmedOnce s event ↔ OneTimerEach d next := by
  have numbers := numbered.step step
  cases step with
  | add qpMode id operation =>
      exact ⟨fun _ => one.same numbers (List.Sublist.refl _)
        (RatedQueuePair.reloadWith_handles _ _) rfl, fun _ => trivial⟩
  | send baseRtt packet =>
      exact ⟨fun _ => one.same numbers (List.Sublist.refl _)
        (RatedQueuePair.getNxtPacket_handles packet).1 rfl, fun _ => trivial⟩
  | @ack a next completion received =>
      have handles := (RatedQueuePair.receiveAck_handles received).1
      refine ⟨fun _ => ?_, fun _ => trivial⟩
      split
      · rename_i completed
        rw [if_pos completed] at numbers
        exact one.same numbers qpComplete_events handles rfl
      · rename_i incomplete
        rw [if_neg incomplete] at numbers
        exact one.same numbers (List.Sublist.refl _) handles rfl
  | cnp rate =>
      refine ⟨one.cnpReceivedMlx numbered armed rate, fun after first e pending => ?_⟩
      obtain ⟨alpha, decrease, kept⟩ := cnpReceivedMlx_first (d := d) first rate
      have mine := after.stored e (kept e pending)
      have below := numbered.fresh e pending
      cases timer : e.timer with
      | updateAlpha =>
          rw [timer, alpha] at mine
          have same := Option.some.inj mine
          omega
      | decreaseRate =>
          rw [timer, decrease] at mine
          have same := Option.some.inj mine
          omega
      | rateIncrease => rfl
  | rto due =>
      refine ⟨fun _ => one.same numbers (List.Sublist.refl _) (fun timer => ?_) rfl, fun _ => trivial⟩
      split
      · exact RatedQueuePair.reloadWith_handles _ _ timer
      · rfl
  | @fire e rate pending due =>
      refine ⟨fun _ => ?_, fun _ => trivial⟩
      have taken : Numbered (s.take e) := numbered.same rfl List.filter_sublist fun _ => rfl
      have left : OneTimerEach d (s.take e) :=
        one.same taken List.filter_sublist (fun _ => rfl) rfl
      have absent := Stored.taken one.stored pending
      unfold TimedQueuePair.run
      cases timer : e.timer with
      | updateAlpha =>
          rw [timer] at absent
          refine left.alpha taken absent fun last here => ?_
          obtain ⟨latest, there, time⟩ := one.next e pending timer
          rw [← Option.some.inj (there.symm.trans here), ← time, due]
          rfl
      | decreaseRate =>
          rw [timer] at absent
          exact left.checkRateDecreaseMlx taken absent rate
      | rateIncrease =>
          rw [timer] at absent
          have scheduled := left.schedule taken absent MlxTimer.noConfusion (d.rpgTimeReset * 1000)
          exact scheduled.same (taken.rateIncEventTimerMlx rate) (List.Sublist.refl _)
            (fun timer => by cases timer with | _ => rfl) rfl
  | wait forward before =>
      exact ⟨fun _ => one.same numbers (List.Sublist.refl _) (fun _ => rfl) rfl, fun _ => trivial⟩

theorem Numbered.create {q : RatedQueuePair} (new : ∀ timer, q.mlx.handle timer = none) :
    Numbered (create q) :=
  ⟨List.nodup_nil, fun _ member => absurd member List.not_mem_nil, fun timer uid stored => by
    rw [show (TimedQueuePair.create q).q.mlx.handle timer = none from new timer] at stored
    exact absurd stored.symm (Option.some_ne_none uid)⟩

/-- From a queue pair that has scheduled nothing, the timers are single all along a run exactly when
every CNP of it meets the condition. -/
theorem one_timer_each (d : DcqcnAttributes) (q : RatedQueuePair)
    (new : ∀ timer, q.mlx.handle timer = none)
    (entries : List (TimedQueuePair × TimerEvent)) (s : TimedQueuePair)
    (run : Run (Traced (Step d)) (create q) entries s) :
    (∀ entry ∈ entries, ArmedOnce entry.1 entry.2) ↔
      (∀ entry ∈ entries, OneTimerEach d entry.1) ∧ OneTimerEach d s := by
  have none : ∀ e : MlxEvent, e ∉ (create q).events := fun _ => List.not_mem_nil
  have first : OneTimerEach d (create q) :=
    OneTimerEach.of (Numbered.create new) (fun e member => absurd member (none e))
      List.isChain_nil (fun e member => absurd member (none e))
  exact run.traced_iff (fun state => Numbered state ∧ Armed d state) (OneTimerEach d) ArmedOnce
    ⟨Numbered.create new, .inl rfl⟩ first
    (fun _ _ _ books one step => ⟨books.1.step step, books.2.step books.1 one step⟩)
    fun _ _ _ books one step => one.step books.1 books.2 step

end Numbers

/-- A host that resets the rate with every message. -/
def resettingDcqcn : DcqcnAttributes where
  rdma := { qpModeSettings with resetQpRate := true }
  alphaResumeInterval := 1
  rateDecreaseInterval := 4
  rpgTimeReset := 300
  rpgThreshold := 1
  ecnClampTgtRate := false
  rai := 5
  rhai := 50
  dataRate := 100

def resettingQueuePair : RatedQueuePair :=
  RatedQueuePair.create resettingDcqcn.rdma 0 0 ((onePacket 1).operation 0)

theorem resettingQueuePair_new (timer : MlxTimer) :
    resettingQueuePair.mlx.handle timer = none := by
  cases timer with | _ => rfl

/-- A CNP and the first update of alpha after it. -/
theorem one_timer_each_first_update :
    ∃ (entries : List (TimedQueuePair × TimerEvent)) (s : TimedQueuePair),
      s.alphaTimes = [0, 1000] ∧
      ((∀ entry ∈ entries, ArmedOnce entry.1 entry.2) ↔
        (∀ entry ∈ entries, OneTimerEach resettingDcqcn entry.1) ∧
          OneTimerEach resettingDcqcn s) := by
  have told : Run (Traced (Step resettingDcqcn)) (create resettingQueuePair) _ _ :=
    Run.nil.told (Step.cnp 50)
  have waited := told.told (@Step.wait _ _ 1000 (by decide +kernel) (by decide +kernel))
  have updated := waited.told
    (@Step.fire _ _ ⟨0, .updateAlpha, 1000⟩ 50 (by decide +kernel) (by decide +kernel))
  exact ⟨_, _, by decide +kernel,
    one_timer_each resettingDcqcn resettingQueuePair resettingQueuePair_new _ _ updated⟩

/-- A CNP before and one after the end of a message start the timers twice. -/
theorem timers_doubled : ¬ ∀ (d : DcqcnAttributes) (q : RatedQueuePair),
    (∀ timer, q.mlx.handle timer = none) → ∀ labels s, Run (Step d) (create q) labels s →
    OneTimerEach d s := by
  intro claim
  have added : Run (Step resettingDcqcn) (create resettingQueuePair) _ _ :=
    Run.single (Step.add rfl 1 ((onePacket 2).operation 0))
  have told := added.snoc (Step.cnp 50)
  have sent := told.snoc (Step.send 0 rfl)
  have again := sent.snoc (Step.cnp 50)
  have one := claim resettingDcqcn resettingQueuePair resettingQueuePair_new _ _ again
  exact absurd (one.single .updateAlpha) (by decide +kernel)

end TimedQueuePair

end Floodgate
