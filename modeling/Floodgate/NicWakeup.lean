import Floodgate.HostNic
import Floodgate.RdmaFlow

/-! When the device of a host has a wake-up pending for every queue pair that could send. -/

namespace Floodgate

open Outcome LabelledRun

namespace HostNic

variable (c : NicConfig) (s : HostNic)

def Sendable (q : NicQp) : Prop := q.unblocked c s.paused = .ok true

instance (q : NicQp) : Decidable (s.Sendable c q) :=
  match eligible : q.unblocked c s.paused with
  | .ok true => isTrue eligible
  | .ok false => isFalse fun sendable => by
      rw [Sendable, eligible] at sendable
      contradiction
  | .error _ => isFalse fun sendable => by
      rw [Sendable, eligible] at sendable
      contradiction

def WokenBy (time : Int) : Prop := ∃ pending, s.nextSend = some pending ∧ pending ≤ time

/-- A device that is ready has an event no later than `m_nextAvail` of every queue pair that has
data, is not paused and not bound by its window. -/
def Awake : Prop := s.busy = false → ∀ q ∈ s.qps, s.Sendable c q → s.WokenBy q.nextAvail

def HasData (q : NicQp) : Prop := q.qp.getBytesLeft c.rdma ≠ 0

/-- The condition when `DequeueAndTransmit` is called. Where it finds no packet to send but a queue
pair that waits for its time, the pending event is early enough, or none is pending and every queue
pair with data waits, blocked ones too. -/
def Schedules : Prop :=
  s.busy = false → s.highPrioReady c = false →
  (∀ q ∈ s.qps, s.Sendable c q → s.now < q.nextAvail) → (∃ q ∈ s.qps, s.Sendable c q) →
  (∃ time, s.nextSend = some time ∧ ∀ q ∈ s.qps, s.Sendable c q → time ≤ q.nextAvail) ∨
    s.nextSend = none ∧ (∀ q ∈ s.qps, HasData c q → s.now < q.nextAvail) ∧
      ∃ q ∈ s.qps, HasData c q ∧ q.nextAvail < maximumSimulationTime

/-- The condition on an event without the call. A message that comes to a queue pair whose other
messages have all been sent is empty, or the queue pair is paused, or an event is pending. -/
def Quiet : NicEvent → Prop
  | .newMessage index _ id request => ∀ q, s.qps[index]? = some q → q.qp.rdmaMsgs = [] →
      s.busy = false → s.paused ((q.addMessage c s.now id request).pfcFine c) = false →
      Word32.trunc request.size ≠ 0 → s.WokenBy (if c.rdma.resetQpRate then 0 else q.nextAvail)
  | .pace index rate => ∀ q, s.qps[index]? = some q →
      s.busy = false → s.Sendable c (q.setRate rate) → s.WokenBy q.nextAvail
  | _ => True

def KeepsAwake (event : NicEvent) : Prop :=
  if s.calls c event then ∀ prepared, s.prepare c event = .ok prepared → prepared.Schedules c
  else s.Quiet c event

section Loop

variable {c s}

theorem Sendable.hasData {q : NicQp} (sendable : s.Sendable c q) : HasData c q := by
  intro empty
  unfold Sendable NicQp.unblocked at sendable
  simp [empty] at sendable

theorem mem_ring {q : NicQp} {index : Nat} :
    (q, index) ∈ s.ring ↔ s.qps[index]? = some q := by
  unfold ring
  rw [List.mem_rotate, List.mem_zipIdx_iff_getElem?]

theorem ring_covers {q : NicQp} (member : q ∈ s.qps) : ∃ index, (q, index) ∈ s.ring := by
  obtain ⟨index, found⟩ := List.mem_iff_getElem?.mp member
  exact ⟨index, mem_ring.mpr found⟩

/-- What the loop of `GetNextQindex` finds. -/
inductive Found (c : NicConfig) (s : HostNic) (items : List (NicQp × Nat)) : NextQueue → Prop
  | qp {q : NicQp} {index : Nat} (member : (q, index) ∈ items) (sendable : s.Sendable c q)
      (due : q.nextAvail ≤ s.now) : Found c s items (.qp q index)
  | none (waits : ∀ item ∈ items, s.Sendable c item.1 → s.now < item.1.nextAvail) :
      Found c s items .none

theorem firstReady_found (items : List (NicQp × Nat)) {next : NextQueue}
    (success : s.firstReady c items = .ok next) : Found c s items next := by
  induction items with
  | nil =>
      rw [← Except.ok.inj success]
      exact .none (by simp)
  | cons item rest ih =>
      obtain ⟨q, index⟩ := item
      unfold firstReady at success
      obtain ⟨unblocked, checked, success⟩ := bind_ok.mp success
      split at success
      · rename_i ready
        simp only [Bool.and_eq_true, Bool.not_eq_true', decide_eq_false_iff_not, not_lt] at ready
        rw [← Except.ok.inj success]
        exact .qp (by simp) (by rw [Sendable, checked, ready.1]) ready.2
      · rename_i blocked
        cases ih success with
        | qp member sendable due => exact .qp (List.mem_cons_of_mem _ member) sendable due
        | none waits =>
            refine .none fun item member sendable => ?_
            rcases List.mem_cons.mp member with rfl | later
            · rw [Sendable, checked] at sendable
              rw [Except.ok.inj sendable] at blocked
              simpa using blocked
            · exact waits item later sendable

end Loop

section Call

variable {c s} {next : HostNic}

theorem transmit_busy {q : NicQp} {index : Nat} (success : s.transmit c q index = .ok next) :
    next.busy = true := by
  unfold transmit at success
  obtain ⟨sent, _, success⟩ := bind_ok.mp success
  rw [← Except.ok.inj success]

theorem awake_of_busy (busy : s.busy = true) : s.Awake c := by
  intro ready
  rw [busy] at ready
  contradiction

theorem wokenBy_sleep {q : NicQp} (member : q ∈ s.qps) (sendable : s.Sendable c q) :
    (s.sleep c).WokenBy q.nextAvail ↔ s.WokenBy q.nextAvail ∨
      s.nextSend = none ∧ s.now < s.soonest c ∧ s.soonest c < maximumSimulationTime := by
  unfold sleep
  split
  · rename_i schedules
    have early : s.soonest c ≤ q.nextAvail := Earliest.leastOf_le member sendable.hasData
    exact ⟨fun _ => .inr ⟨schedules.1, schedules.2.2, schedules.2.1⟩, fun _ => ⟨_, rfl, early⟩⟩
  · rename_i stays
    constructor
    · exact .inl
    · rintro (woken | ⟨idle, later, bounded⟩)
      · exact woken
      · exact absurd ⟨idle, bounded, later⟩ stays

theorem sleep_rest :
    (s.sleep c).busy = s.busy ∧ (s.sleep c).qps = s.qps ∧ (s.sleep c).paused = s.paused := by
  unfold sleep
  split
  · exact ⟨rfl, rfl, rfl⟩
  · exact ⟨rfl, rfl, rfl⟩

theorem soonest_between : s.now < s.soonest c ∧ s.soonest c < maximumSimulationTime ↔
    (∀ q ∈ s.qps, HasData c q → s.now < q.nextAvail) ∧
      ∃ q ∈ s.qps, HasData c q ∧ q.nextAvail < maximumSimulationTime := by
  unfold soonest
  rw [Earliest.lt_leastOf, Earliest.leastOf_lt]
  constructor
  · rintro ⟨⟨_, waits⟩, impossible | found⟩
    · exact absurd impossible (lt_irrefl _)
    · exact ⟨waits, found⟩
  · rintro ⟨waits, q, member, data, bounded⟩
    exact ⟨⟨(waits q member data).trans bounded, waits⟩, .inr ⟨q, member, data, bounded⟩⟩

theorem sleep_awake (ready : s.busy = false) (low : s.highPrioReady c = false)
    (waits : ∀ q ∈ s.qps, s.Sendable c q → s.now < q.nextAvail) :
    s.Schedules c ↔ (s.sleep c).Awake c := by
  obtain ⟨busy, qps, paused⟩ := @sleep_rest c s
  have same : ∀ q, (s.sleep c).Sendable c q ↔ s.Sendable c q := fun q => by
    unfold Sendable
    rw [paused]
  unfold Schedules Awake
  rw [busy, qps]
  simp only [same, ready, low, true_implies]
  constructor
  · intro schedules q member sendable
    rw [wokenBy_sleep member sendable]
    rcases schedules waits ⟨q, member, sendable⟩ with ⟨time, pending, early⟩ | ⟨idle, between⟩
    · exact .inl ⟨time, pending, early q member sendable⟩
    · exact .inr ⟨idle, soonest_between.mpr between⟩
  · rintro awake _ ⟨q, member, sendable⟩
    cases pending : s.nextSend with
    | some time =>
        refine .inl ⟨time, rfl, fun other found eligible => ?_⟩
        rcases (wokenBy_sleep found eligible).mp (awake other found eligible) with
          ⟨earlier, same, early⟩ | ⟨idle, _⟩
        · rw [pending] at same
          rw [Option.some.inj same]
          exact early
        · rw [pending] at idle
          contradiction
    | none =>
        rcases (wokenBy_sleep member sendable).mp (awake q member sendable) with
          ⟨earlier, same, _⟩ | ⟨_, between⟩
        · rw [pending] at same
          contradiction
        · exact .inr ⟨rfl, soonest_between.mp between⟩

/-- `DequeueAndTransmit` leaves the device awake exactly under the condition. -/
theorem dequeueAndTransmit_awake (success : s.dequeueAndTransmit c = .ok next) :
    s.Schedules c ↔ next.Awake c := by
  unfold dequeueAndTransmit at success
  cases busy : s.busy with
  | true =>
      rw [if_pos busy] at success
      rw [← Except.ok.inj success]
      refine iff_of_true (fun ready => ?_) (awake_of_busy busy)
      rw [busy] at ready
      contradiction
  | false =>
      rw [if_neg (by simp [busy])] at success
      obtain ⟨chosen, search, success⟩ := bind_ok.mp success
      unfold getNextQindex at search
      split at search
      · rename_i high
        rw [← Except.ok.inj search] at success
        rw [← Except.ok.inj success]
        refine iff_of_true (fun _ low => ?_) (awake_of_busy rfl)
        rw [high] at low
        contradiction
      · rename_i low
        cases firstReady_found _ search with
        | @qp q index member sendable due =>
            refine iff_of_true (fun _ _ waits => ?_) (awake_of_busy (transmit_busy success))
            have found := List.mem_of_getElem? (mem_ring.mp member)
            exact absurd (waits q found sendable) (not_lt.mpr due)
        | none waits =>
            rw [← Except.ok.inj success]
            refine sleep_awake busy (by simpa using low) fun q member sendable => ?_
            obtain ⟨index, inRing⟩ := ring_covers member
            exact waits _ inRing sendable

end Call

section Silent

variable {c s} {next : HostNic} {q r : NicQp} {index : Nat}

theorem unblocked_congr {paused : Nat → Bool} (pg : r.pg = q.pg)
    (current : r.qp.current = q.qp.current) (pacing : r.qp.pacing = q.qp.pacing) :
    r.unblocked c paused = q.unblocked c paused := by
  unfold NicQp.unblocked NicQp.pfcFine RdmaQueuePair.isWinBound RdmaQueuePair.getOnTheFly
    RdmaQueuePair.getBytesLeft
  rw [pg, current, pacing]

/-- An event that changes one queue pair and calls nothing leaves the device awake exactly when it
is awake for that queue pair. -/
theorem setQp_awake (awake : s.Awake c) (found : s.qps[index]? = some q) :
    (s.setQp index r).Awake c ↔
      (s.busy = false → s.Sendable c r → s.WokenBy r.nextAvail) := by
  obtain ⟨bound, _⟩ := List.getElem?_eq_some_iff.mp found
  constructor
  · exact fun stays ready sendable => stays ready r (List.mem_set bound r) sendable
  · intro woken ready other member sendable
    rcases List.mem_or_eq_of_mem_set member with old | rfl
    · exact awake ready other old sendable
    · exact woken ready sendable

theorem setQp_awake_same (awake : s.Awake c) (found : s.qps[index]? = some q)
    (same : r.unblocked c s.paused = q.unblocked c s.paused) (time : r.nextAvail = q.nextAvail) :
    (s.setQp index r).Awake c := by
  rw [setQp_awake awake found, time]
  unfold Sendable
  rw [same]
  exact fun ready sendable => awake ready q (List.mem_of_getElem? found) sendable

theorem pause_awake (awake : s.Awake c) (fine : Nat) :
    ({ s with paused := fun i => i = fine || s.paused i } : HostNic).Awake c := by
  intro ready q member sendable
  refine awake ready q member ?_
  unfold Sendable NicQp.unblocked at sendable ⊢
  cases open' : s.paused (q.pfcFine c) with
  | true => simp [open'] at sendable
  | false =>
      by_cases chosen : q.pfcFine c = fine
      · simp [chosen] at sendable
      · simpa [open', chosen] using sendable

theorem timeout_same (mode : c.rdma.qpMode = true) (none : q.overdue c s.now = false) :
    (q.timeout c s.now).unblocked c s.paused = q.unblocked c s.paused ∧
      (q.timeout c s.now).nextAvail = q.nextAvail := by
  have late : q.qp.rdmaMsgsUnfinished.filter (q.qp.overdue c.rdma s.now) = [] := by
    rw [List.filter_eq_nil_iff]
    exact List.any_eq_false.mp none
  unfold NicQp.timeout NicQp.loaded
  rw [if_pos mode, none]
  refine ⟨unblocked_congr rfl ?_ ?_, by simp⟩
  · unfold RdmaQueuePair.recoverMSG
    simp [late, RdmaQueuePair.recoverAll]
  · unfold RdmaQueuePair.recoverMSG
    simp [late, RdmaQueuePair.recoverAll]

section NewMessage

variable {id : Nat} {request : MessageRequest}

theorem addMessage_behind (behind : q.qp.rdmaMsgs ≠ []) :
    (q.addMessage c s.now id request).unblocked c s.paused = q.unblocked c s.paused ∧
      (q.addMessage c s.now id request).nextAvail = q.nextAvail := by
  have longer : ¬(q.qp.rdmaMsgs ++ [id]).length = 1 := by simpa using behind
  unfold NicQp.addMessage NicQp.loaded RdmaQueuePair.addRdmaOperation
  rw [if_neg longer]
  exact ⟨unblocked_congr rfl rfl rfl, by simp [behind]⟩

theorem operation_unbound {g : RdmaSettings} {now : Nat} {qp : RdmaQueuePair}
    (current : qp.current = (request.operation now).status) : qp.isWinBound g = .ok false := by
  have nothing : qp.getOnTheFly g = .ok 0 := by
    unfold RdmaQueuePair.getOnTheFly MsgStatus.getOnTheFly
    rw [current]
    simp [MessageRequest.operation, MsgStatus.psnBytes, sub64, Word32.trunc]
  unfold RdmaQueuePair.isWinBound
  rw [nothing]
  split
  · rfl
  · rename_i window
    simp only [ok_bind, ge_iff_le, Nat.le_zero]
    rw [decide_eq_false window]

theorem addMessage_first (first : q.qp.rdmaMsgs = []) :
    (s.Sendable c (q.addMessage c s.now id request) ↔
      s.paused ((q.addMessage c s.now id request).pfcFine c) = false ∧
        Word32.trunc request.size ≠ 0) ∧
      (q.addMessage c s.now id request).nextAvail =
        if c.rdma.resetQpRate then 0 else q.nextAvail := by
  have current : (q.addMessage c s.now id request).qp.current =
      (request.operation s.now).status := by
    simp [NicQp.addMessage, NicQp.loaded, RdmaQueuePair.addRdmaOperation, first,
      RdmaQueuePair.loadQPStatus, RdmaQueuePair.setOperation]
  have left : (q.addMessage c s.now id request).qp.getBytesLeft c.rdma =
      Word32.trunc request.size := by
    unfold RdmaQueuePair.getBytesLeft MsgStatus.getBytesLeft
    rw [current]
    simp [MessageRequest.operation]
  refine ⟨?_, by simp [NicQp.addMessage, NicQp.loaded, first]⟩
  unfold Sendable NicQp.unblocked
  rw [operation_unbound current, left]
  cases s.paused ((q.addMessage c s.now id request).pfcFine c) with
  | true => simp
  | false => by_cases empty : Word32.trunc request.size = 0 <;> simp [empty]

end NewMessage

theorem silent_awake {event : NicEvent} (awake : s.Awake c) (enabled : s.possible event = true)
    (silent : s.calls c event = false) (success : s.prepare c event = .ok next) :
    s.Quiet c event ↔ next.Awake c := by
  cases event with
  | pause fine =>
      rw [← Except.ok.inj success]
      exact iff_of_true trivial (pause_awake awake fine)
  | wait later =>
      rw [← Except.ok.inj success]
      exact iff_of_true trivial awake
  | pace index rate =>
      have bound : index < s.qps.length := of_decide_eq_true enabled
      have found := List.getElem?_eq_getElem bound
      simp only [prepare, onQp, found, Except.ok.injEq] at success
      rw [← success, setQp_awake awake found]
      simp only [Quiet, found, Option.some.injEq, forall_eq']
      exact Iff.rfl
  | timeout index =>
      refine iff_of_true trivial ?_
      simp only [prepare, onQp] at success
      cases found : s.qps[index]? with
      | none => simp [possible, found] at enabled
      | some q =>
          simp only [calls, found, Option.any_some, Bool.or_eq_false_iff, Bool.not_eq_false']
            at silent
          rw [found] at success
          obtain ⟨same, time⟩ := timeout_same silent.1 silent.2
          rw [← Except.ok.inj success]
          exact setQp_awake_same awake found same time
  | newMessage index win id request =>
      simp only [prepare, onQp] at success
      cases found : s.qps[index]? with
      | none =>
          have bound : index < s.qps.length := of_decide_eq_true enabled
          exact absurd (List.getElem?_eq_none_iff.mp found) (not_le.mpr bound)
      | some q =>
          simp only [calls, found, Option.any_some, decide_eq_false_iff_not] at silent
          rw [found] at success
          simp only [if_neg silent] at success
          have kept : ({ s with winInitial := win } : HostNic).Awake c := awake
          rw [← Except.ok.inj success]
          simp only [Quiet, found, Option.some.injEq, forall_eq']
          by_cases first : q.qp.rdmaMsgs = []
          · obtain ⟨eligible, time⟩ := @addMessage_first c s q id request first
            rw [setQp_awake kept found, time]
            unfold Sendable at eligible ⊢
            rw [eligible]
            exact ⟨fun quiet ready able => quiet first ready able.1 able.2,
              fun woken _ ready open' filled => woken ready ⟨open', filled⟩⟩
          · obtain ⟨same, time⟩ := @addMessage_behind c s q id request first
            exact iff_of_true (fun none => absurd none first)
              (setQp_awake_same kept found same time)
  | _ => simp [calls] at silent

end Silent

/-- One event leaves the device awake exactly under its condition. -/
theorem step_awake {c : NicConfig} {s next : HostNic} {event : NicEvent} (awake : s.Awake c)
    (step : s.Step c event next) : s.KeepsAwake c event ↔ next.Awake c := by
  obtain ⟨enabled, success⟩ := step
  unfold handle at success
  obtain ⟨prepared, ready, success⟩ := bind_ok.mp success
  unfold KeepsAwake
  cases called : s.calls c event with
  | true =>
      rw [called, if_pos rfl] at success
      rw [if_pos rfl, ← dequeueAndTransmit_awake success, ready]
      simp only [Except.ok.injEq, forall_eq']
  | false =>
      rw [called, if_neg Bool.false_ne_true] at success
      rw [if_neg Bool.false_ne_true, ← Except.ok.inj success]
      exact silent_awake awake enabled called ready

/-- Every run of a device keeps a wake-up pending for whatever it could send exactly when each of
its events keeps the condition. -/
theorem nic_stays_awake {c : NicConfig} {entries : List (HostNic × NicEvent)} {finish : HostNic}
    (run : Run (Traced (Step c)) init entries finish) :
    (∀ entry ∈ entries, entry.1.KeepsAwake c entry.2) ↔
      (∀ entry ∈ entries, entry.1.Awake c) ∧ finish.Awake c :=
  run.traced_iff (fun _ => True) (Awake c) (fun s event => s.KeepsAwake c event) trivial
    (fun _ _ member => absurd member (by simp [init])) (fun _ _ _ _ _ _ => trivial)
    fun _ _ _ _ awake step => step_awake awake step

def after (c : NicConfig) (s : HostNic) (event : NicEvent) : HostNic :=
  match s.handle c event with
  | .ok next => next
  | .error _ => s

def takes (c : NicConfig) (s : HostNic) (event : NicEvent) : Bool :=
  s.possible event && (s.handle c event).isOk

theorem takes_step {c : NicConfig} (s : HostNic) (event : NicEvent)
    (taken : s.takes c event = true) : s.Step c event (s.after c event) := by
  obtain ⟨enabled, success⟩ := Bool.and_eq_true_iff.mp taken
  refine ⟨enabled, ?_⟩
  unfold after
  cases result : s.handle c event with
  | ok next => rfl
  | error _ => simp [result, Except.isOk, Except.toBool] at success

/-- A device of eight bits in a nanosecond, with the 114 bytes of headers that HPCC has: 38 of PPP, 20
of IPv4, 8 of UDP, 6 of `SeqTsHeader` and 42 of INT. -/
def fastNic : NicConfig where
  rdma := { RdmaFlow.singlePath with initial := ⟨0, false, 8, 8⟩ }
  pfcOnQueue := true
  rateBound := true
  ackQIdx := 0
  interframeGap := 0
  headerSize := 114
  txTime := fun rate size => ((size * 8 / rate : Nat) : Int)

def flowOf (packets : Nat) : MessageRequest := ⟨packets * 1000, 0, 0, 0, 0, 0, 0⟩

def onePacketFlow : List NicEvent := [.newQp 0 3 0 (flowOf 1), .wait 1114, .transmitComplete]

theorem nic_stays_awake_one_packet : ∃ entries finish,
    Run (Traced (Step fastNic)) init entries finish ∧ entries.map Prod.snd = onePacketFlow ∧
      ((∀ entry ∈ entries, entry.1.KeepsAwake fastNic entry.2) ↔
        (∀ entry ∈ entries, entry.1.Awake fastNic) ∧ finish.Awake fastNic) := by
  have run := Run.executed (@takes_step fastNic) onePacketFlow
    (show executes (takes fastNic) (after fastNic) init onePacketFlow = true by decide +kernel)
  obtain ⟨entries, told, same⟩ := run.traced
  exact ⟨entries, _, told, same, nic_stays_awake told⟩

/-- The second flow sends two packets while the first is paused. Then an acknowledgement halves its
rate. -/
def slowedFlow : List NicEvent :=
  [.newQp 0 3 0 (flowOf 2), .pause 3, .newQp 0 4 1 (flowOf 3), .wait 1114, .transmitComplete,
    .wait 2228, .transmitComplete, .wait 2500, .ack 1 ⟨1000, false, 0, false⟩ (.changeRate 4),
    .wait 3342, .transmitComplete]

/-- A paused flow with data, whose `m_nextAvail` has passed, keeps the device from waiting for
another flow. -/
theorem paused_flow_hides_wakeup : ¬ ∀ (c : NicConfig) (events : List NicEvent) (finish : HostNic),
    Run (Step c) init events finish → (∀ index rate, .pace index rate ∉ events) →
      finish.Awake c := by
  intro claim
  have run := Run.executed (@takes_step fastNic) slowedFlow
    (show executes (takes fastNic) (after fastNic) init slowedFlow = true by decide +kernel)
  have awake := claim fastNic slowedFlow _ run (by simp [slowedFlow])
  have ready : (slowedFlow.foldl (after fastNic) init).busy = false := by decide +kernel
  have asleep : (slowedFlow.foldl (after fastNic) init).nextSend = none := by decide +kernel
  have waiting : ∃ q ∈ (slowedFlow.foldl (after fastNic) init).qps,
      (slowedFlow.foldl (after fastNic) init).Sendable fastNic q := by decide +kernel
  obtain ⟨q, member, sendable⟩ := waiting
  obtain ⟨time, pending, _⟩ := awake ready q member sendable
  rw [asleep] at pending
  contradiction

end HostNic

end Floodgate
