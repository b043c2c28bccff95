import Floodgate.PortQueues

/-! Sequences of `Enqueue` and `DequeueRR` calls on the egress queue of a switch port. -/

namespace Floodgate

open Outcome LabelledRun RoundRobin

inductive QueueCall where
  | enqueue (p : Packet) (qIndex : Nat)
  | dequeueRR (paused : Nat → Bool)

inductive QueueAnswer where
  | accepted
  | refused
  | served (p : Packet) (qIndex : Nat)
  | nothing

namespace PortQueues

/-- One call and what it returns. There are `fCnt` sub-queues. -/
inductive Step (c : DeviceConfig) (e : PortQueues) : QueueCall × QueueAnswer → PortQueues → Prop
  | enqueue {p : Packet} {qIndex : Nat} (inside : qIndex < fCnt) :
      Step c e
        (.enqueue p qIndex, if (e.enqueue c p qIndex).1 then .accepted else .refused)
        (e.enqueue c p qIndex).2
  | served {paused : Nat → Bool} {p : Packet} {qIndex : Nat} {next : PortQueues}
      (result : e.dequeueRR c paused = .ok (some (p, qIndex, next))) :
      Step c e (.dequeueRR paused, .served p qIndex) next
  | nothing {paused : Nat → Bool} (result : e.dequeueRR c paused = .ok none) :
      Step c e (.dequeueRR paused, .nothing) e

/-- `m_bytesInQueueTotal + p->GetSize()` does not wrap. -/
def Fits (e : PortQueues) : QueueCall → Prop
  | .enqueue p _ => e.bytesInQueueTotal + p.size < Word32.size
  | .dequeueRR _ => True

def FitStep (c : DeviceConfig) (e : PortQueues) (label : QueueCall × QueueAnswer)
    (next : PortQueues) : Prop :=
  Step c e label next ∧ e.Fits label.1

end PortQueues

/-- The packets that `Enqueue` has accepted for a queue. -/
def acceptedFor (i : Nat) (labels : List (QueueCall × QueueAnswer)) : List Packet :=
  labels.filterMap fun
    | (.enqueue p qIndex, .accepted) => if qIndex = i then some p else none
    | _ => none

def servedFrom (i : Nat) (labels : List (QueueCall × QueueAnswer)) : List Packet :=
  labels.filterMap fun
    | (_, .served p qIndex) => if qIndex = i then some p else none
    | _ => none

/-- A packet of another queue than the first has been served. -/
def servesLower : QueueCall × QueueAnswer → Bool
  | (_, .served _ qIndex) => decide (qIndex ≠ 0)
  | _ => false

namespace PortQueues

/-- The counters, the order and the service of a port after a sequence of calls. -/
structure ServesFairly (c : DeviceConfig) (labels : List (QueueCall × QueueAnswer))
    (e : PortQueues) : Prop where
  counted : e.Exact
  fifo : ∀ i, acceptedFor i labels = servedFrom i labels ++ (e.queues i).packets
  returns : ∀ paused, ∃ answer, e.dequeueRR c paused = .ok answer
  nothing : ∀ paused, e.dequeueRR c paused = .ok none ↔ (e.queues 0).packets = [] ∧
    ∀ i < qCnt, (e.queues i).packets ≠ [] → paused i = true
  priority : ∀ paused p qIndex next, e.dequeueRR c paused = .ok (some (p, qIndex, next)) →
    qIndex ≠ 0 → (e.queues 0).packets = []
  fair : ∀ j, 0 < j → j < qCnt → (e.queues j).packets ≠ [] → ∀ more later,
    Run (FitStep c) e more later →
    (∀ paused answer, (QueueCall.dequeueRR paused, answer) ∈ more → paused j = false) →
    qCnt - 1 ≤ more.countP servesLower → ∃ p call, (call, QueueAnswer.served p j) ∈ more

section Histories

variable {c : DeviceConfig} {e next : PortQueues} {label : QueueCall × QueueAnswer}

theorem Exact.init : init.Exact := by
  refine ⟨fun _ => ⟨rfl, rfl, rfl⟩, fun _ => rfl, fun _ _ => rfl, ?_, rfl, ?_, by decide, by decide⟩
  · simp [PortQueues.init]
  · simp [PortQueues.init, DropTailQueue.init]

theorem Exact.step (counted : e.Exact) (limit : c.maxBytes ≤ dropTailMaxBytes)
    (step : FitStep c e label next) : next.Exact ∧
      ∀ i, (e.queues i).packets ++ acceptedFor i [label] =
        servedFrom i [label] ++ (next.queues i).packets := by
  obtain ⟨step, fits⟩ := step
  cases step with
  | @enqueue p qIndex inside =>
      obtain ⟨after, packets, others⟩ := counted.enqueued limit inside fits
      refine ⟨after, fun i => ?_⟩
      by_cases here : qIndex = i
      · subst here
        rw [packets]
        cases (e.enqueue c p qIndex).1 with
        | true => simp [acceptedFor, servedFrom]
        | false => simp [acceptedFor, servedFrom]
      · rw [others i (Ne.symm here)]
        cases (e.enqueue c p qIndex).1 with
        | true => simp [acceptedFor, servedFrom, here]
        | false => simp [acceptedFor, servedFrom]
  | @served paused p qIndex next result =>
      obtain ⟨-, kept, head, others, -⟩ := counted.served result
      refine ⟨kept, fun i => ?_⟩
      by_cases here : qIndex = i
      · subst here
        rw [head]
        simp [acceptedFor, servedFrom]
      · rw [others i (Ne.symm here)]
        simp [acceptedFor, servedFrom, here]
  | nothing result => exact ⟨counted, fun i => by simp [acceptedFor, servedFrom]⟩

theorem Exact.run (counted : e.Exact) (limit : c.maxBytes ≤ dropTailMaxBytes)
    {labels : List (QueueCall × QueueAnswer)} {later : PortQueues}
    (run : Run (FitStep c) e labels later) : later.Exact ∧
      ∀ i, (e.queues i).packets ++ acceptedFor i labels =
        servedFrom i labels ++ (later.queues i).packets := by
  refine run.history (fun labels state => state.Exact ∧
    ∀ i, (e.queues i).packets ++ acceptedFor i labels =
      servedFrom i labels ++ (state.queues i).packets) ?_ ?_
  · exact ⟨counted, fun i => by simp [acceptedFor, servedFrom]⟩
  · intro labels middle label finish _ earlier step
    obtain ⟨kept, moved⟩ := earlier.1.step limit step
    refine ⟨kept, fun i => ?_⟩
    have joined : ∀ first second : List (QueueCall × QueueAnswer),
        acceptedFor i (first ++ second) = acceptedFor i first ++ acceptedFor i second ∧
          servedFrom i (first ++ second) = servedFrom i first ++ servedFrom i second :=
      fun first second => ⟨List.filterMap_append, List.filterMap_append⟩
    rw [(joined labels [label]).1, (joined labels [label]).2, ← List.append_assoc, earlier.2 i,
      List.append_assoc, moved i, List.append_assoc]

/-- `DequeueRR` returns nothing when there is nothing that it may serve. -/
theorem Exact.nothing_iff (counted : e.Exact) (onQueue : c.pfcOnQueue = true)
    (paused : Nat → Bool) :
    e.dequeueRR c paused = .ok none ↔ (e.queues 0).packets = [] ∧
      ∀ i < qCnt, (e.queues i).packets ≠ [] → paused i = true := by
  have chosen : e.nextQueue c paused = none ↔ (e.queues 0).packets = [] ∧
      ∀ i < qCnt, (e.queues i).packets ≠ [] → paused i = true := by
    unfold nextQueue
    by_cases priority : (e.queues 0).nPackets > 0
    · rw [if_pos priority]
      have waits := (counted.filled 0).mp priority
      exact ⟨fun none => by contradiction, fun empty => absurd empty.1 waits⟩
    · have empty : (e.queues 0).packets = [] := by
        by_contra waiting
        exact priority ((counted.filled 0).mpr waiting)
      rw [if_neg priority, firstWanted_none]
      simp only [empty, true_and]
      refine forall_congr' fun i => imp_congr_right fun _ => ?_
      simp only [eligible, onQueue, if_true, Bool.and_eq_false_iff, Bool.not_eq_false',
        decide_eq_false_iff_not, counted.filled]
      constructor
      · exact fun either some => either.resolve_right fun none => none some
      · intro pauses
        by_cases some : (e.queues i).packets ≠ []
        · exact .inl (pauses some)
        · exact .inr some
  rw [← chosen]
  rcases counted.dequeued (c := c) paused with ⟨nothing, none⟩ | ⟨p, j, rest, taken, some, -⟩
  · exact iff_of_true nothing none
  · rw [taken, some]
    exact iff_of_false (by simp) (by simp)

end Histories

section Fairness

variable {c : DeviceConfig} {e next : PortQueues} {label : QueueCall × QueueAnswer} {j : Nat}

def isLower (qIndex : Nat) : Bool := decide (qIndex ≠ 0)

def waitsFor (e : PortQueues) (j : Nat) : Nat := (ahead isLower qCnt e.rrlast j).card

/-- While `j` waits, each packet of a lower queue that is served leaves fewer before it. -/
theorem Exact.waits (counted : e.Exact) (onQueue : c.pfcOnQueue = true) (below : j < qCnt)
    (some : (e.queues j).packets ≠ []) (step : Step c e label next)
    (unpaused : ∀ paused, label.1 = .dequeueRR paused → paused j = false)
    (other : ∀ p, label.2 ≠ .served p j) :
    next.waitsFor j + (if servesLower label then 1 else 0) ≤ e.waitsFor j := by
  cases step with
  | @enqueue p qIndex inside =>
      have same : (e.enqueue c p qIndex).2.rrlast = e.rrlast := by
        unfold enqueue
        split
        · rfl
        · rfl
      unfold waitsFor
      rw [same]
      cases (e.enqueue c p qIndex).1 with
      | true => simp [servesLower]
      | false => simp [servesLower]
  | @served paused p qIndex next result =>
      obtain ⟨chosen, -, -, -, rrlast⟩ := counted.served result
      obtain ⟨qBelow, -, first⟩ := counted.nextQueue_some chosen
      unfold waitsFor
      rw [rrlast]
      by_cases high : qIndex = 0
      · simp [servesLower, high]
      · have eligible : e.eligible c paused j = true := by
          have count : (e.queues j).nPackets > 0 := by
            rw [(counted.inner j).nPackets]
            exact List.length_pos_iff.mpr some
          simp [PortQueues.eligible, onQueue, unpaused paused rfl, count]
        have nearer := (first high).2 j below eligible
        have apart : qIndex ≠ j := by
          rintro rfl
          exact other p rfl
        have strictly : distance qCnt e.rrlast qIndex < distance qCnt e.rrlast j := by
          rcases Nat.lt_or_eq_of_le nearer with less | same
          · exact less
          · exact absurd (distance_inj qBelow below same) apart
        have isAhead : qIndex ∈ ahead isLower qCnt e.rrlast j :=
          Finset.mem_filter.mpr ⟨Finset.mem_range.mpr qBelow, by simp [isLower, high, strictly]⟩
        have fewer := Finset.card_lt_card (ahead_served below isAhead)
        have counted : servesLower (QueueCall.dequeueRR paused, QueueAnswer.served p qIndex) =
            true := decide_eq_true high
        rw [if_pos high, if_pos counted]
        omega
  | nothing result => simp [servesLower]

/-- No more lower queues are served before `j` than are visited before it. -/
theorem Exact.served_before (counted : e.Exact) (limit : c.maxBytes ≤ dropTailMaxBytes)
    (onQueue : c.pfcOnQueue = true) (below : j < qCnt) (some : (e.queues j).packets ≠ [])
    {more : List (QueueCall × QueueAnswer)} {later : PortQueues}
    (run : Run (FitStep c) e more later)
    (unpaused : ∀ paused answer, (QueueCall.dequeueRR paused, answer) ∈ more → paused j = false)
    (other : ∀ p call, (call, QueueAnswer.served p j) ∉ more) :
    later.waitsFor j + more.countP servesLower ≤ e.waitsFor j := by
  induction run with
  | nil => simp
  | @snoc labels middle finish label earlier last ih =>
      have before := ih
        (fun paused answer member => unpaused paused answer (List.mem_append_left _ member))
        fun p call member => other p call (List.mem_append_left _ member)
      obtain ⟨middleExact, moved⟩ := counted.run limit earlier
      have none : servedFrom j labels = [] := by
        apply List.filterMap_eq_nil_iff.mpr
        rintro ⟨call, answer⟩ member
        cases answer with
        | served p qIndex =>
            have apart : qIndex ≠ j := by
              rintro rfl
              exact other p call (List.mem_append_left _ member)
            simp [apart]
        | accepted => rfl
        | refused => rfl
        | nothing => rfl
      have waiting : (middle.queues j).packets ≠ [] := by
        have same := moved j
        rw [none, List.nil_append] at same
        rw [← same]
        simp [some]
      have step := middleExact.waits onQueue below waiting last.1
        (fun paused call => unpaused paused label.2
          (List.mem_append_right _ (List.mem_singleton.mpr (Prod.ext call.symm rfl))))
        fun p answer => other p label.1
          (List.mem_append_right _ (List.mem_singleton.mpr (Prod.ext rfl answer.symm)))
      rw [List.countP_append, List.countP_singleton]
      omega

theorem waitsFor_le (e : PortQueues) (positive : 0 < j) (below : j < qCnt) :
    e.waitsFor j ≤ qCnt - 2 := by
  have lower := Finset.card_le_card
    (@ahead_subset qCnt isLower e.rrlast j)
  have member : j ∈ (Finset.range qCnt).filter fun i => isLower i = true :=
    Finset.mem_filter.mpr ⟨Finset.mem_range.mpr below, decide_eq_true (by omega)⟩
  have all : ((Finset.range qCnt).filter fun i => isLower i = true).card = qCnt - 1 := by
    decide
  rw [Finset.card_erase_of_mem member, all] at lower
  unfold waitsFor
  omega

end Fairness

/-- Whatever is enqueued and dequeued under whatever pauses, a port counts, orders and serves its
packets as it should. -/
theorem serves_fairly (c : DeviceConfig) (onQueue : c.pfcOnQueue = true)
    (limit : c.maxBytes ≤ dropTailMaxBytes) (labels : List (QueueCall × QueueAnswer))
    (e : PortQueues) (run : Run (FitStep c) init labels e) : ServesFairly c labels e := by
  obtain ⟨counted, fifo⟩ := Exact.init.run limit run
  refine ⟨counted, fun i => ?_, fun paused => ?_, counted.nothing_iff onQueue,
    fun paused p qIndex next served lower => ?_,
    fun j positive below some more later goes unpaused enough => ?_⟩
  · have same := fifo i
    rwa [show (init.queues i).packets = [] from rfl, List.nil_append] at same
  · rcases counted.dequeued (c := c) paused with ⟨nothing, _⟩ | ⟨p, i, rest, taken, _⟩
    · exact ⟨_, nothing⟩
    · exact ⟨_, taken⟩
  · exact ((counted.nextQueue_some (counted.served served).1).2.2 lower).1
  · by_contra never
    have bound := counted.served_before limit onQueue below some goes unpaused
      fun p call member => never ⟨p, call, member⟩
    have most := waitsFor_le e positive below
    have size : 2 ≤ qCnt := by decide
    omega

def plainDevice : DeviceConfig where
  maxBytes := 1048576000
  pfcOnQueue := true
  qbbEnabled := true
  pauseTime := 5

theorem three_lt_qCnt : 3 < qCnt := by decide

def dataOf (size : Nat) (some : 0 < size) (word : size < Word32.size) : Packet where
  size := size
  sip := 1
  dip := 2
  pg := 3
  flowId := none
  body := .udp none none
  size_pos := some
  size_lt := word
  pg_lt := three_lt_qCnt

theorem thousand_lt : 1000 < Word32.size := by decide

theorem giga_lt : 1000000000 < Word32.size := by decide

theorem fourGiga_lt : 4000000000 < Word32.size := by decide

def usual : Packet := dataOf 1000 (Nat.succ_pos 999) thousand_lt

def large : Packet := dataOf 1000000000 (Nat.succ_pos 999999999) giga_lt

def giant : Packet := dataOf 4000000000 (Nat.succ_pos 3999999999) fourGiga_lt

theorem usual_fits (qIndex : Nat) : init.Fits (.enqueue usual qIndex) := thousand_lt

theorem plainDevice_limit : plainDevice.maxBytes ≤ dropTailMaxBytes := by decide

section Replay

variable (c : DeviceConfig) (e : PortQueues)

def answer : QueueCall → QueueAnswer
  | .enqueue p qIndex => if (e.enqueue c p qIndex).1 then .accepted else .refused
  | .dequeueRR paused =>
      match e.dequeueRR c paused with
      | .ok (some (p, qIndex, _)) => .served p qIndex
      | .ok none | .error _ => .nothing

def next : QueueCall → PortQueues
  | .enqueue p qIndex => (e.enqueue c p qIndex).2
  | .dequeueRR paused =>
      match e.dequeueRR c paused with
      | .ok (some (_, _, after)) => after
      | .ok none | .error _ => e

def takes : QueueCall → Bool
  | .enqueue p qIndex =>
      decide (qIndex < fCnt) && decide (e.bytesInQueueTotal + p.size < Word32.size)
  | .dequeueRR paused => (e.dequeueRR c paused).isOk

theorem takes_step {c : DeviceConfig} {e : PortQueues} {call : QueueCall}
    (taken : e.takes c call = true) : FitStep c e (call, e.answer c call) (e.next c call) := by
  cases call with
  | enqueue p qIndex =>
      obtain ⟨inside, fits⟩ := Bool.and_eq_true_iff.mp taken
      have within : e.bytesInQueueTotal + p.size < Word32.size := of_decide_eq_true fits
      exact ⟨.enqueue (of_decide_eq_true inside), within⟩
  | dequeueRR paused =>
      refine ⟨?_, trivial⟩
      cases result : e.dequeueRR c paused with
      | error failure => simp [takes, result, Except.isOk, Except.toBool] at taken
      | ok found =>
          cases found with
          | none =>
              simp only [answer, next, result]
              exact .nothing result
          | some served =>
              simp only [answer, next, result]
              exact .served result

def labelled (calls : List QueueCall) : List (QueueCall × QueueAnswer) :=
  replay (fun e call => (call, answer c e call)) (next c) e calls

theorem labelled_run {c : DeviceConfig} (calls : List QueueCall) {e : PortQueues}
    (all : executes (takes c) (next c) e calls = true) :
    Run (FitStep c) e (labelled c e calls) (calls.foldl (next c) e) := by
  have sound : ∀ (e : PortQueues) (call : QueueCall), True → e.takes c call = true →
      FitStep c e (call, e.answer c call) (e.next c call) ∧ True :=
    fun _ _ _ taken => ⟨takes_step taken, trivial⟩
  exact Run.replayed (fun _ => True) sound calls trivial all

end Replay

/-- Two packets for the first queue, two for queue 3, and one for queue 5, which goes first while
queue 3 is paused. -/
def threeQueues : List QueueCall :=
  [.enqueue usual 3, .enqueue usual 3, .enqueue usual 5, .enqueue usual 0, .enqueue usual 0,
    .dequeueRR fun _ => false, .dequeueRR fun _ => true, .dequeueRR fun qIndex => qIndex == 3,
    .dequeueRR fun _ => true, .dequeueRR fun _ => false]

theorem serves_fairly_three_queues : ∃ labels e,
    Run (FitStep plainDevice) init labels e ∧ ServesFairly plainDevice labels e ∧
      (labels.filterMap fun label => match label.2 with
        | .served _ qIndex => some qIndex
        | _ => none) = [0, 0, 5, 3] ∧
      ((e.queues 3).packets.map Packet.size) = [1000] := by
  have evaluated : executes (takes plainDevice) (next plainDevice) init threeQueues = true ∧
      ((labelled plainDevice init threeQueues).filterMap fun label => match label.2 with
        | .served _ qIndex => some qIndex
        | _ => none) = [0, 0, 5, 3] ∧
      (((threeQueues.foldl (next plainDevice) init).queues 3).packets.map Packet.size) =
        [1000] := by
    decide +kernel
  have run := labelled_run threeQueues evaluated.1
  exact ⟨_, _, run, serves_fairly plainDevice rfl plainDevice_limit _ _ run, evaluated.2⟩

/-- A packet with which the 32-bit total wraps is accepted and lost, and queues from the ninth on are
not served. -/
theorem wrapped_and_unserved :
    (¬ ∀ (c : DeviceConfig) (labels : List (QueueCall × QueueAnswer)) (e : PortQueues),
      c.pfcOnQueue = true → c.maxBytes ≤ dropTailMaxBytes → Run (Step c) init labels e →
      ∀ i, acceptedFor i labels = servedFrom i labels ++ (e.queues i).packets) ∧
    ¬ ∀ (c : DeviceConfig) (labels : List (QueueCall × QueueAnswer)) (e : PortQueues),
      c.pfcOnQueue = true → c.maxBytes ≤ dropTailMaxBytes → Run (FitStep c) init labels e →
      ∀ paused, e.dequeueRR c paused = .ok none ↔ (e.queues 0).packets = [] ∧
        ∀ i < fCnt, (e.queues i).packets ≠ [] → paused i = true := by
  constructor
  · intro claim
    have one := Run.single (@Step.enqueue plainDevice init large 1 (by decide))
    have two := one.snoc (@Step.enqueue plainDevice _ giant 2 (by decide))
    have same := congrArg List.length (claim plainDevice _ _ rfl plainDevice_limit two 2)
    exact absurd same (by decide +kernel)
  · intro claim
    have one := @Run.single _ _ (FitStep plainDevice) init _ _
      ⟨@Step.enqueue plainDevice init usual 8 (by decide), usual_fits 8⟩
    have told := (claim plainDevice _ _ rfl plainDevice_limit one fun _ => false).mp rfl
    exact absurd (told.2 8 (by decide) (List.cons_ne_nil usual [])) (by decide)

end PortQueues

end Floodgate
