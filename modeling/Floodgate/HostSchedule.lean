import Floodgate.HostNic
import Floodgate.Library.RoundRobin
import Floodgate.RdmaFlow

/-! Which queue of a host is served next. One array of pauses is indexed by priority, by destination
or by the class of acknowledgements. -/

namespace Floodgate

open Outcome LabelledRun RoundRobin

structure NicQp.Ready (c : NicConfig) (now : Nat) (paused : Nat → Bool) (q : NicQp) : Prop where
  bytesLeft : 0 < q.qp.getBytesLeft c.rdma
  unpaused : paused (q.pfcFine c) = false
  unbound : q.qp.isWinBound c.rdma = .ok false
  available : q.nextAvail ≤ now

def NextQueue.code : NextQueue → Int
  | .highPrio => -1
  | .qp _ index => index
  | .none => -1024

namespace HostNic

variable (c : NicConfig) (s : HostNic)

/-- The loop of `GetNextQindex` with `rounds` rounds to go. `m_rrlast` is an index of queue pairs,
of earlier ones perhaps: its sum with `qIndex` does not wrap. -/
def scan : Nat → Nat → Except RdmaAssertion Int
  | 0, _ => .ok (-1024)
  | rounds + 1, qIndex =>
      let index := (qIndex + s.rrlast) % s.qps.length
      match s.qps[index]? with
      | none => .ok (-1024)
      | some q => do
          let unblocked ← q.unblocked c s.paused
          if unblocked && !decide (q.nextAvail > s.now) then .ok index
          else scan rounds (qIndex + 1)

def nextQindex : Except RdmaAssertion Int :=
  if s.highPrioReady c then .ok (-1) else s.scan c s.qps.length 1

/-- The class of acknowledgements is paused: pauses of destinations mean data. -/
def ackPaused : Bool := c.pfcOnQueue && s.paused c.ackQIdx

def ReadyAt (index : Nat) : Prop := ∃ q, s.qps[index]? = some q ∧ q.Ready c s.now s.paused

/-- The first in cyclic order after `m_rrlast` that may be served. -/
structure FirstReady (index : Nat) : Prop where
  ready : s.ReadyAt c index
  first : ∀ other < s.qps.length,
    distance s.qps.length s.rrlast other < distance s.qps.length s.rrlast index →
      ¬ s.ReadyAt c other

def NoAssertion : Prop := ∀ q ∈ s.qps, ∃ bound, q.qp.isWinBound c.rdma = .ok bound

structure Scheduled : Prop where
  ack : s.nextQindex c = .ok (-1) ↔ 0 < s.ackQ ∧ s.ackPaused c = false
  returns : s.NoAssertion c → ∃ qIndex, s.nextQindex c = .ok qIndex
  qp : s.NoAssertion c → s.nextQindex c ≠ .ok (-1) →
    ∀ index : Nat, s.nextQindex c = .ok (index : Int) ↔ s.FirstReady c index
  none : s.NoAssertion c → s.nextQindex c ≠ .ok (-1) →
    (s.nextQindex c = .ok (-1024) ↔ ∀ index, ¬ s.ReadyAt c index)

section Scan

variable {c : NicConfig} {s : HostNic}

theorem unblocked_iff {q : NicQp} {unblocked : Bool}
    (success : q.unblocked c s.paused = .ok unblocked) :
    (unblocked && !decide (q.nextAvail > s.now)) = true ↔ q.Ready c s.now s.paused := by
  unfold NicQp.unblocked at success
  constructor
  · intro chosen
    obtain ⟨free, now⟩ := Bool.and_eq_true_iff.mp chosen
    rw [free] at success
    split at success
    · simp at success
    · rename_i open_
      simp only [Bool.or_eq_true, decide_eq_true_eq, not_or, Bool.not_eq_true] at open_
      obtain ⟨bound, known, last⟩ := bind_ok.mp success
      have unbound : bound = false := by simpa using last
      rw [unbound] at known
      refine ⟨Nat.pos_of_ne_zero open_.2, open_.1, known, ?_⟩
      simpa using now
  · intro ready
    have left := ready.bytesLeft
    rw [ready.unpaused, if_neg (by simp; omega), ready.unbound, ok_bind] at success
    rw [← Except.ok.inj success]
    simpa using ready.available

theorem unblocked_returns {q : NicQp} (known : ∃ bound, q.qp.isWinBound c.rdma = .ok bound) :
    ∃ unblocked, q.unblocked c s.paused = .ok unblocked := by
  obtain ⟨bound, known⟩ := known
  unfold NicQp.unblocked
  split
  · exact ⟨_, rfl⟩
  · rw [known, ok_bind]
    exact ⟨_, rfl⟩

/-- What the rounds of the loop from the `k`-th on find. -/
inductive Scanned (c : NicConfig) (s : HostNic) (k : Nat) : Int → Prop
  | found (later : Nat) (from_ : k ≤ later) (below : later < s.qps.length)
      (ready : s.ReadyAt c (place s.qps.length s.rrlast later))
      (first : ∀ i, k ≤ i → i < later → ¬ s.ReadyAt c (place s.qps.length s.rrlast i)) :
      Scanned c s k (place s.qps.length s.rrlast later)
  | nothing (none : ∀ i, k ≤ i → i < s.qps.length →
      ¬ s.ReadyAt c (place s.qps.length s.rrlast i)) : Scanned c s k (-1024)

theorem scan_scanned (rounds k : Nat) (total : k + rounds = s.qps.length) {qIndex : Int}
    (success : s.scan c rounds (k + 1) = .ok qIndex) : Scanned c s k qIndex := by
  induction rounds generalizing k with
  | zero =>
      obtain rfl := Except.ok.inj success
      exact .nothing fun i start below => by omega
  | succ rounds ih =>
      have below : place s.qps.length s.rrlast k < s.qps.length := place_lt (by omega) k
      have here : s.qps[place s.qps.length s.rrlast k]? =
          some s.qps[place s.qps.length s.rrlast k] := List.getElem?_eq_getElem below
      unfold scan at success
      simp only at success
      unfold place at here
      rw [here] at success
      obtain ⟨unblocked, known, success⟩ := bind_ok.mp success
      have test := unblocked_iff known
      split at success
      · rename_i chosen
        obtain rfl := Except.ok.inj success
        exact .found k (Nat.le_refl k) (by omega) ⟨_, here, test.mp chosen⟩
          fun i start before => by omega
      · rename_i passed
        have notReady : ¬ s.ReadyAt c (place s.qps.length s.rrlast k) := by
          intro ready
          obtain ⟨q, there, ready⟩ := ready
          have same : s.qps[(k + 1 + s.rrlast) % s.qps.length] = q :=
            Option.some.inj (here.symm.trans there)
          exact passed (test.mpr (same ▸ ready))
        cases ih (k + 1) (by omega) success with
        | found later start bound ready first =>
            refine .found later (by omega) bound ready fun i start before => ?_
            by_cases same : i = k
            · rw [same]
              exact notReady
            · exact first i (by omega) before
        | nothing none =>
            refine .nothing fun i start bound => ?_
            by_cases same : i = k
            · rw [same]
              exact notReady
            · exact none i (by omega) bound

theorem scan_returns (rounds qIndex : Nat) (known : s.NoAssertion c) :
    ∃ found, s.scan c rounds qIndex = .ok found := by
  induction rounds generalizing qIndex with
  | zero => exact ⟨_, rfl⟩
  | succ rounds ih =>
      unfold scan
      simp only
      cases here : s.qps[(qIndex + s.rrlast) % s.qps.length]? with
      | none => exact ⟨_, rfl⟩
      | some q =>
          obtain ⟨unblocked, test⟩ := unblocked_returns (s := s)
            (known q (List.mem_of_getElem? here))
          simp only [test, ok_bind]
          split
          · exact ⟨_, rfl⟩
          · exact ih (qIndex + 1)

theorem readyAt_place {index : Nat} (ready : s.ReadyAt c index) :
    index < s.qps.length ∧
      place s.qps.length s.rrlast (distance s.qps.length s.rrlast index) = index := by
  obtain ⟨q, here, _⟩ := ready
  obtain ⟨below, _⟩ := List.getElem?_eq_some_iff.mp here
  exact ⟨below, place_distance below⟩

theorem Scanned.firstReady {index : Nat} (scanned : Scanned c s 0 (index : Int)) :
    s.FirstReady c index := by
  generalize value : (index : Int) = found at scanned
  cases scanned with
  | found later start below ready first =>
      obtain rfl : index = place s.qps.length s.rrlast later := by omega
      refine ⟨ready, fun other bound nearer isReady => ?_⟩
      rw [distance_place below] at nearer
      have unready := first _ (Nat.zero_le _) nearer
      rw [place_distance bound] at unready
      exact unready isReady
  | nothing none => omega

theorem Scanned.none_ready (scanned : Scanned c s 0 (-1024)) (index : Nat) :
    ¬ s.ReadyAt c index := by
  intro ready
  obtain ⟨below, same⟩ := readyAt_place ready
  generalize value : (-1024 : Int) = found at scanned
  cases scanned with
  | found later start bound others first => omega
  | nothing none =>
      have unready := none (distance s.qps.length s.rrlast index) (Nat.zero_le _)
        (distance_lt (by omega) index)
      rw [same] at unready
      exact unready ready

theorem Scanned.value {k : Nat} {qIndex : Int} (scanned : Scanned c s k qIndex) :
    qIndex = -1024 ∨ ∃ index : Nat, qIndex = index := by
  cases scanned with
  | found later start below ready first => exact .inr ⟨_, rfl⟩
  | nothing none => exact .inl rfl

theorem FirstReady.unique {first second : Nat} (one : s.FirstReady c first)
    (other : s.FirstReady c second) : first = second := by
  obtain ⟨firstBelow, firstPlace⟩ := readyAt_place one.ready
  obtain ⟨secondBelow, secondPlace⟩ := readyAt_place other.ready
  have notBefore : ¬ distance s.qps.length s.rrlast second < distance s.qps.length s.rrlast first :=
    fun nearer => one.first second secondBelow nearer other.ready
  have notAfter : ¬ distance s.qps.length s.rrlast first < distance s.qps.length s.rrlast second :=
    fun nearer => other.first first firstBelow nearer one.ready
  have same : distance s.qps.length s.rrlast first = distance s.qps.length s.rrlast second := by
    omega
  rw [← firstPlace, same, secondPlace]

theorem nextQindex_ack : s.nextQindex c = .ok (-1) ↔ s.highPrioReady c = true := by
  unfold nextQindex
  by_cases prio : s.highPrioReady c = true
  · rw [if_pos prio]
    exact iff_of_true rfl prio
  · rw [if_neg prio]
    refine iff_of_false (fun success => ?_) prio
    rcases (scan_scanned s.qps.length 0 (by omega) success).value with same | ⟨index, same⟩
    · omega
    · omega

theorem nextQindex_scan (other : s.nextQindex c ≠ .ok (-1)) :
    s.nextQindex c = s.scan c s.qps.length 1 := by
  have prio : ¬ s.highPrioReady c = true := fun ready => other (nextQindex_ack.mpr ready)
  unfold nextQindex
  rw [if_neg prio]

theorem nextQindex_returns (known : s.NoAssertion c) :
    ∃ qIndex, s.nextQindex c = .ok qIndex := by
  unfold nextQindex
  split
  · exact ⟨_, rfl⟩
  · exact scan_returns s.qps.length 1 known

theorem nextQindex_qp (known : s.NoAssertion c) (other : s.nextQindex c ≠ .ok (-1))
    (index : Nat) : s.nextQindex c = .ok (index : Int) ↔ s.FirstReady c index := by
  obtain ⟨found, success⟩ := nextQindex_returns known
  have scanned : Scanned c s 0 found := by
    rw [nextQindex_scan other] at success
    exact scan_scanned s.qps.length 0 (by omega) success
  rw [success, Except.ok.injEq]
  constructor
  · intro same
    rw [same] at scanned
    exact scanned.firstReady
  · intro first
    rcases scanned.value with nothing | ⟨place, same⟩
    · rw [nothing] at scanned
      exact absurd first.ready (scanned.none_ready index)
    · rw [same] at scanned ⊢
      rw [scanned.firstReady.unique first]

theorem nextQindex_none (known : s.NoAssertion c) (other : s.nextQindex c ≠ .ok (-1)) :
    s.nextQindex c = .ok (-1024) ↔ ∀ index, ¬ s.ReadyAt c index := by
  obtain ⟨found, success⟩ := nextQindex_returns known
  have scanned : Scanned c s 0 found := by
    rw [nextQindex_scan other] at success
    exact scan_scanned s.qps.length 0 (by omega) success
  rw [success, Except.ok.injEq]
  constructor
  · intro nothing
    rw [nothing] at scanned
    exact scanned.none_ready
  · intro none
    rcases scanned.value with nothing | ⟨place, same⟩
    · exact nothing
    · rw [same] at scanned
      exact absurd scanned.firstReady.ready (none place)

theorem ring_get {k : Nat} (below : k < s.qps.length)
    (inside : place s.qps.length s.rrlast k < s.qps.length) :
    ∃ rest, s.ring.drop k = (s.qps[place s.qps.length s.rrlast k],
      place s.qps.length s.rrlast k) :: rest ∧ rest = s.ring.drop (k + 1) := by
  have length : k < s.ring.length := by
    simpa [ring] using below
  refine ⟨s.ring.drop (k + 1), ?_, rfl⟩
  rw [List.drop_eq_getElem_cons length]
  simp [ring, List.getElem_rotate, place, Nat.add_assoc, Nat.add_comm s.rrlast 1]

/-- The loop goes over the queue pairs in the order of the ring. -/
theorem scan_firstReady (rounds k : Nat) (total : k + rounds = s.qps.length) :
    s.scan c rounds (k + 1) = (s.firstReady c (s.ring.drop k)).map NextQueue.code := by
  induction rounds generalizing k with
  | zero =>
      have ended : s.ring.drop k = [] := by
        apply List.drop_eq_nil_of_le
        simp [ring]
        omega
      rw [ended]
      rfl
  | succ rounds ih =>
      have below : place s.qps.length s.rrlast k < s.qps.length := place_lt (by omega) k
      have here : s.qps[place s.qps.length s.rrlast k]? =
          some s.qps[place s.qps.length s.rrlast k] := List.getElem?_eq_getElem below
      obtain ⟨rest, order, later⟩ := @ring_get s k (by omega) below
      rw [order]
      unfold scan firstReady
      simp only
      have index : (k + 1 + s.rrlast) % s.qps.length = place s.qps.length s.rrlast k := rfl
      rw [index, here]
      simp only
      cases test : s.qps[place s.qps.length s.rrlast k].unblocked c s.paused with
      | error failure => rfl
      | ok unblocked =>
          simp only [ok_bind]
          split
          · rfl
          · rw [later]
            exact ih (k + 1) (by omega)

theorem nextQindex_getNextQindex :
    s.nextQindex c = (s.getNextQindex c).map NextQueue.code := by
  unfold nextQindex getNextQindex
  split
  · rfl
  · rw [scan_firstReady s.qps.length 0 (by omega), List.drop_zero]

end Scan

/-- Whatever is paused, queued and sent by whichever queue pairs, the host schedules as it should
exactly when no paused destination stands for the class of waiting acknowledgements. -/
theorem scheduled_iff (c : NicConfig) (s : HostNic) :
    Scheduled c s ↔ c.pfcOnQueue = true ∨ s.ackQ = 0 ∨ s.paused c.ackQIdx = false := by
  have ack : (s.nextQindex c = .ok (-1) ↔ 0 < s.ackQ ∧ s.ackPaused c = false) ↔
      c.pfcOnQueue = true ∨ s.ackQ = 0 ∨ s.paused c.ackQIdx = false := by
    rw [nextQindex_ack]
    unfold highPrioReady ackPaused
    cases c.pfcOnQueue with
    | true => simp [and_comm]
    | false =>
        cases s.paused c.ackQIdx with
        | true => simp
        | false => simp
  constructor
  · exact fun scheduled => ack.mp scheduled.ack
  · exact fun allowed => ⟨ack.mpr allowed, nextQindex_returns, nextQindex_qp, nextQindex_none⟩

def destinationPfc : NicConfig where
  rdma := RdmaFlow.singlePath
  pfcOnQueue := false
  rateBound := true
  ackQIdx := 3
  interframeGap := 0
  headerSize := 72
  txTime := fun rate size => size / rate

theorem run_paused_destination : ∃ s, Run (Step destinationPfc) init [.pause 3, .respond] s ∧
    s.ackQ = 1 ∧ s.paused 3 = true := by
  have paused := @Run.single _ _ (Step destinationPfc) init (.pause 3) _ ⟨rfl, rfl⟩
  have waiting := @Run.snoc _ _ _ _ _ _ _ .respond paused ⟨rfl, rfl⟩
  exact ⟨_, waiting, rfl, rfl⟩

/-- Destination 3 is paused, and the acknowledgement that a host has to send waits for it. -/
theorem paused_destination_blocks_ack : ¬ ∀ (c : NicConfig) (events : List NicEvent)
    (s : HostNic), Run (Step c) init events s → Scheduled c s := by
  intro claim
  obtain ⟨s, run, waiting, paused⟩ := run_paused_destination
  have scheduled := claim destinationPfc _ s run
  have served := scheduled.ack.mpr ⟨by omega, rfl⟩
  rw [nextQindex_ack] at served
  have blocked : s.highPrioReady destinationPfc = false := by
    unfold highPrioReady
    rw [show destinationPfc.ackQIdx = 3 from rfl, paused]
    rfl
  rw [blocked] at served
  contradiction

end HostNic

end Floodgate
