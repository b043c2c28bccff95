import Floodgate.Library.LabelledRun
import Floodgate.Library.MapSum
import Floodgate.Library.Word32

/-! DRILL: the egress port of a packet is the least loaded of two sampled next hops and of the port
that was best for the destination before. -/

namespace Floodgate

open Std LabelledRun

inductive DrillLoadMode where
  | default
  | intervalSent
  deriving DecidableEq, Repr

/-- `routing_mode` is `ROUTING_DRILL`. `symmetricReceiver` stands for `SYMMETRIC_RECEIVER`. -/
structure DrillConfig where
  drillLoadMode : DrillLoadMode
  symmetricReceiver : Bool

/-- The port in the `SymmetricRoutingTag` of a packet, where it is heeded. -/
def DrillConfig.symmetricLeaf (c : DrillConfig) (leafIngress : Option Nat) : Option Nat :=
  if c.symmetricReceiver then leafIngress else none

structure PortQueue where
  totalReceivedBytes : Nat
  nBytesTotal : Nat
  totalReceivedBytes_lt : totalReceivedBytes < Word32.size
  nBytesTotal_lt : nBytesTotal < Word32.size

structure DrillSwitch where
  rtTable : ExtTreeMap Nat (List Nat)
  previousBestInterfaceMap : ExtTreeMap Nat Nat

def drillCandidate : Nat := 2

namespace DrillSwitch

def init : DrillSwitch := ⟨∅, ∅⟩

def addTableEntry (s : DrillSwitch) (dip intf : Nat) : DrillSwitch :=
  { s with rtTable := s.rtTable.insert dip ((s.rtTable[dip]?).getD [] ++ [intf]) }

def clearTable (s : DrillSwitch) : DrillSwitch :=
  { s with rtTable := ∅ }

end DrillSwitch

section Selection

variable (c : DrillConfig) (queues : Nat → Option PortQueue)

/-- `none` where the assertion that the interface is a device with a queue fails. -/
def calculateInterfaceLoad (interface : Nat) : Option Nat :=
  (queues interface).map fun queue =>
    match c.drillLoadMode with
    | .intervalSent => queue.totalReceivedBytes
    | .default => queue.nBytesTotal

/-- One sample: the least loaded interface so far with its load. -/
def samplePort (least : Nat × Nat) (port : Nat) : Option (Nat × Nat) := do
  let sampleLoad ← calculateInterfaceLoad c queues port
  if sampleLoad < least.2 then some (port, sampleLoad) else some least

/-- The selection starts with the previous best interface, or with 0 at the largest load. -/
def previousBest (s : DrillSwitch) (dip : Nat) : Option (Nat × Nat) :=
  match s.previousBestInterfaceMap[dip]? with
  | some interface => (calculateInterfaceLoad c queues interface).map fun load => (interface, load)
  | none => some (0, 4294967295)

/-- `shuffled` is what `random_shuffle` makes of the next hops, which stay in that order. -/
def selectEgressByDRILL (s : DrillSwitch) (shuffled : List Nat) (dip : Nat) :
    Option (Nat × DrillSwitch) := do
  let start ← previousBest c queues s dip
  let least ← (shuffled.take drillCandidate).foldlM (samplePort c queues) start
  some (least.1,
    { rtTable := s.rtTable.insert dip shuffled
      previousBestInterfaceMap := s.previousBestInterfaceMap.insert dip least.1 })

/-- The egress port, `none` for -1. A `SymmetricRoutingTag` overrides the choice. -/
def getOutDev (s : DrillSwitch) (shuffled : List Nat) (dip : Nat) (leafIngress : Option Nat) :
    Option (Option Nat × DrillSwitch) :=
  match s.rtTable[dip]? with
  | none => some (none, s)
  | some _ => do
      let selected ← selectEgressByDRILL c queues s shuffled dip
      match c.symmetricLeaf leafIngress with
      | some leaf => some (some leaf, selected.2)
      | none => some (some selected.1, selected.2)

end Selection

inductive RoutingEvent where
  | addTableEntry (dip intf : Nat)
  | clearTable
  | packet (dip : Nat) (leafIngress : Option Nat) (queues : Nat → Option PortQueue)
      (shuffled : List Nat)

def DrillSwitch.Step (c : DrillConfig) (s : DrillSwitch) (label : RoutingEvent × Option Nat)
    (after : DrillSwitch) : Prop :=
  match label.1 with
  | .addTableEntry dip intf => label.2 = none ∧ after = s.addTableEntry dip intf
  | .clearTable => label.2 = none ∧ after = s.clearTable
  | .packet dip leafIngress queues shuffled =>
      (∀ nexthops, s.rtTable[dip]? = some nexthops → shuffled.Perm nexthops) ∧
      getOutDev c queues s shuffled dip leafIngress = some (label.2, after)

def LoadLe (c : DrillConfig) (queues : Nat → Option PortQueue) (egress port : Nat) : Prop :=
  ∃ least, calculateInterfaceLoad c queues egress = some least ∧
    ∀ load, calculateInterfaceLoad c queues port = some load → least ≤ load

/-- A current next hop that is no more loaded than the sampled ports. -/
def GoodHop (c : DrillConfig) (queues : Nat → Option PortQueue) (nexthops sampled : List Nat)
    (egress : Nat) : Prop :=
  egress ∈ nexthops ∧ ∀ port ∈ sampled, LoadLe c queues egress port

/-- What DRILL is to do with a packet. -/
def PicksCurrentHop (c : DrillConfig) (s : DrillSwitch) (label : RoutingEvent × Option Nat) : Prop :=
  match label.1 with
  | .packet dip _ queues shuffled =>
      match s.rtTable[dip]? with
      | none => label.2 = none
      | some nexthops =>
          ∃ egress, label.2 = some egress ∧
            GoodHop c queues nexthops (shuffled.take drillCandidate) egress
  | _ => True

def Beaten (c : DrillConfig) (queues : Nat → Option PortQueue) (sampled : List Nat) (load : Nat) :
    Prop :=
  ∃ port ∈ sampled, ∃ less, calculateInterfaceLoad c queues port = some less ∧ less < load

/-- What the selection starts with is a current next hop, or a sampled port is less loaded. -/
def StartCurrent (c : DrillConfig) (s : DrillSwitch) (dip : Nat) (queues : Nat → Option PortQueue)
    (nexthops sampled : List Nat) : Prop :=
  match s.previousBestInterfaceMap[dip]? with
  | some interface => interface ∈ nexthops ∨
      ∃ load, calculateInterfaceLoad c queues interface = some load ∧ Beaten c queues sampled load
  | none => (0 ∈ nexthops ∧ (calculateInterfaceLoad c queues 0).isSome) ∨
      Beaten c queues sampled 4294967295

/-- The condition on the table, the memory and the loads before a packet. -/
def MemoryCurrent (c : DrillConfig) (s : DrillSwitch) : RoutingEvent → Prop
  | .packet dip leafIngress queues shuffled =>
      ∀ nexthops, s.rtTable[dip]? = some nexthops →
        match c.symmetricLeaf leafIngress with
        | some leaf => GoodHop c queues nexthops (shuffled.take drillCandidate) leaf
        | none => StartCurrent c s dip queues nexthops (shuffled.take drillCandidate)
  | _ => True

section Facts

variable {c : DrillConfig} {queues : Nat → Option PortQueue} {s after : DrillSwitch}

theorem calculateInterfaceLoad_le {interface load : Nat}
    (found : calculateInterfaceLoad c queues interface = some load) : load ≤ 4294967295 := by
  unfold calculateInterfaceLoad at found
  obtain ⟨queue, _, rfl⟩ := Option.map_eq_some_iff.mp found
  have received := queue.totalReceivedBytes_lt
  have queued := queue.nBytesTotal_lt
  unfold Word32.size at received queued
  split
  · omega
  · omega

inductive Sampled (c : DrillConfig) (queues : Nat → Option PortQueue) (sampled : List Nat)
    (start : Nat × Nat) : Nat × Nat → Prop
  | start (least : ∀ port ∈ sampled, ∀ load, calculateInterfaceLoad c queues port = some load →
      start.2 ≤ load) : Sampled c queues sampled start start
  | beaten {port load : Nat} (member : port ∈ sampled)
      (found : calculateInterfaceLoad c queues port = some load) (smaller : load < start.2)
      (least : ∀ other ∈ sampled, ∀ otherLoad,
        calculateInterfaceLoad c queues other = some otherLoad → load ≤ otherLoad) :
      Sampled c queues sampled start (port, load)

theorem foldlM_samplePort (sampled : List Nat) {start finish : Nat × Nat}
    (success : sampled.foldlM (samplePort c queues) start = some finish) :
    Sampled c queues sampled start finish := by
  induction sampled generalizing start with
  | nil =>
      obtain rfl := Option.some.inj success
      exact .start fun port member => absurd member (by simp)
  | cons first rest ih =>
      rw [List.foldlM_cons] at success
      obtain ⟨middle, sample, later⟩ := Option.bind_eq_some_iff.mp success
      obtain ⟨firstLoad, found, chosen⟩ := Option.bind_eq_some_iff.mp sample
      have head : ∀ load, calculateInterfaceLoad c queues first = some load → load = firstLoad :=
        fun load other => Option.some.inj (other.symm.trans found)
      by_cases smaller : firstLoad < start.2
      · rw [if_pos smaller] at chosen
        obtain rfl := Option.some.inj chosen
        cases ih later with
        | start least =>
            refine .beaten List.mem_cons_self found smaller fun other member load known => ?_
            rcases List.mem_cons.mp member with rfl | inside
            · exact Nat.le_of_eq (head load known).symm
            · exact least other inside load known
        | beaten inside known less least =>
            have below : _ < start.2 := Nat.lt_trans less smaller
            refine .beaten (List.mem_cons_of_mem _ inside) known below ?_
            intro other member load knownOther
            rcases List.mem_cons.mp member with rfl | inside
            · rw [head load knownOther]
              exact Nat.le_of_lt less
            · exact least other inside load knownOther
      · rw [if_neg smaller] at chosen
        obtain rfl := Option.some.inj chosen
        cases ih later with
        | start least =>
            refine .start fun port member load known => ?_
            rcases List.mem_cons.mp member with rfl | inside
            · rw [head load known]
              exact Nat.le_of_not_lt smaller
            · exact least port inside load known
        | beaten inside known less least =>
            refine .beaten (List.mem_cons_of_mem _ inside) known less ?_
            intro other member load knownOther
            rcases List.mem_cons.mp member with rfl | inside
            · rw [head load knownOther]
              exact Nat.le_trans (Nat.le_of_lt less) (Nat.le_of_not_lt smaller)
            · exact least other inside load knownOther

theorem goodHop_start {nexthops sampled : List Nat} {start : Nat × Nat}
    (least : ∀ port ∈ sampled, ∀ load, calculateInterfaceLoad c queues port = some load →
      start.2 ≤ load)
    (own : ∃ load, calculateInterfaceLoad c queues start.1 = some load ∧ load ≤ start.2) :
    GoodHop c queues nexthops sampled start.1 ↔ start.1 ∈ nexthops := by
  constructor
  · exact fun good => good.1
  · intro member
    obtain ⟨load, found, below⟩ := own
    refine ⟨member, fun port inside => ⟨load, found, fun other known => ?_⟩⟩
    exact Nat.le_trans below (least port inside other known)

theorem not_beaten {sampled : List Nat} {load : Nat}
    (least : ∀ port ∈ sampled, ∀ other, calculateInterfaceLoad c queues port = some other →
      load ≤ other) : ¬ Beaten c queues sampled load := by
  intro beaten
  obtain ⟨port, inside, less, known, smaller⟩ := beaten
  have bound := least port inside less known
  omega

theorem selectEgress_good {shuffled nexthops : List Nat} {dip : Nat}
    {selected : Nat × DrillSwitch} (permuted : shuffled.Perm nexthops)
    (success : selectEgressByDRILL c queues s shuffled dip = some selected) :
    StartCurrent c s dip queues nexthops (shuffled.take drillCandidate) ↔
      GoodHop c queues nexthops (shuffled.take drillCandidate) selected.1 := by
  obtain ⟨start, begins, success⟩ := Option.bind_eq_some_iff.mp success
  obtain ⟨least, samples, success⟩ := Option.bind_eq_some_iff.mp success
  obtain rfl := Option.some.inj success
  have sampled := foldlM_samplePort _ samples
  -- a sampled port that wins is a next hop and settles both sides
  cases sampled with
  | @beaten port load member found smaller below =>
      have hop : port ∈ nexthops :=
        permuted.mem_iff.mp (List.mem_of_mem_take member)
      have good : GoodHop c queues nexthops (shuffled.take drillCandidate) port :=
        ⟨hop, fun other inside => ⟨load, found, fun otherLoad known =>
          below other inside otherLoad known⟩⟩
      refine ⟨fun _ => good, fun _ => ?_⟩
      unfold StartCurrent
      unfold previousBest at begins
      cases memory : s.previousBestInterfaceMap[dip]? with
      | none =>
          rw [memory] at begins
          obtain rfl := Option.some.inj begins
          exact .inr ⟨port, member, load, found, smaller⟩
      | some interface =>
          rw [memory] at begins
          obtain ⟨own, known, rfl⟩ := Option.map_eq_some_iff.mp begins
          exact .inr ⟨own, known, port, member, load, found, smaller⟩
  | start below =>
      unfold StartCurrent
      unfold previousBest at begins
      cases memory : s.previousBestInterfaceMap[dip]? with
      | none =>
          rw [memory] at begins
          obtain rfl := Option.some.inj begins
          constructor
          · intro current
            obtain ⟨hop, known⟩ := current.resolve_right (not_beaten below)
            obtain ⟨load, found⟩ := Option.isSome_iff_exists.mp known
            have own : ∃ load, calculateInterfaceLoad c queues 0 = some load ∧
                load ≤ 4294967295 := ⟨load, found, calculateInterfaceLoad_le found⟩
            exact (goodHop_start below own).mpr hop
          · intro good
            left
            refine ⟨good.1, ?_⟩
            -- a next hop means that something was sampled and compared with port 0
            cases order : shuffled with
            | nil =>
                rw [order] at permuted
                exact absurd (permuted.mem_iff.mpr good.1) (by simp)
            | cons first rest =>
                have inside : first ∈ shuffled.take drillCandidate := by
                  simp [order, drillCandidate]
                obtain ⟨load, found, -⟩ := good.2 first inside
                rw [found]
                rfl
      | some interface =>
          rw [memory] at begins
          obtain ⟨own, known, rfl⟩ := Option.map_eq_some_iff.mp begins
          have same := @goodHop_start c queues nexthops _ (interface, own) below
            ⟨own, known, Nat.le_refl _⟩
          constructor
          · intro current
            rcases current with hop | ⟨load, found, beaten⟩
            · exact same.mpr hop
            · rw [known] at found
              obtain rfl := Option.some.inj found
              exact absurd beaten (not_beaten below)
          · exact fun good => .inl good.1

theorem picksCurrentHop_iff {label : RoutingEvent × Option Nat}
    (step : DrillSwitch.Step c s label after) :
    MemoryCurrent c s label.1 ↔ PicksCurrentHop c s label := by
  obtain ⟨event, outDev⟩ := label
  cases event with
  | addTableEntry dip intf => exact Iff.rfl
  | clearTable => exact Iff.rfl
  | packet dip leafIngress queues shuffled =>
      obtain ⟨permuted, success⟩ := step
      simp only [MemoryCurrent, PicksCurrentHop]
      unfold getOutDev at success
      cases entry : s.rtTable[dip]? with
      | none =>
          simp only [entry, Option.some.injEq, Prod.mk.injEq] at success
          exact ⟨fun _ => success.1.symm, fun _ nexthops found => by contradiction⟩
      | some nexthops =>
          simp only [entry] at success
          obtain ⟨selected, selects, success⟩ := Option.bind_eq_some_iff.mp success
          have good := selectEgress_good (permuted nexthops entry) selects
          simp only [Option.some.injEq, forall_eq']
          cases override : c.symmetricLeaf leafIngress with
          | some leaf =>
              simp only [override, Option.some.injEq, Prod.mk.injEq] at success
              simp [← success.1]
          | none =>
              simp only [override, Option.some.injEq, Prod.mk.injEq] at success
              simp only [good, ← success.1, Option.some.injEq, exists_eq_left']

end Facts

section Memory

variable {c : DrillConfig} {s after : DrillSwitch}

/-- An entry has a next hop, and the previous best interfaces are next hops. -/
structure DrillSwitch.Remembers (s : DrillSwitch) : Prop where
  filled : ∀ (dip : Nat) (nexthops : List Nat), s.rtTable[dip]? = some nexthops → nexthops ≠ []
  current : ∀ dip interface : Nat, s.previousBestInterfaceMap[dip]? = some interface →
    ∃ nexthops : List Nat, s.rtTable[dip]? = some nexthops ∧ interface ∈ nexthops

/-- A packet that no tag routes, with a sampled port below the largest load. -/
def Sampleable (c : DrillConfig) : RoutingEvent → Prop
  | .addTableEntry _ _ => True
  | .clearTable => False
  | .packet _ leafIngress queues shuffled =>
      c.symmetricLeaf leafIngress = none ∧
        (shuffled ≠ [] → Beaten c queues (shuffled.take drillCandidate) 4294967295)

theorem getOutDev_remembers {dip : Nat} {leafIngress : Option Nat}
    {queues : Nat → Option PortQueue} {shuffled : List Nat} {outDev : Option Nat}
    (remembers : s.Remembers)
    (sampleable : Sampleable c (.packet dip leafIngress queues shuffled))
    (step : DrillSwitch.Step c s (.packet dip leafIngress queues shuffled, outDev) after) :
    MemoryCurrent c s (.packet dip leafIngress queues shuffled) ∧ after.Remembers := by
  obtain ⟨permuted, success⟩ := step
  obtain ⟨untagged, beaten⟩ := sampleable
  simp only [getOutDev] at success
  cases entry : s.rtTable[dip]? with
  | none =>
      simp only [entry, Option.some.injEq, Prod.mk.injEq] at success
      refine ⟨fun nexthops found => ?_, success.2 ▸ remembers⟩
      rw [entry] at found
      contradiction
  | some nexthops =>
      simp only [entry] at success
      obtain ⟨selected, selects, success⟩ := Option.bind_eq_some_iff.mp success
      simp only [untagged, Option.some.injEq, Prod.mk.injEq] at success
      have order := permuted nexthops entry
      have current : StartCurrent c s dip queues nexthops (shuffled.take drillCandidate) := by
        unfold StartCurrent
        cases memory : s.previousBestInterfaceMap[dip]? with
        | none =>
            refine .inr (beaten fun empty => ?_)
            rw [empty] at order
            exact remembers.filled dip nexthops entry order.symm.eq_nil
        | some interface =>
            obtain ⟨hops, found, member⟩ := remembers.current dip interface memory
            rw [entry] at found
            obtain rfl := Option.some.inj found
            exact .inl member
      have good := (selectEgress_good order selects).mp current
      obtain ⟨start, _, selects⟩ := Option.bind_eq_some_iff.mp selects
      obtain ⟨least, _, selects⟩ := Option.bind_eq_some_iff.mp selects
      obtain rfl := Option.some.inj selects
      obtain rfl := success.2
      refine ⟨fun hops found => ?_, fun other hops found => ?_, fun other interface known => ?_⟩
      · rw [entry] at found
        obtain rfl := Option.some.inj found
        simp only [untagged]
        exact current
      · rw [MapSum.lookup_insert] at found
        by_cases same : other = dip
        · rw [if_pos same] at found
          intro empty
          rw [Option.some.inj found, empty] at order
          exact remembers.filled dip nexthops entry order.symm.eq_nil
        · rw [if_neg same] at found
          exact remembers.filled other hops found
      · rw [MapSum.lookup_insert] at known ⊢
        by_cases same : other = dip
        · rw [if_pos same] at known ⊢
          exact ⟨shuffled, rfl, order.mem_iff.mpr (Option.some.inj known ▸ good.1)⟩
        · rw [if_neg same] at known ⊢
          exact remembers.current other interface known

theorem remembers_step {label : RoutingEvent × Option Nat} (remembers : s.Remembers)
    (sampleable : Sampleable c label.1) (step : DrillSwitch.Step c s label after) :
    MemoryCurrent c s label.1 ∧ after.Remembers := by
  obtain ⟨event, outDev⟩ := label
  cases event with
  | addTableEntry dip intf =>
      obtain ⟨-, rfl⟩ := step
      refine ⟨trivial, fun other nexthops found => ?_, fun other interface known => ?_⟩
      · simp only [DrillSwitch.addTableEntry, MapSum.lookup_insert] at found
        by_cases same : other = dip
        · rw [if_pos same] at found
          rw [← Option.some.inj found]
          simp
        · rw [if_neg same] at found
          exact remembers.filled other nexthops found
      · obtain ⟨nexthops, found, member⟩ := remembers.current other interface known
        simp only [DrillSwitch.addTableEntry, MapSum.lookup_insert]
        by_cases same : other = dip
        · rw [if_pos same, ← same, found]
          exact ⟨_, rfl, List.mem_append_left _ member⟩
        · rw [if_neg same]
          exact ⟨nexthops, found, member⟩
  | clearTable => exact absurd sampleable id
  | packet dip leafIngress queues shuffled => exact getOutDev_remembers remembers sampleable step

theorem remembers_init : DrillSwitch.init.Remembers :=
  ⟨fun _ _ found => by simp [DrillSwitch.init] at found,
    fun _ _ known => by simp [DrillSwitch.init] at known⟩

end Memory

/-- DRILL picks current next hops exactly as long as the memory is current; so it does in every run
in which no table is cleared, no tag routes a packet and some sampled load is not the largest. -/
theorem drill_picks_current_hops (c : DrillConfig)
    (entries : List (DrillSwitch × RoutingEvent × Option Nat)) (finish : DrillSwitch)
    (run : Run (Traced (DrillSwitch.Step c)) DrillSwitch.init entries finish) :
    ((∀ entry ∈ entries, MemoryCurrent c entry.1 entry.2.1) ↔
      ∀ entry ∈ entries, PicksCurrentHop c entry.1 entry.2) ∧
    ((∀ entry ∈ entries, Sampleable c entry.2.1) →
      ∀ entry ∈ entries, PicksCurrentHop c entry.1 entry.2) := by
  have exact_step : ∀ entry ∈ entries,
      (MemoryCurrent c entry.1 entry.2.1 ↔ PicksCurrentHop c entry.1 entry.2) := by
    intro entry member
    obtain ⟨next, step⟩ := run.taken entry member
    exact picksCurrentHop_iff step
  refine ⟨⟨?_, ?_⟩, ?_⟩
  · intro current entry member
    exact (exact_step entry member).mp (current entry member)
  · intro picks entry member
    exact (exact_step entry member).mpr (picks entry member)
  · intro sampleable entry member
    have remembers := run.holds_along DrillSwitch.Remembers (fun _ label => Sampleable c label.1)
      remembers_init
      (fun state label next before allowed step => (remembers_step before allowed step).2)
      sampleable
    obtain ⟨next, step⟩ := run.taken entry member
    have current := (remembers_step (remembers.1 entry member) (sampleable entry member) step).1
    exact (exact_step entry member).mp current

/-- Every port has a queue; those of port 1 are empty and the others hold 1000 bytes. -/
def drillQueues (port : Nat) : Option PortQueue :=
  some ⟨if port = 1 then 0 else 1000, if port = 1 then 0 else 1000,
    by split <;> decide, by split <;> decide⟩

def drillConfig : DrillConfig := ⟨.default, false⟩

/-- Host 7 is behind port 1. -/
def firstRoute : DrillSwitch := DrillSwitch.init.addTableEntry 7 1

/-- Port 1 has been chosen for host 7, then the routes were computed again: it is behind port 2. -/
def newRoute : DrillSwitch :=
  { rtTable := (∅ : ExtTreeMap Nat (List Nat)).insert 7 [2]
    previousBestInterfaceMap := (∅ : ExtTreeMap Nat Nat).insert 7 1 }

theorem firstRoute_step : DrillSwitch.Step drillConfig firstRoute
    (.packet 7 none drillQueues [1], some 1)
    { firstRoute with
      rtTable := firstRoute.rtTable.insert 7 [1]
      previousBestInterfaceMap := (∅ : ExtTreeMap Nat Nat).insert 7 1 } := by
  refine ⟨fun nexthops found => ?_, rfl⟩
  have entry : firstRoute.rtTable[7]? = some [1] := rfl
  rw [entry] at found
  exact Option.some.inj found ▸ List.Perm.refl [1]

theorem firstRoute_run : Run (Traced (DrillSwitch.Step drillConfig)) DrillSwitch.init
    [(DrillSwitch.init, .addTableEntry 7 1, none),
      (firstRoute, .packet 7 none drillQueues [1], some 1)]
    { firstRoute with
      rtTable := firstRoute.rtTable.insert 7 [1]
      previousBestInterfaceMap := (∅ : ExtTreeMap Nat Nat).insert 7 1 } :=
  (Run.single ⟨rfl, rfl, rfl⟩).snoc ⟨rfl, firstRoute_step⟩

theorem drill_picks_current_hops_one_packet :
    PicksCurrentHop drillConfig firstRoute (.packet 7 none drillQueues [1], some 1) := by
  have sampleable : ∀ entry ∈ [((DrillSwitch.init, .addTableEntry 7 1, none) :
      DrillSwitch × RoutingEvent × Option Nat),
      (firstRoute, .packet 7 none drillQueues [1], some 1)],
      Sampleable drillConfig entry.2.1 := by
    intro entry member
    rcases List.mem_pair.mp member with rfl | rfl
    · trivial
    · exact ⟨rfl, fun _ => ⟨1, by simp [drillCandidate], 0, rfl, by decide⟩⟩
  exact (drill_picks_current_hops drillConfig _ _ firstRoute_run).2 sampleable
    (firstRoute, .packet 7 none drillQueues [1], some 1) (by simp)

theorem newRoute_step : DrillSwitch.Step drillConfig newRoute
    (.packet 7 none drillQueues [2], some 1)
    { newRoute with previousBestInterfaceMap := newRoute.previousBestInterfaceMap.insert 7 1
                    rtTable := newRoute.rtTable.insert 7 [2] } := by
  refine ⟨fun nexthops found => ?_, rfl⟩
  have entry : newRoute.rtTable[7]? = some [2] := rfl
  rw [entry] at found
  exact Option.some.inj found ▸ List.Perm.refl [2]

/-- Port 1 is no next hop of host 7 any more, but it was the best before and is idle. -/
theorem stale_hop_picked : ¬ ∀ (c : DrillConfig) entries finish,
    Run (Traced (DrillSwitch.Step c)) DrillSwitch.init entries finish →
      ∀ entry ∈ entries, PicksCurrentHop c entry.1 entry.2 := by
  intro claim
  obtain ⟨used, run⟩ : ∃ used, Run (Traced (DrillSwitch.Step drillConfig)) DrillSwitch.init used
      newRoute :=
    ⟨_, (firstRoute_run.snoc (⟨rfl, rfl, rfl⟩ : Traced (DrillSwitch.Step drillConfig) _
      (_, .clearTable, none) _)).snoc (⟨rfl, rfl, rfl⟩ : Traced (DrillSwitch.Step drillConfig) _
      (_, .addTableEntry 7 2, none) _)⟩
  have again : Traced (DrillSwitch.Step drillConfig) newRoute
      (newRoute, .packet 7 none drillQueues [2], some 1) _ := ⟨rfl, newRoute_step⟩
  have picks := claim drillConfig _ _ (run.snoc again)
    (newRoute, .packet 7 none drillQueues [2], some 1) (by simp)
  obtain ⟨egress, same, hop, -⟩ := picks
  obtain rfl := Option.some.inj same
  exact absurd hop (by decide)

end Floodgate
