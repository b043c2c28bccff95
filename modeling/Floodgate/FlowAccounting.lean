import Floodgate.FlowGeneration
import Floodgate.Library.LabelledRun
import Mathlib.Data.Finset.Card
import Mathlib.Logic.Function.Basic

/-! How an experiment keeps account of its flows, and when it stops the simulation. -/

namespace Floodgate

open LabelledRun

/-- The three functions that count finished flows, each with a counter of its own. -/
inductive FinishKind where
  | qp
  | msg
  | testMsg
  deriving DecidableEq

/-- `finished` are the static counters and `stops` the calls of `Simulator::Stop`. -/
structure FlowRegister where
  flowsMap : Nat → Option Flow
  unfinishedFlows : Finset Nat
  unfinishedRcvFlows : Finset Nat
  flowNum : Nat
  finished : FinishKind → Nat
  stops : Nat

inductive FinishSide where
  | sender
  | receiver
  deriving DecidableEq

/-- One end of a flow reports it as finished. -/
structure FinishCall where
  side : FinishSide
  now : Nat
  flowId : Nat
  deriving DecidableEq

namespace FinishCall

abbrev sent (now flowId : Nat) : FinishCall := ⟨.sender, now, flowId⟩

abbrev received (now flowId : Nat) : FinishCall := ⟨.receiver, now, flowId⟩

def reported (side : FinishSide) (calls : List FinishCall) : Finset Nat :=
  ((calls.filter fun call => call.side = side).map FinishCall.flowId).toFinset

def first (side : FinishSide) (calls : List FinishCall) (flowId : Nat) : Option Nat :=
  (calls.find? fun call => call.side = side ∧ call.flowId = flowId).map FinishCall.now

section Reported

variable {side : FinishSide} {calls : List FinishCall} {call : FinishCall} {flowId time : Nat}

theorem mem_reported :
    flowId ∈ reported side calls ↔ ∃ call ∈ calls, call.side = side ∧ call.flowId = flowId := by
  simp [reported, and_assoc]

@[simp] theorem reported_nil : reported side [] = ∅ := rfl

theorem reported_same (same : call.side = side) :
    reported side (calls ++ [call]) = insert call.flowId (reported side calls) := by
  ext id
  simp [reported, same]

theorem reported_other (other : call.side ≠ side) :
    reported side (calls ++ [call]) = reported side calls := by
  simp [reported, other]

theorem first_isSome : (first side calls flowId).isSome ↔ flowId ∈ reported side calls := by
  simp [first, mem_reported]

theorem first_none (unreported : flowId ∉ reported side calls) :
    first side calls flowId = none := by
  rw [← Option.not_isSome_iff_eq_none, first_isSome]
  exact unreported

theorem first_snoc : first side (calls ++ [call]) flowId = (first side calls flowId).or
    (if call.side = side ∧ call.flowId = flowId then some call.now else none) := by
  rw [first, List.find?_append, List.find?_singleton, Option.map_or, first]
  congr 1
  by_cases this : call.side = side ∧ call.flowId = flowId
  · rw [if_pos this, if_pos (decide_eq_true this)]
    rfl
  · rw [if_neg this, if_neg (by simpa using this)]
    rfl

theorem first_other (other : ¬(call.side = side ∧ call.flowId = flowId)) :
    first side (calls ++ [call]) flowId = first side calls flowId := by
  rw [first_snoc, if_neg other, Option.or_none]

theorem first_new (unreported : flowId ∉ reported side calls)
    (this : call.side = side ∧ call.flowId = flowId) :
    first side (calls ++ [call]) flowId = some call.now := by
  rw [first_snoc, first_none unreported, if_pos this, Option.none_or]

theorem first_again (earlier : flowId ∈ reported side calls) :
    first side (calls ++ [call]) flowId = first side calls flowId := by
  rw [first_snoc, Option.or_of_isSome (first_isSome.mpr earlier)]

theorem first_pos (later : ∀ call ∈ calls, 0 < call.now)
    (found : first side calls flowId = some time) : 0 < time := by
  obtain ⟨call, here, same⟩ := Option.map_eq_some_iff.mp found
  exact same ▸ later call (List.mem_of_find?_eq_some here)

end Reported

end FinishCall

namespace FlowRegister

def init (flowNum : Nat) : FlowRegister := ⟨fun _ => none, ∅, ∅, flowNum, fun _ => 0, 0⟩

/-- `insert` of a map leaves an entry that exists as it is. -/
def enter (s : FlowRegister) (f : Flow) : FlowRegister :=
  { s with
    flowsMap := if (s.flowsMap f.flowId).isSome then s.flowsMap
      else Function.update s.flowsMap f.flowId (some f)
    unfinishedFlows := insert f.flowId s.unfinishedFlows
    unfinishedRcvFlows := insert f.flowId s.unfinishedRcvFlows }

/-- The two loops over the queues of ordinary flows and of test flows. -/
def assign (flows tests : List Flow) : FlowRegister :=
  (tests.map fun f => { f with isTest := true }).foldl enter
    (flows.foldl enter (init (Word32.trunc flows.length)))

/-- What the three functions have in common. `flows_map.at` throws where there is no such flow. -/
def finish (kind : FinishKind) (records stopping : Bool) (now flowId : Nat) (s : FlowRegister) :
    Option FlowRegister :=
  match s.flowsMap flowId with
  | none => none
  | some f =>
      if flowId ∈ s.unfinishedFlows then
        let number := Word32.add (s.finished kind) 1
        some { s with
          flowsMap :=
            if records then Function.update s.flowsMap flowId (some { f with finishTime := now })
            else s.flowsMap
          unfinishedFlows := s.unfinishedFlows.erase flowId
          finished := Function.update s.finished kind number
          stops := if stopping = true ∧ s.flowNum = number then s.stops + 1 else s.stops }
      else some s

def qpFinish (now flowId : Nat) (s : FlowRegister) : Option FlowRegister :=
  finish .qp true true now flowId s

def testMsgFinish (now flowId : Nat) (s : FlowRegister) : Option FlowRegister :=
  finish .testMsg true false now flowId s

/-- The finish time of an ordinary message is not set. -/
def msgFinish (isTestFlow : Bool) (now flowId : Nat) (s : FlowRegister) : Option FlowRegister :=
  if isTestFlow then testMsgFinish now flowId s else finish .msg false true now flowId s

def rcvFinish (now flowId : Nat) (s : FlowRegister) : Option FlowRegister :=
  match s.flowsMap flowId with
  | none => none
  | some f =>
      if flowId ∈ s.unfinishedRcvFlows then
        some { s with
          flowsMap := Function.update s.flowsMap flowId (some { f with rcvFinishTime := now })
          unfinishedRcvFlows := s.unfinishedRcvFlows.erase flowId }
      else some s

def call (qpMode : Bool) (s : FlowRegister) (report : FinishCall) : Option FlowRegister :=
  match report.side with
  | .sender =>
      if qpMode then
        match s.flowsMap report.flowId with
        | none => none
        | some f => msgFinish f.isTest report.now report.flowId s
      else qpFinish report.now report.flowId s
  | .receiver => rcvFinish report.now report.flowId s

def Step (qpMode : Bool) (s : FlowRegister) (label : FinishCall) (next : FlowRegister) : Prop :=
  s.call qpMode label = some next

end FlowRegister

namespace FlowRegister

def ids (flows : List Flow) : Finset Nat := (flows.map Flow.flowId).toFinset

def kind (qpMode isTest : Bool) : FinishKind :=
  if qpMode then if isTest then .testMsg else .msg else .qp

section Entries

variable {s : FlowRegister} {f : Flow} {flows : List Flow}

theorem mem_ids {id : Nat} : id ∈ ids flows ↔ ∃ f ∈ flows, f.flowId = id := by
  rw [ids, List.mem_toFinset, List.mem_map]

theorem ids_card_le (flows : List Flow) : (ids flows).card ≤ flows.length := by
  have le := List.toFinset_card_le (flows.map Flow.flowId)
  rwa [List.length_map] at le

theorem enter_flows (nodup : (flows.map Flow.flowId).Nodup)
    (fresh : ∀ f ∈ flows, s.flowsMap f.flowId = none) :
    (∀ f ∈ flows, (flows.foldl enter s).flowsMap f.flowId = some f) ∧
      (∀ id, id ∉ ids flows → (flows.foldl enter s).flowsMap id = s.flowsMap id) ∧
      (flows.foldl enter s).unfinishedFlows = s.unfinishedFlows ∪ ids flows ∧
      (flows.foldl enter s).unfinishedRcvFlows = s.unfinishedRcvFlows ∪ ids flows ∧
      (flows.foldl enter s).flowNum = s.flowNum ∧ (flows.foldl enter s).finished = s.finished ∧
      (flows.foldl enter s).stops = s.stops := by
  induction flows generalizing s with
  | nil => simp [ids]
  | cons f rest others =>
      rw [List.map_cons, List.nodup_cons] at nodup
      have new : s.flowsMap f.flowId = none := fresh f List.mem_cons_self
      have entered : (s.enter f).flowsMap = Function.update s.flowsMap f.flowId (some f) := by
        simp [enter, new]
      have apart : ∀ g ∈ rest, g.flowId ≠ f.flowId := fun g member same =>
        nodup.1 (List.mem_map.mpr ⟨g, member, same⟩)
      have outside : f.flowId ∉ ids rest := by
        intro inside
        obtain ⟨g, member, same⟩ := mem_ids.mp inside
        exact apart g member same
      have numbers : ids (f :: rest) = insert f.flowId (ids rest) := by simp [ids]
      obtain ⟨known, same, sent, received, number, finished, stops⟩ :=
        @others (s.enter f) nodup.2 (by
          intro g member
          rw [entered, Function.update_of_ne (apart g member)]
          exact fresh g (List.mem_cons_of_mem _ member))
      rw [List.foldl_cons, numbers]
      refine ⟨?_, ?_, ?_, ?_, number, finished, stops⟩
      · intro g member
        cases List.mem_cons.mp member with
        | inl here => rw [here, same _ outside, entered, Function.update_self]
        | inr there => exact known g there
      · intro id other
        rw [Finset.mem_insert, not_or] at other
        rw [same id other.2, entered, Function.update_of_ne other.1]
      · rw [sent]
        ext id
        simp [enter]
      · rw [received]
        ext id
        simp [enter]

end Entries

structure Drawn (flows tests : List Flow) : Prop where
  nodup : ((flows ++ tests).map Flow.flowId).Nodup
  fresh : ∀ f ∈ flows ++ tests, f.Fresh
  few : (flows ++ tests).length < Word32.size

theorem drawn_of_generated {requests : List FlowRequest} {flows tests : List Flow}
    (few : requests.length < Word32.size) (asked : FlowRequest.Few requests)
    (part : (flows ++ tests).Subperm (Flow.generate .init requests)) : Drawn flows tests := by
  have room := Flow.room_init few asked
  refine ⟨Flow.nodup_of_subperm part ?_, ?_, ?_⟩
  · rw [Flow.generate_flowIds room]
    exact List.nodup_range'
  · exact fun f member => Flow.generate_fresh room (part.subset member)
  · have le := part.length_le
    rw [Flow.length_generate] at le
    omega

section Calls

variable {qpMode : Bool} {flows tests : List Flow} {calls : List FinishCall}
  {s next : FlowRegister} {f : Flow} {id now : Nat}

abbrev all (flows tests : List Flow) : Finset Nat := ids (flows ++ tests)

structure Accounts (qpMode : Bool) (flows tests : List Flow) (calls : List FinishCall)
    (s : FlowRegister) : Prop where
  known : ∀ id, (s.flowsMap id).map Flow.isTest =
    if id ∈ ids tests then some true else if id ∈ ids flows then some false else none
  unfinishedFlows : s.unfinishedFlows = all flows tests \ FinishCall.reported .sender calls
  unfinishedRcvFlows : s.unfinishedRcvFlows = all flows tests \ FinishCall.reported .receiver calls
  within : FinishCall.reported .sender calls ⊆ all flows tests
  flowNum : s.flowNum = flows.length
  finished : ∀ k, s.finished k = ((FinishCall.reported .sender calls).filter fun id =>
    kind qpMode (decide (id ∈ ids tests)) = k).card
  stops : s.stops =
    if 0 < flows.length ∧ flows.length ≤ s.finished (kind qpMode false) then 1 else 0

theorem all_eq : all flows tests = ids flows ∪ ids tests := by
  rw [all, ids, List.map_append, List.toFinset_append]
  rfl

structure Assigned (flows tests : List Flow) (s : FlowRegister) : Prop where
  plain : ∀ f ∈ flows, s.flowsMap f.flowId = some f
  test : ∀ f ∈ tests, s.flowsMap f.flowId = some { f with isTest := true }
  other : ∀ id, id ∉ ids flows → id ∉ ids tests → s.flowsMap id = none
  apart : ∀ id ∈ ids tests, id ∉ ids flows
  unfinishedFlows : s.unfinishedFlows = all flows tests
  unfinishedRcvFlows : s.unfinishedRcvFlows = all flows tests
  flowNum : s.flowNum = flows.length
  finished : ∀ k, s.finished k = 0
  stops : s.stops = 0

theorem assign_spec (drawn : Drawn flows tests) : Assigned flows tests (assign flows tests) := by
  obtain ⟨nodup, -, few⟩ := drawn
  rw [List.map_append] at nodup
  obtain ⟨first, second, apart⟩ := List.nodup_append.mp nodup
  have short : flows.length < Word32.size := by
    rw [List.length_append] at few
    omega
  have names : (tests.map fun f => { f with isTest := true }).map Flow.flowId =
      tests.map Flow.flowId := by
    rw [List.map_map]
    rfl
  have numbers : ids (tests.map fun f => { f with isTest := true }) = ids tests := by
    rw [ids, names, ids]
  obtain ⟨known, none, sent, received, number, finished, stops⟩ :=
    @enter_flows (FlowRegister.init (Word32.trunc flows.length)) flows first fun _ _ => rfl
  have outside : ∀ id ∈ ids tests, id ∉ ids flows := by
    intro id inside also
    obtain ⟨f, member, rfl⟩ := mem_ids.mp inside
    obtain ⟨g, other, same⟩ := mem_ids.mp also
    exact apart _ (List.mem_map_of_mem other) _ (List.mem_map_of_mem member) same
  obtain ⟨known', same, sent', received', number', finished', stops'⟩ :=
    @enter_flows (flows.foldl enter (FlowRegister.init (Word32.trunc flows.length)))
      (tests.map fun f => { f with isTest := true }) (names ▸ second) (by
        intro f member
        obtain ⟨g, other, rfl⟩ := List.mem_map.mp member
        exact none _ (outside _ (mem_ids.mpr ⟨g, other, rfl⟩)))
  refine ⟨?_, ?_, ?_, outside, ?_, ?_, ?_, ?_, ?_⟩
  · intro f member
    have plain : f.flowId ∈ ids flows := mem_ids.mpr ⟨f, member, rfl⟩
    rw [assign, same _ fun inside => outside _ (numbers ▸ inside) plain, known f member]
  · intro f member
    exact known' { f with isTest := true } (List.mem_map_of_mem member)
  · intro id plain test
    rw [assign, same id (numbers ▸ test), none id plain]
    rfl
  · rw [assign, sent', sent, numbers, all_eq]
    exact congrArg (· ∪ ids tests) (Finset.empty_union _)
  · rw [assign, received', received, numbers, all_eq]
    exact congrArg (· ∪ ids tests) (Finset.empty_union _)
  · rw [assign, number', number]
    exact Word32.trunc_eq _ short
  · intro k
    rw [assign, finished', finished]
    rfl
  · rw [assign, stops', stops]
    rfl

theorem Accounts.init (drawn : Drawn flows tests) :
    Accounts qpMode flows tests [] (assign flows tests) := by
  have assigned := assign_spec drawn
  refine ⟨?_, ?_, ?_, Finset.empty_subset _, assigned.flowNum, ?_, ?_⟩
  · intro id
    by_cases test : id ∈ ids tests
    · obtain ⟨g, member, rfl⟩ := mem_ids.mp test
      rw [if_pos test, assigned.test g member]
      rfl
    · rw [if_neg test]
      by_cases plain : id ∈ ids flows
      · obtain ⟨g, member, rfl⟩ := mem_ids.mp plain
        rw [if_pos plain, assigned.plain g member]
        exact congrArg some (drawn.fresh g (List.mem_append_left _ member)).isTest
      · rw [if_neg plain, assigned.other id plain test]
        rfl
  · rw [FinishCall.reported_nil, Finset.sdiff_empty, assigned.unfinishedFlows]
  · rw [FinishCall.reported_nil, Finset.sdiff_empty, assigned.unfinishedRcvFlows]
  · intro k
    rw [assigned.finished]
    rfl
  · rw [assigned.stops, assigned.finished]
    have zero : ¬(0 < flows.length ∧ flows.length ≤ 0) := by omega
    exact (if_neg zero).symm

theorem Accounts.found (accounts : Accounts qpMode flows tests calls s)
    (member : id ∈ all flows tests) :
    ∃ f, s.flowsMap id = some f ∧ f.isTest = decide (id ∈ ids tests) := by
  have known := accounts.known id
  rw [all_eq, Finset.mem_union] at member
  cases entry : s.flowsMap id with
  | none =>
      rw [entry] at known
      by_cases test : id ∈ ids tests
      · rw [if_pos test] at known
        cases known
      · rw [if_neg test, if_pos (member.resolve_right test)] at known
        cases known
  | some f =>
      rw [entry] at known
      refine ⟨f, rfl, ?_⟩
      by_cases test : id ∈ ids tests
      · rw [if_pos test] at known
        rw [decide_eq_true test]
        exact Option.some.inj known
      · rw [if_neg test, if_pos (member.resolve_right test)] at known
        rw [decide_eq_false test]
        exact Option.some.inj known

theorem Accounts.unknown (accounts : Accounts qpMode flows tests calls s)
    (other : id ∉ all flows tests) : s.flowsMap id = none := by
  have known := accounts.known id
  rw [all_eq, Finset.mem_union, not_or] at other
  rw [if_neg other.2, if_neg other.1] at known
  exact Option.map_eq_none_iff.mp known

theorem isTest_update (entry : s.flowsMap id = some f) {g : Flow} (same : g.isTest = f.isTest)
    (other : Nat) :
    (Function.update s.flowsMap id (some g) other).map Flow.isTest =
      (s.flowsMap other).map Flow.isTest := by
  by_cases here : other = id
  · rw [here, Function.update_self, entry, Option.map_some, same, Option.map_some]
  · rw [Function.update_of_ne here]

theorem call_sent (entry : s.flowsMap id = some f) :
    s.call qpMode (.sent now id) =
      finish (kind qpMode f.isTest) (!qpMode || f.isTest)
        (decide (kind qpMode f.isTest = kind qpMode false)) now id s := by
  simp only [call, entry]
  cases qpMode with
  | false => rfl
  | true =>
      simp only [if_true, msgFinish]
      cases f.isTest with
      | false => rfl
      | true => rfl

theorem call_received : s.call qpMode (.received now id) = rcvFinish now id s := rfl

/-- Counting one more flow up to `n` stops the simulation when it is the last one. -/
theorem stops_next (n count : Nat) :
    (if n = count + 1 then (if 0 < n ∧ n ≤ count then 1 else 0) + 1
      else if 0 < n ∧ n ≤ count then 1 else 0) = if 0 < n ∧ n ≤ count + 1 then 1 else 0 := by
  by_cases last : n = count + 1
  · rw [if_pos last, if_neg (by omega), if_pos (by omega)]
  · rw [if_neg last]
    by_cases done : 0 < n ∧ n ≤ count
    · rw [if_pos done, if_pos (by omega)]
    · rw [if_neg done, if_neg (by omega)]

theorem Accounts.sent (few : (flows ++ tests).length < Word32.size)
    (accounts : Accounts qpMode flows tests calls s) (member : id ∈ all flows tests) (now : Nat) :
    ∃ next, s.call qpMode (.sent now id) = some next ∧
      Accounts qpMode flows tests (calls ++ [.sent now id]) next := by
  obtain ⟨f, entry, test⟩ := accounts.found member
  have sender : FinishCall.reported .sender (calls ++ [.sent now id]) =
      insert id (FinishCall.reported .sender calls) := FinishCall.reported_same rfl
  have receiver : FinishCall.reported .receiver (calls ++ [.sent now id]) =
      FinishCall.reported .receiver calls := FinishCall.reported_other FinishSide.noConfusion
  rw [call_sent entry, finish, entry]
  simp only
  by_cases unfinished : id ∈ s.unfinishedFlows
  · rw [if_pos unfinished]
    rw [accounts.unfinishedFlows, Finset.mem_sdiff] at unfinished
    have grown : insert id (FinishCall.reported .sender calls) ⊆ all flows tests :=
      Finset.insert_subset member accounts.within
    -- The senders that have reported are fewer than the flows, so the counter does not wrap.
    have number : Word32.add (s.finished (kind qpMode f.isTest)) 1 =
        s.finished (kind qpMode f.isTest) + 1 := by
      apply Word32.add_eq
      have inside := Finset.card_le_card grown
      rw [Finset.card_insert_of_notMem unfinished.2] at inside
      have counted := Finset.card_filter_le (FinishCall.reported .sender calls) fun id =>
        kind qpMode (decide (id ∈ ids tests)) = kind qpMode f.isTest
      have bound : (all flows tests).card ≤ (flows ++ tests).length := ids_card_le _
      rw [accounts.finished]
      omega
    have finished : ∀ k, Function.update s.finished (kind qpMode f.isTest)
        (s.finished (kind qpMode f.isTest) + 1) k =
          ((insert id (FinishCall.reported .sender calls)).filter fun id =>
            kind qpMode (decide (id ∈ ids tests)) = k).card := by
      intro k
      rw [Finset.filter_insert, ← test]
      by_cases same : kind qpMode f.isTest = k
      · rw [if_pos same, ← same, Function.update_self, accounts.finished,
          Finset.card_insert_of_notMem fun inside => unfinished.2 (Finset.mem_filter.mp inside).1]
      · rw [if_neg same, Function.update_of_ne (Ne.symm same), accounts.finished]
    have stops : (if decide (kind qpMode f.isTest = kind qpMode false) = true ∧
        s.flowNum = s.finished (kind qpMode f.isTest) + 1 then s.stops + 1 else s.stops) =
          if 0 < flows.length ∧ flows.length ≤ Function.update s.finished (kind qpMode f.isTest)
            (s.finished (kind qpMode f.isTest) + 1) (kind qpMode false) then 1 else 0 := by
      simp only [decide_eq_true_eq, accounts.flowNum, accounts.stops]
      by_cases same : kind qpMode f.isTest = kind qpMode false
      · rw [same, Function.update_self, ← stops_next]
        simp only [true_and]
      · rw [Function.update_of_ne (Ne.symm same), if_neg fun both => same both.1]
    rw [number]
    refine ⟨_, rfl, ?_, ?_, ?_, ?_, accounts.flowNum, ?_, stops⟩
    · intro other
      rw [← accounts.known other]
      split
      · apply isTest_update entry
        rfl
      · rfl
    · rw [sender, Finset.sdiff_insert, accounts.unfinishedFlows]
    · rw [receiver]
      exact accounts.unfinishedRcvFlows
    · rw [sender]
      exact grown
    · rw [sender]
      exact finished
  · rw [if_neg unfinished]
    rw [accounts.unfinishedFlows, Finset.mem_sdiff, not_and, not_not] at unfinished
    refine ⟨s, rfl, ?_⟩
    have again : FinishCall.reported .sender (calls ++ [.sent now id]) =
        FinishCall.reported .sender calls := by
      rw [sender, Finset.insert_eq_of_mem (unfinished member)]
    exact ⟨accounts.known, again ▸ accounts.unfinishedFlows,
      receiver ▸ accounts.unfinishedRcvFlows,
      again ▸ accounts.within, accounts.flowNum, again ▸ accounts.finished, accounts.stops⟩

theorem Accounts.received (accounts : Accounts qpMode flows tests calls s)
    (member : id ∈ all flows tests) (now : Nat) :
    ∃ next, s.call qpMode (.received now id) = some next ∧
      Accounts qpMode flows tests (calls ++ [.received now id]) next := by
  obtain ⟨f, entry, -⟩ := accounts.found member
  have sender : FinishCall.reported .sender (calls ++ [.received now id]) =
      FinishCall.reported .sender calls := FinishCall.reported_other FinishSide.noConfusion
  have receiver : FinishCall.reported .receiver (calls ++ [.received now id]) =
      insert id (FinishCall.reported .receiver calls) := FinishCall.reported_same rfl
  rw [call_received, rcvFinish, entry]
  simp only
  by_cases unfinished : id ∈ s.unfinishedRcvFlows
  · rw [if_pos unfinished]
    refine ⟨_, rfl, ?_, sender ▸ accounts.unfinishedFlows, ?_, sender ▸ accounts.within,
      accounts.flowNum, sender ▸ accounts.finished, accounts.stops⟩
    · intro other
      rw [← accounts.known other]
      apply isTest_update entry
      rfl
    · rw [receiver, Finset.sdiff_insert, accounts.unfinishedRcvFlows]
  · rw [if_neg unfinished]
    rw [accounts.unfinishedRcvFlows, Finset.mem_sdiff, not_and, not_not] at unfinished
    have again : FinishCall.reported .receiver (calls ++ [.received now id]) =
        FinishCall.reported .receiver calls := by
      rw [receiver, Finset.insert_eq_of_mem (unfinished member)]
    exact ⟨s, rfl, accounts.known, sender ▸ accounts.unfinishedFlows,
      again ▸ accounts.unfinishedRcvFlows, sender ▸ accounts.within, accounts.flowNum,
      sender ▸ accounts.finished, accounts.stops⟩

theorem Accounts.stepped (drawn : Drawn flows tests)
    (accounts : Accounts qpMode flows tests calls s) {call : FinishCall} (member : call.flowId ∈ all flows tests) :
    ∃ next, Step qpMode s call next ∧ Accounts qpMode flows tests (calls ++ [call]) next := by
  obtain ⟨side, now, id⟩ := call
  cases side with
  | sender => exact accounts.sent drawn.few member now
  | receiver => exact accounts.received member now

theorem Accounts.names (accounts : Accounts qpMode flows tests calls s) {call : FinishCall}
    (step : Step qpMode s call next) : call.flowId ∈ all flows tests := by
  by_contra other
  have entry := accounts.unknown other
  obtain ⟨side, now, id⟩ := call
  simp only [Step, FlowRegister.call, qpFinish, finish, rcvFinish, entry] at step
  cases side with
  | sender => cases qpMode <;> cases step
  | receiver => cases step

theorem Accounts.run (drawn : Drawn flows tests)
    (run : Run (Step qpMode) (assign flows tests) calls s) :
    Accounts qpMode flows tests calls s := by
  apply run.history (fun calls s => Accounts qpMode flows tests calls s) (.init drawn)
  intro calls middle call finish _ accounts step
  obtain ⟨next, taken, after⟩ := accounts.stepped drawn (accounts.names step)
  rwa [Option.some.inj (step.symm.trans taken)]

/-- The reports are served in any order when all of them are on flows of the experiment. -/
theorem reports_served_iff (drawn : Drawn flows tests) :
    (∃ s, Run (Step qpMode) (assign flows tests) calls s) ↔
      ∀ call ∈ calls, call.flowId ∈ all flows tests := by
  induction calls using List.reverseRecOn with
  | nil => exact ⟨fun _ _ member => absurd member List.not_mem_nil, fun _ => ⟨_, .nil⟩⟩
  | append_singleton calls call earlier =>
      constructor
      · intro ⟨s, run⟩ other member
        obtain ⟨middle, before, step⟩ := Run.snoc_iff.mp run
        cases List.mem_append.mp member with
        | inl inside => exact earlier.mp ⟨middle, before⟩ other inside
        | inr last =>
            rw [List.mem_singleton.mp last]
            exact (Accounts.run drawn before).names step
      · intro named
        obtain ⟨middle, before⟩ := earlier.mpr fun other inside =>
          named other (List.mem_append_left _ inside)
        obtain ⟨next, step, -⟩ := (Accounts.run drawn before).stepped drawn
          (named call (List.mem_append_right _ (List.mem_singleton_self call)))
        exact ⟨next, before.snoc step⟩

/-- The times in the map are those of the first reports, but for ordinary messages in `qp_mode`, of
which the sender's is not kept. -/
structure Timed (qpMode : Bool) (calls : List FinishCall) (s : FlowRegister) : Prop where
  finishTime : ∀ id f, s.flowsMap id = some f → f.finishTime =
    if qpMode = true ∧ f.isTest = false then 0 else (FinishCall.first .sender calls id).getD 0
  rcvFinishTime : ∀ id f, s.flowsMap id = some f →
    f.rcvFinishTime = (FinishCall.first .receiver calls id).getD 0

theorem Timed.init (drawn : Drawn flows tests) : Timed qpMode [] (assign flows tests) := by
  have assigned := assign_spec drawn
  have entries : ∀ id f, (assign flows tests).flowsMap id = some f →
      f.finishTime = 0 ∧ f.rcvFinishTime = 0 := by
    intro id f entry
    by_cases test : id ∈ ids tests
    · obtain ⟨g, member, rfl⟩ := mem_ids.mp test
      have fresh := drawn.fresh g (List.mem_append_right _ member)
      obtain rfl := Option.some.inj ((assigned.test g member).symm.trans entry)
      exact ⟨fresh.finishTime, fresh.rcvFinishTime⟩
    · by_cases plain : id ∈ ids flows
      · obtain ⟨g, member, rfl⟩ := mem_ids.mp plain
        have fresh := drawn.fresh g (List.mem_append_left _ member)
        obtain rfl := Option.some.inj ((assigned.plain g member).symm.trans entry)
        exact ⟨fresh.finishTime, fresh.rcvFinishTime⟩
      · rw [assigned.other id plain test] at entry
        cases entry
  refine ⟨fun id f entry => ?_, fun id f entry => (entries id f entry).2⟩
  rw [(entries id f entry).1]
  split
  · rfl
  · rfl

theorem records_iff {qpMode isTest : Bool} :
    (!qpMode || isTest) = true ↔ ¬(qpMode = true ∧ isTest = false) := by
  cases qpMode with
  | false => simp
  | true => cases isTest <;> simp

theorem sent_entries (entry : s.flowsMap id = some f) (step : Step qpMode s (.sent now id) next)
    {other : Nat} {g : Flow} (found : next.flowsMap other = some g) :
    ∃ before, s.flowsMap other = some before ∧ g.isTest = before.isTest ∧
      g.rcvFinishTime = before.rcvFinishTime ∧
      g.finishTime =
        if other = id ∧ id ∈ s.unfinishedFlows ∧ ¬(qpMode = true ∧ f.isTest = false) then now
        else before.finishTime := by
  rw [Step, call_sent entry, finish, entry] at step
  simp only at step
  by_cases unfinished : id ∈ s.unfinishedFlows
  · rw [if_pos unfinished] at step
    obtain rfl := Option.some.inj step
    simp only at found
    by_cases records : (!qpMode || f.isTest) = true
    · rw [if_pos records] at found
      by_cases here : other = id
      · rw [here, Function.update_self] at found
        obtain rfl := Option.some.inj found
        refine ⟨f, here ▸ entry, rfl, rfl, ?_⟩
        rw [if_pos ⟨here, unfinished, records_iff.mp records⟩]
      · rw [Function.update_of_ne here] at found
        exact ⟨g, found, rfl, rfl, (if_neg fun all => here all.1).symm⟩
    · rw [if_neg records] at found
      exact ⟨g, found, rfl, rfl, (if_neg fun all => records (records_iff.mpr all.2.2)).symm⟩
  · rw [if_neg unfinished] at step
    obtain rfl := Option.some.inj step
    exact ⟨g, found, rfl, rfl, (if_neg fun all => unfinished all.2.1).symm⟩

theorem received_entries (entry : s.flowsMap id = some f)
    (step : Step qpMode s (.received now id) next) {other : Nat} {g : Flow}
    (found : next.flowsMap other = some g) :
    ∃ before, s.flowsMap other = some before ∧ g.isTest = before.isTest ∧
      g.finishTime = before.finishTime ∧
      g.rcvFinishTime =
        if other = id ∧ id ∈ s.unfinishedRcvFlows then now else before.rcvFinishTime := by
  rw [Step, call_received, rcvFinish, entry] at step
  simp only at step
  by_cases unfinished : id ∈ s.unfinishedRcvFlows
  · rw [if_pos unfinished] at step
    obtain rfl := Option.some.inj step
    simp only at found
    by_cases here : other = id
    · rw [here, Function.update_self] at found
      obtain rfl := Option.some.inj found
      refine ⟨f, here ▸ entry, rfl, rfl, ?_⟩
      rw [if_pos ⟨here, unfinished⟩]
    · rw [Function.update_of_ne here] at found
      exact ⟨g, found, rfl, rfl, (if_neg fun all => here all.1).symm⟩
  · rw [if_neg unfinished] at step
    obtain rfl := Option.some.inj step
    exact ⟨g, found, rfl, rfl, (if_neg fun all => unfinished all.2).symm⟩

theorem Timed.sent (accounts : Accounts qpMode flows tests calls s) (timed : Timed qpMode calls s)
    (step : Step qpMode s (.sent now id) next) : Timed qpMode (calls ++ [.sent now id]) next := by
  have member : id ∈ all flows tests := accounts.names step
  obtain ⟨f, entry, -⟩ := accounts.found member
  refine ⟨fun other g found => ?_, fun other g found => ?_⟩
  · obtain ⟨before, earlier, test, -, time⟩ := sent_entries entry step found
    have old := timed.finishTime other before earlier
    rw [time, test]
    by_cases here : other = id
    · subst here
      obtain rfl := Option.some.inj (entry.symm.trans earlier)
      by_cases lost : qpMode = true ∧ f.isTest = false
      · rw [if_pos lost] at old
        rw [if_neg fun all => all.2.2 lost, if_pos lost, old]
      · rw [if_neg lost] at old
        rw [if_neg lost]
        by_cases unfinished : other ∈ s.unfinishedFlows
        · rw [if_pos ⟨rfl, unfinished, lost⟩]
          rw [accounts.unfinishedFlows, Finset.mem_sdiff] at unfinished
          rw [FinishCall.first_new unfinished.2 ⟨rfl, rfl⟩]
          rfl
        · rw [if_neg fun all => unfinished all.2.1, old]
          rw [accounts.unfinishedFlows, Finset.mem_sdiff, not_and, not_not] at unfinished
          rw [FinishCall.first_again (unfinished member)]
    · rw [if_neg fun all => here all.1, old, FinishCall.first_other fun both => here both.2.symm]
  · obtain ⟨before, earlier, -, time, -⟩ := sent_entries entry step found
    rw [time, FinishCall.first_other fun both => FinishSide.noConfusion both.1]
    exact timed.rcvFinishTime other before earlier

theorem Timed.received (accounts : Accounts qpMode flows tests calls s)
    (timed : Timed qpMode calls s) (step : Step qpMode s (.received now id) next) :
    Timed qpMode (calls ++ [.received now id]) next := by
  have member : id ∈ all flows tests := accounts.names step
  obtain ⟨f, entry, -⟩ := accounts.found member
  refine ⟨fun other g found => ?_, fun other g found => ?_⟩
  · obtain ⟨before, earlier, test, time, -⟩ := received_entries entry step found
    rw [time, test, FinishCall.first_other fun both => FinishSide.noConfusion both.1]
    exact timed.finishTime other before earlier
  · obtain ⟨before, earlier, -, -, time⟩ := received_entries entry step found
    rw [time, timed.rcvFinishTime other before earlier]
    by_cases here : other = id
    · subst here
      by_cases unfinished : other ∈ s.unfinishedRcvFlows
      · rw [if_pos ⟨rfl, unfinished⟩]
        rw [accounts.unfinishedRcvFlows, Finset.mem_sdiff] at unfinished
        rw [FinishCall.first_new unfinished.2 ⟨rfl, rfl⟩]
        rfl
      · rw [if_neg fun all => unfinished all.2]
        rw [accounts.unfinishedRcvFlows, Finset.mem_sdiff, not_and, not_not] at unfinished
        rw [FinishCall.first_again (unfinished member)]
    · rw [if_neg fun all => here all.1, FinishCall.first_other fun both => here both.2.symm]

theorem Timed.run (drawn : Drawn flows tests)
    (run : Run (Step qpMode) (assign flows tests) calls s) : Timed qpMode calls s := by
  apply run.history (fun calls s => Timed qpMode calls s) (.init drawn)
  intro calls middle call finish earlier timed step
  have accounts := Accounts.run drawn earlier
  obtain ⟨side, now, id⟩ := call
  cases side with
  | sender => exact timed.sent accounts step
  | receiver => exact timed.received accounts step

end Calls

end FlowRegister

end Floodgate
