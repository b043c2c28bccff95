import Floodgate.NodeRuns

/-! The SYN timers of an upstream: which destinations a SYN names, when it is sent and when a timer
runs. -/

namespace Floodgate

open Outcome LabelledRun

/-- A `SwitchACKTag` that has arrived, with the row that it counts for. -/
structure AckArrival where
  dev : Nat
  sip : Nat
  tag : SwitchACKTag
  time : Nat

/-- The ACK of a switch is for its source address, or for the destinations that its tag names. -/
def AckArrival.concerns (g : Settings) (a : AckArrival) (dst : Nat) : Prop :=
  match g.switchAckMode with
  | .hostPerPacketAck => False
  | .switchDstCredit => a.sip = dst
  | .switchIngressCredit => 0 < a.tag.getACKEntry dst

/-- A switch with its SYN timers, the arrivals so far and since when each destination has had
unacknowledged data. Times count nanoseconds. -/
structure SynNode where
  now : Nat
  node : SwitchNode
  lstRcvAckTime : Nat → Nat → Nat
  synTimeoutEvent : Nat → Option Nat
  arrivals : List AckArrival
  unackedSince : Nat → Nat → Option Nat

inductive SynEvent where
  | node (event : NodeEvent)
  | timeout (dev : Nat)
  | wait (later : Nat)

namespace SynNode

variable (c : SwitchNodeConfig) (route : Nat → Nat) (timeoutUs : Nat) (s : SynNode)

def create : SynNode where
  now := 0
  node := SwitchNode.init c
  lstRcvAckTime := fun _ _ => 0
  synTimeoutEvent := fun _ => none
  arrivals := []
  unackedSince := fun _ _ => none

def updateSynTime (dev dst : Nat) (tag : SwitchACKTag) : SynNode :=
  if c.settings.switchAbsolutePsn = false ∨ timeoutUs = 0 then s
  else
    { s with
      lstRcvAckTime :=
        match c.settings.switchAckMode with
        | .switchDstCredit => setCell s.lstRcvAckTime dev dst s.now
        | .switchIngressCredit => fun i j =>
            if i = dev ∧ j < c.settings.hostNum ∧ 0 < tag.getACKEntry j then s.now
            else s.lstRcvAckTime i j
        | .hostPerPacketAck => s.lstRcvAckTime
      synTimeoutEvent := fun i =>
        if i = dev ∧ s.synTimeoutEvent i = none then some (s.now + timeoutUs * 1000)
        else s.synTimeoutEvent i }

/-- The call of `UpdateSynTime` with which `ResumeVOQWin` begins. -/
def hear : NodeEvent → SynNode
  | .receive inDev _ p =>
      match c.useFloodgate, p.ackTag with
      | true, some tag =>
          { s.updateSynTime c timeoutUs (c.upstream.psnRow inDev p.sip) p.sip tag with
            arrivals := s.arrivals ++ [⟨c.upstream.psnRow inDev p.sip, p.sip, tag, s.now⟩] }
      | _, _ => s
  | _ => s

/-- Data on `dev` for `dst` that is not acknowledged. -/
def Outstanding (dev dst : Nat) : Prop :=
  s.node.upstream.rcvAckPsn dev dst < s.node.upstream.nxtDataPsn dev dst

instance (dev dst : Nat) : Decidable (s.Outstanding dev dst) := inferInstanceAs (Decidable (_ < _))

def observe : SynNode :=
  { s with
    unackedSince := fun dev dst =>
      if s.Outstanding dev dst then
        some ((s.unackedSince dev dst).getD s.now)
      else none }

/-- The test of `GetSwitchSYNTag` on the time of the last ACK. -/
def recent (dev dst : Nat) : Bool := decide (s.now ≤ s.lstRcvAckTime dev dst + timeoutUs * 1000)

def getSwitchSYNTag (dev : Nat) : SwitchSYNTag :=
  s.node.getSwitchSYNTag c dev (s.recent timeoutUs dev)

/-- The tag that `SynTimeout` hands to its callback. -/
def synCallback (dev : Nat) : Option SwitchSYNTag :=
  if (s.getSwitchSYNTag c timeoutUs dev).getPacketSize c.settings > 0 then
    some (s.getSwitchSYNTag c timeoutUs dev)
  else none

def synTimeout (dev : Nat) : SynNode :=
  { s with
    node := s.node.synTimeout c route dev (s.recent timeoutUs dev)
    synTimeoutEvent := fun i =>
      if i = dev then some (s.now + timeoutUs * 1000) else s.synTimeoutEvent i }

inductive Step : SynEvent → SynNode → Prop
  | node {event : NodeEvent} {out : Option Packet} {node : SwitchNode}
      (other : ∀ dev recent, event ≠ .synTimeout dev recent)
      (handled : s.node.handle c route event = .ok (out, node)) :
      Step (.node event) { s.hear c timeoutUs event with node := node }.observe
  | timeout {dev : Nat} (due : s.synTimeoutEvent dev = some s.now) :
      Step (.timeout dev) (s.synTimeout c route timeoutUs dev)
  | wait {later : Nat} (forward : s.now < later)
      (before : ∀ dev time, s.synTimeoutEvent dev = some time → later ≤ time) :
      Step (.wait later) { s with now := later }

/-- No ACK for `dst` has arrived on `dev` during the last period. -/
def Quiet (dev dst : Nat) : Prop :=
  ∀ a ∈ s.arrivals, a.dev = dev → a.concerns c.settings dst → a.time + timeoutUs * 1000 ≤ s.now

/-- Some destination has had unacknowledged data on `dev` for two periods. -/
def Overdue (dev : Nat) : Prop :=
  ∃ dst since, s.unackedSince dev dst = some since ∧ since + 2 * (timeoutUs * 1000) ≤ s.now

def Carries (tag : SwitchSYNTag) (dst : Nat) : Prop := 0 < tag.getDataPSNEntry dst

structure SynExact (dev : Nat) : Prop where
  carries : ∀ dst < c.settings.hostNum, Carries (s.getSwitchSYNTag c timeoutUs dev) dst ↔
    s.Outstanding dev dst ∧ s.Quiet c timeoutUs dev dst
  sends : (∃ dst < c.settings.hostNum, Carries (s.getSwitchSYNTag c timeoutUs dev) dst) →
    (s.synCallback c timeoutUs dev).isSome
  armed : s.Overdue timeoutUs dev → (s.synTimeoutEvent dev).isSome

/-- The condition on the history. Every destination with unacknowledged data was last acknowledged
exactly a period ago, or never in a run not longer than that; one of them has been acknowledged; and
some ACK has arrived where one has waited for two periods. -/
structure SynCondition (dev : Nat) : Prop where
  times : ∀ dst < c.settings.hostNum, s.Outstanding dev dst →
    (∀ a ∈ s.arrivals, a.dev = dev → ¬ a.concerns c.settings dst) ∧ s.now ≤ timeoutUs * 1000 ∨
    (∃ a ∈ s.arrivals, a.dev = dev ∧ a.concerns c.settings dst ∧
      a.time + timeoutUs * 1000 = s.now) ∧ s.Quiet c timeoutUs dev dst
  acked : (∃ dst < c.settings.hostNum, s.Outstanding dev dst) →
    0 < c.settings.switchAckIdBit + 2 * c.settings.switchPsnBit ∧
      ∃ dst < c.settings.hostNum, s.Outstanding dev dst ∧ 0 < s.node.upstream.rcvAckPsn dev dst
  armed : s.Overdue timeoutUs dev → ∃ a ∈ s.arrivals, a.dev = dev

end SynNode

theorem SwitchSYNTag.foldl_entry (items : List Nat) (chosen : Nat → Prop) [DecidablePred chosen]
    (ack data : Nat → Nat) (tag : SwitchSYNTag) (dst : Nat) :
    (items.foldl (fun tag i => if chosen i then tag.setPSNEntry i (ack i) (data i) else tag)
      tag).getACKPSNEntry dst =
        (if dst ∈ items ∧ chosen dst then ack dst else tag.getACKPSNEntry dst) ∧
    (items.foldl (fun tag i => if chosen i then tag.setPSNEntry i (ack i) (data i) else tag)
      tag).getDataPSNEntry dst =
        if dst ∈ items ∧ chosen dst then data dst else tag.getDataPSNEntry dst := by
  induction items generalizing tag with
  | nil => simp
  | cons item rest ih =>
      rw [List.foldl_cons, (ih _).1, (ih _).2]
      by_cases later : dst ∈ rest ∧ chosen dst
      · have here : dst ∈ item :: rest ∧ chosen dst :=
          ⟨List.mem_cons_of_mem _ later.1, later.2⟩
        rw [if_pos later, if_pos here, if_pos later, if_pos here]
        exact ⟨rfl, rfl⟩
      · rw [if_neg later, if_neg later]
        by_cases same : dst = item
        · subst same
          by_cases picked : chosen dst
          · simp [picked, setPSNEntry, getACKPSNEntry, getDataPSNEntry]
          · simp [picked]
        · have absent : ¬ (dst ∈ item :: rest ∧ chosen dst) := by
            simpa [same] using later
          rw [if_neg absent, if_neg absent]
          split
          · simp [setPSNEntry, getACKPSNEntry, getDataPSNEntry, same]
          · exact ⟨rfl, rfl⟩

namespace SynNode

section Tags

variable {c : SwitchNodeConfig} {timeoutUs : Nat} {s : SynNode}

theorem getSwitchSYNTag_entries (dev dst : Nat) :
    (s.getSwitchSYNTag c timeoutUs dev).getACKPSNEntry dst =
      (if dst < c.settings.hostNum ∧ s.Outstanding dev dst ∧ s.recent timeoutUs dev dst = true then
        s.node.upstream.rcvAckPsn dev dst else 0) ∧
    (s.getSwitchSYNTag c timeoutUs dev).getDataPSNEntry dst =
      if dst < c.settings.hostNum ∧ s.Outstanding dev dst ∧ s.recent timeoutUs dev dst = true then
        s.node.upstream.nxtDataPsn dev dst else 0 := by
  have entries := SwitchSYNTag.foldl_entry (List.range c.settings.hostNum)
    (fun i => s.Outstanding dev i ∧ s.recent timeoutUs dev i = true)
    (s.node.upstream.rcvAckPsn dev) (s.node.upstream.nxtDataPsn dev) SwitchSYNTag.empty dst
  simp only [List.mem_range] at entries
  exact entries

/-- The code takes a destination into a SYN if it has heard of it lately. -/
theorem carries_iff {dev dst : Nat} (below : dst < c.settings.hostNum) :
    Carries (s.getSwitchSYNTag c timeoutUs dev) dst ↔
      s.Outstanding dev dst ∧ s.recent timeoutUs dev dst = true := by
  unfold Carries
  rw [(getSwitchSYNTag_entries dev dst).2]
  by_cases chosen : s.Outstanding dev dst ∧ s.recent timeoutUs dev dst = true
  · rw [if_pos ⟨below, chosen⟩]
    have some := chosen.1
    unfold Outstanding at some
    exact ⟨fun _ => chosen, fun _ => by omega⟩
  · rw [if_neg fun all => chosen all.2]
    exact ⟨fun none => absurd none (Nat.lt_irrefl 0), fun all => absurd all chosen⟩

theorem synCallback_isSome (dev : Nat) : (s.synCallback c timeoutUs dev).isSome ↔
    0 < c.settings.switchAckIdBit + 2 * c.settings.switchPsnBit ∧
      ∃ dst < c.settings.hostNum, (s.Outstanding dev dst ∧ s.recent timeoutUs dev dst = true) ∧
        0 < s.node.upstream.rcvAckPsn dev dst := by
  have named : ∀ dst, 0 < (s.getSwitchSYNTag c timeoutUs dev).rcvAckSize dst ↔
      dst < c.settings.hostNum ∧ (s.Outstanding dev dst ∧ s.recent timeoutUs dev dst = true) ∧
        0 < s.node.upstream.rcvAckPsn dev dst := by
    intro dst
    have entry := (@getSwitchSYNTag_entries c timeoutUs s dev dst).1
    unfold SwitchSYNTag.getACKPSNEntry at entry
    rw [entry]
    split
    · rename_i chosen
      simp [chosen]
    · rename_i other
      constructor
      · intro none
        exact absurd none (Nat.lt_irrefl 0)
      · rintro ⟨below, chosen, -⟩
        exact absurd ⟨below, chosen⟩ other
  have size : (s.synCallback c timeoutUs dev).isSome ↔
      0 < (s.getSwitchSYNTag c timeoutUs dev).getPacketSize c.settings := by
    unfold synCallback
    split
    · rename_i some
      exact ⟨fun _ => some, fun _ => rfl⟩
    · rename_i none
      exact ⟨fun some => absurd some (by simp), fun some => absurd some none⟩
  rw [size]
  unfold SwitchSYNTag.getPacketSize
  rw [Nat.pos_iff_ne_zero, Nat.mul_ne_zero_iff, ← Nat.pos_iff_ne_zero, ← Nat.pos_iff_ne_zero,
    List.length_pos_iff_exists_mem, and_comm]
  simp only [List.mem_filter, List.mem_range, decide_eq_true_eq, named]
  refine and_congr_right fun _ => ⟨?_, ?_⟩
  · rintro ⟨dst, -, chosen⟩
    exact ⟨dst, chosen⟩
  · rintro ⟨dst, chosen⟩
    exact ⟨dst, chosen.1, chosen⟩

/-- `SynTimeout` sends its SYN through the callback. -/
theorem synTimeout_node (route : Nat → Nat) (dev : Nat) :
    (s.synTimeout c route timeoutUs dev).node =
      match s.synCallback c timeoutUs dev with
      | some tag => s.node.sendSYN c route dev tag
      | none => s.node := by
  unfold synTimeout synCallback SwitchNode.synTimeout
  show (if (s.getSwitchSYNTag c timeoutUs dev).getPacketSize c.settings > 0 then
    s.node.sendSYN c route dev (s.getSwitchSYNTag c timeoutUs dev) else s.node) = _
  split
  · rfl
  · rfl

end Tags

section Runs

variable {c : SwitchNodeConfig} {route : Nat → Nat} {timeoutUs : Nat}

structure ArrivalsKnown (c : SwitchNodeConfig) (s : SynNode) : Prop where
  past : ∀ a ∈ s.arrivals, a.time ≤ s.now
  last : ∀ dev, ∀ dst < c.settings.hostNum,
    (∀ a ∈ s.arrivals, a.dev = dev → a.concerns c.settings dst →
      a.time ≤ s.lstRcvAckTime dev dst) ∧
    ((∀ a ∈ s.arrivals, a.dev = dev → ¬ a.concerns c.settings dst) ∧ s.lstRcvAckTime dev dst = 0 ∨
      ∃ a ∈ s.arrivals, a.dev = dev ∧ a.concerns c.settings dst ∧
        a.time = s.lstRcvAckTime dev dst)
  armed : ∀ dev, (s.synTimeoutEvent dev).isSome ↔ ∃ a ∈ s.arrivals, a.dev = dev

theorem ArrivalsKnown.arrived {s : SynNode} (known : ArrivalsKnown c s)
    (absolute : c.settings.switchAbsolutePsn = true) (some : timeoutUs ≠ 0) (dev sip : Nat)
    (tag : SwitchACKTag) : ArrivalsKnown c { s.updateSynTime c timeoutUs dev sip tag with
      arrivals := s.arrivals ++ [⟨dev, sip, tag, s.now⟩] } := by
  have on : ¬ (c.settings.switchAbsolutePsn = false ∨ timeoutUs = 0) := by simp [absolute, some]
  unfold updateSynTime
  rw [if_neg on]
  refine ⟨?_, fun i dst below => ?_, fun i => ?_⟩
  · simp only [List.forall_mem_append, List.forall_mem_singleton]
    exact ⟨known.past, Nat.le_refl _⟩
  · obtain ⟨upper, attained⟩ := known.last i dst below
    -- The time of the last ACK is that of the arrival exactly where the arrival concerns it.
    have time : ∀ new : AckArrival, new = ⟨dev, sip, tag, s.now⟩ → ∀ times,
        (new.dev = i ∧ new.concerns c.settings dst → times = s.now) →
        (¬ (new.dev = i ∧ new.concerns c.settings dst) → times = s.lstRcvAckTime i dst) →
        (∀ a ∈ s.arrivals ++ [new], a.dev = i → a.concerns c.settings dst → a.time ≤ times) ∧
        ((∀ a ∈ s.arrivals ++ [new], a.dev = i → ¬ a.concerns c.settings dst) ∧ times = 0 ∨
          ∃ a ∈ s.arrivals ++ [new], a.dev = i ∧ a.concerns c.settings dst ∧ a.time = times) := by
      intro new arrival times hit miss
      simp only [List.forall_mem_append, List.forall_mem_singleton]
      have now : new.time = s.now := by rw [arrival]
      by_cases concerned : new.dev = i ∧ new.concerns c.settings dst
      · have value := hit concerned
        refine ⟨⟨fun a member _ _ => ?_, fun _ _ => ?_⟩,
          .inr ⟨new, by simp, concerned.1, concerned.2, ?_⟩⟩
        · exact value ▸ known.past a member
        · omega
        · omega
      · have value := miss concerned
        refine ⟨⟨value ▸ upper, fun here about => absurd ⟨here, about⟩ concerned⟩, ?_⟩
        rcases attained with ⟨none, zero⟩ | ⟨a, member, here, about, last⟩
        · exact .inl ⟨⟨none, fun here about => concerned ⟨here, about⟩⟩, value.trans zero⟩
        · exact .inr ⟨a, List.mem_append_left _ member, here, about, last.trans value.symm⟩
    refine time _ rfl _ ?_ ?_
    all_goals
      unfold AckArrival.concerns
      cases c.settings.switchAckMode with
      | hostPerPacketAck => simp
      | switchDstCredit =>
          simp only [setCell]
          split_ifs
          all_goals grind
      | switchIngressCredit =>
          simp only [below, true_and]
          split_ifs
          all_goals grind
  · simp only [List.mem_append, List.mem_singleton]
    by_cases same : i = dev
    · subst same
      refine iff_of_true ?_ ⟨_, .inr rfl, rfl⟩
      split
      · rfl
      · rename_i pending
        exact Option.ne_none_iff_isSome.mp fun none => pending ⟨rfl, none⟩
    · rw [if_neg fun both => same both.1, known.armed i]
      constructor
      · rintro ⟨a, member, here⟩
        exact ⟨a, .inl member, here⟩
      · rintro ⟨a, member | rfl, here⟩
        · exact ⟨a, member, here⟩
        · exact absurd here.symm same

theorem ArrivalsKnown.hear {s : SynNode} (known : ArrivalsKnown c s)
    (absolute : c.settings.switchAbsolutePsn = true) (some : timeoutUs ≠ 0) (event : NodeEvent) :
    ArrivalsKnown c (s.hear c timeoutUs event) := by
  unfold SynNode.hear
  split
  · rename_i inDev outDev p
    split
    · rename_i tag floodgate tagged
      exact known.arrived absolute some (c.upstream.psnRow inDev p.sip) p.sip tag
    · exact known
  · exact known

/-- Where the arrivals are known, the condition is exact. -/
theorem ArrivalsKnown.exact_iff {s : SynNode} (known : ArrivalsKnown c s) (dev : Nat) :
    SynExact c timeoutUs s dev ↔ SynCondition c timeoutUs s dev := by
  -- For a destination with unacknowledged data the two tests agree at the boundary only.
  have times : ∀ dst < c.settings.hostNum,
      ((s.recent timeoutUs dev dst = true ↔ s.Quiet c timeoutUs dev dst) ↔
        (∀ a ∈ s.arrivals, a.dev = dev → ¬ a.concerns c.settings dst) ∧ s.now ≤ timeoutUs * 1000 ∨
        (∃ a ∈ s.arrivals, a.dev = dev ∧ a.concerns c.settings dst ∧
          a.time + timeoutUs * 1000 = s.now) ∧ s.Quiet c timeoutUs dev dst) := by
    intro dst below
    obtain ⟨upper, attained⟩ := known.last dev dst below
    simp only [recent, decide_eq_true_eq]
    rcases attained with ⟨none, zero⟩ | ⟨last, member, here, about, time⟩
    · have quiet : s.Quiet c timeoutUs dev dst :=
        fun a member here about => absurd about (none a member here)
      rw [zero]
      constructor
      · intro same
        exact .inl ⟨none, by simpa using same.mpr quiet⟩
      · rintro (⟨-, early⟩ | ⟨⟨a, member, here, about, -⟩, -⟩)
        · simp only [quiet, iff_true]
          omega
        · exact absurd about (none a member here)
    · have quiet : s.Quiet c timeoutUs dev dst ↔
          s.lstRcvAckTime dev dst + timeoutUs * 1000 ≤ s.now := by
        constructor
        · intro quiet
          exact time ▸ quiet last member here about
        · intro long a inside there concerned
          have order := upper a inside there concerned
          omega
      rw [quiet]
      constructor
      · intro same
        refine .inr ⟨⟨last, member, here, about, ?_⟩, ?_⟩
        · omega
        · omega
      · rintro (⟨none, -⟩ | ⟨⟨a, inside, there, concerned, exact_⟩, long⟩)
        · exact absurd about (none last member here)
        · have order := upper a inside there concerned
          omega
  have agree : (∀ dst < c.settings.hostNum,
      Carries (s.getSwitchSYNTag c timeoutUs dev) dst ↔
        s.Outstanding dev dst ∧ s.Quiet c timeoutUs dev dst) ↔
      ∀ dst < c.settings.hostNum, s.Outstanding dev dst →
        (s.recent timeoutUs dev dst = true ↔ s.Quiet c timeoutUs dev dst) := by
    refine forall₂_congr fun dst below => ?_
    rw [carries_iff below]
    tauto
  -- There both hold of everything outstanding, which is then what the tag names.
  have all : (∀ dst < c.settings.hostNum, s.Outstanding dev dst →
      (s.recent timeoutUs dev dst = true ↔ s.Quiet c timeoutUs dev dst)) →
      ∀ dst < c.settings.hostNum, s.Outstanding dev dst → s.recent timeoutUs dev dst = true := by
    intro same dst below some
    refine (same dst below some).mpr ?_
    rcases (times dst below).mp (same dst below some) with ⟨none, -⟩ | ⟨-, quiet⟩
    · exact fun a member here about => absurd about (none a member here)
    · exact quiet
  constructor
  · rintro ⟨carries, sends, armed⟩
    have same := agree.mp carries
    have heard := all same
    refine ⟨fun dst below some => (times dst below).mp (same dst below some), ?_, ?_⟩
    · rintro ⟨dst, below, some⟩
      obtain ⟨bits, other, inside, chosen, acked⟩ := (synCallback_isSome dev).mp
        (sends ⟨dst, below, (carries_iff below).mpr ⟨some, heard dst below some⟩⟩)
      exact ⟨bits, other, inside, chosen.1, acked⟩
    · exact fun overdue => (known.armed dev).mp (armed overdue)
  · rintro ⟨history, acked, armed⟩
    have same : ∀ dst < c.settings.hostNum, s.Outstanding dev dst →
        (s.recent timeoutUs dev dst = true ↔ s.Quiet c timeoutUs dev dst) :=
      fun dst below some => (times dst below).mpr (history dst below some)
    refine ⟨agree.mpr same, ?_, fun overdue => (known.armed dev).mpr (armed overdue)⟩
    rintro ⟨dst, below, named⟩
    obtain ⟨some, -⟩ := (carries_iff below).mp named
    obtain ⟨bits, other, inside, out, positive⟩ := acked ⟨dst, below, some⟩
    exact (synCallback_isSome dev).mpr
      ⟨bits, other, inside, ⟨out, all same other inside out⟩, positive⟩

theorem ArrivalsKnown.step {s next : SynNode} (known : ArrivalsKnown c s)
    (absolute : c.settings.switchAbsolutePsn = true) (some : timeoutUs ≠ 0) {event : SynEvent}
    (step : Step c route timeoutUs s event next) : ArrivalsKnown c next := by
  cases step with
  | @node event out node other handled =>
      have heard := known.hear absolute some event
      exact ⟨heard.past, heard.last, heard.armed⟩
  | @timeout dev due =>
      refine ⟨known.past, known.last, fun i => Iff.trans ?_ (known.armed i)⟩
      show (if i = dev then Option.some (s.now + timeoutUs * 1000)
        else s.synTimeoutEvent i).isSome ↔ _
      split
      · rename_i same
        rw [same, due]
        simp
      · exact Iff.rfl
  | wait forward before =>
      exact ⟨fun a member => Nat.le_of_lt (Nat.lt_of_le_of_lt (known.past a member) forward),
        known.last, known.armed⟩

end Runs

/-- SYN generation is exact in a reachable state exactly under the condition on its history. -/
theorem syn_exact (c : SwitchNodeConfig) (route : Nat → Nat) (timeoutUs : Nat)
    (absolute : c.settings.switchAbsolutePsn = true) (some : timeoutUs ≠ 0)
    (labels : List SynEvent) (s : SynNode)
    (run : Run (Step c route timeoutUs) (create c) labels s) (dev : Nat) :
    SynExact c timeoutUs s dev ↔ SynCondition c timeoutUs s dev := by
  have base : ArrivalsKnown c (create c) := by
    refine ⟨fun a member => absurd member (by simp [create]), fun dev dst _ => ⟨?_, .inl ⟨?_, rfl⟩⟩,
      fun dev => ?_⟩
    · exact fun a member => absurd member (by simp [create])
    · exact fun a member => absurd member (by simp [create])
    · simp [create]
  have known := run.invariant (ArrivalsKnown c) base
    fun _ _ _ known step => known.step absolute some step
  exact known.exact_iff dev

def absoluteSwitch : SwitchNodeConfig :=
  SwitchNode.smallSwitch
    { narrow .switchDstCredit unlimited 2000 (by decide) with
      settings :=
        { (narrow .switchDstCredit unlimited 2000 (by decide)).settings with
          switchAbsolutePsn := true } } true

theorem absolute_run : ∃ s, Run (Step absoluteSwitch id 1000) (create absoluteSwitch)
    [.node (.receive 1 (some 2) kiloPacket), .wait 2000000] s ∧ s.Outstanding 2 1 ∧
    s.arrivals = [] ∧ s.recent 1000 2 1 = false := by
  obtain ⟨out, node, handled, ahead⟩ : ∃ out node,
      (create absoluteSwitch).node.handle absoluteSwitch id (.receive 1 (some 2) kiloPacket) =
        .ok (out, node) ∧ node.upstream.rcvAckPsn 2 1 < node.upstream.nxtDataPsn 2 1 := by
    have passed : (match (create absoluteSwitch).node.handle absoluteSwitch id
        (.receive 1 (some 2) kiloPacket) with
        | .ok (_, node) => decide (node.upstream.rcvAckPsn 2 1 < node.upstream.nxtDataPsn 2 1)
        | .error _ => false) = true := by
      decide +kernel
    split at passed
    · rename_i out node handled
      exact ⟨out, node, handled, of_decide_eq_true passed⟩
    · exact Bool.noConfusion passed
  have sent : Run (Step absoluteSwitch id 1000) (create absoluteSwitch)
      [.node (.receive 1 (some 2) kiloPacket)] _ := Run.single (.node nofun handled)
  have waited := sent.snoc (@Step.wait _ _ _ _ 2000000 (Nat.succ_pos _) nofun)
  have stale : ¬ 2000000 ≤ 0 + 1000 * 1000 := by decide
  exact ⟨_, waited, ahead, rfl, decide_eq_false stale⟩

theorem syn_exact_one_packet : ∃ s, s.Outstanding 2 1 ∧
    (SynExact absoluteSwitch 1000 s 2 ↔ SynCondition absoluteSwitch 1000 s 2) := by
  obtain ⟨s, run, some, -⟩ := absolute_run
  exact ⟨s, some, syn_exact absoluteSwitch id 1000 rfl (by decide) _ s run 2⟩

/-- Nothing is acknowledged for two periods, and the SYN would not name the destination. -/
theorem stale_destination_left_out : ¬ ∀ (c : SwitchNodeConfig) (route : Nat → Nat) (timeoutUs : Nat),
    c.settings.switchAbsolutePsn = true → timeoutUs ≠ 0 → ∀ labels s,
    Run (Step c route timeoutUs) (create c) labels s → ∀ dev, SynExact c timeoutUs s dev := by
  intro claim
  obtain ⟨s, run, some, none, stale⟩ := absolute_run
  have exactly := claim absoluteSwitch id 1000 rfl (by decide) _ s run 2
  have quiet : s.Quiet absoluteSwitch 1000 2 1 := by
    intro a member
    rw [none] at member
    contradiction
  have below : 1 < absoluteSwitch.settings.hostNum := by decide
  have named := (carries_iff below).mp ((exactly.carries 1 below).mpr ⟨some, quiet⟩)
  rw [stale] at named
  exact absurd named.2 (by decide)

end SynNode

end Floodgate
