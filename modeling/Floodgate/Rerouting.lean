import Floodgate.LinkDown
import Floodgate.RefusedEnqueue
import Floodgate.StrandedCredit
import Floodgate.Topology

/-! A switch whose routing table is rebuilt when a link of the network is taken down, while packets
wait in its VOQs with the ports they were given before. -/

namespace Floodgate

open Std Outcome LabelledRun

inductive RoutingMode where
  | global
  | drill
  deriving DecidableEq, Repr

structure RoutingConfig where
  routingMode : RoutingMode
  drill : DrillConfig

/-- What a look-up of the egress port depends on beside the destination: the ECMP hash of the flow,
the queues of the ports, the outcome of the shuffle and the `SymmetricRoutingTag` of the packet. -/
structure Choice where
  hash : Nat
  queues : Nat → Option PortQueue
  shuffled : List Nat
  leafIngress : Option Nat

def RoutingConfig.getOutDev (r : RoutingConfig) (table : DrillSwitch) (choice : Choice)
    (dip : Nat) : Option (Option Nat × DrillSwitch) :=
  match r.routingMode with
  | .drill => Floodgate.getOutDev r.drill choice.queues table choice.shuffled dip choice.leafIngress
  | .global =>
      match table.rtTable[dip]? with
      | none => some (none, table)
      | some nexthops =>
          match r.drill.symmetricLeaf choice.leafIngress with
          | some leaf => some (some leaf, table)
          | none =>
              (nexthops[choice.hash % nexthops.length]?).map fun egress => (some egress, table)

def Choice.Shuffles (choice : Choice) (r : RoutingConfig) (table : DrillSwitch) (dip : Nat) : Prop :=
  r.routingMode = .drill → ∀ nexthops, table.rtTable[dip]? = some nexthops →
    choice.shuffled.Perm nexthops

def NodeEvent.lookedUp (c : SwitchNodeConfig) : NodeEvent → Option (Packet × Option Nat)
  | .receive _ outDev p =>
      if p.isPfc || (c.useFloodgate && (p.synTag.isSome || p.ackTag.isSome)) then none
      else some (p, outDev)
  | .goOn _ outDev p _ => some (p, outDev)
  | _ => none

/-- A switch with its table and the network as the simulator sees it. `left` is no part of the code:
it holds the packets that have been in a VOQ since before the last `TakeDownLink`, and those that
DRILL sent to a port out of its memory that is no next hop. -/
structure RoutedSwitch where
  linked : LinkedSwitch
  routes : DrillSwitch
  net : Network
  left : PacketUnit → Prop

/-- `lookUp` is a look-up for a packet of the switch's own. -/
inductive RoutedEvent where
  | work (event : NodeEvent) (choice : Choice)
  | lookUp (dip : Nat) (choice : Choice)
  | takeDownLink (a b : Nat)

def RoutingConfig.StartsCurrent (r : RoutingConfig) (table : DrillSwitch) (choice : Choice)
    (dip : Nat) : Prop :=
  r.routingMode = .drill → ∀ nexthops, table.rtTable[dip]? = some nexthops →
    match table.previousBestInterfaceMap[dip]? with
    | some interface => interface ∈ nexthops ∨
        ∃ load, calculateInterfaceLoad r.drill choice.queues interface = some load ∧
          Beaten r.drill choice.queues (choice.shuffled.take drillCandidate) load
    | none => 0 ∈ nexthops ∨
        Beaten r.drill choice.queues (choice.shuffled.take drillCandidate) 4294967295

namespace RoutedSwitch

def init (c : SwitchNodeConfig) (me : Nat) (net : Network) : RoutedSwitch :=
  ⟨LinkedSwitch.init c, net.setRoutingEntries me DrillSwitch.init, net, fun _ => False⟩

/-- `TakeDown` on the device of the link at this switch, if it has one. -/
def portDown (c : SwitchNodeConfig) (me : Nat) (net : Network) (a b : Nat) (s : LinkedSwitch) :
    LinkedSwitch :=
  if me = a then s.takeDown c (net.idx a b)
  else if me = b then s.takeDown c (net.idx b a)
  else s

/-- `TakeDownLink` of a link that is up, as the switch `me` sees it. -/
def takeDownLink (c : SwitchNodeConfig) (me : Nat) (s : RoutedSwitch) (a b : Nat) : RoutedSwitch :=
  { linked := portDown c me s.net a b s.linked
    routes := (s.net.markDown a b).setRoutingEntries me s.routes.clearTable
    net := s.net.markDown a b
    left := fun unit => s.linked.node.Buffered unit }

/-- The packet joins a VOQ with a port that the memory of DRILL gave it. -/
def Misled (r : RoutingConfig) (s : RoutedSwitch) (event : NodeEvent) (choice : Choice)
    (unit : PacketUnit) : Prop :=
  (∃ inDev p, event = .receive inDev (some unit.outDev) p ∧ p.dip = unit.dst) ∧
    ¬ r.StartsCurrent s.routes choice unit.dst

/-- The table is looked up for the packet of an event. Data carry no `SymmetricRoutingTag`. -/
inductive LooksUp (c : SwitchNodeConfig) (r : RoutingConfig) (table : DrillSwitch)
    (event : NodeEvent) (choice : Choice) : DrillSwitch → Prop
  | spared (none : event.lookedUp c = none) : LooksUp c r table event choice table
  | found {p : Packet} {outDev : Option Nat} {after : DrillSwitch}
      (looked : event.lookedUp c = some (p, outDev)) (shuffles : choice.Shuffles r table p.dip)
      (data : p.isUdp = true → choice.leafIngress = none)
      (result : r.getOutDev table choice p.dip = some (outDev, after)) :
      LooksUp c r table event choice after

inductive Step (c : SwitchNodeConfig) (r : RoutingConfig) (me : Nat) (s : RoutedSwitch) :
    RoutedEvent → RoutedSwitch → Prop
  | work {event : NodeEvent} {choice : Choice} {out : Option Packet} {node : SwitchNode}
      {routes : DrillSwitch} (permitted : event.Permitted s.linked.linkUp)
      (looksUp : LooksUp c r s.routes event choice routes)
      (step : s.linked.node.Step c (event, out) node) :
      Step c r me s (.work event choice)
        { s with
          linked := ⟨node, s.linked.linkUp⟩
          routes := routes
          left := fun unit => s.left unit ∨ s.Misled r event choice unit }
  | lookUp {dip : Nat} {choice : Choice} {outDev : Option Nat} {routes : DrillSwitch}
      (shuffles : choice.Shuffles r s.routes dip)
      (result : r.getOutDev s.routes choice dip = some (outDev, routes)) :
      Step c r me s (.lookUp dip choice) { s with routes := routes }
  | takeDownLink {a b : Nat} (up : s.net.up a b = true) :
      Step c r me s (.takeDownLink a b) (s.takeDownLink c me a b)

end RoutedSwitch

/-- A data packet that an event hands to `SwitchSend` on its arrival, with destination and port. -/
inductive SwitchNode.HandsOn (c : SwitchNodeConfig) (s : SwitchNode) (event : NodeEvent) :
    Nat → Nat → Prop
  | direct {a : Arrival} {p : Packet} {up : Upstream} (arrives : s.arrival c event = some a)
      (data : a.p.isUdp = true) (admitted : a.admitted c = true)
      (routed : a.routed c = .ok (some p, up)) : HandsOn c s event a.p.dip a.outDev

/-- The head of a VOQ that an event hands to `SwitchSend`, as it was stored and as it leaves. -/
inductive SwitchNode.TakesOut (c : SwitchNodeConfig) (s : SwitchNode) :
    NodeEvent → PacketUnit → PacketUnit → Prop
  | released {voq : Nat × Nat} {top unit : PacketUnit} {rest : List PacketUnit} {up : Upstream}
      (head : s.upstream.voqPackets voq = top :: rest)
      (sent : s.upstream.checkAndSendOne c.upstream voq = .ok (some unit, up)) :
      TakesOut c s (.release voq) top unit

namespace RoutedSwitch

def Current (s : RoutedSwitch) (dst dev : Nat) : Prop :=
  s.linked.linkUp dev = true ∧ s.routes.NextHop dst dev

/-- Every data packet that the event hands to `SwitchSend` goes to a current port. -/
structure FollowsRoutes (c : SwitchNodeConfig) (s : RoutedSwitch) (event : NodeEvent) : Prop where
  direct : ∀ dst dev, s.linked.node.HandsOn c event dst dev → s.Current dst dev
  released : ∀ top unit, s.linked.node.TakesOut c event top unit → s.Current unit.dst unit.outDev

def Followed (c : SwitchNodeConfig) (s : RoutedSwitch) : RoutedEvent → Prop
  | .work event _ => s.FollowsRoutes c event
  | _ => True

/-- A packet that DRILL routes at once does not go by its memory of a former port; one that leaves a
VOQ and is `left` from before has had its port put back into the table. -/
structure Readmitted (c : SwitchNodeConfig) (r : RoutingConfig) (s : RoutedSwitch)
    (event : NodeEvent) (choice : Choice) : Prop where
  direct : ∀ dst dev, s.linked.node.HandsOn c event dst dev → r.StartsCurrent s.routes choice dst
  released : ∀ top unit, s.linked.node.TakesOut c event top unit → s.left top →
    s.routes.NextHop top.dst top.outDev

def Spared (c : SwitchNodeConfig) (r : RoutingConfig) (s : RoutedSwitch) : RoutedEvent → Prop
  | .work event choice => s.Readmitted c r event choice
  | _ => True

section LookUps

variable {r : RoutingConfig} {table after : DrillSwitch} {choice : Choice} {dip : Nat}

/-- The selection is a next hop exactly when its start is one or is beaten. -/
theorem selected_nextHop {selected : Nat × DrillSwitch} {nexthops : List Nat}
    (mode : r.routingMode = .drill) (found : table.rtTable[dip]? = some nexthops)
    (permuted : choice.shuffled.Perm nexthops)
    (success : selectEgressByDRILL r.drill choice.queues table choice.shuffled dip =
      some selected) : r.StartsCurrent table choice dip ↔ selected.1 ∈ nexthops := by
  obtain ⟨start, begins, success⟩ := Option.bind_eq_some_iff.mp success
  obtain ⟨least, samples, success⟩ := Option.bind_eq_some_iff.mp success
  obtain rfl := Option.some.inj success
  have sampled := foldlM_samplePort _ samples
  have unfolded : r.StartsCurrent table choice dip ↔
      match table.previousBestInterfaceMap[dip]? with
      | some interface => interface ∈ nexthops ∨
          ∃ load, calculateInterfaceLoad r.drill choice.queues interface = some load ∧
            Beaten r.drill choice.queues (choice.shuffled.take drillCandidate) load
      | none => 0 ∈ nexthops ∨
          Beaten r.drill choice.queues (choice.shuffled.take drillCandidate) 4294967295 := by
    constructor
    · exact fun current => current mode nexthops found
    · intro current _ hops known
      rw [found] at known
      obtain rfl := Option.some.inj known
      exact current
  rw [unfolded]
  unfold previousBest at begins
  cases memory : table.previousBestInterfaceMap[dip]? with
  | none =>
      rw [memory] at begins
      obtain rfl := Option.some.inj begins
      cases sampled with
      | start below => simp only [not_beaten below, or_false]
      | @beaten port load member known smaller below =>
          have hop := permuted.mem_iff.mp (List.mem_of_mem_take member)
          exact iff_of_true (.inr ⟨port, member, load, known, smaller⟩) hop
  | some interface =>
      rw [memory] at begins
      obtain ⟨own, load, rfl⟩ := Option.map_eq_some_iff.mp begins
      simp only [load, Option.some.injEq, exists_eq_left']
      cases sampled with
      | start below => simp only [not_beaten below, or_false]
      | @beaten port less member known smaller below =>
          have hop := permuted.mem_iff.mp (List.mem_of_mem_take member)
          exact iff_of_true (.inr ⟨port, member, less, known, smaller⟩) hop

theorem getOutDev_nextHop {dev : Nat} (shuffles : choice.Shuffles r table dip)
    (untagged : choice.leafIngress = none)
    (result : r.getOutDev table choice dip = some (some dev, after)) :
    r.StartsCurrent table choice dip ↔ table.NextHop dip dev := by
  unfold DrillSwitch.NextHop
  have override : r.drill.symmetricLeaf choice.leafIngress = none := by
    unfold DrillConfig.symmetricLeaf
    rw [untagged]
    split <;> rfl
  unfold RoutingConfig.getOutDev Floodgate.getOutDev at result
  cases found : table.rtTable[dip]? with
  | none => cases mode : r.routingMode <;> simp [mode, found] at result
  | some nexthops =>
      simp only [Option.some.injEq, exists_eq_left']
      cases mode : r.routingMode with
      | global =>
          simp only [mode, found, override] at result
          obtain ⟨egress, picked, same⟩ := Option.map_eq_some_iff.mp result
          obtain ⟨same, -⟩ := Prod.mk.inj same
          obtain rfl := Option.some.inj same
          refine iff_of_true (fun drill => ?_) (List.mem_of_getElem? picked)
          rw [mode] at drill
          contradiction
      | drill =>
          simp only [mode, found, override] at result
          obtain ⟨selected, selects, result⟩ := Option.bind_eq_some_iff.mp result
          have chosen := selected_nextHop mode found (shuffles mode nexthops found) selects
          obtain ⟨same, -⟩ := Prod.mk.inj (Option.some.inj result)
          obtain rfl := Option.some.inj same
          exact chosen

theorem getOutDev_table {outDev : Option Nat} (shuffles : choice.Shuffles r table dip)
    (result : r.getOutDev table choice dip = some (outDev, after)) (dst dev : Nat) :
    after.NextHop dst dev ↔ table.NextHop dst dev := by
  have same : after = table → (after.NextHop dst dev ↔ table.NextHop dst dev) := fun equal =>
    equal ▸ Iff.rfl
  unfold RoutingConfig.getOutDev Floodgate.getOutDev at result
  cases entry : table.rtTable[dip]? with
  | none =>
      cases mode : r.routingMode <;> simp only [mode, entry] at result
      all_goals exact same (Prod.mk.inj (Option.some.inj result)).2.symm
  | some hops =>
      cases mode : r.routingMode with
      | global =>
          simp only [mode, entry] at result
          split at result
          · exact same (Prod.mk.inj (Option.some.inj result)).2.symm
          · obtain ⟨egress, -, found⟩ := Option.map_eq_some_iff.mp result
            exact same (Prod.mk.inj found).2.symm
      | drill =>
          simp only [mode, entry] at result
          obtain ⟨selected, selects, result⟩ := Option.bind_eq_some_iff.mp result
          have kept : after.rtTable = table.rtTable.insert dip choice.shuffled := by
            obtain ⟨start, _, selects⟩ := Option.bind_eq_some_iff.mp selects
            obtain ⟨least, _, selects⟩ := Option.bind_eq_some_iff.mp selects
            obtain rfl := Option.some.inj selects
            split at result
            · rw [← (Prod.mk.inj (Option.some.inj result)).2]
            · rw [← (Prod.mk.inj (Option.some.inj result)).2]
          unfold DrillSwitch.NextHop
          rw [kept, MapSum.lookup_insert]
          by_cases here : dst = dip
          · rw [if_pos here, here, entry]
            simp only [Option.some.injEq, exists_eq_left', (shuffles mode hops entry).mem_iff]
          · rw [if_neg here]

theorem LooksUp.nextHop {c : SwitchNodeConfig} {event : NodeEvent}
    (looksUp : LooksUp c r table event choice after) (dst dev : Nat) :
    after.NextHop dst dev ↔ table.NextHop dst dev := by
  cases looksUp with
  | spared => exact Iff.rfl
  | found _ shuffles _ result => exact getOutDev_table shuffles result dst dev

end LookUps

/-- What every step keeps: the table names ports of links that are up, the devices of these links
are up, and a waiting packet that is not `left` from before has a port of the table. -/
structure Routed (me : Nat) (s : RoutedSwitch) : Prop where
  ports : s.net.PortsUp me s.routes
  links : ∀ next, s.net.up me next = true → s.linked.linkUp (s.net.idx me next) = true
  waiting : ∀ unit, s.linked.node.Buffered unit → s.left unit ∨
    s.routes.NextHop unit.dst unit.outDev

section Steps

variable {c : SwitchNodeConfig} {r : RoutingConfig} {me : Nat} {s after : RoutedSwitch}

theorem Routed.current_iff (routed : Routed me s) (dst dev : Nat) :
    s.Current dst dev ↔ s.routes.NextHop dst dev := by
  refine ⟨fun current => current.2, fun hop => ⟨?_, hop⟩⟩
  obtain ⟨next, working, rfl⟩ := routed.ports dst dev hop
  exact routed.links next working

theorem Routed.init (c : SwitchNodeConfig) (me : Nat) (net : Network) :
    Routed me (RoutedSwitch.init c me net) := by
  refine ⟨Network.setRoutingEntries_portsUp ?_, fun _ _ => rfl, ?_⟩
  · exact fun dip port ⟨_, found, _⟩ => by simp [DrillSwitch.init] at found
  · rintro unit ⟨voq, member⟩
    have registered := (Upstream.Consistent.init c.upstream).registered voq unit member
    simp [Upstream.init] at registered

theorem data_lookedUp (c : SwitchNodeConfig) (inDev : Nat) (outDev : Option Nat) {p : Packet}
    (data : p.isUdp = true) : (NodeEvent.receive inDev outDev p).lookedUp c = some (p, outDev) := by
  cases body : p.body <;> simp [Packet.isUdp, body] at data
  simp [NodeEvent.lookedUp, Packet.isPfc, Packet.synTag, Packet.ackTag, body]

theorem LooksUp.data {event : NodeEvent} {choice : Choice} {routes : DrillSwitch}
    (looksUp : LooksUp c r s.routes event choice routes) {p : Packet} {dev : Nat}
    (looked : event.lookedUp c = some (p, some dev)) (data : p.isUdp = true) :
    r.StartsCurrent s.routes choice p.dip ↔ s.routes.NextHop p.dip dev := by
  cases looksUp with
  | spared none =>
      rw [none] at looked
      contradiction
  | found known shuffles untagged result =>
      rw [known] at looked
      obtain ⟨rfl, rfl⟩ := Prod.mk.inj (Option.some.inj looked)
      exact getOutDev_nextHop shuffles (untagged data) result

theorem Routed.worked (routed : Routed me s) {event : NodeEvent} {choice : Choice}
    {out : Option Packet} {node : SwitchNode} {routes : DrillSwitch}
    (looksUp : LooksUp c r s.routes event choice routes)
    (step : s.linked.node.Step c (event, out) node) :
    Routed me { s with
      linked := ⟨node, s.linked.linkUp⟩
      routes := routes
      left := fun unit => s.left unit ∨ s.Misled r event choice unit } := by
  refine ⟨?_, routed.links, ?_⟩
  · intro dip port hop
    exact routed.ports dip port ((looksUp.nextHop dip port).mp hop)
  · intro unit inside
    simp only [looksUp.nextHop]
    rcases step.buffered inside with before | appends
    · rcases routed.waiting unit before with left | hop
      · exact .inl (.inl left)
      · exact .inr hop
    · obtain ⟨inDev, p, rfl, data, dip⟩ := appends.arrives
      have hop := looksUp.data (data_lookedUp c inDev (some unit.outDev) data) data
      rw [dip] at hop
      by_cases starts : r.StartsCurrent s.routes choice unit.dst
      · exact .inr (hop.mp starts)
      · exact .inl (.inr ⟨⟨inDev, p, rfl, dip⟩, starts⟩)

theorem portDown_node {a b : Nat} {linked : LinkedSwitch} {net : Network} (unit : PacketUnit) :
    (portDown c me net a b linked).node.Buffered unit ↔ linked.node.Buffered unit := by
  unfold portDown
  split
  · exact Iff.rfl
  · split
    · exact Iff.rfl
    · exact Iff.rfl

theorem portDown_linkUp {net : Network} {a b next : Nat} {linked : LinkedSwitch}
    (up : net.up a b = true) (links : ∀ next, net.up me next = true →
      linked.linkUp (net.idx me next) = true)
    (working : (net.markDown a b).up me next = true) :
    (portDown c me net a b linked).linkUp ((net.markDown a b).idx me next) = true := by
  obtain ⟨before, idx, apart⟩ := Network.markDown_up working
  rw [idx]
  have spared : ∀ other, net.up me other = true → next ≠ other →
      (linked.takeDown c (net.idx me other)).linkUp (net.idx me next) = true := by
    intro other present different
    have ports : net.idx me next ≠ net.idx me other :=
      fun same => different (Network.idx_inj before present same)
    simp only [LinkedSwitch.takeDown, if_neg ports]
    exact links next before
  unfold portDown
  split
  · rename_i here
    subst here
    exact spared b up fun same => apart (.inl ⟨rfl, same⟩)
  · split
    · rename_i here
      subst here
      exact spared a (Network.up_symm up) fun same => apart (.inr ⟨rfl, same⟩)
    · exact links next before

theorem Routed.step (routed : Routed me s) {event : RoutedEvent}
    (step : Step c r me s event after) : Routed me after := by
  cases step with
  | work permitted looksUp step => exact routed.worked looksUp step
  | lookUp shuffles result =>
      refine ⟨?_, routed.links, ?_⟩
      · intro dip port hop
        exact routed.ports dip port ((getOutDev_table shuffles result dip port).mp hop)
      · intro unit inside
        simp only [getOutDev_table shuffles result]
        exact routed.waiting unit inside
  | @takeDownLink a b up =>
      refine ⟨?_, ?_, ?_⟩
      · exact Network.setRoutingEntries_portsUp (Network.cleared_portsUp me s.routes)
      · exact fun next working => portDown_linkUp up routed.links working
      · exact fun unit inside => .inl ((portDown_node unit).mp inside)

theorem handsOn_data {node : SwitchNode} {event : NodeEvent} {dst dev : Nat}
    (hands : node.HandsOn c event dst dev) :
    ∃ p, event.lookedUp c = some (p, some dev) ∧ p.dip = dst ∧ p.isUdp = true := by
  obtain ⟨arrives, data, _, _⟩ := hands
  cases event with
  | receive inDev outDev p =>
      cases outDev with
      | none => simp [SwitchNode.arrival] at arrives
      | some outDev =>
          simp only [SwitchNode.arrival] at arrives
          split at arrives
          · contradiction
          · obtain rfl := Option.some.inj arrives
            have isData := @SwitchNode.recordPsn_isUdp c node inDev (p.setFlowId (some inDev))
            have dip := (@SwitchNode.recordPsn_dip c node inDev (p.setFlowId (some inDev))).1
            have fresh : p.isUdp = true := isData.symm.trans data
            exact ⟨p, data_lookedUp c inDev (some outDev) fresh, dip.symm, fresh⟩
  | goOn inDev outDev p tagged =>
      cases outDev with
      | none => simp [SwitchNode.arrival] at arrives
      | some outDev =>
          obtain rfl := Option.some.inj arrives
          have same : p.isUdp = true := data
          cases body : p.body <;> simp [Packet.isUdp, Packet.ackTag, body] at same tagged
  | release voq => simp [SwitchNode.arrival] at arrives
  | transmit ifIndex => simp [SwitchNode.arrival] at arrives
  | creditTimeout dev dst => simp [SwitchNode.arrival] at arrives
  | synTimeout dev recent => simp [SwitchNode.arrival] at arrives

theorem takesOut_stored {node : SwitchNode} {event : NodeEvent} {top unit : PacketUnit}
    (takes : node.TakesOut c event top unit) :
    node.Buffered top ∧ unit.dst = top.dst ∧ unit.outDev = top.outDev := by
  cases takes with
  | @released voq top unit rest up head sent =>
      obtain ⟨other, yields⟩ := (Upstream.checkAndSendOne_yields voq).of_ok sent
      obtain ⟨rest', found, -⟩ := yields.packets
      rw [head] at found
      obtain ⟨rfl, -⟩ := List.cons.inj found
      refine ⟨⟨voq, yields.top_mem⟩, ?_⟩
      rcases yields.unit with rfl | ⟨psn, rfl⟩
      · exact ⟨rfl, rfl⟩
      · exact ⟨rfl, rfl⟩

/-- One event follows the routes exactly when it is spared. -/
theorem Routed.spared_iff (routed : Routed me s) {event : RoutedEvent}
    (step : Step c r me s event after) : s.Spared c r event ↔ s.Followed c event := by
  cases step with
  | lookUp => exact Iff.rfl
  | takeDownLink => exact Iff.rfl
  | work permitted looksUp step =>
      constructor
      · intro readmitted
        refine ⟨fun dst dev hands => ?_, fun top unit takes => ?_⟩
        · obtain ⟨p, looked, rfl, data⟩ := handsOn_data hands
          rw [routed.current_iff]
          exact (looksUp.data looked data).mp (readmitted.direct _ _ hands)
        · obtain ⟨inside, dst, outDev⟩ := takesOut_stored takes
          rw [routed.current_iff, dst, outDev]
          exact (routed.waiting top inside).elim (readmitted.released top unit takes) id
      · intro follows
        refine ⟨fun dst dev hands => ?_, fun top unit takes _ => ?_⟩
        · obtain ⟨p, looked, rfl, data⟩ := handsOn_data hands
          exact (looksUp.data looked data).mpr (follows.direct _ _ hands).2
        · obtain ⟨-, dst, outDev⟩ := takesOut_stored takes
          have current := follows.released top unit takes
          rw [dst, outDev] at current
          exact current.2

end Steps

/-- In every run, every data packet goes to a port that is up and a next hop of its destination
exactly when DRILL does not send one to a former port and no packet leaves a VOQ for a port that the
last `TakeDownLink` has not put back. -/
theorem reroutes_buffered (c : SwitchNodeConfig) (r : RoutingConfig) (me : Nat) (net : Network)
    (entries : List (RoutedSwitch × RoutedEvent)) (s : RoutedSwitch)
    (run : Run (Traced (Step c r me)) (init c me net) entries s) :
    (∀ entry ∈ entries, entry.1.Spared c r entry.2) ↔
      ∀ entry ∈ entries, entry.1.Followed c entry.2 := by
  have routed := run.holds_along (Routed me) (fun _ _ => True) (Routed.init c me net)
    (fun _ _ _ routed _ step => routed.step step) (fun _ _ => trivial)
  have exact_step : ∀ entry ∈ entries, (entry.1.Spared c r entry.2 ↔ entry.1.Followed c entry.2) := by
    intro entry member
    obtain ⟨after, step⟩ := run.taken entry member
    exact (routed.1 entry member).spared_iff step
  constructor
  · intro spared entry member
    exact (exact_step entry member).mp (spared entry member)
  · intro followed entry member
    exact (exact_step entry member).mpr (followed entry member)

/-- Switch 3 reaches host 1, behind switch 6, through switch 4 on port 2 and switch 5 on port 3. -/
def twoPaths : Nat → ExtTreeMap Nat Interface
  | 0 => (∅ : ExtTreeMap Nat Interface).insert 6 ⟨1, true⟩
  | 1 => (∅ : ExtTreeMap Nat Interface).insert 6 ⟨1, true⟩
  | 2 => (∅ : ExtTreeMap Nat Interface).insert 3 ⟨1, true⟩
  | 3 => (((∅ : ExtTreeMap Nat Interface).insert 2 ⟨1, true⟩).insert 4 ⟨2, true⟩).insert 5 ⟨3, true⟩
  | 4 => ((∅ : ExtTreeMap Nat Interface).insert 3 ⟨1, true⟩).insert 6 ⟨2, true⟩
  | 5 => ((∅ : ExtTreeMap Nat Interface).insert 3 ⟨1, true⟩).insert 6 ⟨2, true⟩
  | 6 => ((((∅ : ExtTreeMap Nat Interface).insert 4 ⟨1, true⟩).insert 5 ⟨2, true⟩).insert 1
      ⟨3, true⟩).insert 0 ⟨4, true⟩
  | _ => ∅

theorem twoPaths_links (a b : Nat) (i : Interface) (found : (twoPaths a)[b]? = some i) :
    b < 7 ∧ (∃ j : Interface, (twoPaths b)[a]? = some j ∧ j.up = i.up) ∧
      ∀ edge ∈ (twoPaths a).toList, i.idx = edge.2.idx → b = edge.1 := by
  have checked : ∀ a < 7, ∀ edge ∈ (twoPaths a).toList, edge.1 < 7 ∧
      ((twoPaths edge.1)[a]?).any (fun j => j.up == edge.2.up) = true ∧
      ∀ other ∈ (twoPaths a).toList, edge.2.idx = other.2.idx → edge.1 = other.1 := by
    decide +kernel
  have inside : a < 7 := by
    by_contra beyond
    have empty : twoPaths a = ∅ := by
      unfold twoPaths
      split <;> first | omega | rfl
    rw [empty] at found
    simp at found
  have member : (b, i) ∈ (twoPaths a).toList := ExtTreeMap.mem_toList_iff_getElem?_eq_some.mpr found
  obtain ⟨known, back, distinct⟩ := checked a inside (b, i) member
  refine ⟨known, ?_, distinct⟩
  obtain ⟨j, present, same⟩ := (Option.any_eq_true _ _).mp back
  exact ⟨j, present, eq_of_beq same⟩

def twoPathNetwork : Network where
  nodeNum := 7
  isSwitch := fun node => decide (3 ≤ node)
  nbr2if := twoPaths
  known := fun a b i found => (twoPaths_links a b i found).1
  symmetric := fun a b i found => (twoPaths_links a b i found).2.1
  distinct := fun a b other i j found present same =>
    (twoPaths_links a b i found).2.2 (other, j)
      (ExtTreeMap.mem_toList_iff_getElem?_eq_some.mpr present) same

section Examples

open SwitchNode

def oneWindow : SwitchNodeConfig :=
  smallSwitch (narrow .switchDstCredit unlimited 1024 Word32.kilo_lt) true

def hashRouting : RoutingConfig := ⟨.global, drillConfig⟩

def hashed (hash : Nat) : Choice := ⟨hash, fun _ => none, [], none⟩

def next (node : SwitchNode) (event : NodeEvent) : SwitchNode :=
  match node.handle oneWindow id event with
  | .ok sent => sent.2
  | .error _ => node

theorem next_step {node : SwitchNode} {event : NodeEvent} (valid : event.Valid oneWindow)
    (succeeds : (node.handle oneWindow id event).isOk = true) :
    ∃ out, node.Step oneWindow (event, out) (next node event) := by
  unfold next
  cases handled : node.handle oneWindow id event with
  | error failure => simp [handled, Except.isOk, Except.toBool] at succeeds
  | ok sent => exact ⟨sent.1, valid, id, handled⟩

def sentNode : SwitchNode := next (SwitchNode.init oneWindow) (.receive 1 (some 2) kiloPacket)

def congestedNode : SwitchNode := next sentNode (.receive 1 (some 2) kiloPacket)

/-- The link of port 3 has been taken down and the window of host 1 is back. -/
def sparedNode : SwitchNode :=
  next (congestedNode.takeDown oneWindow 3).2 (.receive 2 none kiloReturn)

/-- One packet went to port 2 and one waits for port 3. -/
def waitingNode : SwitchNode := next sentNode (.receive 1 (some 3) kiloPacket)

/-- The same for the packet that waits for port 3. -/
def reopenedNode : SwitchNode :=
  next (waitingNode.takeDown oneWindow 3).2 (.receive 2 none kiloReturn)

theorem kilo_valid {dev : Nat} (port : dev < 4) :
    (NodeEvent.receive 1 (some dev) kiloPacket).Valid oneWindow := by
  refine ⟨(by decide : 1 < 4), fun other same => ?_, (by decide : 1 < 3)⟩
  obtain rfl := Option.some.inj same
  exact port

def openSwitch (node : SwitchNode) (left : PacketUnit → Prop) : RoutedSwitch :=
  { init oneWindow 3 twoPathNetwork with
    linked := ⟨node, fun _ => true⟩
    left := left }

def leavesFor {Failure : Type} (port : Nat) : Except Failure (Option PacketUnit × Upstream) → Bool
  | .ok (some unit, _) => decide (unit.outDev = port)
  | _ => false

theorem twoPaths_evaluated :
    (init oneWindow 3 twoPathNetwork).routes.rtTable[kiloPacket.dip]? = some [2, 3] ∧
      ((SwitchNode.init oneWindow).handle oneWindow id
        (.receive 1 (some 2) kiloPacket)).isOk = true ∧
      (twoPathNetwork.Connected ∧ (twoPathNetwork.markDown 3 5).Connected) ∧
      leavesFor 3 (reopenedNode.upstream.checkAndSendOne oneWindow.upstream (0, 1)) = true ∧
      (sentNode.handle oneWindow id (.receive 1 (some 2) kiloPacket)).isOk = true ∧
      ((congestedNode.takeDown oneWindow 3).2.handle oneWindow id
        (.receive 2 none kiloReturn)).isOk = true ∧
      (sparedNode.handle oneWindow id (.release (0, 1))).isOk = true ∧
      leavesFor 2 (sparedNode.upstream.checkAndSendOne oneWindow.upstream (0, 1)) = true ∧
      twoPathNetwork.up 3 5 = true := by
  unfold Network.Connected
  decide +kernel

theorem kilo_arrives {node : SwitchNode} (left : PacketUnit → Prop) (hash : Nat) {dev : Nat}
    (port : dev < 4) (picked : ([2, 3] : List Nat)[hash % 2]? = some dev)
    (succeeds : (node.handle oneWindow id (.receive 1 (some dev) kiloPacket)).isOk = true) :
    ∃ later, Step oneWindow hashRouting 3 (openSwitch node left)
      (.work (.receive 1 (some dev) kiloPacket) (hashed hash))
      (openSwitch (next node (.receive 1 (some dev) kiloPacket)) later) := by
  obtain ⟨out, step⟩ := next_step (kilo_valid port) succeeds
  have entry := twoPaths_evaluated.1
  have looksUp : LooksUp oneWindow hashRouting (init oneWindow 3 twoPathNetwork).routes
      (.receive 1 (some dev) kiloPacket) (hashed hash)
      (init oneWindow 3 twoPathNetwork).routes := by
    refine .found (data_lookedUp oneWindow 1 (some dev) rfl) (fun drill => ?_) (fun _ => rfl) ?_
    · contradiction
    · have count : ([2, 3] : List Nat).length = 2 := rfl
      simp only [RoutingConfig.getOutDev, hashRouting, entry, hashed, count]
      simp [DrillConfig.symmetricLeaf, drillConfig, picked]
  exact ⟨_, .work rfl looksUp step⟩

theorem first_arrives : ∃ later, Step oneWindow hashRouting 3 (init oneWindow 3 twoPathNetwork)
    (.work (.receive 1 (some 2) kiloPacket) (hashed 0)) (openSwitch sentNode later) :=
  @kilo_arrives (SwitchNode.init oneWindow) (fun _ => False) 0 2 (by decide) rfl
    twoPaths_evaluated.2.1

/-- Two packets go to port 2, the second once the link of port 3 has been taken down and the window is
back. Port 2 is in the new table again. -/
def waitsAndLeaves : List RoutedEvent :=
  [.work (.receive 1 (some 2) kiloPacket) (hashed 0),
    .work (.receive 1 (some 2) kiloPacket) (hashed 0), .takeDownLink 3 5,
    .work (.receive 2 none kiloReturn) (hashed 0), .work (.release (0, 1)) (hashed 0)]

theorem reroutes_buffered_two_packets :
    ∃ entries s, entries.map Prod.snd = waitsAndLeaves ∧
      Run (Traced (Step oneWindow hashRouting 3)) (init oneWindow 3 twoPathNetwork) entries s ∧
      ((∀ entry ∈ entries, entry.1.Spared oneWindow hashRouting entry.2) ↔
        ∀ entry ∈ entries, entry.1.Followed oneWindow entry.2) ∧
      leavesFor 2 (sparedNode.upstream.checkAndSendOne oneWindow.upstream (0, 1)) = true := by
  obtain ⟨-, -, -, -, waits, returns, leaves, port, up⟩ := twoPaths_evaluated
  obtain ⟨first, sends⟩ := first_arrives
  obtain ⟨second, waits⟩ := @kilo_arrives sentNode first 0 2 (by decide) rfl waits
  have down : Step oneWindow hashRouting 3 (openSwitch congestedNode second) (.takeDownLink 3 5)
      _ := .takeDownLink up
  obtain ⟨_, restored⟩ := @next_step (congestedNode.takeDown oneWindow 3).2
    (.receive 2 none kiloReturn) ⟨(by decide : 2 < 4), fun _ none => absurd none (by simp),
      (by decide : 0 < 3)⟩ returns
  obtain ⟨_, released⟩ := @next_step sparedNode (.release (0, 1)) trivial leaves
  have reopens : ∃ after, Step oneWindow hashRouting 3
      ((openSwitch congestedNode second).takeDownLink oneWindow 3 3 5)
      (.work (.receive 2 none kiloReturn) (hashed 0)) after ∧ after.linked.node = sparedNode :=
    ⟨_, .work rfl (.spared rfl) restored, rfl⟩
  obtain ⟨reopened, reopens, node⟩ := reopens
  rw [← node] at released
  have leaving : Step oneWindow hashRouting 3 reopened (.work (.release (0, 1)) (hashed 0)) _ :=
    .work trivial (.spared rfl) released
  have run := ((((Run.nil.told sends).told waits).told down).told reopens).told leaving
  exact ⟨_, _, rfl, run, reroutes_buffered oneWindow hashRouting 3 twoPathNetwork _ _ run, port⟩

theorem connected_networks :
    twoPathNetwork.Connected ∧ (twoPathNetwork.markDown 3 5).Connected :=
  twoPaths_evaluated.2.2.1

theorem head_leaves : ∃ top unit, reopenedNode.TakesOut oneWindow (.release (0, 1)) top unit ∧
    unit.outDev = 3 := by
  have leaves := twoPaths_evaluated.2.2.2.1
  unfold leavesFor at leaves
  split at leaves
  · rename_i unit up sent
    obtain ⟨top, yields⟩ := (Upstream.checkAndSendOne_yields (0, 1)).of_ok sent
    obtain ⟨rest, head, -⟩ := yields.packets
    exact ⟨top, unit, .released head sent, of_decide_eq_true leaves⟩
  · contradiction

def downSwitch : RoutedSwitch :=
  (openSwitch waitingNode fun _ => False).takeDownLink oneWindow 3 3 5

def reopenedSwitch (left : PacketUnit → Prop) : RoutedSwitch :=
  { downSwitch with
    linked := ⟨reopenedNode, downSwitch.linked.linkUp⟩
    left := left }

/-- The packet that waits for port 3 is sent to it after its link has been taken down, although the
network stays connected. -/
theorem buffered_packet_not_rerouted :
    ¬ ∀ (c : SwitchNodeConfig) (r : RoutingConfig) (me : Nat) (net : Network)
      (entries : List (RoutedSwitch × RoutedEvent)) (s : RoutedSwitch),
      Run (Traced (Step c r me)) (init c me net) entries s →
        (∀ entry ∈ entries, entry.1.net.Connected) → s.net.Connected →
          ∀ entry ∈ entries, entry.1.Followed c entry.2 := by
  intro claim
  obtain ⟨first, sends⟩ := first_arrives
  obtain ⟨second, waits⟩ := @kilo_arrives sentNode first 1 3 (by decide) rfl (by decide +kernel)
  have up : twoPathNetwork.up 3 5 = true := by decide +kernel
  have down : Step oneWindow hashRouting 3 (openSwitch waitingNode second) (.takeDownLink 3 5)
      downSwitch := .takeDownLink up
  obtain ⟨_, restored⟩ := @next_step (waitingNode.takeDown oneWindow 3).2 (.receive 2 none kiloReturn)
    ⟨(by decide : 2 < 4), fun _ none => absurd none (by simp), (by decide : 0 < 3)⟩
    (by decide +kernel)
  have reopens : ∃ left, Step oneWindow hashRouting 3 downSwitch
      (.work (.receive 2 none kiloReturn) (hashed 0)) (reopenedSwitch left) :=
    ⟨_, .work rfl (.spared rfl) restored⟩
  obtain ⟨third, reopens⟩ := reopens
  obtain ⟨_, released⟩ := @next_step reopenedNode (.release (0, 1)) trivial (by decide +kernel)
  have leaves : ∃ after, Step oneWindow hashRouting 3 (reopenedSwitch third)
      (.work (.release (0, 1)) (hashed 0)) after ∧ after.net = downSwitch.net :=
    ⟨_, .work trivial (.spared rfl) released, rfl⟩
  obtain ⟨after, leaves, net⟩ := leaves
  have run : Run (Traced (Step oneWindow hashRouting 3)) (init oneWindow 3 twoPathNetwork) _ after :=
    ((((Run.nil.told sends).told waits).told down).told reopens).told leaves
  have connected : downSwitch.net.Connected := connected_networks.2
  have followed := claim oneWindow hashRouting 3 twoPathNetwork _ after run
    (by simpa using ⟨connected_networks.1, connected_networks.1, connected_networks.1, connected,
      connected⟩) (net ▸ connected) (reopenedSwitch third, .work (.release (0, 1)) (hashed 0))
      (by simp)
  obtain ⟨top, unit, takes, port⟩ := head_leaves
  have current := followed.released top unit takes
  rw [port] at current
  have gone : (reopenedSwitch third).linked.linkUp 3 = false :=
    (by decide +kernel : downSwitch.linked.linkUp 3 = false)
  rw [Current, gone] at current
  exact Bool.noConfusion current.1

end Examples

end RoutedSwitch

end Floodgate
