import Floodgate.CreditConservation
import Floodgate.NumberedData

/-! Numbered data on its way over a link, from the queues of one switch through the next one, and
what each event of a network changes of it. -/

namespace Floodgate

open Std Outcome LabelledRun SwitchNode

/-- One for a packet with a byte whose number is not above `limit`. -/
def startsBelow (limit number size : Nat) : Nat := if number - size < limit then 1 else 0

/-- The size of a packet whose bytes all have numbers above `limit`. -/
def startsFrom (limit number size : Nat) : Nat := if limit ≤ number - size then size else 0

namespace Mesh

/-- The data for `dst` on its way from the port `up` through the switch at `down`: in the queues of
`up`, on the wire, or in the switch. -/
def onWay (c : MeshConfig) (w : Mesh) (up down : Nat × Nat) (dst : Nat)
    (count : Nat → Nat → Nat) : Nat :=
  (w.node up.1).sentOn up.2 dst count + w.onWire (Packet.numbered dst count) down +
    (w.node down.1).keptFrom (c.node down.1) down.2 dst count

/-- The bytes for `dst` on their way from the port `dev`; to a host they only wait there. -/
def beyondPort (c : MeshConfig) (w : Mesh) (n dst dev : Nat) : Nat :=
  match c.peer (n, dev) with
  | none => (w.node n).sentOn dev dst fun _ size => size
  | some down => w.onWay c (n, dev) down dst fun _ size => size

/-- The bytes for `dst` that have left the window of the switch `n` and not yet the next switch. -/
def beyond (c : MeshConfig) (w : Mesh) (n dst : Nat) : Nat :=
  ∑ dev ∈ Finset.range (c.node n).nDevices, w.beyondPort c n dst dev

/-- The head of a queue that the port `dev` transmits next. -/
def Serves (c : MeshConfig) (w : Mesh) (n dev : Nat) (p : Packet) : Prop :=
  ∃ qIndex queue, ((w.node n).device dev).queue.dequeueRR ((c.node n).device dev)
    ((w.node n).device dev).paused = some (p, qIndex, queue)

section Counts

variable {c : MeshConfig} {w : Mesh} {up down : Nat × Nat} {dst : Nat}
  {first second : Nat → Nat → Nat}

theorem map_sum_vanish {Item : Type} {items : List Item} {less more : Item → Nat}
    (zero : (items.map less).sum = 0) (none : ∀ item, less item = 0 → more item = 0) :
    (items.map more).sum = 0 := by
  apply List.sum_eq_zero
  intro value member
  obtain ⟨item, inside, rfl⟩ := List.mem_map.mp member
  exact none item (List.sum_eq_zero_iff.mp zero _ (List.mem_map_of_mem inside))

theorem residentBy_vanish {n : SwitchNodeConfig} {s : SwitchNode} {less more : PacketUnit → Nat}
    (zero : s.residentBy n less = 0) (none : ∀ unit, less unit = 0 → more unit = 0) :
    s.residentBy n more = 0 := by
  unfold residentBy at zero ⊢
  obtain ⟨held, queued⟩ := Nat.add_eq_zero_iff.mp zero
  apply Nat.add_eq_zero_iff.mpr
  constructor
  · unfold Upstream.heldBy VOQGroup.heldBy at held ⊢
    rw [MapSum.sumBy_eq_zero] at held ⊢
    intro gid g known
    have group := held gid g known
    rw [MapSum.sumBy_eq_zero] at group ⊢
    intro id units stored
    exact map_sum_vanish (group id units stored) none
  · unfold queuedBy at queued ⊢
    rw [Finset.sum_eq_zero_iff] at queued ⊢
    intro place inside
    exact map_sum_vanish (queued place inside) fun p => none _

theorem onPort_vanish {s : SwitchNode} {dev : Nat} {less more : Packet → Nat}
    (zero : s.onPort dev less = 0) (none : ∀ p, less p = 0 → more p = 0) :
    s.onPort dev more = 0 := by
  unfold onPort at zero ⊢
  rw [Finset.sum_eq_zero_iff] at zero ⊢
  exact fun qIndex inside => map_sum_vanish (zero qIndex inside) none

theorem countAs_vanish (none : ∀ number size, first number size = 0 → second number size = 0)
    {p : Packet} {number : Option Nat} (zero : p.countAs dst first number = 0) :
    p.countAs dst second number = 0 := by
  unfold Packet.countAs at zero ⊢
  split
  · rfl
  · simp only at zero
    split
    · rename_i target
      rw [if_pos target] at zero
      exact none _ _ zero
    · rfl

theorem sentOn_vanish (none : ∀ number size, first number size = 0 → second number size = 0)
    {s : SwitchNode} {dev : Nat} (zero : s.sentOn dev dst first = 0) :
    s.sentOn dev dst second = 0 := by
  unfold sentOn onPort at zero ⊢
  rw [Finset.sum_eq_zero_iff] at zero ⊢
  intro q inside
  exact map_sum_vanish (zero q inside) fun p => countAs_vanish none

theorem keptFrom_vanish (none : ∀ number size, first number size = 0 → second number size = 0)
    {n : SwitchNodeConfig} {s : SwitchNode} {dev : Nat} (zero : s.keptFrom n dev dst first = 0) :
    s.keptFrom n dev dst second = 0 := by
  apply residentBy_vanish zero
  intro unit here
  unfold cameFrom at here ⊢
  split
  · rename_i port
    rw [if_pos port] at here
    exact countAs_vanish none here
  · rfl

theorem onWay_vanish (none : ∀ number size, first number size = 0 → second number size = 0)
    (zero : w.onWay c up down dst first = 0) : w.onWay c up down dst second = 0 := by
  unfold onWay at zero ⊢
  obtain ⟨both, kept⟩ := Nat.add_eq_zero_iff.mp zero
  obtain ⟨sent, wired⟩ := Nat.add_eq_zero_iff.mp both
  have flying : w.onWire (Packet.numbered dst second) down = 0 :=
    map_sum_vanish wired fun p => countAs_vanish none
  rw [sentOn_vanish none sent, flying, keptFrom_vanish none kept]

theorem countAs_add (first second : Nat → Nat → Nat) (p : Packet) (number : Option Nat) :
    p.countAs dst (fun number size => first number size + second number size) number =
      p.countAs dst first number + p.countAs dst second number := by
  unfold Packet.countAs
  split
  · rfl
  · split <;> rfl

theorem onWay_add (first second : Nat → Nat → Nat) :
    w.onWay c up down dst (fun number size => first number size + second number size) =
      w.onWay c up down dst first + w.onWay c up down dst second := by
  have came : cameFrom down.2 dst (fun number size => first number size + second number size) =
      fun unit => cameFrom down.2 dst first unit + cameFrom down.2 dst second unit := by
    funext unit
    unfold cameFrom
    split
    · exact countAs_add first second _ _
    · rfl
  have single : Packet.numbered dst (fun number size => first number size + second number size) =
      fun p => p.numbered dst first + p.numbered dst second := by
    funext p
    exact countAs_add first second p _
  unfold onWay onWire sentOn onPort keptFrom
  rw [came, residentBy_add, single]
  simp only [List.sum_map_add, Finset.sum_add_distrib]
  omega

/-- Where no data starts below `limit`, its bytes are those that `startsFrom` counts. -/
theorem bytes_startsFrom {limit : Nat} (late : w.onWay c up down dst (startsBelow limit) = 0) :
    w.onWay c up down dst (fun _ size => size) = w.onWay c up down dst (startsFrom limit) := by
  have early : w.onWay c up down dst
      (fun number size => if limit ≤ number - size then 0 else size) = 0 := by
    refine onWay_vanish (fun number size none => ?_) late
    unfold startsBelow at none
    split
    · rfl
    · rename_i below
      rw [if_pos (Nat.not_le.mp below)] at none
      contradiction
  have split : (fun _ size : Nat => size) = fun number size =>
      startsFrom limit number size + if limit ≤ number - size then 0 else size := by
    funext number size
    unfold startsFrom
    split <;> omega
  rw [split, onWay_add, early, Nat.add_zero]

end Counts

/-- How the numbers change that a switch may acknowledge: not at all, by a SYN, or by data that
leaves. -/
inductive Raises (c : MeshConfig) (w : Mesh) (event : MeshEvent) (after : Mesh) (n dev dst : Nat) :
    Prop
  | same (kept : (after.node n).downstream.nxtAckPsn dev dst =
      (w.node n).downstream.nxtAckPsn dev dst)
  | syn {k : Nat} {outDev : Option Nat} {p : Packet} {tag : SwitchSYNTag}
      (arrival : event = .deliver n dev k outDev) (found : (w.wire (n, dev))[k]? = some p)
      (frame : p.synTag = some tag)
      (more : (w.node n).downstream.rcvDataPsn dev dst < tag.getDataPSNEntry dst)
      (jump : (after.node n).downstream.nxtAckPsn dev dst = tag.getDataPSNEntry dst)
  | passed {port number : Nat} {internal : (NodeEvent.transmit port).Internal} {p : Packet}
      (departure : event = .act n (.transmit port) internal) (served : w.Serves c n port p)
      (tagged : p.ingressPsn = some number) (row : dev = p.flowId.getD 0) (target : dst = p.dip)
      (raised : (after.node n).downstream.nxtAckPsn dev dst =
        max number ((w.node n).downstream.nxtAckPsn dev dst))
      (gone : port < (c.node n).nDevices → ∀ up, c.peer up = some (n, dev) → ∀ count,
        after.onWay c up (n, dev) dst count + count number p.size ≤
          w.onWay c up (n, dev) dst count)

/-- The frame `p'` is put on the wire to `down`. -/
structure Puts (c : MeshConfig) (w : Mesh) (event : MeshEvent) (after : Mesh) (n port : Nat)
    (down : Nat × Nat) (p p' : Packet) : Prop where
  departure : ∃ internal, event = .act n (.transmit port) internal
  served : w.Serves c n port p
  peer : c.peer (n, port) = some down
  wire : after.wire down = w.wire down ++ [p']
  syn : p'.synTag = p.synTag
  sent : ∀ dst count, (after.node n).sentOn port dst count + p'.numbered dst count =
    (w.node n).sentOn port dst count

/-- What one event does to the data under way, to acknowledgements and to wires. -/
structure Flows (c : MeshConfig) (w : Mesh) (event : MeshEvent) (after : Mesh) : Prop where
  sent : ∀ n dev dst, ∃ size, (after.node n).upstream.nxtDataPsn dev dst =
      (w.node n).upstream.nxtDataPsn dev dst + size ∧
    ∀ count, (after.node n).sentOn dev dst count ≤ (w.node n).sentOn dev dst count +
      fresh count ((w.node n).upstream.nxtDataPsn dev dst) size
  way : ∀ up down, c.peer up = some down → ∀ dst, ∃ size,
    (after.node up.1).upstream.nxtDataPsn up.2 dst =
      (w.node up.1).upstream.nxtDataPsn up.2 dst + size ∧
    ∀ count, after.onWay c up down dst count ≤ w.onWay c up down dst count +
      fresh count ((w.node up.1).upstream.nxtDataPsn up.2 dst) size
  raises : ∀ n dev dst, Raises c w event after n dev dst
  acks : ∀ n dev dst,
    (after.node n).upstream.rcvAckPsn dev dst ≤ (w.node n).upstream.rcvAckPsn dev dst ∨
      ∃ p ∈ w.wire (n, dev), (c.peer (n, dev)).isSome = true ∧
        (after.node n).upstream.rcvAckPsn dev dst ≤
          max ((w.node n).upstream.rcvAckPsn dev dst) (p.acked c.settings dst)
  wires : ∀ down, (after.wire down).Sublist (w.wire down) ∨
    ∃ n port p p', Puts c w event after n port down p p'

section Nodes

variable {c : MeshConfig} {w after : Mesh} {n : Nat} {s : SwitchNode}
  {leaving passing arriving : Nat → Nat → (Nat → Nat → Nat) → Nat}

theorem sent_flows (nodes : after.node = (w.setNode n s).node)
    (sent : ∀ dev dst, ∃ size,
      s.upstream.nxtDataPsn dev dst = (w.node n).upstream.nxtDataPsn dev dst + size ∧
      ∀ count, s.sentOn dev dst count + leaving dev dst count ≤ (w.node n).sentOn dev dst count +
        fresh count ((w.node n).upstream.nxtDataPsn dev dst) size) (m dev dst : Nat) :
    ∃ size, (after.node m).upstream.nxtDataPsn dev dst =
        (w.node m).upstream.nxtDataPsn dev dst + size ∧
      ∀ count, (after.node m).sentOn dev dst count + (if m = n then leaving dev dst count else 0) ≤
        (w.node m).sentOn dev dst count +
          fresh count ((w.node m).upstream.nxtDataPsn dev dst) size := by
  rw [nodes]
  by_cases here : m = n
  · subst here
    rw [setNode_self]
    simpa only [if_true] using sent dev dst
  · rw [setNode_other here]
    exact ⟨0, rfl, fun count => by simp [here, fresh_zero]⟩

theorem way_flows (nodes : after.node = (w.setNode n s).node)
    (sent : ∀ dev dst, ∃ size,
      s.upstream.nxtDataPsn dev dst = (w.node n).upstream.nxtDataPsn dev dst + size ∧
      ∀ count, s.sentOn dev dst count + leaving dev dst count ≤ (w.node n).sentOn dev dst count +
        fresh count ((w.node n).upstream.nxtDataPsn dev dst) size)
    (kept : ∀ dev dst count, s.keptFrom (c.node n) dev dst count + passing dev dst count ≤
      (w.node n).keptFrom (c.node n) dev dst count + arriving dev dst count)
    {up down : Nat × Nat} (dst : Nat)
    (wire : ∀ count, after.onWire (Packet.numbered dst count) down +
        (if down.1 = n then arriving down.2 dst count else 0) ≤
      w.onWire (Packet.numbered dst count) down +
        if up.1 = n then leaving up.2 dst count else 0) :
    ∃ size, (after.node up.1).upstream.nxtDataPsn up.2 dst =
        (w.node up.1).upstream.nxtDataPsn up.2 dst + size ∧
      ∀ count, after.onWay c up down dst count +
          (if down.1 = n then passing down.2 dst count else 0) ≤
        w.onWay c up down dst count +
          fresh count ((w.node up.1).upstream.nxtDataPsn up.2 dst) size := by
  obtain ⟨size, numbers, queues⟩ := sent_flows nodes sent up.1 up.2 dst
  refine ⟨size, numbers, fun count => ?_⟩
  have stays : (after.node down.1).keptFrom (c.node down.1) down.2 dst count +
      (if down.1 = n then passing down.2 dst count else 0) ≤
      (w.node down.1).keptFrom (c.node down.1) down.2 dst count +
        if down.1 = n then arriving down.2 dst count else 0 := by
    rw [nodes]
    by_cases here : down.1 = n
    · rw [here, setNode_self, if_pos rfl, if_pos rfl]
      exact kept down.2 dst count
    · rw [setNode_other here, if_neg here, if_neg here]
  have port := queues count
  have frames := wire count
  unfold onWay
  omega

end Nodes

section Events

variable {c : MeshConfig} {w after : Mesh} {n : Nat}

theorem worked_flows {s : SwitchNode} {event : MeshEvent}
    {arriving : Nat → Nat → (Nat → Nat → Nat) → Nat} {acked : Nat → Nat → Nat}
    (shifts : Shifts (c.node n) (w.node n) arriving acked s)
    (nodes : after.node = (w.setNode n s).node)
    (wire : ∀ up down, c.peer up = some down → ∀ dst count,
      after.onWire (Packet.numbered dst count) down +
        (if down.1 = n then arriving down.2 dst count else 0) ≤
      w.onWire (Packet.numbered dst count) down)
    (wires : ∀ down, (after.wire down).Sublist (w.wire down))
    (raises : ∀ dev dst, Raises c w event after n dev dst)
    (acks : ∀ dev dst, acked dev dst = 0 ∨ ∃ p ∈ w.wire (n, dev),
      (c.peer (n, dev)).isSome = true ∧ acked dev dst = p.acked c.settings dst) :
    Flows c w event after := by
  have sent : ∀ dev dst, ∃ size,
      s.upstream.nxtDataPsn dev dst = (w.node n).upstream.nxtDataPsn dev dst + size ∧
      ∀ count, s.sentOn dev dst count + 0 ≤ (w.node n).sentOn dev dst count +
        fresh count ((w.node n).upstream.nxtDataPsn dev dst) size := shifts.sent
  refine ⟨fun m dev dst => ?_, fun up down link dst => ?_, fun m dev dst => ?_,
    fun m dev dst => ?_, fun down => .inl (wires down)⟩
  · have flows := @sent_flows w after n s (fun _ _ _ => 0) nodes sent m dev dst
    simpa only [ite_self, Nat.add_zero] using flows
  · have flows := @way_flows c w after n s (fun _ _ _ => 0) (fun _ _ _ => 0) arriving nodes sent
      shifts.kept up down dst fun count => by
        simpa only [ite_self, Nat.add_zero] using wire up down link dst count
    simpa only [ite_self, Nat.add_zero] using flows
  · by_cases here : m = n
    · rw [here]
      exact raises dev dst
    · refine .same ?_
      rw [nodes, setNode_other here]
  · rw [nodes]
    by_cases here : m = n
    · subst here
      rw [setNode_self]
      have raised := shifts.acks dev dst
      rcases acks dev dst with none | ⟨p, member, linked, told⟩
      · rw [none, Nat.max_zero] at raised
        exact .inl raised
      · rw [told] at raised
        exact .inr ⟨p, member, linked, raised⟩
    · rw [setNode_other here]
      exact .inl (Nat.le_refl _)

theorem arrived_flows (mode : c.Numbering) {before : Mesh} (nodes : before.node = w.node)
    {event : MeshEvent} {route : Nat → Nat → Nat} {inDev : Nat} {outDev : Option Nat} {p : Packet}
    (clean : p.Clean)
    (wire : ∀ up down, c.peer up = some down → ∀ count : Packet → Nat,
      before.onWire count down + (if down = (n, inDev) then count p else 0) ≤ w.onWire count down)
    (wires : ∀ down, (before.wire down).Sublist (w.wire down))
    (syns : ∀ tag, p.synTag = some tag →
      ∃ k, event = .deliver n inDev k outDev ∧ (w.wire (n, inDev))[k]? = some p)
    (acks : p.ackTag = none ∨ p ∈ w.wire (n, inDev) ∧ (c.peer (n, inDev)).isSome = true)
    (success : before.react c route n (.receive inDev outDev p) = .ok after) :
    Flows c w event after := by
  obtain ⟨middle, receiving, rfl⟩ := react_receive success
  rw [nodes] at receiving
  obtain ⟨shifts, passed⟩ := received_shifts (mode n) clean receiving
  have node : (before.setNode n middle).node = (w.setNode n middle).node := by
    funext m
    simp only [setNode, nodes]
  refine worked_flows shifts node (fun up down link dst count => ?_) wires (fun dev dst => ?_)
    fun dev dst => ?_
  · have frames := wire up down link (Packet.numbered dst count)
    have same : (before.setNode n middle).onWire (Packet.numbered dst count) down =
        before.onWire (Packet.numbered dst count) down := rfl
    rw [same]
    by_cases here : down = (n, inDev)
    · rw [if_pos here] at frames
      rw [here, if_pos rfl, if_pos rfl, ← here]
      exact frames
    · rw [if_neg here] at frames
      by_cases port : down.1 = n
      · have other : down.2 ≠ inDev := fun same => here (Prod.ext port same)
        rw [if_pos port, if_neg other]
        exact frames
      · rw [if_neg port]
        exact frames
  · cases probe : p.synTag with
    | none =>
        refine .same ?_
        rw [setNode_self, passed]
        simp only [heardSyn, probe]
    | some tag =>
        obtain ⟨k, arrival, found⟩ := syns tag probe
        have row : (c.node n).creditRow inDev p.sip = inDev :=
          SwitchNodeConfig.creditRow_all (mode n).psns.all _ _
        have cell := (@Downstream.checkSYN_jumps (c.node n).settings inDev tag
          (w.node n).downstream).passed dev dst
        have after : ((before.setNode n middle).node n).downstream.nxtAckPsn dev dst =
            ((w.node n).downstream.checkSYN (c.node n).settings inDev tag).2.nxtAckPsn dev dst := by
          rw [setNode_self, passed]
          simp only [heardSyn, probe, row]
        rw [← after] at cell
        by_cases jumps : (dev = inDev ∧ dst < (c.node n).settings.hostNum) ∧
            (w.node n).downstream.rcvDataPsn dev dst < tag.getDataPSNEntry dst
        · rw [if_pos jumps] at cell
          obtain ⟨⟨rfl, -⟩, more⟩ := jumps
          exact .syn arrival found probe more cell
        · rw [if_neg jumps] at cell
          exact .same cell
  · by_cases here : dev = inDev
    · subst here
      rcases acks with none | ⟨member, linked⟩
      · refine .inl ?_
        rw [if_pos rfl]
        exact Packet.acked_untagged none dst
      · refine .inr ⟨p, member, linked, ?_⟩
        rw [if_pos rfl, c.shared]
    · exact .inl (if_neg here)

theorem Flows.refl (c : MeshConfig) (w : Mesh) (event : MeshEvent) : Flows c w event w :=
  ⟨fun _ _ _ => ⟨0, rfl, fun _ => Nat.le_add_right _ _⟩,
    fun _ _ _ _ => ⟨0, rfl, fun _ => Nat.le_add_right _ _⟩, fun _ _ _ => .same rfl,
    fun _ _ _ => .inl (Nat.le_refl _), fun _ => .inl (List.Sublist.refl _)⟩

theorem lost_flows (c : MeshConfig) (w : Mesh) (n inDev k : Nat) :
    Flows c w (.lose n inDev k) (w.take (n, inDev) k) := by
  have wires : ∀ down, ((w.take (n, inDev) k).wire down).Sublist (w.wire down) := by
    intro down
    unfold take
    by_cases here : down = (n, inDev)
    · rw [here, setWire_self]
      exact List.eraseIdx_sublist _ _
    · rw [setWire_other _ here]
  refine ⟨fun _ _ _ => ⟨0, rfl, fun _ => Nat.le_add_right _ _⟩,
    fun up down _ dst => ⟨0, rfl, fun count => ?_⟩, fun _ _ _ => .same rfl,
    fun _ _ _ => .inl (Nat.le_refl _), fun down => .inl (wires down)⟩
  have less : (w.take (n, inDev) k).onWire (Packet.numbered dst count) down ≤
      w.onWire (Packet.numbered dst count) down :=
    ((wires down).map (Packet.numbered dst count)).sum_le_sum fun _ _ => Nat.zero_le _
  unfold onWay
  rw [take_node, fresh_zero]
  omega

theorem stayed_flows {s : SwitchNode} {event : MeshEvent}
    (shifts : Shifts (c.node n) (w.node n) (fun _ _ _ => 0) (fun _ _ => 0) s)
    (passed : s.downstream.nxtAckPsn = (w.node n).downstream.nxtAckPsn) :
    Flows c w event (w.setNode n s) := by
  refine worked_flows shifts rfl (fun up down _ dst count => ?_) (fun _ => List.Sublist.refl _)
    (fun dev dst => .same ?_) fun _ _ => .inl rfl
  · rw [ite_self, Nat.add_zero]
    exact Nat.le_refl _
  · rw [setNode_self, passed]

theorem departed_flows {s : SwitchNode} {port : Nat}
    {internal : (NodeEvent.transmit port).Internal} {p p' : Packet} (served : w.Serves c n port p)
    (leaving : Leaving (c.node n) (w.node n) port p p' s) :
    Flows c w (.act n (.transmit port) internal) ((w.setNode n s).put c n port (some p')) := by
  have nodes : ((w.setNode n s).put c n port (some p')).node = (w.setNode n s).node :=
    put_node c port (some p')
  have sent : ∀ dev dst, ∃ size,
      s.upstream.nxtDataPsn dev dst = (w.node n).upstream.nxtDataPsn dev dst + size ∧
      ∀ count, s.sentOn dev dst count + (if dev = port then p'.numbered dst count else 0) ≤
        (w.node n).sentOn dev dst count +
          fresh count ((w.node n).upstream.nxtDataPsn dev dst) size := by
    intro dev dst
    refine ⟨0, by rw [leaving.upstream, Nat.add_zero], fun count => ?_⟩
    rw [leaving.sent]
    exact Nat.le_add_right _ _
  have wire : ∀ up down, c.peer up = some down → ∀ dst count,
      ((w.setNode n s).put c n port (some p')).onWire (Packet.numbered dst count) down ≤
        w.onWire (Packet.numbered dst count) down +
          if up.1 = n then (if up.2 = port then p'.numbered dst count else 0) else 0 := by
    intro up down link dst count
    unfold put onWire
    cases peer : c.peer (n, port) with
    | none => exact Nat.le_add_right _ _
    | some other =>
        by_cases here : down = other
        · subst here
          have same : up = (n, port) := c.peer_unique link peer
          rw [same, if_pos rfl, if_pos rfl]
          simp
        · simp only [setWire_other _ here, setNode_wire]
          exact Nat.le_add_right _ _
  refine ⟨fun m dev dst => ?_, fun up down link dst => ?_, fun m dev dst => ?_,
    fun m dev dst => .inl ?_, fun down => ?_⟩
  · obtain ⟨size, numbers, queues⟩ := sent_flows nodes sent m dev dst
    exact ⟨size, numbers, fun count => (Nat.le_add_right _ _).trans (queues count)⟩
  · have flows := @way_flows c w _ n s (fun dev dst count =>
      if dev = port then p'.numbered dst count else 0) (fun _ _ _ => 0) (fun _ _ _ => 0) nodes sent
      leaving.kept up down dst fun count => by
        simpa only [ite_self, Nat.add_zero] using wire up down link dst count
    simpa only [ite_self, Nat.add_zero] using flows
  · by_cases here : m = n
    · subst here
      rcases leaving.passed dev dst with same | ⟨number, tagged, row, target, raised⟩
      · refine .same ?_
        rw [nodes, setNode_self, same]
      · refine .passed rfl served tagged row target ?_ fun inside up link count => ?_
        · rw [nodes, setNode_self, raised]
        · have flows := @way_flows c w _ m s (fun dev dst count =>
            if dev = port then p'.numbered dst count else 0)
            (fun dev dst count => cameFrom dev dst count (p.toUnit port 0)) (fun _ _ _ => 0) nodes
            sent (fun dev dst count => Nat.le_of_eq (leaving.gone inside dev dst count)) up
            (m, dev) dst fun count => by
              simpa only [ite_self, Nat.add_zero] using wire up (m, dev) link dst count
          obtain ⟨size, numbers, flows⟩ := flows
          have quiet : size = 0 := by
            have unchanged := (nodes ▸ numbers :
              ((w.setNode m s).node up.1).upstream.nxtDataPsn up.2 dst = _)
            by_cases self : up.1 = m
            · rw [self, setNode_self, leaving.upstream] at unchanged
              omega
            · rw [setNode_other self] at unchanged
              omega
          have unit : cameFrom dev dst count (p.toUnit port 0) = count number p.size := by
            have data : p.recorded dst count = count number p.size := by
              simp [Packet.recorded, Packet.countAs, tagged, target]
            simp [cameFrom, Packet.toUnit, data, row]
          have moved := flows count
          rw [if_pos rfl, unit, quiet, fresh_zero, Nat.add_zero] at moved
          exact moved
    · refine .same ?_
      rw [nodes, setNode_other here]
  · rw [nodes]
    by_cases here : m = n
    · rw [here, setNode_self, leaving.upstream]
    · rw [setNode_other here]
  · by_cases here : c.peer (n, port) = some down
    · refine .inr ⟨n, port, p, p', ⟨internal, rfl⟩, served, here, ?_, leaving.syn,
        fun dst count => ?_⟩
      · unfold put
        rw [here]
        exact setWire_self _
      · rw [nodes, setNode_self]
        have queue := leaving.sent port dst count
        rwa [if_pos rfl] at queue
    · refine .inl ?_
      unfold put
      cases peer : c.peer (n, port) with
      | none => exact List.Sublist.refl _
      | some other =>
          have different : down ≠ other := fun same => here (same ▸ peer)
          simp only [setWire_other _ different, setNode_wire]
          exact List.Sublist.refl _

theorem Chained.acted_flows (mode : c.Numbering) (chained : Chained c w) {route : Nat → Nat → Nat}
    {event : NodeEvent} (internal : event.Internal)
    (success : w.react c route n event = .ok after) : Flows c w (.act n event internal) after := by
  cases react_acts internal success with
  | release releasing =>
      obtain ⟨shifts, same⟩ := released_shifts (mode n) (chained.books n) releasing
      exact stayed_flows shifts (by rw [same])
  | creditTimeout firing =>
      obtain ⟨shifts, same⟩ := fired_shifts (mode n) firing
      exact stayed_flows shifts same
  | @synTimeout dev recent =>
      obtain ⟨shifts, same⟩ := probed_shifts (synTimeout_probes (c.node n) (route n) _ dev recent)
      exact stayed_flows shifts (by rw [same])
  | @transmit port out s sending =>
      rcases transmit_leaving (mode n) sending with
        ⟨rfl, rfl⟩ | ⟨p, p', q, queue, served, rfl, leaving⟩
      · have nodes : (fun m => if m = n then w.node n else w.node m) = w.node := by
          funext m
          split
          · rename_i here
            rw [here]
          · rfl
        have same : (w.setNode n (w.node n)).put c n port none = w := by
          cases peer : c.peer (n, port) <;> simp [Mesh.put, peer, setNode, nodes]
        rw [same]
        exact Flows.refl c w _
      · exact departed_flows ⟨q, queue, served⟩ leaving

theorem Step.flows (mode : c.Numbering) (chained : Chained c w) {event : MeshEvent}
    (step : Step c w event after) : Flows c w event after := by
  obtain ⟨valid, route, success⟩ := step
  cases event with
  | host n inDev outDev p =>
      obtain ⟨alone, plain, -⟩ := valid
      refine arrived_flows mode rfl ⟨fun _ => plain.ingressPsn, fun tag tagged => ?_⟩
        (fun up down link count => ?_) (fun _ => List.Sublist.refl _) (fun tag tagged => ?_)
        (.inl plain.ackTag) success
      · rw [plain.ackTag] at tagged
        contradiction
      · have other : ¬ down = (n, inDev) := by
          rintro rfl
          rw [c.symmetric _ _ link] at alone
          contradiction
        rw [if_neg other, Nat.add_zero]
      · rw [plain.synTag] at tagged
        contradiction
  | deliver n inDev k outDev =>
      obtain ⟨linked, -⟩ := valid
      simp only [handle] at success
      cases found : (w.wire (n, inDev))[k]? with
      | none =>
          simp only [found] at success
          obtain rfl := Except.ok.inj success
          exact Flows.refl c w _
      | some p =>
          simp only [found] at success
          obtain ⟨up, peer⟩ := Option.isSome_iff_exists.mp linked
          have member : p ∈ w.wire (n, inDev) := List.mem_of_getElem? found
          obtain ⟨-, clean⟩ := chained.frames up (n, inDev) (c.symmetric _ _ peer) p member
          refine arrived_flows mode (take_node k) clean (fun other down link count => ?_)
            (fun down => ?_) (fun tag _ => ⟨k, rfl, found⟩) (.inr ⟨member, linked⟩) success
          · by_cases here : down = (n, inDev)
            · subst here
              rw [if_pos rfl]
              exact (onWire_take found count).le
            · rw [if_neg here, Nat.add_zero]
              unfold onWire take
              rw [setWire_other _ here]
          · unfold take
            by_cases here : down = (n, inDev)
            · rw [here, setWire_self]
              exact List.eraseIdx_sublist _ _
            · rw [setWire_other _ here]
  | lose n inDev k =>
      obtain rfl := Except.ok.inj success
      exact lost_flows c w n inDev k
  | act n event internal => exact chained.acted_flows mode internal success

end Events

end Mesh

end Floodgate
