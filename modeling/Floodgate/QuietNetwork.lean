import Floodgate.CreditConservation
import Floodgate.UnsharedVoqs

/-! When nothing moves in a network of switches that return credit link by link, no packet waits:
the head of a VOQ waits for bytes that are nearer to their destination, or for credit that is
owed. -/

namespace Floodgate

open Std Outcome LabelledRun

namespace SwitchNode

/-- `fits` holds of all data in the switch, with the port that it leaves on. -/
structure Throughout (fits : Packet → Nat → Prop) (s : SwitchNode) : Prop where
  unshared : s.upstream.Unshared
  units : ∀ voq, ∀ unit ∈ s.upstream.voqPackets voq, fits unit.pkt unit.outDev
  packets : ∀ dev qIndex, ∀ p ∈ s.queues dev qIndex, p.isUdp = true → fits p dev

section Throughout

variable {c : SwitchNodeConfig} {fits : Packet → Nat → Prop} {s after : SwitchNode}

theorem Throughout.init (unlimited : c.upstream.Unlimited) :
    Throughout fits (SwitchNode.init c) := by
  refine ⟨Upstream.Unshared.init unlimited, fun voq unit member => ?_,
    fun dev qIndex p member => ?_⟩
  · have registered := (Upstream.Consistent.init c.upstream).registered voq unit member
    simp [Upstream.init] at registered
  · rw [init_queues] at member
    cases member

theorem Throughout.same (holds : Throughout fits s) (device : after.device = s.device)
    (upstream : after.upstream = s.upstream) : Throughout fits after := by
  have queues : after.queues = s.queues := by
    funext dev q
    simp only [SwitchNode.queues, device]
  exact ⟨upstream ▸ holds.unshared, upstream ▸ holds.units, queues ▸ holds.packets⟩

theorem Throughout.frame (holds : Throughout fits s) {up : Upstream}
    (frame : Upstream.Frame s.upstream up) : Throughout fits { s with upstream := up } := by
  refine ⟨holds.unshared.frame frame, fun voq unit member => ?_, holds.packets⟩
  rw [frame.voqPackets] at member
  exact holds.units voq unit member

theorem Throughout.downstream (holds : Throughout fits s) (d : Downstream) :
    Throughout fits { s with downstream := d } := ⟨holds.unshared, holds.units, holds.packets⟩

theorem Throughout.emits (holds : Throughout fits s) {frames : Nat → List Packet}
    (emits : Emits s after frames) : Throughout fits after := by
  refine ⟨emits.upstream ▸ holds.unshared, emits.upstream ▸ holds.units,
    fun dev qIndex p member data => ?_⟩
  rcases emits.member member with before | ⟨-, frame⟩
  · exact holds.packets dev qIndex p before data
  · have control := emits.control dev p frame
    rw [data] at control
    contradiction

theorem Throughout.signals (holds : Throughout fits s) (signals : Signals s after) :
    Throughout fits after := by
  obtain ⟨frames, emits⟩ := signals.emits
  exact holds.emits emits

theorem Throughout.replies (holds : Throughout fits s) (replies : Replies c s after) :
    Throughout fits after := by
  obtain ⟨frames, returns⟩ := replies
  exact holds.emits returns.emits

theorem Throughout.sent (holds : Throughout fits s) {outDev qIndex : Nat} {p : Packet}
    (here : p.isUdp = true → fits p outDev) : Throughout fits (s.switchSend c outDev qIndex p) := by
  refine ⟨holds.unshared, holds.units, fun dev q other member data => ?_⟩
  rcases switchSend_member member with before | ⟨rfl, rfl, -⟩
  · exact holds.packets dev q other before data
  · exact here data

section Stable

variable (stable : ∀ p dev psn, fits p dev → fits (p.setPsn psn) dev)

include stable

theorem Throughout.passedOn (holds : Throughout fits s) {outDev qIndex : Nat} {p : Packet}
    (here : p.isUdp = true → fits p outDev) (success : s.passOn c outDev qIndex p = .ok after) :
    Throughout fits after := by
  unfold passOn at success
  split at success
  · obtain ⟨⟨routed, up⟩, checking, success⟩ := bind_ok.mp success
    have contents := (Upstream.checkVOQWin_contents p outDev qIndex).of_ok checking
    have unshared := holds.unshared.routed checking
    cases routed with
    | some p' =>
        obtain ⟨frame, psn⟩ := contents
        obtain rfl := Except.ok.inj success
        refine (holds.frame frame).sent fun data => ?_
        rcases psn with rfl | ⟨psn, rfl⟩
        · exact here data
        · exact stable p outDev psn (here ((Packet.setPsn_isUdp p psn).symm.trans data))
    | none =>
        obtain ⟨data, checked, frame, stores⟩ := contents
        obtain rfl := Except.ok.inj success
        refine ⟨unshared, fun voq unit member => ?_, holds.packets⟩
        rcases stores.member member with before | rfl
        · rw [frame.voqPackets] at before
          exact holds.units voq unit before
        · exact here data
  · obtain rfl := Except.ok.inj success
    exact holds.sent here

theorem Throughout.forwarded (holds : Throughout fits s) {inDev : Nat} {outDev : Option Nat}
    {p : Packet}
    (here : ∀ dev, outDev = some dev → p.isUdp = true → fits p dev)
    (success : s.forward c inDev outDev p = .ok after) : Throughout fits after := by
  unfold forward at success
  cases outDev with
  | none =>
      obtain rfl := Except.ok.inj success
      exact holds
  | some outDev =>
      simp only at success
      split at success
      · obtain ⟨device, upstream, -⟩ := charged_same c s inDev outDev (c.qIndexOf p) p
        have admitted := (holds.same device upstream).signals
          (admit_signals c s inDev outDev (c.qIndexOf p) p)
        exact admitted.passedOn stable (here outDev rfl) success
      · obtain rfl := Except.ok.inj success
        exact holds.same rfl rfl

theorem Throughout.received (mode : c.LinkByLink) (holds : Throughout fits s) {route : Nat → Nat}
    {inDev : Nat} {outDev : Option Nat} {p : Packet}
    (here : ∀ dev, outDev = some dev → p.isUdp = true → fits (p.setFlowId (some inDev)) dev)
    (success : s.receive c route inDev outDev p = .ok after) : Throughout fits after := by
  unfold receive at success
  split at success
  · obtain ⟨device, received, success⟩ := bind_ok.mp success
    obtain rfl := Except.ok.inj success
    have queues := (@setDevice_queues s inDev device (receive_queue received)).1
    exact ⟨holds.unshared, holds.units, queues ▸ holds.packets⟩
  · unfold enter at success
    split at success
    · rename_i tag _ frame
      have replies := (receiveSYN_replies c route s tag p.sip p.dip inDev).of_ok success
      exact (holds.downstream _).replies replies
    · have records : s.recordPsn c inDev (p.setFlowId (some inDev)) =
          (p.setFlowId (some inDev), s) := by
        unfold recordPsn
        rw [mode.credit]
      rw [records] at success
      simp only at success
      split at success
      · obtain ⟨up, restoring, success⟩ := bind_ok.mp success
        obtain rfl := Except.ok.inj success
        exact holds.frame ((Upstream.restoreWin_frame _ _ _ _ _).of_ok restoring)
      · exact holds.forwarded stable here success

theorem Throughout.released (holds : Throughout fits s) {voq : Nat × Nat}
    (success : s.release c voq = .ok after) : Throughout fits after := by
  unfold release at success
  obtain ⟨⟨sent, up⟩, sending, success⟩ := bind_ok.mp success
  have contents := (Upstream.checkAndSendOne_yields voq).of_ok sending
  have unshared := holds.unshared.attempted sending
  cases sent with
  | none =>
      obtain rfl := Except.ok.inj success
      exact holds.frame contents
  | some unit =>
      obtain rfl := Except.ok.inj success
      obtain ⟨top, yields⟩ := contents
      have popped : Throughout fits { s with upstream := up } :=
        ⟨unshared, fun place other member => holds.units place other (yields.member member),
          holds.packets⟩
      refine popped.sent fun _ => ?_
      have head := holds.units voq top yields.top_mem
      rcases yields.unit with rfl | ⟨psn, rfl⟩
      · exact head
      · exact stable top.pkt top.outDev psn head

end Stable

theorem Throughout.departed (holds : Throughout fits s) (inDev ifIndex qIndex : Nat) (p : Packet) :
    Throughout fits (s.depart c inDev ifIndex qIndex p) := by
  obtain ⟨device, upstream, -⟩ := discharged_same c s inDev ifIndex qIndex p
  exact (holds.same device upstream).signals (depart_signals c s inDev ifIndex qIndex p)

theorem Throughout.transmitted (holds : Throughout fits s) {route : Nat → Nat} {ifIndex : Nat}
    {out : Option Packet} (success : s.transmit c route ifIndex = .ok (out, after)) :
    Throughout fits after ∧ ∀ p', out = some p' → p'.isUdp = true →
      ∃ p, fits p ifIndex ∧ p'.size = p.size ∧ p'.dip = p.dip := by
  cases (transmit_transmits c route s ifIndex).of_ok success with
  | idle => exact ⟨holds, fun p' other => by cases other⟩
  | @sent p p' qIndex queue _ served notified =>
      have dequeues := BEgressQueue.dequeueRR_dequeues served
      have taken : Throughout fits (s.taken ifIndex queue) :=
        ⟨holds.unshared, holds.units, fun dev q other member data =>
          holds.packets dev q other (taken_member dequeues member) data⟩
      have departed := taken.departed (c := c) (p.flowId.getD 0) ifIndex qIndex p
      have first := holds.packets ifIndex qIndex p (taken_head dequeues)
      cases notified with
      | plain =>
          refine ⟨departed, fun other same data => ?_⟩
          obtain rfl := Option.some.inj same
          exact ⟨p, first data, rfl, rfl⟩
      | credit credited _ replies =>
          refine ⟨(departed.downstream _).replies replies, fun other same data => ?_⟩
          obtain rfl := Option.some.inj same
          exact ⟨p, first data, rfl, rfl⟩
      | psn credited _ _ replies =>
          refine ⟨(departed.downstream _).replies replies, fun other same data => ?_⟩
          obtain rfl := Option.some.inj same
          refine ⟨p, first credited.2.1, ?_, ?_⟩
          · simp [Packet.removeIngressPsn, Packet.setFlowId]
            split <;> rfl
          · simp [Packet.removeIngressPsn, Packet.setFlowId]
            split <;> rfl

theorem Throughout.timedOut (holds : Throughout fits s) {route : Nat → Nat} {dev dst : Nat}
    (success : s.creditTimeout c route dev dst = .ok after) : Throughout fits after :=
  holds.replies ((creditTimeout_replies c route s dev dst).of_ok success)

theorem Throughout.probed (holds : Throughout fits s) {dev : Nat} {recent : Nat → Bool}
    (probes : Probes c s dev recent after) : Throughout fits after := by
  obtain ⟨frames, emits, -⟩ := probes.emits
  exact holds.emits emits

end Throughout

theorem queuedBy_nothing {c : SwitchNodeConfig} {s : SwitchNode}
    (empty : ∀ dev < c.nDevices, ∀ qIndex < qCnt, s.queues dev qIndex = [])
    (weight : PacketUnit → Nat) : s.queuedBy c weight = 0 := by
  apply Finset.sum_eq_zero
  intro place inside
  obtain ⟨dev, qIndex⟩ := Finset.mem_product.mp inside
  unfold cellBy
  rw [empty place.1 (Finset.mem_range.mp dev) place.2 (Finset.mem_range.mp qIndex)]
  rfl

theorem heldBy_nothing {u : Upstream} {weight : PacketUnit → Nat}
    (none : ∀ voq, ∀ unit ∈ u.voqPackets voq, weight unit = 0) : u.heldBy weight = 0 := by
  unfold Upstream.heldBy VOQGroup.heldBy
  rw [MapSum.sumBy_eq_zero]
  intro gid g known
  rw [MapSum.sumBy_eq_zero]
  intro id units stored
  apply List.sum_eq_zero
  intro value member
  obtain ⟨unit, inside, rfl⟩ := List.mem_map.mp member
  refine none (gid, id) unit ?_
  simpa [Upstream.voqPackets, known, VOQGroup.packets, stored] using inside

end SwitchNode

/-- No group of any switch has a limit on its VOQs. -/
def MeshConfig.Unlimited (c : MeshConfig) : Prop := ∀ n, (c.node n).upstream.Unlimited

/-- Data that leaves the switch `n` on a port to another one comes nearer to its destination. -/
def MeshConfig.Nearer (c : MeshConfig) (distance : Nat → Nat → Nat) (n : Nat)
    (outDev : Option Nat) (p : Packet) : Prop :=
  p.isUdp = true → ∀ dev m j, outDev = some dev → c.peer (n, dev) = some (m, j) →
    distance p.dip m < distance p.dip n

/-- Data from hosts is no longer than `limit`, and `GetOutDev` chose a next hop of its
destination. -/
def MeshEvent.Nears (c : MeshConfig) (distance : Nat → Nat → Nat) (limit : Nat) (w : Mesh) :
    MeshEvent → Prop
  | .host n _ outDev p => c.Nearer distance n outDev p ∧ (p.isUdp = true → p.size ≤ limit)
  | .deliver n inDev k outDev => ∀ p, (w.wire (n, inDev))[k]? = some p →
      c.Nearer distance n outDev p
  | _ => True

namespace Mesh

/-- A step without losses in which data takes a next hop. -/
def NearingStep (c : MeshConfig) (distance : Nat → Nat → Nat) (limit : Nat) (w : Mesh)
    (event : MeshEvent) (after : Mesh) : Prop :=
  LosslessStep c w event after ∧ event.Nears c distance limit w

/-- Data in the switch `n` with the port that it leaves on, between its last hop and its next. -/
structure Between (c : MeshConfig) (distance : Nat → Nat → Nat) (limit n : Nat) (p : Packet)
    (outDev : Nat) : Prop where
  small : p.size ≤ limit
  next : ∀ m j, c.peer (n, outDev) = some (m, j) → distance p.dip m < distance p.dip n
  last : ∀ i m j, p.flowId = some i → c.peer (n, i) = some (m, j) →
    distance p.dip n < distance p.dip m

structure Nearing (c : MeshConfig) (distance : Nat → Nat → Nat) (limit : Nat) (w : Mesh) :
    Prop where
  nodes : ∀ n, (w.node n).Throughout (Between c distance limit n)
  wires : ∀ n dev m j, c.peer (n, dev) = some (m, j) → ∀ p ∈ w.wire (n, dev), p.isUdp = true →
    p.size ≤ limit ∧ distance p.dip n < distance p.dip m

section Events

variable {c : MeshConfig} {distance : Nat → Nat → Nat} {limit : Nat} {w after : Mesh} {n : Nat}

theorem Between.stable (p : Packet) (dev psn : Nat) (between : Between c distance limit n p dev) :
    Between c distance limit n (p.setPsn psn) dev := by
  refine ⟨?_, ?_, ?_⟩
  · rw [Packet.setPsn_size]
    exact between.small
  · rw [Packet.setPsn_dip]
    exact between.next
  · rw [Packet.setPsn_dip, Packet.setPsn_flowId]
    exact between.last

theorem Nearing.init (unlimited : c.Unlimited) : Nearing c distance limit (Mesh.init c) :=
  ⟨fun n => SwitchNode.Throughout.init (unlimited n), fun _ _ _ _ _ p member => by cases member⟩

theorem Nearing.changed (nearing : Nearing c distance limit w) {s : SwitchNode} {before : Mesh}
    (nodes : before.node = w.node) (wires : ∀ port, ∀ p ∈ before.wire port, p ∈ w.wire port)
    (holds : s.Throughout (Between c distance limit n)) :
    Nearing c distance limit (before.setNode n s) := by
  refine ⟨fun m => ?_, fun m dev other j link p member data => ?_⟩
  · by_cases here : m = n
    · subst here
      rw [setNode_self]
      exact holds
    · rw [setNode_other here, nodes]
      exact nearing.nodes m
  · exact nearing.wires m dev other j link p (wires (m, dev) p member) data

theorem Nearing.arrived (mode : c.LinkByLink) (nearing : Nearing c distance limit w) {before : Mesh}
    (nodes : before.node = w.node) (wires : ∀ port, ∀ p ∈ before.wire port, p ∈ w.wire port)
    {route : Nat → Nat → Nat} {inDev : Nat} {outDev : Option Nat} {p : Packet}
    (nearer : c.Nearer distance n outDev p)
    (small : p.isUdp = true → p.size ≤ limit)
    (came : p.isUdp = true → ∀ m j, c.peer (n, inDev) = some (m, j) →
      distance p.dip n < distance p.dip m)
    (success : before.react c route n (.receive inDev outDev p) = .ok after) :
    Nearing c distance limit after := by
  obtain ⟨s, receiving, rfl⟩ := react_receive success
  rw [nodes] at receiving
  refine nearing.changed nodes wires ((nearing.nodes n).received Between.stable (mode.nodes n)
    (fun dev out data =>
      ⟨small data, fun m j => nearer data dev m j out, fun i m j flowId link => ?_⟩)
    receiving)
  obtain rfl := Option.some.inj flowId
  exact came data m j link

theorem Nearing.acted (nearing : Nearing c distance limit w) {route : Nat → Nat → Nat}
    {event : NodeEvent} (internal : event.Internal)
    (success : w.react c route n event = .ok after) : Nearing c distance limit after := by
  have kept := nearing.nodes n
  cases react_acts internal success with
  | release releasing =>
      exact nearing.changed rfl (fun _ _ member => member) (kept.released Between.stable releasing)
  | creditTimeout firing =>
      exact nearing.changed rfl (fun _ _ member => member) (kept.timedOut firing)
  | synTimeout =>
      exact nearing.changed rfl (fun _ _ member => member)
        (kept.probed (SwitchNode.synTimeout_probes _ _ _ _ _))
  | @transmit ifIndex out s sending =>
      obtain ⟨holds, leaves⟩ := kept.transmitted sending
      have changed := nearing.changed rfl (fun _ _ member => member) holds
      refine ⟨fun m => ?_, fun m dev other j link p member data => ?_⟩
      · rw [put_node]
        exact changed.nodes m
      · rcases put_member member with before | ⟨sent, rfl⟩
        · exact changed.wires m dev other j link p before data
        · obtain ⟨queued, between, size, target⟩ := leaves p rfl data
          have back := c.symmetric _ _ sent
          obtain ⟨rfl, rfl⟩ := Prod.mk.inj (Option.some.inj (link.symm.trans back))
          rw [size, target]
          exact ⟨between.small, between.next m dev sent⟩

theorem Nearing.stepped (mode : c.LinkByLink) (nearing : Nearing c distance limit w)
    {event : MeshEvent}
    (step : NearingStep c distance limit w event after) : Nearing c distance limit after := by
  obtain ⟨⟨lossless, ⟨route, success⟩, -⟩, nears⟩ := step
  cases event with
  | host n inDev outDev p =>
      refine nearing.arrived mode rfl (fun _ _ member => member) nears.1 nears.2
        (fun _ m j link => ?_) success
      rw [lossless.1] at link
      cases link
  | deliver n inDev k outDev =>
      simp only [handle] at success
      cases found : (w.wire (n, inDev))[k]? with
      | none =>
          simp only [found] at success
          obtain rfl := Except.ok.inj success
          exact nearing
      | some p =>
          simp only [found] at success
          obtain ⟨⟨m, j⟩, link⟩ := Option.isSome_iff_exists.mp lossless.1
          have came := nearing.wires n inDev m j link p (List.mem_of_getElem? found)
          refine nearing.arrived mode (take_node k) (fun _ _ member => take_member member)
            (nears p found) (fun data => (came data).1) (fun data other i same => ?_) success
          obtain ⟨rfl, rfl⟩ := Prod.mk.inj (Option.some.inj (link.symm.trans same))
          exact (came data).2
  | lose => exact lossless.elim
  | act n event internal => exact nearing.acted internal success

theorem Nearing.run (mode : c.LinkByLink) (unlimited : c.Unlimited) {events : List MeshEvent}
    (run : Run (NearingStep c distance limit) (Mesh.init c) events w) :
    Nearing c distance limit w :=
  run.invariant (Nearing c distance limit) (Nearing.init unlimited) fun _ _ _ nearing step =>
    nearing.stepped mode step

end Events

structure Quiet (c : MeshConfig) (w : Mesh) : Prop where
  wires : ∀ port, (c.peer port).isSome = true → w.wire port = []
  queues : ∀ n, ∀ dev < (c.node n).nDevices, ∀ qIndex < qCnt, (w.node n).queues dev qIndex = []
  voqs : ∀ n voq unit up,
    (w.node n).upstream.checkAndSendOne (c.node n).upstream voq ≠ .ok (some unit, up)
  credits : ∀ n dev, (c.peer (n, dev)).isSome = true → ∀ dst < c.settings.hostNum,
    (w.node n).downstream.credit dev dst = 0

section Quiet

variable {c : MeshConfig} {distance : Nat → Nat → Nat} {limit : Nat} {w : Mesh} {n : Nat}

/-- Where nothing moves, a window lacks the bytes that wait downstream. -/
theorem Quiet.window (quiet : Quiet c w) {dst : Nat} (host : dst < c.settings.hostNum)
    (none : w.downstreamBytes c n dst = 0) :
    w.circulating c n dst = (w.node n).upstream.window (c.node n).upstream dst := by
  have silent : ∀ count : Packet → Nat, ∀ up down, c.peer up = some down →
      w.onWire count up = 0 := by
    intro count up down link
    simp [onWire, quiet.wires up (by rw [link]; rfl)]
  have released : (w.node n).released (c.node n) dst = 0 :=
    SwitchNode.queuedBy_nothing (quiet.queues n) _
  have links : ∀ {count : Nat × Nat → Nat × Nat → Nat},
      (∀ up down, c.peer up = some down → count up down = 0) → overLinks c n count = 0 := by
    intro count nothing
    apply Finset.sum_eq_zero
    intro dev _
    cases link : c.peer (n, dev) with
    | none => rfl
    | some down => exact nothing (n, dev) down link
  have travelling : w.travelling c n dst = 0 :=
    links fun up down link => silent _ down up (c.symmetric _ _ link)
  have credits : w.downstreamCredits c n dst = 0 := by
    refine links fun up down link => quiet.credits down.1 down.2 ?_ dst host
    rw [c.symmetric _ _ link]
    rfl
  have returning : w.returning c n dst = 0 := by
    refine links fun up down link => ?_
    have queued : (w.node down.1).acksQueued (c.node down.1) down.2 dst = 0 :=
      SwitchNode.queuedBy_nothing (quiet.queues down.1) _
    rw [queued, silent _ up down link]
  rw [circulating_eq]
  omega

/-- Bytes downstream are in VOQs that are nearer to the destination. -/
theorem Quiet.downstream (quiet : Quiet c w) (conserves : Conserves c w)
    (nearing : Nearing c distance limit w) {dst : Nat}
    (nearer : ∀ m, distance dst m < distance dst n →
      ∀ voq, ∀ unit ∈ (w.node m).upstream.voqPackets voq, unit.dst ≠ dst) :
    w.downstreamBytes c n dst = 0 := by
  unfold downstreamBytes overLinks
  apply Finset.sum_eq_zero
  intro dev _
  cases link : c.peer (n, dev) with
  | none => rfl
  | some down =>
      obtain ⟨m, j⟩ := down
      have queued : (w.node m).queuedBy (c.node m) (SwitchNode.dataFrom j dst) = 0 :=
        SwitchNode.queuedBy_nothing (quiet.queues m) _
      have held : (w.node m).upstream.heldBy (SwitchNode.dataFrom j dst) = 0 := by
        apply SwitchNode.heldBy_nothing
        intro voq unit member
        by_contra counts
        obtain ⟨-, target, -⟩ := (conserves.nodes m).units voq unit member
        have came : unit.pkt.flowId = some j ∧ unit.pkt.dip = dst := by
          unfold SwitchNode.dataFrom Packet.dataTo at counts
          grind
        have closer := ((nearing.nodes m).units voq unit member).last j n dev came.1
          (c.symmetric _ _ link)
        rw [came.2] at closer
        exact nearer m closer voq unit member (target.symm.trans came.2)
      exact Nat.add_eq_zero_iff.mpr ⟨held, queued⟩

/-- A VOQ whose bytes downstream have all gone on is served. -/
theorem Quiet.no_head (quiet : Quiet c w) (mode : c.LinkByLink) (conserves : Conserves c w)
    (nearing : Nearing c distance limit w) {voq : Nat × Nat} {top : PacketUnit}
    {rest : List PacketUnit}
    (head : (w.node n).upstream.voqPackets voq = top :: rest)
    (windows : ∀ n dst, (c.node n).upstream.Grouped dst →
      limit ≤ ((c.node n).upstream.bdpMap dst).getD 0)
    (none : w.downstreamBytes c n top.dst = 0) : False := by
  have member : top ∈ (w.node n).upstream.voqPackets voq := by simp [head]
  obtain ⟨host, registered, grouped⟩ := (conserves.nodes n).solvent.held voq top member
  have known : top.dst < c.settings.hostNum := by
    have shared : (c.node n).upstream.settings = c.settings := c.shared n
    rwa [shared] at host
  have law := conserves.law n top.dst known grouped
  rw [quiet.window known none, Upstream.window_known registered] at law
  have small := ((nearing.nodes n).units voq top member).small
  obtain ⟨unit, up, served⟩ := (nearing.nodes n).unshared.served (mode.nodes n).credit head
    registered grouped (law ▸ small.trans (windows n top.dst grouped))
  exact quiet.voqs n voq unit up served

end Quiet

/-- With VOQs that are not shared, windows that hold a packet of any size and routes that come
nearer with every hop, a network that loses nothing is never stuck: as long as a packet waits in a
VOQ, a frame is on its way, a VOQ can send, or credit is owed to a switch. -/
theorem quiet_network_holds_nothing (c : MeshConfig) (mode : c.LinkByLink)
    (unlimited : c.Unlimited) (distance : Nat → Nat → Nat) (limit : Nat)
    (windows : ∀ n dst, (c.node n).upstream.Grouped dst →
      limit ≤ ((c.node n).upstream.bdpMap dst).getD 0)
    (events : List MeshEvent) (w : Mesh)
    (run : Run (NearingStep c distance limit) (init c) events w) (quiet : Quiet c w) (n : Nat)
    (voq : Nat × Nat) : (w.node n).upstream.voqPackets voq = [] := by
  have conserves := Conserves.run mode (run.mono fun _ _ _ step => step.1)
  have nearing := Nearing.run mode unlimited run
  -- the bytes that a packet waits for wait themselves, at a smaller distance
  have nothing : ∀ bound dst n, distance dst n = bound →
      ∀ voq, ∀ unit ∈ (w.node n).upstream.voqPackets voq, unit.dst ≠ dst := by
    intro bound
    induction bound using Nat.strong_induction_on with
    | _ bound ih =>
        intro dst n far voq unit member same
        have none := quiet.downstream conserves nearing fun m closer =>
          ih (distance dst m) (far ▸ closer) dst m rfl
        cases head : (w.node n).upstream.voqPackets voq with
        | nil =>
            rw [head] at member
            cases member
        | cons top rest =>
            have first : top ∈ (w.node n).upstream.voqPackets voq := by simp [head]
            have own := (nearing.nodes n).unshared.own voq
            have target : top.dst = dst := (own top first).trans ((own unit member).symm.trans same)
            exact quiet.no_head mode conserves nearing head windows (target.symm ▸ none)
  cases head : (w.node n).upstream.voqPackets voq with
  | nil => rfl
  | cons top rest =>
      have first : top ∈ (w.node n).upstream.voqPackets voq := by simp [head]
      exact absurd rfl (nothing _ top.dst n rfl voq top first)

section Example

open SwitchNode

def nears (c : MeshConfig) (distance : Nat → Nat → Nat) (n : Nat) (outDev : Option Nat)
    (p : Packet) : Bool :=
  !p.isUdp || match outDev.bind fun dev => c.peer (n, dev) with
    | none => true
    | some down => decide (distance p.dip down.1 < distance p.dip n)

def approaches (c : MeshConfig) (distance : Nat → Nat → Nat) (limit : Nat) (w : Mesh) :
    MeshEvent → Bool
  | .host n _ outDev p => nears c distance n outDev p && (!p.isUdp || decide (p.size ≤ limit))
  | .deliver n inDev k outDev => match (w.wire (n, inDev))[k]? with
    | none => true
    | some p => nears c distance n outDev p
  | .lose _ _ _ | .act _ _ _ => true

def takesNearer (c : MeshConfig) (distance : Nat → Nat → Nat) (limit : Nat) (w : Mesh)
    (event : MeshEvent) : Bool :=
  takes c w event && approaches c distance limit w event

theorem nears_sound {c : MeshConfig} {distance : Nat → Nat → Nat} {n : Nat} {outDev : Option Nat}
    {p : Packet} (found : nears c distance n outDev p = true) : c.Nearer distance n outDev p := by
  intro data dev m j out link
  subst out
  simp only [nears, data, Option.bind_some, link] at found
  simpa using found

theorem approaches_sound {c : MeshConfig} {distance : Nat → Nat → Nat} {limit : Nat} {w : Mesh}
    {event : MeshEvent} (found : approaches c distance limit w event = true) :
    event.Nears c distance limit w := by
  cases event with
  | host n inDev outDev p =>
      obtain ⟨nearing, small⟩ := Bool.and_eq_true_iff.mp found
      refine ⟨nears_sound nearing, fun data => ?_⟩
      simpa [data] using small
  | deliver n inDev k outDev =>
      intro p there
      simp only [approaches, there] at found
      exact nears_sound found
  | lose | act => trivial

theorem executes_nearer {c : MeshConfig} {distance : Nat → Nat → Nat} {limit : Nat}
    (roomy : ∀ n, Roomy (c.node n)) (events : List MeshEvent)
    (all : executes (takesNearer c distance limit) (next c) (init c) events = true) :
    Run (NearingStep c distance limit) (init c) events (events.foldl (next c) (init c)) := by
  refine Run.executed_within NothingDropped (fun w event clean taken => ?_) events (init_clean c) all
  obtain ⟨lossless, nearing⟩ := Bool.and_eq_true_iff.mp taken
  have step := takes_step roomy clean lossless
  exact ⟨⟨step, approaches_sound nearing⟩, step.2.2⟩

def lineDistance (dst n : Nat) : Nat := if dst = 0 then n else 3 - n

/-- Packets for the two hosts cross: each of the two switches in the middle has one from its own
host at the head of its VOQ, and behind it the one that the other switch has to be credited for. -/
def crossing : List MeshEvent :=
  [.host 2 0 (some 2) (dataFor 1), .host 1 0 (some 1) (dataFor 0),
    .host 1 0 (some 2) (dataFor 1), .host 1 0 (some 2) (dataFor 1),
    .host 2 0 (some 1) (dataFor 0), .host 2 0 (some 1) (dataFor 0)] ++
    transmits [(1, 2), (2, 1)] ++
    [.deliver 2 1 0 (some 2), .deliver 1 2 0 (some 1)] ++ transmits [(2, 2), (1, 1)] ++
    [.deliver 3 1 0 (some 0), .deliver 0 2 0 (some 0)] ++
    transmits [(3, 0), (3, 1), (0, 0), (0, 2)] ++
    [.deliver 2 2 0 none, .deliver 1 1 0 none] ++
    transmits [(1, 0), (1, 0), (2, 0), (2, 0)]

def voqKeys (s : Upstream) : List (Nat × Nat) :=
  s.voqGroups.toList.flatMap fun g => g.2.voqs.keys.map fun id => (g.1, id)

def sendsNothing (c : UpstreamConfig) (s : Upstream) (voq : Nat × Nat) : Bool :=
  match s.checkAndSendOne c voq with
  | .ok (none, _) => true
  | _ => false

def restsAt (config : VOQGroupConfig) (w : Mesh) (n : Nat) : Bool :=
  ((List.range 4).all fun dev => (w.wire (n, dev)).isEmpty &&
    ((List.range qCnt).all fun qIndex => ((w.node n).queues dev qIndex).isEmpty) &&
    (List.range 3).all fun dst => (w.node n).downstream.credit dev dst == 0) &&
    (voqKeys (w.node n).upstream).all (sendsNothing (lineUpstream config n) (w.node n).upstream)

theorem voqPackets_known {s : Upstream} {voq : Nat × Nat} (some : s.voqPackets voq ≠ []) :
    voq ∈ voqKeys s := by
  obtain ⟨gid, id⟩ := voq
  cases known : s.voqGroups[gid]? with
  | none => simp [Upstream.voqPackets, known] at some
  | some g =>
      have stored : id ∈ g.voqs :=
        g.packets_mem id (by simpa [Upstream.voqPackets, known] using some)
      refine List.mem_flatMap.mpr
        ⟨(gid, g), ExtTreeMap.mem_toList_iff_getElem?_eq_some.mpr known, ?_⟩
      exact List.mem_map.mpr ⟨id, by simpa using stored, rfl⟩

theorem checkAndSendOne_idle {c : UpstreamConfig} {s : Upstream} {voq : Nat × Nat}
    (empty : s.voqPackets voq = []) : s.checkAndSendOne c voq = .ok (none, s) := by
  unfold Upstream.checkAndSendOne
  unfold Upstream.voqPackets at empty
  cases known : s.voqGroups[voq.1]? with
  | none => rfl
  | some g =>
      simp only [known] at empty
      simp only [empty]

theorem line_windows (config : VOQGroupConfig) (n dst : Nat)
    (grouped : ((lineMesh config).node n).upstream.Grouped dst) :
    1024 ≤ (((lineMesh config).node n).upstream.bdpMap dst).getD 0 := by
  obtain ⟨gid, rule⟩ := grouped
  have known : lineRule n dst = .group gid := rule
  have window : ((lineMesh config).node n).upstream.bdpMap dst =
      if dst < 2 then some 1024 else none := rfl
  rw [window]
  unfold lineRule at known
  split at known
  · rw [if_pos (by omega)]
    exact Nat.le_refl _
  · cases known

theorem line_unlimited : (lineMesh unlimited).Unlimited := by
  intro n gid config known
  have inserted : ((∅ : ExtTreeMap Nat VOQGroupConfig).insert 0 unlimited)[gid]? = some config :=
    known
  rw [MapSum.lookup_insert] at inserted
  split at inserted
  · obtain rfl := Option.some.inj inserted
    rfl
  · simp at inserted

theorem next_other {c : MeshConfig} (events : List MeshEvent) {w : Mesh} {n : Nat}
    (away : ∀ event ∈ events, event.place ≠ n) : (events.foldl (next c) w).node n = w.node n := by
  induction events generalizing w with
  | nil => rfl
  | cons event rest ih =>
      rw [List.foldl_cons, ih fun other member => away other (List.mem_cons_of_mem _ member)]
      unfold next
      cases success : w.handle c (fun _ => id) event with
      | error failure => rfl
      | ok after => exact handle_other success (away event List.mem_cons_self).symm

theorem line_quiet {config : VOQGroupConfig} (events : List MeshEvent) {w : Mesh}
    (reached : events.foldl (next (lineMesh config)) (init (lineMesh config)) = w)
    (places : (events.all fun event => decide (event.place < 4)) = true)
    (rests : (List.range 4).all (restsAt config w) = true) : Quiet (lineMesh config) w := by
  have others : ∀ n, 4 ≤ n → w.node n = (init (lineMesh config)).node n := by
    intro n high
    rw [← reached]
    refine next_other events fun event member => ?_
    have place := of_decide_eq_true (List.all_eq_true.mp places event member)
    omega
  have inner := fun n (inside : n < 4) => Bool.and_eq_true_iff.mp
    (List.all_eq_true.mp rests n (List.mem_range.mpr inside))
  have port := fun n (inside : n < 4) dev (below : dev < 4) =>
    List.all_eq_true.mp (inner n inside).1 dev (List.mem_range.mpr below)
  refine ⟨fun port' linked => ?_, fun n dev below qIndex queue => ?_, fun n voq unit up sent => ?_,
    fun n dev linked dst host => ?_⟩
  · obtain ⟨inside, below⟩ := line_ports linked
    have here := port port'.1 inside port'.2 below
    simp only [Bool.and_eq_true, List.isEmpty_iff] at here
    exact here.1.1
  · by_cases inside : n < 4
    · have here := port n inside dev below
      simp only [Bool.and_eq_true, List.all_eq_true, List.isEmpty_iff] at here
      exact here.1.2 qIndex (List.mem_range.mpr queue)
    · rw [others n (by omega)]
      rfl
  · by_cases waits : (w.node n).upstream.voqPackets voq = []
    · rw [checkAndSendOne_idle waits] at sent
      cases sent
    · by_cases inside : n < 4
      · have idle := List.all_eq_true.mp (inner n inside).2 voq (voqPackets_known waits)
        have same : (w.node n).upstream.checkAndSendOne (lineUpstream config n) voq =
            .ok (some unit, up) := sent
        simp [sendsNothing, same] at idle
      · rw [others n (by omega)] at waits
        exact waits (Upstream.init_voqPackets _ voq)
  · obtain ⟨inside, below⟩ := line_ports linked
    have here := port n inside dev below
    simp only [Bool.and_eq_true, List.all_eq_true, beq_iff_eq] at here
    exact here.2 dst (List.mem_range.mpr host)

def afterTwo : Mesh := twoToOne.foldl (next (lineMesh unlimited)) (init (lineMesh unlimited))

theorem afterTwo_quiet : Quiet (lineMesh unlimited) afterTwo :=
  line_quiet twoToOne rfl (by decide +kernel) (by decide +kernel)

theorem quiet_network_holds_nothing_two : (afterTwo.node 2).upstream.voqPackets (0, 1) = [] :=
  quiet_network_holds_nothing (lineMesh unlimited) (line_linkByLink unlimited) line_unlimited
    lineDistance 1024 (line_windows unlimited) twoToOne afterTwo
    (executes_nearer (line_roomy unlimited) twoToOne (by decide +kernel))
    afterTwo_quiet 2 (0, 1)

def oneStatic : VOQGroupConfig :=
  ⟨1, false, fun _ => Nat.one_pos, Nat.le_of_ble_eq_true rfl⟩

def afterCrossing : Mesh :=
  crossing.foldl (next (lineMesh oneStatic)) (init (lineMesh oneStatic))

/-- Where destinations share a VOQ the network can come to a stop with packets in it. -/
theorem shared_voqs_stick :
    Run (NearingStep (lineMesh oneStatic) lineDistance 1024) (init (lineMesh oneStatic)) crossing
        afterCrossing ∧
      Quiet (lineMesh oneStatic) afterCrossing ∧
      ((afterCrossing.node 1).upstream.voqPackets (0, 0)).map PacketUnit.dst = [1, 0] ∧
      ((afterCrossing.node 2).upstream.voqPackets (0, 0)).map PacketUnit.dst = [0, 1] :=
  ⟨executes_nearer (line_roomy oneStatic) crossing (by decide +kernel),
    line_quiet crossing rfl (by decide +kernel) (by decide +kernel), by decide +kernel,
    by decide +kernel⟩

end Example

end Mesh

end Floodgate
