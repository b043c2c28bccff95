import Floodgate.DataUnderWay

/-! SYNs and the data that they count. A SYN may overtake data that is only queued, or find data
that the switch still holds; where it does neither, it acknowledges only what is lost. -/

namespace Floodgate

open Std Outcome LabelledRun SwitchNode

/-- One for a packet with a byte whose number is above `low` and not above `high`. -/
def meets (low high number size : Nat) : Nat :=
  if max low (number - size) < min high number then 1 else 0

namespace Mesh

/-- A SYN does not leave for a switch before data that it counts, links keep the order of their
frames, and a SYN that tells of more than has arrived finds nothing of the data that has. -/
def SynsWait (c : MeshConfig) (w : Mesh) : MeshEvent → Prop
  | .act n (.transmit dev) _ => c.ToSwitch n dev → ∀ p tag, w.Serves c n dev p →
      p.synTag = some tag → ∀ dst,
        (w.node n).sentOn dev dst (startsBelow (tag.getDataPSNEntry dst)) = 0
  | .deliver n inDev k _ => k = 0 ∧ ∀ p tag, (w.wire (n, inDev))[k]? = some p →
      p.synTag = some tag → ∀ dst,
        tag.getDataPSNEntry dst ≤ (w.node n).downstream.rcvDataPsn inDev dst ∨
          (w.node n).keptFrom (c.node n) inDev dst (fun _ _ => 1) = 0
  | _ => True

/-- Of the data on its way over a link, a switch passes on the oldest first. -/
def OldestFirst (c : MeshConfig) (w : Mesh) : MeshEvent → Prop
  | .act n (.transmit dev) _ => ∀ p number up, w.Serves c n dev p → p.ingressPsn = some number →
      c.peer up = some (n, p.flowId.getD 0) → dev < (c.node n).nDevices ∧
        w.onWay c up (n, p.flowId.getD 0) p.dip (startsBelow number) ≤ 1
  | _ => True

/-- A SYN that arrives moves `m_nxt_ack_psn` only over numbers of which nothing is on its way. -/
def SynSkipsLost (c : MeshConfig) (w : Mesh) : MeshEvent → Prop
  | .deliver n inDev k _ => ∀ p tag up, (w.wire (n, inDev))[k]? = some p → p.synTag = some tag →
      c.peer up = some (n, inDev) → ∀ dst,
        w.onWay c up (n, inDev) dst (meets ((w.node n).downstream.nxtAckPsn inDev dst)
          (((w.node n).heardSyn (c.node n) inDev p).nxtAckPsn inDev dst)) = 0
  | _ => True

/-- The packet `p` has no byte that a SYN ahead of it counts. -/
def Follows (syn p : Packet) : Prop :=
  ∀ tag, syn.synTag = some tag → ∀ dst,
    p.numbered dst (startsBelow (tag.getDataPSNEntry dst)) = 0

/-- Data that a SYN on a wire counts is ahead of it. -/
structure SynsBehind (c : MeshConfig) (w : Mesh) : Prop where
  chained : Chained c w
  queued : ∀ up down, c.peer up = some down → ∀ p ∈ w.wire down, ∀ tag, p.synTag = some tag →
    ∀ dst, (w.node up.1).sentOn up.2 dst (startsBelow (tag.getDataPSNEntry dst)) = 0
  wired : ∀ up down, c.peer up = some down → (w.wire down).Pairwise Follows

/-- What is on its way is within what its switch counts as in flight. -/
structure Covered (c : MeshConfig) (w : Mesh) : Prop where
  queued : ∀ n dev dst limit, (w.node n).sentOn dev dst (startsFrom limit) ≤
    (w.node n).upstream.nxtDataPsn dev dst - limit
  counted : ∀ up down, c.peer up = some down → ∀ dst limit,
    w.onWay c up down dst (startsFrom limit) ≤
      (w.node up.1).upstream.nxtDataPsn up.2 dst - limit
  passed : ∀ up down, c.peer up = some down → ∀ dst, w.onWay c up down dst
    (startsBelow ((w.node down.1).downstream.nxtAckPsn down.2 dst)) = 0
  acked : ∀ up down, c.peer up = some down → ∀ dst,
    (w.node up.1).upstream.rcvAckPsn up.2 dst ≤ (w.node down.1).downstream.nxtAckPsn down.2 dst
  alone : ∀ n dev, c.peer (n, dev) = none → ∀ dst, (w.node n).upstream.rcvAckPsn dev dst = 0

section Fresh

theorem fresh_late (limit sent size : Nat) (late : limit ≤ sent) :
    fresh (startsBelow limit) sent size = 0 := by
  unfold fresh startsBelow
  split
  · rfl
  · rw [if_neg]
    omega

theorem fresh_startsFrom (limit sent size : Nat) :
    sent - limit + fresh (startsFrom limit) sent size ≤ sent + size - limit := by
  unfold fresh startsFrom
  split
  · omega
  · split <;> omega

end Fresh

section Order

variable {c : MeshConfig} {w after : Mesh} {event : MeshEvent}

theorem onWay_none {count : Nat → Nat → Nat} (none : ∀ number size, count number size = 0)
    (up down : Nat × Nat) (dst : Nat) : w.onWay c up down dst count = 0 := by
  have double := @onWay_add c w up down dst (fun _ _ => 0) fun _ _ => 0
  simp only [Nat.add_zero] at double
  have zero : w.onWay c up down dst (fun _ _ => 0) = 0 := by omega
  exact onWay_vanish (fun number size _ => none number size) zero

theorem synTag_announced {p : Packet} {tag : SwitchSYNTag} (frame : p.synTag = some tag)
    (dst : Nat) : p.announced dst = tag.getDataPSNEntry dst := by
  cases shape : p.body <;> simp [Packet.synTag, Packet.announced, shape] at frame ⊢
  rw [frame]

theorem Chained.syn_sent (chained : Chained c w) {up down : Nat × Nat}
    (link : c.peer up = some down) {p : Packet} (member : p ∈ w.wire down) {tag : SwitchSYNTag}
    (frame : p.synTag = some tag) (dst : Nat) :
    tag.getDataPSNEntry dst ≤ (w.node up.1).upstream.nxtDataPsn up.2 dst := by
  have told := (chained.frames up down link p member).1.announced dst
  rwa [synTag_announced frame] at told

theorem SynsBehind.init (c : MeshConfig) : SynsBehind c (Mesh.init c) :=
  ⟨Chained.init c, fun _ _ _ _ member => absurd member List.not_mem_nil,
    fun _ _ _ => List.Pairwise.nil⟩

theorem SynsBehind.stepped (mode : c.Numbering) (behind : SynsBehind c w)
    (waits : w.SynsWait c event) (step : Step c w event after) : SynsBehind c after := by
  have flows := step.flows mode behind.chained
  have old : ∀ up down, c.peer up = some down → ∀ p ∈ w.wire down, ∀ tag, p.synTag = some tag →
      ∀ dst, (after.node up.1).sentOn up.2 dst (startsBelow (tag.getDataPSNEntry dst)) = 0 := by
    intro up down link p member tag frame dst
    obtain ⟨size, -, queues⟩ := flows.sent up.1 up.2 dst
    have moved := queues (startsBelow (tag.getDataPSNEntry dst))
    rw [behind.queued up down link p member tag frame dst,
      fresh_late _ _ _ (behind.chained.syn_sent link member frame dst)] at moved
    omega
  refine ⟨(step.continues mode behind.chained).chained,
    fun up down link p member tag frame dst => ?_, fun up down link => ?_⟩
  · rcases flows.wires down with part | ⟨n, port, q, q', puts⟩
    · exact old up down link p (part.mem member) tag frame dst
    · rw [puts.wire] at member
      rcases List.mem_append.mp member with before | new
      · exact old up down link p before tag frame dst
      · obtain rfl := List.mem_singleton.mp new
        obtain rfl : up = (n, port) := c.peer_unique link puts.peer
        obtain ⟨internal, rfl⟩ := puts.departure
        have leads : c.ToSwitch n port := by simp [MeshConfig.ToSwitch, link]
        have empty := waits leads q tag puts.served (puts.syn ▸ frame) dst
        have sent := puts.sent dst (startsBelow (tag.getDataPSNEntry dst))
        rw [empty] at sent
        exact (Nat.add_eq_zero_iff.mp sent).1
  · rcases flows.wires down with part | ⟨n, port, q, q', puts⟩
    · exact (behind.wired up down link).sublist part
    · rw [puts.wire]
      refine List.pairwise_append.mpr ⟨behind.wired up down link, List.pairwise_singleton _ _,
        fun syn member p new tag frame dst => ?_⟩
      obtain rfl := List.mem_singleton.mp new
      obtain rfl : up = (n, port) := c.peer_unique link puts.peer
      have sent := puts.sent dst (startsBelow (tag.getDataPSNEntry dst))
      have empty := behind.queued (n, port) down link syn member tag frame dst
      simp only at empty
      rw [empty] at sent
      exact (Nat.add_eq_zero_iff.mp sent).2

/-- Nothing that a SYN counts is on its way when the SYN tells of more than has arrived. -/
theorem SynsBehind.clear (behind : SynsBehind c w) {n dev k : Nat} {outDev : Option Nat}
    (waits : w.SynsWait c (.deliver n dev k outDev)) {up : Nat × Nat}
    (link : c.peer up = some (n, dev)) {p : Packet} (found : (w.wire (n, dev))[k]? = some p)
    {tag : SwitchSYNTag} (frame : p.synTag = some tag) {dst : Nat}
    (more : (w.node n).downstream.rcvDataPsn dev dst < tag.getDataPSNEntry dst) :
    w.onWay c up (n, dev) dst (startsBelow (tag.getDataPSNEntry dst)) = 0 := by
  obtain ⟨rfl, finds⟩ := waits
  have kept : (w.node n).keptFrom (c.node n) dev dst (fun _ _ => 1) = 0 :=
    (finds p tag found frame dst).resolve_left (Nat.not_le.mpr more)
  have member : p ∈ w.wire (n, dev) := List.mem_of_getElem? found
  have order := behind.wired up (n, dev) link
  have queued := behind.queued up (n, dev) link p member tag frame dst
  have none : p.numbered dst (startsBelow (tag.getDataPSNEntry dst)) = 0 := by
    apply Packet.numbered_none
    cases shape : p.body <;> simp [Packet.synTag, Packet.psn, shape] at frame ⊢
  have wire : w.onWire (Packet.numbered dst (startsBelow (tag.getDataPSNEntry dst))) (n, dev) =
      0 := by
    unfold onWire
    cases frames : w.wire (n, dev) with
    | nil => rfl
    | cons first rest =>
        rw [frames] at found order
        obtain rfl : first = p := by simpa using found
        obtain ⟨follows, -⟩ := List.pairwise_cons.mp order
        apply List.sum_eq_zero
        intro value inside
        obtain ⟨other, present, rfl⟩ := List.mem_map.mp inside
        rcases List.mem_cons.mp present with rfl | later
        · exact none
        · exact follows other later tag frame dst
  have still : (w.node n).keptFrom (c.node n) dev dst (startsBelow (tag.getDataPSNEntry dst)) =
      0 := keptFrom_vanish (fun _ _ one => absurd one Nat.one_ne_zero) kept
  unfold onWay
  rw [queued, wire, still]

theorem SynsBehind.skips (mode : c.Numbering) (behind : SynsBehind c w)
    (waits : w.SynsWait c event) : w.SynSkipsLost c event := by
  cases event with
  | host => trivial
  | lose => trivial
  | act => trivial
  | deliver n inDev k outDev =>
      intro p tag up found frame link dst
      have row : (c.node n).creditRow inDev p.sip = inDev :=
        SwitchNodeConfig.creditRow_all (mode n).psns.all _ _
      have cell := (@Downstream.checkSYN_jumps (c.node n).settings inDev tag
        (w.node n).downstream).passed inDev dst
      have heard : ((w.node n).heardSyn (c.node n) inDev p).nxtAckPsn inDev dst =
          ((w.node n).downstream.checkSYN (c.node n).settings inDev tag).2.nxtAckPsn inDev dst := by
        simp only [heardSyn, frame, row]
      rw [heard, cell]
      split
      · rename_i jumps
        refine onWay_vanish (fun number size early => ?_)
          (behind.clear waits link found frame jumps.2)
        unfold startsBelow at early
        unfold meets
        split at early
        · contradiction
        · rw [if_neg]
          omega
      · refine onWay_none (fun number size => ?_) up (n, inDev) dst
        unfold meets
        rw [if_neg]
        omega

theorem Raises.le (books : ∀ n dev dst, (w.node n).downstream.nxtAckPsn dev dst ≤
      (w.node n).downstream.rcvDataPsn dev dst) {n dev dst : Nat}
    (raises : Raises c w event after n dev dst) :
    (w.node n).downstream.nxtAckPsn dev dst ≤ (after.node n).downstream.nxtAckPsn dev dst := by
  cases raises with
  | same kept => exact kept.ge
  | syn _ _ _ more jump =>
      rw [jump]
      exact (books n dev dst).trans more.le
  | passed _ _ _ _ _ raised _ =>
      rw [raised]
      exact Nat.le_max_right _ _

theorem Covered.init (c : MeshConfig) : Covered c (Mesh.init c) := by
  have empty : ∀ n dev dst count, ((Mesh.init c).node n).sentOn dev dst count = 0 := by
    intro n dev dst count
    unfold sentOn onPort
    exact Finset.sum_eq_zero fun q _ => rfl
  have none : ∀ up down dst count, (Mesh.init c).onWay c up down dst count = 0 := by
    intro up down dst count
    have wire : (Mesh.init c).onWire (Packet.numbered dst count) down = 0 := rfl
    have kept : ((Mesh.init c).node down.1).keptFrom (c.node down.1) down.2 dst count = 0 :=
      init_residentBy (c.node down.1) _
    unfold onWay
    rw [empty, wire, kept]
  refine ⟨fun n dev dst limit => ?_, fun up down _ dst limit => ?_,
    fun up down _ dst => none _ _ _ _, fun _ _ _ _ => Nat.le_refl 0, fun _ _ _ _ => rfl⟩
  · rw [empty]
    exact Nat.zero_le _
  · rw [none]
    exact Nat.zero_le _

/-- What may be acknowledged has left the switch, or is lost. -/
theorem Covered.advanced (mode : c.Numbering) (behind : SynsBehind c w) (covered : Covered c w)
    (waits : w.SynsWait c event) (oldest : w.OldestFirst c event) (step : Step c w event after)
    {up down : Nat × Nat} (link : c.peer up = some down) (dst : Nat) :
    after.onWay c up down dst
      (startsBelow ((after.node down.1).downstream.nxtAckPsn down.2 dst)) = 0 := by
  obtain ⟨n, dev⟩ := down
  have flows := step.flows mode behind.chained
  have next := (behind.chained.books n).next dev dst
  have received := behind.chained.received up (n, dev) link dst
  have passed := covered.passed up (n, dev) link dst
  obtain ⟨size, -, way⟩ := flows.way up (n, dev) link dst
  simp only at passed received ⊢
  cases flows.raises n dev dst with
  | same kept =>
      have moved := way (startsBelow ((w.node n).downstream.nxtAckPsn dev dst))
      rw [passed, fresh_late _ _ _ (next.trans received)] at moved
      rw [kept]
      omega
  | @syn k outDev p tag arrival found frame more jump =>
      subst arrival
      have clear := behind.clear waits link found frame more
      have sent := behind.chained.syn_sent link (List.mem_of_getElem? found) frame dst
      have moved := way (startsBelow (tag.getDataPSNEntry dst))
      rw [clear, fresh_late _ _ _ sent] at moved
      rw [jump]
      omega
  | @passed port number internal p departure served tagged row target raised gone =>
      subst departure row target
      obtain ⟨inside, few⟩ := oldest p number up served tagged link
      rw [raised]
      by_cases newer : (w.node n).downstream.nxtAckPsn (p.flowId.getD 0) p.dip < number
      · rw [Nat.max_eq_left newer.le]
        have left := gone inside up link (startsBelow number)
        have own : startsBelow number number p.size = 1 := by
          have size := p.size_pos
          unfold startsBelow
          rw [if_pos]
          omega
        omega
      · rw [Nat.max_eq_right (Nat.not_lt.mp newer)]
        have moved := way (startsBelow ((w.node n).downstream.nxtAckPsn (p.flowId.getD 0) p.dip))
        rw [passed, fresh_late _ _ _ (next.trans received)] at moved
        omega

theorem Covered.stepped (mode : c.Numbering) (behind : SynsBehind c w) (covered : Covered c w)
    (waits : w.SynsWait c event) (oldest : w.OldestFirst c event) (step : Step c w event after) :
    Covered c after := by
  have flows := step.flows mode behind.chained
  refine ⟨fun n dev dst limit => ?_, fun up down link dst limit => ?_,
    fun up down link dst => covered.advanced mode behind waits oldest step link dst,
    fun up down link dst => ?_, fun n dev alone dst => ?_⟩
  · obtain ⟨size, numbers, queues⟩ := flows.sent n dev dst
    rw [numbers]
    have grows := fresh_startsFrom limit ((w.node n).upstream.nxtDataPsn dev dst) size
    exact (queues _).trans ((Nat.add_le_add_right (covered.queued n dev dst limit) _).trans grows)
  · obtain ⟨size, numbers, way⟩ := flows.way up down link dst
    rw [numbers]
    have grows := fresh_startsFrom limit ((w.node up.1).upstream.nxtDataPsn up.2 dst) size
    exact (way _).trans ((Nat.add_le_add_right (covered.counted up down link dst limit) _).trans
      grows)
  · have before := covered.acked up down link dst
    have raised := (flows.raises down.1 down.2 dst).le fun n => (behind.chained.books n).next
    rcases flows.acks up.1 up.2 dst with less | ⟨p, member, -, less⟩
    · omega
    · have told := (behind.chained.frames down up (c.symmetric _ _ link) p member).1.acked dst
      omega
  · have before := covered.alone n dev alone dst
    rcases flows.acks n dev dst with less | ⟨p, -, linked, -⟩
    · omega
    · rw [alone] at linked
      contradiction

/-- What has left the window of a switch is in flight there, as the switch counts it. -/
theorem Covered.beyond_le (covered : Covered c w) (n dst : Nat) :
    w.beyond c n dst ≤ (w.node n).upstream.outstanding dst := by
  have cells : ∀ dev, w.beyondPort c n dst dev ≤
      (w.node n).upstream.nxtDataPsn dev dst - (w.node n).upstream.rcvAckPsn dev dst := by
    intro dev
    unfold beyondPort
    cases peer : c.peer (n, dev) with
    | none =>
        have all : startsFrom 0 = fun _ size => size := by
          funext number size
          exact if_pos (Nat.zero_le _)
        have queued := covered.queued n dev dst 0
        rw [all] at queued
        rw [covered.alone n dev peer dst]
        exact queued
    | some down =>
        have acked := covered.acked (n, dev) down peer dst
        have counted := covered.counted (n, dev) down peer dst
          ((w.node down.1).downstream.nxtAckPsn down.2 dst)
        rw [← bytes_startsFrom (covered.passed (n, dev) down peer dst)] at counted
        exact counted.trans (Nat.sub_le_sub_left acked _)
  calc
    w.beyond c n dst ≤ ∑ dev ∈ Finset.range (c.node n).nDevices,
        ((w.node n).upstream.nxtDataPsn dev dst - (w.node n).upstream.rcvAckPsn dev dst) :=
      Finset.sum_le_sum fun dev _ => cells dev
    _ ≤ ∑ dev ∈ Finset.range switchScale,
        ((w.node n).upstream.nxtDataPsn dev dst - (w.node n).upstream.rcvAckPsn dev dst) :=
      Finset.sum_le_sum_of_subset (Finset.range_mono (c.node n).nDevices_le)
    _ = (w.node n).upstream.outstanding dst := rfl

end Order

/-- Every SYN acknowledges only what is lost in a run in which none leaves ahead of data that it
counts and none, with news of more than has arrived, finds data of its link in the switch. Where
switches also pass on the data of a link in its order, what has left a window and not yet the next
switch is in flight there, and fits the window. -/
theorem syns_acknowledge_lost (c : MeshConfig) (mode : c.Numbering)
    (entries : List (Mesh × MeshEvent)) (w : Mesh)
    (run : Run (Traced (Step c)) (init c) entries w)
    (waits : ∀ entry ∈ entries, entry.1.SynsWait c entry.2) :
    (∀ entry ∈ entries, entry.1.SynSkipsLost c entry.2) ∧
    ((∀ entry ∈ entries, entry.1.OldestFirst c entry.2) →
      (∀ n dst, w.beyond c n dst ≤ (w.node n).upstream.outstanding dst) ∧
      ((∀ entry ∈ entries, entry.1.Unwrapped c entry.2) →
        ∀ n dst, w.beyond c n dst ≤ (w.node n).upstream.win dst)) := by
  have ordered := run.holds_along (SynsBehind c) (SynsWait c) (SynsBehind.init c)
    (fun _ _ _ behind waits step => behind.stepped mode waits step) waits
  refine ⟨fun entry member => (ordered.1 entry member).skips mode (waits entry member),
    fun oldest => ?_⟩
  have covered := run.holds_along (fun w => SynsBehind c w ∧ Covered c w)
    (fun w event => w.SynsWait c event ∧ w.OldestFirst c event)
    ⟨SynsBehind.init c, Covered.init c⟩
    (fun _ _ _ both here step => ⟨both.1.stepped mode here.1 step,
      both.2.stepped mode both.1 here.1 here.2 step⟩)
    fun entry member => ⟨waits entry member, oldest entry member⟩
  refine ⟨covered.2.2.beyond_le, fun unwrapped n dst => ?_⟩
  have windows := run.holds_along (fun w => Chained c w ∧ ∀ n, (w.node n).upstream.Windowed)
    (Unwrapped c) ⟨Chained.init c, fun n => Upstream.Windowed.init (c.node n).upstream⟩
    (fun _ _ _ both fits step => ⟨(step.continues mode both.1).chained,
      (step.continues mode both.1).windowed both.2 fits⟩) unwrapped
  exact (covered.2.2.beyond_le n dst).trans ((windows.2.2 n).within dst)

/-- One packet for host 1 passes the second switch and is acknowledged. The next one waits in the
port to it when the SYN timer fires, and the SYN leaves first. -/
def synAhead : List MeshEvent :=
  [firstData,
   .act 0 (.transmit 1) trivial,
   .deliver 1 1 0 (some 3),
   .act 1 (.transmit 3) trivial,
   .act 1 (.transmit 1) trivial,
   .deliver 0 1 0 none,
   .host 0 0 (some 1) (dataOf 105 (by decide) (by decide)),
   .act 0 (.synTimeout 1 fun _ => true) trivial,
   .act 0 (.transmit 1) trivial]

def synArrival : MeshEvent := .deliver 1 1 0 none

/-- The next SYN succeeds and passes over data that is on its way. -/
def skipsLive (w : Mesh) : Bool :=
  (match w.handle wideMesh (fun _ => id) synArrival with
    | .ok _ => true
    | .error _ => false) &&
  match (w.wire (1, 1))[0]? with
  | none => false
  | some p => p.synTag.isSome && decide (w.onWay wideMesh (0, 1) (1, 1) 1
      (meets ((w.node 1).downstream.nxtAckPsn 1 1)
        (((w.node 1).heardSyn (wideMesh.node 1) 1 p).nxtAckPsn 1 1)) ≠ 0)

set_option maxRecDepth 20000 in
theorem synAhead_skips : ends wideMesh synAhead skipsLive = true := by decide +kernel

theorem synAhead_valid : ∀ event ∈ synAhead, ∀ w, event.Valid wideMesh w := by
  intro event member w
  simp only [synAhead, List.mem_cons, List.not_mem_nil, or_false] at member
  rcases member with rfl | rfl | rfl | rfl | rfl | rfl | rfl | rfl | rfl
  · exact dataOf_host _ _ _ _ _ rfl w
  · trivial
  · exact MeshEvent.deliver_valid _ rfl fun dev same => Option.some.inj same ▸ rfl
  · trivial
  · trivial
  · exact ⟨rfl, fun p _ dev toNone => by contradiction⟩
  · exact dataOf_host _ _ _ _ _ rfl w
  · trivial
  · trivial

/-- A SYN may acknowledge data that is still on its way. -/
theorem syn_overtakes_data : ¬ ∀ (c : MeshConfig), c.Numbering → ∀ entries w,
    Run (Traced (Step c)) (init c) entries w →
    ∀ entry ∈ entries, entry.1.SynSkipsLost c entry.2 := by
  intro claim
  obtain ⟨w, run, found⟩ := ends_run synAhead_valid synAhead_skips
  unfold skipsLive at found
  rw [Bool.and_eq_true] at found
  obtain ⟨works, skips⟩ := found
  obtain ⟨entries, traced, -⟩ := run.traced
  cases arrives : w.handle wideMesh (fun _ => id) synArrival with
  | error failure => simp [arrives] at works
  | ok after =>
      have step : Step wideMesh w synArrival after :=
        ⟨⟨rfl, fun p _ dev toNone => by contradiction⟩, _, arrives⟩
      have last : Traced (Step wideMesh) w (w, synArrival) after := ⟨rfl, step⟩
      have lost := claim wideMesh wideMesh_numbering _ after (traced.snoc last) (w, synArrival)
        (List.mem_append_right _ (List.mem_singleton_self _))
      cases frame : (w.wire (1, 1))[0]? with
      | none => simp [frame] at skips
      | some p =>
          simp only [frame, Bool.and_eq_true, decide_eq_true_eq] at skips
          obtain ⟨tag, syn⟩ := Option.isSome_iff_exists.mp skips.1
          exact skips.2 (lost p tag (0, 1) frame syn rfl 1)

def keepsOrder (w : Mesh) : MeshEvent → Bool
  | .act n (.transmit dev) _ =>
      (((w.node n).device dev).queue.dequeueRR ((wideMesh.node n).device dev)
        ((w.node n).device dev).paused).all fun served =>
      (served.1.synTag.isNone ||
        decide ((w.node n).onPort dev (fun p => if p.isUdp then 1 else 0) = 0)) &&
      match served.1.ingressPsn, twoLinks (n, served.1.flowId.getD 0) with
      | some number, some up => decide (dev < (wideMesh.node n).nDevices ∧
          w.onWay wideMesh up (n, served.1.flowId.getD 0) served.1.dip (startsBelow number) ≤ 1)
      | _, _ => true
  | .deliver n inDev k _ => decide (k = 0) && ((w.wire (n, inDev))[k]?).all fun p =>
      p.synTag.isNone || decide ((w.node n).residentBy (wideMesh.node n)
        (fun unit => if unit.pkt.flowId.getD 0 = inDev then 1 else 0) = 0)
  | .act _ _ _ | .host _ _ _ _ | .lose _ _ _ => true

theorem keepsOrder_sound {w : Mesh} {event : MeshEvent} (ordered : w.keepsOrder event = true) :
    w.SynsWait wideMesh event ∧ w.OldestFirst wideMesh event := by
  cases event with
  | host | lose => exact ⟨trivial, trivial⟩
  | deliver n inDev k outDev =>
      obtain ⟨first, waits⟩ := Bool.and_eq_true_iff.mp ordered
      refine ⟨⟨of_decide_eq_true first, fun p tag there syn dst => .inr ?_⟩, trivial⟩
      simp only [there, Option.all_some, syn, Option.isNone_some, Bool.false_or,
        decide_eq_true_eq] at waits
      unfold keptFrom
      refine residentBy_vanish waits fun unit elsewhere => ?_
      by_cases came : unit.pkt.flowId.getD 0 = inDev
      · rw [if_pos came] at elsewhere
        exact absurd elsewhere Nat.one_ne_zero
      · exact if_neg came
  | act n event internal =>
      cases event with
      | receive | goOn | release | creditTimeout | synTimeout => exact ⟨trivial, trivial⟩
      | transmit dev =>
          constructor
          · intro _ p tag serves syn dst
            obtain ⟨qIndex, queue, served⟩ := serves
            simp only [keepsOrder, served, Option.all_some, syn, Option.isNone_some,
              Bool.false_or, Bool.and_eq_true, decide_eq_true_eq] at ordered
            refine onPort_vanish ordered.1 fun p control => Packet.numbered_control ?_
            cases data : p.isUdp with
            | false => rfl
            | true => simp [data] at control
          · intro p number up serves counted link
            obtain ⟨qIndex, queue, served⟩ := serves
            have back : twoLinks (n, p.flowId.getD 0) = some up := twoLinks_symmetric _ _ link
            simp only [keepsOrder, served, Option.all_some, counted, back, Bool.and_eq_true,
              decide_eq_true_eq] at ordered
            exact ordered.2

/-- One packet is acknowledged, the link loses the next one, and a SYN tells of it. -/
def synRun : List MeshEvent :=
  passedRun ++
    [.host 0 0 (some 1) (dataOf 105 (by decide) (by decide)),
     .act 0 (.transmit 1) trivial,
     .lose 1 1 0,
     .act 0 (.synTimeout 1 fun _ => true) trivial,
     .act 0 (.transmit 1) trivial,
     .deliver 1 1 0 none]

theorem syns_acknowledge_lost_packet :
    Run (Traced (Step wideMesh)) (init wideMesh) (trace (next wideMesh) (init wideMesh) synRun)
        (synRun.foldl (next wideMesh) (init wideMesh)) ∧
      (∀ entry ∈ trace (next wideMesh) (init wideMesh) synRun,
        entry.1.SynSkipsLost wideMesh entry.2) ∧
      (∀ n dst, (synRun.foldl (next wideMesh) (init wideMesh)).beyond wideMesh n dst ≤
        ((synRun.foldl (next wideMesh) (init wideMesh)).node n).upstream.win dst) ∧
      ((synRun.foldl (next wideMesh) (init wideMesh)).node 1).downstream.nxtAckPsn 1 1 = 155 := by
  have evaluated : executes performs (next wideMesh) (init wideMesh) synRun = true ∧
      executes weighs (next wideMesh) (init wideMesh) synRun = true ∧
      executes keepsOrder (next wideMesh) (init wideMesh) synRun = true ∧
      ((synRun.foldl (next wideMesh) (init wideMesh)).node 1).downstream.nxtAckPsn 1 1 = 155 := by
    decide +kernel
  obtain ⟨works, fits, ordered, told⟩ := evaluated
  have run := Run.executed_traced performs_step synRun works
  have order := fun entry member => keepsOrder_sound (executes_trace synRun ordered entry member)
  obtain ⟨skips, covered⟩ := syns_acknowledge_lost wideMesh wideMesh_numbering _ _ run
    fun entry member => (order entry member).1
  obtain ⟨-, windows⟩ := covered fun entry member => (order entry member).2
  refine ⟨run, skips, windows fun entry member => ?_, told⟩
  exact weighs_unwrapped (executes_trace synRun fits entry member)

end Mesh

end Floodgate
