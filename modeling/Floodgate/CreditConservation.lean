import Floodgate.CreditFlow
import Floodgate.PsnChain

/-! Credit is conserved between the switches of a network: a window with everything that has left it
and not come back is the configured one. -/

namespace Floodgate

open Std Outcome LabelledRun SwitchNode

/-- Every switch returns credit to the switches before it, over ports that exist. -/
structure MeshConfig.LinkByLink (c : MeshConfig) : Prop where
  nodes : ∀ n, (c.node n).LinkByLink
  ports : ∀ n dev other, c.peer (n, dev) = some other → dev < (c.node n).nDevices

def MeshConfig.Leads (c : MeshConfig) (n : Nat) (outDev : Option Nat) (p : Packet) : Prop :=
  p.isUdp = true → ∃ dev, outDev = some dev ∧ dev < (c.node n).nDevices ∧
    ((c.node n).upstream.Grouped p.dip → c.ToSwitch n dev)

/-- No data comes back to the ToR of the host that sent it. -/
def MeshConfig.Onward (c : MeshConfig) (n : Nat) (p : Packet) : Prop :=
  p.isUdp = true → ¬ ((c.node n).isToR = true ∧ (c.node n).upstream.dst2group p.sip = .ignored)

/-- The arrivals of a network that loses nothing on its links. -/
def MeshEvent.Lossless (c : MeshConfig) (w : Mesh) : MeshEvent → Prop
  | .host n inDev outDev p => c.peer (n, inDev) = none ∧ p.FromHost ∧
      (p.isUdp = true → p.dip < c.settings.hostNum) ∧ c.Leads n outDev p
  | .deliver n inDev k outDev => (c.peer (n, inDev)).isSome = true ∧
      ∀ p, (w.wire (n, inDev))[k]? = some p → c.Leads n outDev p ∧ c.Onward n p
  | .lose _ _ _ => False
  | .act n event _ => ∀ ifIndex, event = .transmit ifIndex → ifIndex < (c.node n).nDevices

namespace Mesh

def NothingDropped (w : Mesh) : Prop := ∀ n, NoDrops (w.node n) ∧ (w.node n).dropPackets = 0

/-- A step without losses on links, in queues or at admission. -/
def LosslessStep (c : MeshConfig) (w : Mesh) (event : MeshEvent) (after : Mesh) : Prop :=
  event.Lossless c w ∧ (∃ route, w.handle c route event = .ok after) ∧ after.NothingDropped

section Places

variable (c : MeshConfig) (w : Mesh) (n dst : Nat)

def onWire (count : Packet → Nat) (port : Nat × Nat) : Nat := ((w.wire port).map count).sum

/-- A total over the links that leave the switch `n`: of what is counted for the port `up` there and
the port `down` at the other end. -/
def overLinks (count : Nat × Nat → Nat × Nat → Nat) : Nat :=
  ∑ dev ∈ Finset.range (c.node n).nDevices,
    match c.peer (n, dev) with
    | none => 0
    | some down => count (n, dev) down

def travelling : Nat := overLinks c n fun _ down => w.onWire (Packet.dataTo dst) down

def downstreamBytes : Nat :=
  overLinks c n fun _ down => (w.node down.1).arrivedFrom (c.node down.1) down.2 dst

/-- `m_ingressDstCredits` for `dst` at the ports downstream that face `n`. -/
def downstreamCredits : Nat :=
  overLinks c n fun _ down => (w.node down.1).downstream.credit down.2 dst

/-- The credit for `dst` in Switch-ACKs on their way to `n`, queued downstream or on the wire. -/
def returning : Nat := overLinks c n fun up down =>
  (w.node down.1).acksQueued (c.node down.1) down.2 dst +
    w.onWire (Packet.carried c.settings dst) up

/-- All that is counted for a link. -/
def linkSide (up down : Nat × Nat) : Nat :=
  w.onWire (Packet.dataTo dst) down + (w.node down.1).portSide (c.node down.1) down.2 dst +
    w.onWire (Packet.carried c.settings dst) up

/-- The window of `dst` at the switch `n` with all that has left it. -/
def circulating : Nat :=
  (w.node n).windowSide (c.node n) dst + overLinks c n (w.linkSide c dst)

end Places

section Totals

variable {c : MeshConfig} {n : Nat}

theorem overLinks_add (first second : Nat × Nat → Nat × Nat → Nat) :
    overLinks c n (fun up down => first up down + second up down) =
      overLinks c n first + overLinks c n second := by
  unfold overLinks
  rw [← Finset.sum_add_distrib]
  apply Finset.sum_congr rfl
  intro dev _
  cases c.peer (n, dev) with
  | none => rfl
  | some down => rfl

theorem le_overLinks (ports : ∀ n dev other, c.peer (n, dev) = some other →
      dev < (c.node n).nDevices) (count : Nat × Nat → Nat × Nat → Nat) {dev : Nat}
    {down : Nat × Nat} (peer : c.peer (n, dev) = some down) :
    count (n, dev) down ≤ overLinks c n count := by
  have inside := Finset.mem_range.mpr (ports n dev down peer)
  unfold overLinks
  have part := Finset.single_le_sum
    (f := fun i => match c.peer (n, i) with | none => 0 | some other => count (n, i) other)
    (fun _ _ => Nat.zero_le _) inside
  simpa only [peer] using part

theorem overLinks_change (ports : ∀ n dev other, c.peer (n, dev) = some other →
      dev < (c.node n).nDevices) {first second : Nat × Nat → Nat × Nat → Nat} {dev more less : Nat}
    (alone : c.peer (n, dev) = none → more = less)
    (same : ∀ i down, c.peer (n, i) = some down →
      first (n, i) down + (if i = dev then more else 0) =
        second (n, i) down + if i = dev then less else 0) :
    overLinks c n first + more = overLinks c n second + less := by
  unfold overLinks
  by_cases port : dev < (c.node n).nDevices
  · have inside := Finset.mem_range.mpr port
    have others : ∀ i ∈ Finset.range (c.node n).nDevices, i ≠ dev →
        (match c.peer (n, i) with | none => 0 | some down => first (n, i) down) =
          (match c.peer (n, i) with | none => 0 | some down => second (n, i) down) := by
      intro i _ different
      cases peer : c.peer (n, i) with
      | none => rfl
      | some down =>
          have agree := same i down peer
          rw [if_neg different, if_neg different] at agree
          exact agree
    have change := MapSum.sum_change _ _ inside others
    cases peer : c.peer (n, dev) with
    | none =>
        have equal := alone peer
        simp only [peer] at change
        omega
    | some down =>
        have here := same dev down peer
        rw [if_pos rfl, if_pos rfl] at here
        simp only [peer] at change
        omega
  · have absent : c.peer (n, dev) = none := by
      by_contra found
      obtain ⟨down, peer⟩ := Option.ne_none_iff_exists'.mp found
      exact port (ports n dev down peer)
    rw [alone absent]
    congr 1
    apply Finset.sum_congr rfl
    intro i inside
    cases peer : c.peer (n, i) with
    | none => rfl
    | some down =>
        have agree := same i down peer
        have different : i ≠ dev := fun same => port (same ▸ Finset.mem_range.mp inside)
        rw [if_neg different, if_neg different] at agree
        exact agree

theorem linkSide_eq (c : MeshConfig) (w : Mesh) (dst : Nat) (up : Nat × Nat) (m j : Nat) :
    w.linkSide c dst up (m, j) = w.onWire (Packet.dataTo dst) (m, j) +
      (w.node m).portSide (c.node m) j dst + w.onWire (Packet.carried c.settings dst) up := rfl

/-- What a window has let go, place by place. -/
theorem circulating_eq (c : MeshConfig) (w : Mesh) (n dst : Nat) : w.circulating c n dst =
    (w.node n).upstream.window (c.node n).upstream dst + (w.node n).released (c.node n) dst +
      w.travelling c n dst + w.downstreamBytes c n dst + w.downstreamCredits c n dst +
      w.returning c n dst := by
  have data := overLinks_add (c := c) (n := n)
    (fun _ down => w.onWire (Packet.dataTo dst) down)
    fun _ down => (w.node down.1).arrivedFrom (c.node down.1) down.2 dst
  have owed := overLinks_add (c := c) (n := n)
    (fun _ down => w.onWire (Packet.dataTo dst) down +
      (w.node down.1).arrivedFrom (c.node down.1) down.2 dst)
    fun _ down => (w.node down.1).downstream.credit down.2 dst
  have acks := overLinks_add (c := c) (n := n)
    (fun _ down => w.onWire (Packet.dataTo dst) down +
      (w.node down.1).arrivedFrom (c.node down.1) down.2 dst +
      (w.node down.1).downstream.credit down.2 dst)
    fun up down => (w.node down.1).acksQueued (c.node down.1) down.2 dst +
      w.onWire (Packet.carried c.settings dst) up
  have links : w.linkSide c dst = fun up down =>
      w.onWire (Packet.dataTo dst) down +
        (w.node down.1).arrivedFrom (c.node down.1) down.2 dst +
        (w.node down.1).downstream.credit down.2 dst +
        ((w.node down.1).acksQueued (c.node down.1) down.2 dst +
          w.onWire (Packet.carried c.settings dst) up) := by
    funext up down
    unfold linkSide SwitchNode.portSide
    omega
  unfold circulating SwitchNode.windowSide travelling downstreamBytes downstreamCredits returning
  rw [links, acks, owed, data]
  omega

end Totals

structure Conserves (c : MeshConfig) (w : Mesh) : Prop where
  nodes : ∀ n, Circulates (c.node n) (c.ToSwitch n) (w.node n)
  hosts : ∀ port, ∀ p ∈ w.wire port, p.isUdp = true → p.dip < c.settings.hostNum
  law : ∀ n, ∀ dst < c.settings.hostNum, (c.node n).upstream.Grouped dst →
    w.circulating c n dst = ((c.node n).upstream.bdpMap dst).getD 0

/-- What a step at the port `dev` of the switch `x` does to the wires. -/
structure Rewires (c : MeshConfig) (w : Mesh) (x dev : Nat) (received sent : Option Packet)
    (after : Mesh) : Prop where
  wires : ∀ port, (c.peer port).isSome = true → ∀ count,
    after.onWire count port + (if port = (x, dev) then amount count received else 0) =
      w.onWire count port + if c.peer (x, dev) = some port then amount count sent else 0
  there : (c.peer (x, dev)).isSome = true → ∀ count, amount count received ≤ w.onWire count (x, dev)
  plain : c.peer (x, dev) = none → ∀ dst, amount (Packet.carried c.settings dst) received = 0
  members : ∀ port, ∀ p ∈ after.wire port,
    p ∈ w.wire port ∨ c.peer (x, dev) = some port ∧ sent = some p

section Steps

variable {c : MeshConfig} {w after : Mesh} {x dev : Nat} {received sent : Option Packet}
  {s : SwitchNode}

theorem Conserves.window_le (conserves : Conserves c w) {n dst : Nat}
    (host : dst < c.settings.hostNum) (grouped : (c.node n).upstream.Grouped dst) :
    w.circulating c n dst < Word32.size := by
  rw [conserves.law n dst host grouped]
  cases found : (c.node n).upstream.bdpMap dst with
  | none => exact show 0 < Word32.size by decide
  | some size => exact (c.node n).upstream.bdpMap_lt dst size found

theorem Conserves.window_room (mode : c.LinkByLink) (conserves : Conserves c w)
    (rewires : Rewires c w x dev received sent after) {dst : Nat}
    (host : dst < c.settings.hostNum) (grouped : (c.node x).upstream.Grouped dst) :
    (w.node x).upstream.window (c.node x).upstream dst +
      amount (Packet.carried c.settings dst) received < Word32.size := by
  have total := conserves.window_le host grouped
  unfold circulating SwitchNode.windowSide at total
  cases peer : c.peer (x, dev) with
  | none =>
      rw [rewires.plain peer]
      omega
  | some down =>
      obtain ⟨m, j⟩ := down
      have there := rewires.there (by rw [peer]; rfl) (Packet.carried c.settings dst)
      have part := le_overLinks mode.ports (w.linkSide c dst) peer
      rw [linkSide_eq] at part
      omega

theorem Conserves.port_room (mode : c.LinkByLink) (conserves : Conserves c w) {n i m j dst : Nat}
    (peer : c.peer (n, i) = some (m, j)) (host : dst < c.settings.hostNum)
    (grouped : (c.node n).upstream.Grouped dst) :
    (w.node m).arrivedFrom (c.node m) j dst + (w.node m).downstream.credit j dst <
      Word32.size := by
  have total := conserves.window_le host grouped
  have part := le_overLinks mode.ports (w.linkSide c dst) peer
  rw [linkSide_eq] at part
  unfold circulating at total
  unfold SwitchNode.portSide at part
  omega

/-- One link after a step at the port `dev` of the switch `x`. -/
theorem Conserves.link (mode : c.LinkByLink) (conserves : Conserves c w)
    (node : after.node = (w.setNode x s).node)
    (exchanges : Exchanges (c.node x) (c.ToSwitch x) (w.node x) dev received sent s)
    (rewires : Rewires c w x dev received sent after) {n i dst : Nat} {down : Nat × Nat}
    (peer : c.peer (n, i) = some down) (host : dst < c.settings.hostNum)
    (grouped : (c.node n).upstream.Grouped dst) :
    after.linkSide c dst (n, i) down +
        (if (n, i) = (x, dev) then amount (Packet.carried c.settings dst) received else 0) =
      w.linkSide c dst (n, i) down +
        if (n, i) = (x, dev) then amount (Packet.dataTo dst) sent else 0 := by
  obtain ⟨m, j⟩ := down
  have back := c.symmetric _ _ peer
  have data := rewires.wires (m, j) (by rw [back]; rfl) (Packet.dataTo dst)
  have credit := rewires.wires (n, i) (by rw [peer]; rfl) (Packet.carried c.settings dst)
  have forth : c.peer (x, dev) = some (m, j) ↔ (n, i) = (x, dev) := by
    constructor
    · intro same
      exact c.peer_unique peer same
    · intro same
      rw [← same, peer]
  have home : c.peer (x, dev) = some (n, i) ↔ (m, j) = (x, dev) := by
    constructor
    · intro same
      exact c.peer_unique back same
    · intro same
      rw [← same, back]
  simp only [forth] at data
  simp only [home] at credit
  have port : (after.node m).portSide (c.node m) j dst +
        (if (m, j) = (x, dev) then amount (Packet.carried c.settings dst) sent else 0) =
      (w.node m).portSide (c.node m) j dst +
        if (m, j) = (x, dev) then amount (Packet.dataTo dst) received else 0 := by
    rw [node]
    by_cases place : m = x
    · subst place
      have room := conserves.port_room mode peer host grouped
      have below := mode.ports m j _ back
      have leads : c.ToSwitch m j := by
        rw [MeshConfig.ToSwitch, back]
        rfl
      have moved := exchanges.port j below leads dst room
      rw [setNode_self]
      have settings := c.shared m
      rw [settings] at moved
      simpa only [Prod.mk.injEq, true_and] using moved
    · have other : ¬ (m, j) = (x, dev) := fun same => place (congrArg Prod.fst same)
      rw [setNode_other place, if_neg other, if_neg other]
  rw [linkSide_eq, linkSide_eq]
  omega

theorem Conserves.exchanged (mode : c.LinkByLink) (conserves : Conserves c w)
    (node : after.node = (w.setNode x s).node)
    (exchanges : Exchanges (c.node x) (c.ToSwitch x) (w.node x) dev received sent s)
    (rewires : Rewires c w x dev received sent after) : Conserves c after := by
  refine ⟨fun n => ?_, fun port p member data => ?_, fun n dst host grouped => ?_⟩
  · rw [node]
    by_cases place : n = x
    · subst place
      rw [setNode_self]
      exact exchanges.circulates
    · rw [setNode_other place]
      exact conserves.nodes n
  · rcases rewires.members port p member with before | ⟨_, new⟩
    · exact conserves.hosts port p before data
    · have known := (exchanges.leaves p new data).1
      rwa [c.shared] at known
  · rw [← conserves.law n dst host grouped]
    have links := fun i down (peer : c.peer (n, i) = some down) =>
      conserves.link mode node exchanges rewires peer host grouped
    by_cases place : n = x
    · subst place
      have room := conserves.window_room mode rewires host grouped
      have windows := exchanges.window dst (by rw [c.shared]; exact host) grouped
        (by rw [c.shared]; exact room)
      rw [c.shared] at windows
      have alone : c.peer (n, dev) = none →
          amount (Packet.carried c.settings dst) received = amount (Packet.dataTo dst) sent := by
        intro peer
        rw [rewires.plain peer]
        cases out : sent with
        | none => rfl
        | some p =>
            simp only [amount, Packet.dataTo]
            split
            · rename_i target
              obtain ⟨data, rfl⟩ := target
              have leads := (exchanges.leaves p out data).2 grouped
              rw [MeshConfig.ToSwitch, peer] at leads
              contradiction
            · rfl
      have total := overLinks_change mode.ports alone fun i down peer => by
        have change := links i down peer
        simpa only [Prod.mk.injEq, true_and] using change
      have here : after.node n = s := by rw [node, setNode_self]
      unfold circulating
      rw [here]
      omega
    · have total := @overLinks_change c n mode.ports (after.linkSide c dst) (w.linkSide c dst)
        dev 0 0 (fun _ => rfl) fun i down peer => by
          have change := links i down peer
          have other : ¬ (n, i) = (x, dev) := fun same => place (congrArg Prod.fst same)
          rw [if_neg other, if_neg other] at change
          simpa using change
      have here : after.node n = w.node n := by rw [node, setNode_other place]
      unfold circulating
      rw [here]
      omega

end Steps

section Events

variable {c : MeshConfig} {w after : Mesh} {n : Nat} {s : SwitchNode}

theorem Conserves.init (c : MeshConfig) : Conserves c (Mesh.init c) := by
  have queued : ∀ m (weight : PacketUnit → Nat),
      (SwitchNode.init (c.node m)).queuedBy (c.node m) weight = 0 := by
    intro m weight
    have resident := init_residentBy (c.node m) weight
    unfold SwitchNode.residentBy at resident
    omega
  refine ⟨fun m => Circulates.init _ _, fun _ _ member => absurd member List.not_mem_nil,
    fun m dst _ _ => ?_⟩
  have links : (Mesh.init c).linkSide c dst = fun _ _ => 0 := by
    funext up down
    have resident := init_residentBy (c.node down.1) (dataFrom down.2 dst)
    have acks := queued down.1 (acksOn (c.node down.1).settings down.2 dst)
    have credit : (SwitchNode.init (c.node down.1)).downstream.credit down.2 dst = 0 := rfl
    have wires : ∀ count port, (Mesh.init c).onWire count port = 0 := fun _ _ => rfl
    unfold linkSide SwitchNode.portSide SwitchNode.arrivedFrom SwitchNode.acksQueued
    rw [wires, wires]
    unfold Mesh.init
    simp only
    omega
  have nothing : overLinks c m (fun _ _ => 0) = 0 := by
    unfold overLinks
    apply Finset.sum_eq_zero
    intro dev _
    cases c.peer (m, dev) with
    | none => rfl
    | some down => rfl
  have window := Upstream.window_init (c.node m).upstream dst
  have released := queued m fun unit => unit.pkt.dataTo dst
  unfold circulating SwitchNode.windowSide SwitchNode.released
  rw [links, nothing]
  unfold Mesh.init
  simp only
  have start : (SwitchNode.init (c.node m)).upstream = Upstream.init (c.node m).upstream := rfl
  rw [start, window, released]
  rfl

theorem Rewires.still (c : MeshConfig) (w : Mesh) (n dev : Nat) (s : SwitchNode) :
    Rewires c w n dev none none (w.setNode n s) :=
  ⟨fun port _ count => by simp [amount, onWire], fun _ _ => Nat.zero_le _, fun _ _ => rfl,
    fun _ _ member => .inl member⟩

theorem Rewires.host {dev : Nat} {p : Packet} (alone : c.peer (n, dev) = none)
    (plain : p.FromHost) : Rewires c w n dev (some p) none (w.setNode n s) := by
  refine ⟨fun port linked count => ?_, fun linked => ?_, fun _ dst => ?_,
    fun _ _ member => .inl member⟩
  · have other : port ≠ (n, dev) := by
      rintro rfl
      rw [alone] at linked
      contradiction
    simp [amount, onWire, other]
  · rw [alone] at linked
    contradiction
  · exact Packet.carried_untagged plain.ackTag

theorem onWire_take {port : Nat × Nat} {k : Nat} {p : Packet} (found : (w.wire port)[k]? = some p)
    (count : Packet → Nat) :
    (w.take port k).onWire count port + count p = w.onWire count port := by
  obtain ⟨inside, here⟩ := List.getElem?_eq_some_iff.mp found
  have same := ((List.getElem_cons_eraseIdx_perm inside).map count).sum_eq
  rw [List.map_cons, List.sum_cons, here] at same
  unfold onWire take
  rw [setWire_self]
  omega

theorem Rewires.delivered {dev k : Nat} {p : Packet} (linked : (c.peer (n, dev)).isSome = true)
    (found : (w.wire (n, dev))[k]? = some p) :
    Rewires c w n dev (some p) none ((w.take (n, dev) k).setNode n s) := by
  refine ⟨fun port _ count => ?_, fun _ count => ?_, fun alone dst => ?_,
    fun _ _ member => .inl (take_member member)⟩
  · have wires : ((w.take (n, dev) k).setNode n s).onWire count port =
        (w.take (n, dev) k).onWire count port := rfl
    rw [wires]
    by_cases here : port = (n, dev)
    · subst here
      have moved := onWire_take found count
      simp only [amount, if_true, ite_self]
      omega
    · have same : (w.take (n, dev) k).onWire count port = w.onWire count port := by
        unfold onWire take
        rw [setWire_other _ here]
      rw [same]
      simp [amount, here]
  · have moved := onWire_take found count
    simp only [amount]
    omega
  · rw [alone] at linked
    contradiction

theorem Rewires.transmitted (dev : Nat) (out : Option Packet) :
    Rewires c w n dev none out ((w.setNode n s).put c n dev out) := by
  refine ⟨fun port _ count => ?_, fun _ _ => Nat.zero_le _, fun _ _ => rfl,
    fun port p member => @put_member (w.setNode n s) port n c dev out p member⟩
  unfold put
  cases peer : c.peer (n, dev) with
  | none => simp [amount, onWire]
  | some down =>
      cases out with
      | none => simp [amount, onWire]
      | some p =>
          by_cases here : port = down
          · subst here
            simp [amount, onWire]
          · have other : ¬ down = port := fun same => here same.symm
            simp [amount, onWire, setWire_other _ here, other]

/-- An arrival at the switch `n`, in a network where the frame may have been on a wire. -/
theorem Conserves.arrived (mode : c.LinkByLink) (conserves : Conserves c w) {before : Mesh}
    (nodes : before.node = w.node) {route : Nat → Nat → Nat} {inDev : Nat} {outDev : Option Nat}
    {p : Packet} (enters : Enters (c.node n) (c.ToSwitch n) inDev outDev p)
    (rewires : ∀ s, Rewires c w n inDev (some p) none (before.setNode n s))
    (clean : after.NothingDropped)
    (success : before.react c route n (.receive inDev outDev p) = .ok after) :
    Conserves c after := by
  obtain ⟨middle, receiving, rfl⟩ := react_receive success
  rw [nodes] at receiving
  have kept := clean n
  rw [setNode_self] at kept
  have exchanges := (conserves.nodes n).received (mode.nodes n) enters kept.1 kept.2 receiving
  have node : (before.setNode n middle).node = (w.setNode n middle).node := by
    funext m
    simp only [setNode, nodes]
  exact conserves.exchanged mode node exchanges (rewires middle)

theorem Conserves.acted (mode : c.LinkByLink) (conserves : Conserves c w)
    {route : Nat → Nat → Nat} {event : NodeEvent} (internal : event.Internal)
    (ports : ∀ ifIndex, event = .transmit ifIndex → ifIndex < (c.node n).nDevices)
    (clean : after.NothingDropped) (success : w.react c route n event = .ok after) :
    Conserves c after := by
  have circulates := conserves.nodes n
  have even : ∀ {s : SwitchNode}, NoDrops s →
      (NoDrops s → Evens (c.node n) (c.ToSwitch n) (w.node n) s) → Conserves c (w.setNode n s) := by
    intro s whole evens
    exact conserves.exchanged mode rfl ((evens whole).exchanges 0) (Rewires.still c w n 0 s)
  have kept := (clean n).1
  cases react_acts internal success with
  | release releasing =>
      rw [setNode_self] at kept
      exact even kept fun whole => circulates.released (mode.nodes n) whole releasing
  | @creditTimeout dev dst s firing =>
      rw [setNode_self] at kept
      have replies := (creditTimeout_replies (c.node n) (route n) (w.node n) dev dst).of_ok firing
      exact even kept fun whole => circulates.replied (mode.nodes n) whole replies
  | @synTimeout dev recent =>
      rw [setNode_self] at kept
      exact even kept fun whole => circulates.probed whole (synTimeout_probes _ _ _ dev recent)
  | @transmit ifIndex out s sending =>
      have node : ((w.setNode n s).put c n ifIndex out).node = (w.setNode n s).node :=
        put_node c ifIndex out
      rw [node, setNode_self] at kept
      have exchanges := circulates.transmitted (mode.nodes n) (ports ifIndex rfl) kept sending
      exact conserves.exchanged mode node exchanges (Rewires.transmitted ifIndex out)

theorem Conserves.stepped (mode : c.LinkByLink) (conserves : Conserves c w) {event : MeshEvent}
    (step : LosslessStep c w event after) : Conserves c after := by
  obtain ⟨lossless, ⟨route, success⟩, clean⟩ := step
  cases event with
  | host n inDev outDev p =>
      obtain ⟨alone, plain, host, leads⟩ := lossless
      refine conserves.arrived mode rfl ⟨fun data => ?_, leads, fun _ toSwitch => ?_⟩
        (fun s => Rewires.host alone plain) clean success
      · rw [c.shared]
        exact host data
      · rw [MeshConfig.ToSwitch, alone] at toSwitch
        contradiction
  | deliver n inDev k outDev =>
      obtain ⟨linked, goes⟩ := lossless
      simp only [handle] at success
      cases found : (w.wire (n, inDev))[k]? with
      | none =>
          simp only [found] at success
          obtain rfl := Except.ok.inj success
          exact conserves
      | some p =>
          simp only [found] at success
          obtain ⟨leads, onward⟩ := goes p found
          have member : p ∈ w.wire (n, inDev) := List.mem_of_getElem? found
          have taken : (w.take (n, inDev) k).node = w.node := take_node k
          refine conserves.arrived mode taken ⟨fun data => ?_, leads, fun data _ => ?_⟩
            (fun s => Rewires.delivered linked found) clean success
          · rw [c.shared]
            exact conserves.hosts (n, inDev) p member data
          · exact ⟨(mode.nodes n).floodgate, data, onward data⟩
  | lose => exact lossless.elim
  | act n event internal => exact conserves.acted mode internal lossless clean success

theorem Conserves.run (mode : c.LinkByLink) {events : List MeshEvent}
    (run : Run (LosslessStep c) (Mesh.init c) events w) : Conserves c w :=
  run.invariant (Conserves c) (Conserves.init c) fun _ _ _ conserves step =>
    conserves.stepped mode step

end Events

/-- Whatever the order of arrivals, drains, departures, Switch-ACKs and timeouts, a window and all
that has left it and not come back are together the configured window. -/
theorem credit_conserved (c : MeshConfig) (mode : c.LinkByLink) (events : List MeshEvent)
    (w : Mesh) (run : Run (LosslessStep c) (init c) events w) (n dst size : Nat)
    (host : dst < c.settings.hostNum) (grouped : (c.node n).upstream.Grouped dst)
    (configured : (c.node n).upstream.bdpMap dst = some size)
    (registered : dst ∈ (w.node n).upstream.wins) :
    (w.node n).upstream.win dst + (w.node n).released (c.node n) dst + w.travelling c n dst +
        w.downstreamBytes c n dst + w.downstreamCredits c n dst + w.returning c n dst = size ∧
      (w.node n).upstream.win dst ≤ size ∧
      w.travelling c n dst + w.downstreamBytes c n dst ≤ size := by
  have total := (Conserves.run mode run).law n dst host grouped
  rw [circulating_eq, configured, Option.getD_some, Upstream.window_known registered] at total
  refine ⟨total, ?_, ?_⟩
  · omega
  · omega

section Replay

open SwitchNode

section Checks

variable (c : MeshConfig) (w : Mesh)

def leads (n : Nat) (outDev : Option Nat) (p : Packet) : Bool :=
  !p.isUdp || match outDev with
    | none => false
    | some dev => decide (dev < (c.node n).nDevices) &&
        match (c.node n).upstream.dst2group p.dip with
        | .group _ => (c.peer (n, dev)).isSome
        | _ => true

def unmarked (p : Packet) : Bool :=
  p.psn.isNone && p.ingressPsn.isNone && p.ackTag.isNone && p.synTag.isNone

/-- What a lossless step asks of an event. -/
def asks : MeshEvent → Bool
  | .host n inDev outDev p => (c.peer (n, inDev)).isNone && unmarked p && !p.isPfc &&
      (!p.isUdp || decide (p.dip < c.settings.hostNum)) && leads c n outDev p
  | .deliver n inDev k outDev => (c.peer (n, inDev)).isSome &&
      match (w.wire (n, inDev))[k]? with
      | none => true
      | some p => leads c n outDev p && !p.isPfc && p.synTag.isNone &&
          (!p.isUdp || !((c.node n).isToR &&
            decide ((c.node n).upstream.dst2group p.sip = .ignored)))
  | .act n (.transmit ifIndex) _ => decide (ifIndex < (c.node n).nDevices)
  | .act _ (.release _) _ => true
  | _ => false

def takes (event : MeshEvent) : Bool :=
  asks c w event && match w.handle c (fun _ => id) event with
    | .ok after => decide ((after.node event.place).dropPackets = 0)
    | .error _ => false

end Checks

variable {c : MeshConfig} {w : Mesh}

theorem leads_sound {n : Nat} {outDev : Option Nat} {p : Packet}
    (found : leads c n outDev p = true) : c.Leads n outDev p := by
  intro data
  unfold leads at found
  cases outDev with
  | none => simp [data] at found
  | some dev =>
      simp only [data, Bool.not_true, Bool.false_or, Bool.and_eq_true, decide_eq_true_eq] at found
      refine ⟨dev, rfl, found.1, fun grouped => ?_⟩
      obtain ⟨gid, rule⟩ := grouped
      rw [rule] at found
      exact found.2

theorem asks_sound {event : MeshEvent} (asked : asks c w event = true) : event.Lossless c w := by
  cases event with
  | host n inDev outDev p =>
      simp only [asks, unmarked, Bool.and_eq_true, Option.isNone_iff_eq_none, Bool.or_eq_true,
        Bool.not_eq_true', decide_eq_true_eq] at asked
      obtain ⟨⟨⟨⟨alone, ⟨⟨psn, ingress⟩, ack⟩, syn⟩, -⟩, host⟩, leading⟩ := asked
      refine ⟨alone, ⟨psn, ingress, ack, syn⟩, fun data => ?_, leads_sound leading⟩
      rcases host with control | within
      · rw [control] at data
        cases data
      · exact within
  | deliver n inDev k outDev =>
      unfold asks at asked
      obtain ⟨linked, asked⟩ := Bool.and_eq_true_iff.mp asked
      cases found : (w.wire (n, inDev))[k]? with
      | none => exact ⟨linked, fun p other => by rw [found] at other; cases other⟩
      | some p =>
          simp only [found, Bool.and_eq_true] at asked
          obtain ⟨⟨⟨leading, -⟩, -⟩, onward⟩ := asked
          refine ⟨linked, fun other same => ?_⟩
          obtain rfl := Option.some.inj (found.symm.trans same)
          refine ⟨leads_sound leading, fun data back => ?_⟩
          simp [data, back.1, back.2] at onward
  | lose n inDev k => cases asked
  | act n event internal =>
      intro ifIndex same
      subst same
      exact of_decide_eq_true asked

theorem asks_whole {after : Mesh} {event : MeshEvent} {route : Nat → Nat → Nat}
    (roomy : ∀ n, Roomy (c.node n)) (whole : ∀ n, NoDrops (w.node n))
    (asked : asks c w event = true) (success : w.handle c route event = .ok after) :
    NoDrops (after.node event.place) := by
  cases event with
  | lose => cases asked
  | host n inDev outDev p =>
      obtain ⟨s, receiving, rfl⟩ := react_receive success
      simp only [asks, unmarked, Bool.and_eq_true, Option.isNone_iff_eq_none,
        Bool.not_eq_true'] at asked
      rw [MeshEvent.place, setNode_self]
      exact (roomy n).receive (whole n) asked.1.1.2 asked.1.1.1.2.2 receiving
  | deliver n inDev k outDev =>
      simp only [handle] at success
      cases found : (w.wire (n, inDev))[k]? with
      | none =>
          simp only [found] at success
          obtain rfl := Except.ok.inj success
          exact whole n
      | some p =>
          simp only [found] at success
          obtain ⟨s, receiving, rfl⟩ := react_receive success
          simp only [asks, found, Bool.and_eq_true, Option.isNone_iff_eq_none,
            Bool.not_eq_true'] at asked
          rw [MeshEvent.place, setNode_self]
          exact (roomy n).receive (whole n) asked.2.1.1.2 asked.2.1.2 receiving
  | act n event internal =>
      cases react_acts internal success with
      | release releasing =>
          rw [MeshEvent.place, setNode_self]
          exact (roomy n).release (whole n) releasing
      | creditTimeout => cases asked
      | synTimeout => cases asked
      | transmit sending =>
          rw [MeshEvent.place, put_node, setNode_self]
          exact (roomy n).transmit (whole n) sending

theorem takes_step (roomy : ∀ n, Roomy (c.node n)) (clean : w.NothingDropped) {event : MeshEvent}
    (taken : takes c w event = true) : LosslessStep c w event (next c w event) := by
  obtain ⟨asked, kept⟩ := Bool.and_eq_true_iff.mp taken
  cases success : w.handle c (fun _ => id) event with
  | error failure => simp [success] at kept
  | ok after =>
      have admitted : (after.node event.place).dropPackets = 0 := by
        simpa [success] using kept
      have same : next c w event = after := by
        unfold next
        rw [success]
      rw [same]
      refine ⟨asks_sound asked, ⟨_, success⟩, fun n => ?_⟩
      by_cases place : n = event.place
      · rw [place]
        exact ⟨asks_whole roomy (fun n => (clean n).1) asked success, admitted⟩
      · rw [handle_other success place]
        exact clean n

theorem init_clean (c : MeshConfig) : (init c).NothingDropped := fun _ => ⟨fun _ => rfl, rfl⟩

theorem executes_run (roomy : ∀ n, Roomy (c.node n)) (events : List MeshEvent)
    (all : executes (takes c) (next c) (init c) events = true) :
    Run (LosslessStep c) (init c) events (events.foldl (next c) (init c)) :=
  Run.executed_within NothingDropped
    (fun _ _ clean taken => ⟨takes_step roomy clean taken, (takes_step roomy clean taken).2.2⟩)
    events (init_clean c) all

end Replay

section Example

/-- Four switches in a line, with the host 0 below the first and the host 1 below the last. -/
def line (port : Nat × Nat) : Option (Nat × Nat) :=
  if port = (0, 2) then some (1, 1)
  else if port = (1, 1) then some (0, 2)
  else if port = (1, 2) then some (2, 1)
  else if port = (2, 1) then some (1, 2)
  else if port = (2, 2) then some (3, 1)
  else if port = (3, 1) then some (2, 2)
  else none

theorem line_symmetric (port other : Nat × Nat) (link : line port = some other) :
    line other = some port := by
  unfold line at link
  split_ifs at link
  all_goals
    obtain rfl := Option.some.inj link
    subst port
    decide

/-- Windows of one packet, except for the host below. -/
def lineRule (n dst : Nat) : DstRule :=
  if dst = 0 ∧ n ≠ 0 ∨ dst = 1 ∧ n ≠ 3 then .group 0 else .ignored

def lineUpstream (config : VOQGroupConfig) (n : Nat) : UpstreamConfig where
  settings := (narrow .switchDstCredit unlimited 2000 Word32.two_thousand_lt).settings
  dst2group := lineRule n
  bdpMap := fun dst => if dst < 2 then some 1024 else none
  groups := (∅ : ExtTreeMap Nat VOQGroupConfig).insert 0 config
  group_known := by
    intro dst id rule
    unfold lineRule at rule
    split at rule
    · simp [(DstRule.group.inj rule).symm]
    · cases rule
  bdpMap_lt := by
    intro dst win known
    split at known
    · obtain rfl := Option.some.inj known
      decide
    · cases known

def lineMesh (config : VOQGroupConfig) : MeshConfig where
  settings := (narrow .switchDstCredit unlimited 2000 Word32.two_thousand_lt).settings
  node := fun n =>
    { smallSwitch (lineUpstream config n) true with device := fun _ => ⟨4294967296, true, true, 5⟩ }
  peer := line
  shared := fun _ => rfl
  symmetric := line_symmetric

def dataFor (dst : Nat) : Packet := { kiloPacket with dip := dst }

def transmits (places : List (Nat × Nat)) : List MeshEvent :=
  places.map fun place => .act place.1 (.transmit place.2) trivial

/-- Two packets from a host at the third switch to the host 1, of which the second has to wait. -/
def twoToOne : List MeshEvent :=
  [.host 2 0 (some 2) (dataFor 1), .host 2 0 (some 2) (dataFor 1)] ++ transmits [(2, 2)] ++
    [.deliver 3 1 0 (some 0)] ++ transmits [(3, 0), (3, 1)] ++
    [.deliver 2 2 0 none, .act 2 (.release (0, 1)) trivial] ++ transmits [(2, 2)] ++
    [.deliver 3 1 0 (some 0)] ++ transmits [(3, 0), (3, 1)] ++ [.deliver 2 2 0 none] ++
    transmits [(2, 0), (2, 0)]

theorem line_ports {port : Nat × Nat} (linked : (line port).isSome = true) :
    port.1 < 4 ∧ port.2 < 4 := by
  unfold line at linked
  split_ifs at linked
  all_goals first
    | subst port; decide
    | cases linked

theorem line_linkByLink (config : VOQGroupConfig) : (lineMesh config).LinkByLink := by
  refine ⟨fun n => ⟨rfl, rfl, rfl, ?_⟩, fun n dev other peer => ?_⟩
  · have mode : ((lineMesh config).node n).settings.switchAckMode = .switchDstCredit := rfl
    rw [mode]
    decide
  · have linked : line (n, dev) = some other := peer
    exact (line_ports (Option.isSome_of_eq_some linked)).2

theorem line_roomy (config : VOQGroupConfig) (n : Nat) :
    SwitchNode.Roomy ((lineMesh config).node n) :=
  fun _ => Rat.le_refl

/-- The second packet has left with the credit of the first. -/
theorem credit_conserved_two_packets : ∃ w,
    Run (LosslessStep (lineMesh unlimited)) (init (lineMesh unlimited)) (twoToOne.take 9) w ∧
      (w.node 2).upstream.win 1 + (w.node 2).released ((lineMesh unlimited).node 2) 1 +
        w.travelling (lineMesh unlimited) 2 1 + w.downstreamBytes (lineMesh unlimited) 2 1 +
        w.downstreamCredits (lineMesh unlimited) 2 1 + w.returning (lineMesh unlimited) 2 1 =
          1024 ∧
      w.travelling (lineMesh unlimited) 2 1 = 1024 := by
  have evaluated : executes (takes (lineMesh unlimited)) (next (lineMesh unlimited))
      (init (lineMesh unlimited)) (twoToOne.take 9) = true ∧
      1 ∈ (((twoToOne.take 9).foldl (next (lineMesh unlimited))
        (init (lineMesh unlimited))).node 2).upstream.wins ∧
      (((twoToOne.take 9).foldl (next (lineMesh unlimited))
        (init (lineMesh unlimited))).travelling (lineMesh unlimited) 2 1 = 1024) := by
    decide +kernel
  obtain ⟨works, registered, under⟩ := evaluated
  have run := executes_run (line_roomy unlimited) (twoToOne.take 9) works
  exact ⟨_, run, (credit_conserved (lineMesh unlimited) (line_linkByLink unlimited)
    (twoToOne.take 9) _ run 2 1 1024 (Nat.one_lt_succ_succ 1) ⟨0, rfl⟩ rfl registered).1, under⟩

end Example

end Mesh

end Floodgate
