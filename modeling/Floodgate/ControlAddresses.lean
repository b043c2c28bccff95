import Floodgate.BacklogSignal

/-! The addresses of Switch-ACKs and SYNs between ToR switches, the devices that they leave on and
the counters that their receivers change. -/

namespace Floodgate

/-- `Settings::hostId2IpMap[id]`, where reading an unknown id inserts 0. -/
def Settings.hostIp (g : Settings) (id : Nat) : Nat :=
  if id < g.hostNum then serverAddress id else 0

/-- `Settings::hostIp2IdMap[ip]`, where reading an unknown address inserts 0. -/
def Settings.hostId (g : Settings) (ip : Nat) : Nat :=
  ((List.range g.hostNum).find? fun id => decide (serverAddress id = ip)).getD 0

inductive ControlTag where
  | ack (tag : SwitchACKTag)
  | syn (tag : SwitchSYNTag)

structure ControlPacket where
  source : Nat
  destination : Nat
  tag : ControlTag

structure Emission where
  device : Nat
  packet : ControlPacket

/-- A ToR switch where only ToRs use Floodgate. `interface` is the address of its first device, from
the network 10.0.0.0, and `getOutDev choice dip` is the result of `GetOutDev` for a destination,
which depends on hashes and loads. -/
structure Tor where
  node : SwitchNodeConfig
  index : Nat
  interface : Nat
  getOutDev : Nat → Nat → Option Nat
  onlyTor : node.settings.resetOnlyToRSwitchWin = true
  id_eq : node.id = node.settings.hostNum + index
  index_lt : index < node.settings.torNum
  perRack : 0 < node.settings.hostPerRack
  racks : ∀ u < node.settings.torNum, u * node.settings.hostPerRack < node.settings.hostNum
  interface_lt : interface < 0x0b000000

namespace Tor

section Emission

variable (n : Tor) (choice : Nat)

def settings : Settings := n.node.settings

/-- `GetSwitchACKPacket`. The assertion on `src` holds off the interface's address in
`SWITCH_DST_CREDIT`, the one on `dst` a message without destination. -/
def getSwitchACKPacket (tag : SwitchACKTag) (src dst : Nat) : Option ControlPacket :=
  if n.settings.switchAckMode = .hostPerPacketAck then none
  else if src = 0 ∧ n.settings.switchAckMode = .switchDstCredit then none
  else if dst = 0 then none
  else some ⟨if src = 0 then n.interface else src, dst, .ack tag⟩

def getSwitchSYNPacket (tag : SwitchSYNTag) (src dst : Nat) : Option ControlPacket :=
  if dst = 0 then none else some ⟨if src = 0 then n.interface else src, dst, .syn tag⟩

def sendAccSwitchACK (dev : Nat) (tag : SwitchACKTag) : Option Emission :=
  if n.settings.switchAckMode = .switchIngressCredit then do
    let p ← n.getSwitchACKPacket tag (n.settings.hostIp (n.node.id * n.settings.hostPerRack))
      (n.settings.hostIp (dev * n.settings.hostPerRack))
    let outDev ← n.getOutDev choice p.destination
    some ⟨outDev, p⟩
  else none

/-- The address of the acknowledged destination, `dstIp`, becomes the source. -/
def sendSwitchACK (inDev dstIp srcIp size : Nat) : Option Emission :=
  if n.settings.switchAckMode = .switchDstCredit then do
    let p ← n.getSwitchACKPacket (SwitchACKTag.setAckedSize size) dstIp srcIp
    some ⟨inDev, p⟩
  else none

def sendSYN (dev : Nat) (tag : SwitchSYNTag) : Option Emission := do
  let p ← n.getSwitchSYNPacket tag (n.settings.hostIp (n.node.id * n.settings.hostPerRack))
    (n.settings.hostIp (dev * n.settings.hostPerRack))
  let outDev ← n.getOutDev choice p.destination
  some ⟨outDev, p⟩

end Emission

end Tor

/-- What makes a ToR send a control message: a credit loop after data for `dip` has left, the credit
timer, the timer for SYNs, and a SYN from the ToR `u` that arrived on `inDev`, here with one of the
destinations that `CheckSYN` found. -/
inductive Occasion where
  | loop (dip u credit : Nat)
  | creditTimeout (u dst credit : Nat)
  | synTimeout (u : Nat) (recent : Nat → Bool)
  | receiveSYN (u inDev : Nat) (syn : ControlPacket) (dsts : List Nat) (dst : Nat)

namespace Occasion

section Messages

variable (n : Tor) (s : SwitchNode) (choice : Nat)

def acked (u dst credit : Nat) : Nat :=
  if n.settings.switchAbsolutePsn then s.downstream.nxtAckPsn u dst else credit

def send : Occasion → Option Emission
  | .loop dip u credit =>
      match n.settings.switchAckMode with
      | .switchIngressCredit => n.sendAccSwitchACK choice u
          (s.downstream.getSwitchACKTag n.settings (s.ackDue n.node) u)
      | .switchDstCredit => n.sendSwitchACK u (n.settings.hostIp dip)
          (n.settings.hostIp (u * n.settings.hostPerRack)) (acked n s u dip credit)
      | .hostPerPacketAck => none
  | .creditTimeout u dst credit =>
      match n.settings.switchAckMode with
      | .switchIngressCredit => n.sendAccSwitchACK choice u
          (s.downstream.getSwitchACKTag n.settings (s.ackDue n.node) u)
      | _ => n.sendSwitchACK u (n.settings.hostIp dst) 0 (acked n s u dst credit)
  | .synTimeout u recent => n.sendSYN choice u (s.getSwitchSYNTag n.node u recent)
  | .receiveSYN _ inDev syn dsts dst =>
      match n.settings.switchAckMode with
      | .switchIngressCredit => do
          let fine := n.settings.hostId syn.source / n.settings.hostPerRack
          let acks ← (s.downstream.getDstsSwitchACKTag n.settings (s.ackDue n.node) fine
            dsts).toOption
          n.sendAccSwitchACK choice fine acks
      | .switchDstCredit => n.sendSwitchACK inDev (n.settings.hostIp dst) syn.destination
          (s.downstream.nxtAckPsn
            (n.settings.hostId syn.destination / n.settings.hostPerRack) dst)
      | .hostPerPacketAck => none

end Messages

def peer : Occasion → Nat
  | .loop _ u _ | .creditTimeout u _ _ | .synTimeout u _ | .receiveSYN u _ _ _ _ => u

/-- The destinations that the message is about. -/
def Meant (n : Tor) (dst : Nat) : Occasion → Prop
  | .loop dip _ _ => n.settings.switchAckMode = .switchDstCredit → dst = dip
  | .creditTimeout _ target _ => n.settings.switchAckMode = .switchDstCredit → dst = target
  | .synTimeout _ _ => True
  | .receiveSYN _ _ _ dsts target =>
      if n.settings.switchAckMode = .switchDstCredit then dst = target else dst ∈ dsts

end Occasion

namespace Tor

variable (n : Tor)

def Under (u host : Nat) : Prop :=
  host < n.settings.hostNum ∧ host / n.settings.hostPerRack = u

def Selects (host dev : Nat) : Prop :=
  ∃ choice, n.getOutDev choice (n.settings.hostIp host) = some dev

/-- The rows and columns that a receiver changes: `RecoverWin`, `ResumeVOQWin` for one destination,
or `CheckSYN`. -/
def updates (p : ControlPacket) : List (Nat × Nat) :=
  match p.tag with
  | .ack tag =>
      match n.settings.switchAckMode with
      | .switchIngressCredit =>
          ((List.range n.settings.hostNum).filter fun i => decide (0 < tag.getACKEntry i)).map
            fun i => (i / n.settings.hostPerRack, i)
      | _ =>
          [(n.settings.hostId p.source / n.settings.hostPerRack, n.settings.hostId p.source)]
  | .syn tag =>
      ((List.range n.settings.hostNum).filter fun i => decide (0 < tag.getDataPSNEntry i)).map
        fun i => (n.settings.hostId p.source / n.settings.hostPerRack, i)

/-- The message leaves on a way to the ToR `u`, is addressed there, comes from a host of this rack,
and changes the counters for this ToR and the destinations it is about. -/
structure Directed (u : Nat) (meant : Nat → Prop) (m : Emission) : Prop where
  device : ∃ host, n.Under u host ∧ n.Selects host m.device
  destination : ∃ host, n.Under u host ∧ m.packet.destination = n.settings.hostIp host
  source : ∃ host, n.Under n.index host ∧ m.packet.source = n.settings.hostIp host
  counters : ∀ cell ∈ n.updates m.packet, cell.1 = n.index ∧ meant cell.2

end Tor

namespace Occasion

/-- The switch keeps credits, and the message concerns destinations of this rack; a SYN has been
sent by another ToR. -/
def Occurs (n : Tor) : Occasion → Prop
  | .loop dip u _ => n.settings.switchAckMode ≠ .hostPerPacketAck ∧
      u < n.settings.torNum ∧ n.Under n.index dip
  | .creditTimeout u dst _ => n.settings.switchAckMode ≠ .hostPerPacketAck ∧
      u < n.settings.torNum ∧ n.Under n.index dst
  | .synTimeout u _ => u < n.settings.torNum
  | .receiveSYN u _ syn _ dst => n.settings.switchAckMode ≠ .hostPerPacketAck ∧
      u ≠ n.index ∧ n.Under n.index dst ∧
      ∃ other : Tor, other.settings = n.settings ∧ other.index = u ∧
        ∃ choice tag device, other.sendSYN choice n.index tag = some ⟨device, syn⟩

/-- A credit loop of `SWITCH_DST_CREDIT`, where the index of the other ToR is by chance the number
of a device towards it. -/
def Lucky (n : Tor) : Occasion → Prop
  | .loop _ u _ => n.settings.switchAckMode = .switchDstCredit ∧
      ∃ host, n.Under u host ∧ n.Selects host u
  | _ => False

end Occasion

section Addresses

variable {g : Settings} {id other : Nat}

theorem serverAddress_injective (same : serverAddress id = serverAddress other) : id = other := by
  unfold serverAddress at same
  omega

theorem hostIp_host (known : id < g.hostNum) : g.hostIp id = serverAddress id := if_pos known

theorem hostIp_ge (known : id < g.hostNum) : 0x0b000000 < g.hostIp id := by
  rw [hostIp_host known]
  unfold serverAddress
  omega

theorem hostIp_ne_zero (known : id < g.hostNum) : g.hostIp id ≠ 0 := by
  have large := hostIp_ge known
  omega

theorem hostIp_injective (known : id < g.hostNum) (also : other < g.hostNum)
    (same : g.hostIp id = g.hostIp other) : id = other := by
  rw [hostIp_host known, hostIp_host also] at same
  exact serverAddress_injective same

theorem hostId_hostIp (known : id < g.hostNum) : g.hostId (g.hostIp id) = id := by
  unfold Settings.hostId
  rw [hostIp_host known]
  cases found : (List.range g.hostNum).find? fun i =>
    decide (serverAddress i = serverAddress id) with
  | none =>
      have missing := List.find?_eq_none.mp found id (List.mem_range.mpr known)
      simp at missing
  | some i =>
      have member := List.mem_range.mp (List.mem_of_find?_eq_some found)
      have here := List.find?_some found
      have same := of_decide_eq_true here
      exact serverAddress_injective same

end Addresses

namespace Tor

variable {n : Tor} {choice dev u : Nat} {m : Emission}

/-- No host has the number that `m_id * Settings::host_per_rack` gives. -/
theorem own_hostIp (n : Tor) : n.settings.hostIp (n.node.id * n.settings.hostPerRack) = 0 := by
  have beyond : n.settings.hostNum ≤ n.node.id * n.settings.hostPerRack := by
    calc
      n.settings.hostNum ≤ n.node.id := by
        rw [n.id_eq]
        exact Nat.le_add_right _ _
      _ ≤ n.node.id * n.settings.hostPerRack := Nat.le_mul_of_pos_right _ n.perRack
  exact if_neg (Nat.not_lt.mpr beyond)

theorem under_first (n : Tor) (known : u < n.settings.torNum) :
    n.Under u (u * n.settings.hostPerRack) :=
  ⟨n.racks u known, Nat.mul_div_cancel _ n.perRack⟩

theorem sendAccSwitchACK_source {tag : SwitchACKTag}
    (sent : n.sendAccSwitchACK choice dev tag = some m) : m.packet.source = n.interface := by
  unfold sendAccSwitchACK at sent
  split at sent
  · obtain ⟨p, made, sent⟩ := Option.bind_eq_some_iff.mp sent
    obtain ⟨outDev, -, sent⟩ := Option.bind_eq_some_iff.mp sent
    obtain rfl := Option.some.inj sent
    rw [own_hostIp] at made
    unfold getSwitchACKPacket at made
    split at made
    · contradiction
    · split at made
      · contradiction
      · split at made
        · contradiction
        · obtain rfl := Option.some.inj made
          rfl
  · contradiction

theorem sendSYN_packet {tag : SwitchSYNTag} (sent : n.sendSYN choice dev tag = some m) :
    m.packet.source = n.interface ∧
      m.packet.destination = n.settings.hostIp (dev * n.settings.hostPerRack) := by
  unfold sendSYN at sent
  obtain ⟨p, made, sent⟩ := Option.bind_eq_some_iff.mp sent
  obtain ⟨outDev, -, sent⟩ := Option.bind_eq_some_iff.mp sent
  obtain rfl := Option.some.inj sent
  rw [own_hostIp] at made
  unfold getSwitchSYNPacket at made
  split at made
  · contradiction
  · obtain rfl := Option.some.inj made
    exact ⟨rfl, rfl⟩

theorem interface_not_directed {meant : Nat → Prop} (from_port : m.packet.source = n.interface) :
    ¬ n.Directed u meant m := by
  rintro ⟨-, -, ⟨host, ⟨known, -⟩, source⟩, -⟩
  have large := hostIp_ge known
  have small := n.interface_lt
  rw [from_port] at source
  omega

theorem sendSwitchACK_some (credit : n.settings.switchAckMode = .switchDstCredit)
    (inDev : Nat) {src dst : Nat} (size : Nat) (source : src ≠ 0) (destination : dst ≠ 0) :
    n.sendSwitchACK inDev src dst size =
      some ⟨inDev, src, dst, .ack (SwitchACKTag.setAckedSize size)⟩ := by
  have plain : ¬ n.settings.switchAckMode = .hostPerPacketAck := by
    rw [credit]
    decide
  unfold sendSwitchACK getSwitchACKPacket
  rw [if_pos credit, if_neg plain, if_neg fun both => source both.1, if_neg destination,
    if_neg source]
  rfl

theorem sendSwitchACK_nowhere {inDev src size : Nat} :
    n.sendSwitchACK inDev src 0 size = none := by
  unfold sendSwitchACK getSwitchACKPacket
  simp

end Tor

namespace Occasion

/-- A control message reaches its ToR exactly on the lucky occasions. -/
theorem control_messages_directed_iff (n : Tor) (s : SwitchNode) (choice : Nat) (o : Occasion)
    (occurs : o.Occurs n) :
    (∃ m, o.send n s choice = some m ∧ n.Directed o.peer (fun dst => o.Meant n dst) m) ↔
      o.Lucky n := by
  cases o with
  | loop dip u credit =>
      obtain ⟨credits, known, own⟩ := occurs
      cases mode : n.settings.switchAckMode with
      | hostPerPacketAck => exact absurd mode credits
      | switchIngressCredit =>
          simp only [send, Lucky, mode, reduceCtorEq, false_and, iff_false]
          rintro ⟨m, sent, directed⟩
          exact Tor.interface_not_directed (Tor.sendAccSwitchACK_source sent) directed
      | switchDstCredit =>
          have first := n.under_first known
          have sends := Tor.sendSwitchACK_some mode u (acked n s u dip credit)
            (hostIp_ne_zero own.1) (hostIp_ne_zero first.1)
          simp only [send, Lucky, mode, sends, Option.some.injEq, true_and, exists_eq_left']
          constructor
          · intro directed
            exact directed.device
          · intro device
            refine ⟨device, ⟨_, first, rfl⟩, ⟨_, own, rfl⟩, ?_⟩
            intro cell member
            have back : n.settings.hostId (n.settings.hostIp dip) = dip := hostId_hostIp own.1
            simp only [Tor.updates, mode, back, List.mem_singleton] at member
            obtain rfl := member
            exact ⟨own.2, fun _ => rfl⟩
  | creditTimeout u dst credit =>
      simp only [Lucky, iff_false]
      rintro ⟨m, sent, directed⟩
      cases mode : n.settings.switchAckMode with
      | switchIngressCredit =>
          simp only [send, mode] at sent
          exact Tor.interface_not_directed (Tor.sendAccSwitchACK_source sent) directed
      | _ =>
          simp only [send, mode, Tor.sendSwitchACK_nowhere] at sent
          contradiction
  | synTimeout u recent =>
      simp only [Lucky, iff_false]
      rintro ⟨m, sent, directed⟩
      exact Tor.interface_not_directed (Tor.sendSYN_packet sent).1 directed
  | receiveSYN u inDev syn dsts dst =>
      obtain ⟨credits, away, own, other, same, rfl, _, tag, device, probe⟩ := occurs
      simp only [Lucky, iff_false]
      rintro ⟨m, sent, directed⟩
      cases mode : n.settings.switchAckMode with
      | hostPerPacketAck => exact absurd mode credits
      | switchIngressCredit =>
          simp only [send, mode] at sent
          obtain ⟨acks, -, sent⟩ := Option.bind_eq_some_iff.mp sent
          exact Tor.interface_not_directed (Tor.sendAccSwitchACK_source sent) directed
      | switchDstCredit =>
          have first := n.under_first n.index_lt
          have target : syn.destination =
              n.settings.hostIp (n.index * n.settings.hostPerRack) := by
            rw [(Tor.sendSYN_packet probe).2, same]
          have sends := Tor.sendSwitchACK_some mode inDev
            (s.downstream.nxtAckPsn
              (n.settings.hostId syn.destination / n.settings.hostPerRack) dst)
            (hostIp_ne_zero own.1) (target ▸ hostIp_ne_zero first.1)
          simp only [send, mode, sends, Option.some.injEq] at sent
          subst sent
          obtain ⟨host, under, destination⟩ := directed.destination
          rw [target] at destination
          have here := hostIp_injective first.1 under.1 destination
          have back := under.2
          rw [← here, first.2] at back
          exact away back.symm

end Occasion

/-- The first of three ToRs with a host each. Its device 1 leads to the second, device 2 to the
third. -/
def firstTor (mode : AckMode) : Tor where
  node :=
    { SwitchNode.smallSwitch
        { narrow mode unlimited 3000 (by decide) with
          settings :=
            { (narrow mode unlimited 3000 (by decide)).settings with
              resetOnlyToRSwitchWin := true } } true with
      isToR := true
      id := 3 }
  index := 0
  interface := 0x0a010101
  getOutDev := fun _ dip =>
    if dip = serverAddress 1 then some 1 else if dip = serverAddress 2 then some 2 else none
  onlyTor := rfl
  id_eq := rfl
  index_lt := Nat.zero_lt_succ 2
  perRack := Nat.zero_lt_one
  racks := fun u known => by
    have three : u < 3 := known
    show u * 1 < 3
    omega
  interface_lt := by decide

namespace Occasion

/-- Data for host 0 has left the first ToR, which owes the second one 1000 bytes. -/
def paysBack : Occasion := .loop 0 1 1000

theorem paysBack_occurs {mode : AckMode} (credits : mode ≠ .hostPerPacketAck) :
    paysBack.Occurs (firstTor mode) :=
  ⟨credits, Nat.one_lt_succ_succ 1, Nat.zero_lt_succ 2, Nat.zero_div _⟩

theorem control_messages_directed_second_tor :
    ∃ m, paysBack.send (firstTor .switchDstCredit)
        (SwitchNode.init (firstTor .switchDstCredit).node) 0 = some m ∧
      (firstTor .switchDstCredit).Directed 1
        (fun dst => paysBack.Meant (firstTor .switchDstCredit) dst) m :=
  (control_messages_directed_iff (firstTor .switchDstCredit) _ 0 paysBack
    (paysBack_occurs (by decide))).mpr ⟨rfl, 1, ⟨by decide, rfl⟩, 0, rfl⟩

/-- With one Switch-ACK for all destinations the source is the address of a port. -/
theorem source_not_under_tor : ¬ ∀ (n : Tor) (s : SwitchNode) (choice : Nat) (o : Occasion),
    o.Occurs n → ∀ m, o.send n s choice = some m →
      n.Directed o.peer (fun dst => o.Meant n dst) m := by
  intro claim
  let n := firstTor .switchIngressCredit
  have sends : (paysBack.send n (SwitchNode.init n.node) 0).isSome = true := by decide +kernel
  obtain ⟨m, sent⟩ := Option.isSome_iff_exists.mp sends
  have source : m.packet.source = n.interface := Tor.sendAccSwitchACK_source sent
  have occurs : paysBack.Occurs n := paysBack_occurs (by decide)
  exact Tor.interface_not_directed source (claim n _ 0 paysBack occurs m sent)

end Occasion

end Floodgate
