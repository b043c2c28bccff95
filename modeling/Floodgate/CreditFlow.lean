import Floodgate.NodeAccounting
import Floodgate.PacketPlaces
import Floodgate.PsnBooks
import Floodgate.StrandedCredit
import Floodgate.WindowBalance

/-! Windows and credits of one switch in bytes: what a step takes from the window of a destination
and from what the upstream at a port is owed, and what passes on to a link. -/

namespace Floodgate

open Std Outcome

namespace Packet

def dataTo (dst : Nat) (p : Packet) : Nat := if p.isUdp = true ∧ p.dip = dst then p.size else 0

def carried (g : Settings) (dst : Nat) (p : Packet) : Nat :=
  match p.ackTag with
  | none => 0
  | some tag => Word32.trunc (tag.acknowledged g p.sip dst)

section Frames

variable {g : Settings} {dst : Nat} {p : Packet}

theorem dataTo_control (control : p.isUdp = false) : p.dataTo dst = 0 := by
  simp [dataTo, control]

theorem carried_untagged (plain : p.ackTag = none) : p.carried g dst = 0 := by
  simp [carried, plain]

theorem carried_data (data : p.isUdp = true) : p.carried g dst = 0 :=
  carried_untagged (ackTag_data data)

theorem dataTo_setPsn (psn : Nat) : (p.setPsn psn).dataTo dst = p.dataTo dst := by
  simp [dataTo]

theorem carried_switchAck {tag : SwitchACKTag} (body : p.body = .switchAck tag) :
    p.carried g dst = Word32.trunc (p.acked g dst) := by
  have frame : p.ackTag = some tag := by simp [ackTag, body]
  simp only [carried, frame, acked_tag body]

theorem carried_creditFor {c : UpstreamConfig} {tag : SwitchACKTag} (frame : p.ackTag = some tag)
    (host : dst < c.settings.hostNum) (inDev : Nat) :
    FloodgateEvent.creditFor c dst (.ack tag p.sip inDev) = p.carried c.settings dst := by
  simp only [carried, frame, FloodgateEvent.creditFor, SwitchACKTag.acknowledged]
  cases c.settings.switchAckMode with
  | switchIngressCredit => simp [host]
  | _ =>
      simp only
      split
      · rfl
      · rfl

end Frames

end Packet

structure SwitchNodeConfig.LinkByLink (c : SwitchNodeConfig) : Prop where
  floodgate : c.useFloodgate = true
  credit : c.settings.switchAbsolutePsn = false
  all : c.settings.resetOnlyToRSwitchWin = false
  acks : c.settings.switchAckMode ≠ .hostPerPacketAck

theorem SwitchNodeConfig.LinkByLink.own {c : SwitchNodeConfig} (mode : c.LinkByLink) :
    Upstream.OwnWindows c.upstream := by
  refine ⟨mode.credit, fun dst => ?_⟩
  unfold Upstream.winKey
  have all : c.upstream.settings.resetOnlyToRSwitchWin = false := mode.all
  simp [all]

namespace SwitchNode

section Sides

variable (c : SwitchNodeConfig) (s : SwitchNode)

def dataFrom (dev dst : Nat) (unit : PacketUnit) : Nat :=
  if unit.pkt.flowId = some dev then unit.pkt.dataTo dst else 0

def acksOn (g : Settings) (dev dst : Nat) (unit : PacketUnit) : Nat :=
  if unit.outDev = dev then unit.pkt.carried g dst else 0

def released (dst : Nat) : Nat := s.queuedBy c fun unit => unit.pkt.dataTo dst

def arrivedFrom (dev dst : Nat) : Nat := s.residentBy c (dataFrom dev dst)

def acksQueued (dev dst : Nat) : Nat := s.queuedBy c (acksOn c.settings dev dst)

/-- The window of `dst` with what has been released on it and not yet sent. -/
def windowSide (dst : Nat) : Nat := s.upstream.window c.upstream dst + s.released c dst

/-- What has come in at the port `dev` for `dst` and not yet been returned there. -/
def portSide (dev dst : Nat) : Nat :=
  s.arrivedFrom c dev dst + s.downstream.credit dev dst + s.acksQueued c dev dst

end Sides

/-- Data on its way out: towards a host that exists, for a destination with a window over a switch;
and when it leaves, the switch that sent it is credited. -/
structure Conveys (c : SwitchNodeConfig) (toSwitch : Nat → Prop) (p : Packet)
    (outDev qIndex : Nat) : Prop where
  port : outDev < c.nDevices
  queue : qIndex < qCnt
  host : p.dip < c.settings.hostNum
  ingress : ∃ dev, p.flowId = some dev
  leaves : c.upstream.Grouped p.dip → toSwitch outDev
  earns : ∀ dev, p.flowId = some dev → toSwitch dev → Credited c p

/-- What is known of a switch in every state. The ports in `toSwitch` lead to switches. -/
structure Circulates (c : SwitchNodeConfig) (toSwitch : Nat → Prop) (s : SwitchNode) : Prop where
  solvent : Upstream.Solvent c.upstream s.upstream
  fit : s.downstream.CreditsFit
  units : ∀ voq, ∀ unit ∈ s.upstream.voqPackets voq, unit.pkt.isUdp = true ∧
    unit.pkt.dip = unit.dst ∧ Conveys c toSwitch unit.pkt unit.outDev unit.qIndex
  packets : ∀ dev qIndex, ∀ p ∈ s.queues dev qIndex, p.isUdp = true →
    Conveys c toSwitch p dev qIndex

theorem Circulates.init (c : SwitchNodeConfig) (toSwitch : Nat → Prop) :
    Circulates c toSwitch (SwitchNode.init c) := by
  refine ⟨Upstream.Solvent.init c.upstream, fun dev dst => ?_, fun voq unit member => ?_,
    fun dev qIndex p member => absurd member (by simp [init_queues])⟩
  · exact show 0 < Word32.size by decide
  · have registered := (Upstream.Consistent.init c.upstream).registered voq unit member
    simp [Upstream.init] at registered

section Weights

variable {g : Settings} {dev dst : Nat}

theorem dataFrom_traffic (dev dst : Nat) : TrafficWeight (dataFrom dev dst) := by
  refine ⟨fun unit psn => ?_, fun _ _ => rfl, fun unit _ other => ?_⟩
  · simp [dataFrom, Packet.dataTo_setPsn]
  · simp [dataFrom, Packet.dataTo_control other]

end Weights

section Queues

variable {c : SwitchNodeConfig} {s after : SwitchNode} {weight : PacketUnit → Nat}

theorem switchSend_queuedBy {outDev qIndex : Nat} {p : Packet}
    (whole : NoDrops (s.switchSend c outDev qIndex p))
    (counted : (outDev < c.nDevices ∧ qIndex < qCnt) ∨ weight (p.toUnit outDev qIndex) = 0) :
    (s.switchSend c outDev qIndex p).queuedBy c weight =
      s.queuedBy c weight + weight (p.toUnit outDev qIndex) :=
  queuedBy_join counted (switchSend_queues whole)

theorem Emits.queuedBy {frames : Nat → List Packet} (emits : Emits s after frames)
    (whole : NoDrops after) : after.queuedBy c weight = s.queuedBy c weight +
      ∑ dev ∈ Finset.range c.nDevices, ((frames dev).map fun p => weight (p.toUnit dev 0)).sum := by
  unfold SwitchNode.queuedBy
  rw [Finset.sum_product, Finset.sum_product, ← Finset.sum_add_distrib]
  apply Finset.sum_congr rfl
  intro dev _
  have first : (0 : Nat) ∈ Finset.range qCnt := by decide
  have change := MapSum.sum_change (fun q => after.cellBy weight (dev, q))
    (fun q => s.cellBy weight (dev, q)) first fun q _ other => by
      simp only [cellBy, emits.whole whole, if_neg other]
  have here : after.cellBy weight (dev, 0) = s.cellBy weight (dev, 0) +
      ((frames dev).map fun p => weight (p.toUnit dev 0)).sum := by
    simp [cellBy, emits.whole whole]
  omega

theorem Emits.released {frames : Nat → List Packet} (emits : Emits s after frames)
    (whole : NoDrops after) (dst : Nat) : after.released c dst = s.released c dst := by
  unfold SwitchNode.released
  rw [emits.queuedBy whole, Finset.sum_eq_zero, Nat.add_zero]
  intro dev _
  apply List.sum_eq_zero
  intro bytes member
  obtain ⟨p, frame, rfl⟩ := List.mem_map.mp member
  exact Packet.dataTo_control (emits.control dev p frame)

theorem Emits.acksQueued {frames : Nat → List Packet} (emits : Emits s after frames)
    (whole : NoDrops after) {dev : Nat} (port : dev < c.nDevices) (dst : Nat) :
    after.acksQueued c dev dst = s.acksQueued c dev dst +
      ((frames dev).map (Packet.carried c.settings dst)).sum := by
  unfold SwitchNode.acksQueued
  rw [emits.queuedBy whole, Finset.sum_eq_single dev]
  · simp only [acksOn, Packet.toUnit, if_true]
  · intro other _ different
    apply List.sum_eq_zero
    intro credit member
    obtain ⟨p, _, rfl⟩ := List.mem_map.mp member
    exact if_neg different
  · intro outside
    exact absurd (Finset.mem_range.mpr port) outside

end Queues

structure Quiet (c : SwitchNodeConfig) (s after : SwitchNode) : Prop where
  upstream : after.upstream = s.upstream
  downstream : after.downstream = s.downstream
  released : ∀ dst, after.released c dst = s.released c dst
  arrivedFrom : ∀ dev dst, after.arrivedFrom c dev dst = s.arrivedFrom c dev dst
  acksQueued : ∀ dev dst, after.acksQueued c dev dst = s.acksQueued c dev dst
  packets : ∀ dev qIndex, ∀ p ∈ after.queues dev qIndex, p.isUdp = true →
    p ∈ s.queues dev qIndex

section Quiet

variable {c : SwitchNodeConfig} {toSwitch : Nat → Prop} {s middle after : SwitchNode}

theorem Quiet.refl (c : SwitchNodeConfig) (s : SwitchNode) : Quiet c s s :=
  ⟨rfl, rfl, fun _ => rfl, fun _ _ => rfl, fun _ _ => rfl, fun _ _ _ member _ => member⟩

theorem Quiet.trans (left : Quiet c s middle) (right : Quiet c middle after) : Quiet c s after :=
  ⟨right.upstream.trans left.upstream, right.downstream.trans left.downstream,
    fun dst => (right.released dst).trans (left.released dst),
    fun dev dst => (right.arrivedFrom dev dst).trans (left.arrivedFrom dev dst),
    fun dev dst => (right.acksQueued dev dst).trans (left.acksQueued dev dst),
    fun dev q p member data => left.packets dev q p (right.packets dev q p member data) data⟩

theorem Quiet.of_same (queues : after.queues = s.queues) (upstream : after.upstream = s.upstream)
    (downstream : after.downstream = s.downstream) : Quiet c s after := by
  have total : ∀ weight, after.queuedBy c weight = s.queuedBy c weight := by
    intro weight
    simp only [queuedBy, cellBy, queues]
  refine ⟨upstream, downstream, fun _ => total _, fun dev dst => ?_, fun _ _ => total _,
    fun dev q p member _ => queues ▸ member⟩
  unfold SwitchNode.arrivedFrom residentBy
  rw [upstream, total]

theorem Quiet.accounted (s : SwitchNode) (admission : Admission) :
    Quiet c s { s with admission := admission } := Quiet.of_same rfl rfl rfl

theorem Quiet.windowSide (quiet : Quiet c s after) (dst : Nat) :
    after.windowSide c dst = s.windowSide c dst := by
  unfold SwitchNode.windowSide
  rw [quiet.upstream, quiet.released]

theorem Quiet.portSide (quiet : Quiet c s after) (dev dst : Nat) :
    after.portSide c dev dst = s.portSide c dev dst := by
  unfold SwitchNode.portSide
  rw [quiet.downstream, quiet.arrivedFrom, quiet.acksQueued]

theorem Quiet.circulates (quiet : Quiet c s after) (circulates : Circulates c toSwitch s) :
    Circulates c toSwitch after :=
  ⟨quiet.upstream ▸ circulates.solvent, quiet.downstream ▸ circulates.fit,
    quiet.upstream ▸ circulates.units,
    fun dev q p member data => circulates.packets dev q p (quiet.packets dev q p member data) data⟩

theorem switchSend_quiet {outDev : Nat} {p : Packet} (control : p.isUdp = false)
    (plain : p.ackTag = none) (whole : NoDrops (s.switchSend c outDev 0 p)) :
    Quiet c s (s.switchSend c outDev 0 p) := by
  have emits := switchSend_emits c s outDev control
  refine ⟨rfl, rfl, fun dst => emits.released whole dst,
    fun dev dst => emits.residentBy (dataFrom_traffic dev dst), fun dev dst => ?_,
    fun dev q other member data => ?_⟩
  · have none : acksOn c.settings dev dst (p.toUnit outDev 0) = 0 := by
      simp [acksOn, Packet.toUnit, Packet.carried_untagged plain]
    unfold SwitchNode.acksQueued
    rw [switchSend_queuedBy whole (.inr none), none, Nat.add_zero]
  · rcases switchSend_member member with before | ⟨rfl, -, -⟩
    · exact before
    · rw [control] at data
      contradiction

theorem admit_quiet {inDev outDev qIndex : Nat} {p : Packet}
    (whole : NoDrops (s.admitPacket c inDev outDev qIndex p)) :
    Quiet c s (s.admitPacket c inDev outDev qIndex p) := by
  have charged : Quiet c s (s.charge c inDev outDev qIndex p) := Quiet.accounted _ _
  unfold admitPacket checkAndSendPfc at whole ⊢
  split
  · exact Quiet.refl c s
  · rename_i accounted
    rw [if_neg accounted] at whole
    split
    · rename_i pauses
      rw [if_pos pauses] at whole
      have sent := @switchSend_quiet c (s.charge c inDev outDev qIndex p) inDev
        (pfcPacket (c.device inDev) (c.pfcFine inDev qIndex p.dip) 0) rfl rfl fun dev => whole dev
      exact (charged.trans sent).trans (Quiet.accounted _ _)
    · exact charged

theorem depart_quiet {inDev ifIndex qIndex : Nat} {p : Packet}
    (whole : NoDrops (s.depart c inDev ifIndex qIndex p)) :
    Quiet c s (s.depart c inDev ifIndex qIndex p) := by
  have discharged : Quiet c s (s.discharge c inDev ifIndex qIndex p) := Quiet.accounted _ _
  unfold depart checkAndSendResume at whole ⊢
  split
  · exact Quiet.refl c s
  · rename_i accounted
    rw [if_neg accounted] at whole
    split
    · rename_i resumes
      rw [if_pos resumes] at whole
      have sent := @switchSend_quiet c (s.discharge c inDev ifIndex qIndex p) inDev
        (pfcPacket (c.device inDev) (c.pfcFine inDev qIndex p.dip) 1) rfl rfl fun dev => whole dev
      exact (discharged.trans sent).trans (Quiet.accounted _ _)
    · exact discharged

end Quiet

section Passing

variable {c : SwitchNodeConfig} {toSwitch : Nat → Prop} {s after : SwitchNode}
  {outDev qIndex : Nat} {p : Packet}

theorem Conveys.setPsn (conveys : Conveys c toSwitch p outDev qIndex) (psn : Nat) :
    Conveys c toSwitch (p.setPsn psn) outDev qIndex := by
  refine ⟨conveys.port, conveys.queue, ?_, ?_, ?_, fun dev flowId leads => ?_⟩
  · rw [Packet.setPsn_dip]
    exact conveys.host
  · rw [Packet.setPsn_flowId]
    exact conveys.ingress
  · rw [Packet.setPsn_dip]
    exact conveys.leaves
  · rw [Packet.setPsn_flowId] at flowId
    obtain ⟨floodgate, data, origin⟩ := conveys.earns dev flowId leads
    refine ⟨floodgate, (Packet.setPsn_isUdp p psn).trans data, ?_⟩
    rw [Packet.setPsn_sip]
    exact origin

theorem Circulates.sent (circulates : Circulates c toSwitch s)
    (conveys : p.isUdp = true → Conveys c toSwitch p outDev qIndex) :
    Circulates c toSwitch (s.switchSend c outDev qIndex p) := by
  refine ⟨circulates.solvent, circulates.fit, circulates.units, fun dev q other member data => ?_⟩
  rcases switchSend_member member with before | ⟨rfl, rfl, rfl⟩
  · exact circulates.packets dev q other before data
  · exact conveys data

structure Joins (c : SwitchNodeConfig) (toSwitch : Nat → Prop) (s : SwitchNode) (unit : PacketUnit)
    (after : SwitchNode) : Prop where
  circulates : Circulates c toSwitch after
  windowSide : ∀ dst, c.upstream.Grouped dst → after.windowSide c dst = s.windowSide c dst
  arrivedFrom : ∀ dev dst, after.arrivedFrom c dev dst =
    s.arrivedFrom c dev dst + dataFrom dev dst unit
  acksQueued : ∀ dev dst, after.acksQueued c dev dst = s.acksQueued c dev dst
  downstream : after.downstream = s.downstream

theorem Joins.paid {up : Upstream} {p' : Packet}
    (kept : Circulates c toSwitch { s with upstream := up })
    (held : ∀ weight, up.heldBy weight = s.upstream.heldBy weight)
    (same : p' = p ∨ ∃ psn, p' = p.setPsn psn) (untagged : p.ackTag = none)
    (conveys : p.isUdp = true → Conveys c toSwitch p outDev qIndex)
    (paid : ∀ dst, c.upstream.Grouped dst →
      up.window c.upstream dst + p'.dataTo dst = s.upstream.window c.upstream dst)
    (whole : NoDrops ({ s with upstream := up }.switchSend c outDev qIndex p')) :
    Joins c toSwitch s (p.toUnit outDev qIndex)
      ({ s with upstream := up }.switchSend c outDev qIndex p') := by
  have conveys' : p'.isUdp = true → Conveys c toSwitch p' outDev qIndex := by
    rcases same with rfl | ⟨psn, rfl⟩
    · exact conveys
    · rw [Packet.setPsn_isUdp]
      exact fun data => (conveys data).setPsn psn
  have counted : ∀ weight : PacketUnit → Nat,
      (p'.isUdp = false → weight (p'.toUnit outDev qIndex) = 0) →
      (outDev < c.nDevices ∧ qIndex < qCnt) ∨ weight (p'.toUnit outDev qIndex) = 0 := by
    intro weight control
    cases data : p'.isUdp with
    | false => exact .inr (control data)
    | true => exact .inl ⟨(conveys' data).port, (conveys' data).queue⟩
  refine ⟨kept.sent conveys', fun dst grouped => ?_, fun dev dst => ?_, fun dev dst => ?_, rfl⟩
  · have pays := paid dst grouped
    have joined := @switchSend_queuedBy c _ (fun unit => unit.pkt.dataTo dst) _ _ _ whole
      (counted (fun unit => unit.pkt.dataTo dst) fun control => Packet.dataTo_control control)
    have before : ({ s with upstream := up } : SwitchNode).queuedBy c
        (fun unit => unit.pkt.dataTo dst) = s.released c dst := rfl
    have new : (p'.toUnit outDev qIndex).pkt.dataTo dst = p'.dataTo dst := rfl
    unfold SwitchNode.windowSide
    unfold SwitchNode.released at joined before ⊢
    have window : ({ s with upstream := up }.switchSend c outDev qIndex p').upstream = up := rfl
    rw [joined, before, new, window]
    omega
  · have joined := switchSend_queuedBy whole (counted (dataFrom dev dst) fun control => by
      simp [dataFrom, Packet.toUnit, Packet.dataTo_control control])
    have before : ({ s with upstream := up } : SwitchNode).queuedBy c (dataFrom dev dst) =
        s.queuedBy c (dataFrom dev dst) := rfl
    have window : ({ s with upstream := up }.switchSend c outDev qIndex p').upstream = up := rfl
    have new : dataFrom dev dst (p'.toUnit outDev qIndex) =
        dataFrom dev dst (p.toUnit outDev qIndex) := by
      rcases same with rfl | ⟨psn, rfl⟩
      · rfl
      · exact (dataFrom_traffic dev dst).psn (p.toUnit outDev qIndex) psn
    unfold SwitchNode.arrivedFrom SwitchNode.residentBy
    rw [joined, before, new, window, held]
    omega
  · have plain : p'.ackTag = none := by
      rcases same with rfl | ⟨psn, rfl⟩
      · exact untagged
      · cases shape : p.body <;> simp [Packet.setPsn, Packet.ackTag, shape] at untagged ⊢
        exact untagged
    have none : acksOn c.settings dev dst (p'.toUnit outDev qIndex) = 0 := by
      simp [acksOn, Packet.toUnit, Packet.carried_untagged plain]
    unfold SwitchNode.acksQueued
    rw [switchSend_queuedBy whole (.inr none), none, Nat.add_zero]
    rfl

theorem Circulates.waits (circulates : Circulates c toSwitch s) {checked up : Upstream}
    (solvent : Upstream.Solvent c.upstream up) (frame : Upstream.Frame s.upstream checked)
    (stores : Upstream.Stores checked ⟨p, p.dip, outDev, qIndex⟩ up) (data : p.isUdp = true)
    (conveys : Conveys c toSwitch p outDev qIndex)
    (kept : ∀ dst, c.upstream.Grouped dst →
      up.window c.upstream dst = s.upstream.window c.upstream dst) :
    Joins c toSwitch s (p.toUnit outDev qIndex) { s with upstream := up } := by
  refine ⟨⟨solvent, circulates.fit, fun voq unit member => ?_, circulates.packets⟩,
    fun dst grouped => ?_, fun dev dst => ?_, fun _ _ => rfl, rfl⟩
  · rcases stores.member member with before | rfl
    · rw [frame.voqPackets] at before
      exact circulates.units voq unit before
    · exact ⟨data, rfl, conveys⟩
  · have released : ({ s with upstream := up } : SwitchNode).released c dst = s.released c dst :=
      rfl
    unfold SwitchNode.windowSide
    rw [kept dst grouped, released]
  · have held := stores.heldBy (dataFrom dev dst)
    have before := frame.heldBy (dataFrom dev dst)
    have queued : ({ s with upstream := up } : SwitchNode).queuedBy c (dataFrom dev dst) =
        s.queuedBy c (dataFrom dev dst) := rfl
    unfold SwitchNode.arrivedFrom SwitchNode.residentBy
    rw [queued, held, before]
    simp only [Packet.toUnit]
    omega

theorem bytesTo_single (dst : Nat) {p p' : Packet} (data : p'.isUdp = true)
    (target : p'.dip = p.dip) :
    Upstream.bytesTo dst [⟨p', p.dip, outDev, qIndex⟩] = p'.dataTo dst := by
  simp [Upstream.ofDst, Packet.dataTo, data, target]

theorem passOn_noDrops (whole : NoDrops after) (success : s.passOn c outDev qIndex p = .ok after) :
    NoDrops s := by
  unfold passOn at success
  split at success
  · obtain ⟨⟨routed, up⟩, -, success⟩ := bind_ok.mp success
    cases routed with
    | some p' =>
        obtain rfl := Except.ok.inj success
        exact switchSend_noDrops whole
    | none =>
        obtain rfl := Except.ok.inj success
        exact whole
  · obtain rfl := Except.ok.inj success
    exact switchSend_noDrops whole

/-- `CheckVOQWin` and the egress queue. -/
theorem Circulates.passedOn (mode : c.LinkByLink) (circulates : Circulates c toSwitch s)
    (untagged : p.ackTag = none) (conveys : p.isUdp = true → Conveys c toSwitch p outDev qIndex)
    (whole : NoDrops after) (success : s.passOn c outDev qIndex p = .ok after) :
    Joins c toSwitch s (p.toUnit outDev qIndex) after := by
  unfold passOn at success
  rw [if_pos mode.floodgate] at success
  obtain ⟨⟨routed, up⟩, checking, success⟩ := bind_ok.mp success
  cases data : p.isUdp with
  | false =>
      have passes :
          s.upstream.checkVOQWin c.upstream p outDev qIndex = .ok (some p, s.upstream) := by
        simp [Upstream.checkVOQWin, data]
      rw [passes] at checking
      obtain ⟨rfl, rfl⟩ := Prod.mk.inj (Except.ok.inj checking)
      obtain rfl := Except.ok.inj success
      refine Joins.paid circulates (fun _ => rfl) (.inl rfl) untagged conveys
        (fun dst _ => ?_) whole
      rw [Packet.dataTo_control data, Nat.add_zero]
  | true =>
      have contents := (Upstream.checkVOQWin_contents p outDev qIndex).of_ok checking
      have balances := Upstream.checkVOQWin_balances mode.own circulates.solvent data
        (conveys data).host checking
      cases routed with
      | some p' =>
          obtain ⟨frame, same⟩ := contents
          obtain rfl := Except.ok.inj success
          have shape : p'.isUdp = true ∧ p'.dip = p.dip := by
            rcases same with rfl | ⟨psn, rfl⟩
            · exact ⟨data, rfl⟩
            · exact ⟨(Packet.setPsn_isUdp p psn).trans data, Packet.setPsn_dip p psn⟩
          refine Joins.paid ⟨balances.solvent, circulates.fit, fun voq unit member => ?_,
            circulates.packets⟩ frame.heldBy same untagged conveys (fun dst grouped => ?_) whole
          · rw [frame.voqPackets] at member
            exact circulates.units voq unit member
          · have paid := balances.balance dst grouped
            simp only [Option.toList_some, List.map_cons, List.map_nil,
              bytesTo_single dst shape.1 shape.2] at paid
            exact paid
      | none =>
          obtain ⟨_, checked, frame, stores⟩ := contents
          obtain rfl := Except.ok.inj success
          exact circulates.waits balances.solvent frame stores data (conveys data)
            fun dst grouped => balances.balance dst grouped

/-- A packet that is not for Floodgate itself, from `GetOutDev` on. -/
theorem Circulates.admitted (mode : c.LinkByLink) (circulates : Circulates c toSwitch s)
    {inDev : Nat} {port : Option Nat} (untagged : p.ackTag = none)
    (conveys : p.isUdp = true → ∃ dev, port = some dev ∧ Conveys c toSwitch p dev (c.qIndexOf p))
    (whole : NoDrops after) (full : after.dropPackets = 0)
    (success : s.forward c inDev port p = .ok after) :
    ∃ dev, Joins c toSwitch s (p.toUnit dev (c.qIndexOf p)) after := by
  have control : ∀ {dev : Nat} {s : SwitchNode}, p.isUdp = false → Circulates c toSwitch s →
      Joins c toSwitch s (p.toUnit dev (c.qIndexOf p)) s := by
    intro dev s other circulates
    refine ⟨circulates, fun _ _ => rfl, fun i dst => ?_, fun _ _ => rfl, rfl⟩
    simp [dataFrom, Packet.toUnit, Packet.dataTo_control other]
  unfold forward at success
  cases port with
  | none =>
      obtain rfl := Except.ok.inj success
      cases data : p.isUdp with
      | false => exact ⟨0, control data circulates⟩
      | true =>
          obtain ⟨dev, absent, -⟩ := conveys data
          contradiction
  | some outDev =>
      simp only at success
      split at success
      · have quiet := admit_quiet (passOn_noDrops whole success)
        have conveys' : p.isUdp = true → Conveys c toSwitch p outDev (c.qIndexOf p) := by
          intro data
          obtain ⟨dev, same, conveys⟩ := conveys data
          obtain rfl := Option.some.inj same
          exact conveys
        have joins := (quiet.circulates circulates).passedOn mode untagged conveys' whole success
        refine ⟨outDev, joins.circulates, fun dst grouped => ?_, fun dev dst => ?_,
          fun dev dst => ?_, joins.downstream.trans quiet.downstream⟩
        · rw [joins.windowSide dst grouped, quiet.windowSide]
        · rw [joins.arrivedFrom, quiet.arrivedFrom]
        · rw [joins.acksQueued, quiet.acksQueued]
      · obtain rfl := Except.ok.inj success
        have counted : s.dropPackets + 1 = 0 := full
        omega

end Passing

structure Evens (c : SwitchNodeConfig) (toSwitch : Nat → Prop) (s after : SwitchNode) : Prop where
  circulates : Circulates c toSwitch after
  windowSide : ∀ dst, c.upstream.Grouped dst → after.windowSide c dst = s.windowSide c dst
  portSide : ∀ dev < c.nDevices, ∀ dst, after.portSide c dev dst = s.portSide c dev dst

def amount (count : Packet → Nat) : Option Packet → Nat
  | none => 0
  | some p => count p

/-- A step in which `received` comes in at the port `dev` or `sent` goes out there. -/
structure Exchanges (c : SwitchNodeConfig) (toSwitch : Nat → Prop) (s : SwitchNode) (dev : Nat)
    (received sent : Option Packet) (after : SwitchNode) : Prop where
  circulates : Circulates c toSwitch after
  window : ∀ dst < c.settings.hostNum, c.upstream.Grouped dst →
    s.upstream.window c.upstream dst + amount (Packet.carried c.settings dst) received <
      Word32.size →
    after.windowSide c dst + amount (Packet.dataTo dst) sent =
      s.windowSide c dst + amount (Packet.carried c.settings dst) received
  port : ∀ i < c.nDevices, toSwitch i → ∀ dst,
    s.arrivedFrom c i dst + s.downstream.credit i dst < Word32.size →
    after.portSide c i dst + (if i = dev then amount (Packet.carried c.settings dst) sent else 0) =
      s.portSide c i dst + if i = dev then amount (Packet.dataTo dst) received else 0
  leaves : ∀ p, sent = some p → p.isUdp = true →
    p.dip < c.settings.hostNum ∧ (c.upstream.Grouped p.dip → toSwitch dev)

section Replying

variable {c : SwitchNodeConfig} {toSwitch : Nat → Prop} {s middle after : SwitchNode}

theorem Quiet.evens (quiet : Quiet c s after) (circulates : Circulates c toSwitch s) :
    Evens c toSwitch s after :=
  ⟨quiet.circulates circulates, fun dst _ => quiet.windowSide dst,
    fun dev _ dst => quiet.portSide dev dst⟩

theorem Evens.exchanges (evens : Evens c toSwitch s after) (dev : Nat) :
    Exchanges c toSwitch s dev none none after := by
  refine ⟨evens.circulates, fun dst _ grouped _ => ?_, fun i port _ dst _ => ?_, by simp⟩
  · rw [evens.windowSide dst grouped]
    rfl
  · rw [evens.portSide i port dst]
    simp [amount]

theorem Exchanges.control {dev : Nat} {p : Packet} (control : p.isUdp = false)
    (plain : p.ackTag = none) (evens : Evens c toSwitch s after) :
    Exchanges c toSwitch s dev (some p) none after := by
  have same := evens.exchanges dev
  have data : ∀ dst, amount (Packet.dataTo dst) (some p) = amount (Packet.dataTo dst) none :=
    fun dst => Packet.dataTo_control control
  have credit : ∀ dst, amount (Packet.carried c.settings dst) (some p) =
      amount (Packet.carried c.settings dst) none := fun dst => Packet.carried_untagged plain
  refine ⟨same.circulates, fun dst => ?_, fun i port leads dst => ?_, same.leaves⟩
  · rw [credit]
    exact same.window dst
  · rw [data]
    exact same.port i port leads dst

theorem Circulates.replied (mode : c.LinkByLink) (circulates : Circulates c toSwitch s)
    (whole : NoDrops after) (replies : Replies c s after) : Evens c toSwitch s after := by
  obtain ⟨frames, returns⟩ := replies
  have emits := returns.emits
  have credits := (returns.settled mode.all).credits mode.credit circulates.fit
  have carries : ∀ dev dst, ((frames dev).map (Packet.carried c.settings dst)).sum =
      ((frames dev).map fun p => Word32.trunc (p.acked c.settings dst)).sum := by
    intro dev dst
    congr 1
    apply List.map_congr_left
    intro p member
    obtain ⟨tag, body⟩ := returns.acks dev p member
    exact Packet.carried_switchAck body
  refine ⟨⟨emits.upstream ▸ circulates.solvent, fun dev dst => ?_,
    emits.upstream ▸ circulates.units, fun dev q p member data => ?_⟩, fun dst _ => ?_,
    fun dev port dst => ?_⟩
  · have returned := credits dev dst
    have fits := circulates.fit dev dst
    omega
  · rcases emits.member member with before | ⟨_, frame⟩
    · exact circulates.packets dev q p before data
    · have control := emits.control dev p frame
      rw [data] at control
      contradiction
  · unfold SwitchNode.windowSide
    rw [emits.upstream, emits.released whole]
  · have returned := credits dev dst
    have queued := emits.acksQueued (c := c) whole port dst
    have resident : after.arrivedFrom c dev dst = s.arrivedFrom c dev dst :=
      emits.residentBy (dataFrom_traffic dev dst)
    have moved := carries dev dst
    unfold SwitchNode.portSide
    omega

end Replying

/-- What may come in at the port `inDev`: data that is passed on towards its host, and from another
switch only data that its switch is credited for. -/
structure Enters (c : SwitchNodeConfig) (toSwitch : Nat → Prop) (inDev : Nat) (outDev : Option Nat)
    (p : Packet) : Prop where
  host : p.isUdp = true → p.dip < c.settings.hostNum
  route : p.isUdp = true → ∃ dev, outDev = some dev ∧ dev < c.nDevices ∧
    (c.upstream.Grouped p.dip → toSwitch dev)
  origin : p.isUdp = true → toSwitch inDev → Credited c p

section Arrivals

variable {c : SwitchNodeConfig} {toSwitch : Nat → Prop} {s after : SwitchNode}

theorem Circulates.restored (mode : c.LinkByLink) (circulates : Circulates c toSwitch s)
    {inDev : Nat} {p : Packet} {tag : SwitchACKTag} {up : Upstream} (frame : p.ackTag = some tag)
    (control : p.isUdp = false)
    (success : s.upstream.restoreWin c.upstream tag p.sip inDev = .ok up) :
    Exchanges c toSwitch s inDev (some p) none { s with upstream := up } := by
  obtain ⟨-, each, -⟩ := Upstream.restoreWin_refills success
  have moved := (Upstream.restoreWin_frame c.upstream s.upstream tag p.sip inDev).of_ok success
  have window : ∀ dst, c.upstream.Grouped dst → up.window c.upstream dst < Word32.size ∧
      (s.upstream.window c.upstream dst +
          FloodgateEvent.creditFor c.upstream dst (.ack tag p.sip inDev) < Word32.size →
        up.window c.upstream dst = s.upstream.window c.upstream dst +
          FloodgateEvent.creditFor c.upstream dst (.ack tag p.sip inDev)) := by
    intro dst grouped
    have refills := each dst grouped
    obtain ⟨added, unused⟩ := refills.credit mode.credit
    have small := circulates.solvent.small dst grouped
    by_cases known : dst ∈ s.upstream.wins
    · rw [Upstream.window_known known] at small ⊢
      rw [Upstream.window_known (refills.kept known)]
      have bound := refills.small small
      refine ⟨bound, fun fits => ?_⟩
      unfold Word32.size at added fits bound
      omega
    · obtain ⟨none, unknown⟩ := unused known
      rw [Upstream.window_unknown known] at small ⊢
      rw [Upstream.window_unknown unknown, none, Nat.add_zero]
      exact ⟨small, fun _ => rfl⟩
  refine ⟨⟨⟨fun voq unit member => ?_, fun dst grouped => (window dst grouped).1⟩, circulates.fit,
    fun voq unit member => ?_, circulates.packets⟩, fun dst host grouped room => ?_,
    fun i _ _ dst _ => ?_, by simp⟩
  · rw [moved.voqPackets] at member
    obtain ⟨inside, registered, grouped⟩ := circulates.solvent.held voq unit member
    exact ⟨inside, moved.registered unit.dst registered, grouped⟩
  · rw [moved.voqPackets] at member
    exact circulates.units voq unit member
  · have credit := Packet.carried_creditFor frame (c := c.upstream) host inDev
    have exact := (window dst grouped).2
    rw [credit] at exact
    have restored : up.window c.upstream dst = _ := exact room
    have released : ({ s with upstream := up } : SwitchNode).released c dst = s.released c dst :=
      rfl
    unfold SwitchNode.windowSide
    rw [restored, released]
    simp only [amount]
    have settings : c.upstream.settings = c.settings := rfl
    rw [settings]
    omega
  · have data : amount (Packet.dataTo dst) (some p) = 0 := Packet.dataTo_control control
    have queued : ({ s with upstream := up } : SwitchNode).queuedBy c (dataFrom i dst) =
        s.queuedBy c (dataFrom i dst) := rfl
    have acks : ({ s with upstream := up } : SwitchNode).acksQueued c i dst =
        s.acksQueued c i dst := rfl
    have held : up.heldBy (dataFrom i dst) = s.upstream.heldBy (dataFrom i dst) := moved.heldBy _
    unfold SwitchNode.portSide SwitchNode.arrivedFrom SwitchNode.residentBy
    rw [data, queued, acks, held]
    simp [amount]

theorem Joins.exchanges {inDev dev : Nat} {p : Packet} {qIndex : Nat}
    (joins : Joins c toSwitch s ((p.setFlowId (some inDev)).toUnit dev qIndex) after)
    (plain : p.ackTag = none) : Exchanges c toSwitch s inDev (some p) none after := by
  have credit : ∀ dst, amount (Packet.carried c.settings dst) (some p) = 0 :=
    fun dst => Packet.carried_untagged plain
  refine ⟨joins.circulates, fun dst _ grouped _ => ?_, fun i _ _ dst _ => ?_, by simp⟩
  · rw [joins.windowSide dst grouped, credit]
    rfl
  · have weight : dataFrom i dst ((p.setFlowId (some inDev)).toUnit dev qIndex) =
        if i = inDev then amount (Packet.dataTo dst) (some p) else 0 := by
      simp only [dataFrom, Packet.toUnit, Packet.setFlowId, Option.some.injEq, eq_comm (a := inDev)]
      rfl
    unfold SwitchNode.portSide
    rw [joins.arrivedFrom, joins.acksQueued, joins.downstream, weight]
    simp only [amount, ite_self]
    omega

/-- `QbbNetDevice::Receive` and `SendToDev` up to the drain of the VOQs. -/
theorem Circulates.received (mode : c.LinkByLink) (circulates : Circulates c toSwitch s)
    {route : Nat → Nat} {inDev : Nat} {outDev : Option Nat} {p : Packet}
    (enters : Enters c toSwitch inDev outDev p) (whole : NoDrops after)
    (full : after.dropPackets = 0) (success : s.receive c route inDev outDev p = .ok after) :
    Exchanges c toSwitch s inDev (some p) none after := by
  unfold receive at success
  split at success
  · rename_i frame
    obtain ⟨device, received, success⟩ := bind_ok.mp success
    obtain rfl := Except.ok.inj success
    have queues := (@setDevice_queues s inDev device (receive_queue received)).1
    have quiet : Quiet c s (s.setDevice inDev device) := Quiet.of_same queues rfl rfl
    refine Exchanges.control ?_ ?_ (quiet.evens circulates)
    · cases shape : p.body <;> simp [Packet.isPfc, Packet.isUdp, shape] at frame ⊢
    · cases shape : p.body <;> simp [Packet.isPfc, Packet.ackTag, shape] at frame ⊢
  · unfold enter at success
    split at success
    · rename_i tag _ frame
      have replies := (receiveSYN_replies c route s tag p.sip p.dip inDev).of_ok success
      have checked : ∀ row i, (s.downstream.checkSYN c.settings row tag).2.credit i =
          s.downstream.credit i := fun row i => funext fun dst => checkSYN_credit _ _ _ _ _ _
      have kept : Evens c toSwitch s { s with
          downstream := (s.downstream.checkSYN c.settings (c.creditRow inDev p.sip) tag).2 } := by
        refine ⟨⟨circulates.solvent, fun dev dst => ?_, circulates.units, circulates.packets⟩,
          fun _ _ => rfl, fun dev _ dst => ?_⟩
        · rw [checked]
          exact circulates.fit dev dst
        · unfold SwitchNode.portSide
          rw [checked]
          rfl
      have replied := kept.circulates.replied mode whole replies
      have evens : Evens c toSwitch s after :=
        ⟨replied.circulates, fun dst grouped => (replied.windowSide dst grouped).trans
            (kept.windowSide dst grouped),
          fun dev port dst => (replied.portSide dev port dst).trans (kept.portSide dev port dst)⟩
      have probe : p.synTag = some tag := frame
      refine Exchanges.control ?_ ?_ evens
      · cases shape : p.body <;> simp [Packet.synTag, Packet.isUdp, shape] at probe ⊢
      · cases shape : p.body <;> simp [Packet.synTag, Packet.ackTag, shape] at probe ⊢
    · have records : s.recordPsn c inDev (p.setFlowId (some inDev)) =
          (p.setFlowId (some inDev), s) := by
        unfold recordPsn
        rw [mode.credit]
      rw [records] at success
      simp only at success
      split at success
      · rename_i tag _ frame
        obtain ⟨up, restoring, success⟩ := bind_ok.mp success
        obtain rfl := Except.ok.inj success
        have tagged : p.ackTag = some tag := frame
        refine circulates.restored mode tagged ?_ restoring
        cases shape : p.body <;> simp [Packet.isUdp, Packet.ackTag, shape] at tagged ⊢
      · rename_i plain
        have untagged : p.ackTag = none := by
          by_contra tagged
          obtain ⟨tag, frame⟩ := Option.ne_none_iff_exists'.mp tagged
          exact plain tag mode.floodgate frame
        have conveys : (p.setFlowId (some inDev)).isUdp = true → ∃ dev, outDev = some dev ∧
            Conveys c toSwitch (p.setFlowId (some inDev)) dev
              (c.qIndexOf (p.setFlowId (some inDev))) := by
          intro data
          obtain ⟨dev, port, below, leads⟩ := enters.route data
          refine ⟨dev, port, below, qIndexOf_lt c _, enters.host data, ⟨inDev, rfl⟩, leads,
            fun i flowId leads => ?_⟩
          obtain rfl := Option.some.inj flowId
          exact enters.origin data leads
        have bare : (p.setFlowId (some inDev)).ackTag = none := untagged
        obtain ⟨dev, joins⟩ := circulates.admitted mode bare conveys whole full success
        exact joins.exchanges untagged

end Arrivals

section Departures

variable {c : SwitchNodeConfig} {toSwitch : Nat → Prop} {s after : SwitchNode}

theorem Circulates.released (mode : c.LinkByLink) (circulates : Circulates c toSwitch s)
    {voq : Nat × Nat} (whole : NoDrops after) (success : s.release c voq = .ok after) :
    Evens c toSwitch s after := by
  unfold release at success
  obtain ⟨⟨sent, up⟩, sending, success⟩ := bind_ok.mp success
  have contents := (Upstream.checkAndSendOne_yields voq).of_ok sending
  have pays := (Upstream.checkAndSendOne_pays mode.own circulates.solvent voq).of_ok sending
  cases sent with
  | none =>
      obtain rfl := Except.ok.inj success
      have frame : Upstream.Frame s.upstream up := contents
      have held : up.heldBy = s.upstream.heldBy := funext fun weight => frame.heldBy weight
      refine ⟨⟨pays.solvent, circulates.fit, fun voq unit member => ?_, circulates.packets⟩,
        fun dst grouped => ?_, fun dev _ dst => ?_⟩
      · rw [frame.voqPackets] at member
        exact circulates.units voq unit member
      · have paid : up.window c.upstream dst + 0 = s.upstream.window c.upstream dst :=
          pays.balance dst grouped
        unfold SwitchNode.windowSide
        rw [← paid]
        rfl
      · unfold SwitchNode.portSide SwitchNode.arrivedFrom SwitchNode.residentBy
        rw [held]
        rfl
  | some unit =>
      obtain rfl := Except.ok.inj success
      obtain ⟨top, yields⟩ := contents
      obtain ⟨data, target, conveys⟩ := circulates.units voq top yields.top_mem
      have shape : unit.pkt.isUdp = true ∧ unit.pkt.dip = top.dst ∧ unit.dst = top.dst ∧
          Conveys c toSwitch unit.pkt unit.outDev unit.qIndex ∧
          ∀ dev dst, dataFrom dev dst (unit.pkt.toUnit unit.outDev unit.qIndex) =
            dataFrom dev dst top := by
        rcases yields.unit with rfl | ⟨psn, rfl⟩
        · exact ⟨data, target, rfl, conveys, fun _ _ => rfl⟩
        · exact ⟨(Packet.setPsn_isUdp _ psn).trans data, (Packet.setPsn_dip _ psn).trans target,
            rfl, conveys.setPsn psn, fun dev dst => (dataFrom_traffic dev dst).psn top psn⟩
      obtain ⟨data', target', same, conveys', weighs⟩ := shape
      have kept : Circulates c toSwitch { s with upstream := up } :=
        ⟨pays.solvent, circulates.fit,
          fun place other member => circulates.units place other (yields.member member),
          circulates.packets⟩
      have place : ∀ weight : PacketUnit → Nat,
          (unit.outDev < c.nDevices ∧ unit.qIndex < qCnt) ∨
            weight (unit.pkt.toUnit unit.outDev unit.qIndex) = 0 :=
        fun _ => .inl ⟨conveys'.port, conveys'.queue⟩
      have joined : ∀ weight, ({ s with upstream := up }.sendUnit c unit).queuedBy c weight =
          s.queuedBy c weight + weight (unit.pkt.toUnit unit.outDev unit.qIndex) :=
        fun weight => switchSend_queuedBy whole (place weight)
      have window : ({ s with upstream := up }.sendUnit c unit).upstream = up := rfl
      refine ⟨kept.sent fun _ => conveys', fun dst grouped => ?_, fun dev _ dst => ?_⟩
      · have paid : up.window c.upstream dst + Upstream.bytesTo dst [unit] =
            s.upstream.window c.upstream dst := pays.balance dst grouped
        have bytes : Upstream.bytesTo dst [unit] = unit.pkt.dataTo dst := by
          simp [Upstream.ofDst, Packet.dataTo, data', target', same]
        have total := joined fun unit => unit.pkt.dataTo dst
        have new : (unit.pkt.toUnit unit.outDev unit.qIndex).pkt.dataTo dst =
            unit.pkt.dataTo dst := rfl
        unfold SwitchNode.windowSide SwitchNode.released
        rw [window, total, new]
        omega
      · have fewer : up.heldBy (dataFrom dev dst) + dataFrom dev dst top =
            s.upstream.heldBy (dataFrom dev dst) := yields.heldBy _
        have none : acksOn c.settings dev dst (unit.pkt.toUnit unit.outDev unit.qIndex) = 0 := by
          simp [acksOn, Packet.toUnit, Packet.carried_data data']
        have credit : ({ s with upstream := up }.sendUnit c unit).downstream = s.downstream := rfl
        unfold SwitchNode.portSide SwitchNode.arrivedFrom SwitchNode.residentBy
          SwitchNode.acksQueued
        rw [window, credit, joined, joined, weighs, none]
        omega

structure HeadGone (c : SwitchNodeConfig) (toSwitch : Nat → Prop) (s : SwitchNode) (ifIndex : Nat)
    (p : Packet) (after : SwitchNode) : Prop where
  circulates : Circulates c toSwitch after
  upstream : after.upstream = s.upstream
  downstream : after.downstream = s.downstream
  released : ∀ dst, after.released c dst + p.dataTo dst = s.released c dst
  arrivedFrom : ∀ dev dst, after.arrivedFrom c dev dst +
    (if p.flowId = some dev then p.dataTo dst else 0) = s.arrivedFrom c dev dst
  acksQueued : ∀ dev dst, after.acksQueued c dev dst +
    (if ifIndex = dev then p.carried c.settings dst else 0) = s.acksQueued c dev dst
  conveys : p.isUdp = true → ∃ qIndex, Conveys c toSwitch p ifIndex qIndex

theorem Circulates.taken (circulates : Circulates c toSwitch s) {ifIndex qIndex : Nat} {p : Packet}
    {queue : BEgressQueue} (port : ifIndex < c.nDevices)
    (dequeues : (s.device ifIndex).queue.Dequeues p qIndex queue) :
    HeadGone c toSwitch s ifIndex p (s.taken ifIndex queue) := by
  obtain ⟨head, others⟩ := taken_queues dequeues
  have leaves := fun weight : PacketUnit → Nat =>
    @queuedBy_leave c s (s.taken ifIndex queue) weight ifIndex qIndex p port dequeues.below head
      others
  exact ⟨⟨circulates.solvent, circulates.fit, circulates.units, fun dev q other member data =>
    circulates.packets dev q other (taken_member dequeues member) data⟩,
    rfl, rfl, fun dst => leaves _, fun dev dst => taken_residentBy dequeues port _,
    fun dev dst => leaves _, fun data =>
      ⟨qIndex, circulates.packets ifIndex qIndex p (taken_head dequeues) data⟩⟩

theorem notified_noDrops {ifIndex qIndex : Nat} {p p' : Packet}
    (notified : Notified c s ifIndex qIndex p p' after) (whole : NoDrops after) :
    NoDrops (s.depart c (p.flowId.getD 0) ifIndex qIndex p) := by
  cases notified with
  | plain => exact whole
  | credit _ _ replies =>
      obtain ⟨frames, returns⟩ := replies
      exact returns.emits.noDrops whole
  | psn _ _ _ replies =>
      obtain ⟨frames, returns⟩ := replies
      exact returns.emits.noDrops whole

theorem Circulates.owing (circulates : Circulates c toSwitch s) {d : Downstream}
    (fit : d.CreditsFit) : Circulates c toSwitch { s with downstream := d } :=
  ⟨circulates.solvent, fit, circulates.units, circulates.packets⟩

theorem addCreditCounter_fit {d : Downstream} (fit : d.CreditsFit) (row target size : Nat) :
    (d.addCreditCounter row target size).CreditsFit := by
  intro dev dst
  rw [Downstream.addCreditCounter_credit]
  split
  · exact Word32.add_lt _ _
  · exact fit dev dst

/-- `SwitchNotifyDequeue` for a packet that has been taken out. -/
theorem Circulates.notified (mode : c.LinkByLink) {before : SwitchNode} {ifIndex qIndex : Nat}
    {p p' : Packet} (taken : HeadGone c toSwitch before ifIndex p s)
    (notified : Notified c s ifIndex qIndex p p' after) (whole : NoDrops after) :
    Exchanges c toSwitch before ifIndex none (some p') after := by
  have quiet := depart_quiet (notified_noDrops notified whole)
  have circulates := quiet.circulates taken.circulates
  have window : ∀ dst, (s.depart c (p.flowId.getD 0) ifIndex qIndex p).windowSide c dst +
      p.dataTo dst = before.windowSide c dst := by
    intro dst
    have released := taken.released dst
    rw [quiet.windowSide]
    unfold SwitchNode.windowSide
    rw [taken.upstream]
    omega
  have leaves : ∀ other, some (p.setFlowId none) = some other → other.isUdp = true →
      other.dip < c.settings.hostNum ∧ (c.upstream.Grouped other.dip → toSwitch ifIndex) := by
    intro other same data
    obtain rfl := Option.some.inj same
    obtain ⟨q, conveys⟩ := taken.conveys data
    exact ⟨conveys.host, conveys.leaves⟩
  cases notified with
  | plain free =>
      refine ⟨circulates, fun dst _ _ _ => window dst, fun i _ leads dst _ => ?_, leaves⟩
      have nothing : (if p.flowId = some i then p.dataTo dst else 0) = 0 := by
        split
        · rename_i flowId
          apply Packet.dataTo_control
          by_contra data
          obtain ⟨q, conveys⟩ := taken.conveys (by simpa using data)
          exact free (conveys.earns i flowId leads)
        · rfl
      have arrived := taken.arrivedFrom i dst
      have acks := taken.acksQueued i dst
      have carried : amount (Packet.carried c.settings dst) (some (p.setFlowId none)) =
          p.carried c.settings dst := rfl
      rw [quiet.portSide, carried]
      unfold SwitchNode.portSide
      rw [taken.downstream]
      simp only [amount, ite_self, eq_comm (a := i)] at acks ⊢
      omega
  | credit credited _ replies =>
      obtain ⟨q, conveys⟩ := taken.conveys credited.2.1
      obtain ⟨row, flowId⟩ := conveys.ingress
      have here : c.creditRow (p.flowId.getD 0) p.sip = row := by
        rw [SwitchNodeConfig.creditRow_all mode.all, flowId, Option.getD_some]
      rw [here] at replies
      have owing := circulates.owing (addCreditCounter_fit taken.circulates.fit row p.dip p.size)
      have evens := owing.replied mode whole replies
      refine ⟨evens.circulates, fun dst _ grouped _ => ?_, fun i port _ dst room => ?_, leaves⟩
      · rw [evens.windowSide dst grouped]
        exact window dst
      · have arrived := taken.arrivedFrom i dst
        have acks := taken.acksQueued i dst
        have data : p.carried c.settings dst = 0 := Packet.carried_data credited.2.1
        have gone : amount (Packet.carried c.settings dst) (some (p.setFlowId none)) = 0 := data
        have earned : (s.downstream.addCreditCounter row p.dip p.size).credit i dst =
            s.downstream.credit i dst + if p.flowId = some i then p.dataTo dst else 0 := by
          rw [Downstream.addCreditCounter_credit]
          simp only [flowId, Option.some.injEq, Packet.dataTo, credited.2.1, true_and] at arrived ⊢
          rw [taken.downstream]
          by_cases cell : i = row ∧ dst = p.dip
          · obtain ⟨rfl, rfl⟩ := cell
            simp only [and_self, if_true] at arrived ⊢
            exact Word32.add_eq _ _ (by omega)
          · rw [if_neg cell]
            split
            · rename_i same
              rw [if_neg fun target => cell ⟨same.symm, target.symm⟩]
              rfl
            · rfl
        have before_replies : ({ s.depart c (p.flowId.getD 0) ifIndex qIndex p with
              downstream := s.downstream.addCreditCounter row p.dip p.size } :
              SwitchNode).portSide c i dst =
            s.arrivedFrom c i dst + (s.downstream.addCreditCounter row p.dip p.size).credit i dst +
              s.acksQueued c i dst := by
          rw [← quiet.arrivedFrom, ← quiet.acksQueued]
          rfl
        rw [evens.portSide i port, before_replies, earned, gone]
        unfold SwitchNode.portSide
        rw [taken.downstream]
        simp only [amount, data, ite_self] at acks ⊢
        omega
  | psn _ absolute =>
      rw [mode.credit] at absolute
      contradiction

theorem Circulates.transmitted (mode : c.LinkByLink) (circulates : Circulates c toSwitch s)
    {route : Nat → Nat} {ifIndex : Nat} {out : Option Packet} (port : ifIndex < c.nDevices)
    (whole : NoDrops after) (success : s.transmit c route ifIndex = .ok (out, after)) :
    Exchanges c toSwitch s ifIndex none out after := by
  cases (transmit_transmits c route s ifIndex).of_ok success with
  | idle => exact ((Quiet.refl c _).evens circulates).exchanges ifIndex
  | sent served notified =>
      have taken := circulates.taken port (BEgressQueue.dequeueRR_dequeues served)
      exact Circulates.notified mode taken notified whole

theorem Circulates.probed (circulates : Circulates c toSwitch s) {dev : Nat} {recent : Nat → Bool}
    (whole : NoDrops after) (probes : Probes c s dev recent after) : Evens c toSwitch s after := by
  cases probes with
  | idle => exact (Quiet.refl c s).evens circulates
  | @sent port p body =>
      have control : p.isUdp = false := by simp [Packet.isUdp, body]
      have plain : p.ackTag = none := by simp [Packet.ackTag, body]
      exact (switchSend_quiet control plain whole).evens circulates

end Departures

end SwitchNode

end Floodgate
