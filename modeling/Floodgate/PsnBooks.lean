import Floodgate.AbsolutePsns
import Floodgate.SynTimer

/-! The absolute PSNs of one switch: what its packets say of the data it has sent and received, and
how every event keeps it true. -/

namespace Floodgate

open Std Outcome

namespace Packet

/-- The PSN up to which a frame tells of data for `dst`: that of the data, or of a SYN. -/
def announced (p : Packet) (dst : Nat) : Nat :=
  match p.body with
  | .udp (some psn) _ => if dst = p.dip then psn else 0
  | .switchSyn tag => tag.getDataPSNEntry dst
  | _ => 0

/-- Data without a PSN has no ingress PSN either, and no host has tagged an ACK. -/
structure Clean (p : Packet) : Prop where
  ingress : p.psn = none → p.ingressPsn = none
  untagged : ∀ tag, p.ackTag = some tag → p.body = .switchAck tag

section Frames

variable {g : Settings} {p : Packet}

theorem announced_psn {psn : Nat} (tagged : p.psn = some psn) (dst : Nat) :
    p.announced dst = if dst = p.dip then psn else 0 := by
  cases shape : p.body with
  | udp old ingress =>
      simp only [Packet.psn, shape] at tagged
      simp only [announced, shape, tagged]
  | _ => simp [Packet.psn, shape] at tagged

theorem announced_data (data : p.isUdp = true) (plain : p.psn = none) (dst : Nat) :
    p.announced dst = 0 := by
  cases shape : p.body with
  | udp old ingress =>
      simp only [Packet.psn, shape] at plain
      simp only [announced, shape, plain]
  | _ => simp [isUdp, shape] at data

theorem announced_control (control : p.isUdp = false) (other : p.synTag = none) (dst : Nat) :
    p.announced dst = 0 := by
  cases shape : p.body <;> simp [isUdp, synTag, announced, shape] at control other ⊢

theorem acked_data (data : p.isUdp = true) (dst : Nat) : p.acked g dst = 0 := by
  cases shape : p.body <;> simp [isUdp, acked, shape] at data ⊢

theorem ackTag_data (data : p.isUdp = true) : p.ackTag = none := by
  cases shape : p.body <;> simp [isUdp, ackTag, shape] at data ⊢

theorem acked_tag {tag : SwitchACKTag} (body : p.body = .switchAck tag) (dst : Nat) :
    p.acked g dst = tag.acknowledged g p.sip dst := by
  cases mode : g.switchAckMode <;> simp [acked, SwitchACKTag.acknowledged, body, mode]

theorem acked_untagged (plain : p.ackTag = none) (dst : Nat) : p.acked g dst = 0 := by
  cases shape : p.body <;> simp [ackTag, acked, shape] at plain ⊢

theorem setPsn_psn (data : p.isUdp = true) (psn : Nat) : (p.setPsn psn).psn = some psn := by
  cases shape : p.body <;> simp [isUdp, setPsn, Packet.psn, shape] at data ⊢

theorem setPsn_ingressPsn (psn : Nat) : (p.setPsn psn).ingressPsn = p.ingressPsn := by
  cases shape : p.body <;> simp [setPsn, ingressPsn, shape]

end Frames

end Packet

namespace Downstream

section Syns

variable {g : Settings} {dev : Nat} {tag : SwitchSYNTag}

theorem checkSYNDst_cells (found : List Nat × Downstream) (dst i j : Nat) :
    (checkSYNDst dev tag found dst).2.rcvDataPsn i j =
      (if i = dev ∧ j = dst then max (found.2.rcvDataPsn i j) (tag.getDataPSNEntry j)
      else found.2.rcvDataPsn i j) ∧
    (checkSYNDst dev tag found dst).2.nxtAckPsn i j =
      (if (i = dev ∧ j = dst) ∧ found.2.rcvDataPsn i j < tag.getDataPSNEntry j then
        tag.getDataPSNEntry j
      else found.2.nxtAckPsn i j) ∧
    (checkSYNDst dev tag found dst).2.lstAckPsn = found.2.lstAckPsn := by
  unfold checkSYNDst
  by_cases jump : tag.getDataPSNEntry dst > found.2.rcvDataPsn dev dst
  · simp only [if_pos jump]
    by_cases here : i = dev ∧ j = dst
    · obtain ⟨rfl, rfl⟩ := here
      simp only [setCell_same, and_self, true_and, if_true, if_pos jump]
      exact ⟨(Nat.max_eq_right (Nat.le_of_lt jump)).symm, trivial⟩
    · simp only [setCell_other _ _ _ _ _ _ here, false_and, if_false, here, and_self]
  · simp only [if_neg jump]
    by_cases here : i = dev ∧ j = dst
    · obtain ⟨rfl, rfl⟩ := here
      simp only [and_self, true_and, if_true]
      exact ⟨(Nat.max_eq_left (Nat.not_lt.mp jump)).symm, (if_neg jump).symm, trivial⟩
    · simp only [here, if_false, false_and, and_self]

theorem foldl_checkSYNDst (dsts : List Nat) (found : List Nat × Downstream) (once : dsts.Nodup) :
    (∀ i j, (dsts.foldl (checkSYNDst dev tag) found).2.rcvDataPsn i j =
        (if i = dev ∧ j ∈ dsts then max (found.2.rcvDataPsn i j) (tag.getDataPSNEntry j)
        else found.2.rcvDataPsn i j)) ∧
      (∀ i j, (dsts.foldl (checkSYNDst dev tag) found).2.nxtAckPsn i j =
        (if (i = dev ∧ j ∈ dsts) ∧ found.2.rcvDataPsn i j < tag.getDataPSNEntry j then
          tag.getDataPSNEntry j
        else found.2.nxtAckPsn i j)) ∧
      (dsts.foldl (checkSYNDst dev tag) found).2.lstAckPsn = found.2.lstAckPsn ∧
      (dsts.foldl (checkSYNDst dev tag) found).1 = found.1 ++ dsts.filter fun dst =>
        decide (tag.getACKPSNEntry dst <
          (dsts.foldl (checkSYNDst dev tag) found).2.nxtAckPsn dev dst) := by
  induction dsts generalizing found with
  | nil => simp
  | cons dst rest ih =>
      obtain ⟨fresh, once⟩ := List.nodup_cons.mp once
      obtain ⟨received, passed, last, noted⟩ := ih (checkSYNDst dev tag found dst) once
      refine ⟨fun i j => ?_, fun i j => ?_, ?_, ?_⟩
      · rw [List.foldl_cons, received, (checkSYNDst_cells found dst i j).1]
        by_cases same : j = dst
        · subst same
          simp [fresh]
        · simp [same]
      · obtain ⟨received', passed', -⟩ := @checkSYNDst_cells dev tag found dst i j
        rw [List.foldl_cons, passed, received', passed']
        by_cases same : j = dst
        · subst same
          simp [fresh]
        · simp [same]
      · rw [List.foldl_cons, last, (checkSYNDst_cells found dst 0 0).2.2]
      · rw [List.foldl_cons, noted, List.filter_cons]
        have here := passed dev dst
        simp only [fresh, and_false, false_and, if_false] at here
        rw [here]
        unfold checkSYNDst
        split <;> split <;> simp_all

/-- A SYN raises what has been received to what it announces, and where that is more what may be
acknowledged jumps along. -/
structure Jumps (g : Settings) (dev : Nat) (tag : SwitchSYNTag) (d after : Downstream) : Prop where
  received : ∀ i j, after.rcvDataPsn i j = if i = dev ∧ j < g.hostNum then
    max (d.rcvDataPsn i j) (tag.getDataPSNEntry j) else d.rcvDataPsn i j
  passed : ∀ i j, after.nxtAckPsn i j =
    if (i = dev ∧ j < g.hostNum) ∧ d.rcvDataPsn i j < tag.getDataPSNEntry j then
      tag.getDataPSNEntry j
    else d.nxtAckPsn i j
  last : after.lstAckPsn = d.lstAckPsn

theorem checkSYN_jumps (d : Downstream) : Jumps g dev tag d (d.checkSYN g dev tag).2 := by
  obtain ⟨received, passed, last, -⟩ :=
    @foldl_checkSYNDst dev tag (List.range g.hostNum) ([], d) List.nodup_range
  simp only [List.mem_range] at received passed
  exact ⟨received, passed, last⟩

/-- The set of `CheckSYN`: where the upstream knows of less than may be acknowledged now. -/
theorem mem_checkSYN (d : Downstream) (dst : Nat) : dst ∈ (d.checkSYN g dev tag).1 ↔
    dst < g.hostNum ∧ tag.getACKPSNEntry dst < (d.checkSYN g dev tag).2.nxtAckPsn dev dst := by
  have noted := (@foldl_checkSYNDst dev tag (List.range g.hostNum) ([], d) List.nodup_range).2.2.2
  unfold checkSYN
  rw [noted, List.nil_append, List.mem_filter, List.mem_range, decide_eq_true_iff]

theorem checkSYN_nodup (d : Downstream) : (d.checkSYN g dev tag).1.Nodup := by
  have noted := (@foldl_checkSYNDst dev tag (List.range g.hostNum) ([], d) List.nodup_range).2.2.2
  unfold checkSYN
  rw [noted, List.nil_append]
  exact List.nodup_range.filter _

end Syns

end Downstream

/-- A switch with Floodgate that numbers its data. -/
structure SwitchNodeConfig.Numbering (c : SwitchNodeConfig) : Prop where
  floodgate : c.useFloodgate = true
  psns : c.settings.CountsPsns

namespace SwitchNode

/-- A frame that leaves at the port `dev` tells of nothing that its switch has not sent there, and
acknowledges nothing beyond what the switch counts as passed on. -/
structure Vouched (g : Settings) (s : SwitchNode) (dev : Nat) (p : Packet) : Prop where
  announced : ∀ dst, p.announced dst ≤ s.upstream.nxtDataPsn dev dst
  acked : ∀ dst, p.acked g dst ≤ s.downstream.nxtAckPsn dev dst
  untagged : ∀ tag, p.ackTag = some tag → p.body = .switchAck tag

def Noted (s : SwitchNode) (p : Packet) : Prop :=
  ∀ psn, p.ingressPsn = some psn → psn ≤ s.downstream.rcvDataPsn (p.flowId.getD 0) p.dip

/-- The ports in `toSwitch` lead to switches. -/
structure Queued (c : SwitchNodeConfig) (toSwitch : Nat → Prop) (s : SwitchNode) (dev : Nat)
    (p : Packet) : Prop where
  noted : s.Noted p
  vouched : s.Vouched c.settings dev p
  clean : toSwitch dev → ¬ Credited c p → p.psn = none → p.ingressPsn = none

structure Waiting (c : SwitchNodeConfig) (s : SwitchNode) (unit : PacketUnit) : Prop where
  data : unit.pkt.isUdp = true
  target : unit.pkt.dip = unit.dst
  noted : s.Noted unit.pkt
  group : ∃ gid, c.upstream.dst2group unit.dst = .group gid

structure PsnBooks (c : SwitchNodeConfig) (toSwitch : Nat → Prop) (s : SwitchNode) : Prop where
  acks : s.upstream.AcksBelow
  last : s.downstream.Ordered
  next : ∀ dev dst, s.downstream.nxtAckPsn dev dst ≤ s.downstream.rcvDataPsn dev dst
  groups : ∀ dev dst, 0 < s.upstream.nxtDataPsn dev dst →
    ∃ gid, c.upstream.dst2group dst = .group gid
  units : ∀ voq, ∀ unit ∈ s.upstream.voqPackets voq, Waiting c s unit
  queued : ∀ dev qIndex, ∀ p ∈ s.queues dev qIndex, Queued c toSwitch s dev p

structure Advances (s after : SwitchNode) : Prop where
  sent : ∀ dev dst, s.upstream.nxtDataPsn dev dst ≤ after.upstream.nxtDataPsn dev dst
  received : ∀ dev dst, s.downstream.rcvDataPsn dev dst ≤ after.downstream.rcvDataPsn dev dst
  passed : ∀ dev dst, s.downstream.nxtAckPsn dev dst ≤ after.downstream.nxtAckPsn dev dst

section Advance

variable {c : SwitchNodeConfig} {toSwitch : Nat → Prop} {s middle after : SwitchNode}

theorem Advances.refl (s : SwitchNode) : Advances s s :=
  ⟨fun _ _ => Nat.le_refl _, fun _ _ => Nat.le_refl _, fun _ _ => Nat.le_refl _⟩

theorem Advances.trans (left : Advances s middle) (right : Advances middle after) :
    Advances s after :=
  ⟨fun dev dst => (left.sent dev dst).trans (right.sent dev dst),
    fun dev dst => (left.received dev dst).trans (right.received dev dst),
    fun dev dst => (left.passed dev dst).trans (right.passed dev dst)⟩

theorem Advances.same (upstream : after.upstream = s.upstream)
    (downstream : after.downstream = s.downstream) : Advances s after :=
  ⟨fun _ _ => by rw [upstream], fun _ _ => by rw [downstream], fun _ _ => by rw [downstream]⟩

theorem Vouched.advance {g : Settings} {dev : Nat} {p : Packet} (vouched : Vouched g s dev p)
    (advances : Advances s after) : Vouched g after dev p :=
  ⟨fun dst => (vouched.announced dst).trans (advances.sent dev dst),
    fun dst => (vouched.acked dst).trans (advances.passed dev dst), vouched.untagged⟩

theorem Noted.advance {p : Packet} (noted : Noted s p) (advances : Advances s after) :
    Noted after p :=
  fun psn tagged => (noted psn tagged).trans (advances.received _ _)

theorem Queued.advance {dev : Nat} {p : Packet} (queued : Queued c toSwitch s dev p)
    (advances : Advances s after) : Queued c toSwitch after dev p :=
  ⟨queued.noted.advance advances, queued.vouched.advance advances, queued.clean⟩

theorem Waiting.advance {unit : PacketUnit} (waiting : Waiting c s unit)
    (advances : Advances s after) : Waiting c after unit :=
  ⟨waiting.data, waiting.target, waiting.noted.advance advances, waiting.group⟩

end Advance

section Moves

variable {c : SwitchNodeConfig} {toSwitch : Nat → Prop} {s after : SwitchNode}

theorem PsnBooks.init (c : SwitchNodeConfig) (toSwitch : Nat → Prop) :
    PsnBooks c toSwitch (SwitchNode.init c) := by
  refine ⟨fun _ _ => Nat.le_refl _, fun _ _ => Nat.le_refl _, fun _ _ => Nat.le_refl _,
    fun _ _ some => absurd some (Nat.lt_irrefl 0), fun voq unit member => ?_,
    fun _ _ _ member => absurd member (List.not_mem_nil)⟩
  have none := @held_le (fun _ => 1) _ voq unit member
  have empty : (SwitchNode.init c).upstream.heldBy (fun _ => 1) = 0 :=
    Upstream.init_heldBy c.upstream _
  omega

theorem PsnBooks.same (books : PsnBooks c toSwitch s) (queues : after.queues = s.queues)
    (upstream : after.upstream = s.upstream) (downstream : after.downstream = s.downstream) :
    PsnBooks c toSwitch after := by
  have advances := Advances.same upstream downstream
  refine ⟨upstream ▸ books.acks, downstream ▸ books.last, downstream ▸ books.next,
    upstream ▸ books.groups, fun voq unit member => ?_, fun dev q p member => ?_⟩
  · exact (books.units voq unit (upstream ▸ member)).advance advances
  · exact (books.queued dev q p (queues ▸ member)).advance advances

theorem PsnBooks.accounted (books : PsnBooks c toSwitch s) (admission : Admission) :
    PsnBooks c toSwitch { s with admission := admission } := books.same rfl rfl rfl

theorem PsnBooks.emits (books : PsnBooks c toSwitch s) {frames : Nat → List Packet}
    (emits : Emits s after frames)
    (rcvDataPsn : after.downstream.rcvDataPsn = s.downstream.rcvDataPsn)
    (nxtAckPsn : after.downstream.nxtAckPsn = s.downstream.nxtAckPsn)
    (last : after.downstream.Ordered)
    (vouched : ∀ dev, ∀ p ∈ frames dev, Vouched c.settings s dev p) :
    PsnBooks c toSwitch after ∧ Advances s after := by
  have upstream := emits.upstream
  have advances : Advances s after :=
    ⟨fun _ _ => by rw [upstream], fun _ _ => by rw [rcvDataPsn], fun _ _ => by rw [nxtAckPsn]⟩
  refine ⟨⟨upstream ▸ books.acks, last, fun dev dst => ?_, upstream ▸ books.groups,
    fun voq unit member => ?_, fun dev q p member => ?_⟩, advances⟩
  · rw [nxtAckPsn, rcvDataPsn]
    exact books.next dev dst
  · exact (books.units voq unit (upstream ▸ member)).advance advances
  · rcases emits.member member with before | ⟨_, frame⟩
    · exact (books.queued dev q p before).advance advances
    · have control := emits.control dev p frame
      have plain : p.ingressPsn = none := by
        cases shape : p.body <;> simp [Packet.isUdp, Packet.ingressPsn, shape] at control ⊢
      refine ⟨fun psn tagged => ?_, (vouched dev p frame).advance advances, fun _ _ _ => plain⟩
      rw [plain] at tagged
      contradiction

theorem PsnBooks.replied (mode : c.Numbering) (books : PsnBooks c toSwitch s)
    (replies : Replies c s after) :
    PsnBooks c toSwitch after ∧ Advances s after ∧ after.upstream = s.upstream ∧
      after.downstream.rcvDataPsn = s.downstream.rcvDataPsn := by
  obtain ⟨frames, returns⟩ := replies
  have settled := returns.settled mode.psns.all
  obtain ⟨kept, advances⟩ := books.emits returns.emits settled.rcvDataPsn settled.nxtAckPsn
    (settled.ordered books.last) fun dev frame member => by
      obtain ⟨acked, body⟩ := returns.acks dev frame member
      refine ⟨fun dst => ?_, fun dst => settled.psn mode.psns.absolute dev dst frame member,
        fun other tagged => ?_⟩
      · simp [Packet.announced, body]
      · simp only [Packet.ackTag, body, Option.some.injEq] at tagged
        rw [body, tagged]
  exact ⟨kept, advances, returns.emits.upstream, settled.rcvDataPsn⟩

theorem PsnBooks.sent (books : PsnBooks c toSwitch s) {outDev : Nat} (qIndex : Nat) {p : Packet}
    (queued : Queued c toSwitch s outDev p) :
    PsnBooks c toSwitch (s.switchSend c outDev qIndex p) := by
  have advances : Advances s (s.switchSend c outDev qIndex p) := Advances.same rfl rfl
  refine ⟨books.acks, books.last, books.next, books.groups,
    fun voq unit member => (books.units voq unit member).advance advances,
    fun dev q other member => ?_⟩
  rcases switchSend_member member with before | ⟨rfl, rfl, rfl⟩
  · exact (books.queued dev q other before).advance advances
  · exact queued.advance advances

theorem Queued.pfc (s : SwitchNode) (dev : Nat) {p : Packet} {time class_ : Nat}
    (frame : p.body = .pfc time class_) : Queued c toSwitch s dev p := by
  refine ⟨fun psn tagged => ?_, ⟨fun dst => ?_, fun dst => ?_, fun tag tagged => ?_⟩,
    fun _ _ _ => by simp [Packet.ingressPsn, frame]⟩
  · simp [Packet.ingressPsn, frame] at tagged
  · simp [Packet.announced, frame]
  · simp [Packet.acked, frame]
  · simp [Packet.ackTag, frame] at tagged

theorem PsnBooks.admit (books : PsnBooks c toSwitch s) (inDev outDev qIndex : Nat) (p : Packet) :
    PsnBooks c toSwitch (s.admitPacket c inDev outDev qIndex p) := by
  have charged : PsnBooks c toSwitch (s.charge c inDev outDev qIndex p) := books.accounted _
  unfold admitPacket checkAndSendPfc
  split
  · exact books
  · split
    · exact (charged.sent 0 (Queued.pfc _ inDev rfl)).accounted _
    · exact charged

theorem PsnBooks.departed (books : PsnBooks c toSwitch s) (inDev ifIndex qIndex : Nat)
    (p : Packet) : PsnBooks c toSwitch (s.depart c inDev ifIndex qIndex p) := by
  have discharged : PsnBooks c toSwitch (s.discharge c inDev ifIndex qIndex p) :=
    books.accounted _
  unfold depart checkAndSendResume
  split
  · exact books
  · split
    · exact (discharged.sent 0 (Queued.pfc _ inDev rfl)).accounted _
    · exact discharged

theorem PsnBooks.upstream (books : PsnBooks c toSwitch s) {up : Upstream}
    (sent : ∀ dev dst, s.upstream.nxtDataPsn dev dst ≤ up.nxtDataPsn dev dst)
    (acks : up.AcksBelow)
    (groups : ∀ dev dst, s.upstream.nxtDataPsn dev dst < up.nxtDataPsn dev dst →
      ∃ gid, c.upstream.dst2group dst = .group gid)
    (units : ∀ voq, ∀ unit ∈ up.voqPackets voq,
      (∃ voq, unit ∈ s.upstream.voqPackets voq) ∨ Waiting c s unit) :
    PsnBooks c toSwitch { s with upstream := up } ∧ Advances s { s with upstream := up } := by
  have advances : Advances s { s with upstream := up } :=
    ⟨sent, fun _ _ => Nat.le_refl _, fun _ _ => Nat.le_refl _⟩
  refine ⟨⟨acks, books.last, books.next, fun dev dst some => ?_, fun voq unit member => ?_,
    fun dev q p member => (books.queued dev q p member).advance advances⟩, advances⟩
  · by_cases before : 0 < s.upstream.nxtDataPsn dev dst
    · exact books.groups dev dst before
    · apply groups dev dst
      have later : 0 < up.nxtDataPsn dev dst := some
      omega
  · rcases units voq unit member with ⟨place, before⟩ | new
    · exact (books.units place unit before).advance advances
    · exact new.advance advances

theorem PsnBooks.opened (books : PsnBooks c toSwitch s) {up : Upstream}
    (opens : Upstream.Opens c.upstream s.upstream up) :
    PsnBooks c toSwitch { s with upstream := up } ∧ Advances s { s with upstream := up } := by
  apply books.upstream
  · intro dev dst
    rw [opens.nxtDataPsn]
  · intro dev dst
    rw [opens.nxtDataPsn, opens.rcvAckPsn]
    exact books.acks dev dst
  · intro dev dst new
    rw [opens.nxtDataPsn] at new
    exact absurd new (Nat.lt_irrefl _)
  · intro voq unit member
    rw [opens.frame.voqPackets] at member
    exact .inl ⟨voq, member⟩

theorem Numbers.cell {u up : Upstream} {dev dst size : Nat}
    (numbers : Upstream.Numbers c.upstream u dev dst size up) (i j : Nat) :
    up.nxtDataPsn i j = u.nxtDataPsn i j + if i = dev ∧ j = dst then size else 0 := by
  rw [numbers.nxtDataPsn]
  by_cases here : i = dev ∧ j = dst
  · obtain ⟨rfl, rfl⟩ := here
    simp
  · rw [setCell_other _ _ _ _ _ _ here, if_neg here, Nat.add_zero]

theorem PsnBooks.numbered (books : PsnBooks c toSwitch s) {up : Upstream} {dev dst size : Nat}
    (numbers : Upstream.Numbers c.upstream s.upstream dev dst size up)
    (units : ∀ voq, ∀ unit ∈ up.voqPackets voq, ∃ voq, unit ∈ s.upstream.voqPackets voq) :
    PsnBooks c toSwitch { s with upstream := up } ∧ Advances s { s with upstream := up } := by
  have cell := Numbers.cell numbers
  apply books.upstream
  · intro i j
    rw [cell]
    exact Nat.le_add_right _ _
  · intro i j
    have before := books.acks i j
    rw [numbers.rcvAckPsn, cell]
    omega
  · intro i j new
    rw [cell] at new
    by_cases here : i = dev ∧ j = dst
    · rw [here.2]
      exact numbers.group
    · rw [if_neg here] at new
      omega
  · exact fun voq unit member => .inl (units voq unit member)

theorem Queued.numbered {up : Upstream} {dev : Nat} {p : Packet} {dst size : Nat}
    (data : p.isUdp = true) (target : p.dip = dst) (noted : s.Noted p)
    (numbers : Upstream.Numbers c.upstream s.upstream dev dst size up) :
    Queued c toSwitch { s with upstream := up } dev
      (p.setPsn (s.upstream.nxtDataPsn dev dst + size)) := by
  refine ⟨fun psn tagged => ?_, ⟨fun other => ?_, fun other => ?_, fun tag tagged => ?_⟩,
    fun _ _ bare => ?_⟩
  · rw [Packet.setPsn_ingressPsn] at tagged
    rw [Packet.setPsn_flowId, Packet.setPsn_dip]
    exact noted psn tagged
  · rw [Packet.announced_psn (Packet.setPsn_psn data _), Packet.setPsn_dip, target]
    split
    · rename_i same
      rw [same]
      exact Nat.le_of_eq (by simp [numbers.nxtDataPsn])
    · exact Nat.zero_le _
  · rw [Packet.acked_data ((Packet.setPsn_isUdp p _).trans data)]
    exact Nat.zero_le _
  · rw [Packet.ackTag_data ((Packet.setPsn_isUdp p _).trans data)] at tagged
    contradiction
  · rw [Packet.setPsn_psn data] at bare
    contradiction

end Moves

/-- The failures that have nothing to do with the order of PSNs. -/
def OtherFailure (failure : Assertion) : Prop :=
  failure ≠ .inflightOrdered ∧ failure ≠ .ackOrdered

/-- One event that numbers only sizes in `examined`. -/
structure Moves (c : SwitchNodeConfig) (toSwitch : Nat → Prop) (s : SwitchNode)
    (examined : Nat → Nat → Prop) (after : SwitchNode) : Prop where
  books : PsnBooks c toSwitch after
  advances : Advances s after
  turns : Upstream.Turns c.upstream s.upstream examined after.upstream

/-- The window check of `CheckVOQWin` decides on `p`: data for which nothing waits. -/
structure Weighed (c : SwitchNodeConfig) (s : SwitchNode) (p : Packet) (dst size : Nat) : Prop where
  data : p.isUdp = true
  target : dst = p.dip
  size : size = p.size
  group : ∃ gid, c.upstream.dst2group p.dip = .group gid
  free : s.upstream.getBufferDst p.dip = 0

def admits (c : SwitchNodeConfig) (s : SwitchNode) (inDev outDev : Nat) (p : Packet) : Bool :=
  c.qIndexOf p = 0 || (s.admission.checkIngressAdmission c.admission inDev
    (c.pfcFine inDev (c.qIndexOf p) p.dip) p.size &&
    s.admission.checkEgressAdmission outDev (c.qIndexOf p) p.size)

def Examined (c : SwitchNodeConfig) (s : SwitchNode) (inDev : Nat) (outDev : Option Nat)
    (p : Packet) (dst size : Nat) : Prop :=
  Weighed c s p dst size ∧ ∃ dev, outDev = some dev ∧ s.admits c inDev dev p = true

section Arrivals

variable {c : SwitchNodeConfig} {toSwitch : Nat → Prop} {s : SwitchNode}

theorem PsnBooks.spares (books : PsnBooks c toSwitch s) {Value : Type}
    {result : Except Assertion Value} {post : Value → Prop}
    (holds : Holds s.upstream.Spares post result) : Holds OtherFailure post result :=
  holds.weaken fun _ spares => ⟨spares.2 books.acks, spares.1⟩

theorem PsnBooks.passedOn (mode : c.Numbering) (books : PsnBooks c toSwitch s)
    {outDev qIndex : Nat} {p : Packet} (noted : s.Noted p) (plain : ∀ dst, p.announced dst = 0)
    (untagged : p.ackTag = none)
    (clean : toSwitch outDev → ¬ Credited c p → (p.isUdp = true →
      c.upstream.dst2group p.dip = .ignored) → p.ingressPsn = none) :
    Holds OtherFailure
      (fun after => Moves c toSwitch s (Weighed c s p) after ∧ after.downstream = s.downstream)
      (s.passOn c outDev qIndex p) := by
  unfold passOn
  rw [if_pos mode.floodgate]
  apply (books.spares (Upstream.checkVOQWin_checked mode.psns p outDev qIndex)).bind
  rintro ⟨routed, up⟩ _ checked
  simp only at checked
  cases checked with
  | plain free =>
      have queued : Queued c toSwitch s outDev p := by
        refine ⟨noted, ⟨fun dst => ?_, fun dst => ?_, fun tag tagged => ?_⟩,
          fun leads other _ => clean leads other free⟩
        · rw [plain]
          exact Nat.zero_le _
        · rw [Packet.acked_untagged untagged]
          exact Nat.zero_le _
        · rw [untagged] at tagged
          contradiction
      exact ⟨⟨books.sent qIndex queued, Advances.same rfl rfl,
        .still rfl rfl fun _ => .inl rfl⟩, rfl⟩
  | numbered data free frame numbers =>
      obtain ⟨kept, advances⟩ := books.numbered numbers fun voq unit member => by
        rw [frame.voqPackets] at member
        exact ⟨voq, member⟩
      have queued := @Queued.numbered c toSwitch s up outDev p p.dip p.size data rfl noted numbers
      exact ⟨⟨kept.sent qIndex queued, advances.trans (Advances.same rfl rfl),
        .numbers numbers ⟨data, rfl, rfl, numbers.group, free⟩⟩, rfl⟩
  | @buffered opened _ data opens stores group =>
      have tables : up.nxtDataPsn = s.upstream.nxtDataPsn ∧
          up.rcvAckPsn = s.upstream.rcvAckPsn :=
        ⟨stores.nxtDataPsn.trans opens.nxtDataPsn, stores.rcvAckPsn.trans opens.rcvAckPsn⟩
      have kept := books.upstream (fun dev dst => (congrFun₂ tables.1 dev dst).ge)
        (fun dev dst => by
          rw [tables.1, tables.2]
          exact books.acks dev dst)
        (fun dev dst new => by
          rw [tables.1] at new
          exact absurd new (Nat.lt_irrefl _))
        (fun voq unit member => by
          rcases stores.member member with before | rfl
          · rw [opens.frame.voqPackets] at before
            exact .inl ⟨voq, before⟩
          · exact .inr ⟨data, rfl, noted, group⟩)
      refine ⟨⟨kept.1, kept.2, .still tables.1 tables.2 ?_⟩, rfl⟩
      intro dst
      have same : up.win dst = opened.win dst := by simp only [Upstream.win, stores.wins]
      rw [same]
      exact opens.windows dst

/-- `SendToDev` from `GetOutDev` on. -/
theorem PsnBooks.forwarded (mode : c.Numbering) (books : PsnBooks c toSwitch s) {inDev : Nat}
    {outDev : Option Nat} {p : Packet} (noted : s.Noted p) (plain : ∀ dst, p.announced dst = 0)
    (untagged : p.ackTag = none)
    (clean : ∀ dev, outDev = some dev → toSwitch dev → ¬ Credited c p → (p.isUdp = true →
      c.upstream.dst2group p.dip = .ignored) → p.ingressPsn = none) :
    Holds OtherFailure
      (fun after => Moves c toSwitch s (Examined c s inDev outDev p) after ∧
        after.downstream = s.downstream)
      (s.forward c inDev outDev p) := by
  have still : ∀ {after : SwitchNode}, after.queues = s.queues → after.upstream = s.upstream →
      after.downstream = s.downstream →
      Moves c toSwitch s (Examined c s inDev outDev p) after := by
    intro after queues upstream downstream
    exact ⟨books.same queues upstream downstream, Advances.same upstream downstream,
      .still (by rw [upstream]) (by rw [upstream]) fun _ => by rw [upstream]; exact .inl rfl⟩
  unfold forward
  cases outDev with
  | none => exact ⟨still rfl rfl rfl, rfl⟩
  | some outDev =>
      simp only
      split
      · rename_i room
        have admitted := books.admit inDev outDev (c.qIndexOf p) p
        have upstream : (s.admitPacket c inDev outDev (c.qIndexOf p) p).upstream = s.upstream :=
          admit_upstream outDev (c.qIndexOf p)
        have downstream : (s.admitPacket c inDev outDev (c.qIndexOf p) p).downstream =
            s.downstream :=
          (admit_signals c s _ _ _ _).downstream.trans (charged_same c s _ _ _ _).2.2
        have advances := Advances.same upstream downstream
        apply (admitted.passedOn mode (noted.advance advances) plain untagged
          (clean outDev rfl)).mono
        rintro after _ ⟨moves, same⟩
        have turns := moves.turns
        rw [upstream] at turns
        refine ⟨⟨moves.books, advances.trans moves.advances, turns.mono fun dst size weighed => ?_⟩,
          same.trans downstream⟩
        obtain ⟨data, target, bytes, group, free⟩ := weighed
        rw [upstream] at free
        exact ⟨⟨data, target, bytes, group, free⟩, outDev, rfl, room⟩
      · exact ⟨still rfl rfl rfl, rfl⟩

/-- What a switch has received at `inDev` grows to what the frame announces. -/
def Hears (s : SwitchNode) (inDev : Nat) (p : Packet) (after : SwitchNode) : Prop :=
  ∀ dev dst, after.downstream.rcvDataPsn dev dst ≤
    max (s.downstream.rcvDataPsn dev dst) (if dev = inDev then p.announced dst else 0)

/-- What a switch may expect of a frame at the port `inDev`: its upstream has not acknowledged more
than was sent there. Data between two hosts of a ToR stays below it. -/
structure Sound (c : SwitchNodeConfig) (toSwitch : Nat → Prop) (s : SwitchNode) (inDev : Nat)
    (outDev : Option Nat) (p : Packet) : Prop where
  clean : p.Clean
  acked : ∀ dst, p.acked c.settings dst ≤ s.upstream.nxtDataPsn inDev dst
  inside : ∀ dev, outDev = some dev → toSwitch dev → p.isUdp = true → c.isToR = true →
    c.upstream.dst2group p.sip = .ignored → c.upstream.dst2group p.dip ≠ .ignored

theorem Hears.of_same {inDev : Nat} {p : Packet} {after : SwitchNode}
    (same : after.downstream.rcvDataPsn = s.downstream.rcvDataPsn) : Hears s inDev p after := by
  intro dev dst
  rw [same]
  exact Nat.le_max_left _ _

/-- The packet as `SendToDev` goes on with it, and what it has recorded. -/
structure Records (c : SwitchNodeConfig) (s : SwitchNode) (inDev : Nat) (p : Packet)
    (recorded : Packet × SwitchNode) : Prop where
  header : recorded.1.dip = p.dip ∧ recorded.1.sip = p.sip ∧ recorded.1.size = p.size ∧
    recorded.1.isUdp = p.isUdp ∧ recorded.1.ackTag = p.ackTag ∧ recorded.1.synTag = p.synTag ∧
    recorded.1.flowId = some inDev
  bare : recorded.1.psn = none
  ingress : recorded.1.ingressPsn = if p.psn = none then p.ingressPsn else p.psn
  qIndex : c.qIndexOf recorded.1 = c.qIndexOf p
  upstream : recorded.2.upstream = s.upstream
  admission : recorded.2.admission = s.admission
  queues : recorded.2.queues = s.queues
  last : recorded.2.downstream.lstAckPsn = s.downstream.lstAckPsn
  passed : recorded.2.downstream.nxtAckPsn = s.downstream.nxtAckPsn
  received : ∀ dev dst, recorded.2.downstream.rcvDataPsn dev dst =
    max (s.downstream.rcvDataPsn dev dst)
      (if dev = inDev ∧ dst = p.dip then p.psn.getD 0 else 0)

theorem recordPsn_records (mode : c.Numbering) (inDev : Nat) (p : Packet) :
    Records c s inDev p (s.recordPsn c inDev (p.setFlowId (some inDev))) := by
  have row : c.creditRow inDev p.sip = inDev := SwitchNodeConfig.creditRow_all mode.psns.all _ _
  cases tagged : p.psn with
  | none =>
      have bare : (p.setFlowId (some inDev)).psn = none := tagged
      have same : s.recordPsn c inDev (p.setFlowId (some inDev)) =
          (p.setFlowId (some inDev), s) := by
        unfold recordPsn
        rw [bare]
        cases c.settings.switchAbsolutePsn <;> rfl
      rw [same]
      refine ⟨⟨rfl, rfl, rfl, rfl, rfl, rfl, rfl⟩, bare, (if_pos tagged).symm, rfl, rfl, rfl, rfl,
        rfl, rfl, ?_⟩
      simp [tagged]
  | some psn =>
      cases shape : p.body with
      | udp old ingress =>
          have here : old = some psn := by simpa [Packet.psn, shape] using tagged
          subst here
          have same : s.recordPsn c inDev (p.setFlowId (some inDev)) =
              ((p.setFlowId (some inDev)).toIngressPsn, { s with
                downstream := s.downstream.updateRcvDataPsn inDev p.dip psn }) := by
            unfold recordPsn
            have bare : (p.setFlowId (some inDev)).psn = some psn := tagged
            rw [bare, mode.psns.absolute]
            simp only [Packet.setFlowId, row]
          have packet : (p.setFlowId (some inDev)).toIngressPsn =
              { p.setFlowId (some inDev) with body := .udp none (some psn) } := by
            simp [Packet.toIngressPsn, Packet.setFlowId, shape]
          rw [same, packet]
          refine ⟨⟨rfl, rfl, rfl, ?_, ?_, ?_, rfl⟩, rfl, ?_, ?_, rfl, rfl, rfl, rfl, rfl, ?_⟩
          · simp [Packet.isUdp, shape]
          · simp [Packet.ackTag, shape]
          · simp [Packet.synTag, shape]
          · simp [Packet.ingressPsn, tagged]
          · simp only [SwitchNodeConfig.qIndexOf, shape]
            rfl
          · intro dev dst
            simp only [Downstream.updateRcvDataPsn, tagged, Option.getD_some]
            by_cases cell : dev = inDev ∧ dst = p.dip
            · obtain ⟨rfl, rfl⟩ := cell
              simp [Nat.max_comm]
            · rw [setCell_other _ _ _ _ _ _ cell, if_neg cell, Nat.max_zero]
      | _ => simp [Packet.psn, shape] at tagged

/-- Recording a PSN leaves the decision of the window check. -/
theorem Records.examined {inDev : Nat} {outDev : Option Nat} {p : Packet}
    {recorded : Packet × SwitchNode} (records : Records c s inDev p recorded) {dst size : Nat}
    (examined : Examined c recorded.2 inDev outDev recorded.1 dst size) :
    Examined c s inDev outDev p dst size := by
  obtain ⟨⟨data, target, bytes, group, free⟩, dev, out, room⟩ := examined
  obtain ⟨dip, -, width, isUdp, -, -, -⟩ := records.header
  rw [isUdp] at data
  rw [dip] at target group free
  rw [width] at bytes
  rw [records.upstream] at free
  refine ⟨⟨data, target, bytes, group, free⟩, dev, out, ?_⟩
  unfold admits at room ⊢
  rwa [records.qIndex, records.admission, dip, width] at room

theorem PsnBooks.recorded (books : PsnBooks c toSwitch s) {inDev : Nat} {p : Packet}
    {recorded : Packet × SwitchNode} (records : Records c s inDev p recorded)
    (clean : p.psn = none → p.ingressPsn = none) :
    PsnBooks c toSwitch recorded.2 ∧ Advances s recorded.2 ∧ recorded.2.Noted recorded.1 := by
  have upstream := records.upstream
  have advances : Advances s recorded.2 := by
    refine ⟨fun _ _ => by rw [upstream], fun dev dst => ?_, fun _ _ => by rw [records.passed]⟩
    rw [records.received]
    exact Nat.le_max_left _ _
  refine ⟨⟨upstream ▸ books.acks, fun dev dst => ?_, fun dev dst => ?_, upstream ▸ books.groups,
    fun voq unit member => ?_, fun dev q other member => ?_⟩, advances, fun psn tagged => ?_⟩
  · rw [records.last, records.passed]
    exact books.last dev dst
  · rw [records.passed]
    exact (books.next dev dst).trans (advances.received dev dst)
  · rw [upstream] at member
    exact (books.units voq unit member).advance advances
  · rw [records.queues] at member
    exact (books.queued dev q other member).advance advances
  · rw [records.ingress] at tagged
    split at tagged
    · rename_i bare
      rw [clean bare] at tagged
      contradiction
    · obtain ⟨dip, -, -, -, -, -, flowId⟩ := records.header
      rw [flowId, dip, records.received, Option.getD_some, if_pos ⟨rfl, rfl⟩, tagged,
        Option.getD_some]
      exact Nat.le_max_right _ _

/-- `CheckSYN` and the replies to it. -/
theorem PsnBooks.probed (mode : c.Numbering) (books : PsnBooks c toSwitch s) (route : Nat → Nat)
    {inDev : Nat} {tag : SwitchSYNTag} (p : Packet) (frame : p.body = .switchSyn tag)
    {examined : Nat → Nat → Prop} :
    Holds OtherFailure
      (fun after => Moves c toSwitch s examined after ∧ Hears s inDev p after)
      (s.receiveSYN c route tag p.sip p.dip inDev) := by
  have row : c.creditRow inDev p.sip = inDev := SwitchNodeConfig.creditRow_all mode.psns.all _ _
  have jumps := @Downstream.checkSYN_jumps c.settings inDev tag s.downstream
  have replies := receiveSYN_replies c route s tag p.sip p.dip inDev
  rw [row] at replies
  generalize (s.downstream.checkSYN c.settings inDev tag).2 = checked at *
  have advances : Advances s { s with downstream := checked } := by
    refine ⟨fun _ _ => Nat.le_refl _, fun dev dst => ?_, fun dev dst => ?_⟩
    · have cell := jumps.received dev dst
      have low := Nat.le_max_left (s.downstream.rcvDataPsn dev dst) (tag.getDataPSNEntry dst)
      simp only [cell]
      split <;> omega
    · have cell := jumps.passed dev dst
      have below := books.next dev dst
      simp only [cell]
      split <;> omega
  have kept : PsnBooks c toSwitch { s with downstream := checked } := by
    refine ⟨books.acks, fun dev dst => ?_, fun dev dst => ?_, books.groups,
      fun voq unit member => (books.units voq unit member).advance advances,
      fun dev q other member => (books.queued dev q other member).advance advances⟩
    · have before := books.last dev dst
      have later := advances.passed dev dst
      simp only [jumps.last] at before later ⊢
      omega
    · have below := books.next dev dst
      simp only [jumps.passed, jumps.received]
      by_cases cell : dev = inDev ∧ dst < c.settings.hostNum
      · simp only [cell, and_self, true_and, if_true] at below ⊢
        split <;> omega
      · simp only [cell, false_and, if_false]
        exact below
  have hears : Hears s inDev p { s with downstream := checked } := by
    intro dev dst
    have announced : p.announced dst = tag.getDataPSNEntry dst := by
      simp only [Packet.announced, frame]
    simp only [jumps.received, announced]
    by_cases here : dev = inDev
    · simp only [here, true_and, if_true]
      split <;> omega
    · simp only [here, false_and, if_false]
      exact Nat.le_max_left _ _
  refine Holds.mono (replies.weaken fun failure excused => ?_) ?_
  · have spares := excused mode.psns.all
    exact ⟨spares.1, spares.2 kept.last⟩
  · intro after _ replies
    obtain ⟨replied, later, upstream, received⟩ := kept.replied mode replies
    refine ⟨⟨replied, advances.trans later, ?_⟩, fun dev dst => ?_⟩
    · rw [upstream]
      exact .still rfl rfl fun _ => .inl rfl
    · rw [received]
      exact hears dev dst

theorem PsnBooks.restored (mode : c.Numbering) (books : PsnBooks c toSwitch s) {inDev : Nat}
    {tag : SwitchACKTag} {p : Packet} (frame : p.body = .switchAck tag)
    (acked : ∀ dst, p.acked c.settings dst ≤ s.upstream.nxtDataPsn inDev dst)
    {examined : Nat → Nat → Prop} :
    Holds OtherFailure
      (fun up => Moves c toSwitch s examined { s with upstream := up })
      (s.upstream.restoreWin c.upstream tag p.sip inDev) := by
  have sent : ∀ dst, tag.acknowledged c.upstream.settings p.sip dst ≤
      s.upstream.nxtDataPsn inDev dst := fun dst => Packet.acked_tag frame dst ▸ acked dst
  have restores := @Upstream.restoreWin_acknowledges c.upstream s.upstream mode.psns tag p.sip inDev
  refine Holds.mono (restores.weaken fun failure spares => ⟨spares.2 books.acks sent, spares.1⟩) ?_
  intro up _ acks
  have kept := books.upstream (fun dev dst => (congrFun₂ acks.nxtDataPsn dev dst).ge)
    (acks.below books.acks sent)
    (fun dev dst new => by
      rw [acks.nxtDataPsn] at new
      exact absurd new (Nat.lt_irrefl _))
    (fun voq unit member => by
      rw [acks.frame.voqPackets] at member
      exact .inl ⟨voq, member⟩)
  exact ⟨kept.1, kept.2, .acknowledges acks⟩

theorem PsnBooks.received (mode : c.Numbering) (books : PsnBooks c toSwitch s) (route : Nat → Nat)
    {inDev : Nat} {outDev : Option Nat} {p : Packet} (sound : Sound c toSwitch s inDev outDev p) :
    Holds OtherFailure
      (fun after => Moves c toSwitch s (Examined c s inDev outDev p) after ∧ Hears s inDev p after)
      (s.receive c route inDev outDev p) := by
  unfold receive
  split
  · have failures : Holds OtherFailure (fun device => device.queue = (s.device inDev).queue)
        ((s.device inDev).receive (c.device inDev) p) := by
      unfold QbbNetDevice.receive QbbNetDevice.receivePfc QbbNetDevice.resume
      split
      · split
        · rfl
        · split
          · rfl
          · split
            · rfl
            · exact ⟨by simp, by simp⟩
      · rfl
    apply failures.bind
    intro device _ queue
    have queues := (setDevice_queues queue).1
    exact ⟨⟨books.same queues rfl rfl, Advances.same rfl rfl, .still rfl rfl fun _ => .inl rfl⟩,
      Hears.of_same rfl⟩
  · rename_i notPfc
    unfold enter
    simp only [mode.floodgate]
    have sameSyn : (p.setFlowId (some inDev)).synTag = p.synTag := rfl
    have sameSource : (p.setFlowId (some inDev)).sip = p.sip := rfl
    have sameTarget : (p.setFlowId (some inDev)).dip = p.dip := rfl
    rw [sameSyn, sameSource, sameTarget]
    cases probe : p.synTag with
    | some tag =>
        have frame : p.body = .switchSyn tag := by
          cases shape : p.body <;> simp [Packet.synTag, shape] at probe
          rw [probe]
        exact books.probed mode route p frame
    | none =>
        have records := @recordPsn_records c s mode inDev p
        obtain ⟨kept, advances, noted⟩ := books.recorded records sound.clean.ingress
        simp only
        generalize s.recordPsn c inDev (p.setFlowId (some inDev)) = recorded at *
        obtain ⟨dip, sip, size, isUdp, ackTag, synTag, flowId⟩ := records.header
        have hears : Hears s inDev p recorded.2 := by
          intro dev dst
          rw [records.received]
          by_cases here : dev = inDev
          · rw [if_pos here]
            cases tagged : p.psn with
            | none => simp
            | some psn =>
                rw [p.announced_psn tagged dst]
                simp only [here, true_and, Option.getD_some, Nat.le_refl]
          · rw [if_neg here, if_neg fun both => here both.1]
        have upstream := records.upstream
        rw [ackTag]
        cases acking : p.ackTag with
        | some tag =>
            have frame := sound.clean.untagged tag acking
            apply (kept.restored mode frame fun dst => by
              rw [upstream]
              exact sound.acked dst).bind
            intro up _ moves
            exact ⟨⟨moves.books, advances.trans moves.advances, upstream ▸ moves.turns⟩, hears⟩
        | none =>
            have quiet : ∀ dst, recorded.1.announced dst = 0 := by
              intro dst
              cases data : recorded.1.isUdp with
              | true => exact Packet.announced_data data records.bare dst
              | false => exact Packet.announced_control data (synTag.trans probe) dst
            apply (kept.forwarded mode noted quiet (ackTag.trans acking) ?_).mono
            · rintro after _ ⟨moves, same⟩
              refine ⟨⟨moves.books, advances.trans moves.advances, ?_⟩, fun dev dst => ?_⟩
              · have turns := moves.turns
                rw [upstream] at turns
                exact turns.mono fun dst bytes examined => records.examined examined
              · rw [same]
                exact hears dev dst
            · intro dev port leads free ignored
              cases data : recorded.1.isUdp with
              | false =>
                  cases shape : recorded.1.body <;>
                    simp [Packet.isUdp, Packet.ingressPsn, shape] at data ⊢
              | true =>
                  rw [isUdp] at data
                  have below : c.isToR = true ∧ c.upstream.dst2group p.sip = .ignored := by
                    by_contra other
                    exact free ⟨mode.floodgate, isUdp.trans data, sip.symm ▸ other⟩
                  have target := ignored (isUdp.trans data)
                  rw [dip] at target
                  exact absurd target (sound.inside dev port leads data below.1 below.2)

end Arrivals

section Departures

variable {c : SwitchNodeConfig} {toSwitch : Nat → Prop} {s after : SwitchNode}

/-- The sizes that the window check decides on when a VOQ is served. -/
def ExaminedHead (s : SwitchNode) (voq : Nat × Nat) (dst size : Nat) : Prop :=
  ∃ top rest, s.upstream.voqPackets voq = top :: rest ∧ dst = top.dst ∧ size = top.pkt.size

theorem PsnBooks.released (mode : c.Numbering) (books : PsnBooks c toSwitch s)
    (voq : Nat × Nat) :
    Holds OtherFailure
      (fun after => Moves c toSwitch s (s.ExaminedHead voq) after ∧
        after.downstream = s.downstream)
      (s.release c voq) := by
  unfold release
  apply (books.spares (Upstream.checkAndSendOne_attempts mode.psns fun unit member =>
    (books.units voq unit member).group)).bind
  rintro ⟨sent, up⟩ _ attempt
  cases sent with
  | none =>
      obtain ⟨kept, advances⟩ := books.opened attempt
      exact ⟨⟨kept, advances, .still attempt.nxtDataPsn attempt.rcvAckPsn attempt.windows⟩, rfl⟩
  | some unit =>
      obtain ⟨top, yields, numbers, rfl⟩ := attempt
      obtain ⟨kept, advances⟩ := books.numbered numbers fun place other member =>
        ⟨place, yields.member member⟩
      have waiting := books.units voq top yields.top_mem
      have queued := @Queued.numbered c toSwitch s up top.outDev top.pkt top.dst top.pkt.size
        waiting.data waiting.target waiting.noted numbers
      obtain ⟨rest, head, -⟩ := yields.packets
      exact ⟨⟨kept.sent top.qIndex queued, advances.trans (Advances.same rfl rfl),
        .numbers numbers ⟨top, rest, head, rfl, rfl⟩⟩, rfl⟩

/-- The packet `p` leaves at the port `dev`. -/
structure Departs (c : SwitchNodeConfig) (toSwitch : Nat → Prop) (s : SwitchNode) (dev : Nat)
    (p : Packet) : Prop where
  vouched : s.Vouched c.settings dev p
  clean : toSwitch dev → p.Clean

theorem PsnBooks.taken (books : PsnBooks c toSwitch s) {ifIndex qIndex : Nat} {p : Packet}
    {queue : BEgressQueue} (dequeues : (s.device ifIndex).queue.Dequeues p qIndex queue) :
    PsnBooks c toSwitch (s.taken ifIndex queue) ∧ Queued c toSwitch s ifIndex p := by
  have advances : Advances s (s.taken ifIndex queue) := Advances.same rfl rfl
  exact ⟨⟨books.acks, books.last, books.next, books.groups,
    fun voq unit member => (books.units voq unit member).advance advances,
    fun dev q other member =>
      (books.queued dev q other (taken_member dequeues member)).advance advances⟩,
    books.queued ifIndex qIndex p (taken_head dequeues)⟩

/-- What has left with its ingress PSN may be acknowledged. -/
theorem PsnBooks.passed (books : PsnBooks c toSwitch s) {row dst psn : Nat}
    (received : psn ≤ s.downstream.rcvDataPsn row dst) :
    PsnBooks c toSwitch { s with downstream := s.downstream.updateNxtAckPsn row dst psn } ∧
      Advances s { s with downstream := s.downstream.updateNxtAckPsn row dst psn } := by
  have cell : ∀ i j, (s.downstream.updateNxtAckPsn row dst psn).nxtAckPsn i j =
      max (if i = row ∧ j = dst then psn else 0) (s.downstream.nxtAckPsn i j) := by
    intro i j
    simp only [Downstream.updateNxtAckPsn]
    by_cases here : i = row ∧ j = dst
    · obtain ⟨rfl, rfl⟩ := here
      simp
    · rw [setCell_other _ _ _ _ _ _ here, if_neg here, Nat.zero_max]
  have advances : Advances s { s with
      downstream := s.downstream.updateNxtAckPsn row dst psn } := by
    refine ⟨fun _ _ => Nat.le_refl _, fun _ _ => Nat.le_refl _, fun i j => ?_⟩
    simp only [cell]
    exact Nat.le_max_right _ _
  refine ⟨⟨books.acks, updateNxtAckPsn_ordered books.last row dst psn, fun i j => ?_, books.groups,
    fun voq unit member => (books.units voq unit member).advance advances,
    fun dev q p member => (books.queued dev q p member).advance advances⟩, advances⟩
  have before := books.next i j
  simp only [cell]
  by_cases here : i = row ∧ j = dst
  · obtain ⟨rfl, rfl⟩ := here
    rw [if_pos ⟨rfl, rfl⟩]
    exact Nat.max_le.mpr ⟨received, before⟩
  · rw [if_neg here, Nat.zero_max]
    exact before

theorem PsnBooks.notified (mode : c.Numbering) (books : PsnBooks c toSwitch s)
    {ifIndex qIndex : Nat} {p p' : Packet} (queued : Queued c toSwitch s ifIndex p)
    (notified : Notified c s ifIndex qIndex p p' after) :
    PsnBooks c toSwitch after ∧ Advances s after ∧ after.upstream = s.upstream ∧
      after.downstream.rcvDataPsn = s.downstream.rcvDataPsn ∧
      Departs c toSwitch after ifIndex p' := by
  have departed := books.departed (p.flowId.getD 0) ifIndex qIndex p
  have upstream : (s.depart c (p.flowId.getD 0) ifIndex qIndex p).upstream = s.upstream :=
    depart_upstream _
  have downstream : (s.depart c (p.flowId.getD 0) ifIndex qIndex p).downstream = s.downstream :=
    (depart_signals c s _ ifIndex qIndex p).downstream.trans
      (discharged_same c s _ ifIndex qIndex p).2.2
  have advances := Advances.same upstream downstream
  cases notified with
  | plain free =>
      have vouched := queued.vouched.advance advances
      refine ⟨departed, advances, upstream, by rw [downstream],
        ⟨vouched.announced, vouched.acked, vouched.untagged⟩, fun leads => ⟨fun bare => ?_,
          vouched.untagged⟩⟩
      exact queued.clean leads free bare
  | credit _ off =>
      rw [mode.psns.absolute] at off
      contradiction
  | @psn psn _ credited _ tag replies =>
      rw [SwitchNodeConfig.creditRow_all mode.psns.all, ← downstream] at replies
      have received := (queued.noted.advance advances) psn tag
      obtain ⟨passed, raised⟩ := departed.passed received
      obtain ⟨replied, later, sameUp, sameRcv⟩ := passed.replied mode replies
      have all := advances.trans (raised.trans later)
      have vouched := queued.vouched.advance all
      have travels : ∀ dst, ((p.setFlowId none).removeIngressPsn).announced dst =
          p.announced dst := by
        intro dst
        cases shape : p.body with
        | udp old ingress =>
            cases old <;>
              simp [Packet.removeIngressPsn, Packet.announced, Packet.setFlowId, shape]
        | _ => simp [Packet.removeIngressPsn, Packet.announced, Packet.setFlowId, shape]
      have udp := credited.2.1
      have data : ((p.setFlowId none).removeIngressPsn).isUdp = true := by
        cases shape : p.body <;>
          simp [Packet.removeIngressPsn, Packet.isUdp, Packet.setFlowId, shape] at udp ⊢
      have untagged : ∀ other, ((p.setFlowId none).removeIngressPsn).ackTag = some other →
          ((p.setFlowId none).removeIngressPsn).body = .switchAck other := by
        intro other tagged
        rw [Packet.ackTag_data data] at tagged
        contradiction
      refine ⟨replied, all, sameUp.trans upstream, sameRcv.trans (by rw [downstream]; rfl),
        ⟨fun dst => ?_, fun dst => ?_, untagged⟩, fun _ => ⟨fun _ => ?_, untagged⟩⟩
      · rw [travels]
        exact vouched.announced dst
      · rw [Packet.acked_data data]
        exact Nat.zero_le _
      · cases shape : p.body <;>
          simp [Packet.ingressPsn, Packet.removeIngressPsn, Packet.setFlowId, shape] at tag ⊢

theorem PsnBooks.transmitted (mode : c.Numbering) (books : PsnBooks c toSwitch s)
    (route : Nat → Nat) (ifIndex : Nat) :
    Holds OtherFailure
      (fun sent => Moves c toSwitch s (fun _ _ => False) sent.2 ∧
        sent.2.downstream.rcvDataPsn = s.downstream.rcvDataPsn ∧
        ∀ p, sent.1 = some p → Departs c toSwitch sent.2 ifIndex p)
      (s.transmit c route ifIndex) := by
  refine Holds.mono ((transmit_transmits c route s ifIndex).weaken fun failure excused => ?_) ?_
  · have spares := excused mode.psns.all
    exact ⟨spares.1, spares.2 books.last⟩
  rintro ⟨out, after⟩ _ transmits
  cases transmits with
  | idle =>
      exact ⟨⟨books, Advances.refl _, .still rfl rfl fun _ => .inl rfl⟩, rfl, by simp⟩
  | @sent p p' qIndex queue _ served notified =>
      obtain ⟨taken, queued⟩ := books.taken (BEgressQueue.dequeueRR_dequeues served)
      have same : Advances s (s.taken ifIndex queue) := Advances.same rfl rfl
      obtain ⟨kept, advances, upstream, received, departs⟩ :=
        taken.notified mode (queued.advance same) notified
      refine ⟨⟨kept, same.trans advances, ?_⟩, received, fun other here => ?_⟩
      · have sameUp : after.upstream = s.upstream := upstream
        rw [sameUp]
        exact .still rfl rfl fun _ => .inl rfl
      · obtain rfl := Option.some.inj here
        exact departs

theorem getSwitchSYNTag_entry (c : SwitchNodeConfig) (s : SwitchNode) (dev : Nat)
    (recent : Nat → Bool) (dst : Nat) :
    (s.getSwitchSYNTag c dev recent).getACKPSNEntry dst =
      (if dst < c.settings.hostNum ∧
          s.upstream.rcvAckPsn dev dst < s.upstream.nxtDataPsn dev dst ∧ recent dst = true then
        s.upstream.rcvAckPsn dev dst else 0) ∧
    (s.getSwitchSYNTag c dev recent).getDataPSNEntry dst =
      if dst < c.settings.hostNum ∧
          s.upstream.rcvAckPsn dev dst < s.upstream.nxtDataPsn dev dst ∧ recent dst = true then
        s.upstream.nxtDataPsn dev dst
      else 0 := by
  have entries := SwitchSYNTag.foldl_entry (List.range c.settings.hostNum)
    (fun i => s.upstream.rcvAckPsn dev i < s.upstream.nxtDataPsn dev i ∧ recent i = true)
    (s.upstream.rcvAckPsn dev) (s.upstream.nxtDataPsn dev) SwitchSYNTag.empty dst
  simp only [List.mem_range] at entries
  exact entries

theorem PsnBooks.probes (mode : c.Numbering) (books : PsnBooks c toSwitch s) {dev : Nat}
    {recent : Nat → Bool} (probes : Probes c s dev recent after) :
    Moves c toSwitch s (fun _ _ => False) after ∧ after.downstream = s.downstream := by
  cases probes with
  | idle => exact ⟨⟨books, Advances.refl _, .still rfl rfl fun _ => .inl rfl⟩, rfl⟩
  | @sent port p body direct =>
      obtain rfl := direct mode.psns.all
      have queued : Queued c toSwitch s port p := by
        refine ⟨fun psn tagged => ?_, ⟨fun dst => ?_, fun dst => ?_, fun tag tagged => ?_⟩,
          fun _ _ _ => by simp [Packet.ingressPsn, body]⟩
        · simp [Packet.ingressPsn, body] at tagged
        · simp only [Packet.announced, body, (getSwitchSYNTag_entry c s port recent dst).2]
          split
          · exact Nat.le_refl _
          · exact Nat.zero_le _
        · simp [Packet.acked, body]
        · simp [Packet.ackTag, body] at tagged
      exact ⟨⟨books.sent 0 queued, Advances.same rfl rfl, .still rfl rfl fun _ => .inl rfl⟩, rfl⟩

theorem PsnBooks.fired (mode : c.Numbering) (books : PsnBooks c toSwitch s) (route : Nat → Nat)
    (dev dst : Nat) :
    Holds OtherFailure
      (fun after => Moves c toSwitch s (fun _ _ => False) after ∧
        after.downstream.rcvDataPsn = s.downstream.rcvDataPsn)
      (s.creditTimeout c route dev dst) := by
  refine Holds.mono ((creditTimeout_replies c route s dev dst).weaken fun failure excused => ?_) ?_
  · have spares := excused mode.psns.all
    exact ⟨spares.1, spares.2 books.last⟩
  · intro after _ replies
    obtain ⟨kept, advances, upstream, received⟩ := books.replied mode replies
    refine ⟨⟨kept, advances, ?_⟩, received⟩
    rw [upstream]
    exact .still rfl rfl fun _ => .inl rfl

end Departures

end SwitchNode

end Floodgate
