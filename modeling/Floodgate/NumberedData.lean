import Floodgate.CreditFlow
import Floodgate.PsnBooks

/-! Data under a number in one switch: what is in the queues of a port with the number that it
carries, what is in the switch with the number that it came with, and what each event changes. -/

namespace Floodgate

open Std Outcome

namespace Packet

def countAs (dst : Nat) (count : Nat → Nat → Nat) (p : Packet) : Option Nat → Nat
  | none => 0
  | some number => if p.dip = dst then count number p.size else 0

def numbered (dst : Nat) (count : Nat → Nat → Nat) (p : Packet) : Nat := p.countAs dst count p.psn

def recorded (dst : Nat) (count : Nat → Nat → Nat) (p : Packet) : Nat :=
  p.countAs dst count p.ingressPsn

section Counts

variable {dst : Nat} {count : Nat → Nat → Nat} {p : Packet}

theorem numbered_none (bare : p.psn = none) : p.numbered dst count = 0 := by
  simp [numbered, countAs, bare]

theorem numbered_control (control : p.isUdp = false) : p.numbered dst count = 0 := by
  cases shape : p.body <;> simp [isUdp, numbered, countAs, psn, shape] at control ⊢

theorem recorded_control (control : p.isUdp = false) : p.recorded dst count = 0 := by
  cases shape : p.body <;> simp [isUdp, recorded, countAs, ingressPsn, shape] at control ⊢

theorem numbered_setPsn (data : p.isUdp = true) (number : Nat) :
    (p.setPsn number).numbered dst count = if p.dip = dst then count number p.size else 0 := by
  simp [numbered, countAs, setPsn_psn data]

theorem recorded_setPsn (number : Nat) :
    (p.setPsn number).recorded dst count = p.recorded dst count := by
  unfold recorded
  rw [setPsn_ingressPsn]
  cases p.ingressPsn <;> simp [countAs]

theorem numbered_travelling :
    ((p.setFlowId none).removeIngressPsn).numbered dst count = p.numbered dst count := by
  cases shape : p.body <;>
    simp [numbered, countAs, removeIngressPsn, setFlowId, psn, shape]

end Counts

end Packet

namespace SwitchNode

def onPort (s : SwitchNode) (dev : Nat) (weight : Packet → Nat) : Nat :=
  ∑ qIndex ∈ Finset.range qCnt, ((s.queues dev qIndex).map weight).sum

/-- The data for `dst` in the queues of the port `dev`, with the numbers given here. -/
def sentOn (s : SwitchNode) (dev dst : Nat) (count : Nat → Nat → Nat) : Nat :=
  s.onPort dev (Packet.numbered dst count)

def cameFrom (dev dst : Nat) (count : Nat → Nat → Nat) (unit : PacketUnit) : Nat :=
  if unit.pkt.flowId.getD 0 = dev then unit.pkt.recorded dst count else 0

/-- The data for `dst` in the switch that came in at the port `dev`, with the numbers given by the
switch before. -/
def keptFrom (c : SwitchNodeConfig) (s : SwitchNode) (dev dst : Nat) (count : Nat → Nat → Nat) :
    Nat :=
  s.residentBy c (cameFrom dev dst count)

section Ports

variable {c : SwitchNodeConfig} {s after : SwitchNode} {dev : Nat} {weight : Packet → Nat}

theorem onPort_congr (queues : after.queues = s.queues) :
    after.onPort dev weight = s.onPort dev weight := by
  simp only [onPort, queues]

theorem onPort_change {qIndex : Nat} (below : qIndex < qCnt)
    (others : ∀ q, q ≠ qIndex → after.queues dev q = s.queues dev q) :
    after.onPort dev weight + ((s.queues dev qIndex).map weight).sum =
      s.onPort dev weight + ((after.queues dev qIndex).map weight).sum := by
  have inside := Finset.mem_range.mpr below
  exact MapSum.sum_change (fun q => ((after.queues dev q).map weight).sum)
    (fun q => ((s.queues dev q).map weight).sum) inside fun q _ other => by rw [others q other]

theorem onPort_sent (c : SwitchNodeConfig) (s : SwitchNode) (outDev qIndex : Nat) (p : Packet)
    (dev : Nat) (weight : Packet → Nat) :
    (s.switchSend c outDev qIndex p).onPort dev weight ≤
      s.onPort dev weight + if dev = outDev then weight p else 0 := by
  rcases switchSend_cases c s outDev qIndex p with ⟨-, queues⟩ | ⟨-, queues⟩
  · by_cases here : dev = outDev
    · subst here
      rw [if_pos rfl]
      by_cases below : qIndex < qCnt
      · have change := @onPort_change s (s.switchSend c dev qIndex p) dev weight qIndex below
          fun q other => by
            rw [queues, setCell_other _ _ _ _ _ _ fun same => other same.2]
        have joined : ((s.switchSend c dev qIndex p).queues dev qIndex).map weight =
            (s.queues dev qIndex).map weight ++ [weight p] := by
          rw [queues, setCell_same, List.map_append, List.map_singleton]
        rw [joined, List.sum_append, List.sum_singleton] at change
        omega
      · have same : (s.switchSend c dev qIndex p).onPort dev weight = s.onPort dev weight := by
          apply Finset.sum_congr rfl
          intro q inside
          have other : q ≠ qIndex := fun same => below (same ▸ Finset.mem_range.mp inside)
          rw [queues, setCell_other _ _ _ _ _ _ fun same => other same.2]
        omega
    · have same : (s.switchSend c outDev qIndex p).onPort dev weight = s.onPort dev weight := by
        apply Finset.sum_congr rfl
        intro q _
        rw [queues, setCell_other _ _ _ _ _ _ fun same => here same.1]
      omega
  · rw [onPort_congr queues]
    exact Nat.le_add_right _ _

theorem Emits.onPort {frames : Nat → List Packet} (emits : Emits s after frames)
    (none : ∀ p : Packet, p.isUdp = false → weight p = 0) :
    after.onPort dev weight = s.onPort dev weight := by
  apply Finset.sum_congr rfl
  intro q _
  obtain ⟨taken, part, -, queues⟩ := emits.queues dev
  rw [queues]
  split
  · rename_i zero
    rw [zero, List.map_append, List.sum_append]
    have nothing : (taken.map weight).sum = 0 := by
      apply List.sum_eq_zero
      intro value member
      obtain ⟨frame, inside, rfl⟩ := List.mem_map.mp member
      exact none frame (emits.control dev frame (part.mem inside))
    rw [nothing, Nat.add_zero]
  · rfl

theorem onPort_taken {ifIndex qIndex : Nat} {queue : BEgressQueue} {p : Packet}
    (dequeues : (s.device ifIndex).queue.Dequeues p qIndex queue) :
    (s.taken ifIndex queue).onPort dev weight + (if dev = ifIndex then weight p else 0) =
      s.onPort dev weight := by
  obtain ⟨head, others⟩ := taken_queues dequeues
  by_cases here : dev = ifIndex
  · subst here
    have change := @onPort_change s (s.taken dev queue) dev weight qIndex dequeues.below
      fun q other => others dev q fun same => other same.2
    rw [head, List.map_cons, List.sum_cons] at change
    rw [if_pos rfl]
    omega
  · rw [if_neg here, Nat.add_zero]
    apply Finset.sum_congr rfl
    intro q _
    rw [others dev q fun same => here same.1]

end Ports

section Residents

variable {c : SwitchNodeConfig} {s after : SwitchNode} {dev dst : Nat} {count : Nat → Nat → Nat}

theorem cameFrom_traffic (dev dst : Nat) (count : Nat → Nat → Nat) :
    TrafficWeight (cameFrom dev dst count) := by
  refine ⟨fun unit psn => ?_, fun _ _ => rfl, fun unit _ other => ?_⟩
  · simp [cameFrom, Packet.recorded_setPsn]
  · simp [cameFrom, Packet.recorded_control other]

theorem queuedBy_sent (c : SwitchNodeConfig) (s : SwitchNode) (outDev qIndex : Nat) (p : Packet)
    (weight : PacketUnit → Nat) :
    (s.switchSend c outDev qIndex p).queuedBy c weight ≤
      s.queuedBy c weight + weight (p.toUnit outDev qIndex) := by
  rcases switchSend_cases c s outDev qIndex p with ⟨-, queues⟩ | ⟨-, queues⟩
  · by_cases range : outDev < c.nDevices ∧ qIndex < qCnt
    · exact Nat.le_of_eq (queuedBy_join (.inl range) queues)
    · have same : (s.switchSend c outDev qIndex p).queuedBy c weight = s.queuedBy c weight := by
        apply Finset.sum_congr rfl
        rintro ⟨i, j⟩ member
        have other : ¬ (i = outDev ∧ j = qIndex) := by
          rintro ⟨rfl, rfl⟩
          exact range (by simpa using member)
        simp only [cellBy, queues, setCell_other _ _ _ _ _ _ other]
      omega
  · have same : (s.switchSend c outDev qIndex p).queuedBy c weight = s.queuedBy c weight := by
      simp only [queuedBy, cellBy, queues]
    omega

end Residents

/-- What `count` says of the number for `size` more bytes after `sent`; no bytes have no number. -/
def fresh (count : Nat → Nat → Nat) (sent size : Nat) : Nat :=
  if size = 0 then 0 else count (sent + size) size

/-- Data moves in a switch. A number may be given to what joins the queues of a port; what arrives
is in `arrived`, and Switch-ACKs go up to `acked`. -/
structure Shifts (c : SwitchNodeConfig) (s : SwitchNode)
    (arrived : Nat → Nat → (Nat → Nat → Nat) → Nat) (acked : Nat → Nat → Nat)
    (after : SwitchNode) : Prop where
  sent : ∀ dev dst, ∃ size,
    after.upstream.nxtDataPsn dev dst = s.upstream.nxtDataPsn dev dst + size ∧
    ∀ count, after.sentOn dev dst count ≤
      s.sentOn dev dst count + fresh count (s.upstream.nxtDataPsn dev dst) size
  kept : ∀ dev dst count,
    after.keptFrom c dev dst count ≤ s.keptFrom c dev dst count + arrived dev dst count
  acks : ∀ dev dst, after.upstream.rcvAckPsn dev dst ≤
    max (s.upstream.rcvAckPsn dev dst) (acked dev dst)

structure Rests (s after : SwitchNode) : Prop where
  sent : ∀ dev dst count, after.sentOn dev dst count = s.sentOn dev dst count
  queued : ∀ c dev dst count, after.queuedBy c (cameFrom dev dst count) =
    s.queuedBy c (cameFrom dev dst count)
  held : ∀ weight, after.upstream.heldBy weight = s.upstream.heldBy weight
  nxtDataPsn : after.upstream.nxtDataPsn = s.upstream.nxtDataPsn

section Moves

variable {c : SwitchNodeConfig} {toSwitch : Nat → Prop} {s middle after : SwitchNode}
  {arrived : Nat → Nat → (Nat → Nat → Nat) → Nat} {acked : Nat → Nat → Nat}

theorem Rests.kept (rests : Rests s after) (dev dst : Nat) (count : Nat → Nat → Nat) :
    after.keptFrom c dev dst count = s.keptFrom c dev dst count := by
  unfold keptFrom residentBy
  rw [rests.held, rests.queued]

theorem Rests.trans (left : Rests s middle) (right : Rests middle after) : Rests s after :=
  ⟨fun dev dst count => (right.sent dev dst count).trans (left.sent dev dst count),
    fun c dev dst count => (right.queued c dev dst count).trans (left.queued c dev dst count),
    fun weight => (right.held weight).trans (left.held weight),
    right.nxtDataPsn.trans left.nxtDataPsn⟩

theorem Rests.same (device : after.device = s.device) (upstream : after.upstream = s.upstream) :
    Rests s after := by
  have queues : after.queues = s.queues := by
    funext dev q
    simp only [SwitchNode.queues, device]
  refine ⟨fun dev dst count => onPort_congr queues, fun c dev dst count => ?_,
    fun _ => by rw [upstream], by rw [upstream]⟩
  simp only [queuedBy, cellBy, queues]

theorem Rests.emits {frames : Nat → List Packet} (emits : Emits s after frames) :
    Rests s after := by
  refine ⟨fun dev dst count => emits.onPort fun p => Packet.numbered_control,
    fun c dev dst count => ?_, fun _ => by rw [emits.upstream], by rw [emits.upstream]⟩
  have total := emits.residentBy (c := c) (cameFrom_traffic dev dst count)
  unfold residentBy at total
  rw [emits.upstream] at total
  omega

theorem Rests.replies (replies : Replies c s after) : Rests s after := by
  obtain ⟨frames, returns⟩ := replies
  exact Rests.emits returns.emits

theorem Rests.frame {up : Upstream} (frame : Upstream.Frame s.upstream up)
    (nxtDataPsn : up.nxtDataPsn = s.upstream.nxtDataPsn) : Rests s { s with upstream := up } :=
  ⟨fun _ _ _ => rfl, fun _ _ _ _ => rfl, fun weight => frame.heldBy weight, nxtDataPsn⟩

theorem Rests.shifts (rests : Rests s after)
    (acks : ∀ dev dst, after.upstream.rcvAckPsn dev dst ≤
      max (s.upstream.rcvAckPsn dev dst) (acked dev dst)) : Shifts c s arrived acked after := by
  refine ⟨fun dev dst => ⟨0, by rw [rests.nxtDataPsn, Nat.add_zero], fun count => ?_⟩,
    fun dev dst count => ?_, acks⟩
  · rw [rests.sent]
    exact Nat.le_add_right _ _
  · rw [rests.kept]
    exact Nat.le_add_right _ _

theorem Shifts.preceded (shifts : Shifts c middle arrived acked after) (rests : Rests s middle)
    (acks : middle.upstream.rcvAckPsn = s.upstream.rcvAckPsn) :
    Shifts c s arrived acked after := by
  refine ⟨fun dev dst => ?_, fun dev dst count => ?_, fun dev dst => ?_⟩
  · obtain ⟨size, numbers, sent⟩ := shifts.sent dev dst
    rw [rests.nxtDataPsn] at numbers
    refine ⟨size, numbers, fun count => ?_⟩
    rw [← rests.sent, ← rests.nxtDataPsn]
    exact sent count
  · rw [← rests.kept]
    exact shifts.kept dev dst count
  · rw [← acks]
    exact shifts.acks dev dst

theorem fresh_zero (count : Nat → Nat → Nat) (sent : Nat) : fresh count sent 0 = 0 := rfl

theorem fresh_packet (count : Nat → Nat → Nat) (sent : Nat) (p : Packet) :
    fresh count sent p.size = count (sent + p.size) p.size :=
  if_neg (Nat.pos_iff_ne_zero.mp p.size_pos)

theorem Shifts.numbered {up : Upstream} {outDev qIndex dst : Nat} {p : Packet}
    (data : p.isUdp = true) (target : p.dip = dst)
    (numbers : Upstream.Numbers c.upstream s.upstream outDev dst p.size up)
    (held : ∀ dev dst count, up.heldBy (cameFrom dev dst count) +
      cameFrom dev dst count (p.toUnit outDev qIndex) ≤
        s.upstream.heldBy (cameFrom dev dst count) + arrived dev dst count) :
    Shifts c s arrived acked ({ s with upstream := up }.switchSend c outDev qIndex
      (p.setPsn (s.upstream.nxtDataPsn outDev dst + p.size))) := by
  have cell := Numbers.cell numbers
  refine ⟨fun i j => ?_, fun i j count => ?_, fun i j => ?_⟩
  · refine ⟨if i = outDev ∧ j = dst then p.size else 0, cell i j, fun count => ?_⟩
    have sent := onPort_sent c { s with upstream := up } outDev qIndex
      (p.setPsn (s.upstream.nxtDataPsn outDev dst + p.size)) i (Packet.numbered j count)
    rw [Packet.numbered_setPsn data, target] at sent
    refine sent.trans (Nat.add_le_add_left ?_ _)
    by_cases here : i = outDev ∧ j = dst
    · obtain ⟨rfl, rfl⟩ := here
      rw [if_pos rfl, if_pos rfl, if_pos ⟨rfl, rfl⟩, fresh_packet]
    · rw [if_neg here, fresh_zero]
      by_cases port : i = outDev
      · rw [if_pos port, if_neg fun same => here ⟨port, same.symm⟩]
      · rw [if_neg port]
  · have sent := queuedBy_sent c { s with upstream := up } outDev qIndex
      (p.setPsn (s.upstream.nxtDataPsn outDev dst + p.size)) (cameFrom i j count)
    have weight : cameFrom i j count ((p.setPsn (s.upstream.nxtDataPsn outDev dst +
        p.size)).toUnit outDev qIndex) = cameFrom i j count (p.toUnit outDev qIndex) :=
      (cameFrom_traffic i j count).psn (p.toUnit outDev qIndex) _
    have before : ({ s with upstream := up } : SwitchNode).queuedBy c (cameFrom i j count) =
        s.queuedBy c (cameFrom i j count) := rfl
    have voqs := held i j count
    have upstream : ({ s with upstream := up }.switchSend c outDev qIndex
        (p.setPsn (s.upstream.nxtDataPsn outDev dst + p.size))).upstream = up := rfl
    unfold keptFrom residentBy
    rw [upstream]
    omega
  · have same : ({ s with upstream := up }.switchSend c outDev qIndex
        (p.setPsn (s.upstream.nxtDataPsn outDev dst + p.size))).upstream.rcvAckPsn =
        s.upstream.rcvAckPsn := numbers.rcvAckPsn
    rw [same]
    exact Nat.le_max_left _ _

theorem passOn_shifts (mode : c.Numbering) (acked : Nat → Nat → Nat) {outDev qIndex : Nat}
    {p : Packet} (bare : p.psn = none) (success : s.passOn c outDev qIndex p = .ok after) :
    Shifts c s (fun dev dst count => cameFrom dev dst count (p.toUnit outDev qIndex)) acked after ∧
      after.downstream = s.downstream := by
  unfold passOn at success
  rw [if_pos mode.floodgate] at success
  obtain ⟨⟨routed, up⟩, checking, success⟩ := bind_ok.mp success
  have checked := (Upstream.checkVOQWin_checked mode.psns p outDev qIndex).of_ok checking
  simp only at checked success
  cases checked with
  | plain free =>
      obtain rfl := Except.ok.inj success
      refine ⟨⟨fun i j => ⟨0, rfl, fun count => ?_⟩, fun i j count => ?_,
        fun _ _ => Nat.le_max_left _ _⟩, rfl⟩
      · have sent := onPort_sent c s outDev qIndex p i (Packet.numbered j count)
        rw [Packet.numbered_none bare, ite_self] at sent
        exact sent
      · have sent := queuedBy_sent c s outDev qIndex p (cameFrom i j count)
        have total := Nat.add_le_add_left sent (s.upstream.heldBy (cameFrom i j count))
        rwa [← Nat.add_assoc] at total
  | numbered data free frame numbers =>
      obtain rfl := Except.ok.inj success
      refine ⟨Shifts.numbered data rfl numbers fun i j count => ?_, rfl⟩
      rw [frame.heldBy]
  | @buffered opened _ data opens stores group =>
      obtain rfl := Except.ok.inj success
      have numbers : up.nxtDataPsn = s.upstream.nxtDataPsn :=
        stores.nxtDataPsn.trans opens.nxtDataPsn
      refine ⟨⟨fun i j => ⟨0, congrFun₂ numbers i j, fun count => Nat.le_add_right _ _⟩,
        fun i j count => ?_, fun i j => ?_⟩, rfl⟩
      · have stored := stores.heldBy (cameFrom i j count)
        rw [opens.frame.heldBy] at stored
        have before : ({ s with upstream := up } : SwitchNode).queuedBy c (cameFrom i j count) =
            s.queuedBy c (cameFrom i j count) := rfl
        have upstream : ({ s with upstream := up } : SwitchNode).upstream = up := rfl
        unfold keptFrom residentBy
        rw [before, upstream, stored]
        have unit : cameFrom i j count ⟨p, p.dip, outDev, qIndex⟩ =
            cameFrom i j count (p.toUnit outDev qIndex) := rfl
        omega
      · have same : up.rcvAckPsn = s.upstream.rcvAckPsn :=
          stores.rcvAckPsn.trans opens.rcvAckPsn
        exact (congrFun₂ same i j).le.trans (Nat.le_max_left _ _)

/-- `SendToDev` from `GetOutDev` on, for a packet without a number. -/
theorem forward_shifts (mode : c.Numbering) (acked : Nat → Nat → Nat) {inDev : Nat}
    {outDev : Option Nat} {p : Packet} (bare : p.psn = none)
    (success : s.forward c inDev outDev p = .ok after) :
    Shifts c s (fun dev dst count => cameFrom dev dst count ⟨p, p.dip, 0, 0⟩) acked after ∧
      after.downstream = s.downstream := by
  unfold forward at success
  cases outDev with
  | none =>
      obtain rfl := Except.ok.inj success
      exact ⟨(Rests.same rfl rfl).shifts fun _ _ => Nat.le_max_left _ _, rfl⟩
  | some outDev =>
      simp only at success
      split at success
      · obtain ⟨device, upstream, downstream⟩ := charged_same c s inDev outDev (c.qIndexOf p) p
        have signals := admit_signals c s inDev outDev (c.qIndexOf p) p
        obtain ⟨frames, emits⟩ := signals.emits
        have rests := (Rests.same device upstream).trans (Rests.emits emits)
        have same := emits.upstream.trans upstream
        obtain ⟨shifts, kept⟩ := passOn_shifts mode acked bare success
        exact ⟨shifts.preceded rests (by rw [same]),
          kept.trans (signals.downstream.trans downstream)⟩
      · obtain rfl := Except.ok.inj success
        have rests : Rests s { s with dropPackets := s.dropPackets + 1 } := Rests.same rfl rfl
        exact ⟨rests.shifts fun _ _ => Nat.le_max_left _ _, rfl⟩

/-- The state of the acknowledgements once a SYN has been checked. -/
def heardSyn (c : SwitchNodeConfig) (s : SwitchNode) (inDev : Nat) (p : Packet) : Downstream :=
  match p.synTag with
  | none => s.downstream
  | some tag => (s.downstream.checkSYN c.settings (c.creditRow inDev p.sip) tag).2

/-- Only SYNs and departures change what may be acknowledged. -/
theorem received_shifts (mode : c.Numbering) {route : Nat → Nat} {inDev : Nat}
    {outDev : Option Nat} {p : Packet} (clean : p.Clean)
    (success : s.receive c route inDev outDev p = .ok after) :
    Shifts c s (fun dev dst count => if dev = inDev then p.numbered dst count else 0)
        (fun dev dst => if dev = inDev then p.acked c.settings dst else 0) after ∧
      after.downstream.nxtAckPsn = (s.heardSyn c inDev p).nxtAckPsn := by
  unfold receive at success
  split at success
  · rename_i pfc
    obtain ⟨device, received, success⟩ := bind_ok.mp success
    obtain rfl := Except.ok.inj success
    have queues := (@setDevice_queues s inDev device (receive_queue received)).1
    have rests : Rests s (s.setDevice inDev device) := by
      refine ⟨fun dev dst count => onPort_congr queues, fun c dev dst count => ?_,
        fun _ => rfl, rfl⟩
      simp only [queuedBy, cellBy, queues]
    have plain : p.synTag = none := by
      cases shape : p.body <;> simp [Packet.isPfc, Packet.synTag, shape] at pfc ⊢
    refine ⟨rests.shifts fun _ _ => Nat.le_max_left _ _, ?_⟩
    simp only [heardSyn, plain]
    rfl
  · unfold enter at success
    have sameSyn : (p.setFlowId (some inDev)).synTag = p.synTag := rfl
    have sameSource : (p.setFlowId (some inDev)).sip = p.sip := rfl
    simp only [mode.floodgate, sameSyn, sameSource] at success
    cases probe : p.synTag with
    | some tag =>
        simp only [probe] at success
        have replies := (receiveSYN_replies c route s tag p.sip _ inDev).of_ok success
        have rests : Rests s { s with
            downstream := (s.downstream.checkSYN c.settings (c.creditRow inDev p.sip) tag).2 } :=
          Rests.same rfl rfl
        obtain ⟨frames, returns⟩ := replies
        have settled := returns.settled mode.psns.all
        refine ⟨(rests.trans (Rests.emits returns.emits)).shifts fun dev dst => ?_, ?_⟩
        · rw [returns.emits.upstream]
          exact Nat.le_max_left _ _
        · simp only [heardSyn, probe]
          exact settled.nxtAckPsn
    | none =>
        have records := @recordPsn_records c s mode inDev p
        simp only [probe] at success
        generalize s.recordPsn c inDev (p.setFlowId (some inDev)) = entered at *
        obtain ⟨dip, -, size, -, ackTag, -, flowId⟩ := records.header
        have rests : Rests s entered.2 := by
          refine ⟨fun dev dst count => onPort_congr records.queues, fun c dev dst count => ?_,
            fun _ => by rw [records.upstream], by rw [records.upstream]⟩
          simp only [queuedBy, cellBy, records.queues]
        have heard : (s.heardSyn c inDev p).nxtAckPsn = s.downstream.nxtAckPsn := by
          simp only [heardSyn, probe]
        rw [heard, ← records.passed]
        rw [ackTag] at success
        cases acking : p.ackTag with
        | some tag =>
            simp only [acking] at success
            obtain ⟨up, restoring, success⟩ := bind_ok.mp success
            obtain rfl := Except.ok.inj success
            have acks := (Upstream.restoreWin_acknowledges mode.psns tag _ inDev).of_ok restoring
            refine ⟨(rests.trans (Rests.frame acks.frame acks.nxtDataPsn)).shifts
              fun dev dst => ?_, rfl⟩
            have body := clean.untagged tag acking
            have told : p.acked c.settings dst = tag.acknowledged c.upstream.settings p.sip dst :=
              Packet.acked_tag body dst
            by_cases here : dev = inDev
            · subst here
              rw [if_pos rfl, told]
              rcases acks.raised dst with same | ⟨-, exact⟩
              · have kept : up.rcvAckPsn dev dst = s.upstream.rcvAckPsn dev dst := by
                  rw [same, records.upstream]
                exact kept.le.trans (Nat.le_max_left _ _)
              · exact (Nat.le_of_eq exact).trans (Nat.le_max_right _ _)
            · have kept : up.rcvAckPsn dev dst = s.upstream.rcvAckPsn dev dst := by
                rw [acks.others dev dst here, records.upstream]
              exact kept.le.trans (Nat.le_max_left _ _)
        | none =>
            simp only [acking] at success
            obtain ⟨shifts, same⟩ := forward_shifts mode
              (fun dev dst => if dev = inDev then p.acked c.settings dst else 0) records.bare
              success
            refine ⟨?_, by rw [same]⟩
            have moved := shifts.preceded rests (by rw [records.upstream])
            refine ⟨moved.sent, fun dev dst count => (moved.kept dev dst count).trans ?_,
              moved.acks⟩
            have number : entered.1.recorded dst count = p.numbered dst count := by
              unfold Packet.recorded Packet.numbered Packet.countAs
              rw [records.ingress, dip, size]
              cases tagged : p.psn with
              | none => simp [clean.ingress tagged]
              | some psn => simp
            simp only [cameFrom, flowId, Option.getD_some, number, eq_comm]
            exact Nat.le_refl _

theorem released_shifts (mode : c.Numbering) (books : PsnBooks c toSwitch s) {voq : Nat × Nat}
    (success : s.release c voq = .ok after) :
    Shifts c s (fun _ _ _ => 0) acked after ∧ after.downstream = s.downstream := by
  unfold release at success
  obtain ⟨⟨sent, up⟩, sending, success⟩ := bind_ok.mp success
  have attempt := (Upstream.checkAndSendOne_attempts mode.psns fun unit member =>
    (books.units voq unit member).group).of_ok sending
  cases sent with
  | none =>
      obtain rfl := Except.ok.inj success
      have opens : Upstream.Opens c.upstream s.upstream up := attempt
      refine ⟨(Rests.frame opens.frame opens.nxtDataPsn).shifts fun dev dst => ?_, rfl⟩
      exact (congrFun₂ opens.rcvAckPsn dev dst).le.trans (Nat.le_max_left _ _)
  | some unit =>
      obtain rfl := Except.ok.inj success
      obtain ⟨top, yields, numbers, rfl⟩ := attempt
      have waiting := books.units voq top yields.top_mem
      refine ⟨Shifts.numbered waiting.data waiting.target numbers fun dev dst count => ?_, rfl⟩
      exact Nat.le_of_eq (yields.heldBy (cameFrom dev dst count))

/-- The head `p` of a queue of the port `ifIndex` leaves as `p'`. -/
structure Leaving (c : SwitchNodeConfig) (s : SwitchNode) (ifIndex : Nat) (p p' : Packet)
    (after : SwitchNode) : Prop where
  sent : ∀ dev dst count, after.sentOn dev dst count +
    (if dev = ifIndex then p'.numbered dst count else 0) = s.sentOn dev dst count
  kept : ∀ dev dst count, after.keptFrom c dev dst count ≤ s.keptFrom c dev dst count
  gone : ifIndex < c.nDevices → ∀ dev dst count,
    after.keptFrom c dev dst count + cameFrom dev dst count (p.toUnit ifIndex 0) =
      s.keptFrom c dev dst count
  upstream : after.upstream = s.upstream
  passed : ∀ dev dst, after.downstream.nxtAckPsn dev dst = s.downstream.nxtAckPsn dev dst ∨
    ∃ number, p.ingressPsn = some number ∧ dev = p.flowId.getD 0 ∧ dst = p.dip ∧
      after.downstream.nxtAckPsn dev dst = max number (s.downstream.nxtAckPsn dev dst)
  syn : p'.synTag = p.synTag

theorem Notified.leaves (mode : c.Numbering) {ifIndex qIndex : Nat} {p p' : Packet}
    (notified : Notified c s ifIndex qIndex p p' after) :
    Rests s after ∧ p'.synTag = p.synTag ∧
      (∀ dst count, p'.numbered dst count = p.numbered dst count) ∧
      ∀ dev dst, after.downstream.nxtAckPsn dev dst = s.downstream.nxtAckPsn dev dst ∨
        ∃ number, p.ingressPsn = some number ∧ dev = p.flowId.getD 0 ∧ dst = p.dip ∧
          after.downstream.nxtAckPsn dev dst = max number (s.downstream.nxtAckPsn dev dst) := by
  obtain ⟨device, upstream, downstream⟩ := discharged_same c s (p.flowId.getD 0) ifIndex qIndex p
  have signals := depart_signals c s (p.flowId.getD 0) ifIndex qIndex p
  obtain ⟨frames, emits⟩ := signals.emits
  have departed := (Rests.same device upstream).trans (Rests.emits emits)
  have same := signals.downstream.trans downstream
  cases notified with
  | plain free => exact ⟨departed, rfl, fun _ _ => rfl, fun _ _ => .inl (by rw [same])⟩
  | credit _ off =>
      rw [mode.psns.absolute] at off
      contradiction
  | @psn number _ credited _ tag replies =>
      rw [SwitchNodeConfig.creditRow_all mode.psns.all] at replies
      obtain ⟨acks, returns⟩ := replies
      have settled := returns.settled mode.psns.all
      have raised : Rests s { s.depart c (p.flowId.getD 0) ifIndex qIndex p with
          downstream := s.downstream.updateNxtAckPsn (p.flowId.getD 0) p.dip number } :=
        departed.trans (Rests.same rfl rfl)
      refine ⟨raised.trans (Rests.emits returns.emits), ?_,
        fun dst count => Packet.numbered_travelling, fun dev dst => ?_⟩
      · cases shape : p.body <;>
          simp [Packet.synTag, Packet.removeIngressPsn, Packet.setFlowId, shape]
      · rw [settled.nxtAckPsn]
        by_cases here : dev = p.flowId.getD 0 ∧ dst = p.dip
        · obtain ⟨rfl, rfl⟩ := here
          exact .inr ⟨number, tag, rfl, rfl, by simp [Downstream.updateNxtAckPsn]⟩
        · refine .inl ?_
          simp only [Downstream.updateNxtAckPsn, setCell_other _ _ _ _ _ _ here]

theorem taken_leaves {ifIndex qIndex : Nat} {p : Packet} {queue : BEgressQueue}
    (dequeues : (s.device ifIndex).queue.Dequeues p qIndex queue) (dev dst : Nat)
    (count : Nat → Nat → Nat) :
    (s.taken ifIndex queue).keptFrom c dev dst count ≤ s.keptFrom c dev dst count := by
  obtain ⟨head, others⟩ := taken_queues dequeues
  have total : (s.taken ifIndex queue).queuedBy c (cameFrom dev dst count) ≤
      s.queuedBy c (cameFrom dev dst count) := by
    apply Finset.sum_le_sum
    rintro ⟨i, j⟩ _
    unfold cellBy
    by_cases here : i = ifIndex ∧ j = qIndex
    · obtain ⟨rfl, rfl⟩ := here
      rw [head, List.map_cons, List.sum_cons]
      exact Nat.le_add_left _ _
    · rw [others i j here]
  exact Nat.add_le_add_left total _

theorem transmit_leaving (mode : c.Numbering) {route : Nat → Nat} {ifIndex : Nat}
    {out : Option Packet} (success : s.transmit c route ifIndex = .ok (out, after)) :
    (out = none ∧ after = s) ∨ ∃ p p' qIndex queue,
      (s.device ifIndex).queue.dequeueRR (c.device ifIndex) (s.device ifIndex).paused =
        some (p, qIndex, queue) ∧ out = some p' ∧ Leaving c s ifIndex p p' after := by
  cases (transmit_transmits c route s ifIndex).of_ok success with
  | idle => exact .inl ⟨rfl, rfl⟩
  | @sent p p' qIndex queue _ served notified =>
      have dequeues := BEgressQueue.dequeueRR_dequeues served
      obtain ⟨rests, syn, number, passed⟩ := notified.leaves mode
      refine .inr ⟨p, p', qIndex, queue, served, rfl, fun dev dst count => ?_,
        fun dev dst count => ?_, fun port dev dst count => ?_, notified.upstream, passed, syn⟩
      · rw [rests.sent, number]
        exact onPort_taken dequeues
      · rw [rests.kept]
        exact taken_leaves dequeues dev dst count
      · rw [rests.kept]
        exact taken_residentBy dequeues port (cameFrom dev dst count)

theorem fired_shifts {route : Nat → Nat} {dev dst : Nat} (mode : c.Numbering)
    (success : s.creditTimeout c route dev dst = .ok after) :
    Shifts c s arrived acked after ∧ after.downstream.nxtAckPsn = s.downstream.nxtAckPsn := by
  obtain ⟨frames, returns⟩ := (creditTimeout_replies c route s dev dst).of_ok success
  refine ⟨(Rests.emits returns.emits).shifts fun i j => ?_,
    (returns.settled mode.psns.all).nxtAckPsn⟩
  rw [returns.emits.upstream]
  exact Nat.le_max_left _ _

theorem probed_shifts {dev : Nat} {recent : Nat → Bool} (probes : Probes c s dev recent after) :
    Shifts c s arrived acked after ∧ after.downstream = s.downstream := by
  obtain ⟨frames, emits, -⟩ := probes.emits
  refine ⟨(Rests.emits emits).shifts fun i j => ?_, ?_⟩
  · rw [emits.upstream]
    exact Nat.le_max_left _ _
  · cases probes with
    | idle => rfl
    | sent => rfl

end Moves

end SwitchNode

end Floodgate
