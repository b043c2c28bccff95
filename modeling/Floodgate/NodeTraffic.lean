import Floodgate.SwitchNode
import Floodgate.VoqSteps

/-! Where the packets of a switch are, and how its pieces of work move them. -/

namespace Floodgate

open Std Outcome

def Packet.toUnit (p : Packet) (outDev qIndex : Nat) : PacketUnit := ⟨p, p.dip, outDev, qIndex⟩

/-- A weight that does not see the PSN or the copy of the destination and ignores control frames. -/
structure TrafficWeight (weight : PacketUnit → Nat) : Prop where
  psn : ∀ unit psn, weight { unit with pkt := unit.pkt.setPsn psn } = weight unit
  dst : ∀ unit dst, weight { unit with dst := dst } = weight unit
  control : ∀ unit, unit.qIndex = 0 → unit.pkt.isUdp = false → weight unit = 0

namespace SwitchNode

def queues (s : SwitchNode) (dev qIndex : Nat) : List Packet := (s.device dev).queue.queues qIndex

def NoDrops (s : SwitchNode) : Prop := ∀ dev, (s.device dev).queue.dropped = 0

section Send

variable {c : SwitchNodeConfig} {s : SwitchNode} {outDev qIndex : Nat} {p : Packet}

theorem switchSend_noDrops (whole : NoDrops (s.switchSend c outDev qIndex p)) : NoDrops s := by
  intro dev
  have kept := whole dev
  by_cases here : dev = outDev
  · subst here
    have grows := BEgressQueue.enqueue_dropped_le (c.device dev) (s.device dev).queue p qIndex
    simp only [switchSend, setDevice, if_true, QbbNetDevice.switchSend] at kept
    omega
  · simpa only [switchSend, setDevice, if_neg here] using kept

theorem switchSend_taken (c : SwitchNodeConfig) (s : SwitchNode) (outDev qIndex : Nat)
    (p : Packet) :
    ∃ taken, taken.Sublist [p] ∧ (NoDrops (s.switchSend c outDev qIndex p) → taken = [p]) ∧
      (s.switchSend c outDev qIndex p).queues =
        setCell s.queues outDev qIndex (s.queues outDev qIndex ++ taken) := by
  obtain ⟨taken, part, full, queues⟩ :=
    BEgressQueue.enqueue_queues (c.device outDev) (s.device outDev).queue p qIndex
  refine ⟨taken, part, ?_, ?_⟩
  · intro whole
    apply full
    have after := whole outDev
    simp only [switchSend, setDevice, if_true, QbbNetDevice.switchSend] at after
    rw [after, switchSend_noDrops whole outDev]
  · funext dev q
    by_cases here : dev = outDev
    · subst here
      simp [SwitchNode.queues, switchSend, setDevice, QbbNetDevice.switchSend, setCell, queues,
        BEgressQueue.setQueue]
    · simp [SwitchNode.queues, switchSend, setDevice, setCell, here]

theorem switchSend_queues (whole : NoDrops (s.switchSend c outDev qIndex p)) :
    (s.switchSend c outDev qIndex p).queues =
      setCell s.queues outDev qIndex (s.queues outDev qIndex ++ [p]) := by
  obtain ⟨taken, _, full, queues⟩ := switchSend_taken c s outDev qIndex p
  rw [queues, full whole]

theorem switchSend_paused (dev : Nat) :
    ((s.switchSend c outDev qIndex p).device dev).paused = (s.device dev).paused := by
  by_cases here : dev = outDev
  · subst here
    simp [switchSend, setDevice, QbbNetDevice.switchSend]
  · simp [switchSend, setDevice, here]

end Send

/-- Control frames are offered to the highest-priority queues and no packet moves. -/
structure Emits (before after : SwitchNode) (frames : Nat → List Packet) : Prop where
  queues : ∀ dev, ∃ taken, taken.Sublist (frames dev) ∧ (NoDrops after → taken = frames dev) ∧
    ∀ qIndex, after.queues dev qIndex =
      if qIndex = 0 then before.queues dev 0 ++ taken else before.queues dev qIndex
  control : ∀ dev, ∀ p ∈ frames dev, p.isUdp = false
  paused : ∀ dev, (after.device dev).paused = (before.device dev).paused
  upstream : after.upstream = before.upstream
  noDrops : NoDrops after → NoDrops before

def oneFrame (dev : Nat) (p : Packet) : Nat → List Packet := fun i => if i = dev then [p] else []

section Emits

variable {c : SwitchNodeConfig} {first second third : SwitchNode}
  {frames later : Nat → List Packet}

theorem Emits.refl (s : SwitchNode) : Emits s s fun _ => [] := by
  refine ⟨?_, fun _ _ member => absurd member (by simp), fun _ => rfl, rfl, id⟩
  intro dev
  refine ⟨[], List.Sublist.refl _, fun _ => rfl, ?_⟩
  intro qIndex
  split
  · rename_i zero
    rw [zero, List.append_nil]
  · rfl

theorem Emits.trans (left : Emits first second frames) (right : Emits second third later) :
    Emits first third fun dev => frames dev ++ later dev := by
  refine ⟨?_, ?_, fun dev => (right.paused dev).trans (left.paused dev),
    right.upstream.trans left.upstream, fun whole => left.noDrops (right.noDrops whole)⟩
  · intro dev
    obtain ⟨early, part, full, queues⟩ := left.queues dev
    obtain ⟨late, part', full', queues'⟩ := right.queues dev
    refine ⟨early ++ late, part.append part', ?_, ?_⟩
    · intro whole
      rw [full (right.noDrops whole), full' whole]
    · intro qIndex
      rw [queues', queues, queues]
      split
      · rw [if_pos rfl, List.append_assoc]
      · rfl
  · intro dev p member
    rcases List.mem_append.mp member with early | late
    · exact left.control dev p early
    · exact right.control dev p late

theorem Emits.congr {first' second' : SwitchNode} (emits : Emits first second frames)
    (before : first'.device = first.device ∧ first'.upstream = first.upstream)
    (after : second'.device = second.device ∧ second'.upstream = second.upstream) :
    Emits first' second' frames := by
  have firstQueues : first'.queues = first.queues := by
    funext dev qIndex
    simp only [SwitchNode.queues, before.1]
  have secondQueues : second'.queues = second.queues := by
    funext dev qIndex
    simp only [SwitchNode.queues, after.1]
  have drops : NoDrops second' ↔ NoDrops second := by simp only [NoDrops, after.1]
  constructor
  · simpa only [firstQueues, secondQueues, drops] using emits.queues
  · exact emits.control
  · simpa only [before.1, after.1] using emits.paused
  · rw [after.2, before.2]
    exact emits.upstream
  · simpa only [NoDrops, before.1, after.1] using emits.noDrops

theorem Emits.whole (emits : Emits first second frames) (whole : NoDrops second)
    (dev qIndex : Nat) : second.queues dev qIndex =
      if qIndex = 0 then first.queues dev 0 ++ frames dev else first.queues dev qIndex := by
  obtain ⟨taken, _, full, queues⟩ := emits.queues dev
  rw [queues, full whole]

theorem Emits.member (emits : Emits first second frames) {dev qIndex : Nat} {p : Packet}
    (inside : p ∈ second.queues dev qIndex) :
    p ∈ first.queues dev qIndex ∨ qIndex = 0 ∧ p ∈ frames dev := by
  obtain ⟨taken, part, _, queues⟩ := emits.queues dev
  rw [queues] at inside
  by_cases zero : qIndex = 0
  · subst zero
    rw [if_pos rfl] at inside
    rcases List.mem_append.mp inside with old | new
    · exact .inl old
    · exact .inr ⟨rfl, part.mem new⟩
  · rw [if_neg zero] at inside
    exact .inl inside

theorem switchSend_emits (c : SwitchNodeConfig) (s : SwitchNode) (dev : Nat) {p : Packet}
    (control : p.isUdp = false) : Emits s (s.switchSend c dev 0 p) (oneFrame dev p) := by
  obtain ⟨taken, part, full, queues⟩ := switchSend_taken c s dev 0 p
  refine ⟨?_, ?_, fun i => switchSend_paused i, rfl, fun whole => switchSend_noDrops whole⟩
  · intro i
    by_cases here : i = dev
    · subst here
      refine ⟨taken, by simpa [oneFrame] using part, fun whole => by simp [full whole, oneFrame], ?_⟩
      intro q
      rw [queues]
      by_cases zero : q = 0
      · simp [setCell, zero]
      · simp [setCell, zero]
    · refine ⟨[], List.nil_sublist _, fun _ => by simp [oneFrame, here], ?_⟩
      intro q
      rw [queues]
      by_cases zero : q = 0
      · simp [setCell, here, zero]
      · simp [setCell, here, zero]
  · intro i frame member
    unfold oneFrame at member
    split at member
    · simp only [List.mem_singleton] at member
      rw [member]
      exact control
    · simp at member

end Emits

/-- What the queue at `place`, a port and a queue of it, contributes to a total. -/
def cellBy (s : SwitchNode) (weight : PacketUnit → Nat) (place : Nat × Nat) : Nat :=
  ((s.queues place.1 place.2).map fun p => weight (p.toUnit place.1 place.2)).sum

def queuedBy (c : SwitchNodeConfig) (s : SwitchNode) (weight : PacketUnit → Nat) : Nat :=
  ∑ place ∈ Finset.range c.nDevices ×ˢ Finset.range qCnt, s.cellBy weight place

def residentBy (c : SwitchNodeConfig) (s : SwitchNode) (weight : PacketUnit → Nat) : Nat :=
  s.upstream.heldBy weight + s.queuedBy c weight

section Totals

variable {c : SwitchNodeConfig} {s after : SwitchNode} {weight : PacketUnit → Nat}
  {outDev qIndex : Nat} {p : Packet}

/-- A packet joins one queue. Queues that are not counted take only packets without weight. -/
theorem queuedBy_join
    (counted : (outDev < c.nDevices ∧ qIndex < qCnt) ∨ weight (p.toUnit outDev qIndex) = 0)
    (queues : after.queues = setCell s.queues outDev qIndex (s.queues outDev qIndex ++ [p])) :
    after.queuedBy c weight = s.queuedBy c weight + weight (p.toUnit outDev qIndex) := by
  by_cases range : outDev < c.nDevices ∧ qIndex < qCnt
  case neg =>
    have none := counted.resolve_left range
    rw [none, Nat.add_zero]
    apply Finset.sum_congr rfl
    rintro ⟨i, j⟩ member
    have other : ¬ (i = outDev ∧ j = qIndex) := by
      rintro ⟨rfl, rfl⟩
      exact range (by simpa using member)
    simp only [cellBy, queues, setCell_other _ _ _ _ _ _ other]
  obtain ⟨port, below⟩ := range
  have inside : (outDev, qIndex) ∈ Finset.range c.nDevices ×ˢ Finset.range qCnt := by
    simp [port, below]
  have change := MapSum.sum_change (after.cellBy weight) (s.cellBy weight) inside (by
    rintro ⟨i, j⟩ _ different
    have other : ¬ (i = outDev ∧ j = qIndex) := fun same => different (Prod.ext same.1 same.2)
    simp only [cellBy, queues, setCell_other _ _ _ _ _ _ other])
  have here : after.cellBy weight (outDev, qIndex) =
      s.cellBy weight (outDev, qIndex) + weight (p.toUnit outDev qIndex) := by
    simp [cellBy, queues]
  unfold queuedBy
  omega

theorem queuedBy_leave (port : outDev < c.nDevices) (below : qIndex < qCnt)
    (head : s.queues outDev qIndex = p :: after.queues outDev qIndex)
    (others : ∀ i j, ¬ (i = outDev ∧ j = qIndex) → after.queues i j = s.queues i j) :
    after.queuedBy c weight + weight (p.toUnit outDev qIndex) = s.queuedBy c weight := by
  have inside : (outDev, qIndex) ∈ Finset.range c.nDevices ×ˢ Finset.range qCnt := by
    simp [port, below]
  have change := MapSum.sum_change (after.cellBy weight) (s.cellBy weight) inside (by
    rintro ⟨i, j⟩ _ different
    have other : ¬ (i = outDev ∧ j = qIndex) := fun same => different (Prod.ext same.1 same.2)
    simp only [cellBy, others i j other])
  have here : s.cellBy weight (outDev, qIndex) =
      weight (p.toUnit outDev qIndex) + after.cellBy weight (outDev, qIndex) := by
    simp [cellBy, head]
  unfold queuedBy
  omega

theorem Emits.residentBy {frames : Nat → List Packet} (emits : Emits s after frames)
    (traffic : TrafficWeight weight) : after.residentBy c weight = s.residentBy c weight := by
  unfold SwitchNode.residentBy queuedBy
  rw [emits.upstream]
  congr 1
  apply Finset.sum_congr rfl
  rintro ⟨dev, qIndex⟩ _
  obtain ⟨taken, part, _, queues⟩ := emits.queues dev
  simp only [cellBy, queues]
  by_cases zero : qIndex = 0
  · subst zero
    rw [if_pos rfl, List.map_append, List.sum_append]
    have none : (taken.map fun p => weight (p.toUnit dev 0)).sum = 0 := by
      apply List.sum_eq_zero
      intro value member
      obtain ⟨frame, inside, rfl⟩ := List.mem_map.mp member
      exact traffic.control _ rfl (emits.control dev frame (part.mem inside))
    rw [none, Nat.add_zero]
  · rw [if_neg zero]

theorem queued_le {place : Nat × Nat}
    (inside : place ∈ Finset.range c.nDevices ×ˢ Finset.range qCnt)
    (member : p ∈ s.queues place.1 place.2) :
    weight (p.toUnit place.1 place.2) ≤ s.queuedBy c weight := by
  have cell : weight (p.toUnit place.1 place.2) ≤ s.cellBy weight place :=
    List.le_sum_of_mem (List.mem_map.mpr ⟨p, member, rfl⟩)
  have total : s.cellBy weight place ≤ s.queuedBy c weight :=
    Finset.single_le_sum (fun _ _ => Nat.zero_le _) inside
  omega

theorem held_le {u : Upstream} {voq : Nat × Nat} {unit : PacketUnit}
    (member : unit ∈ u.voqPackets voq) : weight unit ≤ u.heldBy weight := by
  unfold Upstream.voqPackets at member
  cases known : u.voqGroups[voq.1]? with
  | none => simp [known] at member
  | some g =>
      simp only [known] at member
      calc
        weight unit ≤ ((g.packets voq.2).map weight).sum :=
          List.le_sum_of_mem (List.mem_map.mpr ⟨unit, member, rfl⟩)
        _ ≤ g.heldBy weight := VOQGroup.packets_le_heldBy g weight voq.2
        _ ≤ u.heldBy weight := Upstream.heldBy_le u voq.1 g known weight

theorem passes_weight (traffic : TrafficWeight weight) {u up : Upstream} {dst dst' : Nat}
    {p' : Packet} (passes : Upstream.Passes c.upstream u outDev dst p p' up) :
    weight (p'.toUnit outDev qIndex) = weight ⟨p, dst', outDev, qIndex⟩ := by
  cases passes with
  | credit => exact traffic.dst ⟨p, dst', outDev, qIndex⟩ p.dip
  | psn =>
      have first := traffic.psn (p.toUnit outDev qIndex)
      have second := traffic.dst ⟨p, dst', outDev, qIndex⟩ p.dip
      simp only [Packet.toUnit, Packet.setPsn_dip] at first second ⊢
      rw [first, second]

end Totals

/-- How `passOn` treats a packet, and the state of the windows and VOQs afterwards. -/
inductive Routes (c : SwitchNodeConfig) (u : Upstream) (p : Packet) (outDev qIndex : Nat) :
    Option Packet → Upstream → Prop
  | off (plain : c.useFloodgate = false) : Routes c u p outDev qIndex (some p) u
  | on {routed : Option Packet} {up : Upstream} (floodgate : c.useFloodgate = true)
      (arrives : Upstream.Arrives c.upstream u p outDev qIndex routed up) :
      Routes c u p outDev qIndex routed up

/-- The state after `passOn`. -/
inductive PassedOn (c : SwitchNodeConfig) (s : SwitchNode) (p : Packet) (outDev qIndex : Nat) :
    SwitchNode → Prop
  | sent {p' : Packet} {up : Upstream} (routes : Routes c s.upstream p outDev qIndex (some p') up) :
      PassedOn c s p outDev qIndex ({ s with upstream := up }.switchSend c outDev qIndex p')
  | held {up : Upstream} (routes : Routes c s.upstream p outDev qIndex none up) :
      PassedOn c s p outDev qIndex { s with upstream := up }

section PassOn

variable {c : SwitchNodeConfig} {s after : SwitchNode} {weight : PacketUnit → Nat}
  {outDev qIndex : Nat} {p : Packet}

theorem passOn_passed (consistent : s.upstream.Consistent c.upstream)
    (success : s.passOn c outDev qIndex p = .ok after) : PassedOn c s p outDev qIndex after := by
  unfold passOn at success
  by_cases floodgate : c.useFloodgate
  · rw [if_pos floodgate] at success
    obtain ⟨routed, found, success⟩ := bind_ok.mp success
    have arrives := (Upstream.checkVOQWin_arrives consistent p outDev qIndex).of_ok found
    obtain ⟨routed, up⟩ := routed
    cases routed with
    | some p' =>
        obtain rfl := Except.ok.inj success
        exact .sent (.on floodgate arrives)
    | none =>
        obtain rfl := Except.ok.inj success
        exact .held (.on floodgate arrives)
  · rw [if_neg floodgate] at success
    obtain rfl := Except.ok.inj success
    have plain : c.useFloodgate = false := by simpa using floodgate
    have routes : Routes c s.upstream p outDev qIndex (some p) s.upstream := .off plain
    exact .sent routes

theorem Routes.heldBy {routed : Option Packet} {up : Upstream}
    (routes : Routes c s.upstream p outDev qIndex routed up) :
    up.heldBy weight = s.upstream.heldBy weight +
      if routed.isNone then weight (p.toUnit outDev qIndex) else 0 := by
  cases routes with
  | off => rfl
  | on _ arrives =>
      cases arrives with
      | control => rfl
      | ignored => rfl
      | passed _ _ _ frame _ _ _ same => exact (frame.trans same).heldBy weight
      | buffered _ _ _ frame _ _ buffers =>
          rw [buffers.heldBy, frame.heldBy]
          rfl

theorem Routes.weighs (traffic : TrafficWeight weight) {p' : Packet} {up : Upstream}
    (routes : Routes c s.upstream p outDev qIndex (some p') up) :
    weight (p'.toUnit outDev qIndex) = weight (p.toUnit outDev qIndex) := by
  cases routes with
  | off => rfl
  | on _ arrives =>
      cases arrives with
      | control => rfl
      | ignored => rfl
      | passed _ _ _ _ _ _ passes _ => exact passes_weight traffic passes

theorem PassedOn.noDrops (passed : PassedOn c s p outDev qIndex after) (whole : NoDrops after) :
    NoDrops s := by
  cases passed with
  | sent => exact switchSend_noDrops whole
  | held => exact whole

theorem PassedOn.residentBy (passed : PassedOn c s p outDev qIndex after) (whole : NoDrops after)
    (traffic : TrafficWeight weight)
    (counted : (outDev < c.nDevices ∧ qIndex < qCnt) ∨ weight (p.toUnit outDev qIndex) = 0) :
    after.residentBy c weight = s.residentBy c weight + weight (p.toUnit outDev qIndex) := by
  cases passed with
  | @sent p' up routes =>
      have held := @Routes.heldBy c s weight outDev qIndex p (some p') up routes
      have same := routes.weighs traffic
      have joined := @queuedBy_join c _ _ weight outDev qIndex p' (same ▸ counted)
        (switchSend_queues whole)
      have before : ({ s with upstream := up } : SwitchNode).queuedBy c weight =
          s.queuedBy c weight := rfl
      have upstream : ({ s with upstream := up }.switchSend c outDev qIndex p').upstream = up := rfl
      simp only [Option.isNone_some, Bool.false_eq_true, if_false] at held
      unfold SwitchNode.residentBy
      rw [joined, upstream]
      omega
  | @held up routes =>
      have held := @Routes.heldBy c s weight outDev qIndex p none up routes
      have before : ({ s with upstream := up } : SwitchNode).queuedBy c weight =
          s.queuedBy c weight := rfl
      have upstream : ({ s with upstream := up } : SwitchNode).upstream = up := rfl
      simp only [Option.isNone_none, if_true] at held
      unfold SwitchNode.residentBy
      rw [before, upstream]
      omega

theorem PassedOn.same (passed : PassedOn c s p outDev qIndex after) :
    after.admission = s.admission ∧ after.downstream = s.downstream ∧
      ∀ dev, (after.device dev).paused = (s.device dev).paused := by
  cases passed with
  | sent => exact ⟨rfl, rfl, fun dev => switchSend_paused dev⟩
  | held => exact ⟨rfl, rfl, fun _ => rfl⟩

end PassOn

end SwitchNode

end Floodgate
