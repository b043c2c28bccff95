import Floodgate.VoqInvariant
import Floodgate.WindowSteps

/-! What buffering and sending one packet do to the VOQs of a switch, and the ledgers over them. -/

namespace Floodgate

open Std Outcome

namespace VOQGroup

def heldBy (g : VOQGroup) (weight : PacketUnit → Nat) : Nat :=
  MapSum.sumBy (fun _ units => (units.map weight).sum) g.voqs

theorem heldBy_entry (g : VOQGroup) (weight : PacketUnit → Nat) (id : Nat) :
    MapSum.entry (fun _ units => (units.map weight).sum) g.voqs id =
      ((g.packets id).map weight).sum := by
  unfold MapSum.entry packets
  cases g.voqs[id]? <;> rfl

theorem heldBy_change (before after : VOQGroup) (weight : PacketUnit → Nat) (id : Nat)
    (same : ∀ i, i ≠ id → after.packets i = before.packets i) :
    after.heldBy weight + ((before.packets id).map weight).sum =
      before.heldBy weight + ((after.packets id).map weight).sum := by
  rw [← heldBy_entry, ← heldBy_entry]
  apply MapSum.sumBy_change
  intro i different
  rw [heldBy_entry, heldBy_entry, same i different]

theorem packets_le_heldBy (g : VOQGroup) (weight : PacketUnit → Nat) (id : Nat) :
    ((g.packets id).map weight).sum ≤ g.heldBy weight := by
  rw [← heldBy_entry]
  exact MapSum.entry_le_sumBy _ _ _

def queued (g : VOQGroup) (dst : Nat) : List PacketUnit :=
  match g.findVOQId dst with
  | some id => (g.packets id).filter fun unit => unit.dst = dst
  | none => []

theorem queued_found {g : VOQGroup} {dst id : Nat} (found : g.findVOQId dst = some id) :
    g.queued dst = (g.packets id).filter fun unit => unit.dst = dst := by
  simp only [queued, found]

theorem queued_none {g : VOQGroup} {dst : Nat} (absent : g.findVOQId dst = none) :
    g.queued dst = [] := by
  simp only [queued, absent]

section Queued

variable {g after : VOQGroup} {id buffering : Nat} {unit top : PacketUnit} {rest : List PacketUnit}

theorem Opened.queued (consistent : g.Consistent) (opened : Opened g unit.dst id after)
    (dst : Nat) :
    (after.enqueue id unit).queued dst =
      if dst = unit.dst then g.queued dst ++ [unit] else g.queued dst := by
  by_cases same : dst = unit.dst
  · subst same
    have search : (after.enqueue id unit).findVOQId unit.dst = some id := opened.found
    rw [if_pos rfl, queued_found search, opened.enqueue_packets, if_pos rfl, List.filter_append]
    simp only [List.filter_cons, decide_true, if_true, List.filter_nil]
    congr 1
    cases found : g.findVOQId unit.dst with
    | some i => rw [queued_found found, opened.kept i found]
    | none =>
        rw [queued_none found, List.filter_eq_nil_iff]
        intro other member
        have located := consistent.located id other member
        simp only [decide_eq_true_eq]
        intro target
        rw [target, found] at located
        contradiction
  · rw [if_neg same]
    have search : (after.enqueue id unit).findVOQId dst = g.findVOQId dst := opened.other dst same
    cases found : g.findVOQId dst with
    | none => rw [queued_none found, queued_none (search.trans found)]
    | some i =>
        rw [queued_found found, queued_found (search.trans found), opened.enqueue_packets]
        by_cases here : i = id
        · rw [if_pos here, List.filter_append, here]
          simp [Ne.symm same]
        · rw [if_neg here]

theorem Consistent.queued_head (consistent : g.Consistent) (head : g.packets id = top :: rest) :
    g.queued top.dst = top :: rest.filter fun unit => unit.dst = top.dst := by
  have found : g.findVOQId top.dst = some id := consistent.located id top (by simp [head])
  rw [queued_found found, head, List.filter_cons_of_pos (by simp)]

theorem Consistent.queued_sent (consistent : g.Consistent) (head : g.packets id = top :: rest)
    (exact : buffering = PacketUnit.bytes (rest.filter fun unit => unit.dst = top.dst))
    (dst : Nat) :
    ((g.pop id top).releaseVOQ top.dst id buffering).queued dst =
      if dst = top.dst then (g.queued dst).tail else g.queued dst := by
  have found : g.findVOQId top.dst = some id := consistent.located id top (by simp [head])
  by_cases same : dst = top.dst
  · subst same
    rw [if_pos rfl, consistent.queued_head head, List.tail_cons]
    by_cases gone : g.config.dynamicHash = true ∧ buffering = 0
    · have none : ((g.pop id top).releaseVOQ top.dst id buffering).findVOQId top.dst = none := by
        rw [findVOQId_dynamic _ (by simpa using gone.1), sent_dst2voq gone.1, if_pos ⟨rfl, gone.2⟩]
      rw [queued_none none, eq_comm, List.filter_eq_nil_iff]
      intro unit member target
      have positive := PacketUnit.bytes_pos unit (rest.filter fun unit => unit.dst = top.dst)
        (List.mem_filter.mpr ⟨member, target⟩)
      omega
    · have search : ((g.pop id top).releaseVOQ top.dst id buffering).findVOQId top.dst =
          some id := by
        rw [sent_findVOQId _ fun dynamic none => gone ⟨dynamic, none.2⟩, found]
      rw [queued_found search, sent_packets head, if_pos rfl]
  · rw [if_neg same]
    have search : ((g.pop id top).releaseVOQ top.dst id buffering).findVOQId dst =
        g.findVOQId dst := sent_findVOQId dst fun _ target => same target.1
    cases other : g.findVOQId dst with
    | none => rw [queued_none other, queued_none (search.trans other)]
    | some i =>
        rw [queued_found other, queued_found (search.trans other), sent_packets head]
        by_cases here : i = id
        · rw [if_pos here, here, head, List.filter_cons_of_neg]
          simpa using Ne.symm same
        · rw [if_neg here]

theorem Opened.heldBy (opened : Opened g unit.dst id after) (weight : PacketUnit → Nat) :
    (after.enqueue id unit).heldBy weight = g.heldBy weight + weight unit := by
  have change := heldBy_change g (after.enqueue id unit) weight id fun i different => by
    rw [opened.enqueue_packets, if_neg different]
  rw [opened.enqueue_packets, if_pos rfl, List.map_append, List.sum_append] at change
  simp only [List.map_cons, List.map_nil, List.sum_cons, List.sum_nil] at change
  omega

theorem sent_heldBy (head : g.packets id = top :: rest) (weight : PacketUnit → Nat) :
    ((g.pop id top).releaseVOQ top.dst id buffering).heldBy weight + weight top =
      g.heldBy weight := by
  have change := heldBy_change g ((g.pop id top).releaseVOQ top.dst id buffering) weight id
    fun i different => by rw [sent_packets head, if_neg different]
  rw [sent_packets head, if_pos rfl, head, List.map_cons, List.sum_cons] at change
  omega

end Queued

end VOQGroup

namespace Upstream

def heldBy (s : Upstream) (weight : PacketUnit → Nat) : Nat :=
  MapSum.sumBy (fun _ g => VOQGroup.heldBy g weight) s.voqGroups

def ofDst (dst : Nat) (unit : PacketUnit) : Nat := if unit.dst = dst then unit.pkt.size else 0

def heldBytes (s : Upstream) : Nat := s.heldBy fun unit => unit.pkt.size

def queued (c : UpstreamConfig) (s : Upstream) (dst : Nat) : List PacketUnit :=
  match c.dst2group dst with
  | .group gid => (s.voqGroups[gid]?).elim [] fun g => g.queued dst
  | _ => []

theorem queued_group {c : UpstreamConfig} {s : Upstream} {dst gid : Nat} {g : VOQGroup}
    (rule : c.dst2group dst = .group gid) (known : s.voqGroups[gid]? = some g) :
    s.queued c dst = g.queued dst := by
  simp only [queued, rule, known, Option.elim_some]

section Ledger

variable (s : Upstream) (gid : Nat) (g after : VOQGroup)

theorem heldBy_setGroup (known : s.voqGroups[gid]? = some g) (weight : PacketUnit → Nat) :
    (s.setGroup gid after).heldBy weight + g.heldBy weight =
      s.heldBy weight + after.heldBy weight := by
  have change := MapSum.sumBy_insert (fun _ g => VOQGroup.heldBy g weight) s.voqGroups gid after
  rw [MapSum.entry, known] at change
  exact change

theorem voqPackets_setGroup (voq : Nat × Nat) :
    (s.setGroup gid after).voqPackets voq =
      if voq.1 = gid then after.packets voq.2 else s.voqPackets voq := by
  unfold voqPackets setGroup
  rw [MapSum.lookup_insert]
  by_cases same : voq.1 = gid
  · simp only [if_pos same]
  · simp only [if_neg same]

theorem heldBy_le (known : s.voqGroups[gid]? = some g) (weight : PacketUnit → Nat) :
    g.heldBy weight ≤ s.heldBy weight := by
  have bound := MapSum.entry_le_sumBy (fun _ g => VOQGroup.heldBy g weight) s.voqGroups gid
  rw [MapSum.entry, known] at bound
  exact bound

theorem bytes_le_heldBytes (voq : Nat × Nat) :
    PacketUnit.bytes (s.voqPackets voq) ≤ s.heldBytes := by
  unfold voqPackets
  cases known : s.voqGroups[voq.1]? with
  | none => exact Nat.zero_le _
  | some g =>
      exact Nat.le_trans (VOQGroup.packets_le_heldBy g _ voq.2) (heldBy_le s voq.1 g known _)

end Ledger

/-- The bookkeeping of a switch: its groups are those configured and consistent, packets lie in the
group of their destination, the counts of buffered bytes are exact and every destination with a
packet has a window. -/
structure Consistent (c : UpstreamConfig) (s : Upstream) : Prop where
  configured : ∀ gid : Nat, s.voqGroups[gid]?.map VOQGroup.config = c.groups[gid]?
  group : ∀ (gid : Nat) (g : VOQGroup), s.voqGroups[gid]? = some g → g.Consistent
  home : ∀ voq, ∀ unit ∈ s.voqPackets voq, c.dst2group unit.dst = .group voq.1
  buffered : ∀ dst, s.getBufferDst dst = PacketUnit.bytes (s.queued c dst)
  counted : ∀ dst, s.getBufferDst dst = s.heldBy (ofDst dst)
  total : MapSum.sumBy (fun _ bytes => bytes) s.buffering = s.heldBytes
  small : s.heldBytes < Word32.size
  registered : ∀ voq, ∀ unit ∈ s.voqPackets voq, unit.dst ∈ s.wins

section Frames

variable {c : UpstreamConfig} {s after : Upstream}

theorem Frame.voqPackets (frame : Frame s after) (voq : Nat × Nat) :
    after.voqPackets voq = s.voqPackets voq := by
  simp only [Upstream.voqPackets, frame.voqGroups]

theorem Frame.queued (frame : Frame s after) (dst : Nat) : after.queued c dst = s.queued c dst := by
  simp only [Upstream.queued, frame.voqGroups]

theorem Frame.getBufferDst (frame : Frame s after) (dst : Nat) :
    after.getBufferDst dst = s.getBufferDst dst := by
  simp only [Upstream.getBufferDst, frame.buffering]

theorem Frame.heldBy (frame : Frame s after) (weight : PacketUnit → Nat) :
    after.heldBy weight = s.heldBy weight := by
  simp only [Upstream.heldBy, frame.voqGroups]

theorem Consistent.frame (consistent : Consistent c s) (frame : Frame s after) :
    Consistent c after := by
  constructor
  · simpa only [frame.voqGroups] using consistent.configured
  · simpa only [frame.voqGroups] using consistent.group
  · simpa only [frame.voqPackets] using consistent.home
  · simpa only [frame.getBufferDst, frame.queued] using consistent.buffered
  · simpa only [frame.getBufferDst, frame.heldBy] using consistent.counted
  · simpa only [frame.buffering, heldBytes, frame.heldBy] using consistent.total
  · simpa only [heldBytes, frame.heldBy] using consistent.small
  · intro voq unit member
    rw [frame.voqPackets] at member
    exact frame.registered _ (consistent.registered voq unit member)

end Frames

theorem init_group {c : UpstreamConfig} {gid : Nat} {g : VOQGroup}
    (known : (Upstream.init c).voqGroups[gid]? = some g) : ∃ config, g = VOQGroup.init config := by
  simp only [Upstream.init, ExtTreeMap.getElem?_map] at known
  cases present : c.groups[gid]? with
  | none => simp [present] at known
  | some config => exact ⟨config, by simpa [present] using known.symm⟩

theorem init_heldBy (c : UpstreamConfig) (weight : PacketUnit → Nat) :
    (Upstream.init c).heldBy weight = 0 := by
  apply (MapSum.sumBy_eq_zero _ _).mpr
  intro gid g known
  obtain ⟨config, rfl⟩ := init_group known
  simp [VOQGroup.init, VOQGroup.heldBy]

theorem Consistent.init (c : UpstreamConfig) : Consistent c (Upstream.init c) := by
  have empty : ∀ voq, (Upstream.init c).voqPackets voq = [] := by
    intro voq
    unfold voqPackets
    cases known : (Upstream.init c).voqGroups[voq.1]? with
    | none => rfl
    | some g =>
        obtain ⟨config, rfl⟩ := init_group known
        simp [VOQGroup.init, VOQGroup.packets]
  have queued : ∀ dst, (Upstream.init c).queued c dst = [] := by
    intro dst
    cases rule : c.dst2group dst with
    | unset => simp only [Upstream.queued, rule]
    | ignored => simp only [Upstream.queued, rule]
    | group gid =>
        cases known : (Upstream.init c).voqGroups[gid]? with
        | none => simp only [Upstream.queued, rule, known, Option.elim_none]
        | some g =>
            obtain ⟨config, rfl⟩ := init_group known
            rw [queued_group rule known, VOQGroup.queued]
            cases (VOQGroup.init config).findVOQId dst <;> simp [VOQGroup.init, VOQGroup.packets]
  have unbuffered : ∀ dst, (Upstream.init c).getBufferDst dst = 0 := by
    intro dst
    simp [getBufferDst, Upstream.init]
  constructor
  · intro gid
    simp only [Upstream.init, ExtTreeMap.getElem?_map]
    cases c.groups[gid]? <;> rfl
  · intro gid g known
    obtain ⟨config, rfl⟩ := init_group known
    exact VOQGroup.Consistent.init config
  · intro voq unit member
    simp [empty] at member
  · intro dst
    rw [unbuffered, queued, PacketUnit.bytes_nil]
  · intro dst
    rw [unbuffered, init_heldBy]
  · rw [heldBytes, init_heldBy]
    exact MapSum.sumBy_empty _
  · rw [heldBytes, init_heldBy]
    decide
  · intro voq unit member
    simp [empty] at member

end Upstream

end Floodgate
