import Floodgate.VoqContents
import Floodgate.TorWindows

/-! VOQs without a limit on their number: each destination has its own, and the head of a VOQ whose
window has room for it is sent. -/

namespace Floodgate

open Std Outcome

/-- `m_voq_limit` is 0 in every group. -/
def UpstreamConfig.Unlimited (c : UpstreamConfig) : Prop :=
  ∀ (gid : Nat) (config : VOQGroupConfig), c.groups[gid]? = some config → config.voqLimit = 0

namespace VOQGroup

theorem findVOQId_unlimited (g : VOQGroup) (unlimited : g.config.voqLimit = 0) (dst : Nat) :
    g.findVOQId dst = some dst := by
  unfold findVOQId
  rw [if_pos unlimited]

theorem getVOQ_unlimited {g : VOQGroup} (unlimited : g.config.voqLimit = 0) (dst : Nat) :
    ∃ after, g.getVOQ dst = .ok (dst, after) ∧ after.config = g.config ∧
      ∀ id, after.packets id = g.packets id := by
  have static : g.config.dynamicHash = false := by
    by_contra dynamic
    have limit := g.config.limit_pos (Bool.eq_true_of_not_eq_false dynamic)
    omega
  obtain ⟨id, after, found, opened⟩ := getVOQ_static static dst
  have config := opened.config
  have own := opened.found
  rw [findVOQId_unlimited after (config ▸ unlimited)] at own
  obtain rfl := Option.some.inj own
  exact ⟨after, found, config, opened.packets⟩

end VOQGroup

namespace Upstream

/-- Every destination has a VOQ to itself, and what waits there is counted. -/
structure Unshared (s : Upstream) : Prop where
  unlimited : ∀ (gid : Nat) (g : VOQGroup), s.voqGroups[gid]? = some g → g.config.voqLimit = 0
  own : ∀ voq, ∀ unit ∈ s.voqPackets voq, unit.dst = voq.2
  counted : ∀ voq, ∀ unit ∈ s.voqPackets voq, unit.dst ∈ s.buffering

section Unshared

variable {c : UpstreamConfig} {s after : Upstream}

theorem init_voqPackets (c : UpstreamConfig) (voq : Nat × Nat) :
    (Upstream.init c).voqPackets voq = [] := by
  have start := (Upstream.Consistent.init c).registered voq
  cases packets : (Upstream.init c).voqPackets voq with
  | nil => rfl
  | cons unit rest =>
      have registered := start unit (by simp [packets])
      simp [Upstream.init] at registered

theorem Unshared.init (unlimited : c.Unlimited) : Unshared (Upstream.init c) := by
  refine ⟨fun gid g known => ?_, fun voq unit member => ?_, fun voq unit member => ?_⟩
  · simp only [Upstream.init, ExtTreeMap.getElem?_map, Option.map_eq_some_iff] at known
    obtain ⟨config, found, rfl⟩ := known
    exact unlimited gid config found
  · rw [init_voqPackets] at member
    cases member
  · rw [init_voqPackets] at member
    cases member

theorem Unshared.frame (unshared : Unshared s) (frame : Frame s after) : Unshared after := by
  refine ⟨frame.voqGroups ▸ unshared.unlimited, fun voq unit member => ?_,
    fun voq unit member => ?_⟩
  · rw [frame.voqPackets] at member
    exact unshared.own voq unit member
  · rw [frame.voqPackets] at member
    rw [frame.buffering]
    exact unshared.counted voq unit member

theorem Unshared.buffered (unshared : Unshared s) {unit : PacketUnit}
    (success : s.bufferPacket c unit = .ok after) : Unshared after := by
  unfold bufferPacket at success
  obtain ⟨⟨gid, g⟩, found, success⟩ := bind_ok.mp success
  have known : s.voqGroups[gid]? = some g := by
    unfold groupOf at found
    split at found
    · split at found
      · rename_i known
        obtain ⟨rfl, rfl⟩ := Prod.mk.inj (Except.ok.inj found)
        exact known
      · cases found
    · cases found
  have free := unshared.unlimited gid g known
  obtain ⟨opened, place, config, packets⟩ := VOQGroup.getVOQ_unlimited free unit.dst
  obtain ⟨voq, same, success⟩ := bind_ok.mp success
  obtain rfl := Except.ok.inj (place.symm.trans same)
  obtain rfl := Except.ok.inj success
  have lists : ∀ voq other,
      other ∈ (s.setGroup gid (opened.enqueue unit.dst unit)).voqPackets voq →
      other ∈ s.voqPackets voq ∨ voq.2 = unit.dst ∧ other = unit := by
    intro voq other member
    rw [voqPackets_setGroup] at member
    split at member
    · rename_i group
      have before : s.voqPackets voq = g.packets voq.2 := by rw [voqPackets, group, known]
      rw [VOQGroup.enqueue_packets, packets, packets] at member
      rw [before]
      split at member
      · rename_i here
        rcases List.mem_append.mp member with old | new
        · exact .inl (here ▸ old)
        · exact .inr ⟨here, List.mem_singleton.mp new⟩
      · exact .inl member
    · exact .inl member
  refine ⟨fun id group found => ?_, fun voq other member => ?_, fun voq other member => ?_⟩
  · have inserted : (s.voqGroups.insert gid (opened.enqueue unit.dst unit))[id]? = some group :=
      found
    rw [MapSum.lookup_insert] at inserted
    split at inserted
    · obtain rfl := Option.some.inj inserted
      rw [VOQGroup.enqueue_config, config]
      exact free
    · exact unshared.unlimited id group inserted
  · rcases lists voq other member with old | ⟨here, rfl⟩
    · exact unshared.own voq other old
    · exact here.symm
  · rcases lists voq other member with old | ⟨here, rfl⟩
    · exact ExtTreeMap.mem_insert.mpr (.inr (unshared.counted voq other old))
    · exact ExtTreeMap.mem_insert_self

theorem voqDequeueCallback_known_counts (unit : PacketUnit) :
    Holds (fun _ => True)
      (fun called => called.2.voqGroups = s.voqGroups ∧
        ∀ dst ∈ s.buffering, dst ∈ called.2.buffering)
      (s.voqDequeueCallback c unit) := by
  have counts : ∀ {numbered : Packet} {before : Upstream}, before.voqGroups = s.voqGroups →
      before.buffering = s.buffering →
      Holds (fun _ => True)
        (fun called => called.2.voqGroups = s.voqGroups ∧
          ∀ dst ∈ s.buffering, dst ∈ called.2.buffering)
        (do
          let windowed ← before.updateDstWin c unit.dst unit.pkt.size false
          let counted ← windowed.updateBufferingCount unit.dst unit.pkt.size false
          .ok ({ unit with pkt := numbered }, counted)) := by
    intro numbered before groups buffering
    have framed := (updateDstWin_frame c before unit.dst unit.pkt.size false).weaken
      fun _ _ => trivial
    apply framed.bind
    intro windowed _ frame
    simp only [updateBufferingCount, Bool.false_eq_true, if_false]
    split
    · refine ⟨frame.voqGroups.trans groups, fun dst member => ?_⟩
      have before : dst ∈ windowed.buffering := by rwa [frame.buffering, buffering]
      exact ExtTreeMap.mem_insert.mpr (.inr before)
    · trivial
  unfold voqDequeueCallback
  cases c.settings.switchAbsolutePsn with
  | false =>
      simp only [Bool.false_eq_true, if_false]
      exact counts rfl rfl
  | true =>
      simp only [if_true]
      exact counts rfl rfl

theorem Unshared.attempted (unshared : Unshared s) {voq : Nat × Nat} {sent : Option PacketUnit}
    (success : s.checkAndSendOne c voq = .ok (sent, after)) : Unshared after := by
  have contents := (checkAndSendOne_yields voq).of_ok success
  cases sent with
  | none => exact unshared.frame contents
  | some unit =>
      obtain ⟨top, yields⟩ := contents
      have kept : (∀ (gid : Nat) (g : VOQGroup), after.voqGroups[gid]? = some g →
          g.config.voqLimit = 0) ∧ ∀ dst ∈ s.buffering, dst ∈ after.buffering := by
        unfold checkAndSendOne at success
        split at success
        · cases success
        · rename_i g known
          split at success
          · cases success
          · rename_i top rest head
            obtain ⟨⟨room, checked⟩, checking, success⟩ := bind_ok.mp success
            have frame := ((checkDstWin_frame c s top.dst top.pkt.size).of_ok checking).1
            simp only at frame success
            split at success
            · split at success
              · obtain ⟨called, calling, success⟩ := bind_ok.mp success
                obtain ⟨groups, counted⟩ := (voqDequeueCallback_known_counts top).of_ok calling
                obtain ⟨-, rfl⟩ := Prod.mk.inj (Except.ok.inj success)
                refine ⟨fun gid group found => ?_, fun dst member => ?_⟩
                · have inserted : (called.2.voqGroups.insert voq.1 _)[gid]? = some group := found
                  rw [MapSum.lookup_insert, groups] at inserted
                  have free := unshared.unlimited voq.1 g known
                  split at inserted
                  · obtain rfl := Option.some.inj inserted
                    rw [VOQGroup.releaseVOQ_config, VOQGroup.pop_config]
                    exact free
                  · have before : (checked.voqGroups.insert voq.1 (g.pop voq.2 top))[gid]? =
                        some group := inserted
                    rw [MapSum.lookup_insert] at before
                    split at before
                    · obtain rfl := Option.some.inj before
                      rw [VOQGroup.pop_config]
                      exact free
                    · rw [frame.voqGroups] at before
                      exact unshared.unlimited gid group before
                · refine counted dst ?_
                  have same : (checked.setGroup voq.1 (g.pop voq.2 top)).buffering =
                      s.buffering := frame.buffering
                  rwa [same]
              · cases success
            · cases success
      exact ⟨kept.1, fun place other member => unshared.own place other (yields.member member),
        fun place other member => kept.2 _ (unshared.counted place other (yields.member member))⟩

theorem Unshared.routed (unshared : Unshared s) {pkt : Packet} {outDev qIndex : Nat}
    {routed : Option Packet}
    (success : s.checkVOQWin c pkt outDev qIndex = .ok (routed, after)) : Unshared after := by
  unfold checkVOQWin at success
  split at success
  · obtain ⟨ignore, -, success⟩ := bind_ok.mp success
    split at success
    · obtain ⟨-, rfl⟩ := Prod.mk.inj (Except.ok.inj success)
      exact unshared
    · obtain ⟨checked, checking, success⟩ := bind_ok.mp success
      have frame := ((checkDstWin_frame c s pkt.dip pkt.size).of_ok checking).1
      split at success
      · obtain ⟨passed, passing, success⟩ := bind_ok.mp success
        have later := (updateDstWin_frame c checked.2 pkt.dip pkt.size false).of_ok passing
        have kept := unshared.frame (frame.trans later)
        split at success
        · obtain ⟨-, rfl⟩ := Prod.mk.inj (Except.ok.inj success)
          exact kept.frame ⟨rfl, rfl, fun _ member => member⟩
        · obtain ⟨-, rfl⟩ := Prod.mk.inj (Except.ok.inj success)
          exact kept
      · obtain ⟨buffered, buffering, success⟩ := bind_ok.mp success
        obtain ⟨-, rfl⟩ := Prod.mk.inj (Except.ok.inj success)
        exact (unshared.frame frame).buffered buffering
  · obtain ⟨-, rfl⟩ := Prod.mk.inj (Except.ok.inj success)
    exact unshared

/-- The head of a VOQ leaves as soon as its window has room for it. -/
theorem Unshared.served (unshared : Unshared s) (credit : c.settings.switchAbsolutePsn = false)
    {voq : Nat × Nat} {top : PacketUnit} {rest : List PacketUnit}
    (head : s.voqPackets voq = top :: rest) (registered : top.dst ∈ s.wins)
    (grouped : c.Grouped top.dst) (room : top.pkt.size ≤ s.win top.dst) :
    ∃ unit up, s.checkAndSendOne c voq = .ok (some unit, up) := by
  have member : top ∈ s.voqPackets voq := by simp [head]
  cases known : s.voqGroups[voq.1]? with
  | none => simp [voqPackets, known] at head
  | some g =>
      have packets : g.packets voq.2 = top :: rest := by
        rw [voqPackets, known] at head
        exact head
      have checked : s.checkDstWin c top.dst top.pkt.size = .ok (true, s) := by
        rw [checkDstWin_known registered _ fun absolute => by
          rw [credit] at absolute; cases absolute]
        simp [fits, credit, room]
      have place : (g.pop voq.2 top).findVOQId top.dst = some voq.2 := by
        rw [VOQGroup.pop_findVOQId, g.findVOQId_unlimited (unshared.unlimited voq.1 g known),
          unshared.own voq top member]
      have counted : (s.setGroup voq.1 (g.pop voq.2 top)).buffering.contains top.dst = true :=
        ExtTreeMap.contains_iff_mem.mpr (unshared.counted voq top member)
      have called : ∃ called,
          (s.setGroup voq.1 (g.pop voq.2 top)).voqDequeueCallback c top = .ok called := by
        have taken : ∃ windowed, (s.setGroup voq.1 (g.pop voq.2 top)).updateDstWin c top.dst
            top.pkt.size false = .ok windowed ∧
            windowed.buffering = (s.setGroup voq.1 (g.pop voq.2 top)).buffering := by
          unfold updateDstWin
          have window := @ensureRegisteredWin_known c (s.setGroup voq.1 (g.pop voq.2 top)) top.dst
            registered
          simp only [shouldIgnore_grouped grouped, ok_bind, credit, window, Bool.false_eq_true,
            if_false]
          exact ⟨_, rfl, rfl⟩
        obtain ⟨windowed, taking, same⟩ := taken
        unfold voqDequeueCallback updateBufferingCount
        simp only [credit, Bool.false_eq_true, if_false, taking, ok_bind]
        rw [same, if_pos counted]
        exact ⟨_, rfl⟩
      obtain ⟨called, calling⟩ := called
      unfold checkAndSendOne
      simp only [known, packets, checked, ok_bind, if_true, place, calling]
      exact ⟨_, _, rfl⟩

end Unshared

end Upstream

end Floodgate
