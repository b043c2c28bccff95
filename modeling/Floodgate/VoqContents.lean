import Floodgate.VoqSteps

/-! What the VOQs hold and what `m_buffering` counts, whatever the number of bytes. -/

namespace Floodgate.Upstream

open Std Outcome

/-- The count of each destination, a 32-bit variable, is its bytes in the VOQs. -/
def Counted (s : Upstream) : Prop :=
  ∀ dst, s.getBufferDst dst = Word32.trunc (s.heldBy (ofDst dst))

/-- `unit` joins a VOQ and is counted. -/
structure Stores (s : Upstream) (unit : PacketUnit) (after : Upstream) : Prop where
  wins : after.wins = s.wins
  nxtDataPsn : after.nxtDataPsn = s.nxtDataPsn
  rcvAckPsn : after.rcvAckPsn = s.rcvAckPsn
  packets : ∃ voq, ∀ place, after.voqPackets place =
    if place = voq then s.voqPackets place ++ [unit] else s.voqPackets place
  heldBy : ∀ weight, after.heldBy weight = s.heldBy weight + weight unit
  buffering : ∀ dst, after.getBufferDst dst =
    if dst = unit.dst then Word32.add (s.getBufferDst dst) unit.pkt.size else s.getBufferDst dst

/-- The head `top` of `voq` leaves, at most with another PSN. -/
structure Yields (s : Upstream) (voq : Nat × Nat) (top unit : PacketUnit) (after : Upstream) :
    Prop where
  packets : ∃ rest, s.voqPackets voq = top :: rest ∧
    ∀ place, after.voqPackets place = if place = voq then rest else s.voqPackets place
  heldBy : ∀ weight, after.heldBy weight + weight top = s.heldBy weight
  buffering : ∀ dst, after.getBufferDst dst =
    if dst = top.dst then Word32.sub (s.getBufferDst dst) top.pkt.size else s.getBufferDst dst
  unit : unit = top ∨ ∃ psn, unit = { top with pkt := top.pkt.setPsn psn }

section Contents

variable {c : UpstreamConfig} {s after : Upstream} {unit top : PacketUnit} {voq : Nat × Nat}

theorem Stores.member (stores : Stores s unit after) {place : Nat × Nat} {other : PacketUnit}
    (inside : other ∈ after.voqPackets place) : other ∈ s.voqPackets place ∨ other = unit := by
  obtain ⟨voq, packets⟩ := stores.packets
  rw [packets] at inside
  split at inside
  · simpa using inside
  · exact .inl inside

theorem Stores.kept (stores : Stores s unit after) {place : Nat × Nat} {other : PacketUnit}
    (inside : other ∈ s.voqPackets place) : other ∈ after.voqPackets place := by
  obtain ⟨voq, packets⟩ := stores.packets
  rw [packets]
  split
  · exact List.mem_append_left _ inside
  · exact inside

theorem Stores.counted (stores : Stores s unit after) (counted : Counted s) : Counted after := by
  intro dst
  rw [stores.buffering, stores.heldBy, counted dst, ofDst]
  by_cases same : dst = unit.dst
  · rw [if_pos same, if_pos same.symm, Word32.add_trunc]
  · rw [if_neg same, if_neg (Ne.symm same), Nat.add_zero]

theorem Yields.member (yields : Yields s voq top unit after) {place : Nat × Nat}
    {other : PacketUnit} (inside : other ∈ after.voqPackets place) :
    other ∈ s.voqPackets place := by
  obtain ⟨rest, head, packets⟩ := yields.packets
  rw [packets] at inside
  split at inside
  · rename_i here
    rw [here, head]
    exact List.mem_cons_of_mem _ inside
  · exact inside

theorem Yields.kept (yields : Yields s voq top unit after) {place : Nat × Nat}
    {other : PacketUnit} (inside : other ∈ s.voqPackets place) :
    other = top ∨ other ∈ after.voqPackets place := by
  obtain ⟨rest, head, packets⟩ := yields.packets
  rw [packets]
  by_cases here : place = voq
  · rw [if_pos here]
    rw [here, head] at inside
    exact List.mem_cons.mp inside
  · rw [if_neg here]
    exact .inr inside

theorem Yields.top_mem (yields : Yields s voq top unit after) : top ∈ s.voqPackets voq := by
  obtain ⟨rest, head, _⟩ := yields.packets
  rw [head]
  exact List.mem_cons_self

theorem Yields.counted (yields : Yields s voq top unit after) (counted : Counted s) :
    Counted after := by
  intro dst
  have total := yields.heldBy (ofDst dst)
  rw [yields.buffering, counted dst]
  by_cases same : dst = top.dst
  · have weight : ofDst dst top = top.pkt.size := if_pos same.symm
    rw [if_pos same, Word32.sub_trunc _ _ top.pkt.size_lt (by omega)]
    congr 1
    omega
  · have weight : ofDst dst top = 0 := if_neg (Ne.symm same)
    rw [if_neg same, ← total, weight, Nat.add_zero]

theorem Counted.none (counted : Counted s) {dst : Nat}
    (nowhere : ∀ voq, ∀ unit ∈ s.voqPackets voq, unit.dst ≠ dst) : s.getBufferDst dst = 0 := by
  have empty : s.heldBy (ofDst dst) = 0 := by
    unfold heldBy
    rw [MapSum.sumBy_eq_zero]
    intro gid g known
    unfold VOQGroup.heldBy
    rw [MapSum.sumBy_eq_zero]
    intro id units stored
    apply List.sum_eq_zero
    intro bytes member
    obtain ⟨unit, inside, rfl⟩ := List.mem_map.mp member
    have here : unit ∈ s.voqPackets (gid, id) := by
      simpa only [voqPackets, known, VOQGroup.packets, stored, Option.getD_some] using inside
    exact if_neg (nowhere (gid, id) unit here)
  rw [counted dst, empty]
  rfl

theorem Counted.frame (counted : Counted s) (frame : Frame s after) : Counted after := by
  intro dst
  rw [frame.getBufferDst, frame.heldBy]
  exact counted dst

theorem Counted.init (c : UpstreamConfig) : Counted (Upstream.init c) := by
  intro dst
  rw [init_heldBy]
  rfl

end Contents

section Operations

variable {c : UpstreamConfig} {s after : Upstream}

theorem getVOQ_packets (g : VOQGroup) (dst : Nat) :
    Holds (fun _ => True) (fun found => ∀ id, found.2.packets id = g.packets id)
      (g.getVOQ dst) := by
  unfold VOQGroup.getVOQ
  cases g.getVOQId dst with
  | mk known hasFind =>
      cases known with
      | none => trivial
      | some id =>
          simp only
          split
          · split
            · split
              · trivial
              · exact fun other => VOQGroup.ensureVOQ_packets g id other
            · exact fun other => VOQGroup.ensureVOQ_packets g id other
          · split
            · exact fun _ => rfl
            · trivial

theorem bufferPacket_stores (unit : PacketUnit) :
    Holds (fun _ => True) (Stores s unit) (s.bufferPacket c unit) := by
  unfold bufferPacket groupOf
  split
  · rename_i gid _
    cases known : s.voqGroups[gid]? with
    | none => trivial
    | some g =>
        simp only [ok_bind]
        apply (getVOQ_packets g unit.dst).bind
        rintro ⟨id, opened⟩ _ packets
        have lists : ∀ i, (opened.enqueue id unit).packets i =
            if i = id then g.packets i ++ [unit] else g.packets i := by
          intro i
          rw [VOQGroup.enqueue_packets, packets, packets]
          split
          · rename_i same
            rw [same]
          · rfl
        refine ⟨rfl, rfl, rfl, ⟨(gid, id), fun place => ?_⟩, fun weight => ?_, fun dst => ?_⟩
        · have place_packets := voqPackets_setGroup s gid (opened.enqueue id unit) place
          refine Eq.trans place_packets ?_
          by_cases group : place.1 = gid
          · have here : s.voqPackets place = g.packets place.2 := by rw [voqPackets, group, known]
            have same : place = (gid, id) ↔ place.2 = id := by simp [Prod.ext_iff, group]
            simp only [if_pos group, lists, here, same]
          · rw [if_neg group, if_neg fun same => group (by rw [same])]
        · have total := heldBy_setGroup s gid g (opened.enqueue id unit) known weight
          have change := VOQGroup.heldBy_change g (opened.enqueue id unit) weight id
            fun i different => by rw [lists, if_neg different]
          rw [lists, if_pos rfl, List.map_append, List.sum_append] at change
          simp only [List.map_cons, List.map_nil, List.sum_cons, List.sum_nil] at change
          have same : ∀ bytes, ({ s.setGroup gid (opened.enqueue id unit) with
              buffering := bytes } : Upstream).heldBy weight =
                (s.setGroup gid (opened.enqueue id unit)).heldBy weight := fun _ => rfl
          simp only [same]
          omega
        · have value := getBufferDst_insert (s := s.setGroup gid (opened.enqueue id unit)) unit.dst
            (Word32.add (s.getBufferDst unit.dst) unit.pkt.size) dst
          refine Eq.trans value ?_
          split
          · rename_i same
            rw [same]
          · rfl
  · trivial

theorem voqDequeueCallback_counts (unit : PacketUnit) :
    Holds (fun _ => True)
      (fun called => called.2.voqGroups = s.voqGroups ∧
        (∀ dst, called.2.getBufferDst dst = if dst = unit.dst then
          Word32.sub (s.getBufferDst dst) unit.pkt.size else s.getBufferDst dst) ∧
        (called.1 = unit ∨ ∃ psn, called.1 = { unit with pkt := unit.pkt.setPsn psn }))
      (s.voqDequeueCallback c unit) := by
  have counts : ∀ {numbered : Packet} {before : Upstream}, before.voqGroups = s.voqGroups →
      before.buffering = s.buffering →
      (numbered = unit.pkt ∨ ∃ psn, numbered = unit.pkt.setPsn psn) →
      Holds (fun _ => True)
        (fun called => called.2.voqGroups = s.voqGroups ∧
          (∀ dst, called.2.getBufferDst dst = if dst = unit.dst then
            Word32.sub (s.getBufferDst dst) unit.pkt.size else s.getBufferDst dst) ∧
          (called.1 = unit ∨ ∃ psn, called.1 = { unit with pkt := unit.pkt.setPsn psn }))
        (do
          let windowed ← before.updateDstWin c unit.dst unit.pkt.size false
          let counted ← windowed.updateBufferingCount unit.dst unit.pkt.size false
          .ok ({ unit with pkt := numbered }, counted)) := by
    intro numbered before groups buffering psn
    have framed := (updateDstWin_frame c before unit.dst unit.pkt.size false).weaken
      fun _ _ => trivial
    apply framed.bind
    intro windowed _ frame
    simp only [updateBufferingCount, Bool.false_eq_true, if_false]
    split
    · refine ⟨frame.voqGroups.trans groups, fun dst => ?_, ?_⟩
      · have same : windowed.getBufferDst = s.getBufferDst := by
          funext other
          simp only [getBufferDst, frame.buffering, buffering]
        have value := getBufferDst_insert (s := windowed) unit.dst
          (Word32.sub (windowed.getBufferDst unit.dst) unit.pkt.size) dst
        refine Eq.trans value ?_
        rw [same]
        split
        · rename_i here
          rw [here]
        · rfl
      · rcases psn with rfl | ⟨psn, rfl⟩
        · exact .inl rfl
        · exact .inr ⟨psn, rfl⟩
    · trivial
  unfold voqDequeueCallback
  cases mode : c.settings.switchAbsolutePsn with
  | false =>
      simp only [Bool.false_eq_true, if_false]
      exact counts rfl rfl (.inl rfl)
  | true =>
      simp only [if_true]
      exact counts rfl rfl (.inr ⟨_, rfl⟩)

theorem checkAndSendOne_yields (voq : Nat × Nat) :
    Holds (fun _ => True)
      (fun sent => match sent.1 with
        | none => Frame s sent.2
        | some unit => ∃ top, Yields s voq top unit sent.2)
      (s.checkAndSendOne c voq) := by
  unfold checkAndSendOne
  cases known : s.voqGroups[voq.1]? with
  | none => exact Frame.refl s
  | some g =>
      cases head : g.packets voq.2 with
      | nil =>
          simp only [head]
          exact Frame.refl s
      | cons top rest =>
          have here : s.voqPackets voq = top :: rest := by
            rw [voqPackets, known]
            exact head
          simp only [head]
          have framed := (checkDstWin_frame c s top.dst top.pkt.size).weaken fun _ _ => trivial
          apply framed.bind
          rintro ⟨room, checked⟩ _ ⟨frame, _⟩
          simp only at frame ⊢
          split
          · split
            · apply (voqDequeueCallback_counts (c := c) top).bind
              rintro ⟨unit, called⟩ _ ⟨groups, counts, psn⟩
              simp only at groups counts psn
              refine ⟨top, ⟨rest, here, fun place => ?_⟩, fun weight => ?_, fun dst => ?_, psn⟩
              · rw [voqPackets_setGroup]
                by_cases group : place.1 = voq.1
                · have same : place = voq ↔ place.2 = voq.2 := by simp [Prod.ext_iff, group]
                  have before : s.voqPackets place = g.packets place.2 := by
                    rw [voqPackets, group, known]
                  simp only [if_pos group, VOQGroup.sent_packets head, before, same]
                · have packets := voqPackets_setGroup checked voq.1 (g.pop voq.2 top) place
                  rw [if_neg group] at packets
                  have called_packets : called.voqPackets place = s.voqPackets place := by
                    rw [← frame.voqPackets, ← packets]
                    simp only [voqPackets, groups]
                  rw [if_neg group, called_packets, if_neg fun same => group (by rw [same])]
              · have between : called.voqGroups[voq.1]? = some (g.pop voq.2 top) := by
                  rw [groups]
                  exact ExtTreeMap.getElem?_insert_self
                have last := heldBy_setGroup called voq.1 _ ((g.pop voq.2 top).releaseVOQ top.dst
                  voq.2 (called.getBufferDst top.dst)) between weight
                have first := heldBy_setGroup s voq.1 g (g.pop voq.2 top) known weight
                have middle : called.heldBy weight =
                    (s.setGroup voq.1 (g.pop voq.2 top)).heldBy weight := by
                  rw [Upstream.heldBy, Upstream.heldBy, groups]
                  simp only [setGroup, frame.voqGroups]
                have popped := @VOQGroup.sent_heldBy g voq.2 (called.getBufferDst top.dst) top rest
                  head weight
                simp only at last ⊢
                omega
              · have value := counts dst
                refine Eq.trans value ?_
                have same : (checked.setGroup voq.1 (g.pop voq.2 top)).getBufferDst dst =
                    s.getBufferDst dst := frame.getBufferDst dst
                rw [same]
            · trivial
          · exact frame

/-- `CheckVOQWin`: a packet passes, at most with another PSN, or joins a VOQ. -/
theorem checkVOQWin_contents (pkt : Packet) (outDev qIndex : Nat) :
    Holds (fun _ => True)
      (fun routed => match routed.1 with
        | some p => Frame s routed.2 ∧ (p = pkt ∨ ∃ psn, p = pkt.setPsn psn)
        | none => pkt.isUdp = true ∧ ∃ checked, Frame s checked ∧
            Stores checked ⟨pkt, pkt.dip, outDev, qIndex⟩ routed.2)
      (s.checkVOQWin c pkt outDev qIndex) := by
  unfold checkVOQWin
  split
  · rename_i data
    apply ((shouldIgnore_input c pkt.dip).weaken fun _ _ => trivial).bind
    intro ignore _ _
    split
    · exact ⟨Frame.refl s, .inl rfl⟩
    · apply ((checkDstWin_frame c s pkt.dip pkt.size).weaken fun _ _ => trivial).bind
      rintro ⟨room, checked⟩ _ ⟨frame, _⟩
      simp only at frame ⊢
      split
      · apply ((updateDstWin_frame c checked pkt.dip pkt.size false).weaken fun _ _ => trivial).bind
        intro passed _ later
        split
        · exact ⟨(frame.trans later).trans ⟨rfl, rfl, fun _ => id⟩, .inr ⟨_, rfl⟩⟩
        · exact ⟨frame.trans later, .inl rfl⟩
      · apply (bufferPacket_stores (c := c) (s := checked) _).bind
        intro buffered _ stores
        exact ⟨data, checked, frame, stores⟩
  · exact ⟨Frame.refl s, .inl rfl⟩

end Operations

end Floodgate.Upstream
