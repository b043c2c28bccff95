import Floodgate.VoqLedger

/-! The steps of the upstream half from a consistent state, each described once. -/

namespace Floodgate.Upstream

open Std Outcome

/-- The VOQ side of buffering `unit` in `voq`. -/
structure Buffers (c : UpstreamConfig) (s : Upstream) (voq : Nat × Nat) (unit : PacketUnit)
    (after : Upstream) : Prop where
  packets : ∀ other, after.voqPackets other =
    if other = voq then s.voqPackets other ++ [unit] else s.voqPackets other
  queued : ∀ dst, after.queued c dst =
    if dst = unit.dst then s.queued c dst ++ [unit] else s.queued c dst
  heldBy : ∀ weight, after.heldBy weight = s.heldBy weight + weight unit
  wins : after.wins = s.wins
  nxtDataPsn : after.nxtDataPsn = s.nxtDataPsn
  rcvAckPsn : after.rcvAckPsn = s.rcvAckPsn
  consistent : after.heldBytes < Word32.size → Consistent c after

/-- Sending the head `top` of `voq`, which leaves as `unit`. -/
structure Sends (c : UpstreamConfig) (s : Upstream) (voq : Nat × Nat) (top unit : PacketUnit)
    (after : Upstream) : Prop where
  head : ∃ rest, s.voqPackets voq = top :: rest
  room : s.fits c top.dst top.pkt.size = true
  packets : ∀ other, after.voqPackets other =
    if other = voq then (s.voqPackets other).tail else s.voqPackets other
  first : ∃ later, s.queued c top.dst = top :: later
  queued : ∀ dst, after.queued c dst =
    if dst = top.dst then (s.queued c dst).tail else s.queued c dst
  heldBy : ∀ weight, after.heldBy weight + weight top = s.heldBy weight
  passes : Passes c s top.outDev top.dst top.pkt unit.pkt after
  unit : unit = { top with pkt := unit.pkt }
  consistent : Consistent c after

section Steps

variable {c : UpstreamConfig} {s : Upstream}

theorem Consistent.group_exists (consistent : Consistent c s) {dst gid : Nat}
    (rule : c.dst2group dst = .group gid) : ∃ g, s.voqGroups[gid]? = some g := by
  have known := c.group_known dst gid rule
  have same := consistent.configured gid
  cases found : s.voqGroups[gid]? with
  | some g => exact ⟨g, rfl⟩
  | none =>
      rw [found, Option.map_none, eq_comm] at same
      exact absurd known (by simpa using same)

theorem getBufferDst_le (consistent : Consistent c s) (dst : Nat) :
    s.getBufferDst dst ≤ s.heldBytes := by
  have part := MapSum.entry_le_sumBy (fun _ bytes => bytes) s.buffering dst
  rw [consistent.total] at part
  unfold getBufferDst
  cases known : s.buffering[dst]? with
  | none => exact Nat.zero_le _
  | some bytes => simpa [MapSum.entry, known] using part

theorem getBufferDst_insert (dst bytes other : Nat) :
    (({ s with buffering := s.buffering.insert dst bytes }) : Upstream).getBufferDst other =
      if other = dst then bytes else s.getBufferDst other :=
  MapSum.getD_insert _ _ _ _ _

theorem total_insert (dst bytes : Nat) :
    MapSum.sumBy (fun _ bytes => bytes) (s.buffering.insert dst bytes) + s.getBufferDst dst =
      MapSum.sumBy (fun _ bytes => bytes) s.buffering + bytes := by
  have change := MapSum.sumBy_insert (fun _ bytes => bytes) s.buffering dst bytes
  have old : MapSum.entry (fun _ bytes => bytes) s.buffering dst = s.getBufferDst dst := by
    unfold MapSum.entry getBufferDst
    cases s.buffering[dst]? <;> rfl
  rwa [old] at change

def setLedger (s : Upstream) (gid : Nat) (g : VOQGroup) (dst bytes : Nat) : Upstream :=
  { s with
    voqGroups := s.voqGroups.insert gid g
    buffering := s.buffering.insert dst bytes }

theorem setLedger_queued {gid : Nat} {after : VOQGroup} (dst bytes other : Nat) :
    (s.setLedger gid after dst bytes).queued c other =
      if c.dst2group other = .group gid then after.queued other else s.queued c other := by
  by_cases here : c.dst2group other = .group gid
  · rw [if_pos here]
    apply queued_group here
    simp only [setLedger, MapSum.lookup_insert, if_true]
  · rw [if_neg here]
    unfold queued
    cases rule : c.dst2group other with
    | unset => rfl
    | ignored => rfl
    | group id =>
        have different : id ≠ gid := fun same => here (rule.trans (same ▸ rfl))
        simp only [setLedger, MapSum.lookup_insert, if_neg different]

section Stored

variable {unit : PacketUnit} {gid id : Nat} {g opened : VOQGroup}

/-- `unit` has been put into the VOQ `id` of the group `gid`, which is `opened` for it. -/
def stored (s : Upstream) (gid id : Nat) (opened : VOQGroup) (unit : PacketUnit) : Upstream :=
  s.setLedger gid (opened.enqueue id unit) unit.dst
    (Word32.add (s.getBufferDst unit.dst) unit.pkt.size)

variable (known : s.voqGroups[gid]? = some g) (opens : VOQGroup.Opened g unit.dst id opened)

include known opens

theorem stored_packets (other : Nat × Nat) : (stored s gid id opened unit).voqPackets other =
    if other = (gid, id) then s.voqPackets other ++ [unit] else s.voqPackets other := by
  obtain ⟨i, j⟩ := other
  have moved := voqPackets_setGroup s gid (opened.enqueue id unit) (i, j)
  rw [show (stored s gid id opened unit).voqPackets (i, j) =
    (s.setGroup gid (opened.enqueue id unit)).voqPackets (i, j) from rfl, moved]
  by_cases here : i = gid
  · subst here
    have old : ∀ k, s.voqPackets (i, k) = g.packets k := by
      intro k
      simp only [voqPackets, known]
    simp only [if_true, opens.enqueue_packets, old, Prod.mk.injEq, true_and]
    split
    · rename_i same
      rw [same]
    · rfl
  · simp only [Prod.mk.injEq, here, false_and, if_false]

theorem stored_heldBy (weight : PacketUnit → Nat) :
    (stored s gid id opened unit).heldBy weight = s.heldBy weight + weight unit := by
  have change := heldBy_setGroup s gid g (opened.enqueue id unit) known weight
  rw [opens.heldBy] at change
  have same : (stored s gid id opened unit).heldBy weight =
    (s.setGroup gid (opened.enqueue id unit)).heldBy weight := rfl
  omega

variable (consistent : Consistent c s) (rule : c.dst2group unit.dst = .group gid)

include consistent rule

theorem stored_queued (dst : Nat) : (stored s gid id opened unit).queued c dst =
    if dst = unit.dst then s.queued c dst ++ [unit] else s.queued c dst := by
  have group := consistent.group gid g known
  unfold stored
  rw [setLedger_queued]
  by_cases here : c.dst2group dst = .group gid
  · rw [if_pos here, opens.queued group, queued_group here known]
  · rw [if_neg here, if_neg]
    intro same
    exact here (same ▸ rule)

theorem stored_consistent (registered : unit.dst ∈ s.wins)
    (small : (stored s gid id opened unit).heldBytes < Word32.size) :
    Consistent c (stored s gid id opened unit) := by
  have packets := stored_packets known opens
  have heldBy := stored_heldBy known opens
  have queued := stored_queued known opens consistent rule
  have grown : s.heldBytes + unit.pkt.size < Word32.size := by
    rw [heldBytes, heldBy] at small
    exact small
  have buffered := getBufferDst_le consistent unit.dst
  have added : Word32.add (s.getBufferDst unit.dst) unit.pkt.size =
      s.getBufferDst unit.dst + unit.pkt.size := Word32.add_eq _ _ (by omega)
  have counts : ∀ dst, (stored s gid id opened unit).getBufferDst dst =
      if dst = unit.dst then s.getBufferDst unit.dst + unit.pkt.size else s.getBufferDst dst := by
    intro dst
    rw [← added]
    exact getBufferDst_insert _ _ _
  have lookup : ∀ i : Nat, (stored s gid id opened unit).voqGroups[i]? =
      if i = gid then some (opened.enqueue id unit) else s.voqGroups[i]? := by
    intro i
    simp only [stored, setLedger, MapSum.lookup_insert]
  constructor
  case configured =>
    intro i
    rw [lookup]
    split
    · rename_i here
      rw [here, ← consistent.configured, known]
      exact congrArg some opens.config
    · exact consistent.configured i
  case group =>
    intro i other found
    rw [lookup] at found
    split at found
    · obtain rfl := Option.some.inj found
      apply (consistent.group gid g known).enqueue opens
      have part := VOQGroup.packets_le_heldBy g (fun unit => unit.pkt.size) id
      have whole := heldBy_le s gid g known fun unit => unit.pkt.size
      unfold heldBytes at grown
      unfold PacketUnit.bytes
      omega
    · exact consistent.group i other found
  case home =>
    intro voq other member
    rw [packets] at member
    split at member
    · rename_i here
      rcases List.mem_append.mp member with earlier | new
      · exact consistent.home voq other earlier
      · rw [List.mem_singleton.mp new, here]
        exact rule
    · exact consistent.home voq other member
  case buffered =>
    intro dst
    rw [counts, queued]
    split
    · rename_i same
      rw [PacketUnit.bytes_append, same, ← consistent.buffered]
      simp
    · exact consistent.buffered dst
  case counted =>
    intro dst
    rw [counts, heldBy, ofDst]
    split
    · rename_i same
      rw [if_pos same.symm, same, consistent.counted]
    · rename_i different
      rw [if_neg (Ne.symm different), consistent.counted, Nat.add_zero]
  case total =>
    have change := total_insert (s := s) unit.dst (s.getBufferDst unit.dst + unit.pkt.size)
    rw [consistent.total, ← added] at change
    rw [heldBytes, heldBy, ← heldBytes]
    simp only [stored, setLedger]
    omega
  case small => exact small
  case registered =>
    intro voq other member
    rw [packets] at member
    split at member
    · rcases List.mem_append.mp member with earlier | new
      · exact consistent.registered voq other earlier
      · rw [List.mem_singleton.mp new]
        exact registered
    · exact consistent.registered voq other member

end Stored

theorem bufferPacket_buffers (consistent : Consistent c s) {unit : PacketUnit} {gid : Nat}
    (rule : c.dst2group unit.dst = .group gid) (registered : unit.dst ∈ s.wins) :
    ∃ voq after, s.bufferPacket c unit = .ok after ∧ Buffers c s voq unit after := by
  obtain ⟨g, known⟩ := consistent.group_exists rule
  obtain ⟨id, opened, found, opens⟩ := (consistent.group gid g known).getVOQ_opens unit.dst
  have result : s.bufferPacket c unit = .ok (stored s gid id opened unit) := by
    simp only [bufferPacket, groupOf, rule, known, ok_bind, found]
    rfl
  exact ⟨(gid, id), _, result, stored_packets known opens,
    stored_queued known opens consistent rule, stored_heldBy known opens, rfl, rfl, rfl,
    stored_consistent known opens consistent rule registered⟩

theorem voqDequeueCallback_passes {unit : PacketUnit} {gid : Nat}
    (rule : c.dst2group unit.dst = .group gid) (known : unit.dst ∈ s.wins)
    (counted : unit.dst ∈ s.buffering) :
    Holds Assertion.OfInput
      (fun called => Passes c s unit.outDev unit.dst unit.pkt called.1.pkt called.2 ∧
        called.1 = { unit with pkt := called.1.pkt } ∧ called.2.voqGroups = s.voqGroups ∧
        called.2.buffering = s.buffering.insert unit.dst
          (Word32.sub (s.getBufferDst unit.dst) unit.pkt.size))
      (s.voqDequeueCallback c unit) := by
  have present : s.buffering.contains unit.dst = true := ExtTreeMap.contains_iff_mem.mpr counted
  unfold voqDequeueCallback
  cases mode : c.settings.switchAbsolutePsn with
  | false =>
      simp only [Bool.false_eq_true, if_false, updateDstWin_credit mode rule known, ok_bind,
        updateBufferingCount, present, if_true]
      exact ⟨.credit mode rfl rfl rfl, rfl, rfl, rfl⟩
  | true =>
      simp only [if_true]
      have numbered : unit.dst ∈ (s.updateDataPSN c unit.outDev unit.dst unit.pkt).2.wins := known
      rw [updateDstWin_psn mode rule numbered]
      split
      · have kept : (s.updateDataPSN c unit.outDev unit.dst unit.pkt).2.buffering.contains
            unit.dst = true := present
        simp only [ok_bind, updateBufferingCount, kept, if_true, Bool.false_eq_true, if_false]
        exact ⟨.psn mode rfl rfl rfl, rfl, rfl, rfl⟩
      · trivial

/-- What one attempt on a VOQ does. -/
inductive Attempt (c : UpstreamConfig) (s : Upstream) (voq : Nat × Nat) :
    Option PacketUnit → Upstream → Prop
  | idle (empty : s.voqPackets voq = []) : Attempt c s voq none s
  | refused {top : PacketUnit} {rest : List PacketUnit} (head : s.voqPackets voq = top :: rest)
      (full : s.fits c top.dst top.pkt.size = false)
      (ordered : c.settings.switchAbsolutePsn = true → s.inflightOrdered top.dst = true) :
      Attempt c s voq none s
  | sent {top unit : PacketUnit} {after : Upstream} (sends : Sends c s voq top unit after) :
      Attempt c s voq (some unit) after

theorem Attempt.consistent (consistent : Consistent c s) {voq : Nat × Nat}
    {sent : Option PacketUnit} {after : Upstream} (attempt : Attempt c s voq sent after) :
    Consistent c after := by
  cases attempt with
  | idle => exact consistent
  | refused => exact consistent
  | sent sends => exact sends.consistent

/-- The head `top` of `voq` has left its group `g`, and the callback has returned `called`. -/
structure Popped (s : Upstream) (voq : Nat × Nat) (g : VOQGroup) (top : PacketUnit)
    (rest : List PacketUnit) (called : Upstream) : Prop where
  known : s.voqGroups[voq.1]? = some g
  head : g.packets voq.2 = top :: rest
  groups : called.voqGroups = (s.setGroup voq.1 (g.pop voq.2 top)).voqGroups
  bytes : called.buffering = s.buffering.insert top.dst
    (Word32.sub (s.getBufferDst top.dst) top.pkt.size)

/-- The state after the head has been sent, with its VOQ given back where it is empty. -/
def afterSend (voq : Nat × Nat) (g : VOQGroup) (top : PacketUnit) (called : Upstream) : Upstream :=
  called.setGroup voq.1 ((g.pop voq.2 top).releaseVOQ top.dst voq.2 (called.getBufferDst top.dst))

section Popped

variable {voq : Nat × Nat} {g : VOQGroup} {top : PacketUnit} {rest : List PacketUnit}
  {called : Upstream} (popped : Popped s voq g top rest called)

include popped

theorem Popped.voqPackets : s.voqPackets voq = top :: rest := by
  simp only [Upstream.voqPackets, popped.known, popped.head]

theorem Popped.lookup (i : Nat) : (afterSend voq g top called).voqGroups[i]? =
    if i = voq.1 then some ((g.pop voq.2 top).releaseVOQ top.dst voq.2 (called.getBufferDst top.dst))
    else s.voqGroups[i]? := by
  simp only [afterSend, setGroup, popped.groups, MapSum.lookup_insert]
  split
  · rfl
  · rfl

theorem Popped.packets (other : Nat × Nat) : (afterSend voq g top called).voqPackets other =
    if other = voq then (s.voqPackets other).tail else s.voqPackets other := by
  obtain ⟨gid, id⟩ := voq
  obtain ⟨i, j⟩ := other
  simp only [Upstream.voqPackets, popped.lookup]
  by_cases here : i = gid
  · subst here
    have known : s.voqGroups[i]? = some g := popped.known
    have head : g.packets id = top :: rest := popped.head
    simp only [if_true, known, Prod.mk.injEq, true_and]
    rw [VOQGroup.sent_packets head]
    split
    · rename_i same
      rw [same, head, List.tail_cons]
    · rfl
  · simp only [Prod.mk.injEq, here, false_and, if_false]

theorem Popped.heldBy (weight : PacketUnit → Nat) :
    (afterSend voq g top called).heldBy weight + weight top = s.heldBy weight := by
  have change := MapSum.sumBy_change (fun _ g => VOQGroup.heldBy g weight)
    (afterSend voq g top called).voqGroups s.voqGroups voq.1 fun i different => by
      simp only [MapSum.entry, popped.lookup, if_neg different]
  rw [MapSum.entry, MapSum.entry, popped.known, popped.lookup, if_pos rfl] at change
  simp only [Option.elim_some] at change
  have sent : ((g.pop voq.2 top).releaseVOQ top.dst voq.2
      (called.getBufferDst top.dst)).heldBy weight + weight top = g.heldBy weight :=
    VOQGroup.sent_heldBy popped.head weight
  unfold Upstream.heldBy
  omega

variable (consistent : Consistent c s)

include consistent

theorem Popped.rule : c.dst2group top.dst = .group voq.1 :=
  consistent.home voq top (by simp [popped.voqPackets])

theorem Popped.first :
    s.queued c top.dst = top :: rest.filter fun unit => unit.dst = top.dst := by
  rw [queued_group (popped.rule consistent) popped.known]
  exact (consistent.group voq.1 g popped.known).queued_head popped.head

theorem Popped.counts (dst : Nat) : called.getBufferDst dst =
    if dst = top.dst then PacketUnit.bytes (rest.filter fun unit => unit.dst = top.dst)
    else s.getBufferDst dst := by
  have held := consistent.buffered top.dst
  rw [popped.first consistent, PacketUnit.bytes_cons] at held
  have limit := getBufferDst_le consistent top.dst
  have small := consistent.small
  have removed : Word32.sub (s.getBufferDst top.dst) top.pkt.size =
      PacketUnit.bytes (rest.filter fun unit => unit.dst = top.dst) := by
    rw [Word32.sub_eq _ _ (by omega) (by omega)]
    omega
  rw [← removed, getBufferDst, popped.bytes]
  exact MapSum.getD_insert _ _ _ _ _

theorem Popped.left : called.getBufferDst top.dst =
    PacketUnit.bytes (rest.filter fun unit => unit.dst = top.dst) := by
  rw [popped.counts consistent, if_pos rfl]

theorem Popped.queued (dst : Nat) : (afterSend voq g top called).queued c dst =
    if dst = top.dst then (s.queued c dst).tail else s.queued c dst := by
  by_cases here : c.dst2group dst = .group voq.1
  · rw [queued_group here (by rw [popped.lookup, if_pos rfl]), queued_group here popped.known]
    exact (consistent.group voq.1 g popped.known).queued_sent popped.head
      (popped.left consistent) dst
  · have leaves : dst ≠ top.dst := by
      rintro rfl
      exact here (popped.rule consistent)
    rw [if_neg leaves]
    unfold Upstream.queued
    cases other : c.dst2group dst with
    | unset => rfl
    | ignored => rfl
    | group i =>
        have different : i ≠ voq.1 := fun same => here (other.trans (same ▸ rfl))
        simp only [popped.lookup, if_neg different]

theorem Popped.buffered (dst : Nat) : (afterSend voq g top called).getBufferDst dst =
    PacketUnit.bytes ((afterSend voq g top called).queued c dst) := by
  have count : (afterSend voq g top called).getBufferDst dst = called.getBufferDst dst := rfl
  rw [count, popped.counts consistent, popped.queued consistent]
  split
  · rename_i same
    rw [same, popped.first consistent, List.tail_cons]
  · exact consistent.buffered dst

theorem Popped.counted (dst : Nat) : (afterSend voq g top called).getBufferDst dst =
    (afterSend voq g top called).heldBy (ofDst dst) := by
  have count : (afterSend voq g top called).getBufferDst dst = called.getBufferDst dst := rfl
  have held := consistent.buffered top.dst
  rw [popped.first consistent, PacketUnit.bytes_cons] at held
  have change := popped.heldBy (ofDst dst)
  have before := consistent.counted dst
  rw [count, popped.counts consistent]
  unfold ofDst at change before ⊢
  by_cases same : dst = top.dst
  · subst same
    rw [if_pos rfl]
    simp only [if_true] at change
    omega
  · rw [if_neg same]
    rw [if_neg (Ne.symm same)] at change
    omega

theorem Popped.total :
    MapSum.sumBy (fun _ bytes => bytes) (afterSend voq g top called).buffering =
      (afterSend voq g top called).heldBytes := by
  have limit := getBufferDst_le consistent top.dst
  have held := consistent.buffered top.dst
  rw [popped.first consistent, PacketUnit.bytes_cons] at held
  have small := consistent.small
  have removed := Word32.sub_eq (s.getBufferDst top.dst) top.pkt.size (by omega) (by omega)
  have change := total_insert (s := s) top.dst (Word32.sub (s.getBufferDst top.dst) top.pkt.size)
  have moved := popped.heldBy fun unit => unit.pkt.size
  have total := consistent.total
  rw [show (afterSend voq g top called).buffering = called.buffering from rfl, popped.bytes]
  unfold heldBytes at *
  omega

theorem Popped.afterwards (grows : ∀ dst ∈ s.wins, dst ∈ called.wins) :
    Consistent c (afterSend voq g top called) := by
  have group := consistent.group voq.1 g popped.known
  constructor
  case configured =>
    intro i
    rw [popped.lookup]
    split
    · rename_i here
      rw [here, ← consistent.configured, popped.known]
      simp
    · exact consistent.configured i
  case group =>
    intro i other found
    rw [popped.lookup] at found
    split at found
    · obtain rfl := Option.some.inj found
      refine (group.send popped.head (popped.left consistent) ?_).2
      have part := bytes_le_heldBytes s voq
      have small := consistent.small
      rw [popped.voqPackets] at part
      rw [popped.head]
      omega
    · exact consistent.group i other found
  case home =>
    intro other unit inside
    rw [popped.packets] at inside
    split at inside
    · exact consistent.home other unit (List.mem_of_mem_tail inside)
    · exact consistent.home other unit inside
  case buffered => exact popped.buffered consistent
  case counted => exact popped.counted consistent
  case total => exact popped.total consistent
  case small =>
    have moved := popped.heldBy fun unit => unit.pkt.size
    have small := consistent.small
    unfold heldBytes at *
    omega
  case registered =>
    intro other unit inside
    rw [popped.packets] at inside
    split at inside
    · exact grows _ (consistent.registered other unit (List.mem_of_mem_tail inside))
    · exact grows _ (consistent.registered other unit inside)

theorem Popped.sends {unit : PacketUnit} (room : s.fits c top.dst top.pkt.size = true)
    (passes : Passes c (s.setGroup voq.1 (g.pop voq.2 top)) top.outDev top.dst top.pkt unit.pkt
      called)
    (same : unit = { top with pkt := unit.pkt }) :
    Sends c s voq top unit (afterSend voq g top called) :=
  ⟨⟨rest, popped.voqPackets⟩, room, popped.packets, ⟨_, popped.first consistent⟩,
    popped.queued consistent, popped.heldBy, passes.congr ⟨rfl, rfl, rfl⟩ ⟨rfl, rfl, rfl⟩, same,
    popped.afterwards consistent fun _ member => passes.registered member⟩

end Popped

theorem checkAndSendOne_attempt (consistent : Consistent c s) (voq : Nat × Nat) :
    Holds Assertion.OfInput (fun sent => Attempt c s voq sent.1 sent.2)
      (s.checkAndSendOne c voq) := by
  unfold checkAndSendOne
  cases known : s.voqGroups[voq.1]? with
  | none => exact .idle (by simp only [voqPackets, known])
  | some g =>
      simp only
      cases head : g.packets voq.2 with
      | nil => exact .idle (by simp only [voqPackets, known, head])
      | cons top rest =>
          have here : s.voqPackets voq = top :: rest := by simp only [voqPackets, known, head]
          have member : top ∈ s.voqPackets voq := by simp [here]
          have rule := consistent.home voq top member
          have registered := consistent.registered voq top member
          apply (checkDstWin_frame c s top.dst top.pkt.size).bind
          intro checked success _
          obtain ⟨result, ordered, unchanged⟩ := checkDstWin_ok success
          obtain ⟨room, state⟩ := checked
          obtain rfl : state = s := unchanged registered
          simp only at result ordered
          cases room with
          | false => exact .refused here result.symm ordered
          | true =>
              have group := consistent.group voq.1 g known
              have found : (g.pop voq.2 top).findVOQId top.dst = some voq.2 :=
                group.located voq.2 top (by simp [head])
              have counted : top.dst ∈ state.buffering := by
                by_contra absent
                have none : state.buffering[top.dst]? = none := by simpa using absent
                have held := consistent.buffered top.dst
                rw [queued_group rule known, group.queued_head head, PacketUnit.bytes_cons,
                  getBufferDst, none] at held
                have positive := top.pkt.size_pos
                simp only [Option.getD_none] at held
                omega
              simp only [if_true, found]
              apply (voqDequeueCallback_passes (s := state.setGroup voq.1 (g.pop voq.2 top)) rule
                registered counted).bind
              intro called _ facts
              obtain ⟨passes, same, groups, bytes⟩ := facts
              have popped : Popped state voq g top rest called.2 := ⟨known, head, groups, bytes⟩
              exact .sent (popped.sends consistent result.symm passes same)

/-- What `CheckVOQWin` does with a packet: it passes as it is, passes through its window, or waits
in a VOQ. -/
inductive Arrives (c : UpstreamConfig) (s : Upstream) (pkt : Packet) (outDev qIndex : Nat) :
    Option Packet → Upstream → Prop
  | control (other : pkt.isUdp = false) : Arrives c s pkt outDev qIndex (some pkt) s
  | ignored (data : pkt.isUdp = true) (rule : c.dst2group pkt.dip = .ignored) :
      Arrives c s pkt outDev qIndex (some pkt) s
  | passed {gid : Nat} {registered after : Upstream} {pkt' : Packet} (data : pkt.isUdp = true)
      (rule : c.dst2group pkt.dip = .group gid)
      (check : s.checkDstWin c pkt.dip pkt.size = .ok (true, registered))
      (frame : Frame s registered) (known : pkt.dip ∈ registered.wins)
      (empty : s.getBufferDst pkt.dip = 0)
      (passes : Passes c registered outDev pkt.dip pkt pkt' after) (same : Frame registered after) :
      Arrives c s pkt outDev qIndex (some pkt') after
  | buffered {gid : Nat} {voq : Nat × Nat} {room : Bool} {registered after : Upstream}
      (data : pkt.isUdp = true) (rule : c.dst2group pkt.dip = .group gid)
      (check : s.checkDstWin c pkt.dip pkt.size = .ok (room, registered))
      (frame : Frame s registered) (known : pkt.dip ∈ registered.wins)
      (blocked : room = false ∨ s.getBufferDst pkt.dip ≠ 0)
      (buffers : Buffers c registered voq ⟨pkt, pkt.dip, outDev, qIndex⟩ after) :
      Arrives c s pkt outDev qIndex none after

theorem checkVOQWin_arrives (consistent : Consistent c s) (pkt : Packet) (outDev qIndex : Nat) :
    Holds Assertion.OfInput (fun routed => Arrives c s pkt outDev qIndex routed.1 routed.2)
      (s.checkVOQWin c pkt outDev qIndex) := by
  unfold checkVOQWin
  by_cases data : pkt.isUdp
  case neg =>
    rw [if_neg data]
    exact .control (by simpa using data)
  rw [if_pos data]
  apply (shouldIgnore_input c pkt.dip).bind
  rintro ignore _ (⟨rfl, rule⟩ | ⟨rfl, gid, rule⟩)
  · exact .ignored data rule
  simp only [Bool.false_eq_true, if_false]
  apply (checkDstWin_frame c s pkt.dip pkt.size).bind
  rintro ⟨room, registered⟩ success ⟨frame, known⟩
  simp only at frame known ⊢
  have buffering := frame.getBufferDst pkt.dip
  by_cases passing : room = true ∧ s.getBufferDst pkt.dip = 0
  · obtain ⟨rfl, empty⟩ := passing
    simp only [buffering, empty, beq_self_eq_true, Bool.and_self, if_true]
    cases mode : c.settings.switchAbsolutePsn with
    | false =>
        rw [updateDstWin_credit mode rule known]
        exact .passed data rule success frame known empty (.credit mode rfl rfl rfl)
          (Frame.setWins registered _ _)
    | true =>
        rw [updateDstWin_psn mode rule known]
        split
        · exact .passed data rule success frame known empty (.psn mode rfl rfl rfl)
            ⟨rfl, rfl, fun _ member => member⟩
        · trivial
  · have blocked : room = false ∨ s.getBufferDst pkt.dip ≠ 0 := by
      cases room with
      | false => exact .inl rfl
      | true => exact .inr fun empty => passing ⟨rfl, empty⟩
    have refused : (room && registered.getBufferDst pkt.dip == 0) = false := by
      rw [buffering]
      rcases blocked with full | waiting
      · rw [full, Bool.false_and]
      · rw [beq_eq_false_iff_ne.mpr waiting, Bool.and_false]
    simp only [refused, Bool.false_eq_true, if_false]
    let unit : PacketUnit := ⟨pkt, pkt.dip, outDev, qIndex⟩
    have home : c.dst2group unit.dst = .group gid := rule
    obtain ⟨voq, after, result, buffers⟩ := bufferPacket_buffers (consistent.frame frame) home known
    rw [result]
    exact .buffered data rule success frame known blocked buffers

inductive Drains (c : UpstreamConfig) : Upstream → List PacketUnit → Upstream → Prop
  | nil (s : Upstream) : Drains c s [] s
  | sent {s middle finish : Upstream} {voq : Nat × Nat} {top unit : PacketUnit}
      {units : List PacketUnit} (performed : s.checkAndSendOne c voq = .ok (some unit, middle))
      (sends : Sends c s voq top unit middle) (rest : Drains c middle units finish) :
      Drains c s (unit :: units) finish

theorem Drains.consistent {units : List PacketUnit} {after : Upstream}
    (drains : Drains c s units after) (consistent : Consistent c s) : Consistent c after := by
  induction drains with
  | nil => exact consistent
  | sent _ sends _ ih => exact ih sends.consistent

theorem Drains.append {first second : List PacketUnit} {middle after : Upstream}
    (before : Drains c s first middle) (later : Drains c middle second after) :
    Drains c s (first ++ second) after := by
  induction before with
  | nil => exact later
  | sent performed sends _ ih => exact .sent performed sends (ih later)

theorem checkAndSendAll_drains (voq : Nat × Nat) (rounds : Nat) (consistent : Consistent c s) :
    Holds Assertion.OfInput (fun sent => Drains c s sent.1 sent.2)
      (checkAndSendAll c voq rounds s) := by
  induction rounds generalizing s with
  | zero => exact .nil s
  | succ rounds ih =>
      unfold checkAndSendAll
      apply (checkAndSendOne_attempt consistent voq).bind
      rintro ⟨sent, middle⟩ performed attempt
      cases attempt with
      | idle => exact .nil _
      | refused => exact .nil _
      | sent sends =>
          apply (ih sends.consistent).bind
          intro rest _ drains
          exact .sent performed sends drains

theorem findVOQ_holds (consistent : Consistent c s) {dst gid : Nat}
    (rule : c.dst2group dst = .group gid) :
    Holds Assertion.OfInput
      (fun found => match found with
        | some voq => voq.1 = gid ∧ ∀ other, ∀ unit ∈ s.voqPackets other, unit.dst = dst → other = voq
        | none => s.queued c dst = [] ∧ ∀ voq, ∀ unit ∈ s.voqPackets voq, unit.dst ≠ dst)
      (s.findVOQ c dst) := by
  obtain ⟨g, known⟩ := consistent.group_exists rule
  have located : ∀ voq, ∀ unit ∈ s.voqPackets voq, unit.dst = dst →
      voq.1 = gid ∧ g.findVOQId dst = some voq.2 ∧ voq.2 ∈ g.voqs := by
    rintro ⟨i, j⟩ unit member target
    have home := consistent.home (i, j) unit member
    rw [target, rule] at home
    obtain rfl : gid = i := DstRule.group.inj home
    simp only [voqPackets, known] at member
    have found := (consistent.group gid g known).located j unit member
    rw [target] at found
    exact ⟨rfl, found, VOQGroup.packets_mem g j (List.ne_nil_of_mem member)⟩
  simp only [findVOQ, groupOf, rule, known, ok_bind, holds_ok, VOQGroup.findVOQ]
  cases found : g.findVOQId dst with
  | none =>
      refine ⟨by rw [queued_group rule known, VOQGroup.queued_none found], ?_⟩
      intro voq unit member target
      have facts := located voq unit member target
      rw [found] at facts
      exact absurd facts.2.1 (by simp)
  | some id =>
      by_cases stored : id ∈ g.voqs
      · simp only [ExtTreeMap.contains_iff_mem.mpr stored, if_true, Option.map_some]
        refine ⟨trivial, ?_⟩
        rintro ⟨i, j⟩ unit member target
        obtain ⟨group, same, _⟩ := located (i, j) unit member target
        rw [found] at same
        exact Prod.ext group (Option.some.inj same).symm
      · have absent : g.voqs.contains id = false := by
          simpa [← ExtTreeMap.contains_iff_mem] using stored
        simp only [absent, Bool.false_eq_true, if_false, Option.map_none]
        have empty : g.packets id = [] := by
          by_contra nonempty
          exact stored (VOQGroup.packets_mem g id nonempty)
        refine ⟨by rw [queued_group rule known, VOQGroup.queued_found found, empty]; rfl, ?_⟩
        intro voq unit member target
        obtain ⟨_, same, inside⟩ := located voq unit member target
        rw [found] at same
        obtain rfl := Option.some.inj same
        exact stored inside

theorem checkAndSendDst_drains (consistent : Consistent c s) (dst : Nat) :
    Holds Assertion.OfInput (fun sent => Drains c s sent.1 sent.2) (s.checkAndSendDst c dst) := by
  unfold checkAndSendDst
  apply (shouldIgnore_input c dst).bind
  rintro ignore _ (⟨rfl, rule⟩ | ⟨rfl, gid, rule⟩)
  · exact .nil s
  simp only [Bool.false_eq_true, if_false]
  apply (findVOQ_holds consistent rule).bind
  intro found _ facts
  cases found with
  | some voq => exact checkAndSendAll_drains voq _ consistent
  | none =>
      have empty : s.getBufferDst dst = 0 := by
        rw [consistent.buffered, facts.1, PacketUnit.bytes_nil]
      simp only [empty, if_true]
      exact .nil s

theorem sendFirstRound_drains (dsts : List Nat) (consistent : Consistent c s) :
    Holds Assertion.OfInput (fun sent => Drains c s sent.2.1 sent.2.2)
      (sendFirstRound c dsts s) := by
  induction dsts generalizing s with
  | nil => exact .nil s
  | cons dst rest ih =>
      unfold sendFirstRound
      split
      · apply (shouldIgnore_input c dst).bind
        rintro ignore _ (⟨rfl, rule⟩ | ⟨rfl, gid, rule⟩)
        · exact .nil s
        simp only [Bool.false_eq_true, if_false]
        apply (findVOQ_holds consistent rule).bind
        intro found _ _
        cases found with
        | none => exact ih consistent
        | some voq =>
            apply (checkAndSendOne_attempt consistent voq).bind
            rintro ⟨sent, middle⟩ performed attempt
            cases attempt with
            | idle => exact ih consistent
            | refused => exact ih consistent
            | sent sends =>
                apply (ih sends.consistent).bind
                intro later _ drains
                exact .sent performed sends drains
      · exact ih consistent

theorem sendRoundRobin_drains (rounds : Nat) (left : List (Nat × Nat))
    (consistent : Consistent c s) :
    Holds Assertion.OfInput (fun sent => Drains c s sent.1 sent.2)
      (sendRoundRobin c rounds left s) := by
  induction rounds generalizing s left with
  | zero => exact .nil s
  | succ rounds ih =>
      cases left with
      | nil => exact .nil s
      | cons voq left =>
          unfold sendRoundRobin
          apply (checkAndSendOne_attempt consistent voq).bind
          rintro ⟨sent, middle⟩ performed attempt
          cases attempt with
          | idle => exact ih left consistent
          | refused => exact ih left consistent
          | sent sends =>
              apply (ih (left ++ [voq]) sends.consistent).bind
              intro later _ drains
              exact .sent performed sends drains

theorem checkAndSendVOQ_drains (consistent : Consistent c s) :
    Holds Assertion.OfInput (fun sent => Drains c s sent.1 sent.2) (s.checkAndSendVOQ c) := by
  unfold checkAndSendVOQ
  apply (sendFirstRound_drains s.wins.keys consistent).bind
  rintro ⟨left, sent, middle⟩ _ first
  cases left with
  | none => exact first
  | some left =>
      apply (sendRoundRobin_drains _ left (first.consistent consistent)).bind
      intro later _ second
      exact first.append second

theorem drain_drains (consistent : Consistent c s) (sip : Nat) :
    Holds Assertion.OfInput (fun sent => Drains c s sent.1 sent.2) (s.drain c sip) := by
  unfold drain
  split
  · exact checkAndSendVOQ_drains consistent
  · exact checkAndSendDst_drains consistent sip

theorem resumeVOQWin_drains (consistent : Consistent c s) (tag : SwitchACKTag) (sip inDev : Nat) :
    Holds Assertion.OfInput
      (fun sent => ∃ restored, s.restoreWin c tag sip inDev = .ok restored ∧ Frame s restored ∧
        Drains c restored sent.1 sent.2)
      (s.resumeVOQWin c tag sip inDev) := by
  unfold resumeVOQWin
  apply (restoreWin_frame c s tag sip inDev).bind
  intro restored success frame
  exact (drain_drains (consistent.frame frame) sip).mono fun _ _ drains =>
    ⟨restored, success, frame, drains⟩

end Steps

end Floodgate.Upstream
