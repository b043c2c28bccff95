import Floodgate.VoqLedger

/-! A VOQ that fills up while its destination has too little window, for any number of packets: the
byte counts are kept in 32 bits and wrap. -/

namespace Floodgate

open Std Outcome LabelledRun

def kiloPacket : Packet where
  size := 1024
  sip := 2
  dip := 1
  pg := 3
  flowId := some 1
  body := .udp none none
  size_pos := by decide
  size_lt := by decide
  pg_lt := by decide

def smallPacket : Packet :=
  { kiloPacket with
    size := 500
    size_pos := by decide
    size_lt := by decide }

def kiloReturn : Packet :=
  { kiloPacket with
    sip := 1
    dip := 0
    body := .switchAck (SwitchACKTag.setAckedSize 1024) }

def smallUnit : PacketUnit := ⟨smallPacket, 1, 2, 3⟩

def smallEvent : FloodgateEvent := .data smallPacket rfl 2 3

def kiloUnit : PacketUnit := ⟨kiloPacket, 1, 2, 3⟩

def kiloEvent : FloodgateEvent := .data kiloPacket rfl 2 3

namespace Upstream

def filledGroup (config : VOQGroupConfig) (assigned : ExtTreeMap Nat Nat) (id n : Nat) :
    VOQGroup where
  config := config
  voqs := (∅ : ExtTreeMap Nat (List PacketUnit)).insert id (List.replicate n kiloUnit)
  dst2voq := assigned
  voqBuffer := (∅ : ExtTreeMap Nat Nat).insert id (Word32.trunc (1024 * n))

/-- The switch with `n` packets for host 1 in VOQ `id` of group 0 and a window of `size` bytes. -/
def filled (config : VOQGroupConfig) (assigned : ExtTreeMap Nat Nat) (id size n : Nat) :
    Upstream where
  wins := (∅ : ExtTreeMap Nat Nat).insert 1 size
  buffering := (∅ : ExtTreeMap Nat Nat).insert 1 (Word32.trunc (1024 * n))
  voqGroups := (∅ : ExtTreeMap Nat VOQGroup).insert 0 (filledGroup config assigned id n)
  nxtDataPsn := fun _ _ => 0
  rcvAckPsn := fun _ _ => 0

section Filling

variable {config : VOQGroupConfig} {assigned : ExtTreeMap Nat Nat} {id size n : Nat}

@[simp] theorem filled_win : (filled config assigned id size n).win 1 = size := by
  simp [win, filled]

@[simp] theorem filled_getBufferDst :
    (filled config assigned id size n).getBufferDst 1 = Word32.trunc (1024 * n) := by
  simp [getBufferDst, filled]

@[simp] theorem filled_group :
    (filled config assigned id size n).voqGroups[0]? = some (filledGroup config assigned id n) := by
  simp [filled]

@[simp] theorem filledGroup_packets :
    (filledGroup config assigned id n).packets id = List.replicate n kiloUnit := by
  simp [filledGroup, VOQGroup.packets]

theorem filled_voqPackets :
    (filled config assigned id size n).voqPackets (0, id) = List.replicate n kiloUnit := by
  simp only [voqPackets, filled_group, filledGroup_packets]

theorem filledGroup_enqueue :
    (filledGroup config assigned id n).enqueue id kiloUnit =
      filledGroup config assigned id (n + 1) := by
  have bytes : (filledGroup config assigned id n).bufferBytes id = Word32.trunc (1024 * n) := by
    simp [filledGroup, VOQGroup.bufferBytes]
  unfold VOQGroup.enqueue
  rw [filledGroup_packets, bytes, ← List.replicate_succ',
    show kiloUnit.pkt.size = 1024 from rfl, Word32.add_trunc]
  simp only [filledGroup, MapSum.insert_insert, Nat.mul_succ]

theorem filled_arrival {c : UpstreamConfig} (rule : c.dst2group 1 = .group 0)
    (credit : c.settings.switchAbsolutePsn = false) (small : size < 1024)
    (found : (filledGroup config assigned id n).findVOQId 1 = some id) :
    (filled config assigned id size n).handle c kiloEvent =
      .ok ([], filled config assigned id size (n + 1)) := by
  have known : 1 ∈ (filled config assigned id size n).wins := by simp [filled]
  have data : kiloPacket.isUdp = true := rfl
  have dst : kiloPacket.dip = 1 := rfl
  have length : kiloPacket.size = 1024 := rfl
  have check := checkDstWin_known (c := c) known 1024 (fun on => by simp [credit] at on)
  have full : (filled config assigned id size n).fits c 1 1024 = false := by
    simp [fits, credit, small]
  have stored : id ∈ (filledGroup config assigned id n).voqs := by simp [filledGroup]
  have opened : (filledGroup config assigned id n).getVOQ 1 =
      .ok (id, filledGroup config assigned id n) := by
    simp [VOQGroup.getVOQ, VOQGroup.getVOQId, found, stored]
  have next : (filled config assigned id size n).bufferPacket c kiloUnit =
      .ok (filled config assigned id size (n + 1)) := by
    simp only [bufferPacket, groupOf, show kiloUnit.dst = 1 from rfl, rule, filled_group, ok_bind,
      opened, filledGroup_enqueue, updateBufferingCount, if_true,
      show kiloUnit.pkt.size = 1024 from rfl]
    have count : ((filled config assigned id size n).setGroup 0
        (filledGroup config assigned id (n + 1))).getBufferDst 1 = Word32.trunc (1024 * n) :=
      (filled_getBufferDst : (filled config assigned id size n).getBufferDst 1 = _)
    rw [count, Word32.add_trunc]
    simp only [setGroup, filled, MapSum.insert_insert, Nat.mul_succ]
  rw [full] at check
  simp only [handle, checkVOQWin, kiloEvent, data, if_true, UpstreamConfig.shouldIgnore, dst, rule,
    ok_bind, Bool.false_eq_true, if_false, length, check, Bool.false_and]
  rw [show (⟨kiloPacket, 1, 2, 3⟩ : PacketUnit) = kiloUnit from rfl, next]
  rfl

/-- A packet that fits the window passes the waiting ones when their count has wrapped to 0. -/
theorem filled_overtaken {c : UpstreamConfig} (rule : c.dst2group 1 = .group 0)
    (credit : c.settings.switchAbsolutePsn = false) (room : 500 ≤ size)
    (wrapped : Word32.trunc (1024 * n) = 0) :
    ∃ after : Upstream,
      (filled config assigned id size n).handle c smallEvent = .ok ([smallUnit], after) := by
  have known : 1 ∈ (filled config assigned id size n).wins := by simp [filled]
  have check := checkDstWin_known (c := c) known 500 (fun on => by simp [credit] at on)
  have fitting : (filled config assigned id size n).fits c 1 500 = true := by
    simp [fits, credit, room]
  have window := updateDstWin_credit credit rule known 500
  have data : smallPacket.isUdp = true := rfl
  have dst : smallPacket.dip = 1 := rfl
  have length : smallPacket.size = 500 := rfl
  rw [fitting] at check
  refine ⟨{ filled config assigned id size n with
    wins := (filled config assigned id size n).wins.insert 1
      (Word32.sub ((filled config assigned id size n).win 1) 500) }, ?_⟩
  have unbuffered : (filled config assigned id size n).getBufferDst 1 = 0 :=
    filled_getBufferDst.trans wrapped
  simp only [handle, checkVOQWin, smallEvent, data, if_true, UpstreamConfig.shouldIgnore, dst, rule,
    ok_bind, Bool.false_eq_true, if_false, length, check, unbuffered, beq_self_eq_true,
    Bool.and_self, window, credit]
  rfl

theorem filled_check {c : UpstreamConfig} (credit : c.settings.switchAbsolutePsn = false)
    (pktSize : Nat) :
    (filled config assigned id size n).checkDstWin c 1 pktSize =
      .ok (!decide (size < pktSize), filled config assigned id size n) := by
  have known : 1 ∈ (filled config assigned id size n).wins := by simp [filled]
  rw [checkDstWin_known known pktSize fun on => by simp [credit] at on]
  simp [fits, credit]

theorem filled_setWin (larger : Nat) :
    ({ filled config assigned id size n with
      wins := (filled config assigned id size n).wins.insert 1 larger } : Upstream) =
      filled config assigned id larger n := by
  simp only [filled, MapSum.insert_insert]

theorem filled_refused {c : UpstreamConfig} (credit : c.settings.switchAbsolutePsn = false)
    (small : size < 1024) :
    (filled config assigned id size (n + 1)).checkAndSendOne c (0, id) =
      .ok (none, filled config assigned id size (n + 1)) := by
  have length : kiloUnit.pkt.size = 1024 := rfl
  have dst : kiloUnit.dst = 1 := rfl
  simp [checkAndSendOne, List.replicate_succ, length, dst, filled_check credit, small]

/-- When the count of what is left has wrapped to 0, dynamic hashing forgets the VOQ. -/
theorem filled_forgotten {c : UpstreamConfig} (rule : c.dst2group 1 = .group 0)
    (credit : c.settings.switchAbsolutePsn = false) (dynamic : config.dynamicHash = true)
    (found : ∀ n, (filledGroup config assigned id n).findVOQId 1 = some id)
    (wrapped : Word32.trunc (1024 * (n + 1)) = 0) :
    (filled config assigned id 1024 (n + 2)).checkAndSendOne c (0, id) =
      .ok (some kiloUnit, filled config (assigned.erase 1) id 0 (n + 1)) := by
  have length : kiloUnit.pkt.size = 1024 := rfl
  have dst : kiloUnit.dst = 1 := rfl
  have less : Word32.sub (Word32.trunc (1024 * (n + 2))) 1024 = Word32.trunc (1024 * (n + 1)) := by
    have left : 1024 * (n + 2) - 1024 = 1024 * (n + 1) := by omega
    rw [Word32.sub_trunc _ _ (by decide) (by omega), left]
  have popped : (filledGroup config assigned id (n + 2)).pop id kiloUnit =
      filledGroup config assigned id (n + 1) := by
    have bytes : (filledGroup config assigned id (n + 2)).bufferBytes id =
        Word32.trunc (1024 * (n + 2)) := by
      simp [filledGroup, VOQGroup.bufferBytes]
    unfold VOQGroup.pop
    rw [filledGroup_packets, bytes, length, less]
    simp only [filledGroup, MapSum.insert_insert, List.replicate_succ, List.tail_cons]
  have called : ((filled config assigned id 1024 (n + 2)).setGroup 0
      (filledGroup config assigned id (n + 1))).voqDequeueCallback c kiloUnit =
      .ok (kiloUnit, filled config assigned id 0 (n + 1)) := by
    have known : 1 ∈ ((filled config assigned id 1024 (n + 2)).setGroup 0
        (filledGroup config assigned id (n + 1))).wins := by simp [filled, setGroup]
    simp only [voqDequeueCallback, credit, Bool.false_eq_true, if_false, dst, length,
      updateDstWin_credit credit rule known, ok_bind, updateBufferingCount]
    simp [filled, setGroup, getBufferDst, win, MapSum.insert_insert, less]
    exact ⟨rfl, rfl⟩
  have forgotten : (filledGroup config assigned id (n + 1)).releaseVOQ 1 id 0 =
      filledGroup config (assigned.erase 1) id (n + 1) := by
    have dynamic' : (filledGroup config assigned id (n + 1)).config.dynamicHash = true := dynamic
    simp [VOQGroup.releaseVOQ, dynamic', List.replicate_succ]
    rfl
  have unbuffered : (filled config assigned id 0 (n + 1)).getBufferDst 1 = 0 :=
    filled_getBufferDst.trans wrapped
  have released : (filled config assigned id 0 (n + 1)).setGroup 0
      (filledGroup config (assigned.erase 1) id (n + 1)) =
      filled config (assigned.erase 1) id 0 (n + 1) := by
    simp only [setGroup, filled, MapSum.insert_insert]
  unfold checkAndSendOne
  simp only [filled_group, filledGroup_packets, List.replicate_succ (n := n + 1), dst, length,
    filled_check credit, Nat.lt_irrefl, decide_false, Bool.not_false, ok_bind, if_true, popped,
    found, called, unbuffered, forgotten, released]

def kiloAck : FloodgateEvent := .ack (SwitchACKTag.setAckedSize 1024) 1 2

theorem filled_restored {c : UpstreamConfig} (rule : c.dst2group 1 = .group 0)
    (credit : c.settings.switchAbsolutePsn = false)
    (mode : c.settings.switchAckMode = .switchDstCredit) :
    (filled config assigned id 0 n).restoreWin c (SwitchACKTag.setAckedSize 1024) 1 2 =
      .ok (filled config assigned id 1024 n) := by
  have acked : (SwitchACKTag.setAckedSize 1024).getAckedSize = 1024 := rfl
  have known : (filled config assigned id 0 n).wins.contains 1 = true := by simp [filled]
  have total : Word32.add 0 (Word32.trunc 1024) = 1024 := rfl
  simp only [restoreWin, mode, resumeDst, acked, credit, Bool.false_eq_true, if_false, updateDstWin,
    UpstreamConfig.shouldIgnore, rule, ok_bind, if_true, known, filled_win, total, filled_setWin]

theorem filled_first_ack {c : UpstreamConfig} (rule : c.dst2group 1 = .group 0)
    (credit : c.settings.switchAbsolutePsn = false)
    (mode : c.settings.switchAckMode = .switchDstCredit) (dynamic : config.dynamicHash = true)
    (found : ∀ n, (filledGroup config assigned id n).findVOQId 1 = some id)
    (wrapped : Word32.trunc (1024 * (n + 1)) = 0) :
    (filled config assigned id 0 (n + 2)).handle c kiloAck =
      .ok ([kiloUnit], filled config (assigned.erase 1) id 0 (n + 1)) := by
  have stored : (filledGroup config assigned id (n + 2)).voqs.contains id = true := by
    simp [filledGroup]
  have search : (filled config assigned id 1024 (n + 2)).findVOQ c 1 = .ok (some (0, id)) := by
    simp only [findVOQ, groupOf, rule, filled_group, ok_bind, VOQGroup.findVOQ, found, stored,
      if_true, Option.map_some]
  have sent : checkAndSendAll c (0, id) (n + 2) (filled config assigned id 1024 (n + 2)) =
      .ok ([kiloUnit], filled config (assigned.erase 1) id 0 (n + 1)) := by
    simp only [checkAndSendAll, filled_forgotten rule credit dynamic found wrapped, ok_bind,
      filled_refused credit (by decide : 0 < 1024)]
  simp only [handle, kiloAck, resumeVOQWin, filled_restored rule credit mode, ok_bind, drain, mode,
    checkAndSendDst, UpstreamConfig.shouldIgnore, rule, Bool.false_eq_true, if_false, search,
    filled_voqPackets, List.length_replicate, sent]

theorem filled_second_ack {c : UpstreamConfig} (rule : c.dst2group 1 = .group 0)
    (credit : c.settings.switchAbsolutePsn = false)
    (mode : c.settings.switchAckMode = .switchDstCredit)
    (lost : (filledGroup config assigned id n).findVOQId 1 = none)
    (wrapped : Word32.trunc (1024 * n) = 0) :
    (filled config assigned id 0 n).handle c kiloAck =
      .ok ([], filled config assigned id 1024 n) := by
  have search : (filled config assigned id 1024 n).findVOQ c 1 = .ok none := by
    simp only [findVOQ, groupOf, rule, filled_group, ok_bind, VOQGroup.findVOQ, lost,
      Option.map_none]
  simp only [handle, kiloAck, resumeVOQWin, filled_restored rule credit mode, ok_bind, drain, mode,
    checkAndSendDst, UpstreamConfig.shouldIgnore, rule, Bool.false_eq_true, if_false, search,
    filled_getBufferDst, wrapped, if_true]

end Filling

end Upstream

def narrow (mode : AckMode) (config : VOQGroupConfig) (size : Nat) (size_lt : size < Word32.size) :
    UpstreamConfig where
  settings :=
    { hostNum := 3
      hostPerRack := 1
      torNum := 3
      packetPayload := 1000
      switchAckMode := mode
      resetOnlyToRSwitchWin := false
      switchByteCounter := 1
      switchCreditInterval := 0
      switchAckThM := 0
      switchAbsolutePsn := false
      switchAckCreditBit := 8
      switchAckIdBit := 8
      switchPsnBit := 8
      hostNum_le := by decide
      packetPayload_lt := by decide }
  dst2group := fun dst => if dst = 1 then .group 0 else .ignored
  bdpMap := fun dst => if dst = 1 then some size else none
  groups := (∅ : ExtTreeMap Nat VOQGroupConfig).insert 0 config
  group_known := by
    intro dst id rule
    by_cases host : dst = 1
    · rw [if_pos host] at rule
      simp [(DstRule.group.inj rule).symm]
    · rw [if_neg host] at rule
      contradiction
  bdpMap_lt := by
    intro dst win known
    by_cases host : dst = 1
    · rw [if_pos host] at known
      exact Option.some.inj known ▸ size_lt
    · rw [if_neg host] at known
      contradiction

def unlimited : VOQGroupConfig := ⟨0, false, by decide, by decide⟩

def oneDynamic : VOQGroupConfig := ⟨1, true, by decide, by decide⟩

namespace Upstream

theorem filledGroup_heldBy (config : VOQGroupConfig) (assigned : ExtTreeMap Nat Nat) (id n : Nat) :
    (filledGroup config assigned id n).heldBy (ofDst 1) = 1024 * n := by
  have total := MapSum.sumBy_insert (fun _ units => (units.map (ofDst 1)).sum)
    (∅ : ExtTreeMap Nat (List PacketUnit)) id (List.replicate n kiloUnit)
  have weight : (List.replicate n kiloUnit).map (ofDst 1) = List.replicate n 1024 := by
    rw [List.map_replicate]
    rfl
  rw [MapSum.sumBy_empty, weight, List.sum_replicate_nat] at total
  simpa [MapSum.entry, VOQGroup.heldBy, filledGroup, Nat.mul_comm] using total

theorem filled_run {c : UpstreamConfig} {config : VOQGroupConfig} {assigned : ExtTreeMap Nat Nat}
    {id size : Nat} (rule : c.dst2group 1 = .group 0)
    (credit : c.settings.switchAbsolutePsn = false) (small : size < 1024)
    (found : ∀ n, (filledGroup config assigned id n).findVOQId 1 = some id) (n : Nat) :
    Run (Step c) (filled config assigned id size 1) (List.replicate n (kiloEvent, []))
      (filled config assigned id size (n + 1)) := by
  induction n with
  | zero => exact .nil
  | succ n ih =>
      rw [List.replicate_succ']
      exact ih.snoc (filled_arrival rule credit small (found (n + 1)))

theorem first_unlimited :
    (Upstream.init (narrow .switchDstCredit unlimited 1000 (by decide))).handle
      (narrow .switchDstCredit unlimited 1000 (by decide)) kiloEvent =
      .ok ([], filled unlimited ∅ 1 1000 1) := rfl

theorem unlimited_run (n : Nat) :
    Run (Step (narrow .switchDstCredit unlimited 1000 (by decide)))
      (Upstream.init (narrow .switchDstCredit unlimited 1000 (by decide)))
      ([(kiloEvent, [])] ++ List.replicate n (kiloEvent, []))
      (filled unlimited ∅ 1 1000 (n + 1)) :=
  (Run.single first_unlimited).append (filled_run rfl rfl (by decide) (fun _ => rfl) n)

def oneAssigned : ExtTreeMap Nat Nat := (∅ : ExtTreeMap Nat Nat).insert 1 0

def dynamicConfig : UpstreamConfig := narrow .switchDstCredit oneDynamic 1024 (by decide)

/-- The switch after its window has let one packet through. -/
def exhausted : Upstream :=
  { Upstream.init dynamicConfig with wins := (∅ : ExtTreeMap Nat Nat).insert 1 0 }

theorem first_dynamic :
    (Upstream.init dynamicConfig).handle dynamicConfig kiloEvent = .ok ([kiloUnit], exhausted) :=
  rfl

theorem second_dynamic :
    exhausted.handle dynamicConfig kiloEvent = .ok ([], filled oneDynamic oneAssigned 0 0 1) := rfl

/-- One packet passes, 2^22 + 1 are buffered, and two ACKs arrive for them. -/
theorem dynamic_run :
    ∃ labels, Run (Step dynamicConfig) (Upstream.init dynamicConfig) labels
      (filled oneDynamic (oneAssigned.erase 1) 0 1024 4194304) := by
  have passed : Step dynamicConfig (Upstream.init dynamicConfig) (kiloEvent, [kiloUnit])
      exhausted := first_dynamic
  have opened : Step dynamicConfig exhausted (kiloEvent, [])
      (filled oneDynamic oneAssigned 0 0 1) := second_dynamic
  have filling : Run (Step dynamicConfig) (filled oneDynamic oneAssigned 0 0 1)
      (List.replicate 4194304 (kiloEvent, [])) (filled oneDynamic oneAssigned 0 0 (4194304 + 1)) :=
    filled_run rfl rfl (by decide) (fun _ => rfl) 4194304
  have sent : Step dynamicConfig (filled oneDynamic oneAssigned 0 0 (4194303 + 2))
      (kiloAck, [kiloUnit]) (filled oneDynamic (oneAssigned.erase 1) 0 0 (4194303 + 1)) :=
    filled_first_ack rfl rfl rfl rfl (fun _ => rfl) (by decide)
  have ignored : Step dynamicConfig (filled oneDynamic (oneAssigned.erase 1) 0 0 4194304)
      (kiloAck, []) (filled oneDynamic (oneAssigned.erase 1) 0 1024 4194304) :=
    filled_second_ack rfl rfl rfl rfl (by decide)
  exact ⟨_, (((((Run.single passed).snoc opened).append filling).snoc sent).snoc ignored)⟩

theorem unlimited_overtaken :
    ∃ after : Upstream, (filled unlimited ∅ 1 1000 4194304).handle
      (narrow .switchDstCredit unlimited 1000 (by decide)) smallEvent = .ok ([smallUnit], after) :=
  filled_overtaken rfl rfl (by decide) (by decide)

end Upstream

end Floodgate
