import Floodgate.DestinationOrder
import Floodgate.VoqContents
import Floodgate.WindowInvariant

/-! Windows registered under the id of the destination's ToR: what `CheckDstWin` reads afterwards,
and which keys the drain visits. -/

namespace Floodgate

open Std Outcome LabelledRun

/-- Packets and ACKs carry host addresses. -/
def FloodgateEvent.FromHosts (c : UpstreamConfig) : FloodgateEvent → Prop
  | .data pkt _ _ _ => pkt.dip < c.settings.hostNum
  | .ack _ sip _ => sip < c.settings.hostNum

def FloodgateEvent.creditFor (c : UpstreamConfig) (dst : Nat) : FloodgateEvent → Nat
  | .data _ _ _ _ => 0
  | .ack tag sip _ =>
      match c.settings.switchAckMode with
      | .switchIngressCredit =>
          if dst < c.settings.hostNum then Word32.trunc (tag.getACKEntry dst) else 0
      | _ => if sip = dst then Word32.trunc tag.getAckedSize else 0

/-- Only the windows of source ToRs are reset, by switch-ACKs. -/
structure OnlyTors (c : UpstreamConfig) : Prop where
  tors : c.settings.resetOnlyToRSwitchWin = true
  acks : c.settings.switchAckMode ≠ .hostPerPacketAck

def UpstreamConfig.Grouped (c : UpstreamConfig) (dst : Nat) : Prop :=
  ∃ gid, c.dst2group dst = .group gid

namespace Upstream

def HostStep (c : UpstreamConfig) (s : Upstream) (label : FloodgateEvent × List PacketUnit)
    (after : Upstream) : Prop :=
  label.1.FromHosts c ∧ Step c s label after

def bytesTo (dst : Nat) (units : List PacketUnit) : Nat := (units.map (ofDst dst)).sum

/-- The bytes for `dst` that went out over a run, and the credit for it that came back. -/
def sentTo (dst : Nat) (labels : List (FloodgateEvent × List PacketUnit)) : Nat :=
  bytesTo dst (handedOver labels)

def creditedFor (c : UpstreamConfig) (dst : Nat)
    (labels : List (FloodgateEvent × List PacketUnit)) : Nat :=
  (labels.map fun label => label.1.creditFor c dst).sum

def NothingOutstanding (c : UpstreamConfig) (labels : List (FloodgateEvent × List PacketUnit))
    (s : Upstream) (dst : Nat) : Prop :=
  if c.settings.switchAbsolutePsn then
    ∀ i < switchScale, s.nxtDataPsn i dst = s.rcvAckPsn i dst
  else sentTo dst labels = creditedFor c dst labels

/-- A window of `bdp` for `dst`: what its first use leaves in the entry that `CheckDstWin` reads,
and what passes while nothing is outstanding. -/
structure WindowRight (c : UpstreamConfig) (labels : List (FloodgateEvent × List PacketUnit))
    (s : Upstream) (dst bdp : Nat) : Prop where
  check : dst ∉ s.wins → ∀ pktSize checked, s.checkDstWin c dst pktSize = .ok checked →
    checked.2.win dst = bdp
  update : dst ∉ s.wins → ∀ pktSize isAdd after, s.updateDstWin c dst pktSize isAdd = .ok after →
    after.win dst = if c.settings.switchAbsolutePsn then bdp else Word32.sub bdp pktSize
  neverBlocked : NothingOutstanding c labels s dst → ∀ pktSize ≤ bdp,
    ∃ after, s.checkDstWin c dst pktSize = .ok (true, after)

/-- Every key of `m_wins` has an entry in `m_dst2group`, and the round-robin drain does not miss
one, neither begun from the state nor from what an ACK makes of it. -/
structure KeysKnown (c : UpstreamConfig) (s : Upstream) : Prop where
  keys : ∀ key ∈ s.wins, c.dst2group key ≠ .unset
  drain : s.checkAndSendVOQ c ≠ .error .dst2groupKnown
  restored : ∀ tag sip inDev restored, sip < c.settings.hostNum →
    s.restoreWin c tag sip inDev = .ok restored →
    restored.checkAndSendVOQ c ≠ .error .dst2groupKnown

/-- The id of the ToR is known to `m_dst2group` when a packet is the first to use a window. -/
def FirstUseKnown (c : UpstreamConfig) (s : Upstream) : FloodgateEvent → Prop
  | .data pkt _ _ _ => c.Grouped pkt.dip → pkt.dip ∉ s.wins →
      c.dst2group (c.settings.hostNum + pkt.dip / c.settings.hostPerRack) ≠ .unset
  | .ack _ _ _ => True

section Bytes

variable (dst : Nat)

@[simp] theorem bytesTo_nil : bytesTo dst [] = 0 := rfl

@[simp] theorem bytesTo_cons (unit : PacketUnit) (units : List PacketUnit) :
    bytesTo dst (unit :: units) = ofDst dst unit + bytesTo dst units := by
  simp [bytesTo]

@[simp] theorem bytesTo_append (first second : List PacketUnit) :
    bytesTo dst (first ++ second) = bytesTo dst first + bytesTo dst second := by
  simp [bytesTo]

theorem sentTo_snoc (labels : List (FloodgateEvent × List PacketUnit))
    (label : FloodgateEvent × List PacketUnit) :
    sentTo dst (labels ++ [label]) = sentTo dst labels + bytesTo dst label.2 := by
  simp [sentTo, handedOver]

theorem creditedFor_snoc (c : UpstreamConfig) (labels : List (FloodgateEvent × List PacketUnit))
    (label : FloodgateEvent × List PacketUnit) :
    creditedFor c dst (labels ++ [label]) =
      creditedFor c dst labels + label.1.creditFor c dst := by
  simp [creditedFor]

end Bytes

section FirstUse

variable {c : UpstreamConfig} {s : Upstream} {dst : Nat}

theorem winKey_tor (mode : OnlyTors c) (dst : Nat) :
    winKey c dst = c.settings.hostNum + dst / c.settings.hostPerRack := by
  unfold winKey
  rw [if_pos ⟨mode.acks, mode.tors⟩]

theorem ne_winKey (mode : OnlyTors c) (host : dst < c.settings.hostNum) (other : Nat) :
    dst ≠ winKey c other := by
  rw [winKey_tor mode]
  exact Nat.ne_of_lt (Nat.lt_of_lt_of_le host (Nat.le_add_right _ _))

/-- The state after the first use of `dst`, with its window under `key`. -/
def register (s : Upstream) (key size dst : Nat) : Upstream :=
  ({ s with wins := s.wins.insert key size }).touchWin dst

theorem register_mem {key size : Nat} (other : Nat) :
    other ∈ (s.register key size dst).wins ↔ other = dst ∨ other = key ∨ other ∈ s.wins := by
  simp only [register, touchWin, ExtTreeMap.mem_insertIfNew, ExtTreeMap.mem_insert,
    LawfulEqOrd.compare_eq_iff_eq, eq_comm (b := other)]

theorem register_win {key size other : Nat} (different : other ≠ key) :
    (s.register key size dst).win other = s.win other := by
  unfold register
  rw [touchWin_win]
  exact (setWins_other different).win

theorem win_unknown (unknown : dst ∉ s.wins) : s.win dst = 0 := by
  have none : s.wins[dst]? = none := by simpa using unknown
  rw [win, none]
  rfl

theorem ensureRegisteredWin_first (unknown : dst ∉ s.wins) {registered : Upstream}
    (success : s.ensureRegisteredWin c dst = .ok registered) :
    ∃ size, c.bdpMap (winKey c dst) = some size ∧
      registered = { s with wins := s.wins.insert (winKey c dst) size } := by
  unfold ensureRegisteredWin at success
  rw [if_neg fun known => unknown (ExtTreeMap.contains_iff_mem.mp known)] at success
  cases defined : c.bdpMap (winKey c dst) with
  | none =>
      rw [defined] at success
      contradiction
  | some size =>
      rw [defined] at success
      refine ⟨size, rfl, ?_⟩
      by_cases absolute : c.settings.switchAbsolutePsn
      · simp only [absolute, if_true] at success
        obtain ⟨_, _, success⟩ := bind_ok.mp success
        exact (Except.ok.inj success).symm
      · simp only [absolute, if_false, Bool.false_eq_true] at success
        exact (Except.ok.inj success).symm

theorem ensureRegisteredWin_defined (unknown : dst ∉ s.wins) {size : Nat}
    (defined : c.bdpMap (winKey c dst) = some size)
    (ordered : s.inflightOrdered (winKey c dst) = true) :
    s.ensureRegisteredWin c dst =
      .ok { s with wins := s.wins.insert (winKey c dst) size } := by
  unfold ensureRegisteredWin
  rw [if_neg fun known => unknown (ExtTreeMap.contains_iff_mem.mp known), defined]
  have same : ({ s with wins := s.wins.insert (winKey c dst) size } : Upstream).inflightOrdered
      (winKey c dst) = true := ordered
  simp only [getInflightBytes, same, if_true, ok_bind, ite_self]

theorem checkDstWin_first (unknown : dst ∉ s.wins) {pktSize : Nat} {checked : Bool × Upstream}
    (success : s.checkDstWin c dst pktSize = .ok checked) :
    ∃ size, c.bdpMap (winKey c dst) = some size ∧
      checked.2 = s.register (winKey c dst) size dst := by
  unfold checkDstWin at success
  obtain ⟨registered, found, success⟩ := bind_ok.mp success
  obtain ⟨size, defined, rfl⟩ := ensureRegisteredWin_first unknown found
  refine ⟨size, defined, ?_⟩
  by_cases absolute : c.settings.switchAbsolutePsn
  · simp only [absolute, if_true] at success
    obtain ⟨_, _, success⟩ := bind_ok.mp success
    exact (Except.ok.inj success) ▸ rfl
  · simp only [absolute, if_false, Bool.false_eq_true] at success
    exact (Except.ok.inj success) ▸ rfl

theorem checkDstWin_defined (unknown : dst ∉ s.wins) {size : Nat}
    (defined : c.bdpMap (winKey c dst) = some size) (pktSize : Nat)
    (ordered : s.inflightOrdered (winKey c dst) = true)
    (own : s.inflightOrdered dst = true) :
    s.checkDstWin c dst pktSize =
      .ok ((s.register (winKey c dst) size dst).fits c dst pktSize,
        s.register (winKey c dst) size dst) := by
  unfold checkDstWin fits
  rw [ensureRegisteredWin_defined unknown defined ordered, ok_bind]
  have measured : (s.register (winKey c dst) size dst).getInflightBytes dst =
      .ok ((s.register (winKey c dst) size dst).inflightBytes dst) := if_pos own
  by_cases absolute : c.settings.switchAbsolutePsn
  · simp only [absolute, if_true]
    exact bind_ok.mpr ⟨_, measured, rfl⟩
  · simp only [absolute, if_false, Bool.false_eq_true]
    rfl

theorem shouldIgnore_grouped (grouped : c.Grouped dst) : c.shouldIgnore dst = .ok false := by
  obtain ⟨gid, rule⟩ := grouped
  simp [UpstreamConfig.shouldIgnore, rule]

theorem updateDstWin_absolute (absolute : c.settings.switchAbsolutePsn = true)
    (grouped : c.Grouped dst) {pktSize : Nat} {isAdd : Bool} {after : Upstream}
    (success : s.updateDstWin c dst pktSize isAdd = .ok after) : after = s.touchWin dst := by
  unfold updateDstWin at success
  simp only [shouldIgnore_grouped grouped, ok_bind, Bool.false_eq_true, if_false, absolute,
    if_true] at success
  obtain ⟨_, _, success⟩ := bind_ok.mp success
  exact (Except.ok.inj success).symm

theorem updateDstWin_add (credit : c.settings.switchAbsolutePsn = false)
    (grouped : c.Grouped dst) {pktSize : Nat} {after : Upstream}
    (success : s.updateDstWin c dst pktSize true = .ok after) :
    dst ∈ s.wins ∧
      after = { s with wins := s.wins.insert dst (Word32.add (s.win dst) pktSize) } := by
  unfold updateDstWin at success
  simp only [shouldIgnore_grouped grouped, ok_bind, Bool.false_eq_true, if_false, credit,
    if_true] at success
  split at success
  · rename_i known
    exact ⟨ExtTreeMap.contains_iff_mem.mp known, (Except.ok.inj success).symm⟩
  · contradiction

theorem updateDstWin_take (credit : c.settings.switchAbsolutePsn = false)
    (grouped : c.Grouped dst) {pktSize : Nat} {after : Upstream}
    (success : s.updateDstWin c dst pktSize false = .ok after) :
    ∃ registered, s.ensureRegisteredWin c dst = .ok registered ∧
      after = { registered with
        wins := registered.wins.insert dst (Word32.sub (registered.win dst) pktSize) } := by
  unfold updateDstWin at success
  simp only [shouldIgnore_grouped grouped, ok_bind, Bool.false_eq_true, if_false, credit]
    at success
  obtain ⟨registered, found, success⟩ := bind_ok.mp success
  exact ⟨registered, found, (Except.ok.inj success).symm⟩

theorem updateDstWin_ignored (rule : c.dst2group dst = .ignored) (pktSize : Nat) (isAdd : Bool) :
    s.updateDstWin c dst pktSize isAdd = .ok s := by
  simp [updateDstWin, UpstreamConfig.shouldIgnore, rule]

end FirstUse

section Spending

/-- The windows pay for `units`, which leave VOQs: no key comes or goes. -/
structure Spends (c : UpstreamConfig) (s : Upstream) (units : List PacketUnit) (after : Upstream) :
    Prop where
  keys : ∀ key, key ∈ after.wins ↔ key ∈ s.wins
  held : ∀ voq, ∀ unit ∈ after.voqPackets voq, unit ∈ s.voqPackets voq
  absolute : c.settings.switchAbsolutePsn = true → after.wins = s.wins
  credit : c.settings.switchAbsolutePsn = false → ∀ dst,
    (after.win dst + bytesTo dst units) % Word32.size = s.win dst % Word32.size
  small : ∀ dst, s.win dst < Word32.size → after.win dst < Word32.size
  rcvAckPsn : after.rcvAckPsn = s.rcvAckPsn
  idle : ∀ dst, dst ∉ s.wins ∨ c.settings.hostNum ≤ dst → bytesTo dst units = 0 ∧
    ∀ i, after.nxtDataPsn i dst = s.nxtDataPsn i dst

/-- The packets in VOQs are for hosts of a group with a window. -/
def HeldRegistered (c : UpstreamConfig) (s : Upstream) : Prop :=
  ∀ voq, ∀ unit ∈ s.voqPackets voq,
    unit.dst < c.settings.hostNum ∧ unit.dst ∈ s.wins ∧ c.Grouped unit.dst

variable {c : UpstreamConfig} {s middle after : Upstream}

theorem Spends.refl (c : UpstreamConfig) (s : Upstream) : Spends c s [] s :=
  ⟨fun _ => Iff.rfl, fun _ _ member => member, fun _ => rfl, fun _ _ => rfl, fun _ => id, rfl,
    fun _ _ => ⟨rfl, fun _ => rfl⟩⟩

theorem Spends.trans {first second : List PacketUnit} (left : Spends c s first middle)
    (right : Spends c middle second after) : Spends c s (first ++ second) after := by
  refine ⟨fun key => (right.keys key).trans (left.keys key),
    fun voq unit member => left.held voq unit (right.held voq unit member),
    fun mode => (right.absolute mode).trans (left.absolute mode), fun mode dst => ?_,
    fun dst bound => right.small dst (left.small dst bound),
    right.rcvAckPsn.trans left.rcvAckPsn, fun dst unused => ?_⟩
  · have early := left.credit mode dst
    have late := right.credit mode dst
    rw [bytesTo_append]
    unfold Word32.size at early late ⊢
    omega
  · obtain ⟨none, same⟩ := left.idle dst unused
    obtain ⟨none', same'⟩ := right.idle dst
      (unused.imp_left fun unknown known => unknown ((left.keys dst).mp known))
    refine ⟨?_, fun i => (same' i).trans (same i)⟩
    rw [bytesTo_append, none, none']

theorem Spends.heldRegistered {units : List PacketUnit} (spends : Spends c s units after)
    (registered : HeldRegistered c s) : HeldRegistered c after := by
  intro voq unit member
  obtain ⟨host, known, grouped⟩ := registered voq unit (spends.held voq unit member)
  exact ⟨host, (spends.keys unit.dst).mpr known, grouped⟩

theorem Passes.spends {outDev dst : Nat} {pkt pkt' : Packet} {unit : PacketUnit}
    (passes : Passes c s outDev dst pkt pkt' after) (known : dst ∈ s.wins)
    (host : dst < c.settings.hostNum) (target : unit.dst = dst) (sent : unit.pkt = pkt')
    (held : ∀ voq, ∀ other ∈ after.voqPackets voq, other ∈ s.voqPackets voq) :
    Spends c s [unit] after := by
  have elsewhere : ∀ other, other ∉ s.wins ∨ c.settings.hostNum ≤ other → dst ≠ other := by
    rintro other (unknown | beyond) rfl
    · exact unknown known
    · omega
  cases passes with
  | credit mode wins nxtDataPsn rcvAckPsn =>
      refine ⟨fun key => ?_, held, fun absolute => ?_, fun _ other => ?_, fun other bound => ?_,
        rcvAckPsn,
        fun other unused => ⟨?_, fun i => by rw [nxtDataPsn]⟩⟩
      · rw [wins, ExtTreeMap.mem_insert, LawfulEqOrd.compare_eq_iff_eq]
        constructor
        · rintro (rfl | member)
          · exact known
          · exact member
        · exact .inr
      · rw [mode] at absolute
        contradiction
      · have fits := unit.pkt.size_lt
        rw [win, wins, MapSum.lookup_insert, bytesTo_cons, bytesTo_nil, ofDst, target, sent]
        by_cases same : other = dst
        · subst same
          rw [if_pos rfl, if_pos rfl, Option.getD_some, Nat.add_zero, Word32.sub]
          rw [sent] at fits
          unfold Word32.size at fits ⊢
          omega
        · rw [if_neg same, if_neg fun back => same back.symm]
          rfl
      · rw [win, wins, MapSum.lookup_insert]
        split
        · rw [Option.getD_some]
          exact Word32.sub_lt _ _
        · exact bound
      · rw [bytesTo_cons, ofDst, target, if_neg (elsewhere other unused)]
        rfl
  | psn mode wins nxtDataPsn rcvAckPsn =>
      refine ⟨fun key => by rw [wins], held, fun _ => wins, fun credit => ?_,
        fun other bound => by rwa [win, wins], rcvAckPsn,
        fun other unused => ⟨?_, fun i => ?_⟩⟩
      · rw [mode] at credit
        contradiction
      · rw [bytesTo_cons, ofDst, target, if_neg (elsewhere other unused)]
        rfl
      · rw [nxtDataPsn]
        exact setCell_other _ _ _ _ _ _ fun same => elsewhere other unused same.2.symm

theorem voqDequeueCallback_known {unit : PacketUnit} (grouped : c.Grouped unit.dst)
    (known : unit.dst ∈ s.wins) :
    Holds (· ≠ .dst2groupKnown)
      (fun called => Passes c s unit.outDev unit.dst unit.pkt called.1.pkt called.2 ∧
        called.1.dst = unit.dst ∧ called.2.voqGroups = s.voqGroups)
      (s.voqDequeueCallback c unit) := by
  obtain ⟨gid, rule⟩ := grouped
  unfold voqDequeueCallback
  cases mode : c.settings.switchAbsolutePsn with
  | false =>
      simp only [Bool.false_eq_true, if_false, updateDstWin_credit mode rule known, ok_bind,
        updateBufferingCount]
      split
      · exact ⟨.credit mode rfl rfl rfl, rfl, rfl⟩
      · intro impossible
        contradiction
  | true =>
      simp only [if_true]
      have numbered : unit.dst ∈ (s.updateDataPSN c unit.outDev unit.dst unit.pkt).2.wins := known
      rw [updateDstWin_psn mode rule numbered]
      split
      · simp only [ok_bind, updateBufferingCount, Bool.false_eq_true, if_false]
        split
        · exact ⟨.psn mode rfl rfl rfl, rfl, rfl⟩
        · intro impossible
          contradiction
      · intro impossible
        contradiction

theorem checkDstWin_registered {dst : Nat} (known : dst ∈ s.wins) (pktSize : Nat) :
    Holds (· ≠ .dst2groupKnown) (fun checked => checked.2 = s) (s.checkDstWin c dst pktSize) := by
  unfold checkDstWin
  rw [ensureRegisteredWin_known known, ok_bind, touchWin_known known]
  dsimp only
  split
  · unfold getInflightBytes
    split
    · rfl
    · exact nofun
  · rfl

theorem checkAndSendOne_spends (registered : HeldRegistered c s) (voq : Nat × Nat) :
    Holds (· ≠ .dst2groupKnown) (fun sent => Spends c s sent.1.toList sent.2)
      (s.checkAndSendOne c voq) := by
  unfold checkAndSendOne
  cases known : s.voqGroups[voq.1]? with
  | none => exact Spends.refl c s
  | some g =>
      cases head : g.packets voq.2 with
      | nil =>
          simp only [head]
          exact Spends.refl c s
      | cons top rest =>
          have here : s.voqPackets voq = top :: rest := by
            rw [voqPackets, known]
            exact head
          obtain ⟨host, member, grouped⟩ := registered voq top (by simp [here])
          simp only [head]
          apply (checkDstWin_registered member _).bind
          rintro ⟨room, checked⟩ _ same
          simp only at same
          subst same
          split
          · split
            · have popped : top.dst ∈ (checked.setGroup voq.1 (g.pop voq.2 top)).wins := member
              apply (voqDequeueCallback_known grouped popped).bind
              rintro ⟨unit, called⟩ _ ⟨passes, target, groups⟩
              have released : Passes c checked top.outDev top.dst top.pkt unit.pkt
                  (called.setGroup voq.1 ((g.pop voq.2 top).releaseVOQ top.dst voq.2
                    (called.getBufferDst top.dst))) := passes.congr ⟨rfl, rfl, rfl⟩ ⟨rfl, rfl, rfl⟩
              refine released.spends member host target rfl ?_
              intro place other inside
              rw [voqPackets_setGroup] at inside
              split at inside
              · rename_i group
                rw [VOQGroup.releaseVOQ_packets, VOQGroup.pop_packets] at inside
                have packets : checked.voqPackets place = g.packets place.2 := by
                  rw [voqPackets, group, known]
                rw [packets]
                split at inside
                · rename_i id
                  rw [id]
                  exact List.mem_of_mem_tail inside
                · exact inside
              · rename_i group
                rw [voqPackets, groups] at inside
                have packets := voqPackets_setGroup checked voq.1 (g.pop voq.2 top) place
                rw [if_neg group, voqPackets] at packets
                rw [← packets]
                exact inside
            · intro impossible
              contradiction
          · exact Spends.refl c checked

theorem checkAndSendAll_spends (voq : Nat × Nat) (rounds : Nat)
    (registered : HeldRegistered c s) :
    Holds (· ≠ .dst2groupKnown) (fun sent => Spends c s sent.1 sent.2)
      (checkAndSendAll c voq rounds s) := by
  induction rounds generalizing s with
  | zero => exact Spends.refl c s
  | succ rounds ih =>
      unfold checkAndSendAll
      apply (checkAndSendOne_spends registered voq).bind
      rintro ⟨sent, middle⟩ _ first
      cases sent with
      | none => exact first
      | some unit =>
          simp only
          apply (ih (first.heldRegistered registered)).bind
          intro later _ rest
          exact first.trans rest

/-- The first loop misses an entry of `m_dst2group` only for a key that has none. -/
theorem sendFirstRound_spends (keys : List Nat) (registered : HeldRegistered c s) :
    Holds (fun failure => failure = .dst2groupKnown → ∃ key ∈ keys, c.dst2group key = .unset)
      (fun sent => Spends c s sent.2.1 sent.2.2) (sendFirstRound c keys s) := by
  induction keys generalizing s with
  | nil => exact Spends.refl c s
  | cons key rest ih =>
      have later : ∀ {s : Upstream}, HeldRegistered c s →
          Holds (fun failure => failure = .dst2groupKnown →
            ∃ other ∈ key :: rest, c.dst2group other = .unset)
          (fun sent => Spends c s sent.2.1 sent.2.2) (sendFirstRound c rest s) := by
        intro s registered
        apply (ih registered).weaken
        intro failure missed assertion
        obtain ⟨other, member, unset⟩ := missed assertion
        exact ⟨other, List.mem_cons_of_mem _ member, unset⟩
      unfold sendFirstRound
      split
      · cases rule : c.dst2group key with
        | unset =>
            simp only [UpstreamConfig.shouldIgnore, rule, error_bind]
            exact fun _ => ⟨key, List.mem_cons_self, rule⟩
        | ignored =>
            simp only [UpstreamConfig.shouldIgnore, rule, ok_bind, if_true]
            exact Spends.refl c s
        | group gid =>
            simp only [UpstreamConfig.shouldIgnore, rule, ok_bind, Bool.false_eq_true, if_false,
              findVOQ, groupOf]
            cases s.voqGroups[gid]? with
            | none =>
                intro impossible
                contradiction
            | some g =>
                simp only [ok_bind]
                cases g.findVOQ key with
                | none => exact later registered
                | some id =>
                    simp only [Option.map_some]
                    have one := (checkAndSendOne_spends registered (gid, id)).weaken
                      fun failure other => show failure = .dst2groupKnown →
                        ∃ other ∈ key :: rest, c.dst2group other = .unset from
                        fun same => absurd same other
                    apply one.bind
                    rintro ⟨sent, middle⟩ _ first
                    cases sent with
                    | none =>
                        apply (later (first.heldRegistered registered)).mono
                        intro sent _ rest
                        exact first.trans rest
                    | some unit =>
                        simp only
                        apply (later (first.heldRegistered registered)).bind
                        intro sent _ rest
                        exact first.trans rest
      · exact later registered

theorem sendRoundRobin_spends (rounds : Nat) (left : List (Nat × Nat))
    (registered : HeldRegistered c s) :
    Holds (· ≠ .dst2groupKnown) (fun sent => Spends c s sent.1 sent.2)
      (sendRoundRobin c rounds left s) := by
  induction rounds generalizing left s with
  | zero => exact Spends.refl c s
  | succ rounds ih =>
      cases left with
      | nil => exact Spends.refl c s
      | cons voq left =>
          unfold sendRoundRobin
          apply (checkAndSendOne_spends registered voq).bind
          rintro ⟨sent, middle⟩ _ first
          cases sent with
          | none =>
              apply (ih left (first.heldRegistered registered)).mono
              intro sent _ rest
              exact first.trans rest
          | some unit =>
              simp only
              apply (ih _ (first.heldRegistered registered)).bind
              intro sent _ rest
              exact first.trans rest

theorem checkAndSendVOQ_spends (registered : HeldRegistered c s) :
    Holds (fun failure => failure = .dst2groupKnown → ∃ key ∈ s.wins, c.dst2group key = .unset)
      (fun sent => Spends c s sent.1 sent.2) (s.checkAndSendVOQ c) := by
  have first := (sendFirstRound_spends s.wins.keys registered).weaken
    fun failure missed => show failure = .dst2groupKnown →
      ∃ key ∈ s.wins, c.dst2group key = .unset from fun assertion => by
        obtain ⟨key, member, unset⟩ := missed assertion
        exact ⟨key, by simpa using member, unset⟩
  unfold checkAndSendVOQ
  apply first.bind
  rintro ⟨result, units, middle⟩ _ spends
  cases result with
  | none => exact spends
  | some left =>
      simp only
      have second := (sendRoundRobin_spends (left.length + middle.heldPackets.length) left
        (spends.heldRegistered registered)).weaken
        fun failure other => show failure = .dst2groupKnown →
          ∃ key ∈ s.wins, c.dst2group key = .unset from fun same => absurd same other
      apply second.bind
      intro sent _ rest
      exact spends.trans rest

theorem drain_spends (registered : HeldRegistered c s) (sip : Nat) :
    Holds (fun _ => True) (fun sent => Spends c s sent.1 sent.2) (s.drain c sip) := by
  unfold drain
  split
  · exact (checkAndSendVOQ_spends registered).weaken fun _ _ => trivial
  · unfold checkAndSendDst
    apply (holds_of_success fun _ _ => trivial : Holds _ (fun _ => True) _).bind
    intro ignore _ _
    split
    · exact Spends.refl c s
    · apply (holds_of_success fun _ _ => trivial : Holds _ (fun _ => True) _).bind
      intro found _ _
      cases found with
      | none =>
          simp only
          split
          · exact Spends.refl c s
          · trivial
      | some voq =>
          exact (checkAndSendAll_spends voq _ registered).weaken fun _ _ => trivial

end Spending

section Refilling

/-- An ACK brings `credit` for one destination of a group. -/
structure Refills (c : UpstreamConfig) (dst credit : Nat) (s after : Upstream) : Prop where
  kept : dst ∈ s.wins → dst ∈ after.wins
  nxtDataPsn : ∀ i, after.nxtDataPsn i dst = s.nxtDataPsn i dst
  absolute : c.settings.switchAbsolutePsn = true → after.win dst = s.win dst
  small : s.win dst < Word32.size → after.win dst < Word32.size
  credit : c.settings.switchAbsolutePsn = false →
    after.win dst % Word32.size = (s.win dst + credit) % Word32.size ∧
      (dst ∉ s.wins → credit = 0 ∧ dst ∉ after.wins)
  rcvAckPsn : dst ∉ after.wins → ∀ i, after.rcvAckPsn i dst = s.rcvAckPsn i dst

variable {c : UpstreamConfig} {s middle after : Upstream} {dst : Nat}

theorem Refills.refl (c : UpstreamConfig) (dst : Nat) (s : Upstream) : Refills c dst 0 s s :=
  ⟨id, fun _ => rfl, fun _ => rfl, id, fun _ => ⟨rfl, fun unknown => ⟨rfl, unknown⟩⟩, fun _ _ => rfl⟩

theorem Refills.trans {first second : Nat} (left : Refills c dst first s middle)
    (right : Refills c dst second middle after) : Refills c dst (first + second) s after := by
  refine ⟨fun known => right.kept (left.kept known),
    fun i => (right.nxtDataPsn i).trans (left.nxtDataPsn i),
    fun mode => (right.absolute mode).trans (left.absolute mode),
    fun bound => right.small (left.small bound), fun mode => ?_, fun unknown i => ?_⟩
  · obtain ⟨early, closed⟩ := left.credit mode
    obtain ⟨late, closed'⟩ := right.credit mode
    refine ⟨?_, fun unknown => ?_⟩
    · unfold Word32.size at early late ⊢
      omega
    · obtain ⟨none, unknown'⟩ := closed unknown
      obtain ⟨none', unknown''⟩ := closed' unknown'
      exact ⟨by rw [none, none'], unknown''⟩
  · exact (right.rcvAckPsn unknown i).trans
      (left.rcvAckPsn (fun known => unknown (right.kept known)) i)

structure RefillsOnly (c : UpstreamConfig) (dst : Nat) (s after : Upstream) : Prop where
  others : ∀ other, other ≠ dst → Refills c other 0 s after
  rows : ∀ other, other ≠ dst → ∀ i, after.rcvAckPsn i other = s.rcvAckPsn i other
  keys : ∀ key ∈ after.wins, key ∈ s.wins ∨ c.Grouped key

theorem touchWin_mem_iff (other : Nat) :
    other ∈ (s.touchWin dst).wins ↔ other = dst ∨ other ∈ s.wins := by
  simp only [touchWin, ExtTreeMap.mem_insertIfNew, LawfulEqOrd.compare_eq_iff_eq,
    eq_comm (b := other)]

theorem Refills.of_touchWin (grouped : c.Grouped dst)
    (mode : c.settings.switchAbsolutePsn = true) {before : Upstream}
    (wins : before.wins = s.wins) (nxtDataPsn : before.nxtDataPsn = s.nxtDataPsn)
    (others : ∀ other, other ≠ dst → ∀ i, before.rcvAckPsn i other = s.rcvAckPsn i other)
    (credit : Nat) :
    Refills c dst credit s (before.touchWin dst) ∧ RefillsOnly c dst s (before.touchWin dst) := by
  have same : ∀ other, (before.touchWin dst).win other = s.win other := by
    intro other
    rw [touchWin_win, win, wins]
    rfl
  have kept : ∀ other, other ∈ s.wins → other ∈ (before.touchWin dst).wins := by
    intro other known
    rw [touchWin_mem_iff, wins]
    exact .inr known
  have numbers : ∀ other i, (before.touchWin dst).nxtDataPsn i other = s.nxtDataPsn i other := by
    intro other i
    rw [← nxtDataPsn]
    rfl
  refine ⟨⟨kept dst, numbers dst, fun _ => same dst, fun bound => by rwa [same], fun off => ?_,
      fun unknown => ?_⟩,
    fun other different => ⟨kept other, numbers other, fun _ => same other,
      fun bound => by rwa [same], fun off => ?_,
      fun _ => others other different⟩, others, fun key member => ?_⟩
  · rw [mode] at off
    contradiction
  · exact absurd (touchWin_mem before dst) unknown
  · rw [mode] at off
    contradiction
  · rw [touchWin_mem_iff, wins] at member
    rcases member with rfl | known
    · exact .inr grouped
    · exact .inl known

theorem Refills.of_add (mode : c.settings.switchAbsolutePsn = false) (known : dst ∈ s.wins)
    (credit : Nat) :
    Refills c dst credit s
        { s with wins := s.wins.insert dst (Word32.add (s.win dst) credit) } ∧
      RefillsOnly c dst s
        { s with wins := s.wins.insert dst (Word32.add (s.win dst) credit) } := by
  have members : ∀ other, other ∈ s.wins.insert dst (Word32.add (s.win dst) credit) ↔
      other ∈ s.wins := by
    intro other
    rw [ExtTreeMap.mem_insert, LawfulEqOrd.compare_eq_iff_eq]
    constructor
    · rintro (rfl | member)
      · exact known
      · exact member
    · exact .inr
  refine ⟨⟨fun known => (members dst).mpr known, fun _ => rfl, fun absolute => ?_,
      fun _ => ?_, fun _ => ⟨?_, fun unknown => absurd known unknown⟩, fun _ _ => rfl⟩,
    fun other different => ⟨fun known => (members other).mpr known, fun _ => rfl,
      fun _ => (setWins_other different).win, fun bound => ?_,
      fun _ => ⟨?_, fun unknown => ⟨rfl, ?_⟩⟩,
      fun _ _ => rfl⟩, fun _ _ _ => rfl, fun key member => .inl ((members key).mp member)⟩
  · rw [mode] at absolute
    contradiction
  · rw [win, MapSum.lookup_insert, if_pos rfl, Option.getD_some]
    exact Word32.add_lt _ _
  · rw [win, MapSum.lookup_insert, if_pos rfl, Option.getD_some, Word32.add]
    unfold Word32.size
    omega
  · rwa [(setWins_other different).win]
  · rw [(setWins_other different).win, Nat.add_zero]
  · exact fun inside => unknown ((members other).mp inside)

theorem RefillsOnly.ignored {before : Upstream} (wins : before.wins = s.wins)
    (nxtDataPsn : before.nxtDataPsn = s.nxtDataPsn)
    (others : ∀ other, other ≠ dst → ∀ i, before.rcvAckPsn i other = s.rcvAckPsn i other) :
    RefillsOnly c dst s before := by
  refine ⟨fun other different => ⟨fun known => wins ▸ known, fun i => by rw [nxtDataPsn],
    fun _ => by rw [win, win, wins], fun bound => by rwa [win, wins],
    fun _ => ⟨by rw [win, win, wins, Nat.add_zero],
      fun unknown => ⟨rfl, wins ▸ unknown⟩⟩, fun _ => others other different⟩, others,
    fun key member => .inl (wins ▸ member)⟩

theorem updateDstWin_refills {before : Upstream} {pktSize credit : Nat}
    (wins : before.wins = s.wins) (nxtDataPsn : before.nxtDataPsn = s.nxtDataPsn)
    (others : ∀ other, other ≠ dst → ∀ i, before.rcvAckPsn i other = s.rcvAckPsn i other)
    (amount : c.settings.switchAbsolutePsn = false → before = s ∧ pktSize = credit)
    (success : before.updateDstWin c dst pktSize true = .ok after) :
    RefillsOnly c dst s after ∧ (c.Grouped dst → Refills c dst credit s after) := by
  cases rule : c.dst2group dst with
  | unset =>
      simp [updateDstWin, UpstreamConfig.shouldIgnore, rule] at success
  | ignored =>
      rw [updateDstWin_ignored rule] at success
      obtain rfl := Except.ok.inj success
      refine ⟨RefillsOnly.ignored wins nxtDataPsn others, fun grouped => ?_⟩
      obtain ⟨gid, group⟩ := grouped
      rw [rule] at group
      contradiction
  | group gid =>
      have grouped : c.Grouped dst := ⟨gid, rule⟩
      cases mode : c.settings.switchAbsolutePsn with
      | true =>
          obtain rfl := updateDstWin_absolute mode grouped success
          obtain ⟨own, only⟩ := Refills.of_touchWin grouped mode wins nxtDataPsn others credit
          exact ⟨only, fun _ => own⟩
      | false =>
          obtain ⟨rfl, rfl⟩ := amount mode
          obtain ⟨known, rfl⟩ := updateDstWin_add mode grouped success
          obtain ⟨own, only⟩ := Refills.of_add mode known pktSize
          exact ⟨only, fun _ => own⟩

theorem setRcvAckPsn_others (row psn : Nat) (other : Nat) (different : other ≠ dst) (i : Nat) :
    (s.setRcvAckPsn row dst psn).rcvAckPsn i other = s.rcvAckPsn i other :=
  setCell_other _ _ _ _ _ _ fun same => different same.2

theorem recoverDst_refills {tag : SwitchACKTag} {dev : Nat}
    (success : recoverDst c tag dev s dst = .ok after) :
    RefillsOnly c dst s after ∧
      (c.Grouped dst → Refills c dst (Word32.trunc (tag.getACKEntry dst)) s after) := by
  unfold recoverDst at success
  dsimp only at success
  split at success
  · cases mode : c.settings.switchAbsolutePsn with
    | false =>
        simp only [mode, Bool.false_eq_true, if_false] at success
        exact updateDstWin_refills rfl rfl (fun _ _ _ => rfl) (fun _ => ⟨rfl, rfl⟩) success
    | true =>
        simp only [mode, if_true] at success
        have absolute : c.settings.switchAbsolutePsn ≠ false := by simp [mode]
        split at success
        · refine updateDstWin_refills ?_ ?_ (setRcvAckPsn_others _ _)
            (fun off => absurd off absolute) success
          · rfl
          · rfl
        · exact updateDstWin_refills rfl rfl (fun _ _ _ => rfl)
            (fun off => absurd off absolute) success
  · rename_i none
    obtain rfl := Except.ok.inj success
    have zero : tag.getACKEntry dst = 0 := by omega
    refine ⟨RefillsOnly.ignored rfl rfl fun _ _ _ => rfl, fun _ => ?_⟩
    rw [zero]
    exact Refills.refl c dst s

theorem resumeDst_refills {tag : SwitchACKTag} {dev : Nat}
    (success : s.resumeDst c tag dst dev = .ok after) :
    RefillsOnly c dst s after ∧
      (c.Grouped dst → Refills c dst (Word32.trunc tag.getAckedSize) s after) := by
  unfold resumeDst at success
  dsimp only at success
  cases mode : c.settings.switchAbsolutePsn with
  | false =>
      simp only [mode, Bool.false_eq_true, if_false] at success
      exact updateDstWin_refills rfl rfl (fun _ _ _ => rfl) (fun _ => ⟨rfl, rfl⟩) success
  | true =>
      simp only [mode, if_true] at success
      have absolute : c.settings.switchAbsolutePsn ≠ false := by simp [mode]
      split at success
      · refine updateDstWin_refills ?_ ?_ (setRcvAckPsn_others _ _)
          (fun off => absurd off absolute) success
        · rfl
        · rfl
      · exact updateDstWin_refills rfl rfl (fun _ _ _ => rfl)
          (fun off => absurd off absolute) success

/-- `RecoverWin` over any destinations, each visited once. -/
theorem recoverAll_refills {tag : SwitchACKTag} {dev : Nat} (dsts : List Nat) (once : dsts.Nodup)
    (success : dsts.foldlM (recoverDst c tag dev) s = .ok after) :
    (∀ key ∈ after.wins, key ∈ s.wins ∨ c.Grouped key) ∧
      (∀ dst, dst ∉ dsts ∨ c.Grouped dst →
        Refills c dst (if dst ∈ dsts then Word32.trunc (tag.getACKEntry dst) else 0) s after) ∧
      ∀ dst ∉ dsts, ∀ i, after.rcvAckPsn i dst = s.rcvAckPsn i dst := by
  induction dsts generalizing s with
  | nil =>
      obtain rfl := Except.ok.inj success
      exact ⟨fun _ known => .inl known, fun dst _ => Refills.refl c dst s, fun _ _ _ => rfl⟩
  | cons first rest ih =>
      rw [List.foldlM_cons] at success
      obtain ⟨middle, one, success⟩ := bind_ok.mp success
      obtain ⟨fresh, once⟩ := List.nodup_cons.mp once
      obtain ⟨only, own⟩ := recoverDst_refills one
      obtain ⟨keys, later, rows⟩ := ih once success
      refine ⟨fun key member => ?_, fun dst which => ?_, fun dst out i => ?_⟩
      · rcases keys key member with known | grouped
        · exact only.keys key known
        · exact .inr grouped
      · by_cases same : dst = first
        · subst same
          have grouped : c.Grouped dst := which.resolve_left fun out => out (by simp)
          have last := later dst (.inl fresh)
          rw [if_neg fresh] at last
          simpa using (own grouped).trans last
        · have last := later dst (which.imp_left fun out inside => out (by simp [inside]))
          have step := (only.others dst same).trans last
          simpa [same] using step
      · rw [List.mem_cons, not_or] at out
        rw [rows dst out.2 i, only.rows dst out.1 i]

theorem restoreWin_refills {tag : SwitchACKTag} {sip inDev : Nat}
    (success : s.restoreWin c tag sip inDev = .ok after) :
    (∀ key ∈ after.wins, key ∈ s.wins ∨ c.Grouped key) ∧
      (∀ dst, c.Grouped dst →
        Refills c dst (FloodgateEvent.creditFor c dst (.ack tag sip inDev)) s after) ∧
      (sip < c.settings.hostNum → ∀ dst, c.settings.hostNum ≤ dst → ∀ i,
        after.nxtDataPsn i dst = s.nxtDataPsn i dst ∧
          after.rcvAckPsn i dst = s.rcvAckPsn i dst) := by
  have single : s.resumeDst c tag sip inDev = .ok after →
      (∀ dst, FloodgateEvent.creditFor c dst (.ack tag sip inDev) =
        if sip = dst then Word32.trunc tag.getAckedSize else 0) →
      (∀ key ∈ after.wins, key ∈ s.wins ∨ c.Grouped key) ∧
        (∀ dst, c.Grouped dst →
          Refills c dst (FloodgateEvent.creditFor c dst (.ack tag sip inDev)) s after) ∧
        (sip < c.settings.hostNum → ∀ dst, c.settings.hostNum ≤ dst → ∀ i,
        after.nxtDataPsn i dst = s.nxtDataPsn i dst ∧
          after.rcvAckPsn i dst = s.rcvAckPsn i dst) := by
    intro resumed amount
    obtain ⟨only, own⟩ := resumeDst_refills resumed
    refine ⟨only.keys, fun dst grouped => ?_, fun host dst beyond i =>
      ⟨(only.others dst (by omega)).nxtDataPsn i, only.rows dst (by omega) i⟩⟩
    rw [amount]
    by_cases same : sip = dst
    · subst same
      rw [if_pos rfl]
      exact own grouped
    · rw [if_neg same]
      exact only.others dst fun back => same back.symm
  unfold restoreWin at success
  cases mode : c.settings.switchAckMode with
  | switchIngressCredit =>
      simp only [mode] at success
      obtain ⟨keys, each, rows⟩ := recoverAll_refills _ List.nodup_range success
      refine ⟨keys, fun dst grouped => ?_, fun _ dst beyond i => ?_⟩
      · simpa [FloodgateEvent.creditFor, mode] using each dst (.inr grouped)
      · have outside : dst ∉ List.range c.settings.hostNum := by
          rw [List.mem_range]
          omega
        exact ⟨(each dst (.inl outside)).nxtDataPsn i, rows dst outside i⟩
  | switchDstCredit =>
      simp only [mode] at success
      exact single success fun dst => by simp only [FloodgateEvent.creditFor, mode]
  | hostPerPacketAck =>
      simp only [mode] at success
      exact single success fun dst => by simp only [FloodgateEvent.creditFor, mode]

end Refilling

section Arriving

variable {c : UpstreamConfig} {s after : Upstream}

/-- A packet of a group is checked; then it passes, or it waits. -/
theorem checkVOQWin_grouped {pkt : Packet} {outDev qIndex : Nat} {routed : Option Packet}
    (isUdp : pkt.isUdp = true) (grouped : c.Grouped pkt.dip)
    (success : s.checkVOQWin c pkt outDev qIndex = .ok (routed, after)) :
    ∃ checked, s.checkDstWin c pkt.dip pkt.size = .ok checked ∧
      ((∃ pkt', routed = some pkt' ∧ Passes c checked.2 outDev pkt.dip pkt pkt' after ∧
          ∀ voq, after.voqPackets voq = checked.2.voqPackets voq) ∨
        (routed = none ∧ after.wins = checked.2.wins ∧
          after.nxtDataPsn = checked.2.nxtDataPsn ∧ after.rcvAckPsn = checked.2.rcvAckPsn ∧
          ∀ voq, ∀ other ∈ after.voqPackets voq, other ∈ checked.2.voqPackets voq ∨
            other = ⟨pkt, pkt.dip, outDev, qIndex⟩)) := by
  unfold checkVOQWin at success
  simp only [isUdp, if_true, shouldIgnore_grouped grouped, ok_bind, Bool.false_eq_true,
    if_false] at success
  obtain ⟨checked, found, success⟩ := bind_ok.mp success
  refine ⟨checked, found, ?_⟩
  have known := ((checkDstWin_frame c s pkt.dip pkt.size).of_ok found).2
  obtain ⟨gid, rule⟩ := grouped
  split at success
  · left
    cases mode : c.settings.switchAbsolutePsn with
    | false =>
        simp only [mode, Bool.false_eq_true, if_false, ok_bind,
          updateDstWin_credit mode rule known] at success
        obtain ⟨rfl, rfl⟩ := Prod.mk.inj (Except.ok.inj success)
        exact ⟨pkt, rfl, .credit mode rfl rfl rfl, fun _ => rfl⟩
    | true =>
        simp only [mode, if_true, updateDstWin_psn mode rule known] at success
        split at success
        · obtain ⟨rfl, rfl⟩ := Prod.mk.inj (Except.ok.inj success)
          exact ⟨_, rfl, .psn mode rfl rfl rfl, fun _ => rfl⟩
        · contradiction
  · right
    obtain ⟨buffered, waiting, success⟩ := bind_ok.mp success
    obtain ⟨rfl, rfl⟩ := Prod.mk.inj (Except.ok.inj success)
    have stores := (bufferPacket_stores _).of_ok waiting
    exact ⟨rfl, stores.wins, stores.nxtDataPsn, stores.rcvAckPsn,
      fun voq other inside => stores.member inside⟩

end Arriving

section Accounts

/-- The windows against what has been `sent` and `credited` so far. The entry that is read for a
host never holds the registered size. -/
structure TorLedger (c : UpstreamConfig) (sent credited : Nat → Nat) (s : Upstream) : Prop where
  held : HeldRegistered c s
  small : ∀ dst < c.settings.hostNum, c.Grouped dst → s.win dst < Word32.size
  closed : c.settings.switchAbsolutePsn = true → ∀ dst < c.settings.hostNum, c.Grouped dst →
    s.win dst = 0
  credit : c.settings.switchAbsolutePsn = false → ∀ dst < c.settings.hostNum, c.Grouped dst →
    (s.win dst + sent dst) % Word32.size = credited dst % Word32.size
  unused : ∀ dst < c.settings.hostNum, c.Grouped dst → dst ∉ s.wins → sent dst = 0 ∧
    (c.settings.switchAbsolutePsn = false → credited dst = 0) ∧
    ∀ i, s.nxtDataPsn i dst = 0 ∧ s.rcvAckPsn i dst = 0
  beyond : ∀ dst, c.settings.hostNum ≤ dst → ∀ i,
    s.nxtDataPsn i dst = 0 ∧ s.rcvAckPsn i dst = 0

variable {c : UpstreamConfig} {sent credited : Nat → Nat} {s after : Upstream}

theorem TorLedger.init (c : UpstreamConfig) :
    TorLedger c (fun _ => 0) (fun _ => 0) (Upstream.init c) := by
  refine ⟨fun voq unit member => ?_, fun dst _ _ => ?_, fun _ _ _ _ => rfl, fun _ _ _ _ => rfl,
    fun _ _ _ _ => ⟨rfl, fun _ => rfl, fun _ => ⟨rfl, rfl⟩⟩, fun _ _ _ => ⟨rfl, rfl⟩⟩
  · have registered := (Consistent.init c).registered voq unit member
    simp [Upstream.init] at registered
  · exact show 0 < 4294967296 by decide

theorem TorLedger.spends (ledger : TorLedger c sent credited s) {units : List PacketUnit}
    (spends : Spends c s units after) :
    TorLedger c (fun dst => sent dst + bytesTo dst units) credited after := by
  refine ⟨spends.heldRegistered ledger.held,
    fun dst host grouped => spends.small dst (ledger.small dst host grouped),
    fun mode dst host grouped => ?_,
    fun mode dst host grouped => ?_, fun dst host grouped unknown => ?_, fun dst far i => ?_⟩
  · rw [win, spends.absolute mode]
    exact ledger.closed mode dst host grouped
  · have before := ledger.credit mode dst host grouped
    have paid := spends.credit mode dst
    unfold Word32.size at before paid ⊢
    omega
  · have unknown' : dst ∉ s.wins := fun known => unknown ((spends.keys dst).mpr known)
    obtain ⟨none, uncredited, rows⟩ := ledger.unused dst host grouped unknown'
    obtain ⟨nothing, same⟩ := spends.idle dst (.inl unknown')
    refine ⟨by rw [none, nothing], uncredited, fun i => ?_⟩
    rw [same, spends.rcvAckPsn]
    exact rows i
  · rw [(spends.idle dst (.inr far)).2, spends.rcvAckPsn]
    exact ledger.beyond dst far i

theorem TorLedger.check (mode : OnlyTors c) (ledger : TorLedger c sent credited s) {dst pktSize : Nat}
    {checked : Bool × Upstream} (success : s.checkDstWin c dst pktSize = .ok checked) :
    TorLedger c sent credited checked.2 := by
  by_cases known : dst ∈ s.wins
  · rw [(checkDstWin_ok success).2.2 known]
    exact ledger
  obtain ⟨size, _, same⟩ := checkDstWin_first known success
  have frame := ((checkDstWin_frame c s dst pktSize).of_ok success).1
  have windows : ∀ other < c.settings.hostNum, checked.2.win other = s.win other := by
    intro other host
    rw [same]
    exact register_win (ne_winKey mode host dst)
  have nxtDataPsn : checked.2.nxtDataPsn = s.nxtDataPsn := same ▸ rfl
  have rcvAckPsn : checked.2.rcvAckPsn = s.rcvAckPsn := same ▸ rfl
  refine ⟨fun voq unit member => ?_, fun other host grouped => ?_,
    fun mode other host grouped => ?_, fun mode other host grouped => ?_,
    fun other host grouped unknown => ?_, fun other far i => ?_⟩
  · rw [frame.voqPackets] at member
    obtain ⟨host, registered, grouped⟩ := ledger.held voq unit member
    exact ⟨host, frame.registered unit.dst registered, grouped⟩
  · rw [windows other host]
    exact ledger.small other host grouped
  · rw [windows other host]
    exact ledger.closed mode other host grouped
  · rw [windows other host]
    exact ledger.credit mode other host grouped
  · rw [nxtDataPsn, rcvAckPsn]
    exact ledger.unused other host grouped fun earlier =>
      unknown (frame.registered other earlier)
  · rw [nxtDataPsn, rcvAckPsn]
    exact ledger.beyond other far i

theorem TorLedger.buffers (ledger : TorLedger c sent credited s) (wins : after.wins = s.wins)
    (nxtDataPsn : after.nxtDataPsn = s.nxtDataPsn) (rcvAckPsn : after.rcvAckPsn = s.rcvAckPsn)
    (held : HeldRegistered c after) : TorLedger c sent credited after := by
  refine ⟨held, fun dst host grouped => ?_, fun mode dst host grouped => ?_,
    fun mode dst host grouped => ?_, fun dst host grouped unknown => ?_, fun dst far i => ?_⟩
  · rw [win, wins]
    exact ledger.small dst host grouped
  · rw [win, wins]
    exact ledger.closed mode dst host grouped
  · rw [win, wins]
    exact ledger.credit mode dst host grouped
  · rw [nxtDataPsn, rcvAckPsn]
    exact ledger.unused dst host grouped (wins ▸ unknown)
  · rw [nxtDataPsn, rcvAckPsn]
    exact ledger.beyond dst far i

theorem TorLedger.restore (ledger : TorLedger c sent credited s) {tag : SwitchACKTag}
    {sip inDev : Nat} (host : sip < c.settings.hostNum)
    (success : s.restoreWin c tag sip inDev = .ok after) :
    TorLedger c sent
      (fun dst => credited dst + FloodgateEvent.creditFor c dst (.ack tag sip inDev)) after := by
  obtain ⟨keys, each, others⟩ := restoreWin_refills success
  have frame := (restoreWin_frame c s tag sip inDev).of_ok success
  refine ⟨fun voq unit member => ?_,
    fun dst inside grouped => (each dst grouped).small (ledger.small dst inside grouped),
    fun mode dst inside grouped => ?_, fun mode dst inside grouped => ?_,
    fun dst inside grouped unknown => ?_, fun dst far i => ?_⟩
  · rw [frame.voqPackets] at member
    obtain ⟨inside, registered, grouped⟩ := ledger.held voq unit member
    exact ⟨inside, frame.registered unit.dst registered, grouped⟩
  · rw [(each dst grouped).absolute mode]
    exact ledger.closed mode dst inside grouped
  · have before := ledger.credit mode dst inside grouped
    have added := ((each dst grouped).credit mode).1
    unfold Word32.size at before added ⊢
    omega
  · have refills := each dst grouped
    have unknown' : dst ∉ s.wins := fun known => unknown (refills.kept known)
    obtain ⟨none, uncredited, rows⟩ := ledger.unused dst inside grouped unknown'
    refine ⟨none, fun mode => ?_, fun i => ?_⟩
    · rw [uncredited mode, ((refills.credit mode).2 unknown').1]
    · rw [refills.nxtDataPsn, refills.rcvAckPsn unknown]
      exact rows i
  · rw [(others host dst far i).1, (others host dst far i).2]
    exact ledger.beyond dst far i

theorem TorLedger.congr (ledger : TorLedger c sent credited s) {sent' credited' : Nat → Nat}
    (same : ∀ dst, c.Grouped dst → sent' dst = sent dst ∧ credited' dst = credited dst) :
    TorLedger c sent' credited' s := by
  refine ⟨ledger.held, ledger.small, ledger.closed, fun mode dst host grouped => ?_,
    fun dst host grouped unknown => ?_, ledger.beyond⟩
  · rw [(same dst grouped).1, (same dst grouped).2]
    exact ledger.credit mode dst host grouped
  · rw [(same dst grouped).1, (same dst grouped).2]
    exact ledger.unused dst host grouped unknown

theorem TorLedger.arrival (mode : OnlyTors c) (ledger : TorLedger c sent credited s) {pkt : Packet}
    {outDev qIndex : Nat} {routed : Option Packet} (isUdp : pkt.isUdp = true)
    (host : pkt.dip < c.settings.hostNum)
    (success : s.checkVOQWin c pkt outDev qIndex = .ok (routed, after)) :
    TorLedger c (fun dst => sent dst + bytesTo dst
      (routed.toList.map fun pkt' => ⟨pkt', pkt.dip, outDev, qIndex⟩)) credited after := by
  cases rule : c.dst2group pkt.dip with
  | unset =>
      simp [checkVOQWin, isUdp, UpstreamConfig.shouldIgnore, rule] at success
  | ignored =>
      simp only [checkVOQWin, isUdp, if_true, UpstreamConfig.shouldIgnore, rule, ok_bind] at success
      obtain ⟨rfl, rfl⟩ := Prod.mk.inj (Except.ok.inj success)
      refine ledger.congr fun dst grouped => ⟨?_, rfl⟩
      obtain ⟨gid, group⟩ := grouped
      have other : pkt.dip ≠ dst := by
        rintro rfl
        rw [rule] at group
        contradiction
      simp [ofDst, other]
  | group gid =>
      have grouped : c.Grouped pkt.dip := ⟨gid, rule⟩
      obtain ⟨checked, found, ⟨pkt', rfl, passes, packets⟩ | ⟨rfl, wins, nxt, rcv, packets⟩⟩ :=
        checkVOQWin_grouped isUdp grouped success
      · have known := ((checkDstWin_frame c s pkt.dip pkt.size).of_ok found).2
        exact (ledger.check mode found).spends
          (passes.spends known host rfl rfl fun voq other member => packets voq ▸ member)
      · have known := ((checkDstWin_frame c s pkt.dip pkt.size).of_ok found).2
        have before := ledger.check mode found
        refine before.buffers wins nxt rcv fun voq unit member => ?_
        rcases packets voq unit member with earlier | rfl
        · obtain ⟨inside, registered, group⟩ := before.held voq unit earlier
          exact ⟨inside, wins ▸ registered, group⟩
        · exact ⟨host, wins ▸ known, grouped⟩

theorem TorLedger.handle (mode : OnlyTors c) (ledger : TorLedger c sent credited s)
    {event : FloodgateEvent} {units : List PacketUnit} (host : event.FromHosts c)
    (success : s.handle c event = .ok (units, after)) :
    TorLedger c (fun dst => sent dst + bytesTo dst units)
      (fun dst => credited dst + event.creditFor c dst) after := by
  cases event with
  | data pkt isData outDev qIndex =>
      obtain ⟨⟨routed, finish⟩, routing, result⟩ := bind_ok.mp success
      obtain ⟨rfl, rfl⟩ := Prod.mk.inj (Except.ok.inj result)
      exact ledger.arrival mode isData host routing
  | ack tag sip inDev =>
      obtain ⟨restored, restoring, draining⟩ := bind_ok.mp success
      have refilled := ledger.restore host restoring
      exact refilled.spends ((drain_spends refilled.held sip).of_ok draining)

theorem TorLedger.run (mode : OnlyTors c) {labels : List (FloodgateEvent × List PacketUnit)}
    (run : Run (HostStep c) (Upstream.init c) labels s) :
    TorLedger c (fun dst => sentTo dst labels) (fun dst => creditedFor c dst labels) s := by
  refine run.history (fun labels state => TorLedger c (fun dst => sentTo dst labels)
    (fun dst => creditedFor c dst labels) state) (TorLedger.init c) ?_
  rintro labels middle ⟨event, units⟩ finish _ ledger ⟨host, step⟩
  apply (ledger.handle mode host step).congr
  intro dst _
  exact ⟨sentTo_snoc dst labels _, creditedFor_snoc dst c labels _⟩

end Accounts

section Windows

variable {c : UpstreamConfig} {s : Upstream} {labels : List (FloodgateEvent × List PacketUnit)}
  {dst bdp : Nat}

theorem TorLedger.entry_zero
    (ledger : TorLedger c (fun dst => sentTo dst labels) (fun dst => creditedFor c dst labels) s)
    (host : dst < c.settings.hostNum) (grouped : c.Grouped dst)
    (nothing : NothingOutstanding c labels s dst) : s.win dst = 0 := by
  unfold NothingOutstanding at nothing
  cases mode : c.settings.switchAbsolutePsn with
  | true => exact ledger.closed mode dst host grouped
  | false =>
      simp only [mode, Bool.false_eq_true, if_false] at nothing
      have balance := ledger.credit mode dst host grouped
      have bound := ledger.small dst host grouped
      simp only [nothing] at balance
      unfold Word32.size at balance bound
      omega

theorem TorLedger.first_use
    (ledger : TorLedger c (fun dst => sentTo dst labels) (fun dst => creditedFor c dst labels) s)
    (host : dst < c.settings.hostNum) (grouped : c.Grouped dst) (unknown : dst ∉ s.wins) :
    NothingOutstanding c labels s dst := by
  obtain ⟨none, uncredited, rows⟩ := ledger.unused dst host grouped unknown
  unfold NothingOutstanding
  cases mode : c.settings.switchAbsolutePsn with
  | true =>
      simp only [if_true]
      exact fun i _ => (rows i).1.trans (rows i).2.symm
  | false =>
      simp only [Bool.false_eq_true, if_false]
      rw [none, uncredited mode]

/-- A check with nothing outstanding lets only an empty packet through. -/
theorem TorLedger.check_entry
    (ledger : TorLedger c (fun dst => sentTo dst labels) (fun dst => creditedFor c dst labels) s)
    (mode : OnlyTors c) (host : dst < c.settings.hostNum) (grouped : c.Grouped dst)
    (defined : c.bdpMap (c.settings.hostNum + dst / c.settings.hostPerRack) = some bdp)
    (nothing : NothingOutstanding c labels s dst) {pktSize : Nat} (fits : pktSize < Word32.size) :
    ∃ after, s.checkDstWin c dst pktSize = .ok (decide (pktSize = 0), after) := by
  have entry := ledger.entry_zero host grouped nothing
  have rows : c.settings.switchAbsolutePsn = true → ∀ i < switchScale,
      s.nxtDataPsn i dst = s.rcvAckPsn i dst := by
    intro absolute
    simpa [NothingOutstanding, absolute] using nothing
  have ordered : c.settings.switchAbsolutePsn = true → s.inflightOrdered dst = true := by
    intro absolute
    rw [inflightOrdered_iff]
    exact fun i inside => (rows absolute i inside).symm.le
  have test : ∀ state : Upstream, state.win dst = 0 → state.nxtDataPsn = s.nxtDataPsn →
      state.rcvAckPsn = s.rcvAckPsn → state.fits c dst pktSize = decide (pktSize = 0) := by
    intro state closed nxt rcv
    unfold Upstream.fits
    split
    · rename_i absolute
      have idle : state.inflightBytes dst = 0 := by
        apply inflightBytes_zero
        rw [nxt, rcv]
        exact rows absolute
      rw [idle, closed, Word32.add_eq 0 pktSize (by omega)]
      simp [Nat.pos_iff_ne_zero]
    · rw [closed]
      simp [Nat.pos_iff_ne_zero]
  by_cases known : dst ∈ s.wins
  · exact ⟨s, by rw [checkDstWin_known known pktSize ordered, test s entry rfl rfl]⟩
  · rw [← winKey_tor mode] at defined
    have unused := (ledger.unused dst host grouped known).2.2
    have key : s.inflightOrdered (winKey c dst) = true := by
      rw [inflightOrdered_iff, winKey_tor mode]
      intro i _
      obtain ⟨nxt, rcv⟩ := ledger.beyond _ (Nat.le_add_right _ (dst / c.settings.hostPerRack)) i
      rw [nxt, rcv]
    have own : s.inflightOrdered dst = true := by
      rw [inflightOrdered_iff]
      exact fun i _ => by rw [(unused i).1, (unused i).2]
    have closed : (s.register (winKey c dst) bdp dst).win dst = 0 := by
      rw [register_win (ne_winKey mode host dst), entry]
    exact ⟨_, by rw [checkDstWin_defined known defined pktSize key own, test _ closed rfl rfl]⟩

theorem TorLedger.windowRight_iff
    (ledger : TorLedger c (fun dst => sentTo dst labels) (fun dst => creditedFor c dst labels) s)
    (mode : OnlyTors c) (host : dst < c.settings.hostNum) (grouped : c.Grouped dst)
    (defined : c.bdpMap (c.settings.hostNum + dst / c.settings.hostPerRack) = some bdp) :
    WindowRight c labels s dst bdp ↔
      bdp = 0 ∨ dst ∈ s.wins ∧ ¬ NothingOutstanding c labels s dst := by
  constructor
  · intro right
    by_contra neither
    rw [not_or, not_and, not_not] at neither
    obtain ⟨positive, idle⟩ := neither
    have nothing : NothingOutstanding c labels s dst := by
      by_cases known : dst ∈ s.wins
      · exact idle known
      · exact ledger.first_use host grouped known
    obtain ⟨after, passed⟩ := right.neverBlocked nothing 1 (by omega)
    obtain ⟨after', blocked⟩ := ledger.check_entry mode host grouped defined nothing
      (by decide : 1 < Word32.size)
    rw [passed] at blocked
    have impossible := congrArg Prod.fst (Except.ok.inj blocked)
    simp at impossible
  · rintro (rfl | ⟨known, outstanding⟩)
    · refine ⟨fun unknown pktSize checked success => ?_,
        fun unknown pktSize isAdd after success => ?_, fun nothing pktSize small => ?_⟩
      · obtain ⟨size, _, same⟩ := checkDstWin_first unknown success
        rw [same, register_win (ne_winKey mode host dst), win_unknown unknown]
      · cases absolute : c.settings.switchAbsolutePsn with
        | true =>
            rw [updateDstWin_absolute absolute grouped success, touchWin_win,
              win_unknown unknown, if_pos rfl]
        | false =>
            rw [if_neg (by decide)]
            cases isAdd with
            | true => exact absurd (updateDstWin_add absolute grouped success).1 unknown
            | false =>
                obtain ⟨registered, found, rfl⟩ := updateDstWin_take absolute grouped success
                obtain ⟨size, _, rfl⟩ := ensureRegisteredWin_first unknown found
                rw [win, MapSum.lookup_insert, if_pos rfl, Option.getD_some,
                  (setWins_other (ne_winKey mode host dst)).win, win_unknown unknown]
      · obtain rfl := Nat.le_zero.mp small
        simpa using ledger.check_entry mode host grouped defined nothing
          (by decide : 0 < Word32.size)
    · exact ⟨fun unknown => absurd known unknown, fun unknown => absurd known unknown,
        fun nothing => absurd nothing outstanding⟩

end Windows

section Keys

variable {c : UpstreamConfig} {sent credited : Nat → Nat} {s after : Upstream}

theorem TorLedger.keysKnown_iff (ledger : TorLedger c sent credited s) :
    KeysKnown c s ↔ ∀ key ∈ s.wins, c.dst2group key ≠ .unset := by
  refine ⟨fun known => known.keys, fun known => ⟨known, fun failed => ?_,
    fun tag sip inDev restored host success failed => ?_⟩⟩
  · obtain ⟨key, member, unset⟩ := (checkAndSendVOQ_spends ledger.held).of_error failed rfl
    exact known key member unset
  · obtain ⟨keys, _, _⟩ := restoreWin_refills success
    obtain ⟨key, member, unset⟩ :=
      (checkAndSendVOQ_spends (ledger.restore host success).held).of_error failed rfl
    rcases keys key member with earlier | ⟨gid, group⟩
    · exact known key earlier unset
    · rw [unset] at group
      contradiction

theorem TorLedger.firstUse_exact (mode : OnlyTors c) (ledger : TorLedger c sent credited s)
    (known : KeysKnown c s) {event : FloodgateEvent} {units : List PacketUnit}
    (host : event.FromHosts c) (success : s.handle c event = .ok (units, after)) :
    FirstUseKnown c s event ↔ KeysKnown c after := by
  rw [(ledger.handle mode host success).keysKnown_iff]
  cases event with
  | ack tag sip inDev =>
      refine ⟨fun _ key member => ?_, fun _ => trivial⟩
      obtain ⟨restored, restoring, draining⟩ := bind_ok.mp success
      have refilled := ledger.restore host restoring
      have spends := (drain_spends refilled.held sip).of_ok draining
      rcases (restoreWin_refills restoring).1 key ((spends.keys key).mp member) with
        earlier | ⟨gid, group⟩
      · exact known.keys key earlier
      · rw [group]
        exact nofun
  | data pkt isData outDev qIndex =>
      obtain ⟨⟨routed, finish⟩, routing, result⟩ := bind_ok.mp success
      obtain ⟨rfl, rfl⟩ := Prod.mk.inj (Except.ok.inj result)
      by_cases grouped : c.Grouped pkt.dip
      case neg =>
        have same : finish = s := by
          cases rule : c.dst2group pkt.dip with
          | unset =>
              simp [checkVOQWin, isData, UpstreamConfig.shouldIgnore, rule] at routing
          | ignored =>
              simp only [checkVOQWin, isData, if_true, UpstreamConfig.shouldIgnore, rule,
                ok_bind] at routing
              exact (Prod.mk.inj (Except.ok.inj routing)).2.symm
          | group gid => exact absurd ⟨gid, rule⟩ grouped
        rw [same]
        exact ⟨fun _ => known.keys, fun _ group => absurd group grouped⟩
      obtain ⟨checked, found, cases⟩ := checkVOQWin_grouped isData grouped routing
      have registered := ((checkDstWin_frame c s pkt.dip pkt.size).of_ok found).2
      have keys : ∀ key, key ∈ finish.wins ↔ key ∈ checked.2.wins := by
        rcases cases with ⟨pkt', _, passes, packets⟩ | ⟨_, wins, _⟩
        · have spends : Spends c checked.2 [⟨pkt', pkt.dip, outDev, qIndex⟩] finish :=
            passes.spends registered host rfl rfl fun voq other member => packets voq ▸ member
          exact spends.keys
        · exact fun key => by rw [wins]
      by_cases earlier : pkt.dip ∈ s.wins
      · rw [(checkDstWin_ok found).2.2 earlier] at keys
        exact ⟨fun _ key member => known.keys key ((keys key).mp member),
          fun _ _ unknown => absurd earlier unknown⟩
      · obtain ⟨size, _, same⟩ := checkDstWin_first earlier found
        simp only [same, register_mem, winKey_tor mode] at keys
        constructor
        · intro firstUse key member
          rcases (keys key).mp member with rfl | rfl | before
          · obtain ⟨gid, group⟩ := grouped
            rw [group]
            exact nofun
          · exact firstUse grouped earlier
          · exact known.keys key before
        · exact fun all _ _ => all _ ((keys _).mpr (.inr (.inl rfl)))

end Keys

/-- For a destination of a group the window starts as it should exactly if it is 0; and the drain
knows the keys exactly as long as each first use finds the id of the ToR in `m_dst2group`. -/
theorem window_registration (c : UpstreamConfig) (mode : OnlyTors c)
    (entries : List (Upstream × FloodgateEvent × List PacketUnit)) (s : Upstream)
    (run : Run (Traced (HostStep c)) (Upstream.init c) entries s) :
    (∀ dst bdp, dst < c.settings.hostNum → c.Grouped dst →
      c.bdpMap (c.settings.hostNum + dst / c.settings.hostPerRack) = some bdp →
      (WindowRight c (entries.map Prod.snd) s dst bdp ↔
        bdp = 0 ∨ dst ∈ s.wins ∧ ¬ NothingOutstanding c (entries.map Prod.snd) s dst)) ∧
    ((∀ entry ∈ entries, FirstUseKnown c entry.1 entry.2.1) ↔
      (∀ entry ∈ entries, KeysKnown c entry.1) ∧ KeysKnown c s) := by
  constructor
  · intro dst bdp host grouped defined
    exact (TorLedger.run mode run.untraced).windowRight_iff mode host grouped defined
  · apply run.traced_iff (fun state => ∃ sent credited, TorLedger c sent credited state)
      (KeysKnown c) (fun state label => FirstUseKnown c state label.1)
    · exact ⟨_, _, TorLedger.init c⟩
    · rw [(TorLedger.init c).keysKnown_iff]
      intro key member
      simp [Upstream.init] at member
    · rintro state label next ⟨sent, credited, ledger⟩ _ ⟨host, step⟩
      exact ⟨_, _, ledger.handle mode host step⟩
    · rintro state label next ⟨sent, credited, ledger⟩ known ⟨host, step⟩
      exact ledger.firstUse_exact mode known host step

end Upstream

/-- Three racks of one host. Only host 1 is in a group, and its ToR has the id 4. -/
def rackSwitch : UpstreamConfig where
  settings := { (narrow .switchDstCredit unlimited 2000 Word32.two_thousand_lt).settings with
    resetOnlyToRSwitchWin := true }
  dst2group := fun dst => if dst = 1 then .group 0 else if dst < 3 then .ignored else .unset
  bdpMap := fun dst => if dst = 4 then some 2000 else none
  groups := (∅ : ExtTreeMap Nat VOQGroupConfig).insert 0 unlimited
  group_known := by
    intro dst id rule
    split at rule
    · simp [(DstRule.group.inj rule).symm]
    · split at rule
      · contradiction
      · contradiction
  bdpMap_lt := by
    intro dst win known
    split at known
    · exact Option.some.inj known ▸ Word32.two_thousand_lt
    · contradiction

namespace Upstream

theorem rackSwitch_tors : OnlyTors rackSwitch := ⟨rfl, nofun⟩

theorem rackSwitch_run : ∃ s, Run (Traced (HostStep rackSwitch)) (Upstream.init rackSwitch)
    [(Upstream.init rackSwitch, kiloEvent, [])] s ∧
    (∃ after, s.checkDstWin rackSwitch 1 1024 = .ok (false, after)) ∧
    s.checkAndSendVOQ rackSwitch = .error .dst2groupKnown :=
  ⟨_, Run.single ⟨rfl, (by decide : 1 < 3), rfl⟩, ⟨_, rfl⟩, rfl⟩

theorem window_registration_one_packet : ∃ s,
    WindowRight rackSwitch [(kiloEvent, [])] s 1 2000 ↔
      2000 = 0 ∨ 1 ∈ s.wins ∧ ¬ NothingOutstanding rackSwitch [(kiloEvent, [])] s 1 := by
  obtain ⟨s, run, -⟩ := rackSwitch_run
  exact ⟨s, (window_registration rackSwitch rackSwitch_tors _ s run).1 1 2000 (by decide) ⟨0, rfl⟩
    rfl⟩

/-- The window of 2000 bytes is registered for the ToR: a packet of 1024 bytes for its host never
passes, and the drain fails the assertion of `ShouldIgnore` at the id of the ToR. -/
theorem tor_window_never_read : ¬ ∀ (c : UpstreamConfig), OnlyTors c → ∀ entries s,
    Run (Traced (HostStep c)) (Upstream.init c) entries s →
      (∀ dst bdp, dst < c.settings.hostNum → c.Grouped dst →
        c.bdpMap (c.settings.hostNum + dst / c.settings.hostPerRack) = some bdp →
        WindowRight c (entries.map Prod.snd) s dst bdp) ∧ KeysKnown c s := by
  intro claim
  obtain ⟨s, run, ⟨after, blocked⟩, failed⟩ := rackSwitch_run
  obtain ⟨windows, known⟩ := claim rackSwitch rackSwitch_tors _ s run
  obtain ⟨after', passed⟩ := (windows 1 2000 (by decide) ⟨0, rfl⟩ rfl).neverBlocked rfl 1024
    (by decide)
  rw [blocked] at passed
  have impossible := congrArg Prod.fst (Except.ok.inj passed)
  exact Bool.noConfusion impossible

end Upstream

end Floodgate
