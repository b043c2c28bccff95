import Floodgate.AbsoluteAcks
import Floodgate.PacketPlaces

/-! The windows of a switch that numbers its data with absolute PSNs: what each operation does to
the two tables of PSNs and to the windows, whatever the VOQs hold. -/

namespace Floodgate

open Std Outcome

structure Settings.CountsPsns (g : Settings) : Prop where
  absolute : g.switchAbsolutePsn = true
  all : g.resetOnlyToRSwitchWin = false
  acks : g.switchAckMode ≠ .hostPerPacketAck

/-- What a tag from the source `sip` acknowledges for `dst`. -/
def SwitchACKTag.acknowledged (g : Settings) (tag : SwitchACKTag) (sip dst : Nat) : Nat :=
  match g.switchAckMode with
  | .switchIngressCredit => tag.getACKEntry dst
  | _ => if sip = dst then tag.getAckedSize else 0

namespace Upstream

/-- Nothing is acknowledged that has not been sent. -/
def AcksBelow (s : Upstream) : Prop := ∀ dev dst, s.rcvAckPsn dev dst ≤ s.nxtDataPsn dev dst

/-- The failures that are possible from `s`. -/
def Spares (s : Upstream) (failure : Assertion) : Prop :=
  failure ≠ .ackOrdered ∧ (s.AcksBelow → failure ≠ .inflightOrdered)

/-- The bytes in flight to `dst`, without the limit of 32 bits. -/
def outstanding (s : Upstream) (dst : Nat) : Nat :=
  ((List.range switchScale).map fun i => s.nxtDataPsn i dst - s.rcvAckPsn i dst).sum

/-- Each window keeps its size, or it was closed and has the configured one. -/
def WindowsOpen (c : UpstreamConfig) (s after : Upstream) : Prop :=
  ∀ dst, after.win dst = s.win dst ∨ s.win dst = 0 ∧ c.bdpMap dst = some (after.win dst)

structure Opens (c : UpstreamConfig) (s after : Upstream) : Prop where
  frame : Frame s after
  nxtDataPsn : after.nxtDataPsn = s.nxtDataPsn
  rcvAckPsn : after.rcvAckPsn = s.rcvAckPsn
  windows : WindowsOpen c s after

section Outstanding

variable {s after : Upstream} {dst : Nat}

theorem inflightBytes_outstanding (s : Upstream) (dst : Nat) :
    s.inflightBytes dst = Word32.trunc (s.outstanding dst) := by
  have loop := Word32.foldl_add
    ((List.range switchScale).map fun i => s.nxtDataPsn i dst - s.rcvAckPsn i dst) 0
  rw [List.foldl_map, Nat.zero_add] at loop
  exact loop

theorem outstanding_congr (data : after.nxtDataPsn = s.nxtDataPsn)
    (acks : after.rcvAckPsn = s.rcvAckPsn) : after.outstanding dst = s.outstanding dst := by
  simp only [outstanding, data, acks]

theorem outstanding_acked (data : after.nxtDataPsn = s.nxtDataPsn)
    (acks : ∀ dev, s.rcvAckPsn dev dst ≤ after.rcvAckPsn dev dst) :
    after.outstanding dst ≤ s.outstanding dst := by
  unfold outstanding
  apply List.sum_le_sum
  intro dev _
  rw [data]
  exact Nat.sub_le_sub_left (acks dev) _

/-- A new number for `size` bytes adds at most these. -/
theorem outstanding_numbered {dev target size : Nat}
    (data : after.nxtDataPsn =
      setCell s.nxtDataPsn dev target (s.nxtDataPsn dev target + size))
    (acks : after.rcvAckPsn = s.rcvAckPsn) :
    after.outstanding dst ≤ s.outstanding dst + if dst = target then size else 0 := by
  have cell : ∀ i, after.nxtDataPsn i dst - after.rcvAckPsn i dst ≤
      s.nxtDataPsn i dst - s.rcvAckPsn i dst +
        if i = dev then (if dst = target then size else 0) else 0 := by
    intro i
    rw [data, acks]
    by_cases here : i = dev ∧ dst = target
    · obtain ⟨rfl, rfl⟩ := here
      rw [setCell_same, if_pos rfl, if_pos rfl]
      omega
    · rw [setCell_other _ _ _ _ _ _ here]
      omega
  have total : ∀ (rows : List Nat), rows.Nodup →
      (rows.map fun i => after.nxtDataPsn i dst - after.rcvAckPsn i dst).sum ≤
        (rows.map fun i => s.nxtDataPsn i dst - s.rcvAckPsn i dst).sum +
          if dev ∈ rows then (if dst = target then size else 0) else 0 := by
    intro rows
    induction rows with
    | nil => simp
    | cons i rest ih =>
        intro once
        obtain ⟨fresh, once⟩ := List.nodup_cons.mp once
        have first := cell i
        have others := ih once
        simp only [List.map_cons, List.sum_cons, List.mem_cons]
        by_cases same : i = dev
        · subst same
          simp only [fresh, if_false] at others
          simp only [if_true, true_or] at first ⊢
          omega
        · simp only [if_neg same, Ne.symm same, false_or] at first ⊢
          omega
  have sum := total (List.range switchScale) List.nodup_range
  unfold outstanding
  split at sum
  · exact sum
  · omega

end Outstanding

section Windows

variable {c : UpstreamConfig} {s middle after : Upstream}

theorem win_insert (s : Upstream) (key size dst : Nat) :
    ({ s with wins := s.wins.insert key size } : Upstream).win dst =
      if dst = key then size else s.win dst :=
  MapSum.getD_insert _ _ _ _ _

theorem win_touch (s : Upstream) (key dst : Nat) : (s.touchWin key).win dst = s.win dst := by
  unfold win touchWin
  simp only [ExtTreeMap.getElem?_insertIfNew]
  split
  · rename_i absent
    rw [LawfulEqOrd.compare_eq_iff_eq] at absent
    obtain ⟨rfl, absent⟩ := absent
    simp [absent]
  · rfl

theorem Opens.refl (c : UpstreamConfig) (s : Upstream) : Opens c s s :=
  ⟨Frame.refl s, rfl, rfl, fun _ => .inl rfl⟩

theorem Opens.touch (c : UpstreamConfig) (s : Upstream) (dst : Nat) : Opens c s (s.touchWin dst) :=
  ⟨Frame.touchWin s dst, rfl, rfl, fun other => .inl (win_touch s dst other)⟩

theorem WindowsOpen.trans (left : WindowsOpen c s middle) (right : WindowsOpen c middle after) :
    WindowsOpen c s after := by
  intro dst
  rcases left dst with same | ⟨closed, opened⟩
  · rw [← same]
    exact right dst
  · rcases right dst with same | ⟨_, later⟩
    · exact .inr ⟨closed, same ▸ opened⟩
    · exact .inr ⟨closed, later⟩

theorem WindowsOpen.win_le (windows : WindowsOpen c s after) (dst : Nat) :
    s.win dst ≤ after.win dst := by
  rcases windows dst with same | ⟨closed, _⟩
  · exact same.ge
  · rw [closed]
    exact Nat.zero_le _

theorem WindowsOpen.win_lt (windows : WindowsOpen c s after)
    (small : ∀ dst, s.win dst < Word32.size) (dst : Nat) : after.win dst < Word32.size := by
  rcases windows dst with same | ⟨_, opened⟩
  · rw [same]
    exact small dst
  · exact c.bdpMap_lt dst _ opened

theorem Opens.trans (left : Opens c s middle) (right : Opens c middle after) :
    Opens c s after :=
  ⟨left.frame.trans right.frame, right.nxtDataPsn.trans left.nxtDataPsn,
    right.rcvAckPsn.trans left.rcvAckPsn, left.windows.trans right.windows⟩

theorem Spares.congr {failure : Assertion} (data : after.nxtDataPsn = s.nxtDataPsn)
    (acks : after.rcvAckPsn = s.rcvAckPsn) (spares : after.Spares failure) : s.Spares failure := by
  unfold Spares AcksBelow at spares ⊢
  rwa [data, acks] at spares

theorem Opens.andThen {Value : Type} (opens : Opens c s middle) {result : Except Assertion Value}
    {post : Value → Prop} (next : Holds middle.Spares post result) : Holds s.Spares post result :=
  next.weaken fun _ spares => spares.congr opens.nxtDataPsn opens.rcvAckPsn

theorem getInflightBytes_spares (s : Upstream) (dst : Nat) :
    Holds s.Spares (fun inflight => inflight = Word32.trunc (s.outstanding dst))
      (s.getInflightBytes dst) := by
  unfold getInflightBytes
  split
  · exact inflightBytes_outstanding s dst
  · rename_i unordered
    refine ⟨by simp, fun below => absurd ?_ unordered⟩
    exact (inflightOrdered_iff s dst).mpr fun i _ => below i dst

theorem shouldIgnore_spares (s : Upstream) (c : UpstreamConfig) (dst : Nat) :
    Holds s.Spares (fun ignore => ignore = true ∧ c.dst2group dst = .ignored ∨
      ignore = false ∧ ∃ gid, c.dst2group dst = .group gid) (c.shouldIgnore dst) := by
  unfold UpstreamConfig.shouldIgnore
  cases rule : c.dst2group dst with
  | unset => exact ⟨by simp, fun _ => by simp⟩
  | ignored => simp
  | group gid => simp

theorem ensureRegisteredWin_opens (mode : c.settings.CountsPsns) (dst : Nat) :
    Holds s.Spares (Opens c s) (s.ensureRegisteredWin c dst) := by
  have key : winKey c dst = dst := by simp [winKey, mode.all]
  unfold ensureRegisteredWin
  rw [key]
  by_cases known : s.wins.contains dst
  · rw [if_pos known]
    exact Opens.refl c s
  rw [if_neg known]
  cases window : c.bdpMap dst with
  | none => exact ⟨by simp, fun _ => by simp⟩
  | some size =>
      have closed : s.win dst = 0 := by
        have absent : dst ∉ s.wins := fun member => known (ExtTreeMap.contains_iff_mem.mpr member)
        simp [win, absent]
      have opens : Opens c s { s with wins := s.wins.insert dst size } := by
        refine ⟨Frame.setWins s dst size, rfl, rfl, fun other => ?_⟩
        rw [win_insert]
        split
        · rename_i same
          rw [same]
          exact .inr ⟨closed, window⟩
        · exact .inl rfl
      simp only [mode.absolute, if_true]
      apply opens.andThen
      apply (getInflightBytes_spares _ _).bind
      intro _ _ _
      exact opens

/-- The check opens the window of `dst` if it must and compares in 32 bits. -/
theorem checkDstWin_opens (mode : c.settings.CountsPsns) (dst pktSize : Nat) :
    Holds s.Spares
      (fun checked => Opens c s checked.2 ∧ (checked.1 = true →
        Word32.trunc (s.outstanding dst + pktSize) ≤ checked.2.win dst))
      (s.checkDstWin c dst pktSize) := by
  unfold checkDstWin
  apply (ensureRegisteredWin_opens mode dst).bind
  intro registered _ opens
  have read := opens.trans (Opens.touch c registered dst)
  simp only [mode.absolute, if_true]
  apply read.andThen
  apply (getInflightBytes_spares _ _).bind
  intro inflight _ measured
  refine ⟨read, fun room => ?_⟩
  rw [measured, outstanding_congr read.nxtDataPsn read.rcvAckPsn, Word32.add_trunc] at room
  simpa only [Bool.not_eq_true', decide_eq_false_iff_not, gt_iff_lt, Nat.not_lt] using room

theorem updateDstWin_opens (mode : c.settings.CountsPsns) (dst pktSize : Nat) (isAdd : Bool) :
    Holds s.Spares (Opens c s) (s.updateDstWin c dst pktSize isAdd) := by
  unfold updateDstWin
  apply (shouldIgnore_spares s c dst).bind
  intro ignore _ _
  split
  · exact Opens.refl c s
  · simp only [mode.absolute, if_true]
    apply (getInflightBytes_spares _ _).bind
    intro _ _ _
    exact Opens.touch c s dst

end Windows

/-- `size` bytes for `dst` pass to the egress port `dev` within the window, as far as 32 bits tell,
and get their number. -/
structure Numbers (c : UpstreamConfig) (s : Upstream) (dev dst size : Nat) (after : Upstream) :
    Prop where
  nxtDataPsn : after.nxtDataPsn = setCell s.nxtDataPsn dev dst (s.nxtDataPsn dev dst + size)
  rcvAckPsn : after.rcvAckPsn = s.rcvAckPsn
  windows : WindowsOpen c s after
  room : Word32.trunc (s.outstanding dst + size) ≤ after.win dst
  group : ∃ gid, c.dst2group dst = .group gid

section Passing

variable {c : UpstreamConfig} {s after : Upstream}

def number (s : Upstream) (dev dst size : Nat) : Upstream :=
  { s with nxtDataPsn := setCell s.nxtDataPsn dev dst (s.nxtDataPsn dev dst + size) }

theorem Spares.numbered {dev dst size : Nat} {failure : Assertion}
    (spares : (s.number dev dst size).Spares failure) : s.Spares failure := by
  refine ⟨spares.1, fun below => spares.2 fun i j => ?_⟩
  have before := below i j
  simp only [number]
  by_cases here : i = dev ∧ j = dst
  · obtain ⟨rfl, rfl⟩ := here
    rw [setCell_same]
    omega
  · rwa [setCell_other _ _ _ _ _ _ here]

theorem psnRow_all (mode : c.settings.CountsPsns) (dev dst : Nat) : c.psnRow dev dst = dev := by
  simp [UpstreamConfig.psnRow, mode.all]

/-- `CheckVOQWin`: a packet passes without a number, passes with the next one, or is buffered. -/
inductive Checked (c : UpstreamConfig) (s : Upstream) (pkt : Packet) (outDev qIndex : Nat) :
    Option Packet → Upstream → Prop
  | plain (free : pkt.isUdp = true → c.dst2group pkt.dip = .ignored) :
      Checked c s pkt outDev qIndex (some pkt) s
  | numbered {after : Upstream} (data : pkt.isUdp = true) (free : s.getBufferDst pkt.dip = 0)
      (frame : Frame s after) (numbers : Numbers c s outDev pkt.dip pkt.size after) :
      Checked c s pkt outDev qIndex
        (some (pkt.setPsn (s.nxtDataPsn outDev pkt.dip + pkt.size))) after
  | buffered {checked after : Upstream} (data : pkt.isUdp = true) (opens : Opens c s checked)
      (stores : Stores checked ⟨pkt, pkt.dip, outDev, qIndex⟩ after)
      (group : ∃ gid, c.dst2group pkt.dip = .group gid) :
      Checked c s pkt outDev qIndex none after

theorem getVOQ_spares (s : Upstream) (g : VOQGroup) (dst : Nat) :
    Holds s.Spares (fun _ => True) (g.getVOQ dst) := by
  unfold VOQGroup.getVOQ
  cases g.getVOQId dst with
  | mk known hasFind =>
      cases known with
      | none => exact ⟨by simp, fun _ => by simp⟩
      | some id =>
          simp only
          split
          · split
            · split
              · exact ⟨by simp, fun _ => by simp⟩
              · trivial
            · trivial
          · split
            · trivial
            · exact ⟨by simp, fun _ => by simp⟩

theorem bufferPacket_spares (unit : PacketUnit) :
    Holds s.Spares (Stores s unit) (s.bufferPacket c unit) := by
  have failures : Holds s.Spares (fun _ => True) (s.bufferPacket c unit) := by
    unfold bufferPacket groupOf
    split
    · rename_i gid _
      cases s.voqGroups[gid]? with
      | none => exact ⟨by simp, fun _ => by simp⟩
      | some g =>
          simp only [ok_bind]
          apply (getVOQ_spares s g unit.dst).bind
          intro voq _ _
          trivial
    · exact ⟨by simp, fun _ => by simp⟩
  exact failures.mono fun _ buffered _ => (bufferPacket_stores unit).of_ok buffered

theorem checkVOQWin_checked (mode : c.settings.CountsPsns) (pkt : Packet) (outDev qIndex : Nat) :
    Holds s.Spares (fun routed => Checked c s pkt outDev qIndex routed.1 routed.2)
      (s.checkVOQWin c pkt outDev qIndex) := by
  unfold checkVOQWin
  split
  case isFalse other => exact .plain fun data => absurd data other
  rename_i data
  apply (shouldIgnore_spares s c pkt.dip).bind
  intro ignore _ rule
  split
  · rename_i ignored
    refine .plain fun _ => ?_
    rcases rule with ⟨_, known⟩ | ⟨kept, _⟩
    · exact known
    · rw [kept] at ignored
      contradiction
  rename_i kept
  have group : ∃ gid, c.dst2group pkt.dip = .group gid := by
    rcases rule with ⟨ignored, _⟩ | ⟨_, known⟩
    · exact absurd ignored kept
    · exact known
  apply (checkDstWin_opens mode pkt.dip pkt.size).bind
  rintro ⟨room, checked⟩ _ ⟨opens, within⟩
  simp only at opens within ⊢
  apply opens.andThen
  split
  · rename_i passes
    rw [Bool.and_eq_true] at passes
    apply (updateDstWin_opens mode pkt.dip pkt.size false).bind
    intro passed _ later
    simp only [mode.absolute, if_true, updateDataPSN, psnRow_all mode]
    have both := opens.trans later
    rw [both.nxtDataPsn]
    have free : s.getBufferDst pkt.dip = 0 := by
      have empty := beq_iff_eq.mp passes.2
      rwa [getBufferDst, opens.frame.buffering] at empty
    refine .numbered data free (both.frame.trans ⟨rfl, rfl, fun _ => id⟩)
      ⟨rfl, both.rcvAckPsn, both.windows, ?_, group⟩
    exact (within passes.1).trans (later.windows.win_le pkt.dip)
  · apply (bufferPacket_spares _).bind
    intro buffered _ stores
    exact .buffered data opens stores group

structure Leaves (c : UpstreamConfig) (s : Upstream) (voq : Nat × Nat) (top unit : PacketUnit)
    (after : Upstream) : Prop where
  yields : Yields s voq top unit after
  numbers : Numbers c s top.outDev top.dst top.pkt.size after
  unit : unit =
    { top with pkt := top.pkt.setPsn (s.nxtDataPsn top.outDev top.dst + top.pkt.size) }

theorem voqDequeueCallback_numbers (mode : c.settings.CountsPsns) (unit : PacketUnit) :
    Holds s.Spares
      (fun called => called.2.nxtDataPsn = setCell s.nxtDataPsn unit.outDev unit.dst
          (s.nxtDataPsn unit.outDev unit.dst + unit.pkt.size) ∧
        called.2.rcvAckPsn = s.rcvAckPsn ∧
        WindowsOpen c s called.2 ∧
        called.1 = { unit with
          pkt := unit.pkt.setPsn (s.nxtDataPsn unit.outDev unit.dst + unit.pkt.size) })
      (s.voqDequeueCallback c unit) := by
  unfold voqDequeueCallback
  simp only [mode.absolute, if_true, updateDataPSN, psnRow_all mode]
  have windows : Holds s.Spares (Opens c (s.number unit.outDev unit.dst unit.pkt.size))
      ((s.number unit.outDev unit.dst unit.pkt.size).updateDstWin c unit.dst unit.pkt.size
        false) := (updateDstWin_opens mode _ _ _).weaken fun _ spares => spares.numbered
  apply windows.bind
  intro windowed _ opens
  unfold updateBufferingCount
  simp only [Bool.false_eq_true, if_false]
  split
  · exact ⟨opens.nxtDataPsn, opens.rcvAckPsn, opens.windows, rfl⟩
  · exact ⟨by simp, fun _ => by simp⟩

theorem checkAndSendOne_leaves (mode : c.settings.CountsPsns) (voq : Nat × Nat) :
    Holds s.Spares
      (fun sent => match sent.1 with
        | none => Opens c s sent.2
        | some unit => ∃ top, (∃ rest, s.voqPackets voq = top :: rest) ∧
            unit = { top with
              pkt := top.pkt.setPsn (s.nxtDataPsn top.outDev top.dst + top.pkt.size) } ∧
            ((∃ gid, c.dst2group top.dst = .group gid) →
              Numbers c s top.outDev top.dst top.pkt.size sent.2))
      (s.checkAndSendOne c voq) := by
  unfold checkAndSendOne
  cases known : s.voqGroups[voq.1]? with
  | none => exact Opens.refl c s
  | some g =>
      cases head : g.packets voq.2 with
      | nil =>
          simp only [head]
          exact Opens.refl c s
      | cons top rest =>
          have here : s.voqPackets voq = top :: rest := by
            rw [voqPackets, known]
            exact head
          simp only [head]
          apply (checkDstWin_opens mode top.dst top.pkt.size).bind
          rintro ⟨room, checked⟩ _ ⟨opens, within⟩
          simp only at opens within ⊢
          split
          · rename_i passes
            split
            · apply opens.andThen
              have callback : Holds checked.Spares _ _ :=
                voqDequeueCallback_numbers (s := checked.setGroup voq.1 (g.pop voq.2 top)) mode top
              apply callback.bind
              rintro ⟨unit, called⟩ _ ⟨data, acks, windows, psn⟩
              simp only [setGroup, opens.nxtDataPsn, opens.rcvAckPsn] at data acks psn
              have both : WindowsOpen c s called := opens.windows.trans windows
              refine ⟨top, ⟨rest, here⟩, psn, fun group => ⟨data, acks, both, ?_, group⟩⟩
              have later : checked.win top.dst ≤ called.win top.dst := windows.win_le top.dst
              exact (within passes).trans later
            · exact ⟨by simp, fun _ => by simp⟩
          · exact opens

theorem checkAndSendOne_attempts (mode : c.settings.CountsPsns) {voq : Nat × Nat}
    (groups : ∀ unit ∈ s.voqPackets voq, ∃ gid, c.dst2group unit.dst = .group gid) :
    Holds s.Spares
      (fun sent => match sent.1 with
        | none => Opens c s sent.2
        | some unit => ∃ top, Leaves c s voq top unit sent.2)
      (s.checkAndSendOne c voq) := by
  apply (checkAndSendOne_leaves mode voq).mono
  rintro ⟨sent, after⟩ attempt post
  have moved := (checkAndSendOne_yields voq).of_ok attempt
  cases sent with
  | none => exact post
  | some unit =>
      obtain ⟨top, ⟨rest, head⟩, numbered, numbers⟩ := post
      obtain ⟨other, yields⟩ := moved
      obtain ⟨rest', head', _⟩ := yields.packets
      obtain ⟨rfl, -⟩ := List.cons.inj (head'.symm.trans head)
      exact ⟨other, yields, numbers (groups other yields.top_mem), numbered⟩

end Passing

/-- Acknowledgements that have arrived at the port `dev`. -/
structure Acknowledges (c : UpstreamConfig) (s : Upstream) (dev : Nat) (acked : Nat → Nat)
    (after : Upstream) : Prop where
  frame : Frame s after
  nxtDataPsn : after.nxtDataPsn = s.nxtDataPsn
  others : ∀ i dst, i ≠ dev → after.rcvAckPsn i dst = s.rcvAckPsn i dst
  raised : ∀ dst, after.rcvAckPsn dev dst = s.rcvAckPsn dev dst ∨
    s.rcvAckPsn dev dst < after.rcvAckPsn dev dst ∧ after.rcvAckPsn dev dst = acked dst
  windows : WindowsOpen c s after

section Restoring

variable {c : UpstreamConfig} {s middle after : Upstream} {dev : Nat} {acked : Nat → Nat}

theorem Acknowledges.refl : Acknowledges c s dev acked s :=
  ⟨Frame.refl s, rfl, fun _ _ _ => rfl, fun _ => .inl rfl, fun _ => .inl rfl⟩

theorem Acknowledges.trans (left : Acknowledges c s dev acked middle)
    (right : Acknowledges c middle dev acked after) : Acknowledges c s dev acked after := by
  refine ⟨left.frame.trans right.frame, right.nxtDataPsn.trans left.nxtDataPsn,
    fun i dst other => (right.others i dst other).trans (left.others i dst other), fun dst => ?_,
    left.windows.trans right.windows⟩
  rcases right.raised dst with same | ⟨newer, exact⟩
  · rw [same]
    exact left.raised dst
  · rcases left.raised dst with before | ⟨rose, _⟩
    · exact .inr ⟨before ▸ newer, exact⟩
    · exact .inr ⟨rose.trans newer, exact⟩

theorem Acknowledges.acks_le (acks : Acknowledges c s dev acked after) (i dst : Nat) :
    s.rcvAckPsn i dst ≤ after.rcvAckPsn i dst := by
  by_cases here : i = dev
  · rw [here]
    rcases acks.raised dst with same | ⟨newer, _⟩
    · exact same.ge
    · exact newer.le
  · exact (acks.others i dst here).ge

theorem Acknowledges.below (acks : Acknowledges c s dev acked after) (below : s.AcksBelow)
    (sent : ∀ dst, acked dst ≤ s.nxtDataPsn dev dst) : after.AcksBelow := by
  intro i dst
  rw [acks.nxtDataPsn]
  by_cases here : i = dev
  · rw [here]
    rcases acks.raised dst with same | ⟨_, exact⟩
    · rw [same]
      exact below dev dst
    · rw [exact]
      exact sent dst
  · rw [acks.others i dst here]
    exact below i dst

/-- The failures that are possible when `acked` arrives at the port `dev`. -/
def SparesAcks (s : Upstream) (dev : Nat) (acked : Nat → Nat) (failure : Assertion) : Prop :=
  failure ≠ .ackOrdered ∧
    (s.AcksBelow → (∀ dst, acked dst ≤ s.nxtDataPsn dev dst) → failure ≠ .inflightOrdered)

theorem Acknowledges.andThen {Value : Type} (acks : Acknowledges c s dev acked middle)
    {result : Except Assertion Value} {post : Value → Prop}
    (next : Holds middle.Spares post result) : Holds (s.SparesAcks dev acked) post result :=
  next.weaken fun _ spares => ⟨spares.1, fun below sent => spares.2 (acks.below below sent)⟩

theorem Acknowledges.opens (acks : Acknowledges c s dev acked middle)
    (opens : Opens c middle after) : Acknowledges c s dev acked after :=
  acks.trans ⟨opens.frame, opens.nxtDataPsn, fun i dst _ => by rw [opens.rcvAckPsn],
    fun dst => .inl (by rw [opens.rcvAckPsn]), opens.windows⟩

theorem Acknowledges.set (acks : Acknowledges c s dev acked middle) {dst : Nat}
    (newer : middle.rcvAckPsn dev dst < acked dst) :
    Acknowledges c s dev acked (middle.setRcvAckPsn dev dst (acked dst)) := by
  refine acks.trans ⟨Frame.setRcvAckPsn _ _ _ _, rfl, fun i other different => ?_, fun other => ?_,
    fun _ => .inl rfl⟩
  · exact setCell_other _ _ _ _ _ _ fun same => different same.1
  · by_cases same : other = dst
    · subst same
      have here : (middle.setRcvAckPsn dev other (acked other)).rcvAckPsn dev other =
          acked other := setCell_same _ _ _ _
      exact .inr ⟨here.symm ▸ newer, here⟩
    · exact .inl (setCell_other _ _ _ _ _ _ fun here => same here.2)

theorem recoverDst_acknowledges (mode : c.settings.CountsPsns) {tag : SwitchACKTag}
    (acks : Acknowledges c s dev tag.getACKEntry middle) (dst : Nat) :
    Holds (s.SparesAcks dev tag.getACKEntry) (Acknowledges c s dev tag.getACKEntry)
      (recoverDst c tag dev middle dst) := by
  unfold recoverDst
  simp only [mode.absolute, if_true, psnRow_all mode]
  split
  · split
    · rename_i newer
      have set := acks.set newer
      apply set.andThen
      exact (updateDstWin_opens mode _ _ _).mono fun _ _ opens => set.opens opens
    · apply acks.andThen
      exact (updateDstWin_opens mode _ _ _).mono fun _ _ opens => acks.opens opens
  · exact acks

/-- `ResumeVOQWin` before it drains the VOQs: a Switch-ACK raises PSNs to what it acknowledges. -/
theorem restoreWin_acknowledges (mode : c.settings.CountsPsns) (tag : SwitchACKTag)
    (sip inDev : Nat) :
    Holds (s.SparesAcks inDev (tag.acknowledged c.settings sip))
      (Acknowledges c s inDev (tag.acknowledged c.settings sip))
      (s.restoreWin c tag sip inDev) := by
  unfold restoreWin
  split
  · rename_i ingress
    have acked : tag.acknowledged c.settings sip = tag.getACKEntry := by
      funext dst
      simp [SwitchACKTag.acknowledged, ingress]
    rw [acked]
    apply Holds.foldlM (Acknowledges c s inDev tag.getACKEntry) _ _ Acknowledges.refl
    intro state dst _ acks
    exact recoverDst_acknowledges mode acks dst
  · rename_i single
    have acked : tag.acknowledged c.settings sip sip = tag.getAckedSize := by
      unfold SwitchACKTag.acknowledged
      split
      · contradiction
      · exact if_pos rfl
    unfold resumeDst
    simp only [mode.absolute, if_true, psnRow_all mode]
    split
    · rename_i newer
      have cut := Word32.trunc_le tag.getAckedSize
      rw [← acked] at newer cut ⊢
      have start : Acknowledges c s inDev (tag.acknowledged c.settings sip) s := Acknowledges.refl
      have set := start.set (newer.trans_le cut)
      apply set.andThen
      exact (updateDstWin_opens mode _ _ _).mono fun _ _ opens => set.opens opens
    · have same : Acknowledges c s inDev (tag.acknowledged c.settings sip) s := Acknowledges.refl
      apply same.andThen
      exact (updateDstWin_opens mode _ _ _).mono fun _ _ opens => same.opens opens

end Restoring

/-- What one event may do to the tables and windows. It numbers only sizes in `examined`. -/
inductive Turns (c : UpstreamConfig) (s : Upstream) (examined : Nat → Nat → Prop)
    (after : Upstream) : Prop
  | still (nxtDataPsn : after.nxtDataPsn = s.nxtDataPsn) (rcvAckPsn : after.rcvAckPsn = s.rcvAckPsn)
      (windows : WindowsOpen c s after)
  | numbers {dev dst size : Nat} (numbers : Numbers c s dev dst size after)
      (examined : examined dst size)
  | acknowledges {dev : Nat} {acked : Nat → Nat} (acks : Acknowledges c s dev acked after)

structure Windowed (s : Upstream) : Prop where
  within : ∀ dst, s.outstanding dst ≤ s.win dst
  small : ∀ dst, s.win dst < Word32.size

section Windowed

variable {c : UpstreamConfig} {s after : Upstream} {examined : Nat → Nat → Prop}

theorem Windowed.init (c : UpstreamConfig) : Windowed (Upstream.init c) := by
  constructor
  · intro dst
    have none : (Upstream.init c).outstanding dst = 0 := by
      unfold outstanding
      apply List.sum_eq_zero
      intro bytes member
      obtain ⟨i, -, rfl⟩ := List.mem_map.mp member
      rfl
    rw [none]
    exact Nat.zero_le _
  · intro dst
    have closed : (Upstream.init c).win dst = 0 := by simp [win, Upstream.init]
    rw [closed]
    decide

theorem Turns.mono {wider : Nat → Nat → Prop} (turns : Turns c s examined after)
    (wide : ∀ dst size, examined dst size → wider dst size) : Turns c s wider after := by
  cases turns with
  | still data acks windows => exact .still data acks windows
  | numbers numbers looks => exact .numbers numbers (wide _ _ looks)
  | acknowledges acks => exact .acknowledges acks

theorem Turns.windowed (turns : Turns c s examined after) (windowed : Windowed s)
    (fits : ∀ dst size, examined dst size → s.outstanding dst + size < Word32.size) :
    Windowed after := by
  cases turns with
  | still data acks windows =>
      refine ⟨fun dst => ?_, windows.win_lt windowed.small⟩
      rw [outstanding_congr data acks]
      exact (windowed.within dst).trans (windows.win_le dst)
  | @numbers dev dst size numbers checked =>
      refine ⟨fun other => ?_, numbers.windows.win_lt windowed.small⟩
      have added := @outstanding_numbered s after other dev dst size numbers.nxtDataPsn
        numbers.rcvAckPsn
      by_cases same : other = dst
      · subst same
        have room := numbers.room
        rw [Word32.trunc_eq _ (fits other size checked)] at room
        rw [if_pos rfl] at added
        exact added.trans room
      · rw [if_neg same, Nat.add_zero] at added
        exact added.trans ((windowed.within other).trans (numbers.windows.win_le other))
  | acknowledges acks =>
      refine ⟨fun dst => ?_, acks.windows.win_lt windowed.small⟩
      have less := outstanding_acked acks.nxtDataPsn fun dev => acks.acks_le dev dst
      exact less.trans ((windowed.within dst).trans (acks.windows.win_le dst))

/-- `GetInflightBytes` stays within the window. -/
theorem Windowed.inflightBytes_le (windowed : Windowed s) (dst : Nat) :
    s.inflightBytes dst ≤ s.win dst := by
  rw [inflightBytes_outstanding]
  exact (Word32.trunc_le _).trans (windowed.within dst)

end Windowed

end Upstream

end Floodgate
