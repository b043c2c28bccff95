import Floodgate.VoqSteps
import Floodgate.VoqOverflow

/-! Runs of the upstream half: its bookkeeping over any interleaving of data and ACKs. -/

namespace Floodgate

open Std Outcome LabelledRun

namespace Upstream

/-- An event after which the bytes held in the VOQs still fit 32 bits. -/
def BoundedStep (c : UpstreamConfig) (s : Upstream) (label : FloodgateEvent × List PacketUnit)
    (after : Upstream) : Prop :=
  Step c s label after ∧ after.heldBytes < Word32.size

structure DynamicTables (c : UpstreamConfig) (s : Upstream) (gid : Nat) (g : VOQGroup) : Prop where
  defined : ∀ dst, dst ∈ g.dst2voq ↔ c.dst2group dst = .group gid ∧ 0 < s.getBufferDst dst
  keys : ∀ id, id ∈ g.voqs ↔ ∃ dst : Nat, g.dst2voq[dst]? = some id
  below : ∀ id ∈ g.voqs, id < g.config.voqLimit
  size : g.voqs.size ≤ g.config.voqLimit
  nonempty : ∀ id ∈ g.voqs, g.packets id ≠ []

/-- The three byte counts agree with the packets held, each destination has one VOQ, the tables of
dynamic hashing match, and no event can fail an assertion about them. -/
structure Bookkeeping (c : UpstreamConfig) (s : Upstream) : Prop where
  buffering : ∀ (dst gid : Nat) (g : VOQGroup), c.dst2group dst = .group gid →
    s.voqGroups[gid]? = some g → s.getBufferDst dst = g.heldBy (ofDst dst)
  voqBuffer : ∀ (gid id : Nat) (g : VOQGroup), s.voqGroups[gid]? = some g →
    g.bufferBytes id = PacketUnit.bytes (g.packets id)
  statistics : s.bufferingTotal = s.getTotalBytes
  single : ∀ voq voq', ∀ unit ∈ s.voqPackets voq, ∀ unit' ∈ s.voqPackets voq',
    unit.dst = unit'.dst → voq = voq'
  dynamic : ∀ (gid : Nat) (g : VOQGroup), s.voqGroups[gid]? = some g →
    g.config.dynamicHash = true → DynamicTables c s gid g
  asserted : ∀ event failure, s.handle c event = .error failure → failure.OfInput

section Bookkeeping

variable {c : UpstreamConfig} {s : Upstream}

theorem handle_consistent (consistent : Consistent c s) (event : FloodgateEvent) :
    Holds Assertion.OfInput
      (fun sent => sent.2.heldBytes < Word32.size → Consistent c sent.2) (s.handle c event) := by
  cases event with
  | data pkt isData outDev qIndex =>
      apply (checkVOQWin_arrives consistent pkt outDev qIndex).bind
      rintro ⟨routed, after⟩ _ arrives small
      simp only at arrives small ⊢
      cases arrives with
      | control => exact consistent
      | ignored => exact consistent
      | passed _ _ _ frame _ _ _ same => exact consistent.frame (frame.trans same)
      | buffered _ _ _ _ _ _ buffers => exact buffers.consistent small
  | ack tag sip inDev =>
      apply (resumeVOQWin_drains consistent tag sip inDev).mono
      rintro ⟨sent, after⟩ _ ⟨restored, _, frame, drains⟩ _
      exact drains.consistent (consistent.frame frame)

theorem Consistent.run {labels : List (FloodgateEvent × List PacketUnit)} {s : Upstream}
    (run : Run (BoundedStep c) (Upstream.init c) labels s) : Consistent c s :=
  run.invariant (Consistent c) (Consistent.init c) fun _ label _ consistent step =>
    ((handle_consistent consistent label.1).of_ok step.1) step.2

theorem heldBy_ofDst_zero (consistent : Consistent c s) {gid other dst : Nat} {g : VOQGroup}
    (rule : c.dst2group dst = .group gid) (known : s.voqGroups[other]? = some g)
    (different : other ≠ gid) : g.heldBy (ofDst dst) = 0 := by
  apply (MapSum.sumBy_eq_zero _ _).mpr
  intro id units found
  apply List.sum_eq_zero
  intro weight member
  obtain ⟨unit, inside, rfl⟩ := List.mem_map.mp member
  have held : unit ∈ s.voqPackets (other, id) := by
    simp only [voqPackets, known, VOQGroup.packets, found, Option.getD_some]
    exact inside
  have home := consistent.home (other, id) unit held
  apply if_neg
  intro target
  rw [target, rule] at home
  exact different (DstRule.group.inj home).symm

theorem heldBy_ofDst (consistent : Consistent c s) {gid dst : Nat} {g : VOQGroup}
    (rule : c.dst2group dst = .group gid) (known : s.voqGroups[gid]? = some g) :
    s.heldBy (ofDst dst) = g.heldBy (ofDst dst) := by
  have split := MapSum.sumBy_erase (fun _ g => VOQGroup.heldBy g (ofDst dst)) s.voqGroups gid
  have rest : MapSum.sumBy (fun _ g => VOQGroup.heldBy g (ofDst dst)) (s.voqGroups.erase gid) =
      0 := by
    apply (MapSum.sumBy_eq_zero _ _).mpr
    intro other g' found
    rw [MapSum.lookup_erase] at found
    by_cases same : other = gid
    · rw [if_pos same] at found
      contradiction
    · rw [if_neg same] at found
      exact heldBy_ofDst_zero consistent rule found same
  rw [rest, MapSum.entry, known, Nat.zero_add] at split
  exact split.symm

theorem voqBuffer_total (consistent : Consistent c s) {gid : Nat} {g : VOQGroup}
    (known : s.voqGroups[gid]? = some g) :
    MapSum.sumBy (fun _ bytes => bytes) g.voqBuffer = g.heldBy fun unit => unit.pkt.size := by
  apply MapSum.sumBy_entry_congr
  intro id
  rw [VOQGroup.heldBy_entry]
  have counted := (consistent.group gid g known).counted id
  unfold VOQGroup.bufferBytes PacketUnit.bytes at counted
  rw [← counted, MapSum.entry]
  cases g.voqBuffer[id]? <;> rfl

/-- The assertion of `DoStatistics`. -/
theorem Consistent.statistics (consistent : Consistent c s) :
    s.bufferingTotal = s.getTotalBytes := by
  have buffering : s.bufferingTotal = Word32.trunc s.heldBytes := by
    have fold := Word32.foldl_add (s.buffering.toList.map Prod.snd) 0
    rw [← consistent.total, MapSum.sumBy]
    simpa only [bufferingTotal, Word32.trunc, Nat.zero_mod, Nat.zero_add] using fold
  have voqs : s.getTotalBytes = Word32.trunc s.heldBytes := by
    have fold := Word32.foldl_add
      (s.voqGroups.toList.flatMap fun g => g.2.voqBuffer.toList.map Prod.snd) 0
    have sum : (s.voqGroups.toList.flatMap fun g => g.2.voqBuffer.toList.map Prod.snd).sum =
        s.heldBytes := by
      rw [List.flatMap_def, List.sum_flatten, List.map_map]
      exact MapSum.sumBy_congr (fun _ g => MapSum.sumBy (fun _ bytes => bytes) g.voqBuffer)
        (fun _ g => VOQGroup.heldBy g fun unit => unit.pkt.size) s.voqGroups
        fun gid g known => voqBuffer_total consistent known
    rw [← sum]
    simpa only [getTotalBytes, Word32.trunc, Nat.zero_mod, Nat.zero_add] using fold
  rw [buffering, voqs]

theorem Consistent.single (consistent : Consistent c s) {voq voq' : Nat × Nat}
    {unit unit' : PacketUnit} (member : unit ∈ s.voqPackets voq)
    (member' : unit' ∈ s.voqPackets voq') (same : unit.dst = unit'.dst) : voq = voq' := by
  have home := consistent.home voq unit member
  obtain ⟨g, known⟩ := consistent.group_exists home
  have group := consistent.home voq' unit' member'
  rw [← same, home] at group
  have gid : voq.1 = voq'.1 := DstRule.group.inj group
  have known' : s.voqGroups[voq'.1]? = some g := gid ▸ known
  simp only [voqPackets, known] at member
  simp only [voqPackets, known'] at member'
  have consistentGroup := consistent.group voq.1 g known
  have first := consistentGroup.located voq.2 unit member
  have second := consistentGroup.located voq'.2 unit' member'
  rw [← same, first] at second
  exact Prod.ext gid (Option.some.inj second)

theorem Consistent.queued_held (consistent : Consistent c s) {dst : Nat} {unit : PacketUnit}
    (member : unit ∈ s.queued c dst) : unit.dst = dst ∧ ∃ voq, unit ∈ s.voqPackets voq := by
  cases rule : c.dst2group dst with
  | unset => simp [queued, rule] at member
  | ignored => simp [queued, rule] at member
  | group gid =>
      obtain ⟨g, known⟩ := consistent.group_exists rule
      rw [queued_group rule known] at member
      cases found : g.findVOQId dst with
      | none => simp [VOQGroup.queued_none found] at member
      | some id =>
          rw [VOQGroup.queued_found found] at member
          obtain ⟨inside, target⟩ := List.mem_filter.mp member
          refine ⟨by simpa using target, (gid, id), ?_⟩
          simp only [voqPackets, known]
          exact inside

theorem Consistent.held_queued (consistent : Consistent c s) {voq : Nat × Nat} {unit : PacketUnit}
    (member : unit ∈ s.voqPackets voq) : unit ∈ s.queued c unit.dst := by
  have rule := consistent.home voq unit member
  obtain ⟨g, known⟩ := consistent.group_exists rule
  simp only [voqPackets, known] at member
  have found := (consistent.group voq.1 g known).located voq.2 unit member
  rw [queued_group rule known, VOQGroup.queued_found found]
  exact List.mem_filter.mpr ⟨member, by simp⟩

theorem Consistent.unbuffered_iff (consistent : Consistent c s) (dst : Nat) :
    s.getBufferDst dst = 0 ↔ ∀ voq, ∀ unit ∈ s.voqPackets voq, unit.dst ≠ dst := by
  rw [consistent.buffered]
  constructor
  · rintro none voq unit member rfl
    have positive := PacketUnit.bytes_pos unit _ (consistent.held_queued member)
    omega
  · intro nowhere
    have empty : s.queued c dst = [] := by
      apply List.eq_nil_iff_forall_not_mem.mpr
      intro unit member
      obtain ⟨target, voq, inside⟩ := consistent.queued_held member
      exact nowhere voq unit inside target
    rw [empty, PacketUnit.bytes_nil]

theorem Consistent.dynamicTables (consistent : Consistent c s) {gid : Nat} {g : VOQGroup}
    (known : s.voqGroups[gid]? = some g) (dynamic : g.config.dynamicHash = true) :
    DynamicTables c s gid g := by
  have group := consistent.group gid g known
  refine ⟨fun dst => ?_, fun id => ?_, group.below dynamic, group.size_le dynamic,
    fun id stored => group.voq_nonempty dynamic stored⟩
  · constructor
    · intro member
      obtain ⟨id, assigned⟩ := ExtTreeMap.mem_iff_isSome_getElem?.mp member |> Option.isSome_iff_exists.mp
      obtain ⟨unit, inside, target⟩ := group.mapped dynamic dst id assigned
      have held : unit ∈ s.voqPackets (gid, id) := by
        simp only [voqPackets, known]
        exact inside
      have rule := consistent.home (gid, id) unit held
      rw [target] at rule
      refine ⟨rule, ?_⟩
      have search := VOQGroup.findVOQId_dynamic g dynamic dst
      rw [assigned] at search
      rw [consistent.buffered, queued_group rule known, VOQGroup.queued_found search]
      exact PacketUnit.bytes_pos unit _ (List.mem_filter.mpr ⟨inside, by simpa using target⟩)
    · rintro ⟨rule, positive⟩
      rw [consistent.buffered, queued_group rule known] at positive
      by_contra absent
      have none : g.dst2voq[dst]? = none := by simpa using absent
      have search := VOQGroup.findVOQId_dynamic g dynamic dst
      rw [none] at search
      rw [VOQGroup.queued_none search] at positive
      exact absurd positive (by simp)
  · constructor
    · exact group.assigned dynamic id
    · rintro ⟨dst, assigned⟩
      obtain ⟨unit, inside, _⟩ := group.mapped dynamic dst id assigned
      exact VOQGroup.packets_mem g id (List.ne_nil_of_mem inside)

end Bookkeeping

/-- While the bytes held in VOQs fit 32 bits, the bookkeeping is right in every state. -/
theorem voq_bookkeeping (c : UpstreamConfig) (labels : List (FloodgateEvent × List PacketUnit))
    (s : Upstream) (run : Run (BoundedStep c) (Upstream.init c) labels s) : Bookkeeping c s := by
  have consistent := Consistent.run run
  constructor
  · intro dst gid g rule known
    rw [consistent.counted, heldBy_ofDst consistent rule known]
  · intro gid id g known
    exact (consistent.group gid g known).counted id
  · exact consistent.statistics
  · intro voq voq' unit member unit' member' same
    exact consistent.single member member' same
  · intro gid g known dynamic
    exact consistent.dynamicTables known dynamic
  · intro event failure failed
    exact (handle_consistent consistent event).of_error failed

section Replay

variable (c : UpstreamConfig) (s : Upstream) (event : FloodgateEvent)

def output : List PacketUnit :=
  match s.handle c event with
  | .ok sent => sent.1
  | .error _ => []

def next : Upstream :=
  match s.handle c event with
  | .ok sent => sent.2
  | .error _ => s

def takes : Bool :=
  (s.handle c event).isOk && decide ((s.next c event).heldBytes < Word32.size)

def labelled (events : List FloodgateEvent) : List (FloodgateEvent × List PacketUnit) :=
  replay (fun s event => (event, s.output c event)) (next c) s events

theorem takes_step {c : UpstreamConfig} {s : Upstream} {event : FloodgateEvent}
    (taken : s.takes c event = true) :
    BoundedStep c s (event, s.output c event) (s.next c event) := by
  obtain ⟨works, bytes⟩ := Bool.and_eq_true_iff.mp taken
  refine ⟨?_, of_decide_eq_true bytes⟩
  unfold Step output next
  cases handled : s.handle c event with
  | ok sent => rfl
  | error failure =>
      rw [handled] at works
      contradiction

theorem labelled_run {c : UpstreamConfig} (events : List FloodgateEvent) {s : Upstream}
    (all : executes (takes c) (next c) s events = true) :
    Run (BoundedStep c) s (labelled c s events) (events.foldl (next c) s) := by
  have sound : ∀ (s : Upstream) (event : FloodgateEvent), True → s.takes c event = true →
      BoundedStep c s (event, s.output c event) (s.next c event) ∧ True :=
    fun _ _ _ taken => ⟨takes_step taken, trivial⟩
  exact Run.replayed (fun _ => True) sound events trivial all

end Replay

/-- Windows of 1500 bytes for the hosts 1 and 2, which share the one VOQ. -/
def sharing : UpstreamConfig :=
  { narrow .switchDstCredit unlimited 1500 (by decide) with
    dst2group := fun dst => if dst = 1 ∨ dst = 2 then .group 0 else .ignored
    bdpMap := fun dst => if dst = 1 ∨ dst = 2 then some 1500 else none
    groups := (∅ : ExtTreeMap Nat VOQGroupConfig).insert 0 oneDynamic
    group_known := by
      intro dst id rule
      split at rule
      · simp [(DstRule.group.inj rule).symm]
      · contradiction
    bdpMap_lt := by
      intro dst win known
      split at known
      · exact Option.some.inj known ▸ (by decide)
      · contradiction }

def kiloTo (dst : Nat) : FloodgateEvent := .data { kiloPacket with dip := dst } rfl 2 3

def smallTo (dst : Nat) : FloodgateEvent := .data { smallPacket with dip := dst } rfl 2 3

def returnOf (dst : Nat) : FloodgateEvent := .ack (SwitchACKTag.setAckedSize 1024) dst 2

/-- One packet for each host passes, three more wait in turn, and two of them are drained. -/
def twoHosts : List FloodgateEvent :=
  [kiloTo 1, kiloTo 2, kiloTo 1, smallTo 2, smallTo 1, returnOf 1, returnOf 2]

theorem twoHosts_taken : executes (takes sharing) (next sharing) (Upstream.init sharing) twoHosts =
    true := by
  decide +kernel

theorem voq_bookkeeping_two_hosts :
    Bookkeeping sharing (twoHosts.foldl (next sharing) (Upstream.init sharing)) :=
  voq_bookkeeping sharing _ _ (labelled_run twoHosts twoHosts_taken)

/-- With 2^22 packets of 1024 bytes the count of buffered bytes is back at 0. -/
theorem bookkeeping_wraps :
    ¬ ∀ (c : UpstreamConfig) (labels : List (FloodgateEvent × List PacketUnit)) (s : Upstream),
      Run (Step c) (Upstream.init c) labels s → Bookkeeping c s := by
  intro claim
  have run := unlimited_run 4194303
  have bookkeeping := claim _ _ _ run
  have exact := bookkeeping.buffering 1 0 _ rfl filled_group
  rw [filled_getBufferDst, filledGroup_heldBy] at exact
  exact absurd exact (by decide)

end Upstream

end Floodgate
