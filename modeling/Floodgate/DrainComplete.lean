import Floodgate.VoqRuns
import Floodgate.WindowInvariant

/-! The drains leave no packet behind that its window would let through. -/

namespace Floodgate.Upstream

open Std Outcome LabelledRun

def Blocked (c : UpstreamConfig) (s : Upstream) (voq : Nat × Nat) : Prop :=
  ∀ top rest, s.voqPackets voq = top :: rest → s.fits c top.dst top.pkt.size = false

section Blocking

variable {c : UpstreamConfig} {s after : Upstream} {voq other : Nat × Nat}

theorem blocked_empty (empty : s.voqPackets voq = []) : Blocked c s voq := by
  intro top rest head
  rw [empty] at head
  contradiction

theorem Frame.blocked (frame : Frame s after) (blocked : Blocked c s voq)
    (same : ∀ unit ∈ s.voqPackets voq, SameFor unit.dst s after) : Blocked c after voq := by
  intro top rest head
  rw [frame.voqPackets] at head
  rw [(same top (by simp [head])).fits]
  exact blocked top rest head

/-- Sending from one VOQ does not unblock another: no destination has packets in both. -/
theorem Sends.blocked {top unit : PacketUnit} (consistent : Consistent c s)
    (sends : Sends c s voq top unit after) (different : other ≠ voq)
    (blocked : Blocked c s other) : Blocked c after other := by
  intro first rest head
  rw [sends.packets, if_neg different] at head
  obtain ⟨later, here⟩ := sends.head
  have foreign : first.dst ≠ top.dst := by
    intro same
    exact different (consistent.single (by simp [head]) (by simp [here]) same)
  rw [(sends.passes.other foreign).fits]
  exact blocked first rest head

theorem Sends.sound {top unit : PacketUnit} (consistent : Consistent c s)
    (sends : Sends c s voq top unit after) (sound : WindowsSound c s) : WindowsSound c after := by
  obtain ⟨rest, head⟩ := sends.head
  exact sends.passes.sound sound (consistent.home voq top (by simp [head])) sends.room

theorem Attempt.blocked {after : Upstream} (attempt : Attempt c s voq none after) :
    after = s ∧ Blocked c s voq := by
  cases attempt with
  | idle empty => exact ⟨rfl, blocked_empty empty⟩
  | refused head full =>
      refine ⟨rfl, fun top rest here => ?_⟩
      rw [head] at here
      obtain ⟨rfl, rfl⟩ := List.cons.inj here
      exact full

theorem heldPackets_length (s : Upstream) : s.heldPackets.length = s.heldBy fun _ => 1 := by
  simp only [heldPackets, List.length_flatMap, heldBy, VOQGroup.heldBy, MapSum.sumBy, List.map_const',
    List.sum_replicate_nat, Nat.mul_one]

end Blocking

section Drain

variable {c : UpstreamConfig} {s : Upstream}

structure Settles (c : UpstreamConfig) (after : Upstream) : Prop where
  consistent : Consistent c after
  sound : WindowsSound c after
  blocked : ∀ voq, Blocked c after voq

theorem checkAndSendAll_blocked (voq : Nat × Nat) (rounds : Nat) (consistent : Consistent c s)
    (sound : WindowsSound c s) (enough : (s.voqPackets voq).length ≤ rounds) :
    Holds Assertion.OfInput
      (fun sent => WindowsSound c sent.2 ∧ Blocked c sent.2 voq ∧
        ∀ other, other ≠ voq → Blocked c s other → Blocked c sent.2 other)
      (checkAndSendAll c voq rounds s) := by
  induction rounds generalizing s with
  | zero =>
      have empty : s.voqPackets voq = [] := List.length_eq_zero_iff.mp (by omega)
      exact ⟨sound, blocked_empty empty, fun _ _ blocked => blocked⟩
  | succ rounds ih =>
      unfold checkAndSendAll
      apply (checkAndSendOne_attempt consistent voq).bind
      rintro ⟨sent, middle⟩ _ attempt
      cases sent with
      | none =>
          obtain ⟨rfl, blocked⟩ := attempt.blocked
          exact ⟨sound, blocked, fun _ _ blocked => blocked⟩
      | some unit =>
          cases attempt with
          | sent sends =>
              have shorter : (middle.voqPackets voq).length ≤ rounds := by
                rw [sends.packets, if_pos rfl, List.length_tail]
                omega
              apply (ih sends.consistent (sends.sound consistent sound) shorter).bind
              rintro rest _ ⟨sound', blocked, others⟩
              exact ⟨sound', blocked, fun other different earlier =>
                others other different (sends.blocked consistent different earlier)⟩

theorem checkAndSendDst_settles (consistent : Consistent c s) (sound : WindowsSound c s)
    {dst : Nat}
    (others : ∀ voq, (∀ unit ∈ s.voqPackets voq, unit.dst ≠ dst) → Blocked c s voq) :
    Holds Assertion.OfInput (fun sent => Settles c sent.2) (s.checkAndSendDst c dst) := by
  unfold checkAndSendDst
  apply (shouldIgnore_input c dst).bind
  rintro ignore _ (⟨rfl, rule⟩ | ⟨rfl, gid, rule⟩)
  · refine ⟨consistent, sound, fun voq => others voq fun unit member target => ?_⟩
    have home := consistent.home voq unit member
    rw [target, rule] at home
    contradiction
  simp only [Bool.false_eq_true, if_false]
  apply (findVOQ_holds consistent rule).bind
  intro found _ facts
  cases found with
  | none =>
      have empty : s.getBufferDst dst = 0 := by
        rw [consistent.buffered, facts.1, PacketUnit.bytes_nil]
      simp only [empty, if_true]
      exact ⟨consistent, sound, fun voq => others voq (facts.2 voq)⟩
  | some voq =>
      have drained := checkAndSendAll_drains voq (s.voqPackets voq).length consistent
      apply (checkAndSendAll_blocked voq _ consistent sound (Nat.le_refl _)).mono
      rintro ⟨units, after⟩ success ⟨sound', blocked, rest⟩
      refine ⟨(drained.of_ok success).consistent consistent, sound', fun other => ?_⟩
      by_cases same : other = voq
      · exact same ▸ blocked
      · exact rest other same (others other fun unit member target =>
          same (facts.2 other unit member target))

/-- The first loop queues every VOQ that it does not leave blocked, and never returns early. -/
theorem sendFirstRound_pending (dsts : List Nat) (pending : Nat × Nat → Prop)
    (consistent : Consistent c s) (sound : WindowsSound c s)
    (registered : ∀ dst ∈ dsts, ∃ gid, c.dst2group dst = .group gid)
    (covered : ∀ voq, Blocked c s voq ∨ pending voq ∨
      ∃ top rest, s.voqPackets voq = top :: rest ∧ top.dst ∈ dsts) :
    Holds Assertion.OfInput
      (fun sent => WindowsSound c sent.2.2 ∧ ∃ left, sent.1 = some left ∧
        ∀ voq, Blocked c sent.2.2 voq ∨ pending voq ∨ voq ∈ left)
      (sendFirstRound c dsts s) := by
  induction dsts generalizing s pending with
  | nil =>
      refine ⟨sound, [], rfl, fun voq => ?_⟩
      rcases covered voq with blocked | waits | ⟨top, rest, _, member⟩
      · exact .inl blocked
      · exact .inr (.inl waits)
      · simp at member
  | cons dst dsts ih =>
      obtain ⟨gid, rule⟩ := registered dst (by simp)
      have later : ∀ other ∈ dsts, ∃ gid, c.dst2group other = .group gid :=
        fun other member => registered other (List.mem_cons_of_mem _ member)
      unfold sendFirstRound
      split
      case isFalse closed =>
        -- a window of 0 blocks every head of `dst`
        apply ih pending consistent sound later
        intro voq
        rcases covered voq with blocked | waits | ⟨top, rest, head, member⟩
        · exact .inl blocked
        · exact .inr (.inl waits)
        rcases List.mem_cons.mp member with target | inside
        · refine .inl fun first tail here => ?_
          rw [head] at here
          obtain ⟨rfl, rfl⟩ := List.cons.inj here
          have here : c.dst2group top.dst = .group gid := target ▸ rule
          exact sound.closed here (by rw [target]; omega) top.pkt.size_pos top.pkt.size_lt
        · exact .inr (.inr ⟨top, rest, head, inside⟩)
      case isTrue =>
      simp only [UpstreamConfig.shouldIgnore, rule, ok_bind, Bool.false_eq_true, if_false]
      apply (findVOQ_holds consistent rule).bind
      intro found _ facts
      cases found with
      | none =>
          apply ih pending consistent sound later
          intro voq
          rcases covered voq with blocked | waits | ⟨top, rest, head, member⟩
          · exact .inl blocked
          · exact .inr (.inl waits)
          rcases List.mem_cons.mp member with target | inside
          · exact absurd target (facts.2 voq top (by simp [head]))
          · exact .inr (.inr ⟨top, rest, head, inside⟩)
      | some voq =>
          have heads : ∀ other top rest, s.voqPackets other = top :: rest → top.dst = dst →
              other = voq := fun other top rest head target =>
            facts.2 other top (by simp [head]) target
          apply (checkAndSendOne_attempt consistent voq).bind
          rintro ⟨sent, middle⟩ _ attempt
          cases sent with
          | none =>
              obtain ⟨rfl, blocked⟩ := attempt.blocked
              apply ih pending consistent sound later
              intro other
              rcases covered other with shut | waits | ⟨top, rest, head, member⟩
              · exact .inl shut
              · exact .inr (.inl waits)
              rcases List.mem_cons.mp member with target | inside
              · exact .inl (heads other top rest head target ▸ blocked)
              · exact .inr (.inr ⟨top, rest, head, inside⟩)
          | some unit =>
              cases attempt with
              | sent sends =>
                  have next := ih (fun other => pending other ∨ other = voq) sends.consistent
                    (sends.sound consistent sound) later (by
                      intro other
                      by_cases same : other = voq
                      · exact .inr (.inl (.inr same))
                      rcases covered other with blocked | waits | ⟨top, rest, head, member⟩
                      · exact .inl (sends.blocked consistent same blocked)
                      · exact .inr (.inl (.inl waits))
                      rcases List.mem_cons.mp member with target | inside
                      · exact absurd (heads other top rest head target) same
                      · refine .inr (.inr ⟨top, rest, ?_, inside⟩)
                        rw [sends.packets, if_neg same, head])
                  apply next.bind
                  rintro ⟨result, units, final⟩ _ ⟨sound', left, rfl, queued⟩
                  refine ⟨sound', voq :: left, rfl, fun other => ?_⟩
                  rcases queued other with blocked | (waits | same) | member
                  · exact .inl blocked
                  · exact .inr (.inl waits)
                  · exact .inr (.inr (by simp [same]))
                  · exact .inr (.inr (List.mem_cons_of_mem _ member))

/-- The second loop ends with every VOQ blocked. Each round drops a VOQ from the queue or sends a
packet, which bounds the rounds. -/
theorem sendRoundRobin_settles (rounds : Nat) (left : List (Nat × Nat))
    (consistent : Consistent c s) (sound : WindowsSound c s)
    (covered : ∀ voq, Blocked c s voq ∨ voq ∈ left)
    (enough : left.length + s.heldBy (fun _ => 1) ≤ rounds) :
    Holds Assertion.OfInput (fun sent => Settles c sent.2) (sendRoundRobin c rounds left s) := by
  induction rounds generalizing s left with
  | zero =>
      have empty : left = [] := List.length_eq_zero_iff.mp (by omega)
      refine ⟨consistent, sound, fun voq => ?_⟩
      rcases covered voq with blocked | member
      · exact blocked
      · simp [empty] at member
  | succ rounds ih =>
      cases left with
      | nil =>
          refine ⟨consistent, sound, fun voq => ?_⟩
          rcases covered voq with blocked | member
          · exact blocked
          · simp at member
      | cons voq left =>
          rw [List.length_cons] at enough
          unfold sendRoundRobin
          apply (checkAndSendOne_attempt consistent voq).bind
          rintro ⟨sent, middle⟩ _ attempt
          cases sent with
          | none =>
              obtain ⟨rfl, blocked⟩ := attempt.blocked
              apply ih left consistent sound _ (by omega)
              intro other
              rcases covered other with shut | member
              · exact .inl shut
              · rcases List.mem_cons.mp member with same | inside
                · exact .inl (same ▸ blocked)
                · exact .inr inside
          | some unit =>
              simp only at attempt
              cases attempt with
              | sent sends =>
                  have fewer := sends.heldBy fun _ => 1
                  have bound : (left ++ [voq]).length + middle.heldBy (fun _ => 1) ≤ rounds := by
                    rw [List.length_append, List.length_singleton]
                    omega
                  apply (ih (left ++ [voq]) sends.consistent (sends.sound consistent sound) _
                    bound).bind
                  · intro later _ settles
                    exact settles
                  intro other
                  by_cases same : other = voq
                  · exact .inr (by simp [same])
                  rcases covered other with blocked | member
                  · exact .inl (sends.blocked consistent same blocked)
                  · rcases List.mem_cons.mp member with here | inside
                    · exact absurd here same
                    · exact .inr (List.mem_append_left _ inside)

theorem sendFirstRound_keys (consistent : Consistent c s) (sound : WindowsSound c s) :
    Holds Assertion.OfInput
      (fun sent => WindowsSound c sent.2.2 ∧ ∃ left, sent.1 = some left ∧
        ∀ voq, Blocked c sent.2.2 voq ∨ False ∨ voq ∈ left)
      (sendFirstRound c s.wins.keys s) := by
  apply sendFirstRound_pending s.wins.keys (fun _ => False) consistent sound
  · intro dst member
    exact sound.rule dst (by simpa using member)
  · intro voq
    cases head : s.voqPackets voq with
    | nil => exact .inl (blocked_empty head)
    | cons top rest =>
        have registered := consistent.registered voq top (by simp [head])
        exact .inr (.inr ⟨top, rest, rfl, by simpa using registered⟩)

theorem checkAndSendVOQ_settles (consistent : Consistent c s) (sound : WindowsSound c s) :
    Holds Assertion.OfInput (fun sent => Settles c sent.2) (s.checkAndSendVOQ c) := by
  have drained := sendFirstRound_drains s.wins.keys consistent
  unfold checkAndSendVOQ
  apply (sendFirstRound_keys consistent sound).bind
  rintro ⟨result, units, middle⟩ success ⟨sound', left, rfl, queued⟩
  have consistent' := (drained.of_ok success).consistent consistent
  simp only at sound' queued ⊢
  apply (sendRoundRobin_settles _ left consistent' sound' _ _).bind
  · intro later _ settles
    exact settles
  · intro voq
    rcases queued voq with blocked | nothing | member
    · exact .inl blocked
    · exact nothing.elim
    · exact .inr member
  · rw [heldPackets_length]

end Drain

theorem drain_settles {c : UpstreamConfig} {s : Upstream} {sip : Nat}
    (consistent : Consistent c s) (sound : WindowsSound c s)
    (others : c.settings.switchAckMode ≠ .switchIngressCredit →
      ∀ voq, (∀ unit ∈ s.voqPackets voq, unit.dst ≠ sip) → Blocked c s voq) :
    Holds Assertion.OfInput (fun sent => Settles c sent.2) (s.drain c sip) := by
  unfold drain
  split
  · exact checkAndSendVOQ_settles consistent sound
  · rename_i mode
    exact checkAndSendDst_settles consistent sound (others mode)

section Events

variable {c : UpstreamConfig} {s : Upstream}

theorem Settles.init (c : UpstreamConfig) : Settles c (Upstream.init c) := by
  have consistent := Consistent.init c
  refine ⟨consistent, WindowsSound.init c, fun voq top rest head => ?_⟩
  have registered := consistent.registered voq top (by simp [head])
  simp [Upstream.init] at registered

theorem Buffers.blocked {voq other : Nat × Nat} {unit : PacketUnit} {after : Upstream}
    (consistent : Consistent c s) (buffers : Buffers c s voq unit after)
    (consistent' : Consistent c after)
    (full : s.fits c unit.dst unit.pkt.size = false ∨ s.getBufferDst unit.dst ≠ 0)
    (blocked : Blocked c s other) : Blocked c after other := by
  have windows := SameFor.of_eq buffers.wins buffers.nxtDataPsn buffers.rcvAckPsn
  intro top rest head
  rw [(windows top.dst).fits]
  rw [buffers.packets] at head
  by_cases here : other = voq
  case neg =>
    rw [if_neg here] at head
    exact blocked top rest head
  rw [if_pos here] at head
  cases packets : s.voqPackets other with
  | cons first later =>
      rw [packets, List.cons_append] at head
      obtain ⟨rfl, _⟩ := List.cons.inj head
      exact blocked first later packets
  | nil =>
      rw [packets, List.nil_append] at head
      obtain ⟨rfl, rfl⟩ := List.cons.inj head
      rcases full with shut | waiting
      · exact shut
      -- another packet of the destination would have to wait in the same VOQ
      refine absurd ((consistent.unbuffered_iff unit.dst).mpr ?_) waiting
      intro place earlier inside target
      have kept : earlier ∈ after.voqPackets place := by
        rw [buffers.packets]
        split
        · exact List.mem_append_left _ inside
        · exact inside
      have added : unit ∈ after.voqPackets voq := by
        rw [buffers.packets, if_pos rfl]
        simp
      have same := consistent'.single kept added target
      rw [same, ← here, packets] at inside
      simp at inside

theorem arrives_settles (all : AllSwitches c) (settles : Settles c s) {pkt : Packet}
    {outDev qIndex : Nat} {routed : Option Packet} {after : Upstream}
    (arrives : Arrives c s pkt outDev qIndex routed after)
    (small : after.heldBytes < Word32.size) : Settles c after := by
  obtain ⟨consistent, sound, blocked⟩ := settles
  cases arrives with
  | control => exact ⟨consistent, sound, blocked⟩
  | ignored => exact ⟨consistent, sound, blocked⟩
  | @passed gid registered after pkt' _ rule check frame known empty passes same =>
      obtain ⟨sound', others⟩ := (checkDstWin_sound all sound rule pkt.size).of_ok check
      have room := (checkDstWin_ok check).1.symm
      have nowhere := (consistent.unbuffered_iff pkt.dip).mp empty
      have frame' := frame.trans same
      refine ⟨consistent.frame frame', passes.sound sound' rule room, fun voq => ?_⟩
      refine frame'.blocked (blocked voq) fun unit member => ?_
      have different := nowhere voq unit member
      exact (others unit.dst different).trans (passes.other different)
  | @buffered gid voq room registered after _ rule check frame known full buffers =>
      obtain ⟨sound', others⟩ := (checkDstWin_sound all sound rule pkt.size).of_ok check
      obtain ⟨test, _, unchanged⟩ := checkDstWin_ok check
      have consistent' := buffers.consistent small
      refine ⟨consistent', sound'.congr buffers.wins buffers.nxtDataPsn buffers.rcvAckPsn,
        fun other => ?_⟩
      have earlier : Blocked c registered other := by
        refine frame.blocked (blocked other) fun unit member => ?_
        by_cases target : unit.dst = pkt.dip
        · have known := consistent.registered other unit member
          rw [target] at known
          exact (unchanged known) ▸ SameFor.refl _ _
        · exact others unit.dst target
      refine buffers.blocked (consistent.frame frame) consistent' ?_ earlier
      rcases full with shut | waiting
      · exact .inl (test ▸ shut)
      · exact .inr (frame.getBufferDst pkt.dip ▸ waiting)

theorem handle_settles (all : AllSwitches c) (settles : Settles c s) (event : FloodgateEvent) :
    Holds Assertion.OfInput
      (fun sent => sent.2.heldBytes < Word32.size → Settles c sent.2) (s.handle c event) := by
  obtain ⟨consistent, sound, blocked⟩ := settles
  cases event with
  | data pkt isData outDev qIndex =>
      apply (checkVOQWin_arrives consistent pkt outDev qIndex).bind
      rintro ⟨routed, after⟩ _ arrives small
      exact arrives_settles all ⟨consistent, sound, blocked⟩ arrives small
  | ack tag sip inDev =>
      unfold handle resumeVOQWin
      apply (restoreWin_sound sound tag sip inDev).bind
      rintro restored success ⟨sound', others⟩
      have frame := (restoreWin_frame c s tag sip inDev).of_ok success
      apply (drain_settles (consistent.frame frame) sound' _).mono
      · exact fun _ _ settles _ => settles
      · intro single voq foreign
        refine frame.blocked (blocked voq) fun unit member => others single unit.dst ?_
        exact foreign unit (by rwa [frame.voqPackets])

theorem Settles.run (all : AllSwitches c) {labels : List (FloodgateEvent × List PacketUnit)}
    (run : Run (BoundedStep c) (Upstream.init c) labels s) : Settles c s :=
  run.invariant (Settles c) (Settles.init c) fun _ label _ settles step =>
    ((handle_settles all settles label.1).of_ok step.1) step.2

end Events

/-- No head of a VOQ passes `CheckDstWin`, and a round-robin drain begun from the state, with
whatever windows an ACK restores, does not return at an ignored destination. -/
structure NothingSendable (c : UpstreamConfig) (s : Upstream) : Prop where
  blocked : ∀ voq top rest, s.voqPackets voq = top :: rest →
    s.checkDstWin c top.dst top.pkt.size = .ok (false, s)
  noReturn : ∀ tag sip inDev restored sent, s.restoreWin c tag sip inDev = .ok restored →
    sendFirstRound c restored.wins.keys restored = .ok sent → sent.1 ≠ none

/-- While the bytes held in VOQs fit 32 bits, no event leaves a packet behind that its window would
let through. -/
theorem no_sendable_packet_left (c : UpstreamConfig) (all : AllSwitches c)
    (labels : List (FloodgateEvent × List PacketUnit)) (s : Upstream)
    (run : Run (BoundedStep c) (Upstream.init c) labels s) : NothingSendable c s := by
  obtain ⟨consistent, sound, blocked⟩ := Settles.run all run
  refine ⟨fun voq top rest head => ?_, fun tag sip inDev restored sent success result => ?_⟩
  · have member : top ∈ s.voqPackets voq := by simp [head]
    have ordered := fun absolute =>
      sound.ordered absolute top.dst voq.1 (consistent.home voq top member)
    rw [checkDstWin_known (consistent.registered voq top member) _ ordered,
      blocked voq top rest head]
  · have frame := (restoreWin_frame c s tag sip inDev).of_ok success
    have sound' := ((restoreWin_sound sound tag sip inDev).of_ok success).1
    obtain ⟨_, left, returned, _⟩ :=
      (sendFirstRound_keys (consistent.frame frame) sound').of_ok result
    rw [returned]
    simp

theorem no_sendable_packet_left_two_hosts :
    NothingSendable sharing (twoHosts.foldl (next sharing) (Upstream.init sharing)) :=
  no_sendable_packet_left sharing rfl _ _ (labelled_run twoHosts twoHosts_taken)

/-- Under dynamic hashing a wrapped count makes the switch forget a VOQ with packets: the window
opens and they stay. -/
theorem forgotten_voq_stays_full :
    ¬ ∀ (c : UpstreamConfig), AllSwitches c →
      ∀ (labels : List (FloodgateEvent × List PacketUnit)) (s : Upstream),
        Run (Step c) (Upstream.init c) labels s → NothingSendable c s := by
  intro claim
  obtain ⟨labels, run⟩ := dynamic_run
  have blocked := (claim dynamicConfig rfl labels _ run).blocked (0, 0) kiloUnit
    (List.replicate 4194303 kiloUnit) filled_voqPackets
  have open' := (filled_check (c := dynamicConfig) rfl 1024).symm.trans blocked
  simp at open'

end Floodgate.Upstream
