import Floodgate.VoqRuns

/-! Packets of one destination leave a switch in the order in which they came in. -/

namespace Floodgate

open Std Outcome LabelledRun

/-- A packet but for the `SwitchPSNTag` that it gets on its way out. -/
def Packet.withoutPsn (p : Packet) : Packet :=
  match p.body with
  | .udp _ ingress => { p with body := .udp none ingress }
  | _ => p

theorem Packet.setPsn_withoutPsn (p : Packet) (psn : Nat) :
    (p.setPsn psn).withoutPsn = p.withoutPsn := by
  cases shape : p.body <;> simp [Packet.setPsn, Packet.withoutPsn, shape]

namespace PacketUnit

def payload (unit : PacketUnit) : PacketUnit := { unit with pkt := unit.pkt.withoutPsn }

def forDst (dst : Nat) (units : List PacketUnit) : List PacketUnit :=
  (units.filter fun unit => unit.dst = dst).map payload

@[simp] theorem forDst_nil (dst : Nat) : forDst dst [] = [] := rfl

@[simp] theorem forDst_append (dst : Nat) (first second : List PacketUnit) :
    forDst dst (first ++ second) = forDst dst first ++ forDst dst second := by
  simp [forDst]

theorem forDst_cons (dst : Nat) (unit : PacketUnit) (units : List PacketUnit) :
    forDst dst (unit :: units) =
      if unit.dst = dst then payload unit :: forDst dst units else forDst dst units := by
  by_cases same : unit.dst = dst
  · simp [forDst, same]
  · simp [forDst, same]

end PacketUnit

def FloodgateEvent.arrival : FloodgateEvent → List PacketUnit
  | .data pkt _ outDev qIndex => [⟨pkt, pkt.dip, outDev, qIndex⟩]
  | .ack _ _ _ => []

namespace Upstream

/-- The admitted data packets, and those handed to `SwitchSend`, over a run. -/
def admitted (labels : List (FloodgateEvent × List PacketUnit)) : List PacketUnit :=
  labels.flatMap fun label => label.1.arrival

def handedOver (labels : List (FloodgateEvent × List PacketUnit)) : List PacketUnit :=
  labels.flatMap fun label => label.2

/-- What was admitted for `dst` is what was handed over, followed by what waits in its VOQ; and no
other VOQ holds a packet of `dst`. -/
structure InOrder (c : UpstreamConfig) (labels : List (FloodgateEvent × List PacketUnit))
    (s : Upstream) (dst : Nat) : Prop where
  sequence : PacketUnit.forDst dst (admitted labels) =
    PacketUnit.forDst dst (handedOver labels) ++ (s.queued c dst).map PacketUnit.payload
  waiting : ∃ voq, s.queued c dst = (s.voqPackets voq).filter (fun unit => unit.dst = dst) ∧
    ∀ other, other ≠ voq → ∀ unit ∈ s.voqPackets other, unit.dst ≠ dst

section Order

variable {c : UpstreamConfig} {s after : Upstream}

theorem Passes.payload {outDev dst qIndex : Nat} {pkt pkt' : Packet}
    (passes : Passes c s outDev dst pkt pkt' after) :
    PacketUnit.payload ⟨pkt', dst, outDev, qIndex⟩ =
      PacketUnit.payload ⟨pkt, dst, outDev, qIndex⟩ := by
  cases passes with
  | credit => rfl
  | psn => simp only [PacketUnit.payload, Packet.setPsn_withoutPsn]

theorem Sends.payload {voq : Nat × Nat} {top unit : PacketUnit}
    (sends : Sends c s voq top unit after) : unit.payload = top.payload := by
  rw [sends.unit]
  exact sends.passes.payload

/-- A head leaves at the front of its destination's packets and of nobody else's. -/
theorem Drains.order (consistent : Consistent c s) {units : List PacketUnit}
    (drains : Drains c s units after) (dst : Nat) :
    (s.queued c dst).map PacketUnit.payload =
      PacketUnit.forDst dst units ++ (after.queued c dst).map PacketUnit.payload := by
  induction drains with
  | nil => rfl
  | @sent s middle finish voq top unit units performed sends rest ih =>
      have later := ih sends.consistent
      rw [sends.queued] at later
      have target : unit.dst = top.dst := by rw [sends.unit]
      rw [PacketUnit.forDst_cons, target]
      by_cases same : dst = top.dst
      · obtain ⟨waiting, first⟩ := sends.first
        rw [if_pos same] at later
        rw [if_pos same.symm, List.cons_append, ← later, sends.payload, same, first]
        rfl
      · rw [if_neg same] at later
        rw [if_neg (Ne.symm same), later]

theorem Consistent.waiting (consistent : Consistent c s) (dst : Nat) :
    ∃ voq, s.queued c dst = (s.voqPackets voq).filter (fun unit => unit.dst = dst) ∧
      ∀ other, other ≠ voq → ∀ unit ∈ s.voqPackets other, unit.dst ≠ dst := by
  by_cases held : ∃ voq, ∃ unit ∈ s.voqPackets voq, unit.dst = dst
  · obtain ⟨voq, unit, member, target⟩ := held
    refine ⟨voq, ?_, ?_⟩
    · have rule := consistent.home voq unit member
      rw [target] at rule
      obtain ⟨g, known⟩ := consistent.group_exists rule
      have packets : s.voqPackets voq = g.packets voq.2 := by simp only [voqPackets, known]
      rw [packets] at member
      have found := (consistent.group voq.1 g known).located voq.2 unit member
      rw [target] at found
      rw [queued_group rule known, VOQGroup.queued_found found, packets]
    · intro other different unit' member' target'
      exact different (consistent.single member' member (target'.trans target.symm))
  · have none : ∀ voq, ∀ unit ∈ s.voqPackets voq, unit.dst ≠ dst :=
      fun voq unit member target => held ⟨voq, unit, member, target⟩
    refine ⟨(0, 0), ?_, fun other _ => none other⟩
    have unqueued : s.queued c dst = [] := by
      apply List.eq_nil_iff_forall_not_mem.mpr
      intro unit member
      obtain ⟨target, voq, inside⟩ := consistent.queued_held member
      exact none voq unit inside target
    rw [unqueued, eq_comm, List.filter_eq_nil_iff]
    intro unit member target
    exact none (0, 0) unit member (by simpa using target)

theorem handle_order (consistent : Consistent c s) (event : FloodgateEvent) (dst : Nat) :
    Holds Assertion.OfInput
      (fun sent => sent.2.heldBytes < Word32.size →
        (s.queued c dst).map PacketUnit.payload ++ PacketUnit.forDst dst event.arrival =
          PacketUnit.forDst dst sent.1 ++ (sent.2.queued c dst).map PacketUnit.payload)
      (s.handle c event) := by
  cases event with
  | data pkt isData outDev qIndex =>
      apply (checkVOQWin_arrives consistent pkt outDev qIndex).bind
      rintro ⟨routed, after⟩ _ arrives small
      simp only at arrives small ⊢
      cases arrives with
      | control other => simp [isData] at other
      | ignored _ rule =>
          by_cases same : pkt.dip = dst
          · simp [queued, ← same, rule, FloodgateEvent.arrival]
          · simp [FloodgateEvent.arrival, PacketUnit.forDst_cons, same]
      | passed _ rule _ frame _ empty passes unchanged =>
          have waiting : after.queued c dst = s.queued c dst := (frame.trans unchanged).queued dst
          simp only [Option.toList_some, List.map_cons, List.map_nil, waiting,
            FloodgateEvent.arrival, PacketUnit.forDst_cons, PacketUnit.forDst_nil, passes.payload]
          by_cases same : pkt.dip = dst
          · have nothing : s.queued c dst = [] := by
              rw [same, consistent.buffered] at empty
              by_contra some
              obtain ⟨unit, member⟩ := List.exists_mem_of_ne_nil _ some
              have positive := PacketUnit.bytes_pos unit _ member
              omega
            simp only [if_pos same, nothing, List.map_nil, List.nil_append, List.append_nil]
          · simp only [if_neg same, List.nil_append, List.append_nil]
      | buffered _ _ _ frame _ _ buffers =>
          have waiting := buffers.queued dst
          rw [frame.queued] at waiting
          simp only [Option.toList_none, List.map_nil, waiting, FloodgateEvent.arrival,
            PacketUnit.forDst_cons, PacketUnit.forDst_nil, List.nil_append]
          by_cases same : pkt.dip = dst
          · simp only [if_pos same, if_pos same.symm, List.map_append, List.map_cons, List.map_nil]
          · simp only [if_neg same, if_neg (Ne.symm same), List.append_nil]
  | ack tag sip inDev =>
      apply (resumeVOQWin_drains consistent tag sip inDev).mono
      rintro ⟨sent, after⟩ _ ⟨restored, _, frame, drains⟩ _
      have order := drains.order (consistent.frame frame) dst
      rw [frame.queued] at order
      simpa only [FloodgateEvent.arrival, PacketUnit.forDst_nil, List.append_nil] using order

end Order

/-- While the bytes held in VOQs fit 32 bits, no packet of a destination overtakes, gets lost or is
sent twice. -/
theorem destination_order (c : UpstreamConfig) (labels : List (FloodgateEvent × List PacketUnit))
    (s : Upstream) (run : Run (BoundedStep c) (Upstream.init c) labels s) (dst : Nat) :
    InOrder c labels s dst := by
  have sequence : PacketUnit.forDst dst (admitted labels) =
      PacketUnit.forDst dst (handedOver labels) ++ (s.queued c dst).map PacketUnit.payload := by
    apply run.history fun labels s => PacketUnit.forDst dst (admitted labels) =
      PacketUnit.forDst dst (handedOver labels) ++ (s.queued c dst).map PacketUnit.payload
    · have start := (Consistent.init c).buffered dst
      have unqueued : (Upstream.init c).queued c dst = [] := by
        by_contra some
        obtain ⟨unit, member⟩ := List.exists_mem_of_ne_nil _ some
        have positive := PacketUnit.bytes_pos unit _ member
        have zero : (Upstream.init c).getBufferDst dst = 0 := by
          simp [getBufferDst, Upstream.init]
        omega
      rw [unqueued]
      rfl
    · intro earlier middle label finish before ordered step
      have order := ((handle_order (Consistent.run before) label.1 dst).of_ok step.1) step.2
      simp only [admitted, handedOver, List.flatMap_append, List.flatMap_cons, List.flatMap_nil,
        List.append_nil, PacketUnit.forDst_append] at ordered ⊢
      rw [ordered, List.append_assoc, List.append_assoc, ← order]
  exact ⟨sequence, (Consistent.run run).waiting dst⟩

/-- Of the three packets for host 1 one waits at the end. -/
theorem destination_order_two_hosts :
    InOrder sharing (labelled sharing (Upstream.init sharing) twoHosts)
        (twoHosts.foldl (next sharing) (Upstream.init sharing)) 1 ∧
      (PacketUnit.forDst 1 (handedOver (labelled sharing (Upstream.init sharing) twoHosts))).map
        (fun unit => unit.pkt.size) = [1024, 1024] :=
  ⟨destination_order sharing _ _ (labelled_run twoHosts twoHosts_taken) 1, by decide +kernel⟩

/-- Once the count of buffered bytes has wrapped to 0, a packet that fits the window overtakes the
2^22 packets that wait. -/
theorem wrapped_count_reorders :
    ¬ ∀ (c : UpstreamConfig) (labels : List (FloodgateEvent × List PacketUnit)) (s : Upstream),
      Run (Step c) (Upstream.init c) labels s → ∀ dst, InOrder c labels s dst := by
  intro claim
  obtain ⟨after, overtakes⟩ := unlimited_overtaken
  have last : Step (narrow .switchDstCredit unlimited 1000 (by decide))
      (filled unlimited ∅ 1 1000 (4194303 + 1)) (smallEvent, [smallUnit]) after := overtakes
  have run := (unlimited_run 4194303).snoc last
  have order := (claim _ _ _ run 1).sequence
  have first : ∃ rest, PacketUnit.forDst 1 (admitted (([(kiloEvent, [])] ++
      List.replicate 4194303 (kiloEvent, [])) ++ [(smallEvent, [smallUnit])])) =
      PacketUnit.payload kiloUnit :: rest := by
    simp only [admitted, List.flatMap_append, List.flatMap_cons, List.append_assoc,
      PacketUnit.forDst_append]
    exact ⟨_, rfl⟩
  have overtaker : handedOver (([(kiloEvent, [])] ++ List.replicate 4194303 (kiloEvent, [])) ++
      [(smallEvent, [smallUnit])]) = [smallUnit] := by
    have nothing : handedOver (List.replicate 4194303 (kiloEvent, [])) = [] := by
      apply List.flatMap_eq_nil_iff.mpr
      intro label member
      rw [List.eq_of_mem_replicate member]
    simp only [handedOver, List.flatMap_append, List.flatMap_cons] at nothing ⊢
    rw [nothing]
    rfl
  obtain ⟨rest, sequence⟩ := first
  rw [sequence, overtaker] at order
  have same := congrArg (fun units => units.head?.map fun unit => unit.pkt.size) order
  have sizes : some 1024 = some 500 := same
  exact absurd sizes (by decide)

end Upstream

end Floodgate
