import Floodgate.VoqEntries

/-! Packets that the egress queue of their port refuses, against the counters that were charged for
them on the way. -/

namespace Floodgate

open Std Outcome LabelledRun

namespace Upstream

section Spent

variable {c : UpstreamConfig} {s : Upstream}

theorem Passes.shows {after : Upstream} {outDev dst : Nat} {pkt pkt' : Packet}
    (passes : Passes c s outDev dst pkt pkt' after) :
    ¬ ((∀ d, after.win d = s.win d) ∧ after.nxtDataPsn = s.nxtDataPsn) := by
  rintro ⟨same, numbered⟩
  have positive := pkt.size_pos
  have small := pkt.size_lt
  cases passes with
  | credit _ wins =>
      have taken : after.win dst = Word32.sub (s.win dst) pkt.size := by
        rw [win, wins, ExtTreeMap.getElem?_insert_self, Option.getD_some]
      have kept := same dst
      rw [taken] at kept
      unfold Word32.sub Word32.size at *
      omega
  | psn _ _ nxtDataPsn =>
      have cell := congrFun (congrFun (nxtDataPsn.symm.trans numbered) (c.psnRow outDev dst)) dst
      rw [setCell_same] at cell
      omega

/-- A packet that passes `CheckVOQWin` spends window, or no window applies to it. -/
theorem checkVOQWin_spends {pkt pkt' : Packet} {outDev qIndex : Nat} {after : Upstream}
    (success : s.checkVOQWin c pkt outDev qIndex = .ok (some pkt', after)) :
    pkt'.size = pkt.size ∧
      (((pkt.isUdp = false ∨ c.dst2group pkt.dip = .ignored) ∧ after = s) ∨
        (pkt.isUdp = true ∧ (∃ gid, c.dst2group pkt.dip = .group gid) ∧
          ∃ read, s.checkDstWin c pkt.dip pkt.size = .ok (true, read) ∧ Frame s read ∧
            Frame read after ∧ Passes c read outDev pkt.dip pkt pkt' after)) := by
  unfold checkVOQWin at success
  by_cases data : pkt.isUdp
  case neg =>
    rw [if_neg data] at success
    obtain ⟨found, rfl⟩ := Prod.mk.inj (Except.ok.inj success)
    obtain rfl := Option.some.inj found
    exact ⟨rfl, .inl ⟨.inl (by simpa using data), rfl⟩⟩
  rw [if_pos data] at success
  obtain ⟨ignore, found, success⟩ := bind_ok.mp success
  rcases (shouldIgnore_input c pkt.dip).of_ok found with ⟨rfl, rule⟩ | ⟨rfl, gid, rule⟩
  · obtain ⟨found, rfl⟩ := Prod.mk.inj (Except.ok.inj success)
    obtain rfl := Option.some.inj found
    exact ⟨rfl, .inl ⟨.inr rule, rfl⟩⟩
  simp only [Bool.false_eq_true, if_false] at success
  obtain ⟨⟨room, read⟩, check, success⟩ := bind_ok.mp success
  obtain ⟨frame, known⟩ := (checkDstWin_frame c s pkt.dip pkt.size).of_ok check
  simp only at frame known success
  by_cases passing : (room && read.getBufferDst pkt.dip == 0) = true
  case neg =>
    rw [if_neg passing] at success
    obtain ⟨buffered, _, success⟩ := bind_ok.mp success
    simp at success
  rw [if_pos passing] at success
  have free : room = true := (Bool.and_eq_true _ _ ▸ passing).1
  subst free
  cases mode : c.settings.switchAbsolutePsn with
  | false =>
      rw [updateDstWin_credit mode rule known, ok_bind] at success
      simp only [mode, Bool.false_eq_true, if_false] at success
      obtain ⟨found, rfl⟩ := Prod.mk.inj (Except.ok.inj success)
      obtain rfl := Option.some.inj found
      exact ⟨rfl, .inr ⟨data, ⟨gid, rule⟩, read, check, frame, Frame.setWins read _ _,
        .credit mode rfl rfl rfl⟩⟩
  | true =>
      rw [updateDstWin_psn mode rule known] at success
      by_cases ordered : read.inflightOrdered pkt.dip
      case neg => simp [ordered] at success
      rw [if_pos ordered, ok_bind] at success
      simp only [mode, if_true] at success
      obtain ⟨found, rfl⟩ := Prod.mk.inj (Except.ok.inj success)
      obtain rfl := Option.some.inj found
      exact ⟨Packet.setPsn_size _ _, .inr ⟨data, ⟨gid, rule⟩, read, check, frame,
        ⟨rfl, rfl, fun _ member => member⟩, .psn mode rfl rfl rfl⟩⟩

theorem voqDequeueCallback_counted {unit : PacketUnit} {called : PacketUnit × Upstream}
    (success : s.voqDequeueCallback c unit = .ok called) : unit.dst ∈ s.buffering := by
  unfold voqDequeueCallback at success
  obtain ⟨windowed, updated, success⟩ := bind_ok.mp success
  obtain ⟨counted, lowered, -⟩ := bind_ok.mp success
  have frame := (updateDstWin_frame c _ unit.dst unit.pkt.size false).of_ok updated
  have buffering : windowed.buffering = s.buffering := by
    rw [frame.buffering]
    split <;> rfl
  simp only [updateBufferingCount, Bool.false_eq_true, if_false] at lowered
  split at lowered
  · rename_i present
    rw [buffering] at present
    exact ExtTreeMap.contains_iff_mem.mp present
  · contradiction

theorem checkAndSendOne_window {voq : Nat × Nat} {unit : PacketUnit} {after : Upstream}
    (success : s.checkAndSendOne c voq = .ok (some unit, after)) {top : PacketUnit}
    {rest : List PacketUnit} (head : s.voqPackets voq = top :: rest) {gid : Nat}
    (rule : c.dst2group top.dst = .group gid) :
    ∃ read, s.checkDstWin c top.dst top.pkt.size = .ok (true, read) ∧
      Passes c read top.outDev top.dst top.pkt unit.pkt after := by
  unfold checkAndSendOne at success
  unfold voqPackets at head
  cases known : s.voqGroups[voq.1]? with
  | none => simp [known] at head
  | some g =>
      simp only [known] at head success
      rw [head] at success
      simp only at success
      obtain ⟨⟨room, read⟩, check, success⟩ := bind_ok.mp success
      obtain ⟨frame, registered⟩ := (checkDstWin_frame c s top.dst top.pkt.size).of_ok check
      simp only at registered success
      split at success
      case isFalse => simp at success
      rename_i free
      subst free
      split at success
      case isFalse => contradiction
      obtain ⟨⟨sent, called⟩, callback, success⟩ := bind_ok.mp success
      obtain ⟨found, rfl⟩ := Prod.mk.inj (Except.ok.inj success)
      obtain rfl := Option.some.inj found
      have counted := voqDequeueCallback_counted callback
      obtain ⟨passes, -, -, -⟩ := (voqDequeueCallback_passes
        (s := read.setGroup voq.1 (g.pop voq.2 top)) rule registered counted).of_ok callback
      exact ⟨read, check, passes.congr ⟨rfl, rfl, rfl⟩ ⟨rfl, rfl, rfl⟩⟩

end Spent

end Upstream

/-- A data packet whose destination has a window at this switch. -/
def SwitchNodeConfig.windowed (c : SwitchNodeConfig) (p : Packet) : Bool :=
  c.useFloodgate && p.isUdp &&
    match c.upstream.dst2group p.dip with
    | .group _ => true
    | _ => false

namespace SwitchNode

/-- The state once `CheckDstWin` has read the window of `dst`, which registers it. -/
def readWin (c : SwitchNodeConfig) (s : SwitchNode) (dst size : Nat) : SwitchNode :=
  match s.upstream.checkDstWin c.upstream dst size with
  | .ok read => { s with upstream := read.2 }
  | .error _ => s

/-- The counters moved as the packets in the switch did, no pause was added and no window or PSN was
spent. -/
structure Traceless (c : SwitchNodeConfig) (before after : SwitchNode) : Prop where
  ingress : ∀ port cls,
    after.admission.ingressBytes port cls + after.admission.hdrmBytes port cls +
        before.residentBy c (fromPort c port cls) =
      before.admission.ingressBytes port cls + before.admission.hdrmBytes port cls +
        after.residentBy c (fromPort c port cls)
  shared : after.admission.sharedUsedBytes + sharedTotal c before.admission =
    before.admission.sharedUsedBytes + sharedTotal c after.admission
  egress : ∀ dev qIndex,
    after.admission.egressBytes dev qIndex + before.residentBy c (towards dev qIndex) =
      before.admission.egressBytes dev qIndex + after.residentBy c (towards dev qIndex)
  pauses : ∀ port cls, after.admission.paused port cls = true →
    before.admission.paused port cls = true
  wins : ∀ dst, after.upstream.win dst = before.upstream.win dst
  buffering : ∀ dst,
    after.upstream.getBufferDst dst + before.upstream.heldBy (Upstream.ofDst dst) =
      before.upstream.getBufferDst dst + after.upstream.heldBy (Upstream.ofDst dst)
  nxtDataPsn : after.upstream.nxtDataPsn = before.upstream.nxtDataPsn

/-- A packet as `SendToDev` routes it, with its ports and the state it is routed in. -/
structure Arrival where
  inDev : Nat
  outDev : Nat
  p : Packet
  s : SwitchNode

def arrival (c : SwitchNodeConfig) (s : SwitchNode) : NodeEvent → Option Arrival
  | .receive inDev (some outDev) p =>
      let tagged := p.setFlowId (some inDev)
      let recorded := s.recordPsn c inDev tagged
      if p.isPfc || (c.useFloodgate && (tagged.synTag.isSome || recorded.1.ackTag.isSome)) then none
      else some ⟨inDev, outDev, recorded.1, recorded.2⟩
  | .goOn inDev (some outDev) p _ => some ⟨inDev, outDev, p.setFlowId (some inDev), s⟩
  | _ => none

namespace Arrival

variable (c : SwitchNodeConfig) (a : Arrival)

def admitted : Bool :=
  c.qIndexOf a.p = 0 || (a.s.admission.checkIngressAdmission c.admission a.inDev
    (c.pfcFine a.inDev (c.qIndexOf a.p) a.p.dip) a.p.size &&
    a.s.admission.checkEgressAdmission a.outDev (c.qIndexOf a.p) a.p.size)

def charged : SwitchNode := a.s.admitPacket c a.inDev a.outDev (c.qIndexOf a.p) a.p

def routed : Except Assertion (Option Packet × Upstream) :=
  if c.useFloodgate then
    a.s.upstream.checkVOQWin c.upstream a.p a.outDev (c.qIndexOf a.p)
  else .ok (some a.p, a.s.upstream)

/-- The state that a drop by admission control would have left, but for the registration of the
window. -/
def unspent : SwitchNode := if c.windowed a.p then a.s.readWin c a.p.dip a.p.size else a.s

end Arrival

/-- The queue of the egress port refuses a packet, arriving or out of a VOQ, that the switch hands
to `SwitchSend`. The last argument is the state without the packet's claims. -/
inductive Refuses (c : SwitchNodeConfig) (s : SwitchNode) : NodeEvent → SwitchNode → Prop
  | arriving {event : NodeEvent} {a : Arrival} {p : Packet} {up : Upstream}
      (arrives : s.arrival c event = some a) (admitted : a.admitted c = true)
      (routed : a.routed c = .ok (some p, up))
      (full : ¬ ((a.charged c).device a.outDev).queue.Takes (c.device a.outDev) p) :
      Refuses c s event (a.unspent c)
  | released {voq : Nat × Nat} {top unit : PacketUnit} {rest : List PacketUnit} {up : Upstream}
      (head : s.upstream.voqPackets voq = top :: rest)
      (sent : s.upstream.checkAndSendOne c.upstream voq = .ok (some unit, up))
      (full : ¬ (s.device unit.outDev).queue.Takes (c.device unit.outDev) unit.pkt) :
      Refuses c s (.release voq) (s.readWin c top.dst top.pkt.size)

end SwitchNode

/-- An arriving packet of the highest priority that no window counts. -/
def NodeEvent.Uncharged (c : SwitchNodeConfig) : NodeEvent → Prop
  | .receive _ _ p => c.qIndexOf p = 0 ∧ c.windowed p = false
  | .goOn _ _ p _ => c.qIndexOf p = 0 ∧ c.windowed p = false
  | _ => False

namespace SwitchNode

section Refusals

variable {c : SwitchNodeConfig} {s after : SwitchNode}

theorem refused_residentBy {outDev qIndex : Nat} {p : Packet}
    (full : ¬ (s.device outDev).queue.Takes (c.device outDev) p) (weight : PacketUnit → Nat) :
    (s.switchSend c outDev qIndex p).residentBy c weight = s.residentBy c weight := by
  rcases switchSend_cases c s outDev qIndex p with ⟨takes, _⟩ | ⟨_, queues⟩
  · exact absurd takes full
  · have upstream : (s.switchSend c outDev qIndex p).upstream = s.upstream := rfl
    simp only [residentBy, queuedBy, cellBy, queues, upstream]

theorem residentBy_frame {up : Upstream} (frame : Upstream.Frame s.upstream up)
    (weight : PacketUnit → Nat) :
    ({ s with upstream := up } : SwitchNode).residentBy c weight = s.residentBy c weight := by
  have held := frame.heldBy weight
  simp only [residentBy, queuedBy, cellBy, queues, held]

theorem readWin_frame (dst size : Nat) :
    Upstream.Frame s.upstream (s.readWin c dst size).upstream ∧
      (s.readWin c dst size).queues = s.queues ∧
      (s.readWin c dst size).admission = s.admission := by
  unfold readWin
  cases check : s.upstream.checkDstWin c.upstream dst size with
  | error failure => exact ⟨Upstream.Frame.refl _, rfl, rfl⟩
  | ok read => exact ⟨((Upstream.checkDstWin_frame _ _ _ _).of_ok check).1, rfl, rfl⟩

/-- The window that `read` has registered, spent on a packet, shows against `readWin`. -/
theorem Traceless.unspent {up read : Upstream} {outDev dst : Nat} {pkt pkt' : Packet}
    (traceless : Traceless c (s.readWin c dst pkt.size) after)
    (check : s.upstream.checkDstWin c.upstream dst pkt.size = .ok (true, read))
    (upstream : after.upstream = up) :
    ¬ Upstream.Passes c.upstream read outDev dst pkt pkt' up := by
  intro passes
  have before : (s.readWin c dst pkt.size).upstream = read := by simp only [readWin, check]
  have wins := traceless.wins
  have numbered := traceless.nxtDataPsn
  rw [before, upstream] at wins numbered
  exact passes.shows ⟨wins, numbered⟩

end Refusals

section Arrivals

variable {c : SwitchNodeConfig} {s after : SwitchNode} {event : NodeEvent} {a : Arrival}

theorem arrival_handle (arrives : s.arrival c event = some a) (route : Nat → Nat) :
    s.handle c route event =
      (do let sent ← a.s.forward c a.inDev (some a.outDev) a.p; .ok (none, sent)) := by
  cases event with
  | receive inDev outDev p =>
      cases outDev with
      | none => simp [arrival] at arrives
      | some outDev =>
          simp only [arrival] at arrives
          split at arrives
          · contradiction
          · rename_i plain
            obtain rfl := Option.some.inj arrives
            simp only [Bool.or_eq_true, Bool.and_eq_true, not_or, not_and] at plain
            obtain ⟨data, untagged⟩ := plain
            simp only [handle, receive, if_neg data, enter]
            cases floodgate : c.useFloodgate with
            | false => simp
            | true =>
                obtain ⟨noSyn, noAck⟩ := untagged floodgate
                simp only [Bool.not_eq_true, Option.isSome_eq_false_iff,
                  Option.isNone_iff_eq_none] at noSyn noAck
                simp only [noSyn, noAck]
  | goOn inDev outDev p tagged =>
      cases outDev with
      | none => simp [arrival] at arrives
      | some outDev =>
          obtain rfl := Option.some.inj arrives
          rfl
  | release voq => simp [arrival] at arrives
  | transmit ifIndex => simp [arrival] at arrives
  | creditTimeout dev dst => simp [arrival] at arrives
  | synTimeout dev recent => simp [arrival] at arrives

theorem recordPsn_place {inDev : Nat} {p : Packet} :
    c.qIndexOf (s.recordPsn c inDev p).1 = c.qIndexOf p ∧
      c.windowed (s.recordPsn c inDev p).1 = c.windowed p := by
  unfold recordPsn
  split
  · rename_i psn _ tagged
    cases body : p.body with
    | udp psn ingress =>
        cases psn <;> simp [Packet.toIngressPsn, SwitchNodeConfig.qIndexOf,
          SwitchNodeConfig.windowed, Packet.isUdp, body]
    | _ => simp [Packet.psn, body] at tagged
  · exact ⟨rfl, rfl⟩

theorem arrival_uncharged (arrives : s.arrival c event = some a) :
    event.Uncharged c ↔ c.qIndexOf a.p = 0 ∧ c.windowed a.p = false := by
  cases event with
  | receive inDev outDev p =>
      cases outDev with
      | none => simp [arrival] at arrives
      | some outDev =>
          simp only [arrival] at arrives
          split at arrives
          · contradiction
          · obtain rfl := Option.some.inj arrives
            obtain ⟨queue, windowed⟩ := @recordPsn_place c s inDev (p.setFlowId (some inDev))
            rw [queue, windowed]
            rfl
  | goOn inDev outDev p tagged =>
      cases outDev with
      | none => simp [arrival] at arrives
      | some outDev =>
          obtain rfl := Option.some.inj arrives
          rfl
  | release voq => simp [arrival] at arrives
  | transmit ifIndex => simp [arrival] at arrives
  | creditTimeout dev dst => simp [arrival] at arrives
  | synTimeout dev recent => simp [arrival] at arrives

theorem Arrival.unspent_frame : Upstream.Frame a.s.upstream (a.unspent c).upstream ∧
    (a.unspent c).queues = a.s.queues ∧ (a.unspent c).admission = a.s.admission := by
  unfold Arrival.unspent
  split
  · exact readWin_frame _ _
  · exact ⟨Upstream.Frame.refl _, rfl, rfl⟩

theorem Arrival.routed_spends {p : Packet} {up : Upstream}
    (routed : a.routed c = .ok (some p, up)) :
    p.size = a.p.size ∧ Upstream.Frame a.s.upstream up ∧
      ((c.windowed a.p = false ∧ up = a.s.upstream) ∨
        (c.windowed a.p = true ∧ ∃ read,
          a.s.upstream.checkDstWin c.upstream a.p.dip a.p.size = .ok (true, read) ∧
          Upstream.Passes c.upstream read a.outDev a.p.dip a.p p up)) := by
  unfold Arrival.routed at routed
  by_cases floodgate : c.useFloodgate
  · rw [if_pos floodgate] at routed
    obtain ⟨size, ⟨free, rfl⟩ | ⟨data, ⟨gid, rule⟩, read, check, first, second, passes⟩⟩ :=
      Upstream.checkVOQWin_spends routed
    · refine ⟨size, Upstream.Frame.refl _, .inl ⟨?_, rfl⟩⟩
      rcases free with control | rule
      · simp [SwitchNodeConfig.windowed, control]
      · simp [SwitchNodeConfig.windowed, rule]
    · refine ⟨size, first.trans second, .inr ⟨?_, read, check, passes⟩⟩
      simp [SwitchNodeConfig.windowed, floodgate, data, rule]
  · rw [if_neg floodgate] at routed
    obtain ⟨found, rfl⟩ := Prod.mk.inj (Except.ok.inj routed)
    obtain rfl := Option.some.inj found
    exact ⟨rfl, Upstream.Frame.refl _, .inl ⟨by simp [SwitchNodeConfig.windowed, floodgate], rfl⟩⟩

/-- The state after a packet that was handed to `SwitchSend`. -/
theorem Arrival.sent_state {p : Packet} {up : Upstream} (admitted : a.admitted c = true)
    (routed : a.routed c = .ok (some p, up))
    (success : a.s.forward c a.inDev (some a.outDev) a.p = .ok after) :
    after = ({ a.charged c with upstream := up }.switchSend c a.outDev (c.qIndexOf a.p) p) := by
  have upstream : (a.charged c).upstream = a.s.upstream := admit_upstream _ _
  unfold forward at success
  simp only at success
  unfold Arrival.admitted at admitted
  rw [if_pos admitted] at success
  have passed : (a.charged c).passOn c a.outDev (c.qIndexOf a.p) a.p = .ok after := success
  unfold passOn at passed
  rw [upstream] at passed
  unfold Arrival.routed at routed
  by_cases floodgate : c.useFloodgate
  · rw [if_pos floodgate] at routed passed
    rw [routed, ok_bind] at passed
    exact (Except.ok.inj passed).symm
  · rw [if_neg floodgate] at routed passed
    obtain ⟨found, rfl⟩ := Prod.mk.inj (Except.ok.inj routed)
    obtain rfl := Option.some.inj found
    have same : { a.charged c with upstream := a.s.upstream } = a.charged c := by
      rw [← upstream]
    rw [same]
    exact (Except.ok.inj passed).symm

theorem Arrival.charged_residentBy {weight : PacketUnit → Nat} (traffic : TrafficWeight weight) :
    (a.charged c).residentBy c weight = a.s.residentBy c weight := by
  obtain ⟨frames, emits⟩ := (admit_signals c a.s a.inDev a.outDev (c.qIndexOf a.p) a.p).emits
  obtain ⟨device, upstream, -⟩ := charged_same c a.s a.inDev a.outDev (c.qIndexOf a.p) a.p
  have same : (a.s.charged c a.inDev a.outDev (c.qIndexOf a.p) a.p).residentBy c weight =
      a.s.residentBy c weight := by
    simp only [residentBy, queuedBy, cellBy, queues, device, upstream]
  exact (emits.residentBy traffic).trans same

end Arrivals

section Traces

variable {c : SwitchNodeConfig} {s after : SwitchNode} {event : NodeEvent} {a : Arrival}
  {p : Packet} {up : Upstream}

/-- The bytes of a refused packet stay in the buffer's counters. -/
theorem charged_shows (queue : c.qIndexOf a.p ≠ 0)
    (full : ¬ ((a.charged c).device a.outDev).queue.Takes (c.device a.outDev) p)
    (frame : Upstream.Frame a.s.upstream up) :
    ¬ Traceless c (a.unspent c)
      ({ a.charged c with upstream := up }.switchSend c a.outDev (c.qIndexOf a.p) p) := by
  intro traceless
  have law := traceless.egress a.outDev (c.qIndexOf a.p)
  have traffic := towards_traffic a.outDev (c.qIndexOf a.p)
  obtain ⟨window, queues, admission⟩ := @Arrival.unspent_frame c a
  have upstream : (a.charged c).upstream = a.s.upstream := admit_upstream _ _
  have before : (a.unspent c).residentBy c (towards a.outDev (c.qIndexOf a.p)) =
      a.s.residentBy c (towards a.outDev (c.qIndexOf a.p)) := by
    have held := window.heldBy (towards a.outDev (c.qIndexOf a.p))
    simp only [residentBy, queuedBy, cellBy, queues, held]
  have later : ({ a.charged c with upstream := up }.switchSend c a.outDev (c.qIndexOf a.p)
      p).residentBy c (towards a.outDev (c.qIndexOf a.p)) =
      a.s.residentBy c (towards a.outDev (c.qIndexOf a.p)) := by
    have refused := @refused_residentBy c { a.charged c with upstream := up } a.outDev
      (c.qIndexOf a.p) p full
    rw [refused, residentBy_frame (upstream ▸ frame), Arrival.charged_residentBy traffic]
  have bytes := (admit_signals c a.s a.inDev a.outDev (c.qIndexOf a.p) a.p).bytes.egress
  have counted : ({ a.charged c with upstream := up }.switchSend c a.outDev (c.qIndexOf a.p)
      p).admission.egressBytes a.outDev (c.qIndexOf a.p) =
      Word32.add (a.s.admission.egressBytes a.outDev (c.qIndexOf a.p)) a.p.size := by
    refine (congrFun (congrFun bytes a.outDev) (c.qIndexOf a.p)).trans ?_
    unfold SwitchNode.charged charge
    rw [if_neg queue]
    have other := Admission.update_ingress_other c.admission a.s.admission a.inDev
      (c.pfcFine a.inDev (c.qIndexOf a.p) a.p.dip) a.p.size
    simp only [Admission.updateEgressAdmission, setCell_same, other.1]
  rw [before, later, counted, admission] at law
  have positive := a.p.size_pos
  have small := a.p.size_lt
  unfold Word32.add Word32.size at *
  omega

/-- A packet of the highest priority outside all windows leaves nothing behind. -/
theorem uncharged_traceless (queue : c.qIndexOf a.p = 0) (free : c.windowed a.p = false)
    (full : ¬ ((a.charged c).device a.outDev).queue.Takes (c.device a.outDev) p) :
    Traceless c (a.unspent c)
      ({ a.charged c with upstream := a.s.upstream }.switchSend c a.outDev (c.qIndexOf a.p) p) := by
  have charged : a.charged c = a.s := by
    unfold Arrival.charged admitPacket
    rw [if_pos queue]
  have unspent : a.unspent c = a.s := by
    unfold Arrival.unspent
    rw [free]
    rfl
  rw [charged] at full ⊢
  rw [unspent]
  have resident := @refused_residentBy c a.s a.outDev (c.qIndexOf a.p) p full
  exact ⟨fun _ _ => by rw [resident]; rfl, rfl, fun _ _ => by rw [resident]; rfl, fun _ _ => id,
    fun _ => rfl, fun _ => rfl, rfl⟩

/-- In every reachable state: a refused packet leaves no trace exactly when it is an arriving packet
of the highest priority that no window counts. -/
theorem refused_enqueue_traceless (c : SwitchNodeConfig)
    (labels : List (NodeEvent × Option Packet)) (s : SwitchNode)
    (run : Run (Step c) (init c) labels s) (event : NodeEvent) (out : Option Packet)
    (after before : SwitchNode) (step : Step c s (event, out) after)
    (refuses : Refuses c s event before) :
    Traceless c before after ↔ event.Uncharged c := by
  obtain ⟨-, route, success⟩ := step
  cases refuses with
  | @arriving _ a p up arrives admitted routed full =>
      rw [arrival_handle arrives route] at success
      obtain ⟨sent, forwarded, success⟩ := bind_ok.mp success
      obtain ⟨-, rfl⟩ := Prod.mk.inj (Except.ok.inj success)
      obtain rfl := a.sent_state admitted routed forwarded
      obtain ⟨-, frame, spends⟩ := a.routed_spends routed
      rw [arrival_uncharged arrives]
      constructor
      · intro traceless
        refine ⟨by_contra fun queue => charged_shows queue full frame traceless, ?_⟩
        rcases spends with ⟨free, -⟩ | ⟨windowed, read, check, passes⟩
        · exact free
        · unfold Arrival.unspent at traceless
          rw [if_pos windowed] at traceless
          exact absurd passes (traceless.unspent check rfl)
      · rintro ⟨queue, free⟩
        rcases spends with ⟨-, rfl⟩ | ⟨windowed, -⟩
        · exact uncharged_traceless queue free full
        · rw [free] at windowed
          contradiction
  | @released voq top unit rest up head sent full =>
      refine iff_of_false (fun traceless => ?_) id
      obtain ⟨gid, rule⟩ := buffered_group run ⟨voq, head ▸ List.mem_cons_self⟩
      obtain ⟨read, check, passes⟩ := Upstream.checkAndSendOne_window sent head rule
      obtain ⟨middle, released, success⟩ := bind_ok.mp success
      obtain ⟨-, rfl⟩ := Prod.mk.inj (Except.ok.inj success)
      unfold release at released
      rw [sent, ok_bind] at released
      obtain rfl := Except.ok.inj released
      exact traceless.unspent check rfl passes

end Traces

/-- `plainSwitch` with egress queues of less than 1000 bytes. -/
def shallowSwitch : SwitchNodeConfig :=
  { plainSwitch with
    device := fun _ => ⟨1000, true, true, 5⟩ }

def passing (p : Packet) : NodeEvent := .receive 1 (some 2) p

def firstArrival (p : Packet) : Arrival := ⟨1, 2, p.setFlowId (some 1), init shallowSwitch⟩

/-- The empty switch after a packet that port 2 refuses. -/
def afterRefused (p : Packet) : SwitchNode :=
  ((firstArrival p).charged shallowSwitch).switchSend shallowSwitch 2
    (shallowSwitch.qIndexOf p) (p.setFlowId (some 1))

theorem full_refused (p : Packet) (large : p.size = 1024)
    (quiet : ((firstArrival p).charged shallowSwitch).device 2 = QbbNetDevice.init) :
    ¬ (((firstArrival p).charged shallowSwitch).device 2).queue.Takes (shallowSwitch.device 2)
      (p.setFlowId (some 1)) := by
  rw [quiet]
  have size : (p.setFlowId (some 1)).size = 1024 := large
  unfold BEgressQueue.Takes
  rw [size]
  decide +kernel

theorem kilo_refused : Refuses shallowSwitch (init shallowSwitch) (passing kiloPacket)
    ((firstArrival kiloPacket).unspent shallowSwitch) :=
  .arriving rfl (by decide +kernel) rfl (full_refused kiloPacket rfl rfl)

/-- One data packet of 1024 bytes is refused and stays in the counters. -/
theorem refused_enqueue_charged :
    ¬ ∀ (c : SwitchNodeConfig) (labels : List (NodeEvent × Option Packet)) (s : SwitchNode),
      Run (Step c) (init c) labels s → ∀ (event : NodeEvent) (out : Option Packet)
        (after before : SwitchNode), Step c s (event, out) after → Refuses c s event before →
          Traceless c before after := by
  intro claim
  have step : Step shallowSwitch (init shallowSwitch) (passing kiloPacket, none)
      (afterRefused kiloPacket) :=
    ⟨⟨by decide, fun dev same => by obtain rfl := Option.some.inj same; decide, by decide⟩, id, rfl⟩
  have traceless := claim shallowSwitch [] _ .nil _ none _ _ step kilo_refused
  exact charged_shows (c := shallowSwitch) (a := firstArrival kiloPacket) (by decide)
    (full_refused kiloPacket rfl rfl) (Upstream.Frame.refl _) traceless

/-- A congestion notification of 1024 bytes is refused without a trace. -/
theorem refused_enqueue_traceless_cnp :
    (passing cnpPacket).Uncharged shallowSwitch ∧
      Traceless shallowSwitch ((firstArrival cnpPacket).unspent shallowSwitch)
        (afterRefused cnpPacket) :=
  have uncharged : (passing cnpPacket).Uncharged shallowSwitch := ⟨by decide, by decide⟩
  ⟨uncharged, (refused_enqueue_traceless shallowSwitch [] _ .nil (passing cnpPacket) none _ _
    ⟨⟨by decide, fun dev same => by obtain rfl := Option.some.inj same; decide, by decide⟩, id, rfl⟩
    (.arriving rfl (by decide +kernel) rfl (full_refused cnpPacket rfl rfl))).mpr uncharged⟩

end SwitchNode

end Floodgate
