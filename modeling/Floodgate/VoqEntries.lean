import Floodgate.PacketPlaces

/-! Where the entries of the VOQs come from: every event of a switch keeps them, takes a head or
appends the packet that has just arrived. -/

namespace Floodgate

open Std Outcome LabelledRun

namespace Upstream

section Group

variable {c : UpstreamConfig} {s after : Upstream}

theorem checkVOQWin_group {pkt : Packet} {outDev qIndex : Nat}
    (success : s.checkVOQWin c pkt outDev qIndex = .ok (none, after)) :
    ∃ gid, c.dst2group pkt.dip = .group gid := by
  unfold checkVOQWin at success
  split at success
  case isFalse => simp at success
  obtain ⟨ignore, found, success⟩ := bind_ok.mp success
  rcases (shouldIgnore_input c pkt.dip).of_ok found with ⟨rfl, -⟩ | ⟨rfl, gid, rule⟩
  · simp at success
  · exact ⟨gid, rule⟩

end Group

end Upstream

structure NodeEvent.Appends (c : SwitchNodeConfig) (event : NodeEvent) (unit : PacketUnit) :
    Prop where
  arrives : ∃ inDev p, event = .receive inDev (some unit.outDev) p ∧ p.isUdp = true ∧
    p.dip = unit.dst
  group : ∃ gid, c.upstream.dst2group unit.dst = .group gid

namespace SwitchNode

def Buffered (s : SwitchNode) (unit : PacketUnit) : Prop :=
  ∃ voq, unit ∈ s.upstream.voqPackets voq

section Entries

variable {c : SwitchNodeConfig} {s after : SwitchNode} {unit : PacketUnit}

theorem Buffered.of_same (upstream : after.upstream = s.upstream) (inside : after.Buffered unit) :
    s.Buffered unit := by
  unfold Buffered at inside ⊢
  rwa [upstream] at inside

theorem Emits.buffered {frames : Nat → List Packet} (emits : Emits s after frames)
    (inside : after.Buffered unit) : s.Buffered unit :=
  inside.of_same emits.upstream

/-- The only packet that can join a VOQ is the one that is passed on. -/
theorem passOn_buffered {outDev qIndex : Nat} {p : Packet}
    (success : s.passOn c outDev qIndex p = .ok after) (inside : after.Buffered unit) :
    s.Buffered unit ∨ (unit = ⟨p, p.dip, outDev, qIndex⟩ ∧ p.isUdp = true ∧
      ∃ gid, c.upstream.dst2group p.dip = .group gid) := by
  unfold passOn at success
  split at success
  · obtain ⟨⟨routed, up⟩, checking, success⟩ := bind_ok.mp success
    have contents := (Upstream.checkVOQWin_contents p outDev qIndex).of_ok checking
    obtain ⟨voq, member⟩ := inside
    cases routed with
    | some p' =>
        obtain ⟨frame, _⟩ := contents
        obtain rfl := Except.ok.inj success
        have before : unit ∈ up.voqPackets voq := member
        rw [frame.voqPackets] at before
        exact .inl ⟨voq, before⟩
    | none =>
        obtain ⟨data, checked, frame, stores⟩ := contents
        obtain rfl := Except.ok.inj success
        rcases stores.member member with before | rfl
        · rw [frame.voqPackets] at before
          exact .inl ⟨voq, before⟩
        · exact .inr ⟨rfl, data, Upstream.checkVOQWin_group checking⟩
  · obtain rfl := Except.ok.inj success
    exact .inl inside

theorem forward_buffered {inDev : Nat} {outDev : Option Nat} {p : Packet}
    (success : s.forward c inDev outDev p = .ok after) (inside : after.Buffered unit) :
    s.Buffered unit ∨ (outDev = some unit.outDev ∧ unit.pkt = p ∧ p.isUdp = true ∧
      p.dip = unit.dst ∧ ∃ gid, c.upstream.dst2group unit.dst = .group gid) := by
  unfold forward at success
  cases outDev with
  | none =>
      obtain rfl := Except.ok.inj success
      exact .inl inside
  | some outDev =>
      simp only at success
      split at success
      · rcases passOn_buffered success inside with before | ⟨rfl, data, group⟩
        · exact .inl (before.of_same (admit_upstream outDev (c.qIndexOf p)))
        · exact .inr ⟨rfl, rfl, data, rfl, group⟩
      · obtain rfl := Except.ok.inj success
        exact .inl inside

theorem recordPsn_isUdp {inDev : Nat} {p : Packet} :
    (s.recordPsn c inDev p).1.isUdp = p.isUdp := by
  unfold recordPsn
  split
  · cases body : p.body with
    | udp psn ingress => cases psn <;> simp [Packet.toIngressPsn, Packet.isUdp, body]
    | _ => simp [Packet.toIngressPsn, Packet.isUdp, body]
  · rfl

theorem receive_buffered {route : Nat → Nat} {inDev : Nat} {outDev : Option Nat} {p : Packet}
    (success : s.receive c route inDev outDev p = .ok after) (inside : after.Buffered unit) :
    s.Buffered unit ∨ (NodeEvent.receive inDev outDev p).Appends c unit := by
  unfold receive at success
  split at success
  · obtain ⟨device, received, success⟩ := bind_ok.mp success
    obtain rfl := Except.ok.inj success
    exact .inl inside
  · unfold enter at success
    split at success
    · rename_i tag _ _
      obtain ⟨frames, returns⟩ :=
        (receiveSYN_replies c route s tag p.sip p.dip inDev).of_ok success
      exact .inl (returns.emits.buffered inside)
    · obtain ⟨upstream, -, -⟩ := @recordPsn_same c s inDev (p.setFlowId (some inDev))
      simp only at success
      split at success
      · obtain ⟨up, restoring, success⟩ := bind_ok.mp success
        obtain rfl := Except.ok.inj success
        have frame := (Upstream.restoreWin_frame _ _ _ _ _).of_ok restoring
        obtain ⟨voq, member⟩ := inside
        have before : unit ∈ up.voqPackets voq := member
        rw [frame.voqPackets, upstream] at before
        exact .inl ⟨voq, before⟩
      · rcases forward_buffered success inside with before | ⟨port, -, data, target, group⟩
        · exact .inl (before.of_same upstream)
        · have isData := @recordPsn_isUdp c s inDev (p.setFlowId (some inDev))
          have dip := (@recordPsn_dip c s inDev (p.setFlowId (some inDev))).1
          refine .inr ⟨⟨inDev, p, by rw [port], ?_, dip.symm.trans target⟩, group⟩
          exact isData.symm.trans data

theorem release_buffered {voq : Nat × Nat} (success : s.release c voq = .ok after)
    (inside : after.Buffered unit) : s.Buffered unit := by
  unfold release at success
  obtain ⟨⟨sent, up⟩, sending, success⟩ := bind_ok.mp success
  have contents := (Upstream.checkAndSendOne_yields voq).of_ok sending
  obtain ⟨place, member⟩ := inside
  cases sent with
  | none =>
      obtain rfl := Except.ok.inj success
      have before : unit ∈ up.voqPackets place := member
      rw [Upstream.Frame.voqPackets contents] at before
      exact ⟨place, before⟩
  | some sent =>
      obtain ⟨top, yields⟩ := contents
      obtain rfl := Except.ok.inj success
      exact ⟨place, yields.member member⟩

theorem Step.buffered {label : NodeEvent × Option Packet} (step : Step c s label after)
    (inside : after.Buffered unit) : s.Buffered unit ∨ label.1.Appends c unit := by
  obtain ⟨event, out⟩ := label
  obtain ⟨-, route, success⟩ := step
  cases event with
  | receive inDev outDev p =>
      obtain ⟨middle, received, success⟩ := bind_ok.mp success
      obtain ⟨-, rfl⟩ := Prod.mk.inj (Except.ok.inj success)
      exact receive_buffered received inside
  | goOn inDev outDev p tagged =>
      obtain ⟨middle, forwarded, success⟩ := bind_ok.mp success
      obtain ⟨-, rfl⟩ := Prod.mk.inj (Except.ok.inj success)
      rcases forward_buffered forwarded inside with before | ⟨-, -, data, -, -⟩
      · exact .inl before
      · have same : p.isUdp = true := data
        cases body : p.body <;> simp [Packet.isUdp, Packet.ackTag, body] at same tagged
  | release voq =>
      obtain ⟨middle, released, success⟩ := bind_ok.mp success
      obtain ⟨-, rfl⟩ := Prod.mk.inj (Except.ok.inj success)
      exact .inl (release_buffered released inside)
  | transmit ifIndex =>
      cases (transmit_transmits c route s ifIndex).of_ok success with
      | idle => exact .inl inside
      | @sent p p' qIndex queue _ served notified =>
          have upstream : (SwitchNode.depart c (s.taken ifIndex queue) (p.flowId.getD 0) ifIndex qIndex
              p).upstream = s.upstream := depart_upstream _
          cases notified with
          | plain => exact .inl (Buffered.of_same upstream inside)
          | credit _ _ replies =>
              obtain ⟨frames, returns⟩ := replies
              exact .inl (Buffered.of_same upstream (returns.emits.buffered inside))
          | psn _ _ _ replies =>
              obtain ⟨frames, returns⟩ := replies
              exact .inl (Buffered.of_same upstream (returns.emits.buffered inside))
  | creditTimeout dev dst =>
      obtain ⟨middle, fired, success⟩ := bind_ok.mp success
      obtain ⟨-, rfl⟩ := Prod.mk.inj (Except.ok.inj success)
      obtain ⟨frames, returns⟩ := (creditTimeout_replies c route s dev dst).of_ok fired
      exact .inl (returns.emits.buffered inside)
  | synTimeout dev recent =>
      obtain ⟨-, rfl⟩ := Prod.mk.inj (Except.ok.inj success)
      obtain ⟨frames, emits, -⟩ := (synTimeout_probes c route s dev recent).emits
      exact .inl (emits.buffered inside)

theorem buffered_group {labels : List (NodeEvent × Option Packet)}
    (run : Run (Step c) (init c) labels s) (inside : s.Buffered unit) :
    ∃ gid, c.upstream.dst2group unit.dst = .group gid := by
  have grouped : ∀ other, s.Buffered other →
      ∃ gid, c.upstream.dst2group other.dst = .group gid := by
    apply run.invariant fun s => ∀ other, s.Buffered other →
      ∃ gid, c.upstream.dst2group other.dst = .group gid
    · rintro other ⟨voq, member⟩
      have registered := (Upstream.Consistent.init c.upstream).registered voq other member
      simp [Upstream.init] at registered
    · intro before label after held step other inside
      rcases step.buffered inside with old | appends
      · exact held other old
      · exact appends.group
  exact grouped unit inside

end Entries

end SwitchNode

end Floodgate
