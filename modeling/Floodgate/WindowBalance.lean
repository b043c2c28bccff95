import Floodgate.TorWindows

/-! Windows counted in bytes under the destinations themselves: what passes is paid from them and
what is credited comes back, to the byte. -/

namespace Floodgate.Upstream

open Std Outcome

def window (c : UpstreamConfig) (s : Upstream) (dst : Nat) : Nat :=
  (s.wins[dst]?).getD ((c.bdpMap dst).getD 0)

structure OwnWindows (c : UpstreamConfig) : Prop where
  credit : c.settings.switchAbsolutePsn = false
  key : ∀ dst, winKey c dst = dst

structure Solvent (c : UpstreamConfig) (s : Upstream) : Prop where
  held : HeldRegistered c s
  small : ∀ dst, c.Grouped dst → s.window c dst < Word32.size

section Window

variable {c : UpstreamConfig} {s after : Upstream} {dst : Nat}

theorem window_known (known : dst ∈ s.wins) : s.window c dst = s.win dst := by
  obtain ⟨size, found⟩ := Option.isSome_iff_exists.mp (ExtTreeMap.mem_iff_isSome_getElem?.mp known)
  rw [window, win, found]
  rfl

theorem window_unknown (unknown : dst ∉ s.wins) : s.window c dst = (c.bdpMap dst).getD 0 := by
  have absent : s.wins[dst]? = none := by simpa using unknown
  rw [window, absent]
  rfl

theorem window_congr (wins : after.wins = s.wins) : after.window c dst = s.window c dst := by
  rw [window, window, wins]

theorem window_insert (key size dst : Nat) :
    ({ s with wins := s.wins.insert key size } : Upstream).window c dst =
      if dst = key then size else s.window c dst := by
  unfold window
  rw [ExtTreeMap.getElem?_insert]
  by_cases same : key = dst
  · subst same
    simp
  · have other : dst ≠ key := fun back => same back.symm
    simp [same, other]

theorem window_init (c : UpstreamConfig) (dst : Nat) :
    (Upstream.init c).window c dst = (c.bdpMap dst).getD 0 :=
  window_unknown (by simp [Upstream.init])

theorem Solvent.init (c : UpstreamConfig) : Solvent c (Upstream.init c) := by
  refine ⟨(TorLedger.init c).held, fun dst _ => ?_⟩
  rw [window_init]
  cases found : c.bdpMap dst with
  | none => exact show 0 < Word32.size by decide
  | some size => exact c.bdpMap_lt dst size found

theorem ensureRegisteredWin_window (own : OwnWindows c) {registered : Upstream}
    (success : s.ensureRegisteredWin c dst = .ok registered) :
    dst ∈ registered.wins ∧ ∀ other, registered.window c other = s.window c other := by
  by_cases known : dst ∈ s.wins
  · rw [ensureRegisteredWin_known known] at success
    rw [← Except.ok.inj success]
    exact ⟨known, fun _ => rfl⟩
  obtain ⟨size, defined, rfl⟩ := ensureRegisteredWin_first known success
  rw [own.key] at defined ⊢
  refine ⟨ExtTreeMap.mem_insert_self, fun other => ?_⟩
  rw [window_insert]
  split
  · rename_i same
    rw [same, window_unknown known, defined]
    rfl
  · rfl

theorem checkDstWin_window (own : OwnWindows c) {pktSize : Nat} {checked : Bool × Upstream}
    (success : s.checkDstWin c dst pktSize = .ok checked) :
    (∀ other, checked.2.window c other = s.window c other) ∧
      (checked.1 = true → pktSize ≤ s.window c dst) := by
  have facts := checkDstWin_ok success
  have known := ((checkDstWin_frame c s dst pktSize).of_ok success).2
  have same : ∀ other, checked.2.window c other = s.window c other := by
    unfold checkDstWin at success
    obtain ⟨registered, found, success⟩ := bind_ok.mp success
    simp only [own.credit, Bool.false_eq_true, if_false] at success
    obtain rfl := Except.ok.inj success
    obtain ⟨inside, kept⟩ := ensureRegisteredWin_window own found
    intro other
    simp only [touchWin_known inside]
    exact kept other
  refine ⟨same, fun passes => ?_⟩
  rw [facts.1] at passes
  simp only [fits, own.credit, Bool.false_eq_true, if_false, Bool.not_eq_true',
    decide_eq_false_iff_not, Nat.not_lt] at passes
  rwa [← same, window_known known]

theorem Spends.exact {units : List PacketUnit} (spends : Spends c s units after)
    (own : OwnWindows c) (small : s.window c dst < Word32.size)
    (covered : bytesTo dst units ≤ s.window c dst) :
    after.window c dst + bytesTo dst units = s.window c dst := by
  by_cases known : dst ∈ s.wins
  · have paid := spends.credit own.credit dst
    rw [window_known known] at small covered ⊢
    rw [window_known ((spends.keys dst).mpr known)]
    have bound := spends.small dst small
    unfold Word32.size at paid small bound
    omega
  · have nothing := (spends.idle dst (.inl known)).1
    have unknown : dst ∉ after.wins := fun later => known ((spends.keys dst).mp later)
    rw [window_unknown known, window_unknown unknown, nothing, Nat.add_zero]

theorem Solvent.spends {units : List PacketUnit} (solvent : Solvent c s)
    (spends : Spends c s units after)
    (paid : ∀ dst, c.Grouped dst → after.window c dst + bytesTo dst units = s.window c dst) :
    Solvent c after := by
  refine ⟨spends.heldRegistered solvent.held, fun dst grouped => ?_⟩
  have before := solvent.small dst grouped
  have exact := paid dst grouped
  omega

end Window

/-- The windows of the groups pay for `units` to the byte. -/
structure Pays (c : UpstreamConfig) (s : Upstream) (units : List PacketUnit) (after : Upstream) :
    Prop where
  solvent : Solvent c after
  balance : ∀ dst, c.Grouped dst → after.window c dst + bytesTo dst units = s.window c dst

section Pays

variable {c : UpstreamConfig} {s middle after : Upstream}

theorem Pays.refl (solvent : Solvent c s) : Pays c s [] s := ⟨solvent, fun _ _ => rfl⟩

theorem Pays.trans {first second : List PacketUnit} (left : Pays c s first middle)
    (right : Pays c middle second after) : Pays c s (first ++ second) after := by
  refine ⟨right.solvent, fun dst grouped => ?_⟩
  have early := left.balance dst grouped
  have late := right.balance dst grouped
  rw [bytesTo_append]
  omega

/-- A packet that is sent from a VOQ has been found to fit. -/
theorem checkAndSendOne_fits (own : OwnWindows c) (registered : HeldRegistered c s)
    {voq : Nat × Nat} {unit : PacketUnit}
    (success : s.checkAndSendOne c voq = .ok (some unit, after)) :
    unit.pkt.size ≤ s.window c unit.dst := by
  unfold checkAndSendOne at success
  cases known : s.voqGroups[voq.1]? with
  | none =>
      rw [known] at success
      exact absurd (congrArg Prod.fst (Except.ok.inj success)) (by simp)
  | some g =>
      simp only [known] at success
      cases head : g.packets voq.2 with
      | nil =>
          rw [head] at success
          exact absurd (congrArg Prod.fst (Except.ok.inj success)) (by simp)
      | cons top rest =>
          simp only [head] at success
          obtain ⟨checked, found, success⟩ := bind_ok.mp success
          obtain ⟨_, covered⟩ := checkDstWin_window own found
          have here : top ∈ s.voqPackets voq := by
            rw [voqPackets, known]
            simp [head]
          obtain ⟨_, member, grouped⟩ := registered voq top here
          split at success
          · rename_i room
            split at success
            · obtain ⟨called, callback, success⟩ := bind_ok.mp success
              have same := Option.some.inj (congrArg Prod.fst (Except.ok.inj success))
              have kept : top.dst ∈ (checked.2.setGroup voq.1 (g.pop voq.2 top)).wins :=
                ((checkDstWin_frame c s top.dst top.pkt.size).of_ok found).2
              obtain ⟨passes, target, _⟩ :=
                (voqDequeueCallback_known grouped kept).of_ok callback
              rw [← same, passes.size, target]
              exact covered room
            · contradiction
          · exact absurd (congrArg Prod.fst (Except.ok.inj success)) (by simp)

theorem checkAndSendOne_pays (own : OwnWindows c) (solvent : Solvent c s) (voq : Nat × Nat) :
    Holds (fun _ => True) (fun sent => Pays c s sent.1.toList sent.2)
      (s.checkAndSendOne c voq) := by
  apply holds_of_success
  intro sent success
  have spends := (checkAndSendOne_spends solvent.held voq).of_ok success
  have balance : ∀ dst, c.Grouped dst →
      sent.2.window c dst + bytesTo dst sent.1.toList = s.window c dst := by
    intro dst grouped
    refine spends.exact own (solvent.small dst grouped) ?_
    cases chosen : sent.1 with
    | none => exact Nat.zero_le _
    | some unit =>
        have room : unit.pkt.size ≤ s.window c unit.dst :=
          checkAndSendOne_fits own solvent.held (success.trans (by rw [← chosen]))
        simp only [Option.toList_some, bytesTo_cons, bytesTo_nil, ofDst]
        split
        · rename_i target
          rwa [Nat.add_zero, ← target]
        · exact Nat.zero_le _
  exact ⟨solvent.spends spends balance, balance⟩

theorem checkAndSendAll_pays (own : OwnWindows c) (voq : Nat × Nat) (rounds : Nat)
    (solvent : Solvent c s) :
    Holds (fun _ => True) (fun sent => Pays c s sent.1 sent.2)
      (checkAndSendAll c voq rounds s) := by
  induction rounds generalizing s with
  | zero => exact Pays.refl solvent
  | succ rounds ih =>
      unfold checkAndSendAll
      apply (checkAndSendOne_pays own solvent voq).bind
      rintro ⟨sent, middle⟩ _ first
      cases sent with
      | none => exact first
      | some unit =>
          apply (ih first.solvent).bind
          intro later _ rest
          exact first.trans rest

theorem checkAndSendDst_pays (own : OwnWindows c) (solvent : Solvent c s) (dst : Nat) :
    Holds (fun _ => True) (fun sent => Pays c s sent.1 sent.2) (s.checkAndSendDst c dst) := by
  unfold checkAndSendDst
  apply (holds_of_success fun _ _ => trivial : Holds _ (fun _ => True) _).bind
  intro ignore _ _
  split
  · exact Pays.refl solvent
  · apply (holds_of_success fun _ _ => trivial : Holds _ (fun _ => True) _).bind
    intro found _ _
    cases found with
    | none =>
        simp only
        split
        · exact Pays.refl solvent
        · trivial
    | some voq => exact checkAndSendAll_pays own voq _ solvent

theorem drain_pays (own : OwnWindows c) (mode : c.settings.switchAckMode ≠ .switchIngressCredit)
    (solvent : Solvent c s) (sip : Nat) :
    Holds (fun _ => True) (fun sent => Pays c s sent.1 sent.2) (s.drain c sip) := by
  unfold drain
  split
  · rename_i ingress
    exact absurd ingress mode
  · exact checkAndSendDst_pays own solvent sip

end Pays

/-- What an event does to the windows of the groups: the credit it brings comes in, `units` go. -/
structure Balances (c : UpstreamConfig) (event : FloodgateEvent) (s : Upstream)
    (units : List PacketUnit) (after : Upstream) : Prop where
  solvent : Solvent c after
  balance : ∀ dst, c.Grouped dst →
    after.window c dst + bytesTo dst units = s.window c dst + event.creditFor c dst

section Balances

variable {c : UpstreamConfig} {s after : Upstream}

/-- Only a packet that has been found to fit passes. -/
theorem checkVOQWin_room {pkt pkt' : Packet} {outDev qIndex : Nat} {checked : Bool × Upstream}
    (isUdp : pkt.isUdp = true) (grouped : c.Grouped pkt.dip)
    (found : s.checkDstWin c pkt.dip pkt.size = .ok checked)
    (success : s.checkVOQWin c pkt outDev qIndex = .ok (some pkt', after)) :
    checked.1 = true := by
  unfold checkVOQWin at success
  simp only [isUdp, if_true, shouldIgnore_grouped grouped, ok_bind, Bool.false_eq_true, if_false,
    found] at success
  split at success
  · rename_i passes
    exact (Bool.and_eq_true_iff.mp passes).1
  · obtain ⟨buffered, _, success⟩ := bind_ok.mp success
    exact absurd (congrArg Prod.fst (Except.ok.inj success)) (by simp)

theorem checkVOQWin_balances (own : OwnWindows c) (solvent : Solvent c s) {pkt : Packet}
    {outDev qIndex : Nat} {routed : Option Packet} (isUdp : pkt.isUdp = true)
    (host : pkt.dip < c.settings.hostNum)
    (success : s.checkVOQWin c pkt outDev qIndex = .ok (routed, after)) :
    Balances c (.data pkt isUdp outDev qIndex) s
      (routed.toList.map fun pkt' => ⟨pkt', pkt.dip, outDev, qIndex⟩) after := by
  cases rule : c.dst2group pkt.dip with
  | unset =>
      simp [checkVOQWin, isUdp, UpstreamConfig.shouldIgnore, rule] at success
  | ignored =>
      simp only [checkVOQWin, isUdp, if_true, UpstreamConfig.shouldIgnore, rule, ok_bind] at success
      obtain ⟨rfl, rfl⟩ := Prod.mk.inj (Except.ok.inj success)
      refine ⟨solvent, fun dst grouped => ?_⟩
      obtain ⟨gid, group⟩ := grouped
      have other : pkt.dip ≠ dst := by
        rintro rfl
        rw [rule] at group
        contradiction
      simp [ofDst, other, FloodgateEvent.creditFor]
  | group gid =>
      have grouped : c.Grouped pkt.dip := ⟨gid, rule⟩
      obtain ⟨checked, found, cases⟩ := checkVOQWin_grouped isUdp grouped success
      obtain ⟨same, covered⟩ := checkDstWin_window own found
      obtain ⟨frame, known⟩ := (checkDstWin_frame c s pkt.dip pkt.size).of_ok found
      have held : HeldRegistered c checked.2 := by
        intro voq unit member
        rw [frame.voqPackets] at member
        obtain ⟨inside, registered, group⟩ := solvent.held voq unit member
        exact ⟨inside, frame.registered unit.dst registered, group⟩
      have solvent' : Solvent c checked.2 :=
        ⟨held, fun dst group => same dst ▸ solvent.small dst group⟩
      rcases cases with ⟨pkt', rfl, passes, packets⟩ | ⟨rfl, wins, _, _, packets⟩
      · have room : checked.1 = true := checkVOQWin_room isUdp grouped found success
        have spends : Spends c checked.2 [⟨pkt', pkt.dip, outDev, qIndex⟩] after :=
          passes.spends known host rfl rfl fun voq other member => packets voq ▸ member
        have paid : ∀ dst, c.Grouped dst → after.window c dst +
            bytesTo dst [⟨pkt', pkt.dip, outDev, qIndex⟩] = checked.2.window c dst := by
          intro dst group
          refine spends.exact own (solvent'.small dst group) ?_
          simp only [bytesTo_cons, bytesTo_nil, ofDst, passes.size]
          split
          · rename_i target
            rw [Nat.add_zero, same, ← target]
            exact covered room
          · exact Nat.zero_le _
        refine ⟨solvent'.spends spends paid, fun dst group => ?_⟩
        rw [← same dst]
        exact paid dst group
      · refine ⟨⟨fun voq unit member => ?_, fun dst group => ?_⟩, fun dst _ => ?_⟩
        · rcases packets voq unit member with earlier | rfl
          · obtain ⟨inside, registered, group⟩ := held voq unit earlier
            exact ⟨inside, wins ▸ registered, group⟩
          · exact ⟨host, wins ▸ known, grouped⟩
        · rw [window_congr wins]
          exact solvent'.small dst group
        · rw [window_congr wins, same]
          rfl

theorem restoreWin_balances (own : OwnWindows c) (solvent : Solvent c s) {tag : SwitchACKTag}
    {sip inDev : Nat}
    (room : ∀ dst, c.Grouped dst →
      s.window c dst + FloodgateEvent.creditFor c dst (.ack tag sip inDev) < Word32.size)
    (success : s.restoreWin c tag sip inDev = .ok after) :
    Balances c (.ack tag sip inDev) s [] after := by
  obtain ⟨_, each, _⟩ := restoreWin_refills success
  have frame := (restoreWin_frame c s tag sip inDev).of_ok success
  have balance : ∀ dst, c.Grouped dst → after.window c dst =
      s.window c dst + FloodgateEvent.creditFor c dst (.ack tag sip inDev) := by
    intro dst grouped
    have refills := each dst grouped
    obtain ⟨added, unused⟩ := refills.credit own.credit
    have fits := room dst grouped
    by_cases known : dst ∈ s.wins
    · rw [window_known known] at fits ⊢
      rw [window_known (refills.kept known)]
      have bound := refills.small (by omega)
      unfold Word32.size at added fits bound
      omega
    · obtain ⟨none, unknown⟩ := unused known
      rw [window_unknown known, window_unknown unknown, none, Nat.add_zero]
  refine ⟨⟨fun voq unit member => ?_, fun dst grouped => ?_⟩, balance⟩
  · rw [frame.voqPackets] at member
    obtain ⟨inside, registered, grouped⟩ := solvent.held voq unit member
    exact ⟨inside, frame.registered unit.dst registered, grouped⟩
  · rw [balance dst grouped]
    exact room dst grouped

theorem handle_balances (own : OwnWindows c)
    (mode : c.settings.switchAckMode ≠ .switchIngressCredit) (solvent : Solvent c s)
    {event : FloodgateEvent} {units : List PacketUnit} (host : event.FromHosts c)
    (room : ∀ dst, c.Grouped dst → s.window c dst + event.creditFor c dst < Word32.size)
    (success : s.handle c event = .ok (units, after)) : Balances c event s units after := by
  cases event with
  | data pkt isData outDev qIndex =>
      obtain ⟨⟨routed, finish⟩, routing, result⟩ := bind_ok.mp success
      obtain ⟨rfl, rfl⟩ := Prod.mk.inj (Except.ok.inj result)
      exact checkVOQWin_balances own solvent isData host routing
  | ack tag sip inDev =>
      obtain ⟨restored, restoring, draining⟩ := bind_ok.mp success
      have refilled := restoreWin_balances own solvent room restoring
      have pays := (drain_pays own mode refilled.solvent sip).of_ok draining
      refine ⟨pays.solvent, fun dst grouped => ?_⟩
      rw [pays.balance dst grouped]
      exact refilled.balance dst grouped

end Balances

end Floodgate.Upstream
