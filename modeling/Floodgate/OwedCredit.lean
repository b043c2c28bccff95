import Floodgate.NodeAcks

/-! What a switch owes its upstreams, in bytes or in PSNs: no Switch-ACK adds to it. -/

namespace Floodgate

open Std Outcome

namespace Downstream

/-- The upstream of the row `dev` is owed an acknowledgement for `dst`. -/
def Owes (g : Settings) (d : Downstream) (dev dst : Nat) : Prop :=
  if g.switchAbsolutePsn then d.lstAckPsn dev dst < d.nxtAckPsn dev dst
  else 0 < d.credit dev dst

def Repays (g : Settings) (before after : Downstream) : Prop :=
  ∀ dev dst, after.Owes g dev dst → before.Owes g dev dst

section Repays

variable {g : Settings} {first second third : Downstream}

theorem Repays.refl (g : Settings) (d : Downstream) : Repays g d d := fun _ _ => id

theorem Repays.trans (left : Repays g first second) (right : Repays g second third) :
    Repays g first third := fun dev dst owed => left dev dst (right dev dst owed)

/-- With PSNs, a row of acknowledged PSNs changes in places that are then acknowledged. -/
theorem Repays.of_psn (absolute : g.switchAbsolutePsn = true)
    (next : second.nxtAckPsn = first.nxtAckPsn)
    (last : ∀ dev dst, second.lstAckPsn dev dst = first.lstAckPsn dev dst ∨
      second.lstAckPsn dev dst = first.nxtAckPsn dev dst) : Repays g first second := by
  intro dev dst owed
  simp only [Owes, absolute, if_true, next] at owed ⊢
  rcases last dev dst with same | acked
  · rwa [same] at owed
  · omega

theorem Repays.of_credit (credit : g.switchAbsolutePsn = false)
    (spent : ∀ dev dst, first.credit dev dst = 0 → second.credit dev dst = 0) :
    Repays g first second := by
  intro dev dst owed
  simp only [Owes, credit, Bool.false_eq_true, if_false] at owed ⊢
  by_contra nothing
  have zero := spent dev dst (by omega)
  omega

end Repays

theorem addCreditCounter_owes {g : Settings} {d : Downstream} {dev dst bytes i j : Nat}
    (owed : (d.addCreditCounter dev dst bytes).Owes g i j) :
    d.Owes g i j ∨ i = dev ∧ j = dst := by
  by_cases here : i = dev ∧ j = dst
  · exact .inr here
  · left
    simp only [Owes, addCreditCounter_credit, if_neg here] at owed
    exact owed

theorem updateNxtAckPsn_owes {g : Settings} {d : Downstream} {dev dst psn i j : Nat}
    (owed : (d.updateNxtAckPsn dev dst psn).Owes g i j) : d.Owes g i j ∨ i = dev ∧ j = dst := by
  by_cases here : i = dev ∧ j = dst
  · exact .inr here
  · left
    simp only [Owes, updateNxtAckPsn, setCell_other _ _ _ _ _ _ here] at owed
    exact owed

section Clean

variable {g : Settings} {d after : Downstream} {dev : Nat}

theorem cleanIngressDst_repays {dst size : Nat}
    (next : g.switchAbsolutePsn = true → size = d.nxtAckPsn dev dst)
    (cleaned : d.cleanIngressDstCreditCounter g dev dst size = .ok after) :
    Repays g d after := by
  unfold cleanIngressDstCreditCounter at cleaned
  cases absolute : g.switchAbsolutePsn with
  | true =>
      simp only [absolute, if_true] at cleaned
      obtain rfl := Except.ok.inj cleaned
      refine Repays.of_psn absolute rfl fun i j => ?_
      by_cases here : i = dev ∧ j = dst
      · obtain ⟨rfl, rfl⟩ := here
        exact .inr ((setCell_same _ _ _ _).trans (next absolute))
      · exact .inl (setCell_other _ _ _ _ _ _ here)
  | false =>
      simp only [absolute, Bool.false_eq_true, if_false] at cleaned
      split at cleaned
      · contradiction
      · split at cleaned
        · obtain rfl := Except.ok.inj cleaned
          refine Repays.of_credit absolute fun i j zero => ?_
          rw [credit_insert]
          split
          · rfl
          · exact zero
        · contradiction

theorem cleanPsn_repays (tag : SwitchACKTag) (items : List Nat) (d : Downstream)
    (absolute : g.switchAbsolutePsn = true)
    (next : ∀ dst, 0 < tag.getACKEntry dst → tag.getACKEntry dst = d.nxtAckPsn dev dst) :
    Repays g d (items.foldl
      (fun d dst =>
        if 0 < tag.getACKEntry dst then
          { d with lstAckPsn := setCell d.lstAckPsn dev dst (tag.getACKEntry dst) }
        else d) d) := by
  induction items generalizing d with
  | nil => exact Repays.refl g d
  | cons item rest ih =>
      rw [List.foldl_cons]
      by_cases filled : 0 < tag.getACKEntry item
      · rw [if_pos filled]
        have one : Repays g d
            { d with lstAckPsn := setCell d.lstAckPsn dev item (tag.getACKEntry item) } := by
          refine Repays.of_psn absolute rfl fun i j => ?_
          by_cases here : i = dev ∧ j = item
          · obtain ⟨rfl, rfl⟩ := here
            exact .inr ((setCell_same _ _ _ _).trans (next j filled))
          · exact .inl (setCell_other _ _ _ _ _ _ here)
        exact one.trans (ih _ next)
      · rw [if_neg filled]
        exact ih d next

theorem cleanIngress_repays {tag : SwitchACKTag}
    (next : g.switchAbsolutePsn = true →
      ∀ dst, 0 < tag.getACKEntry dst → tag.getACKEntry dst = d.nxtAckPsn dev dst)
    (cleaned : d.cleanIngressCreditCounter g dev tag = .ok after) : Repays g d after := by
  unfold cleanIngressCreditCounter at cleaned
  cases absolute : g.switchAbsolutePsn with
  | true =>
      simp only [absolute, if_true] at cleaned
      obtain rfl := Except.ok.inj cleaned
      exact cleanPsn_repays tag (List.range g.hostNum) d absolute (next absolute)
  | false =>
      simp only [absolute, Bool.false_eq_true, if_false] at cleaned
      split at cleaned
      · obtain rfl := Except.ok.inj cleaned
        refine Repays.of_credit absolute fun i j zero => ?_
        rw [credit_setCredits]
        split
        · simp
        · exact zero
      · have spending : Holds (fun _ => True)
            (fun after : Downstream => ∀ i j, d.credit i j = 0 → after.credit i j = 0)
            ((d.ingressDstCredits dev).keys.foldlM
              (fun d dst =>
                if tag.getACKEntry dst ≤ d.credit dev dst then
                  .ok (d.setCredits dev ((d.ingressDstCredits dev).insert dst
                    (Word32.sub (d.credit dev dst) (Word32.trunc (tag.getACKEntry dst)))))
                else .error Assertion.creditCovered) d) := by
          apply Holds.foldlM _ _ _ fun _ _ => id
          intro state key _ spent
          split
          · rename_i covered
            intro i j zero
            rw [credit_insert]
            split
            · rename_i here
              obtain ⟨rfl, rfl⟩ := here
              rw [spent i j zero] at covered ⊢
              rw [Nat.le_zero.mp covered]
              rfl
            · exact spent i j zero
          · trivial
        exact Repays.of_credit absolute (spending.of_ok cleaned)

/-- The entries of a row's tag are the PSNs that are due, or nothing. -/
theorem getSwitchACKTag_next {due : Nat → Bool} (absolute : g.switchAbsolutePsn = true) (dst : Nat)
    (filled : 0 < (d.getSwitchACKTag g due dev).getACKEntry dst) :
    (d.getSwitchACKTag g due dev).getACKEntry dst = d.nxtAckPsn dev dst := by
  unfold getSwitchACKTag at filled ⊢
  simp only [absolute, if_true] at filled ⊢
  rw [SwitchACKTag.foldl_entry _
    fun dst => d.lstAckPsn dev dst < d.nxtAckPsn dev dst ∧ due dst = true] at filled ⊢
  split at filled
  · rename_i picked
    rw [if_pos picked]
  · exact absurd filled (by simp [SwitchACKTag.empty, SwitchACKTag.getACKEntry])

end Clean

end Downstream

namespace SwitchNode

open Downstream

variable {c : SwitchNodeConfig} {route : Nat → Nat} {s after : SwitchNode}

theorem sendSwitchACK_repays {inDev dst ackDst size : Nat}
    (next : c.settings.switchAbsolutePsn = true → size = s.downstream.nxtAckPsn inDev dst)
    (sent : s.sendSwitchACK c inDev dst ackDst size = .ok after) :
    Repays c.settings s.downstream after.downstream := by
  unfold sendSwitchACK at sent
  obtain ⟨cleaned, cleaning, sent⟩ := bind_ok.mp sent
  obtain rfl := Except.ok.inj sent
  exact cleanIngressDst_repays next cleaning

theorem sendAccSwitchACK_repays {dev : Nat}
    (sent : s.sendAccSwitchACK c route dev
      (s.downstream.getSwitchACKTag c.settings (s.ackDue c) dev) = .ok after) :
    Repays c.settings s.downstream after.downstream := by
  unfold sendAccSwitchACK at sent
  obtain ⟨cleaned, cleaning, sent⟩ := bind_ok.mp sent
  obtain rfl := Except.ok.inj sent
  exact cleanIngress_repays (fun absolute => getSwitchACKTag_next absolute) cleaning

theorem checkAndSendACK_repays {p : Packet} {threshold creditId : Nat} {sent : Bool × SwitchNode}
    (success : s.checkAndSendACK c route p threshold creditId = .ok sent) :
    Repays c.settings s.downstream sent.2.downstream := by
  unfold checkAndSendACK at success
  split at success
  · obtain ⟨enough, _, success⟩ := bind_ok.mp success
    split at success
    · obtain ⟨acked, sending, success⟩ := bind_ok.mp success
      obtain rfl := Except.ok.inj success
      exact sendAccSwitchACK_repays sending
    · obtain rfl := Except.ok.inj success
      exact Repays.refl _ _
  · obtain ⟨credit, _, success⟩ := bind_ok.mp success
    split at success
    · obtain ⟨acked, sending, success⟩ := bind_ok.mp success
      obtain rfl := Except.ok.inj success
      exact sendSwitchACK_repays (fun absolute => by rw [if_pos absolute]) sending
    · obtain rfl := Except.ok.inj success
      exact Repays.refl _ _
  · obtain rfl := Except.ok.inj success
    exact Repays.refl _ _

theorem checkAndSendACKs_repays {p : Packet} {threshold : Nat} {ids : List Nat}
    {sent : Bool × SwitchNode}
    (success : s.checkAndSendACKs c route p threshold ids = .ok sent) :
    Repays c.settings s.downstream sent.2.downstream := by
  have paying : Holds (fun _ => True)
      (fun sent : Bool × SwitchNode => Repays c.settings s.downstream sent.2.downstream)
      (s.checkAndSendACKs c route p threshold ids) := by
    unfold checkAndSendACKs
    apply Holds.foldlM
      (fun state : Bool × SwitchNode => Repays c.settings s.downstream state.2.downstream) _ _
      (Repays.refl _ _)
    intro state creditId _ before
    apply holds_of_success
    intro next step
    obtain ⟨acked, sending, step⟩ := bind_ok.mp step
    obtain rfl := Except.ok.inj step
    have paid := checkAndSendACK_repays sending
    exact before.trans paid
  exact paying.of_ok success

theorem returnCredits_repays {p : Packet} {creditId : Nat}
    (success : s.returnCredits c route p creditId = .ok after) :
    Repays c.settings s.downstream after.downstream := by
  unfold returnCredits at success
  obtain ⟨first, loop, success⟩ := bind_ok.mp success
  have paid := checkAndSendACKs_repays loop
  split at success
  · obtain ⟨flushed, again, success⟩ := bind_ok.mp success
    obtain rfl := Except.ok.inj success
    exact paid.trans (checkAndSendACKs_repays again)
  · obtain rfl := Except.ok.inj success
    exact paid

theorem creditTimeout_repays {dev dst : Nat}
    (success : s.creditTimeout c route dev dst = .ok after) :
    Repays c.settings s.downstream after.downstream := by
  unfold creditTimeout at success
  split at success
  · obtain ⟨enough, _, success⟩ := bind_ok.mp success
    split at success
    · exact sendAccSwitchACK_repays success
    · obtain rfl := Except.ok.inj success
      exact Repays.refl _ _
  · obtain ⟨credit, _, success⟩ := bind_ok.mp success
    split at success
    · exact sendSwitchACK_repays (fun absolute => by rw [if_pos absolute]) success
    · obtain rfl := Except.ok.inj success
      exact Repays.refl _ _
  · contradiction

end SwitchNode

end Floodgate
