import Floodgate.NodeTraffic

/-! What the Switch-ACKs of a downstream carry, against what it owed before and owes after. -/

namespace Floodgate

open Std Outcome

/-- What a Switch-ACK returns for `dst`: a number of bytes, or an absolute PSN. -/
def Packet.acked (g : Settings) (dst : Nat) (p : Packet) : Nat :=
  match p.body with
  | .switchAck tag =>
      match g.switchAckMode with
      | .switchIngressCredit => tag.getACKEntry dst
      | _ => if p.sip = dst then tag.getAckedSize else 0
  | _ => 0

theorem SwitchACKTag.foldl_entry (items : List Nat) (chosen : Nat → Prop) [DecidablePred chosen]
    (amount : Nat → Nat) (tag : SwitchACKTag) (dst : Nat) :
    (items.foldl (fun tag i => if chosen i then tag.setACKEntry i (amount i) else tag)
      tag).getACKEntry dst = if dst ∈ items ∧ chosen dst then amount dst else tag.getACKEntry dst := by
  induction items generalizing tag with
  | nil => simp
  | cons item rest ih =>
      rw [List.foldl_cons, ih]
      by_cases later : dst ∈ rest ∧ chosen dst
      · rw [if_pos later, if_pos ⟨List.mem_cons_of_mem _ later.1, later.2⟩]
      · rw [if_neg later]
        by_cases same : dst = item
        · subst same
          by_cases picked : chosen dst
          · simp [picked, setACKEntry, getACKEntry]
          · simp [picked]
        · have absent : ¬ (dst ∈ item :: rest ∧ chosen dst) := by
            simpa [same] using later
          rw [if_neg absent]
          split
          · simp [setACKEntry, getACKEntry, same]
          · rfl

namespace Downstream

def Ordered (d : Downstream) : Prop := ∀ dev dst, d.lstAckPsn dev dst ≤ d.nxtAckPsn dev dst

def CreditsFit (d : Downstream) : Prop := ∀ dev dst, d.credit dev dst < Word32.size

/-- The failures that are possible from `d`: with ordered PSNs their assertion does not fail. -/
def Spares (d : Downstream) (failure : Assertion) : Prop :=
  failure ≠ .inflightOrdered ∧ (d.Ordered → failure ≠ .ackOrdered)

/-- `frames` return what leaves the books of the downstream. -/
structure Settled (g : Settings) (before after : Downstream) (frames : Nat → List Packet) :
    Prop where
  rcvDataPsn : after.rcvDataPsn = before.rcvDataPsn
  nxtAckPsn : after.nxtAckPsn = before.nxtAckPsn
  credits : g.switchAbsolutePsn = false → before.CreditsFit → ∀ dev dst,
    after.credit dev dst + ((frames dev).map fun p => Word32.trunc (p.acked g dst)).sum =
      before.credit dev dst
  ordered : before.Ordered → after.Ordered
  psn : g.switchAbsolutePsn = true → ∀ dev dst, ∀ p ∈ frames dev,
    p.acked g dst ≤ before.nxtAckPsn dev dst

section Settled

variable {g : Settings} {first second third : Downstream} {frames later : Nat → List Packet}

theorem Settled.refl (g : Settings) (d : Downstream) : Settled g d d fun _ => [] :=
  ⟨rfl, rfl, fun _ _ _ _ => rfl, id, fun _ _ _ _ member => absurd member (by simp)⟩

theorem Settled.trans (left : Settled g first second frames)
    (right : Settled g second third later) :
    Settled g first third fun dev => frames dev ++ later dev := by
  refine ⟨right.rcvDataPsn.trans left.rcvDataPsn, right.nxtAckPsn.trans left.nxtAckPsn, ?_,
    fun ordered => right.ordered (left.ordered ordered), ?_⟩
  · intro credit fit dev dst
    have early := left.credits credit fit dev dst
    have fit' : second.CreditsFit := by
      intro i j
      have part := left.credits credit fit i j
      have whole := fit i j
      omega
    have late := right.credits credit fit' dev dst
    rw [List.map_append, List.sum_append]
    omega
  · intro absolute dev dst p member
    rcases List.mem_append.mp member with early | late
    · exact left.psn absolute dev dst p early
    · rw [← left.nxtAckPsn]
      exact right.psn absolute dev dst p late

end Settled

section Credits

variable (d : Downstream) (dev : Nat)

theorem credit_setCredits (credits : ExtTreeMap Nat Nat) (i dst : Nat) :
    (d.setCredits dev credits).credit i dst =
      if i = dev then (credits[dst]?).getD 0 else d.credit i dst := by
  unfold credit setCredits
  by_cases same : i = dev
  · simp [same]
  · simp [same]

theorem credit_insert (key value i dst : Nat) :
    (d.setCredits dev ((d.ingressDstCredits dev).insert key value)).credit i dst =
      if i = dev ∧ dst = key then value else d.credit i dst := by
  rw [credit_setCredits, MapSum.getD_insert]
  by_cases same : i = dev
  · subst same
    by_cases here : dst = key
    · simp [here]
    · simp [here, credit]
  · simp [same]

theorem addCreditCounter_credit (dst bytes i j : Nat) :
    (d.addCreditCounter dev dst bytes).credit i j =
      if i = dev ∧ j = dst then Word32.add (d.credit dev dst) bytes else d.credit i j :=
  credit_insert d dev dst _ i j

end Credits

section Tags

variable {g : Settings} {due : Nat → Bool} {d after : Downstream} {dev : Nat}

theorem getSwitchACKTag_credit (credit : g.switchAbsolutePsn = false) (dst : Nat) :
    (d.getSwitchACKTag g due dev).getACKEntry dst =
      if due dst then d.credit dev dst else 0 := by
  unfold getSwitchACKTag
  simp only [credit, Bool.false_eq_true, if_false]
  rw [SwitchACKTag.foldl_entry _ fun dst => 0 < d.credit dev dst ∧ due dst = true]
  have empty : SwitchACKTag.empty.getACKEntry dst = 0 := rfl
  rw [empty]
  by_cases picked : dst ∈ (d.ingressDstCredits dev).keys ∧ 0 < d.credit dev dst ∧ due dst = true
  · rw [if_pos picked, if_pos picked.2.2]
  · rw [if_neg picked]
    split
    · rename_i waits
      by_contra positive
      apply picked
      refine ⟨?_, by omega, waits⟩
      by_contra absent
      have none : (d.ingressDstCredits dev)[dst]? = none := by simpa using absent
      simp [Downstream.credit, none] at positive
    · rfl

theorem getSwitchACKTag_psn (absolute : g.switchAbsolutePsn = true) (dst : Nat) :
    (d.getSwitchACKTag g due dev).getACKEntry dst ≤ d.nxtAckPsn dev dst := by
  unfold getSwitchACKTag
  simp only [absolute, if_true]
  rw [SwitchACKTag.foldl_entry _
    fun dst => d.lstAckPsn dev dst < d.nxtAckPsn dev dst ∧ due dst = true]
  split
  · exact Nat.le_refl _
  · exact Nat.zero_le _

theorem getDstsSwitchACKTag_psn (dsts : List Nat) :
    Holds d.Spares (fun tag => ∀ dst, tag.getACKEntry dst ≤ d.nxtAckPsn dev dst)
      (d.getDstsSwitchACKTag g due dev dsts) := by
  unfold getDstsSwitchACKTag
  split
  · intro dst
    rw [SwitchACKTag.foldl_entry _
      fun dst => (d.lstAckPsn dev dst < d.nxtAckPsn dev dst ∨ dst ∈ dsts) ∧ due dst = true]
    split
    · exact Nat.le_refl _
    · exact Nat.zero_le _
  · exact ⟨by simp, fun _ => by simp⟩

end Tags

section Counters

variable (g : Settings) (due : Nat → Bool) (d : Downstream) (dev : Nat)

theorem getIngressDstCreditCounter_spares (dst : Nat) :
    Holds d.Spares (fun _ => True) (d.getIngressDstCreditCounter g due dev dst) := by
  unfold getIngressDstCreditCounter
  split
  · split
    · split
      · trivial
      · rename_i unordered
        exact ⟨by simp, fun ordered => absurd (ordered dev dst) unordered⟩
    · trivial
  · split <;> trivial

theorem checkIngressCreditCounter_spares (threshold : Nat) :
    Holds d.Spares (fun _ => True) (d.checkIngressCreditCounter g due dev threshold) := by
  unfold checkIngressCreditCounter
  refine Holds.bind (Holds.foldlM (fun _ => True) _ _ trivial ?_) fun _ _ _ => trivial
  intro sum dst _ _
  apply (getIngressDstCreditCounter_spares g due d dev dst).bind
  intro _ _ _
  trivial

end Counters

section Clean

variable {g : Settings} {d : Downstream} {dev : Nat}

theorem cleanIngressDst_settled (mode : g.switchAckMode = .switchDstCredit)
    {dst size : Nat} (next : g.switchAbsolutePsn = true → size = d.nxtAckPsn dev dst)
    (ackDst : Nat) :
    Holds d.Spares
      (fun after => Settled g d after (SwitchNode.oneFrame dev
        (switchACKPacket g (SwitchACKTag.setAckedSize size) dst ackDst)))
      (d.cleanIngressDstCreditCounter g dev dst size) := by
  have acked : ∀ j, (switchACKPacket g (SwitchACKTag.setAckedSize size) dst ackDst).acked g j =
      if dst = j then size else 0 := by
    intro j
    simp only [Packet.acked, switchACKPacket, controlPacket, mode]
    rfl
  unfold cleanIngressDstCreditCounter
  cases absolute : g.switchAbsolutePsn with
  | true =>
      have exact := next absolute
      refine ⟨rfl, rfl, fun credit => absurd credit (by simp [absolute]), ?_, ?_⟩
      · intro ordered i j
        by_cases here : i = dev ∧ j = dst
        · simp [setCell, here, exact]
        · simp only [setCell, if_neg here]
          exact ordered i j
      · intro _ i j p member
        unfold SwitchNode.oneFrame at member
        split at member
        · rename_i same
          simp only [List.mem_singleton] at member
          rw [member, acked, same]
          split
          · rename_i here
            rw [exact, here]
          · exact Nat.zero_le _
        · simp at member
  | false =>
      simp only [Bool.false_eq_true, if_false]
      cases found : (d.ingressDstCredits dev)[dst]? with
      | none => exact ⟨by simp, fun _ => by simp⟩
      | some credit =>
          simp only
          split
          · rename_i exact
            refine ⟨rfl, rfl, ?_, id, fun on => absurd on (by simp [absolute])⟩
            intro _ fit i j
            have stored : d.credit dev dst = size := by simp [Downstream.credit, found, exact]
            have small := fit dev dst
            rw [stored] at small
            rw [credit_insert]
            by_cases here : i = dev
            · subst here
              by_cases same : j = dst
              · subst same
                simp [SwitchNode.oneFrame, acked, stored, Word32.trunc_eq _ small]
              · simp [SwitchNode.oneFrame, acked, same, Ne.symm same, Word32.trunc]
            · simp [SwitchNode.oneFrame, here]
          · exact ⟨by simp, fun _ => by simp⟩

theorem cleanCredits_credit (tag : SwitchACKTag) (keys : List Nat) (distinct : keys.Nodup)
    (fits : ∀ dst ∈ keys, tag.getACKEntry dst ≤ d.credit dev dst ∧ d.credit dev dst < Word32.size)
    :
    Holds d.Spares
      (fun after => after.rcvDataPsn = d.rcvDataPsn ∧ after.nxtAckPsn = d.nxtAckPsn ∧
        after.lstAckPsn = d.lstAckPsn ∧ ∀ i j, after.credit i j =
          if i = dev ∧ j ∈ keys then d.credit i j - tag.getACKEntry j else d.credit i j)
      (keys.foldlM
        (fun d dst =>
          if tag.getACKEntry dst ≤ d.credit dev dst then
            .ok (d.setCredits dev ((d.ingressDstCredits dev).insert dst
              (Word32.sub (d.credit dev dst) (Word32.trunc (tag.getACKEntry dst)))))
          else .error .creditCovered) d) := by
  induction keys generalizing d with
  | nil => exact ⟨rfl, rfl, rfl, by simp⟩
  | cons key rest ih =>
      obtain ⟨fresh, distinct⟩ := List.nodup_cons.mp distinct
      obtain ⟨covered, small⟩ := fits key (by simp)
      rw [List.foldlM_cons, if_pos covered, ok_bind]
      have value : Word32.sub (d.credit dev key) (Word32.trunc (tag.getACKEntry key)) =
          d.credit dev key - tag.getACKEntry key := by
        rw [Word32.trunc_eq _ (Nat.lt_of_le_of_lt covered small)]
        exact Word32.sub_eq _ _ small covered
      rw [value]
      have later := ih (d := d.setCredits dev ((d.ingressDstCredits dev).insert key
        (d.credit dev key - tag.getACKEntry key))) distinct (by
          intro dst member
          have different : dst ≠ key := fun same => fresh (same ▸ member)
          rw [credit_insert, if_neg fun here => different here.2]
          exact fits dst (List.mem_cons_of_mem _ member))
      refine (later.weaken fun failure spares => ⟨spares.1, fun ordered => spares.2 ordered⟩).mono ?_
      rintro after _ ⟨data, next, last, credits⟩
      refine ⟨data, next, last, ?_⟩
      intro i j
      rw [credits, credit_insert]
      by_cases row : i = dev
      · subst row
        by_cases same : j = key
        · subst same
          simp [fresh]
        · simp [same]
      · simp [row]

theorem cleanPsn_same (dev : Nat) (tag : SwitchACKTag) (items : List Nat) (d : Downstream) :
    let after := items.foldl
      (fun d dst =>
        if 0 < tag.getACKEntry dst then
          { d with lstAckPsn := setCell d.lstAckPsn dev dst (tag.getACKEntry dst) }
        else d) d
    after.rcvDataPsn = d.rcvDataPsn ∧ after.nxtAckPsn = d.nxtAckPsn ∧
      ((∀ dst, tag.getACKEntry dst ≤ d.nxtAckPsn dev dst) → d.Ordered → after.Ordered) := by
  induction items generalizing d with
  | nil => exact ⟨rfl, rfl, fun _ ordered => ordered⟩
  | cons item rest ih =>
      rw [List.foldl_cons]
      split
      · obtain ⟨data, next, ordered⟩ := ih
          { d with lstAckPsn := setCell d.lstAckPsn dev item (tag.getACKEntry item) }
        refine ⟨data, next, fun below before => ordered below ?_⟩
        intro i j
        by_cases here : i = dev ∧ j = item
        · simpa [setCell, here] using below item
        · simp only [setCell, if_neg here]
          exact before i j
      · exact ih d

theorem cleanIngress_settled (mode : g.switchAckMode = .switchIngressCredit) {tag : SwitchACKTag}
    {due : Nat → Bool} (undelayed : g.switchAckThM = 0 → ∀ dst, due dst = true)
    (credit : g.switchAbsolutePsn = false → ∀ dst,
      tag.getACKEntry dst = if due dst then d.credit dev dst else 0)
    (next : g.switchAbsolutePsn = true → ∀ dst, tag.getACKEntry dst ≤ d.nxtAckPsn dev dst)
    (src dst : Nat) :
    Holds d.Spares
      (fun after => Settled g d after (SwitchNode.oneFrame dev (switchACKPacket g tag src dst)))
      (d.cleanIngressCreditCounter g dev tag) := by
  have acked : ∀ j, (switchACKPacket g tag src dst).acked g j = tag.getACKEntry j := by
    intro j
    simp only [Packet.acked, switchACKPacket, controlPacket, mode]
  unfold cleanIngressCreditCounter
  cases absolute : g.switchAbsolutePsn with
  | true =>
      obtain ⟨data, nxt, ordered⟩ := cleanPsn_same dev tag (List.range g.hostNum) d
      refine ⟨data, nxt, fun off => absurd off (by simp [absolute]), ordered (next absolute), ?_⟩
      intro _ i j p member
      unfold SwitchNode.oneFrame at member
      split at member
      · rename_i same
        simp only [List.mem_singleton] at member
        rw [member, acked, same]
        exact next absolute j
      · simp at member
  | false =>
      have entries := credit absolute
      -- What a row is left with, and what the frame carries, add up to what it had.
      have settles : ∀ after : Downstream, (d.CreditsFit → ∀ i j, after.credit i j =
          if i = dev then d.credit i j - tag.getACKEntry j else d.credit i j) →
          d.CreditsFit → ∀ i j, after.credit i j +
            ((SwitchNode.oneFrame dev (switchACKPacket g tag src dst) i).map
              fun p => Word32.trunc (p.acked g j)).sum = d.credit i j := by
        intro after left fit i j
        rw [left fit]
        by_cases here : i = dev
        · subst here
          have small := fit i j
          have entry := entries j
          have covered : tag.getACKEntry j ≤ d.credit i j := by
            rw [entry]
            split
            · exact Nat.le_refl _
            · exact Nat.zero_le _
          simp only [SwitchNode.oneFrame, if_true, List.map_cons, List.map_nil, List.sum_cons,
            List.sum_nil, acked, Word32.trunc_eq _ (Nat.lt_of_le_of_lt covered small)]
          omega
        · simp [SwitchNode.oneFrame, here]
      simp only [Bool.false_eq_true, if_false]
      by_cases off : g.switchAckThM = 0
      · rw [if_pos off]
        refine ⟨rfl, rfl, fun _ => settles _ ?_, id, fun on => absurd on (by simp [absolute])⟩
        intro _ i j
        rw [credit_setCredits, entries j, if_pos (undelayed off j)]
        by_cases here : i = dev
        · simp [here]
        · simp [here]
      · rw [if_neg off]
        have same : Holds d.Spares
            (fun after => after.rcvDataPsn = d.rcvDataPsn ∧ after.nxtAckPsn = d.nxtAckPsn ∧
              after.lstAckPsn = d.lstAckPsn)
            ((d.ingressDstCredits dev).keys.foldlM
              (fun d dst =>
                if tag.getACKEntry dst ≤ d.credit dev dst then
                  .ok (d.setCredits dev ((d.ingressDstCredits dev).insert dst
                    (Word32.sub (d.credit dev dst) (Word32.trunc (tag.getACKEntry dst)))))
                else .error .creditCovered) d) := by
          apply Holds.foldlM _ _ _ ⟨rfl, rfl, rfl⟩
          intro state key _ kept
          split
          · exact kept
          · exact ⟨by simp, fun _ => by simp⟩
        apply same.mono
        rintro after success ⟨data, nxt, last⟩
        refine ⟨data, nxt, fun _ => settles after ?_, ?_, fun on => absurd on (by simp [absolute])⟩
        · intro fit i j
          have credits := ((@cleanCredits_credit d dev tag
            (d.ingressDstCredits dev).keys (MapSum.nodup_keys _) (by
              intro key _
              refine ⟨?_, fit dev key⟩
              rw [entries key]
              split
              · exact Nat.le_refl _
              · exact Nat.zero_le _)).of_ok success).2.2.2 i j
          rw [credits]
          by_cases here : i = dev
          · subst here
            by_cases known : j ∈ (d.ingressDstCredits i).keys
            · simp [known]
            · have none : (d.ingressDstCredits i)[j]? = none := by simpa using known
              have zero : d.credit i j = 0 := by simp [Downstream.credit, none]
              simp [known, zero]
          · simp [here]
        · intro ordered i j
          rw [last, nxt]
          exact ordered i j

end Clean

end Downstream

end Floodgate
