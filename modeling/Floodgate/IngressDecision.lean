import Floodgate.AdmissionLedger
import Floodgate.Library.LabelledRun

/-! The admission check against the charge that follows it. The check adds the packet to what is
shared already; the charge adds it to what is reserved and shared. -/

namespace Floodgate

open LabelledRun

inductive AdmissionEvent where
  | enter (inDev qIndex outDev qEgress psize : Nat)
  | reject (inDev qIndex psize : Nat)
  | remove (inDev qIndex outDev qEgress psize : Nat)
  | setPause (port qIndex : Nat)
  | setResume (port qIndex : Nat)

namespace Admission

/-- One call. Sizes are `uint32_t`; a removal may be of any size. -/
inductive Step (c : AdmissionConfig) (m : Admission) : AdmissionEvent → Admission → Prop
  | enter {inDev qIndex outDev qEgress psize : Nat} (word : psize < Word32.size)
      (ingress : m.checkIngressAdmission c inDev qIndex psize = true)
      (egress : m.checkEgressAdmission outDev qEgress psize = true) :
      Step c m (.enter inDev qIndex outDev qEgress psize)
        ((m.updateIngressAdmission c inDev qIndex psize).updateEgressAdmission outDev qEgress psize)
  | reject {inDev qIndex psize : Nat}
      (ingress : m.checkIngressAdmission c inDev qIndex psize = false) :
      Step c m (.reject inDev qIndex psize) m
  | remove {inDev qIndex outDev qEgress psize : Nat} (word : psize < Word32.size) :
      Step c m (.remove inDev qIndex outDev qEgress psize)
        ((m.removeFromIngressAdmission c inDev qIndex psize).removeFromEgressAdmission outDev
          qEgress psize)
  | setPause {port qIndex : Nat} (should : m.checkShouldPause c port qIndex = true) :
      Step c m (.setPause port qIndex) (m.setPause port qIndex)
  | setResume {port qIndex : Nat} (should : m.checkShouldResume c port qIndex = true) :
      Step c m (.setResume port qIndex) (m.setResume port qIndex)

section Charge

variable (c : AdmissionConfig) (m : Admission) (port qIndex psize : Nat)

def Overfills : Prop :=
  c.headroom port < Word32.add psize (m.hdrmBytes port qIndex)

def AboveShared : Prop :=
  m.getPfcThreshold c port < Word32.add psize (m.getSharedUsed c port qIndex)

def ChargesHeadroom : Prop :=
  c.reserve < Word32.add (m.ingressBytes port qIndex) psize ∧
    m.getPfcThreshold c port <
      Word32.sub (Word32.add (m.ingressBytes port qIndex) psize) c.reserve

instance : Decidable (m.Overfills c port qIndex psize) :=
  inferInstanceAs (Decidable (_ < _))

instance : Decidable (m.AboveShared c port qIndex psize) :=
  inferInstanceAs (Decidable (_ < _))

instance : Decidable (m.ChargesHeadroom c port qIndex psize) :=
  inferInstanceAs (Decidable (_ ∧ _))

/-- Check and charge agree on a packet. -/
structure DecideAlike : Prop where
  alike : m.checkIngressAdmission c port qIndex psize = true ↔
    (m.updateIngressAdmission c port qIndex psize).hdrmBytes port qIndex ≤ c.headroom port
  reserve : m.ingressBytes port qIndex + psize ≤ c.reserve →
    m.checkIngressAdmission c port qIndex psize = true
  shared : m.ingressBytes port qIndex + psize ≤ c.reserve + m.getPfcThreshold c port →
    m.checkIngressAdmission c port qIndex psize = true
  overfills : m.checkIngressAdmission c port qIndex psize = true →
    (m.updateIngressAdmission c port qIndex psize).hdrmBytes port qIndex ≤ c.headroom port

/-- The packet is not refused for a headroom that it would not be charged to. -/
def ClassedAlike : Prop :=
  ¬ m.Overfills c port qIndex psize ∨ ¬ m.AboveShared c port qIndex psize ∨
    m.ChargesHeadroom c port qIndex psize

end Charge

section Decision

variable {c : AdmissionConfig} {m : Admission} {port qIndex psize : Nat}

theorem checkIngress_iff : m.checkIngressAdmission c port qIndex psize = true ↔
    ¬ (m.Overfills c port qIndex psize ∧ m.AboveShared c port qIndex psize) := by
  simp only [checkIngressAdmission, Overfills, AboveShared, Bool.not_eq_true', Bool.and_eq_false_iff,
    decide_eq_false_iff_not, gt_iff_lt, not_and_or]

theorem updateIngress_hdrm : (m.updateIngressAdmission c port qIndex psize).hdrmBytes port qIndex =
    if m.ChargesHeadroom c port qIndex psize then Word32.add (m.hdrmBytes port qIndex) psize
    else m.hdrmBytes port qIndex := by
  unfold updateIngressAdmission
  simp only
  split
  · rename_i within
    have stays : ¬ m.ChargesHeadroom c port qIndex psize :=
      fun charges => Nat.not_lt.mpr within charges.1
    rw [if_neg stays]
  · rename_i beyond
    split
    · rename_i above
      have charges : m.ChargesHeadroom c port qIndex psize := ⟨Nat.not_le.mp beyond, above⟩
      rw [if_pos charges]
      simp only [setCell_same]
    · rename_i below
      have stays : ¬ m.ChargesHeadroom c port qIndex psize := fun charges => below charges.2
      rw [if_neg stays]

theorem updateIngress_hdrm_other {i j : Nat} (other : ¬ (i = port ∧ j = qIndex)) :
    (m.updateIngressAdmission c port qIndex psize).hdrmBytes i j = m.hdrmBytes i j := by
  unfold updateIngressAdmission
  simp only
  split
  · rfl
  · split
    · simp only [setCell_other _ _ _ _ _ _ other]
    · rfl

/-- What the charge puts into the headroom, the check has found above the threshold. -/
theorem ChargesHeadroom.aboveShared (ingress : m.ingressBytes port qIndex < Word32.size)
    (charges : m.ChargesHeadroom c port qIndex psize) : m.AboveShared c port qIndex psize := by
  obtain ⟨beyond, above⟩ := charges
  have small := c.reserve_lt
  unfold AboveShared
  rw [shared_used_eq]
  unfold Word32.size at ingress small
  unfold Word32.add Word32.sub at *
  omega

end Decision

/-- The counters are words and the headroom is never filled beyond its size. -/
structure Bounded (c : AdmissionConfig) (m : Admission) : Prop where
  ingress : ∀ i j, m.ingressBytes i j < Word32.size
  word : ∀ i j, m.hdrmBytes i j < Word32.size
  hdrm : ∀ i j, m.hdrmBytes i j ≤ c.headroom i

section Steps

variable {c : AdmissionConfig} {m next : Admission} {port qIndex psize : Nat}

theorem Bounded.init (c : AdmissionConfig) : Bounded c init :=
  ⟨fun _ _ => Nat.zero_lt_succ _, fun _ _ => Nat.zero_lt_succ _, fun _ _ => Nat.zero_le _⟩

theorem Bounded.accepted (bounded : Bounded c m)
    (accepted : m.checkIngressAdmission c port qIndex psize = true) :
    (m.updateIngressAdmission c port qIndex psize).hdrmBytes port qIndex ≤ c.headroom port := by
  rw [updateIngress_hdrm]
  split
  · rename_i charges
    have above := charges.aboveShared (bounded.ingress port qIndex)
    have fits := fun full => checkIngress_iff.mp accepted ⟨full, above⟩
    unfold Overfills at fits
    unfold Word32.add at fits ⊢
    rw [Nat.add_comm]
    exact Nat.not_lt.mp fits
  · exact bounded.hdrm port qIndex

theorem setCell_lt {table : Nat → Nat → Nat} {bound value : Nat}
    (words : ∀ i j, table i j < bound) (word : value < bound) (i j : Nat) :
    setCell table port qIndex value i j < bound := by
  unfold setCell
  split
  · exact word
  · exact words i j

theorem updateIngress_words (bounded : Bounded c m) (i j : Nat) :
    (m.updateIngressAdmission c port qIndex psize).ingressBytes i j < Word32.size ∧
      (m.updateIngressAdmission c port qIndex psize).hdrmBytes i j < Word32.size := by
  have ingress : setCell m.ingressBytes port qIndex
      (Word32.add (m.ingressBytes port qIndex) psize) i j < Word32.size :=
    setCell_lt bounded.ingress (Word32.add_lt (m.ingressBytes port qIndex) psize) i j
  have hdrm : setCell m.hdrmBytes port qIndex (Word32.add (m.hdrmBytes port qIndex) psize) i j <
      Word32.size :=
    setCell_lt bounded.word (Word32.add_lt (m.hdrmBytes port qIndex) psize) i j
  unfold updateIngressAdmission
  simp only
  split
  · exact ⟨ingress, bounded.word i j⟩
  · split
    · exact ⟨bounded.ingress i j, hdrm⟩
    · exact ⟨ingress, bounded.word i j⟩

theorem Bounded.admitted (bounded : Bounded c m)
    (accepted : m.checkIngressAdmission c port qIndex psize = true) :
    Bounded c (m.updateIngressAdmission c port qIndex psize) := by
  refine ⟨fun i j => (updateIngress_words bounded i j).1,
    fun i j => (updateIngress_words bounded i j).2, fun i j => ?_⟩
  by_cases here : i = port ∧ j = qIndex
  · obtain ⟨rfl, rfl⟩ := here
    exact bounded.accepted accepted
  · rw [updateIngress_hdrm_other here]
    exact bounded.hdrm i j

theorem Bounded.removed (bounded : Bounded c m) :
    Bounded c (m.removeFromIngressAdmission c port qIndex psize) := by
  refine ⟨setCell_lt bounded.ingress (Word32.sub_lt _ _),
    setCell_lt bounded.word (Word32.sub_lt _ _), fun i j => ?_⟩
  simp only [removeFromIngressAdmission, setCell]
  split
  · rename_i here
    obtain ⟨rfl, rfl⟩ := here
    rw [Word32.sub_eq _ _ (bounded.word i j) (Nat.min_le_left _ _)]
    exact Nat.le_trans (Nat.sub_le _ _) (bounded.hdrm i j)
  · exact bounded.hdrm i j

theorem Bounded.step {event : AdmissionEvent} (bounded : Bounded c m)
    (step : Step c m event next) : Bounded c next := by
  cases step with
  | enter _ ingress egress =>
      have admitted := bounded.admitted ingress
      exact ⟨admitted.ingress, admitted.word, admitted.hdrm⟩
  | reject ingress => exact bounded
  | @remove inDev qIndex outDev qEgress psize word =>
      have removed := @Bounded.removed c m inDev qIndex psize bounded
      exact ⟨removed.ingress, removed.word, removed.hdrm⟩
  | setPause should => exact ⟨bounded.ingress, bounded.word, bounded.hdrm⟩
  | setResume should => exact ⟨bounded.ingress, bounded.word, bounded.hdrm⟩

theorem not_charges_of_fits (ingress : m.ingressBytes port qIndex < Word32.size)
    (word : psize < Word32.size)
    (fits : m.ingressBytes port qIndex + psize ≤ c.reserve + m.getPfcThreshold c port) :
    ¬ m.ChargesHeadroom c port qIndex psize := by
  intro charges
  obtain ⟨beyond, above⟩ := charges
  have small := c.reserve_lt
  unfold Word32.size at ingress word small
  unfold Word32.add at beyond above
  unfold Word32.sub at above
  omega

/-- In a bounded state check and charge agree on exactly the packets that they class alike. -/
theorem Bounded.decideAlike_iff (bounded : Bounded c m) (word : psize < Word32.size) :
    DecideAlike c m port qIndex psize ↔ m.ClassedAlike c port qIndex psize := by
  have ingress := bounded.ingress port qIndex
  constructor
  · intro agrees
    by_cases charges : m.ChargesHeadroom c port qIndex psize
    · exact .inr (.inr charges)
    · have fits := bounded.hdrm port qIndex
      have accepted := agrees.alike.mpr (by rw [updateIngress_hdrm, if_neg charges]; exact fits)
      rcases not_and_or.mp (checkIngress_iff.mp accepted) with room | below
      · exact .inl room
      · exact .inr (.inl below)
  · intro classed
    -- A packet that is not charged to the headroom is accepted.
    have takes : ¬ m.ChargesHeadroom c port qIndex psize →
        m.checkIngressAdmission c port qIndex psize = true := by
      intro stays
      rw [checkIngress_iff, not_and_or]
      rcases classed with room | below | charges
      · exact .inl room
      · exact .inr below
      · exact absurd charges stays
    refine ⟨⟨bounded.accepted, fun within => ?_⟩, fun within => ?_, fun within => ?_,
      bounded.accepted⟩
    · by_cases charges : m.ChargesHeadroom c port qIndex psize
      · rw [updateIngress_hdrm, if_pos charges] at within
        rw [checkIngress_iff, not_and_or]
        refine .inl ?_
        unfold Overfills
        unfold Word32.add at within ⊢
        rw [Nat.add_comm]
        exact Nat.not_lt.mpr within
      · exact takes charges
    · exact takes (not_charges_of_fits ingress word (Nat.le_trans within (Nat.le_add_right _ _)))
    · exact takes (not_charges_of_fits ingress word within)

end Steps

/-- In every state that the calls lead to, and for every packet, check and charge agree exactly when
they class the packet alike. -/
theorem decide_alike_iff (c : AdmissionConfig) (events : List AdmissionEvent) (m : Admission)
    (run : Run (Step c) init events m) (port qIndex psize : Nat) (word : psize < Word32.size) :
    DecideAlike c m port qIndex psize ↔ m.ClassedAlike c port qIndex psize := by
  have bounded : Bounded c m :=
    run.invariant (Bounded c) (Bounded.init c) fun _ _ _ bounded step => bounded.step step
  exact bounded.decideAlike_iff word

theorem defaultBuffer_lt : 12582912 < Word32.size := by decide

def lowThreshold : AdmissionConfig where
  bufferSize := 12582912
  reserve := 4096
  resumeOffset := 3072
  totalHdrm := 3000
  totalRsrv := 8192
  headroom := fun _ => 1500
  pfcAShift := fun _ => 0
  pfcThStatic := fun _ => 90
  pfcMode := fun _ => .onQueue
  bufferSize_lt := defaultBuffer_lt
  reserve_lt := Word32.four_kilo_lt

def filled : List AdmissionEvent :=
  List.replicate 4 (.enter 1 3 2 3 1048)

theorem run_filled : ∃ m, Run (Step lowThreshold) init filled m ∧
    m.ingressBytes 1 3 = 3144 ∧ m.hdrmBytes 1 3 = 1048 ∧ m.sharedUsedBytes = 0 := by
  have first := Run.single (@Step.enter lowThreshold init 1 3 2 3 1048 (by decide) rfl rfl)
  have second := first.snoc (@Step.enter _ _ 1 3 2 3 1048 (by decide) rfl rfl)
  have third := second.snoc (@Step.enter _ _ 1 3 2 3 1048 (by decide) rfl rfl)
  have fourth := third.snoc (@Step.enter _ _ 1 3 2 3 1048 (by decide) rfl rfl)
  exact ⟨_, fourth, rfl, rfl, rfl⟩

theorem decide_alike_iff_filled : ∃ m, Run (Step lowThreshold) init filled m ∧
    (DecideAlike lowThreshold m 1 3 400 ↔ m.ClassedAlike lowThreshold 1 3 400) := by
  obtain ⟨m, run, -⟩ := run_filled
  exact ⟨m, run, decide_alike_iff lowThreshold filled m run 1 3 400 (by decide)⟩

/-- The next packet of 952 bytes fits the reserve and is refused for the headroom. -/
theorem reserve_packet_refused : ¬ ∀ (c : AdmissionConfig) (events : List AdmissionEvent)
    (m : Admission), Run (Step c) init events m → ∀ port qIndex psize, psize < Word32.size →
      DecideAlike c m port qIndex psize := by
  intro claim
  obtain ⟨m, run, ingress, hdrm, shared⟩ := run_filled
  have agrees := claim lowThreshold filled m run 1 3 952 (by decide)
  have accepted := agrees.reserve (by rw [ingress]; decide)
  refine checkIngress_iff.mp accepted ⟨?_, ?_⟩
  · unfold Overfills
    rw [hdrm]
    decide
  · have threshold : m.getPfcThreshold lowThreshold 1 = 90 := rfl
    unfold AboveShared getSharedUsed
    rw [threshold, ingress]
    decide

end Admission

end Floodgate
