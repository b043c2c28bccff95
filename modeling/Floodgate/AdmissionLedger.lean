import Floodgate.Admission

/-! What charging a packet to the shared buffer, and discharging it, do to the counters. -/

namespace Floodgate

/-- What the static parts leave for sharing. -/
def AdmissionConfig.pool (c : AdmissionConfig) : Nat :=
  c.bufferSize - c.totalHdrm - c.totalRsrv

namespace Admission

/-- `after` differs from `before` by `psize` bytes charged to one port and class: they are split
between the ingress and headroom counters, and the shared pool follows the ingress excess. -/
structure Charged (c : AdmissionConfig) (before after : Admission) (port qIndex psize : Nat) :
    Prop where
  bytes : after.ingressBytes port qIndex + after.hdrmBytes port qIndex =
    before.ingressBytes port qIndex + before.hdrmBytes port qIndex + psize
  shared : after.sharedUsedBytes + (before.ingressBytes port qIndex - c.reserve) =
    before.sharedUsedBytes + (after.ingressBytes port qIndex - c.reserve)
  ingress_grows : before.ingressBytes port qIndex ≤ after.ingressBytes port qIndex
  hdrm_grows : before.hdrmBytes port qIndex ≤ after.hdrmBytes port qIndex
  ingress_other : ∀ i j, ¬ (i = port ∧ j = qIndex) →
    after.ingressBytes i j = before.ingressBytes i j
  hdrm_other : ∀ i j, ¬ (i = port ∧ j = qIndex) → after.hdrmBytes i j = before.hdrmBytes i j
  egress : after.egressBytes = before.egressBytes
  paused : after.paused = before.paused

theorem shared_used_eq (c : AdmissionConfig) (m : Admission) (port qIndex : Nat) :
    m.getSharedUsed c port qIndex = m.ingressBytes port qIndex - c.reserve := by
  unfold getSharedUsed
  split <;> omega

theorem update_ingress_charged (c : AdmissionConfig) (m : Admission) (port qIndex psize : Nat)
    (ingressFits : m.ingressBytes port qIndex + psize < Word32.size)
    (hdrmFits : m.hdrmBytes port qIndex + psize < Word32.size)
    (sharedFits : m.sharedUsedBytes + psize < Word32.size) :
    Charged c m (m.updateIngressAdmission c port qIndex psize) port qIndex psize := by
  have reserveFits := c.reserve_lt
  have newBytes := Word32.add_eq _ _ ingressFits
  unfold updateIngressAdmission
  simp only [newBytes]
  split
  · rename_i withinReserve
    constructor <;> simp +contextual [setCell]
    all_goals omega
  · rename_i aboveReserve
    have overflow : Word32.sub (m.ingressBytes port qIndex + psize) c.reserve =
        m.ingressBytes port qIndex + psize - c.reserve :=
      Word32.sub_eq _ _ ingressFits (by omega)
    split
    · have hdrm := Word32.add_eq _ _ hdrmFits
      constructor <;> simp +contextual [setCell, hdrm]
      all_goals omega
    · have shared : Word32.add m.sharedUsedBytes
          (min psize (m.ingressBytes port qIndex + psize - c.reserve)) =
          m.sharedUsedBytes + min psize (m.ingressBytes port qIndex + psize - c.reserve) :=
        Word32.add_eq _ _ (by omega)
      constructor <;> simp +contextual [setCell, overflow, shared]
      all_goals omega

/-- Removal splits the other way round, headroom first, and still undoes a charge exactly. -/
theorem remove_ingress_charged (c : AdmissionConfig) (m : Admission) (port qIndex psize : Nat)
    (present : psize ≤ m.ingressBytes port qIndex + m.hdrmBytes port qIndex)
    (covered : m.ingressBytes port qIndex - c.reserve ≤ m.sharedUsedBytes)
    (ingressFits : m.ingressBytes port qIndex < Word32.size)
    (hdrmFits : m.hdrmBytes port qIndex < Word32.size)
    (sharedFits : m.sharedUsedBytes < Word32.size)
    (sizeFits : psize < Word32.size) :
    Charged c (m.removeFromIngressAdmission c port qIndex psize) m port qIndex psize := by
  have fromIngress : Word32.sub psize (min (m.hdrmBytes port qIndex) psize) =
      psize - min (m.hdrmBytes port qIndex) psize :=
    Word32.sub_eq _ _ sizeFits (by omega)
  have hdrm : Word32.sub (m.hdrmBytes port qIndex) (min (m.hdrmBytes port qIndex) psize) =
      m.hdrmBytes port qIndex - min (m.hdrmBytes port qIndex) psize :=
    Word32.sub_eq _ _ hdrmFits (by omega)
  have ingress : Word32.sub (m.ingressBytes port qIndex)
      (psize - min (m.hdrmBytes port qIndex) psize) =
      m.ingressBytes port qIndex - (psize - min (m.hdrmBytes port qIndex) psize) :=
    Word32.sub_eq _ _ ingressFits (by omega)
  have excess : (if m.ingressBytes port qIndex > c.reserve
      then Word32.sub (m.ingressBytes port qIndex) c.reserve else 0) =
      m.ingressBytes port qIndex - c.reserve := by
    split
    · exact Word32.sub_eq _ _ ingressFits (by omega)
    · omega
  have shared : Word32.sub m.sharedUsedBytes
      (min (psize - min (m.hdrmBytes port qIndex) psize)
        (m.ingressBytes port qIndex - c.reserve)) =
      m.sharedUsedBytes - min (psize - min (m.hdrmBytes port qIndex) psize)
        (m.ingressBytes port qIndex - c.reserve) :=
    Word32.sub_eq _ _ sharedFits (by omega)
  unfold removeFromIngressAdmission
  simp only [fromIngress, hdrm, ingress, excess, shared]
  constructor <;> simp +contextual [setCell]
  all_goals omega

theorem update_ingress_other (c : AdmissionConfig) (m : Admission) (port qIndex psize : Nat) :
    (m.updateIngressAdmission c port qIndex psize).egressBytes = m.egressBytes ∧
      (m.updateIngressAdmission c port qIndex psize).paused = m.paused := by
  unfold updateIngressAdmission
  simp only
  split
  · exact ⟨rfl, rfl⟩
  · split
    · exact ⟨rfl, rfl⟩
    · exact ⟨rfl, rfl⟩

theorem dynamic_threshold {c : AdmissionConfig} {m : Admission} {port : Nat}
    (on : c.pfcMode port ≠ .off) (dynamic : ¬ c.pfcThStatic port > 0)
    (fits : c.totalHdrm + c.totalRsrv ≤ c.bufferSize)
    (within : m.sharedUsedBytes ≤ c.pool) :
    m.getPfcThreshold c port = (c.pool - m.sharedUsedBytes) >>> c.pfcAShift port := by
  have small := c.bufferSize_lt
  unfold AdmissionConfig.pool at within ⊢
  have afterHdrm : Word32.sub c.bufferSize c.totalHdrm = c.bufferSize - c.totalHdrm :=
    Word32.sub_eq _ _ (by omega) (by omega)
  have afterRsrv : Word32.sub (c.bufferSize - c.totalHdrm) c.totalRsrv =
      c.bufferSize - c.totalHdrm - c.totalRsrv :=
    Word32.sub_eq _ _ (by omega) (by omega)
  unfold getPfcThreshold
  rw [if_neg on, if_neg dynamic, afterHdrm, afterRsrv]
  rw [Word32.sub_eq _ _ (by omega) within]

end Admission

end Floodgate
