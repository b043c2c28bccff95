import Floodgate.BufferBound
import Floodgate.Library.LabelledRun
import Mathlib.Data.List.Perm.Basic
import Mathlib.Data.Rat.Floor

/-! The shared pool of a switch whose ports differ in their PFC mode: per destination on the ports
of hosts, off on the ports of switches. -/

namespace Floodgate

open LabelledRun

structure PortLink where
  hostFacing : Bool
  rate : Nat
  delay : Nat

/-- What the configuration of the switches reads; `bufferSize` is in MiB. -/
structure PfcSetup where
  nicRate : Nat
  dynamicth : Bool
  pfcDstAlpha : Nat
  pfcThStatic : Rat
  bufferSize : Nat

namespace PfcSetup

def bdp (link : PortLink) : Nat :=
  Word32.trunc (link.rate * link.delay % 18446744073709551616 / 8 / 1000000000 * 2)

/-- The loop that lowers the shift for links faster than a NIC. -/
def pfcAShift (nicRate : Nat) : Nat → Nat → Nat
  | _, 0 => 0
  | rate, shift + 1 => if rate > nicRate then pfcAShift nicRate (rate / 2) shift else shift + 1

/-- The configuration of a switch with `srcToR_dst_pfc`. -/
def configure (g : PfcSetup) (links : Nat → PortLink) (nPort : Nat) : AdmissionConfig :=
  { bufferSize := Word32.trunc (g.bufferSize * 1024 * 1024)
    reserve := 4 * 1024
    resumeOffset := 3 * 1024
    totalHdrm := 0
    totalRsrv := 0
    headroom := fun port => Word32.trunc (bdp (links port) * 4)
    pfcAShift := fun port => pfcAShift g.nicRate (links port).rate
      (if (links port).hostFacing then g.pfcDstAlpha else 2)
    pfcThStatic := fun port =>
      if g.dynamicth = false ∧ (links port).hostFacing = true then
        Word32.trunc ⌊bdp (links port) * g.pfcThStatic⌋₊
      else 0
    pfcMode := fun port => if (links port).hostFacing then .onDst else .off
    bufferSize_lt := Word32.trunc_lt _
    reserve_lt := by decide : AdmissionConfig }.configNPort nPort

end PfcSetup

namespace AdmissionConfig

/-- The threshold of a port whose threshold does not depend on the pool. -/
def fixedThreshold (c : AdmissionConfig) (port : Nat) : Option Nat :=
  if c.pfcMode port = .off then some 2147483647
  else if c.pfcThStatic port > 0 then some (c.pfcThStatic port)
  else none

def fineOf (c : AdmissionConfig) (port qIndex dst : Nat) : Nat :=
  if c.pfcMode port = .onDst then dst else qIndex

/-- What every configuration of `srcToR_dst_pfc` has in common, for any headroom, shift and static
threshold. -/
structure SrcToRDstPfc (c : AdmissionConfig) : Prop where
  modes : ∀ port, c.pfcMode port ≠ .onQueue
  static : ∀ port, 0 < c.pfcThStatic port → c.pfcMode port = .onDst
  mebibytes : ∃ size, c.bufferSize = Word32.trunc (size * 1024 * 1024)
  reserve : c.reserve = 4 * 1024
  fits : c.totalHdrm + c.totalRsrv ≤ c.bufferSize

/-- A port between 1 and `nPort` has a dynamic threshold. -/
def Metered (c : AdmissionConfig) (nPort : Nat) : Prop :=
  ∃ port, (1 ≤ port ∧ port ≤ nPort) ∧ c.fixedThreshold port = none

theorem SrcToRDstPfc.bufferSize_le {c : AdmissionConfig} (setup : c.SrcToRDstPfc) :
    c.bufferSize ≤ 4293918720 := by
  obtain ⟨size, same⟩ := setup.mebibytes
  rw [same]
  unfold Word32.trunc
  omega

end AdmissionConfig

theorem PfcSetup.configure_srcToRDstPfc (g : PfcSetup) (links : Nat → PortLink) (nPort : Nat)
    (fits : (g.configure links nPort).totalHdrm + (g.configure links nPort).totalRsrv ≤
      (g.configure links nPort).bufferSize) :
    (g.configure links nPort).SrcToRDstPfc := by
  refine ⟨?_, ?_, ⟨g.bufferSize, rfl⟩, rfl, fits⟩
  · intro port
    show (if (links port).hostFacing then PfcMode.onDst else .off) ≠ .onQueue
    split <;> decide
  · intro port positive
    have positive : 0 < if g.dynamicth = false ∧ (links port).hostFacing = true then
        Word32.trunc ⌊bdp (links port) * g.pfcThStatic⌋₊ else 0 := positive
    show (if (links port).hostFacing then PfcMode.onDst else .off) = .onDst
    split at positive
    · rename_i here
      rw [if_pos here.2]
    · exact absurd positive (Nat.lt_irrefl 0)

namespace Admission

/-- The part of `CheckAndSendPfc` and of `CheckAndSendResume` that the MMU keeps. -/
def checkAndPause (c : AdmissionConfig) (m : Admission) (port fine : Nat) : Admission :=
  if m.checkShouldPause c port fine then m.setPause port fine else m

def checkAndResume (c : AdmissionConfig) (m : Admission) (port fine : Nat) : Admission :=
  if m.checkShouldResume c port fine then m.setResume port fine else m

end Admission

structure Resident where
  port : Nat
  fine : Nat
  size : Nat

structure PfcBuffer where
  mmu : Admission
  resident : List Resident

inductive PfcEvent where
  | arrive (port qIndex dst psize : Nat)
  | leave (index : Nat)

/-- An IPv4 datagram of 65535 bytes behind a PPP header. -/
def maxFrame : Nat := 65535 + 14

/-- The ports, queues and hosts exist. The highest priority does not come to admission. -/
def PfcEvent.Valid (nPort : Nat) : PfcEvent → Prop
  | .arrive port qIndex dst psize => (1 ≤ port ∧ port ≤ nPort) ∧ (0 < qIndex ∧ qIndex < qCnt) ∧
      dst < nodeScale ∧ psize ≤ maxFrame
  | .leave _ => True

namespace PfcBuffer

def init : PfcBuffer := ⟨Admission.init, []⟩

/-- An arriving packet in `SendToDev`, a departing one in `SwitchNotifyDequeue`. -/
def handle (c : AdmissionConfig) (s : PfcBuffer) : PfcEvent → PfcBuffer
  | .arrive port qIndex dst psize =>
      let fine := c.fineOf port qIndex dst
      if s.mmu.checkIngressAdmission c port fine psize then
        ⟨(s.mmu.updateIngressAdmission c port fine psize).checkAndPause c port fine,
          s.resident ++ [⟨port, fine, psize⟩]⟩
      else s
  | .leave index =>
      match s.resident[index]? with
      | some packet =>
          ⟨(s.mmu.removeFromIngressAdmission c packet.port packet.fine packet.size).checkAndResume c
            packet.port packet.fine, s.resident.eraseIdx index⟩
      | none => s

def Step (c : AdmissionConfig) (nPort : Nat) (s : PfcBuffer) (event : PfcEvent)
    (after : PfcBuffer) : Prop :=
  event.Valid nPort ∧ after = s.handle c event

def bytesAt (resident : List Resident) (port fine : Nat) : Nat :=
  (resident.map fun packet =>
    if packet.port = port ∧ packet.fine = fine then packet.size else 0).sum

end PfcBuffer

/-- The share of the free pool that a port is entitled to: nothing once the pool is overdrawn. -/
def Admission.trueShare (c : AdmissionConfig) (m : Admission) (port : Nat) : Nat :=
  (c.pool - m.sharedUsedBytes) >>> c.pfcAShift port

/-- Every subtraction that `GetPfcThreshold` evaluates stays above zero, no fuller buffer has a
larger threshold, and a class over its true share is paused by the next check. -/
structure Admission.ThresholdSound (c : AdmissionConfig) (nPort : Nat) (m : Admission) : Prop where
  nonneg : ∀ port, 1 ≤ port ∧ port ≤ nPort → c.fixedThreshold port = none →
    c.totalHdrm + c.totalRsrv + m.sharedUsedBytes ≤ c.bufferSize
  fuller : ∀ port, 1 ≤ port ∧ port ≤ nPort → c.fixedThreshold port = none →
    ∀ fuller : Admission, m.sharedUsedBytes ≤ fuller.sharedUsedBytes →
      c.totalHdrm + c.totalRsrv + fuller.sharedUsedBytes ≤ c.bufferSize →
      fuller.getPfcThreshold c port ≤ m.getPfcThreshold c port
  paused : ∀ port, 1 ≤ port ∧ port ≤ nPort → c.fixedThreshold port = none →
    ∀ fine, m.trueShare c port ≤ m.getSharedUsed c port fine →
      (m.checkAndPause c port fine).paused port fine = true

/-- The bytes that an event takes from the pool are left in it: for an arrival at a port with a
fixed threshold, unless the packet is refused or stays within the reserve or goes to the headroom.
The bytes that a departure gives back have been taken, where a headroom counter could wrap. -/
def PfcEvent.Fits (c : AdmissionConfig) (s : PfcBuffer) : PfcEvent → Prop
  | .arrive port qIndex dst psize =>
      let fine := c.fineOf port qIndex dst
      let newBytes := Word32.add (s.mmu.ingressBytes port fine) psize
      ∀ threshold, c.fixedThreshold port = some threshold →
        s.mmu.checkIngressAdmission c port fine psize = true →
        c.reserve < newBytes → newBytes - c.reserve ≤ threshold →
        s.mmu.sharedUsedBytes + min psize (newBytes - c.reserve) ≤ c.pool
  | .leave index => (∀ port, c.headroom port + maxFrame < Word32.size) ∨
      ∀ packet, s.resident[index]? = some packet →
        min (packet.size - min (s.mmu.hdrmBytes packet.port packet.fine) packet.size)
          (s.mmu.ingressBytes packet.port packet.fine - c.reserve) ≤ s.mmu.sharedUsedBytes

namespace Admission

section Threshold

variable {c : AdmissionConfig} {m : Admission} {port : Nat}

theorem fixed_threshold {threshold : Nat} (fixed : c.fixedThreshold port = some threshold) :
    m.getPfcThreshold c port = threshold := by
  unfold AdmissionConfig.fixedThreshold at fixed
  unfold getPfcThreshold
  split at fixed
  · rename_i off
    rw [if_pos off]
    exact Option.some.inj fixed
  · rename_i on
    split at fixed
    · rename_i static
      rw [if_neg on, if_pos static]
      exact Option.some.inj fixed
    · contradiction

theorem metered_modes (metered : c.fixedThreshold port = none) :
    c.pfcMode port ≠ .off ∧ ¬ c.pfcThStatic port > 0 := by
  unfold AdmissionConfig.fixedThreshold at metered
  split at metered
  · contradiction
  · rename_i on
    split at metered
    · contradiction
    · rename_i dynamic
      exact ⟨on, dynamic⟩

theorem within_pool (setup : c.SrcToRDstPfc) :
    m.sharedUsedBytes ≤ c.pool ↔ c.totalHdrm + c.totalRsrv + m.sharedUsedBytes ≤ c.bufferSize := by
  have fits := setup.fits
  unfold AdmissionConfig.pool
  omega

theorem metered_threshold (setup : c.SrcToRDstPfc) (metered : c.fixedThreshold port = none)
    (within : m.sharedUsedBytes ≤ c.pool) : m.getPfcThreshold c port = m.trueShare c port := by
  obtain ⟨on, dynamic⟩ := metered_modes metered
  exact dynamic_threshold on dynamic setup.fits within

theorem pool_lt (setup : c.SrcToRDstPfc) : c.pool ≤ 4293918720 :=
  Nat.le_trans (Nat.le_trans (Nat.sub_le _ _) (Nat.sub_le _ _)) setup.bufferSize_le

/-- On a switch with a dynamic threshold the pool decides about all three parts. -/
theorem thresholdSound_iff (setup : c.SrcToRDstPfc) {nPort : Nat} (metered : c.Metered nPort) :
    ThresholdSound c nPort m ↔ m.sharedUsedBytes ≤ c.pool := by
  constructor
  · intro sound
    obtain ⟨port, inside, dynamic⟩ := metered
    exact (within_pool setup).mpr (sound.nonneg port inside dynamic)
  · intro within
    refine ⟨fun _ _ _ => (within_pool setup).mp within, ?_, ?_⟩
    · intro port _ dynamic fuller more still
      have bound := (within_pool setup).mpr still
      rw [metered_threshold setup dynamic within, metered_threshold setup dynamic bound]
      unfold trueShare
      rw [Nat.shiftRight_eq_div_pow, Nat.shiftRight_eq_div_pow]
      exact Nat.div_le_div_right (by omega)
    · intro port _ dynamic fine excess
      rw [← metered_threshold setup dynamic within] at excess
      unfold checkAndPause checkShouldPause
      cases already : m.paused port fine with
      | true => simp [already]
      | false => simp [excess, setPause]

end Threshold

end Admission

namespace Admission

section Charge

variable {c : AdmissionConfig} {m : Admission} {port fine psize : Nat}

theorem update_shared (c : AdmissionConfig) (m : Admission) (port fine psize : Nat) :
    (m.updateIngressAdmission c port fine psize).sharedUsedBytes =
      if c.reserve < Word32.add (m.ingressBytes port fine) psize ∧
          Word32.add (m.ingressBytes port fine) psize - c.reserve ≤ m.getPfcThreshold c port then
        Word32.add m.sharedUsedBytes
          (min psize (Word32.add (m.ingressBytes port fine) psize - c.reserve))
      else m.sharedUsedBytes := by
  have newBytes := Word32.add_lt (m.ingressBytes port fine) psize
  unfold updateIngressAdmission
  simp only
  split
  · rename_i withinReserve
    rw [if_neg fun both => absurd both.1 (by omega)]
  · rename_i aboveReserve
    have excess : Word32.sub (Word32.add (m.ingressBytes port fine) psize) c.reserve =
        Word32.add (m.ingressBytes port fine) psize - c.reserve :=
      Word32.sub_eq _ _ newBytes (by omega)
    rw [excess]
    split
    · rename_i aboveThreshold
      rw [if_neg fun both => absurd both.2 (by omega)]
    · rename_i withinThreshold
      rw [if_pos ⟨by omega, by omega⟩]

theorem charge_exact (setup : c.SrcToRDstPfc) (within : m.sharedUsedBytes ≤ c.pool)
    (short : psize ≤ maxFrame) (excess : Nat) :
    Word32.add m.sharedUsedBytes (min psize excess) = m.sharedUsedBytes + min psize excess := by
  have pool := pool_lt setup
  unfold maxFrame at short
  exact Word32.add_eq _ _ (by unfold Word32.size; omega)

/-- A dynamic threshold keeps the pool from being overdrawn. -/
theorem metered_charge (setup : c.SrcToRDstPfc) (metered : c.fixedThreshold port = none)
    (within : m.sharedUsedBytes ≤ c.pool) (short : psize ≤ maxFrame) :
    (m.updateIngressAdmission c port fine psize).sharedUsedBytes ≤ c.pool := by
  rw [update_shared]
  split
  · rename_i charged
    have share : m.getPfcThreshold c port ≤ c.pool - m.sharedUsedBytes := by
      rw [metered_threshold setup metered within]
      unfold trueShare
      rw [Nat.shiftRight_eq_div_pow]
      exact Nat.div_le_self _ _
    rw [charge_exact setup within short]
    omega
  · exact within

theorem fixed_charge (setup : c.SrcToRDstPfc) {threshold : Nat}
    (fixed : c.fixedThreshold port = some threshold)
    (within : m.sharedUsedBytes ≤ c.pool) (short : psize ≤ maxFrame) :
    (m.updateIngressAdmission c port fine psize).sharedUsedBytes ≤ c.pool ↔
      (c.reserve < Word32.add (m.ingressBytes port fine) psize →
        Word32.add (m.ingressBytes port fine) psize - c.reserve ≤ threshold →
        m.sharedUsedBytes + min psize (Word32.add (m.ingressBytes port fine) psize - c.reserve) ≤
          c.pool) := by
  rw [update_shared, fixed_threshold fixed]
  split
  · rename_i charged
    rw [charge_exact setup within short]
    exact ⟨fun fits _ _ => fits, fun fits => fits charged.1 charged.2⟩
  · rename_i spared
    exact ⟨fun _ above below => absurd ⟨above, below⟩ spared, fun _ => within⟩

/-- The subtraction of a departure wraps exactly when the bytes had not been taken. -/
theorem remove_shared (setup : c.SrcToRDstPfc) (within : m.sharedUsedBytes ≤ c.pool)
    (short : psize ≤ maxFrame) (ingressFits : m.ingressBytes port fine < Word32.size) :
    (m.removeFromIngressAdmission c port fine psize).sharedUsedBytes ≤ c.pool ↔
      min (psize - min (m.hdrmBytes port fine) psize) (m.ingressBytes port fine - c.reserve) ≤
        m.sharedUsedBytes := by
  have pool := pool_lt setup
  have bound : psize ≤ 65549 := short
  have fromIngress : Word32.sub psize (min (m.hdrmBytes port fine) psize) =
      psize - min (m.hdrmBytes port fine) psize :=
    Word32.sub_eq _ _ (by unfold Word32.size; omega) (by omega)
  have excess : (if m.ingressBytes port fine > c.reserve
      then Word32.sub (m.ingressBytes port fine) c.reserve else 0) =
      m.ingressBytes port fine - c.reserve := by
    split
    · exact Word32.sub_eq _ _ ingressFits (by omega)
    · omega
  unfold removeFromIngressAdmission
  simp only [fromIngress, excess]
  by_cases taken : min (psize - min (m.hdrmBytes port fine) psize)
      (m.ingressBytes port fine - c.reserve) ≤ m.sharedUsedBytes
  · rw [Word32.sub_eq _ _ (by unfold Word32.size; omega) taken]
    exact ⟨fun _ => taken, fun _ => by omega⟩
  · refine ⟨fun small => ?_, fun covered => absurd covered taken⟩
    unfold Word32.sub at small
    omega

end Charge

@[simp] theorem checkAndPause_shared (c : AdmissionConfig) (m : Admission) (port fine : Nat) :
    (m.checkAndPause c port fine).sharedUsedBytes = m.sharedUsedBytes ∧
      (m.checkAndPause c port fine).ingressBytes = m.ingressBytes ∧
      (m.checkAndPause c port fine).hdrmBytes = m.hdrmBytes := by
  unfold checkAndPause
  split <;> exact ⟨rfl, rfl, rfl⟩

@[simp] theorem checkAndResume_shared (c : AdmissionConfig) (m : Admission) (port fine : Nat) :
    (m.checkAndResume c port fine).sharedUsedBytes = m.sharedUsedBytes ∧
      (m.checkAndResume c port fine).ingressBytes = m.ingressBytes ∧
      (m.checkAndResume c port fine).hdrmBytes = m.hdrmBytes := by
  unfold checkAndResume
  split <;> exact ⟨rfl, rfl, rfl⟩

end Admission

namespace PfcBuffer

def cells (nPort : Nat) : Finset (Nat × Nat) :=
  Finset.range (nPort + 1) ×ˢ Finset.range nodeScale

structure Booked (c : AdmissionConfig) (nPort : Nat) (m : Admission) (resident : List Resident) :
    Prop where
  ledger : ∀ port fine, m.ingressBytes port fine + m.hdrmBytes port fine =
    bytesAt resident port fine
  shared : m.sharedUsedBytes =
    ∑ cell ∈ cells nPort, (m.ingressBytes cell.1 cell.2 - c.reserve)

structure Formed (nPort : Nat) (s : PfcBuffer) : Prop where
  ingress_lt : ∀ port fine, s.mmu.ingressBytes port fine < Word32.size
  placed : ∀ packet ∈ s.resident, (packet.port, packet.fine) ∈ cells nPort ∧
    packet.size ≤ maxFrame

structure Kept (c : AdmissionConfig) (nPort : Nat) (s : PfcBuffer) : Prop where
  headroom : ∀ port fine, s.mmu.hdrmBytes port fine ≤ c.headroom port
  booked : Booked c nPort s.mmu s.resident

theorem bytesAt_append (resident : List Resident) (packet : Resident) (port fine : Nat) :
    bytesAt (resident ++ [packet]) port fine = bytesAt resident port fine +
      if packet.port = port ∧ packet.fine = fine then packet.size else 0 := by
  simp [bytesAt]

theorem bytesAt_erase {resident : List Resident} {index : Nat} {packet : Resident}
    (present : resident[index]? = some packet) (port fine : Nat) :
    bytesAt resident port fine = bytesAt (resident.eraseIdx index) port fine +
      if packet.port = port ∧ packet.fine = fine then packet.size else 0 := by
  obtain ⟨inside, found⟩ := List.getElem?_eq_some_iff.mp present
  have same := ((List.getElem_cons_eraseIdx_perm inside).map fun packet : Resident =>
    if packet.port = port ∧ packet.fine = fine then packet.size else 0).sum_eq
  rw [found, List.map_cons, List.sum_cons] at same
  unfold bytesAt
  omega

section Books

variable {c : AdmissionConfig} {nPort : Nat} {m less more : Admission}
  {resident fewer : List Resident}

/-- Charging a packet and holding it go together, in either direction. -/
theorem Booked.charged_iff {port fine psize : Nat}
    (charged : Admission.Charged c less more port fine psize)
    (inside : (port, fine) ∈ cells nPort)
    (holds : ∀ i j, bytesAt resident i j = bytesAt fewer i j +
      if port = i ∧ fine = j then psize else 0) :
    Booked c nPort less fewer ↔ Booked c nPort more resident := by
  have bytes : ∀ i j, more.ingressBytes i j + more.hdrmBytes i j + bytesAt fewer i j =
      less.ingressBytes i j + less.hdrmBytes i j + bytesAt resident i j := by
    intro i j
    have held := holds i j
    by_cases here : i = port ∧ j = fine
    · obtain ⟨rfl, rfl⟩ := here
      rw [if_pos ⟨rfl, rfl⟩] at held
      have added := charged.bytes
      omega
    · rw [if_neg fun same => here ⟨same.1.symm, same.2.symm⟩] at held
      rw [charged.ingress_other i j here, charged.hdrm_other i j here]
      omega
  have total := MapSum.sum_change
    (fun cell : Nat × Nat => more.ingressBytes cell.1 cell.2 - c.reserve)
    (fun cell => less.ingressBytes cell.1 cell.2 - c.reserve) inside fun other _ different => by
      have apart : ¬ (other.1 = port ∧ other.2 = fine) :=
        fun same => different (Prod.ext same.1 same.2)
      simp only [charged.ingress_other _ _ apart]
  have shared := charged.shared
  simp only at total
  constructor
  · intro booked
    have before := booked.shared
    refine ⟨fun i j => ?_, by omega⟩
    have ledger := booked.ledger i j
    have change := bytes i j
    omega
  · intro booked
    have later := booked.shared
    refine ⟨fun i j => ?_, by omega⟩
    have ledger := booked.ledger i j
    have change := bytes i j
    omega

theorem Booked.congr (booked : Booked c nPort m resident)
    (same : more.sharedUsedBytes = m.sharedUsedBytes ∧ more.ingressBytes = m.ingressBytes ∧
      more.hdrmBytes = m.hdrmBytes) : Booked c nPort more resident := by
  obtain ⟨shared, ingress, hdrm⟩ := same
  refine ⟨fun i j => ?_, ?_⟩
  · rw [ingress, hdrm]
    exact booked.ledger i j
  · rw [shared, ingress]
    exact booked.shared

theorem Booked.excess_le (booked : Booked c nPort m resident) {port fine : Nat}
    (inside : (port, fine) ∈ cells nPort) :
    m.ingressBytes port fine - c.reserve ≤ m.sharedUsedBytes := by
  rw [booked.shared]
  exact Finset.single_le_sum
    (f := fun cell : Nat × Nat => m.ingressBytes cell.1 cell.2 - c.reserve)
    (fun _ _ => Nat.zero_le _) inside

theorem Booked.present {index : Nat} {packet : Resident} (booked : Booked c nPort m resident)
    (present : resident[index]? = some packet) :
    packet.size ≤ m.ingressBytes packet.port packet.fine + m.hdrmBytes packet.port packet.fine := by
  have held := bytesAt_erase present packet.port packet.fine
  rw [if_pos ⟨rfl, rfl⟩] at held
  rw [booked.ledger]
  omega

end Books

section Steps

variable {c : AdmissionConfig} {nPort : Nat} {s : PfcBuffer}

theorem Formed.init (nPort : Nat) : Formed nPort PfcBuffer.init :=
  ⟨fun _ _ => (by decide : 0 < Word32.size), fun _ member => absurd member List.not_mem_nil⟩

theorem Kept.init (c : AdmissionConfig) (nPort : Nat) : Kept c nPort PfcBuffer.init := by
  refine ⟨fun _ _ => Nat.zero_le _, fun _ _ => rfl, ?_⟩
  exact (Finset.sum_eq_zero fun _ _ => Nat.zero_sub _).symm

theorem arrives_inside (c : AdmissionConfig) {port qIndex dst psize : Nat}
    (valid : (PfcEvent.arrive port qIndex dst psize).Valid nPort) :
    (port, c.fineOf port qIndex dst) ∈ cells nPort := by
  obtain ⟨portRange, qRange, host, -⟩ := valid
  have fine : c.fineOf port qIndex dst < nodeScale := by
    have priorities : qCnt ≤ nodeScale := by decide
    unfold AdmissionConfig.fineOf
    split <;> omega
  unfold cells
  rw [Finset.mem_product, Finset.mem_range, Finset.mem_range]
  exact ⟨by omega, fine⟩

theorem update_ingress_lt (c : AdmissionConfig) (m : Admission) (port fine psize : Nat)
    (below : ∀ i j, m.ingressBytes i j < Word32.size) (i j : Nat) :
    (m.updateIngressAdmission c port fine psize).ingressBytes i j < Word32.size := by
  have newBytes := Word32.add_lt (m.ingressBytes port fine) psize
  unfold Admission.updateIngressAdmission
  simp only
  split
  · simp only [setCell]
    split
    · exact newBytes
    · exact below i j
  · split
    · exact below i j
    · simp only [setCell]
      split
      · exact newBytes
      · exact below i j

theorem Formed.handle (formed : Formed nPort s) (c : AdmissionConfig) {event : PfcEvent}
    (valid : event.Valid nPort) : Formed nPort (s.handle c event) := by
  cases event with
  | arrive port qIndex dst psize =>
      simp only [PfcBuffer.handle]
      split
      · constructor
        · intro i j
          rw [(Admission.checkAndPause_shared _ _ _ _).2.1]
          exact update_ingress_lt c s.mmu _ _ _ formed.ingress_lt i j
        · intro packet member
          rcases List.mem_append.mp member with earlier | new
          · exact formed.placed packet earlier
          · rw [List.mem_singleton.mp new]
            exact ⟨arrives_inside c valid, valid.2.2.2⟩
      · exact formed
  | leave index =>
      simp only [PfcBuffer.handle]
      split
      · constructor
        · intro i j
          rw [(Admission.checkAndResume_shared _ _ _ _).2.1]
          simp only [Admission.removeFromIngressAdmission, setCell]
          split
          · exact Word32.sub_lt _ _
          · exact formed.ingress_lt i j
        · intro packet member
          exact formed.placed packet (List.mem_of_mem_eraseIdx member)
      · exact formed

theorem Kept.arrive (setup : c.SrcToRDstPfc) (kept : Kept c nPort s)
    (small : ∀ port, c.headroom port + maxFrame < Word32.size)
    (within : s.mmu.sharedUsedBytes ≤ c.pool) {port qIndex dst psize : Nat}
    (valid : (PfcEvent.arrive port qIndex dst psize).Valid nPort) :
    Kept c nPort (s.handle c (.arrive port qIndex dst psize)) := by
  have inside := arrives_inside c valid
  have short : psize ≤ 65549 := valid.2.2.2
  simp only [handle]
  generalize c.fineOf port qIndex dst = fine at inside ⊢
  by_cases admitted : s.mmu.checkIngressAdmission c port fine psize
  case neg => simpa only [if_neg admitted] using kept
  simp only [if_pos admitted]
  have pool := Admission.pool_lt setup
  have excess := kept.booked.excess_le inside
  have reserve := setup.reserve
  have hdrm := kept.headroom port fine
  have bound := small port
  unfold maxFrame Word32.size at bound
  have ingressFits : s.mmu.ingressBytes port fine + psize < Word32.size := by
    unfold Word32.size
    omega
  have hdrmFits : s.mmu.hdrmBytes port fine + psize < Word32.size := by
    unfold Word32.size
    omega
  have charged := Admission.update_ingress_charged c s.mmu port fine psize ingressFits hdrmFits
    (by unfold Word32.size; omega)
  have same := Admission.checkAndPause_shared c
    (s.mmu.updateIngressAdmission c port fine psize) port fine
  refine ⟨fun i j => ?_, ?_⟩
  · rw [same.2.2]
    by_cases here : i = port ∧ j = fine
    · obtain ⟨rfl, rfl⟩ := here
      exact SharedBuffer.admitted_hdrm_le hdrm ingressFits hdrmFits admitted
    · rw [charged.hdrm_other i j here]
      exact kept.headroom i j
  · apply Booked.congr _ same
    exact (Booked.charged_iff charged inside (bytesAt_append s.resident ⟨port, fine, psize⟩)).mp
      kept.booked

theorem Kept.leave (setup : c.SrcToRDstPfc) (formed : Formed nPort s) (kept : Kept c nPort s)
    (small : ∀ port, c.headroom port + maxFrame < Word32.size)
    (within : s.mmu.sharedUsedBytes ≤ c.pool) (index : Nat) :
    Kept c nPort (s.handle c (.leave index)) := by
  simp only [handle]
  cases present : s.resident[index]? with
  | none => exact kept
  | some packet =>
      obtain ⟨inside, short⟩ := formed.placed packet (List.mem_of_getElem? present)
      have pool := Admission.pool_lt setup
      have bound := small packet.port
      have hdrm := kept.headroom packet.port packet.fine
      unfold maxFrame at short bound
      unfold Word32.size at bound
      have charged := Admission.remove_ingress_charged c s.mmu packet.port packet.fine packet.size
        (kept.booked.present present) (kept.booked.excess_le inside)
        (formed.ingress_lt packet.port packet.fine) (by unfold Word32.size; omega)
        (by unfold Word32.size; omega) (by unfold Word32.size; omega)
      have same := Admission.checkAndResume_shared c
        (s.mmu.removeFromIngressAdmission c packet.port packet.fine packet.size) packet.port
        packet.fine
      refine ⟨fun i j => ?_, ?_⟩
      · rw [same.2.2]
        by_cases here : i = packet.port ∧ j = packet.fine
        · obtain ⟨rfl, rfl⟩ := here
          exact Nat.le_trans charged.hdrm_grows hdrm
        · rw [← charged.hdrm_other i j here]
          exact kept.headroom i j
      · apply Booked.congr _ same
        exact (Booked.charged_iff charged inside (bytesAt_erase present)).mpr kept.booked

/-- One event leaves the pool within its size exactly when it fits. -/
theorem fits_iff (setup : c.SrcToRDstPfc) (formed : Formed nPort s)
    (kept : (∀ port, c.headroom port + maxFrame < Word32.size) → Kept c nPort s)
    (within : s.mmu.sharedUsedBytes ≤ c.pool) {event : PfcEvent} (valid : event.Valid nPort) :
    event.Fits c s ↔ (s.handle c event).mmu.sharedUsedBytes ≤ c.pool := by
  cases event with
  | arrive port qIndex dst psize =>
      have short : psize ≤ maxFrame := valid.2.2.2
      simp only [PfcEvent.Fits, handle]
      generalize c.fineOf port qIndex dst = fine
      by_cases admitted : s.mmu.checkIngressAdmission c port fine psize = true
      case neg =>
        rw [if_neg admitted]
        exact ⟨fun _ => within, fun _ _ _ passed => absurd passed admitted⟩
      rw [if_pos admitted, (Admission.checkAndPause_shared _ _ _ _).1]
      cases mode : c.fixedThreshold port with
      | none =>
          exact ⟨fun _ => Admission.metered_charge setup mode within short,
            fun _ _ fixed => absurd fixed (by simp)⟩
      | some threshold =>
          rw [Admission.fixed_charge setup mode within short]
          constructor
          · exact fun fits => fits threshold rfl admitted
          · intro fits other same _
            obtain rfl := Option.some.inj same
            exact fits
  | leave index =>
      simp only [PfcEvent.Fits, handle]
      cases present : s.resident[index]? with
      | none => exact ⟨fun _ => within, fun _ => .inr fun _ absent => absurd absent (by simp)⟩
      | some packet =>
          obtain ⟨inside, short⟩ := formed.placed packet (List.mem_of_getElem? present)
          simp only [(Admission.checkAndResume_shared _ _ _ _).1,
            Admission.remove_shared setup within short (formed.ingress_lt _ _)]
          constructor
          · rintro (small | covered)
            · have excess := (kept small).booked.excess_le inside
              omega
            · exact covered packet rfl
          · intro covered
            right
            intro other same
            obtain rfl := Option.some.inj same
            exact covered

end Steps

theorem metered_run_iff {c : AdmissionConfig} {nPort : Nat} (setup : c.SrcToRDstPfc)
    (metered : c.Metered nPort) {entries : List (PfcBuffer × PfcEvent)} {s : PfcBuffer}
    (run : Run (Traced (Step c nPort)) PfcBuffer.init entries s) :
    (∀ entry ∈ entries, entry.2.Fits c entry.1) ↔
      (∀ entry ∈ entries, entry.1.mmu.ThresholdSound c nPort) ∧ s.mmu.ThresholdSound c nPort := by
  simp only [Admission.thresholdSound_iff setup metered]
  refine run.traced_iff (fun s => Formed nPort s ∧
    ((∀ port, c.headroom port + maxFrame < Word32.size) → Kept c nPort s))
    (fun s => s.mmu.sharedUsedBytes ≤ c.pool) (fun s event => event.Fits c s)
    ⟨Formed.init nPort, fun _ => Kept.init c nPort⟩ (Nat.zero_le _) ?_ ?_
  · intro before event after invariant within step
    obtain ⟨valid, rfl⟩ := step
    refine ⟨invariant.1.handle c valid, fun small => ?_⟩
    cases event with
    | arrive port qIndex dst psize => exact (invariant.2 small).arrive setup small within valid
    | leave index => exact (invariant.2 small).leave setup invariant.1 small within index
  · intro before event after invariant within step
    obtain ⟨valid, rfl⟩ := step
    exact fits_iff setup invariant.1 invariant.2 within valid

/-- In every run the threshold stays sound exactly when, on a switch that has a dynamic threshold,
every event fits the pool. -/
theorem pfc_threshold_sound (c : AdmissionConfig) (nPort : Nat) (setup : c.SrcToRDstPfc)
    (entries : List (PfcBuffer × PfcEvent)) (s : PfcBuffer)
    (run : Run (Traced (Step c nPort)) PfcBuffer.init entries s) :
    (∀ entry ∈ entries, c.Metered nPort → entry.2.Fits c entry.1) ↔
      (∀ entry ∈ entries, entry.1.mmu.ThresholdSound c nPort) ∧
        s.mmu.ThresholdSound c nPort := by
  by_cases metered : c.Metered nPort
  · rw [← metered_run_iff setup metered run]
    exact ⟨fun all entry member => all entry member metered,
      fun all entry member _ => all entry member⟩
  · have sound : ∀ m : Admission, m.ThresholdSound c nPort := fun m =>
      ⟨fun port inside dynamic => absurd ⟨port, inside, dynamic⟩ metered,
        fun port inside dynamic => absurd ⟨port, inside, dynamic⟩ metered,
        fun port inside dynamic => absurd ⟨port, inside, dynamic⟩ metered⟩
    exact ⟨fun _ => ⟨fun _ _ => sound _, sound _⟩,
      fun _ _ _ present => absurd present metered⟩

/-- A ToR with a host on port 1 and a switch on port 2, on links of 100 Gbit/s and 5.2 us; the two
headrooms and reserves leave 384 bytes of its 1 MiB to share. -/
def smallToR : AdmissionConfig :=
  PfcSetup.configure ⟨100000000000, true, 8, 3 / 2, 1⟩
    (fun port => ⟨port == 1, 100000000000, 5200⟩) 2

theorem smallToR_srcToRDstPfc : smallToR.SrcToRDstPfc :=
  PfcSetup.configure_srcToRDstPfc _ _ _ (by decide +kernel)

instance (nPort : Nat) : DecidablePred (PfcEvent.Valid nPort)
  | .arrive port qIndex dst psize => inferInstanceAs (Decidable ((1 ≤ port ∧ port ≤ nPort) ∧
      (0 < qIndex ∧ qIndex < qCnt) ∧ dst < nodeScale ∧ psize ≤ maxFrame))
  | .leave _ => inferInstanceAs (Decidable True)

def fits (c : AdmissionConfig) (s : PfcBuffer) : PfcEvent → Bool
  | .arrive port qIndex dst psize =>
      let fine := c.fineOf port qIndex dst
      let newBytes := Word32.add (s.mmu.ingressBytes port fine) psize
      (c.fixedThreshold port).all fun threshold =>
        decide (s.mmu.checkIngressAdmission c port fine psize = true → c.reserve < newBytes →
          newBytes - c.reserve ≤ threshold →
          s.mmu.sharedUsedBytes + min psize (newBytes - c.reserve) ≤ c.pool)
  | .leave index => (s.resident[index]?).all fun packet =>
      decide (min (packet.size - min (s.mmu.hdrmBytes packet.port packet.fine) packet.size)
        (s.mmu.ingressBytes packet.port packet.fine - c.reserve) ≤ s.mmu.sharedUsedBytes)

theorem fits_sound {c : AdmissionConfig} {s : PfcBuffer} {event : PfcEvent}
    (found : s.fits c event = true) : event.Fits c s := by
  cases event with
  | arrive port qIndex dst psize =>
      intro threshold fixed
      simp only [fits, fixed, Option.all_some, decide_eq_true_eq] at found
      exact found
  | leave index =>
      refine .inr fun packet there => ?_
      simp only [fits, there, Option.all_some, decide_eq_true_eq] at found
      exact found

/-- A packet comes in on each port, and the first one leaves. -/
def comeAndGo : List PfcEvent := [.arrive 1 3 2 1024, .arrive 2 3 1 1024, .leave 0]

theorem pfc_threshold_sound_come_and_go :
    (∀ entry ∈ trace (handle smallToR) PfcBuffer.init comeAndGo,
      entry.1.mmu.ThresholdSound smallToR 2) ∧
      (comeAndGo.foldl (handle smallToR) PfcBuffer.init).mmu.ThresholdSound smallToR 2 := by
  have evaluated : executes (fun _ event => decide (event.Valid 2)) (handle smallToR)
        PfcBuffer.init comeAndGo = true ∧
      executes (fits smallToR) (handle smallToR) PfcBuffer.init comeAndGo = true := by
    decide +kernel
  have run : Run (Traced (Step smallToR 2)) PfcBuffer.init _ _ :=
    Run.executed_traced (fun _ _ valid => ⟨of_decide_eq_true valid, rfl⟩) comeAndGo evaluated.1
  exact (pfc_threshold_sound smallToR 2 smallToR_srcToRDstPfc _ _ run).mp fun entry member _ =>
    fits_sound (executes_trace comeAndGo evaluated.2 entry member)

/-- Five packets of 1 KiB through the port without PFC overdraw the pool: the difference wraps and
the threshold of the host's port grows from 1 byte to 16 MiB. -/
theorem unmetered_port_wraps_threshold :
    (¬ ∀ (c : AdmissionConfig) (nPort : Nat), c.SrcToRDstPfc →
      ∀ (events : List PfcEvent) (s : PfcBuffer),
        Run (Step c nPort) PfcBuffer.init events s → s.mmu.ThresholdSound c nPort) ∧
    PfcBuffer.init.mmu.getPfcThreshold smallToR 1 = 1 ∧
    ((List.replicate 5 (PfcEvent.arrive 2 3 1 1024)).foldl (handle smallToR)
      PfcBuffer.init).mmu.getPfcThreshold smallToR 1 = 16777213 := by
  refine ⟨fun claim => ?_, by decide +kernel, by decide +kernel⟩
  have valid : (PfcEvent.arrive 2 3 1 1024).Valid 2 := by
    unfold PfcEvent.Valid
    decide
  have step : ∀ s : PfcBuffer, Step smallToR 2 s (.arrive 2 3 1 1024)
      (s.handle smallToR (.arrive 2 3 1 1024)) := fun _ => ⟨valid, rfl⟩
  have sound := claim smallToR 2 smallToR_srcToRDstPfc _ _
    (((((Run.nil.snoc (step _)).snoc (step _)).snoc (step _)).snoc (step _)).snoc (step _))
  exact absurd (sound.nonneg 1 (by decide) (by decide +kernel)) (by decide +kernel)

end PfcBuffer

end Floodgate
