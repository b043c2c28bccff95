import Floodgate.AdmissionLedger
import Floodgate.NodeSteps
import Mathlib.Algebra.BigOperators.Group.Finset.Piecewise

/-! The shared buffer's counters against the packets that are in the switch. -/

namespace Floodgate

open Std Outcome LabelledRun

namespace SwitchNode

section Additive

variable {c : SwitchNodeConfig} (s : SwitchNode)

theorem heldBy_add (u : Upstream) (first second : PacketUnit → Nat) :
    u.heldBy (fun unit => first unit + second unit) = u.heldBy first + u.heldBy second := by
  unfold Upstream.heldBy VOQGroup.heldBy MapSum.sumBy
  simp only [List.sum_map_add]

theorem residentBy_add (first second : PacketUnit → Nat) :
    s.residentBy c (fun unit => first unit + second unit) =
      s.residentBy c first + s.residentBy c second := by
  unfold residentBy queuedBy cellBy
  simp only [heldBy_add, List.sum_map_add, Finset.sum_add_distrib]
  omega

theorem residentBy_zero : s.residentBy c (fun _ => 0) = 0 := by
  have double := residentBy_add (c := c) s (fun _ => 0) fun _ => 0
  simp only [Nat.add_zero] at double
  omega

theorem residentBy_mono {first second : PacketUnit → Nat}
    (below : ∀ unit, first unit ≤ second unit) :
    s.residentBy c first ≤ s.residentBy c second := by
  have split : second = fun unit => first unit + (second unit - first unit) := by
    funext unit
    have bound := below unit
    omega
  rw [split, residentBy_add]
  exact Nat.le_add_right _ _

theorem residentBy_sum {Index : Type} [DecidableEq Index] (indices : Finset Index)
    (weight : Index → PacketUnit → Nat) :
    s.residentBy c (fun unit => ∑ i ∈ indices, weight i unit) =
      ∑ i ∈ indices, s.residentBy c (weight i) := by
  induction indices using Finset.induction_on with
  | empty => simpa using residentBy_zero s
  | insert i rest fresh ih =>
      simp only [Finset.sum_insert fresh, residentBy_add, ih]

end Additive

section Weights

def fromPort (c : SwitchNodeConfig) (port cls : Nat) (unit : PacketUnit) : Nat :=
  if unit.qIndex ≠ 0 ∧ unit.pkt.flowId = some port ∧
      c.pfcFine port unit.qIndex unit.pkt.dip = cls
    then unit.pkt.size else 0

def towards (dev qIndex : Nat) (unit : PacketUnit) : Nat :=
  if unit.qIndex ≠ 0 ∧ unit.outDev = dev ∧ unit.qIndex = qIndex then unit.pkt.size else 0

def accounted (unit : PacketUnit) : Nat := if unit.qIndex ≠ 0 then unit.pkt.size else 0

/-- Counts the packets that are not where the configuration allows them. -/
def misplaced (c : SwitchNodeConfig) (unit : PacketUnit) : Nat :=
  if (unit.qIndex = 0 ∧ unit.pkt.isUdp = false) ∨
      (unit.outDev < c.nDevices ∧ unit.qIndex < qCnt ∧
        (unit.qIndex ≠ 0 → unit.pkt.isPfc = false ∧ ∃ port < c.nDevices,
          unit.pkt.flowId = some port ∧ unit.pkt.dip < nodeScale))
    then 0 else 1

theorem fromPort_traffic (c : SwitchNodeConfig) (port cls : Nat) :
    TrafficWeight (fromPort c port cls) := by
  refine ⟨fun unit psn => ?_, fun unit dst => rfl, fun unit zero _ => ?_⟩
  · simp [fromPort]
  · simp [fromPort, zero]

theorem towards_traffic (dev qIndex : Nat) : TrafficWeight (towards dev qIndex) := by
  refine ⟨fun unit psn => ?_, fun unit dst => rfl, fun unit zero _ => ?_⟩
  · simp [towards]
  · simp [towards, zero]

theorem accounted_traffic : TrafficWeight accounted := by
  refine ⟨fun unit psn => ?_, fun unit dst => rfl, fun unit zero _ => ?_⟩
  · simp [accounted]
  · simp [accounted, zero]

theorem misplaced_traffic (c : SwitchNodeConfig) : TrafficWeight (misplaced c) := by
  refine ⟨fun unit psn => ?_, fun unit dst => rfl, fun unit zero other => ?_⟩
  · simp [misplaced]
  · simp [misplaced, zero, other]

theorem fromPort_le (c : SwitchNodeConfig) (port cls : Nat) (unit : PacketUnit) :
    fromPort c port cls unit ≤ accounted unit := by
  unfold fromPort accounted
  split
  · rename_i inside
    rw [if_pos inside.1]
  · exact Nat.zero_le _

theorem towards_le (dev qIndex : Nat) (unit : PacketUnit) :
    towards dev qIndex unit ≤ accounted unit := by
  unfold towards accounted
  split
  · rename_i inside
    rw [if_pos inside.1]
  · exact Nat.zero_le _

theorem fromPort_sum_le (c : SwitchNodeConfig) (cells : Finset (Nat × Nat)) (unit : PacketUnit) :
    ∑ cell ∈ cells, fromPort c cell.1 cell.2 unit ≤ accounted unit := by
  cases port : unit.pkt.flowId with
  | none =>
      have zero : ∀ cell ∈ cells, fromPort c cell.1 cell.2 unit = 0 := by
        intro cell _
        simp [fromPort, port]
      rw [Finset.sum_eq_zero zero]
      exact Nat.zero_le _
  | some i =>
      have single : ∀ cell ∈ cells, fromPort c cell.1 cell.2 unit =
          if cell = (i, c.pfcFine i unit.qIndex unit.pkt.dip) then accounted unit else 0 := by
        rintro ⟨row, column⟩ _
        by_cases here : row = i
        · subst here
          simp only [fromPort, accounted, port, true_and, Prod.mk.injEq]
          by_cases cls : c.pfcFine row unit.qIndex unit.pkt.dip = column
          · simp [cls]
          · simp [cls, Ne.symm cls]
        · simp [fromPort, port, here, Ne.symm here]
      simp only [Finset.sum_congr rfl single, Finset.sum_ite_eq']
      split
      · exact Nat.le_refl _
      · exact Nat.zero_le _

end Weights

def cells (c : SwitchNodeConfig) : Finset (Nat × Nat) :=
  Finset.range c.nDevices ×ˢ Finset.range nodeScale

def sharedTotal (c : SwitchNodeConfig) (m : Admission) : Nat :=
  ∑ cell ∈ cells c, (m.ingressBytes cell.1 cell.2 - c.admission.reserve)

/-- The counters `m` account for the packets in `s`. -/
structure Laws (c : SwitchNodeConfig) (m : Admission) (s : SwitchNode) : Prop where
  ingress : ∀ port cls, m.ingressBytes port cls + m.hdrmBytes port cls =
    s.residentBy c (fromPort c port cls)
  shared : m.sharedUsedBytes = sharedTotal c m
  egress : ∀ dev qIndex, m.egressBytes dev qIndex = s.residentBy c (towards dev qIndex)

section Laws

variable {c : SwitchNodeConfig} {m m' : Admission} {s after : SwitchNode}

theorem Laws.ingress_le (laws : Laws c m s) (port cls : Nat) :
    m.ingressBytes port cls + m.hdrmBytes port cls ≤ s.residentBy c accounted := by
  rw [laws.ingress]
  exact residentBy_mono s (fromPort_le c port cls)

theorem Laws.egress_le (laws : Laws c m s) (dev qIndex : Nat) :
    m.egressBytes dev qIndex ≤ s.residentBy c accounted := by
  rw [laws.egress]
  exact residentBy_mono s (towards_le dev qIndex)

theorem Laws.shared_le (laws : Laws c m s) : m.sharedUsedBytes ≤ s.residentBy c accounted := by
  calc
    m.sharedUsedBytes = sharedTotal c m := laws.shared
    _ ≤ ∑ cell ∈ cells c, s.residentBy c (fromPort c cell.1 cell.2) := by
      apply Finset.sum_le_sum
      intro cell _
      rw [← laws.ingress]
      omega
    _ = s.residentBy c fun unit => ∑ cell ∈ cells c, fromPort c cell.1 cell.2 unit :=
      (residentBy_sum s (cells c) fun cell => fromPort c cell.1 cell.2).symm
    _ ≤ s.residentBy c accounted := residentBy_mono s (fromPort_sum_le c (cells c))

theorem Laws.congr (laws : Laws c m s) (bytes : SameBytes m m')
    (same : ∀ weight, TrafficWeight weight → (∀ unit, unit.qIndex = 0 → weight unit = 0) →
      after.residentBy c weight = s.residentBy c weight) : Laws c m' after := by
  refine ⟨fun port cls => ?_, ?_, fun dev qIndex => ?_⟩
  · rw [bytes.ingress, bytes.hdrm, same _ (fromPort_traffic c port cls)
      fun unit zero => by simp [fromPort, zero]]
    exact laws.ingress port cls
  · rw [bytes.shared, sharedTotal, bytes.ingress]
    exact laws.shared
  · rw [bytes.egress, same _ (towards_traffic dev qIndex)
      fun unit zero => by simp [towards, zero]]
    exact laws.egress dev qIndex

/-- `more` counts `unit` beside what `less` counts. -/
structure Carries (c : SwitchNodeConfig) (less more : Admission) (port cls : Nat)
    (unit : PacketUnit) : Prop where
  bytes : more.ingressBytes port cls + more.hdrmBytes port cls =
    less.ingressBytes port cls + less.hdrmBytes port cls + unit.pkt.size
  shared : more.sharedUsedBytes + (less.ingressBytes port cls - c.admission.reserve) =
    less.sharedUsedBytes + (more.ingressBytes port cls - c.admission.reserve)
  ingress_other : ∀ i j, ¬ (i = port ∧ j = cls) → more.ingressBytes i j = less.ingressBytes i j
  hdrm_other : ∀ i j, ¬ (i = port ∧ j = cls) → more.hdrmBytes i j = less.hdrmBytes i j
  egress : ∀ i j, more.egressBytes i j =
    less.egressBytes i j + if unit.outDev = i ∧ unit.qIndex = j then unit.pkt.size else 0

structure Belongs (c : SwitchNodeConfig) (port cls : Nat) (unit : PacketUnit) : Prop where
  queue : unit.qIndex ≠ 0
  flowId : unit.pkt.flowId = some port
  fine : c.pfcFine port unit.qIndex unit.pkt.dip = cls
  port_lt : port < c.nDevices
  cls_lt : cls < nodeScale

theorem Belongs.fromPort {port cls : Nat} {unit : PacketUnit} (belongs : Belongs c port cls unit)
    (i j : Nat) : fromPort c i j unit = if i = port ∧ j = cls then unit.pkt.size else 0 := by
  unfold SwitchNode.fromPort
  by_cases row : i = port
  · subst row
    simp [belongs.queue, belongs.flowId, belongs.fine, eq_comm]
  · simp [belongs.flowId, row, Ne.symm row]

theorem Carries.sharedTotal {port cls : Nat} {unit : PacketUnit}
    (carries : Carries c m m' port cls unit) (belongs : Belongs c port cls unit) :
    SwitchNode.sharedTotal c m' + (m.ingressBytes port cls - c.admission.reserve) =
      SwitchNode.sharedTotal c m + (m'.ingressBytes port cls - c.admission.reserve) := by
  have inside : (port, cls) ∈ cells c := by
    simp [cells, belongs.port_lt, belongs.cls_lt]
  exact MapSum.sum_change (fun cell : Nat × Nat => m'.ingressBytes cell.1 cell.2 -
      c.admission.reserve) (fun cell => m.ingressBytes cell.1 cell.2 - c.admission.reserve) inside
    fun other _ different => by
      have apart : ¬ (other.1 = port ∧ other.2 = cls) :=
        fun same => different (Prod.ext same.1 same.2)
      simp only [carries.ingress_other _ _ apart]

/-- Counting and holding one packet more go together, in either direction. -/
theorem Carries.laws_iff {port cls : Nat} {unit : PacketUnit}
    (carries : Carries c m m' port cls unit) (belongs : Belongs c port cls unit)
    (joins : ∀ weight, TrafficWeight weight →
      after.residentBy c weight = s.residentBy c weight + weight unit) :
    Laws c m s ↔ Laws c m' after := by
  have ingress : ∀ i j, m'.ingressBytes i j + m'.hdrmBytes i j + s.residentBy c (fromPort c i j) =
      m.ingressBytes i j + m.hdrmBytes i j + after.residentBy c (fromPort c i j) := by
    intro i j
    rw [joins _ (fromPort_traffic c i j), belongs.fromPort]
    by_cases here : i = port ∧ j = cls
    · obtain ⟨rfl, rfl⟩ := here
      have bytes := carries.bytes
      simp only [and_self, if_true]
      omega
    · rw [if_neg here, carries.ingress_other i j here, carries.hdrm_other i j here]
      omega
  have egress : ∀ i j, m'.egressBytes i j + s.residentBy c (towards i j) =
      m.egressBytes i j + after.residentBy c (towards i j) := by
    intro i j
    rw [joins _ (towards_traffic i j), carries.egress]
    simp only [towards, belongs.queue, ne_eq, not_false_eq_true, true_and]
    omega
  have shared := carries.shared
  have total := carries.sharedTotal belongs
  constructor
  · intro laws
    refine ⟨fun i j => ?_, ?_, fun i j => ?_⟩
    · have before := laws.ingress i j
      have change := ingress i j
      omega
    · have before := laws.shared
      omega
    · have before := laws.egress i j
      have change := egress i j
      omega
  · intro laws
    refine ⟨fun i j => ?_, ?_, fun i j => ?_⟩
    · have later := laws.ingress i j
      have change := ingress i j
      omega
    · have later := laws.shared
      omega
    · have later := laws.egress i j
      have change := egress i j
      omega

theorem charge_carries {port : Nat} {unit : PacketUnit}
    (ingressFits : m.ingressBytes port (c.pfcFine port unit.qIndex unit.pkt.dip) +
      m.hdrmBytes port (c.pfcFine port unit.qIndex unit.pkt.dip) + unit.pkt.size < Word32.size)
    (sharedFits : m.sharedUsedBytes + unit.pkt.size < Word32.size)
    (egressFits : m.egressBytes unit.outDev unit.qIndex + unit.pkt.size < Word32.size) :
    Carries c m ((m.updateIngressAdmission c.admission port
      (c.pfcFine port unit.qIndex unit.pkt.dip) unit.pkt.size).updateEgressAdmission unit.outDev
        unit.qIndex unit.pkt.size) port (c.pfcFine port unit.qIndex unit.pkt.dip) unit := by
  have charged := Admission.update_ingress_charged c.admission m port
    (c.pfcFine port unit.qIndex unit.pkt.dip) unit.pkt.size (by omega) (by omega) sharedFits
  refine ⟨charged.bytes, charged.shared, charged.ingress_other, charged.hdrm_other, ?_⟩
  intro i j
  simp only [Admission.updateEgressAdmission, charged.egress]
  by_cases here : i = unit.outDev ∧ j = unit.qIndex
  · obtain ⟨rfl, rfl⟩ := here
    simp only [setCell_same, and_self, if_true]
    exact Word32.add_eq _ _ egressFits
  · have apart : ¬ (unit.outDev = i ∧ unit.qIndex = j) :=
      fun same => here ⟨same.1.symm, same.2.symm⟩
    rw [setCell_other _ _ _ _ _ _ here, if_neg apart, Nat.add_zero]

structure NoWrap (c : SwitchNodeConfig) (m : Admission) (port cls dev qIndex psize : Nat) :
    Prop where
  ingress : psize - min (m.hdrmBytes port cls) psize ≤ m.ingressBytes port cls
  shared : min (psize - min (m.hdrmBytes port cls) psize)
    (m.ingressBytes port cls - c.admission.reserve) ≤ m.sharedUsedBytes
  egress : psize ≤ m.egressBytes dev qIndex

theorem Laws.noWrap (laws : Laws c m s) {port cls : Nat} {unit : PacketUnit}
    (belongs : Belongs c port cls unit)
    (present : ∀ weight, TrafficWeight weight → weight unit ≤ s.residentBy c weight) :
    NoWrap c m port cls unit.outDev unit.qIndex unit.pkt.size ∧
      m.ingressBytes port cls - c.admission.reserve ≤ m.sharedUsedBytes := by
  have here := present _ (fromPort_traffic c port cls)
  rw [belongs.fromPort, if_pos ⟨rfl, rfl⟩, ← laws.ingress] at here
  have out := present _ (towards_traffic unit.outDev unit.qIndex)
  simp only [towards, belongs.queue, ne_eq, not_false_eq_true, and_self, if_true] at out
  rw [← laws.egress] at out
  have inside : (port, cls) ∈ cells c := by
    simp [cells, belongs.port_lt, belongs.cls_lt]
  have part : m.ingressBytes port cls - c.admission.reserve ≤ m.sharedUsedBytes := by
    rw [laws.shared]
    exact Finset.single_le_sum
      (f := fun cell : Nat × Nat => m.ingressBytes cell.1 cell.2 - c.admission.reserve)
      (fun _ _ => Nat.zero_le _) inside
  exact ⟨⟨by omega, by omega, out⟩, part⟩

theorem discharge_carries (laws : Laws c m s) {port cls : Nat} {unit : PacketUnit}
    (belongs : Belongs c port cls unit)
    (present : ∀ weight, TrafficWeight weight → weight unit ≤ s.residentBy c weight)
    (small : s.residentBy c accounted < Word32.size) :
    Carries c ((m.removeFromIngressAdmission c.admission port cls
      unit.pkt.size).removeFromEgressAdmission unit.outDev unit.qIndex unit.pkt.size) m port cls
      unit := by
  obtain ⟨noWrap, covered⟩ := laws.noWrap belongs present
  have ingressFits := laws.ingress_le port cls
  have sharedFits := laws.shared_le
  have egressFits := laws.egress_le unit.outDev unit.qIndex
  have bytes := noWrap.ingress
  have charged := Admission.remove_ingress_charged c.admission m port cls unit.pkt.size
    (by omega) covered (by omega) (by omega) (by omega) unit.pkt.size_lt
  refine ⟨charged.bytes, charged.shared, charged.ingress_other, charged.hdrm_other, ?_⟩
  intro i j
  simp only [Admission.removeFromEgressAdmission, ← charged.egress]
  by_cases here : i = unit.outDev ∧ j = unit.qIndex
  · obtain ⟨rfl, rfl⟩ := here
    have out := noWrap.egress
    simp only [setCell_same, and_self, if_true]
    rw [Word32.sub_eq _ _ (by omega) out]
    omega
  · have apart : ¬ (unit.outDev = i ∧ unit.qIndex = j) :=
      fun same => here ⟨same.1.symm, same.2.symm⟩
    rw [setCell_other _ _ _ _ _ _ here, if_neg apart, Nat.add_zero]

end Laws

/-- Nothing has been refused and the bytes in the switch fit 32 bits. -/
structure Within (c : SwitchNodeConfig) (s : SwitchNode) : Prop where
  noDrops : NoDrops s
  bytes : s.residentBy c (fun unit => unit.pkt.size) < Word32.size

def notData (unit : PacketUnit) : Nat := if unit.pkt.isUdp = true then 0 else 1

structure Accounts (c : SwitchNodeConfig) (s : SwitchNode) : Prop where
  laws : Laws c s.admission s
  consistent : s.upstream.Consistent c.upstream
  data : s.upstream.heldBy notData = 0
  placed : s.residentBy c (misplaced c) = 0
  within : Within c s

section Steps

variable {c : SwitchNodeConfig} {s after : SwitchNode}

theorem Within.accounted (within : Within c s) : s.residentBy c accounted < Word32.size := by
  refine Nat.lt_of_le_of_lt (residentBy_mono s fun unit => ?_) within.bytes
  unfold SwitchNode.accounted
  split
  · exact Nat.le_refl _
  · exact Nat.zero_le _

theorem Within.heldBytes (within : Within c s) : s.upstream.heldBytes < Word32.size :=
  Nat.lt_of_le_of_lt (Nat.le_add_right _ _) within.bytes

theorem Accounts.emits {frames : Nat → List Packet} (laws : Laws c s.admission s)
    (consistent : s.upstream.Consistent c.upstream) (data : s.upstream.heldBy notData = 0)
    (placed : s.residentBy c (misplaced c) = 0)
    (emits : Emits s after frames) (bytes : SameBytes s.admission after.admission)
    (within : Within c after) : Accounts c after := by
  refine ⟨laws.congr bytes fun _ traffic _ => emits.residentBy traffic, ?_, ?_, ?_, within⟩
  · rw [emits.upstream]
    exact consistent
  · rw [emits.upstream]
    exact data
  · rw [emits.residentBy (misplaced_traffic c)]
    exact placed

theorem misplaced_zero {unit : PacketUnit} (placed : misplaced c unit = 0) :
    (unit.qIndex = 0 ∧ unit.pkt.isUdp = false) ∨
      (unit.outDev < c.nDevices ∧ unit.qIndex < qCnt ∧
        (unit.qIndex ≠ 0 → unit.pkt.isPfc = false ∧ ∃ port < c.nDevices,
          unit.pkt.flowId = some port ∧ unit.pkt.dip < nodeScale)) := by
  unfold misplaced at placed
  by_contra wrong
  rw [if_neg wrong] at placed
  contradiction

theorem pfcFine_lt {port qIndex dip : Nat} (below : qIndex < qCnt) (known : dip < nodeScale) :
    c.pfcFine port qIndex dip < nodeScale := by
  unfold SwitchNodeConfig.pfcFine
  split
  · exact known
  · exact Nat.lt_trans below (by decide)

theorem PassedOn.consistent {p : Packet} {outDev qIndex : Nat}
    (consistent : s.upstream.Consistent c.upstream) (passed : PassedOn c s p outDev qIndex after)
    (small : after.upstream.heldBytes < Word32.size) :
    after.upstream.Consistent c.upstream := by
  have routed : ∀ result up, Routes c s.upstream p outDev qIndex result up →
      up.heldBytes < Word32.size → up.Consistent c.upstream := by
    intro result up routes fits
    cases routes with
    | off => exact consistent
    | on _ arrives =>
        cases arrives with
        | control => exact consistent
        | ignored => exact consistent
        | passed _ _ _ frame _ _ _ same => exact consistent.frame (frame.trans same)
        | buffered _ _ _ _ _ _ buffers => exact buffers.consistent fits
  cases passed with
  | sent routes => exact routed _ _ routes small
  | held routes => exact routed _ _ routes small

/-- Only data waits for a window. -/
theorem PassedOn.data {p : Packet} {outDev qIndex : Nat} (data : s.upstream.heldBy notData = 0)
    (passed : PassedOn c s p outDev qIndex after) : after.upstream.heldBy notData = 0 := by
  have routed : ∀ result up, Routes c s.upstream p outDev qIndex result up →
      up.heldBy notData = 0 := by
    intro result up routes
    have held := @Routes.heldBy c s notData outDev qIndex p result up routes
    rw [held, data, Nat.zero_add]
    cases routes with
    | off => rfl
    | on _ arrives =>
        cases arrives with
        | control => rfl
        | ignored => rfl
        | passed => rfl
        | buffered isData => exact if_pos isData
  cases passed with
  | sent routes => exact routed _ _ routes
  | held routes => exact routed _ _ routes

/-- A packet from `inDev` has been admitted. -/
theorem Accounts.admitted (accounts : Accounts c s) {inDev outDev : Nat} {p : Packet}
    (flowId : p.flowId = some inDev) (ingress : inDev < c.nDevices) (egress : outDev < c.nDevices)
    (known : p.dip < nodeScale)
    (passed : PassedOn c (s.admitPacket c inDev outDev (c.qIndexOf p) p) p outDev (c.qIndexOf p) after)
    (within : Within c after) : Accounts c after := by
  have below := qIndexOf_lt c p
  have frame := qIndexOf_pfc c p
  generalize c.qIndexOf p = qIndex at passed below frame
  have joins : ∀ weight, TrafficWeight weight →
      after.residentBy c weight = s.residentBy c weight + weight (p.toUnit outDev qIndex) :=
    fun _ traffic => admitted_residentBy passed within.noDrops traffic (.inl ⟨egress, below⟩)
  have bytes : SameBytes (s.charged c inDev outDev qIndex p).admission after.admission := by
    rw [passed.same.1]
    exact (admit_signals c s inDev outDev qIndex p).bytes
  have placed : misplaced c (p.toUnit outDev qIndex) = 0 :=
    if_pos (.inr ⟨egress, below, fun other => ⟨frame other, inDev, ingress, flowId, known⟩⟩)
  refine ⟨?_, ?_, ?_, ?_, within⟩
  · by_cases zero : qIndex = 0
    · have untouched : s.charged c inDev outDev qIndex p = s := by
        unfold charged
        rw [if_pos zero]
      rw [untouched] at bytes
      apply accounts.laws.congr bytes
      intro weight traffic blind
      rw [joins weight traffic, blind _ zero, Nat.add_zero]
    · have total := joins accounted accounted_traffic
      have fits := within.accounted
      have counts : accounted (p.toUnit outDev qIndex) = p.size := if_pos zero
      have ingressFits := accounts.laws.ingress_le inDev (c.pfcFine inDev qIndex p.dip)
      have sharedFits := accounts.laws.shared_le
      have egressFits := accounts.laws.egress_le outDev qIndex
      have belongs : Belongs c inDev (c.pfcFine inDev qIndex p.dip) (p.toUnit outDev qIndex) :=
        ⟨zero, flowId, rfl, ingress, pfcFine_lt below known⟩
      have carries := @charge_carries c s.admission inDev (p.toUnit outDev qIndex)
        (by simp only [Packet.toUnit]; omega) (by simp only [Packet.toUnit]; omega)
        (by simp only [Packet.toUnit]; omega)
      have charged : (s.charged c inDev outDev qIndex p).admission =
          (s.admission.updateIngressAdmission c.admission inDev
            (c.pfcFine inDev qIndex p.dip) p.size).updateEgressAdmission outDev qIndex p.size := by
        simp only [SwitchNode.charged, if_neg zero, charge]
      have laws := (carries.laws_iff belongs joins).mp accounts.laws
      rw [charged] at bytes
      exact laws.congr bytes fun _ _ _ => rfl
  · refine passed.consistent ?_ within.heldBytes
    rw [admit_upstream]
    exact accounts.consistent
  · refine passed.data ?_
    rw [admit_upstream]
    exact accounts.data
  · rw [joins _ (misplaced_traffic c), placed, Nat.add_zero]
    exact accounts.placed

theorem Accounts.unit_placed (accounts : Accounts c s) {voq : Nat × Nat} {unit : PacketUnit}
    (member : unit ∈ s.upstream.voqPackets voq) : misplaced c unit = 0 := by
  have bound : misplaced c unit ≤ s.upstream.heldBy (misplaced c) := held_le member
  have total := accounts.placed
  unfold SwitchNode.residentBy at total
  omega

theorem Accounts.unit_data (accounts : Accounts c s) {voq : Nat × Nat} {unit : PacketUnit}
    (member : unit ∈ s.upstream.voqPackets voq) : unit.pkt.isUdp = true := by
  have bound : notData unit ≤ s.upstream.heldBy notData := held_le member
  rw [accounts.data] at bound
  unfold notData at bound
  by_contra other
  rw [if_neg other] at bound
  omega

theorem Accounts.queued_placed (accounts : Accounts c s) {dev qIndex : Nat} {p : Packet}
    (port : dev < c.nDevices) (below : qIndex < qCnt) (member : p ∈ s.queues dev qIndex) :
    misplaced c (p.toUnit dev qIndex) = 0 := by
  have inside : (dev, qIndex) ∈ Finset.range c.nDevices ×ˢ Finset.range qCnt := by
    simp [port, below]
  have bound : misplaced c (p.toUnit dev qIndex) ≤ s.queuedBy c (misplaced c) :=
    queued_le inside member
  have total := accounts.placed
  unfold SwitchNode.residentBy at total
  omega

theorem Accounts.released_residentBy (accounts : Accounts c s) {voq : Nat × Nat}
    (releases : Releases c s voq after) (whole : NoDrops after) {weight : PacketUnit → Nat}
    (traffic : TrafficWeight weight) : after.residentBy c weight = s.residentBy c weight := by
  apply releases.residentBy whole traffic
  intro unit member
  rcases misplaced_zero (accounts.unit_placed member) with control | place
  · exact .inr (traffic.control unit control.1 control.2)
  · exact .inl ⟨place.1, place.2.1⟩

theorem Accounts.released (accounts : Accounts c s) {voq : Nat × Nat}
    (releases : Releases c s voq after) (within : Within c after) : Accounts c after := by
  have same : ∀ weight, TrafficWeight weight →
      after.residentBy c weight = s.residentBy c weight :=
    fun _ traffic => accounts.released_residentBy releases within.noDrops traffic
  refine ⟨?_, ?_, ?_, ?_, within⟩
  · have counters : after.admission = s.admission := by
      cases releases with
      | idle => rfl
      | sent => rfl
    rw [counters]
    exact accounts.laws.congr ⟨rfl, rfl, rfl, rfl⟩ fun weight traffic _ => same weight traffic
  · cases releases with
    | idle => exact accounts.consistent
    | sent sends => exact sends.consistent
  · cases releases with
    | idle => exact accounts.data
    | @sent top unit up sends =>
        have fewer := sends.heldBy notData
        have none := accounts.data
        have upstream : ({ s with upstream := up }.sendUnit c unit).upstream = up := rfl
        rw [upstream]
        omega
  · rw [same _ (misplaced_traffic c)]
    exact accounts.placed

/-- The head of a queue outside the highest priority is a packet that the buffer accounts for. -/
theorem Accounts.head_belongs (accounts : Accounts c s) {ifIndex qIndex : Nat} {p : Packet}
    {queue : BEgressQueue} (dequeues : (s.device ifIndex).queue.Dequeues p qIndex queue)
    (port : ifIndex < c.nDevices) (queue_ne : qIndex ≠ 0) :
    Belongs c (p.flowId.getD 0) (c.pfcFine (p.flowId.getD 0) qIndex p.dip)
      (p.toUnit ifIndex qIndex) := by
  rcases misplaced_zero (accounts.queued_placed port dequeues.below (taken_head dequeues)) with
    control | ⟨_, _, place⟩
  · exact absurd control.1 queue_ne
  · obtain ⟨_, inDev, ingress, flowId, known⟩ := place queue_ne
    have flow : p.flowId = some inDev := flowId
    rw [flow, Option.getD_some]
    exact ⟨queue_ne, flowId, rfl, ingress, pfcFine_lt dequeues.below known⟩

theorem Accounts.discharged (accounts : Accounts c s) {ifIndex qIndex : Nat} {p : Packet}
    {queue : BEgressQueue} (dequeues : (s.device ifIndex).queue.Dequeues p qIndex queue)
    (port : ifIndex < c.nDevices) :
    Laws c ((s.taken ifIndex queue).discharged c (p.flowId.getD 0) ifIndex qIndex p).admission
      (s.taken ifIndex queue) := by
  have leaves := taken_residentBy dequeues port
  by_cases zero : qIndex = 0
  · simp only [SwitchNode.discharged, if_pos zero]
    apply accounts.laws.congr ⟨rfl, rfl, rfl, rfl⟩
    intro weight _ blind
    have change := leaves weight
    rw [blind _ zero, Nat.add_zero] at change
    exact change
  · have belongs := accounts.head_belongs dequeues port zero
    have carries := discharge_carries accounts.laws belongs
      (fun weight _ => by have change := leaves weight; omega) accounts.within.accounted
    simp only [SwitchNode.discharged, if_neg zero, discharge]
    exact (carries.laws_iff belongs fun weight _ => (leaves weight).symm).mpr accounts.laws

theorem Accounts.transmitted (accounts : Accounts c s) {ifIndex : Nat} {out : Option Packet}
    (port : ifIndex < c.nDevices) (transmits : Transmits c s ifIndex out after)
    (within : Within c after) : Accounts c after := by
  cases transmits with
  | idle => exact accounts
  | @sent p p' qIndex queue _ served notified =>
      have dequeues := BEgressQueue.dequeueRR_dequeues served
      have laws := accounts.discharged dequeues port
      have signals := depart_signals c (s.taken ifIndex queue) (p.flowId.getD 0) ifIndex qIndex p
      have resident : ∀ weight, TrafficWeight weight →
          after.residentBy c weight = (s.taken ifIndex queue).residentBy c weight :=
        fun _ traffic => notified.residentBy traffic
      have upstream : after.upstream = s.upstream := notified.upstream
      have bytes : SameBytes ((s.taken ifIndex queue).discharged c (p.flowId.getD 0) ifIndex qIndex
          p).admission after.admission := by
        rw [notified.admission]
        exact signals.bytes
      refine ⟨laws.congr bytes fun weight traffic _ => resident weight traffic, ?_, ?_, ?_, within⟩
      · rw [upstream]
        exact accounts.consistent
      · rw [upstream]
        exact accounts.data
      · have leaves := taken_residentBy dequeues port (misplaced c)
        have total := accounts.placed
        rw [resident _ (misplaced_traffic c)]
        omega

end Steps

end SwitchNode

end Floodgate
