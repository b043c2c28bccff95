import Floodgate.AdmissionLedger
import Floodgate.Library.MapSum
import Mathlib.Algebra.Group.Action.Defs

/-! The shared buffer under an arbitrary sequence of offered and departing packets. -/

namespace Floodgate

/-- The counters with the port and size of every admitted packet that has not departed. -/
structure SharedBuffer where
  mmu : Admission
  resident : List (Nat × Nat)

inductive BufferEvent where
  | offer (port psize : Nat)
  | depart (index : Nat)

namespace SharedBuffer

def init : SharedBuffer := ⟨Admission.init, []⟩

def step (c : AdmissionConfig) (qIndex : Nat) (s : SharedBuffer) : BufferEvent → SharedBuffer
  | .offer port psize =>
      if s.mmu.checkIngressAdmission c port qIndex psize then
        ⟨s.mmu.updateIngressAdmission c port qIndex psize, s.resident ++ [(port, psize)]⟩
      else s
  | .depart index =>
      match s.resident[index]? with
      | some (port, psize) =>
          ⟨s.mmu.removeFromIngressAdmission c port qIndex psize, s.resident.eraseIdx index⟩
      | none => s

def run (c : AdmissionConfig) (qIndex : Nat) (events : List BufferEvent) : SharedBuffer :=
  events.foldl (step c qIndex) init

def residentBytes (resident : List (Nat × Nat)) (port : Nat) : Nat :=
  (resident.map fun packet => if packet.1 = port then packet.2 else 0).sum

end SharedBuffer

/-- Packets come in on configured ports and are at most `limit` bytes long. -/
def BufferEvent.Valid (nPort limit : Nat) : BufferEvent → Prop
  | .offer port psize => (∃ i < nPort, port = i + 1) ∧ psize ≤ limit
  | .depart _ => True

/-- Every port is `PFC_ON_QUEUE` with a dynamic threshold. -/
structure AdmissionConfig.Dynamic (c : AdmissionConfig) : Prop where
  onQueue : ∀ port, c.pfcMode port = .onQueue
  noStatic : ∀ port, c.pfcThStatic port = 0

structure AdmissionConfig.Pooled (c : AdmissionConfig) (nPort : Nat) : Prop extends c.Dynamic where
  fits : ∑ i ∈ Finset.range nPort, c.headroom (i + 1) + nPort * c.reserve ≤ c.bufferSize

namespace AdmissionConfig

theorem fold_headroom (c : AdmissionConfig) (nPort : Nat)
    (fits : ∑ i ∈ Finset.range nPort, c.headroom (i + 1) < Word32.size) :
    (c.configNPort nPort).totalHdrm = ∑ i ∈ Finset.range nPort, c.headroom (i + 1) := by
  simp only [configNPort]
  induction nPort with
  | zero => simp
  | succ n ih =>
      rw [Finset.sum_range_succ] at fits ⊢
      rw [List.range_succ, List.foldl_append, ih (by omega)]
      exact Word32.add_eq _ _ fits

theorem fold_reserve (c : AdmissionConfig) (nPort : Nat)
    (fits : nPort * c.reserve < Word32.size) :
    (c.configNPort nPort).totalRsrv = nPort * c.reserve := by
  simp only [configNPort]
  induction nPort with
  | zero => simp
  | succ n ih =>
      rw [Nat.succ_mul] at fits ⊢
      rw [List.range_succ, List.foldl_append, ih (by omega)]
      exact Word32.add_eq _ _ fits

theorem pool_exact (c : AdmissionConfig) (nPort : Nat) (pooled : c.Pooled nPort) :
    (c.configNPort nPort).pool + ∑ i ∈ Finset.range nPort, c.headroom (i + 1) +
      nPort * c.reserve = c.bufferSize := by
  have fits := pooled.fits
  have small := c.bufferSize_lt
  have headroom := fold_headroom c nPort (by omega)
  have reserve := fold_reserve c nPort (by omega)
  have size : (c.configNPort nPort).bufferSize = c.bufferSize := rfl
  simp only [pool, headroom, reserve, size]
  omega

end AdmissionConfig

namespace SharedBuffer

theorem threshold_exact (c : AdmissionConfig) (nPort : Nat) (pooled : c.Pooled nPort)
    (m : Admission) (within : m.sharedUsedBytes ≤ (c.configNPort nPort).pool) (port : Nat) :
    m.getPfcThreshold (c.configNPort nPort) port =
      ((c.configNPort nPort).pool - m.sharedUsedBytes) >>> c.pfcAShift port := by
  have fits := pooled.fits
  have small := c.bufferSize_lt
  have headroom := AdmissionConfig.fold_headroom c nPort (by omega)
  have reserve := AdmissionConfig.fold_reserve c nPort (by omega)
  have modeOn : (c.configNPort nPort).pfcMode port ≠ .off := by
    have queue : (c.configNPort nPort).pfcMode port = .onQueue := pooled.onQueue port
    simp [queue]
  have static : ¬ (c.configNPort nPort).pfcThStatic port > 0 := by
    have zero : (c.configNPort nPort).pfcThStatic port = 0 := pooled.noStatic port
    omega
  have size : (c.configNPort nPort).bufferSize = c.bufferSize := rfl
  exact Admission.dynamic_threshold modeOn static (by omega) within

/-- The invariant of the bound: exact accounting on every configured port, headroom within its
configured size and the shared pool not overdrawn. -/
structure Balanced (c : AdmissionConfig) (nPort qIndex : Nat) (s : SharedBuffer) : Prop where
  headroom : ∀ i < nPort, s.mmu.hdrmBytes (i + 1) qIndex ≤ c.headroom (i + 1)
  ledger : ∀ i < nPort, s.mmu.ingressBytes (i + 1) qIndex + s.mmu.hdrmBytes (i + 1) qIndex =
    residentBytes s.resident (i + 1)
  shared : s.mmu.sharedUsedBytes =
    ∑ i ∈ Finset.range nPort, (s.mmu.ingressBytes (i + 1) qIndex - c.reserve)
  within : s.mmu.sharedUsedBytes ≤ (c.configNPort nPort).pool
  ports : ∀ packet ∈ s.resident, ∃ i < nPort, packet.1 = i + 1

theorem Balanced.init (c : AdmissionConfig) (nPort qIndex : Nat) :
    Balanced c nPort qIndex SharedBuffer.init := by
  constructor <;> simp [SharedBuffer.init, Admission.init, residentBytes]

section Bounds

variable {c : AdmissionConfig} {nPort qIndex : Nat} {s : SharedBuffer}

theorem Balanced.excess_le_shared (balanced : Balanced c nPort qIndex s) {i : Nat}
    (port : i < nPort) :
    s.mmu.ingressBytes (i + 1) qIndex - c.reserve ≤ s.mmu.sharedUsedBytes := by
  rw [balanced.shared]
  exact Finset.single_le_sum
    (f := fun i => s.mmu.ingressBytes (i + 1) qIndex - c.reserve)
    (fun _ _ => Nat.zero_le _) (Finset.mem_range.mpr port)

/-- Every port stays within its reserve, its headroom and the pool, so within the buffer. -/
theorem Balanced.total_le (pooled : c.Pooled nPort) (balanced : Balanced c nPort qIndex s) :
    ∑ i ∈ Finset.range nPort,
      (s.mmu.ingressBytes (i + 1) qIndex + s.mmu.hdrmBytes (i + 1) qIndex) ≤ c.bufferSize := by
  have parts : ∀ i ∈ Finset.range nPort,
      s.mmu.ingressBytes (i + 1) qIndex + s.mmu.hdrmBytes (i + 1) qIndex ≤
        (s.mmu.ingressBytes (i + 1) qIndex - c.reserve) + c.reserve + c.headroom (i + 1) := by
    intro i member
    have bound := balanced.headroom i (Finset.mem_range.mp member)
    omega
  have pool := AdmissionConfig.pool_exact c nPort pooled
  have within := balanced.within
  rw [balanced.shared] at within
  calc
    _ ≤ ∑ i ∈ Finset.range nPort,
        ((s.mmu.ingressBytes (i + 1) qIndex - c.reserve) + c.reserve + c.headroom (i + 1)) :=
      Finset.sum_le_sum parts
    _ = ∑ i ∈ Finset.range nPort, (s.mmu.ingressBytes (i + 1) qIndex - c.reserve) +
        nPort * c.reserve + ∑ i ∈ Finset.range nPort, c.headroom (i + 1) := by
      rw [Finset.sum_add_distrib, Finset.sum_add_distrib, Finset.sum_const, Finset.card_range,
        smul_eq_mul]
    _ ≤ c.bufferSize := by omega

theorem Balanced.port_le (pooled : c.Pooled nPort) (balanced : Balanced c nPort qIndex s)
    {i : Nat} (port : i < nPort) :
    s.mmu.ingressBytes (i + 1) qIndex + s.mmu.hdrmBytes (i + 1) qIndex ≤ c.bufferSize :=
  Nat.le_trans
    (Finset.single_le_sum
      (f := fun i => s.mmu.ingressBytes (i + 1) qIndex + s.mmu.hdrmBytes (i + 1) qIndex)
      (fun _ _ => Nat.zero_le _) (Finset.mem_range.mpr port))
    (balanced.total_le pooled)

theorem charged_sum {before after : Admission} {i psize : Nat} (port : i < nPort)
    (charged : Admission.Charged (c.configNPort nPort) before after (i + 1) qIndex psize)
    (exact : before.sharedUsedBytes =
      ∑ k ∈ Finset.range nPort, (before.ingressBytes (k + 1) qIndex - c.reserve) ∨
      after.sharedUsedBytes =
      ∑ k ∈ Finset.range nPort, (after.ingressBytes (k + 1) qIndex - c.reserve)) :
    before.sharedUsedBytes =
      ∑ k ∈ Finset.range nPort, (before.ingressBytes (k + 1) qIndex - c.reserve) ∧
    after.sharedUsedBytes =
      ∑ k ∈ Finset.range nPort, (after.ingressBytes (k + 1) qIndex - c.reserve) := by
  have change := MapSum.sum_change
    (fun k => after.ingressBytes (k + 1) qIndex - c.reserve)
    (fun k => before.ingressBytes (k + 1) qIndex - c.reserve)
    (Finset.mem_range.mpr port) (by
      intro k _ different
      have same := charged.ingress_other (k + 1) qIndex (by omega)
      simp only [same])
  have shared := charged.shared
  have reserve : (c.configNPort nPort).reserve = c.reserve := rfl
  rw [reserve] at shared
  omega

/-- An admitted packet that the update classifies as headroom fits the headroom: the test of the
admission and the one of the update differ, but only in the safe direction. -/
theorem admitted_hdrm_le {d : AdmissionConfig} {m : Admission} {port psize : Nat}
    (before : m.hdrmBytes port qIndex ≤ d.headroom port)
    (ingressFits : m.ingressBytes port qIndex + psize < Word32.size)
    (hdrmFits : m.hdrmBytes port qIndex + psize < Word32.size)
    (admitted : m.checkIngressAdmission d port qIndex psize = true) :
    (m.updateIngressAdmission d port qIndex psize).hdrmBytes port qIndex ≤ d.headroom port := by
  have reserveFits := d.reserve_lt
  have used : Word32.add psize (m.getSharedUsed d port qIndex) =
      psize + (m.ingressBytes port qIndex - d.reserve) := by
    rw [Admission.shared_used_eq, Word32.add_eq _ _ (by omega)]
  have hdrm : Word32.add psize (m.hdrmBytes port qIndex) = psize + m.hdrmBytes port qIndex :=
    Word32.add_eq _ _ (by omega)
  have fits : psize + m.hdrmBytes port qIndex ≤ d.headroom port ∨
      psize + (m.ingressBytes port qIndex - d.reserve) ≤ m.getPfcThreshold d port := by
    unfold Admission.checkIngressAdmission at admitted
    rw [used, hdrm] at admitted
    simp only [Bool.not_eq_true', Bool.and_eq_false_iff, decide_eq_false_iff_not] at admitted
    omega
  unfold Admission.updateIngressAdmission
  simp only [Word32.add_eq _ _ ingressFits]
  split
  · exact before
  · rename_i aboveReserve
    have overflow : Word32.sub (m.ingressBytes port qIndex + psize) d.reserve =
        m.ingressBytes port qIndex + psize - d.reserve :=
      Word32.sub_eq _ _ ingressFits (by omega)
    split
    · rename_i aboveThreshold
      have added : Word32.add (m.hdrmBytes port qIndex) psize =
          m.hdrmBytes port qIndex + psize := Word32.add_eq _ _ hdrmFits
      simp only [setCell_same, added]
      omega
    · exact before

/-- One update never charges the pool beyond the threshold it was tested against. -/
theorem update_shared_le {d : AdmissionConfig} {m : Admission} {port psize : Nat}
    (ingressFits : m.ingressBytes port qIndex + psize < Word32.size)
    (sharedFits : m.sharedUsedBytes + psize < Word32.size) :
    (m.updateIngressAdmission d port qIndex psize).sharedUsedBytes ≤
      m.sharedUsedBytes + m.getPfcThreshold d port := by
  unfold Admission.updateIngressAdmission
  simp only [Word32.add_eq _ _ ingressFits]
  split
  · exact Nat.le_add_right _ _
  · rename_i aboveReserve
    have overflow : Word32.sub (m.ingressBytes port qIndex + psize) d.reserve =
        m.ingressBytes port qIndex + psize - d.reserve :=
      Word32.sub_eq _ _ ingressFits (by omega)
    split
    · exact Nat.le_add_right _ _
    · rename_i withinThreshold
      have charged : Word32.add m.sharedUsedBytes
          (min psize (m.ingressBytes port qIndex + psize - d.reserve)) =
          m.sharedUsedBytes + min psize (m.ingressBytes port qIndex + psize - d.reserve) :=
        Word32.add_eq _ _ (by omega)
      simp only [overflow, charged]
      omega

theorem residentBytes_append (resident : List (Nat × Nat)) (port psize i : Nat) :
    residentBytes (resident ++ [(port, psize)]) i =
      residentBytes resident i + if port = i then psize else 0 := by
  simp [residentBytes]

theorem residentBytes_erase (resident : List (Nat × Nat)) (index port psize i : Nat)
    (present : resident[index]? = some (port, psize)) :
    residentBytes (resident.eraseIdx index) i + (if port = i then psize else 0) =
      residentBytes resident i := by
  obtain ⟨inside, found⟩ := List.getElem?_eq_some_iff.mp present
  have split := List.take_append_drop index resident
  rw [List.drop_eq_getElem_cons inside, found] at split
  rw [List.eraseIdx_eq_take_drop_succ]
  conv_rhs => rw [← split]
  simp only [residentBytes, List.map_append, List.map_cons, List.sum_append, List.sum_cons]
  omega

theorem Balanced.offer (pooled : c.Pooled nPort) (balanced : Balanced c nPort qIndex s)
    {limit port psize : Nat} (small : c.bufferSize + limit < Word32.size)
    (valid : BufferEvent.Valid nPort limit (.offer port psize)) :
    Balanced c nPort qIndex (step (c.configNPort nPort) qIndex s (.offer port psize)) := by
  obtain ⟨⟨i, configured, rfl⟩, short⟩ := valid
  by_cases admitted : s.mmu.checkIngressAdmission (c.configNPort nPort) (i + 1) qIndex psize
  case neg => simpa only [step, if_neg admitted] using balanced
  simp only [step, if_pos admitted]
  have portBound := balanced.port_le pooled configured
  have pool := AdmissionConfig.pool_exact c nPort pooled
  have within := balanced.within
  have charged := Admission.update_ingress_charged (c.configNPort nPort) s.mmu (i + 1) qIndex psize
    (by omega) (by omega) (by omega)
  have grown : (s.mmu.updateIngressAdmission (c.configNPort nPort) (i + 1) qIndex
      psize).sharedUsedBytes ≤
      s.mmu.sharedUsedBytes + s.mmu.getPfcThreshold (c.configNPort nPort) (i + 1) :=
    update_shared_le (by omega) (by omega)
  rw [threshold_exact c nPort pooled s.mmu within, Nat.shiftRight_eq_div_pow] at grown
  have reduced : ((c.configNPort nPort).pool - s.mmu.sharedUsedBytes) / 2 ^ c.pfcAShift (i + 1) ≤
      (c.configNPort nPort).pool - s.mmu.sharedUsedBytes := Nat.div_le_self _ _
  have pooledWithin : (s.mmu.updateIngressAdmission (c.configNPort nPort) (i + 1) qIndex
      psize).sharedUsedBytes ≤ (c.configNPort nPort).pool := by omega
  refine ⟨?_, ?_, (charged_sum configured charged (.inl balanced.shared)).2, pooledWithin, ?_⟩
  · intro k inside
    by_cases same : k = i
    · subst same
      exact admitted_hdrm_le (d := c.configNPort nPort) (balanced.headroom k inside) (by omega)
        (by omega) admitted
    · rw [charged.hdrm_other _ _ (by omega)]
      exact balanced.headroom k inside
  · intro k inside
    have ledger := balanced.ledger k inside
    simp only [residentBytes_append]
    by_cases same : k = i
    · subst same
      rw [if_pos rfl, ← ledger]
      exact charged.bytes
    · rw [charged.ingress_other _ _ (by omega), charged.hdrm_other _ _ (by omega), if_neg (by omega)]
      exact ledger
  · intro packet member
    rcases List.mem_append.mp member with earlier | new
    · exact balanced.ports packet earlier
    · rw [List.mem_singleton.mp new]
      exact ⟨i, configured, rfl⟩

theorem Balanced.depart (pooled : c.Pooled nPort) (balanced : Balanced c nPort qIndex s)
    (index : Nat) :
    Balanced c nPort qIndex (step (c.configNPort nPort) qIndex s (.depart index)) := by
  cases present : s.resident[index]? with
  | none => simpa only [step, present] using balanced
  | some packet =>
      obtain ⟨port, psize⟩ := packet
      obtain ⟨i, configured, same⟩ := balanced.ports _ (List.mem_of_getElem? present)
      simp only at same
      subst same
      simp only [step, present]
      have portBound := balanced.port_le pooled configured
      have ledger := balanced.ledger i configured
      have removed := residentBytes_erase s.resident index (i + 1) psize (i + 1) present
      rw [if_pos rfl] at removed
      have small := c.bufferSize_lt
      have pool := AdmissionConfig.pool_exact c nPort pooled
      have within := balanced.within
      have charged := Admission.remove_ingress_charged (c.configNPort nPort) s.mmu (i + 1) qIndex
        psize (by omega) (balanced.excess_le_shared configured) (by omega) (by omega) (by omega)
        (by omega)
      have shrinks := charged.shared
      have grows := charged.ingress_grows
      have pooledWithin : (s.mmu.removeFromIngressAdmission (c.configNPort nPort) (i + 1) qIndex
          psize).sharedUsedBytes ≤ (c.configNPort nPort).pool := by omega
      refine ⟨?_, ?_, (charged_sum configured charged (.inr balanced.shared)).1, pooledWithin, ?_⟩
      · intro k inside
        by_cases same : k = i
        · subst same
          exact Nat.le_trans charged.hdrm_grows (balanced.headroom k inside)
        · rw [← charged.hdrm_other _ _ (by omega)]
          exact balanced.headroom k inside
      · intro k inside
        have held := residentBytes_erase s.resident index (i + 1) psize (k + 1) present
        have kept := balanced.ledger k inside
        by_cases same : k = i
        · subst same
          have bytes := charged.bytes
          rw [if_pos rfl] at held
          simp only at bytes ⊢
          omega
        · rw [if_neg (by omega)] at held
          have ingress := charged.ingress_other (k + 1) qIndex (by omega)
          have hdrm := charged.hdrm_other (k + 1) qIndex (by omega)
          simp only at ingress hdrm ⊢
          omega
      · intro other member
        exact balanced.ports other (List.mem_of_mem_eraseIdx member)

end Bounds

theorem Balanced.step {c : AdmissionConfig} {nPort qIndex : Nat} {s : SharedBuffer}
    (pooled : c.Pooled nPort) (balanced : Balanced c nPort qIndex s) (event : BufferEvent)
    {limit : Nat} (small : c.bufferSize + limit < Word32.size) (valid : event.Valid nPort limit) :
    Balanced c nPort qIndex (SharedBuffer.step (c.configNPort nPort) qIndex s event) := by
  cases event with
  | offer port psize => exact balanced.offer pooled small valid
  | depart index => exact balanced.depart pooled index

theorem Balanced.run {c : AdmissionConfig} {nPort : Nat} (pooled : c.Pooled nPort) (qIndex : Nat)
    (events : List BufferEvent) {limit : Nat} (small : c.bufferSize + limit < Word32.size)
    (valid : ∀ event ∈ events, event.Valid nPort limit) :
    Balanced c nPort qIndex (SharedBuffer.run (c.configNPort nPort) qIndex events) := by
  induction events using List.reverseRecOn with
  | nil => exact Balanced.init c nPort qIndex
  | append_singleton earlier event ih =>
      unfold SharedBuffer.run at ih ⊢
      rw [List.foldl_append]
      have balanced := ih fun other member => valid other (List.mem_append_left _ member)
      exact balanced.step pooled event small (valid event (by simp))

structure Bounded (c : AdmissionConfig) (nPort qIndex : Nat) (s : SharedBuffer) : Prop where
  headroom : ∀ i < nPort, s.mmu.hdrmBytes (i + 1) qIndex ≤ c.headroom (i + 1)
  shared : s.mmu.sharedUsedBytes + (c.configNPort nPort).totalHdrm +
    (c.configNPort nPort).totalRsrv ≤ c.bufferSize
  threshold : ∀ port, s.mmu.getPfcThreshold (c.configNPort nPort) port =
    (c.bufferSize - (c.configNPort nPort).totalHdrm - (c.configNPort nPort).totalRsrv -
      s.mmu.sharedUsedBytes) >>> c.pfcAShift port
  total : ∑ i ∈ Finset.range nPort,
    (s.mmu.ingressBytes (i + 1) qIndex + s.mmu.hdrmBytes (i + 1) qIndex) ≤ c.bufferSize

/-- While the static parts as exact sums fit the buffer, and a full buffer and one packet fit 32
bits, every run stays within the bound. -/
theorem shared_buffer_bound (c : AdmissionConfig) (nPort qIndex limit : Nat)
    (pooled : c.Pooled nPort) (small : c.bufferSize + limit < Word32.size)
    (events : List BufferEvent) (valid : ∀ event ∈ events, event.Valid nPort limit) :
    Bounded c nPort qIndex (run (c.configNPort nPort) qIndex events) := by
  have balanced := Balanced.run pooled qIndex events small valid
  have pool := AdmissionConfig.pool_exact c nPort pooled
  have within := balanced.within
  have fits := pooled.fits
  have headroom := AdmissionConfig.fold_headroom c nPort (by omega)
  have reserve := AdmissionConfig.fold_reserve c nPort (by omega)
  refine ⟨balanced.headroom, ?_, ?_, balanced.total_le pooled⟩
  · rw [headroom, reserve]
    omega
  · intro port
    exact threshold_exact c nPort pooled _ within port

/-- Two ports with a headroom of 8 KiB each and a pool of 12 KiB. -/
def smallBuffer : AdmissionConfig where
  bufferSize := 36864
  reserve := 4096
  resumeOffset := 3072
  totalHdrm := 0
  totalRsrv := 0
  headroom := fun _ => 8192
  pfcAShift := fun _ => 1
  pfcThStatic := fun _ => 0
  pfcMode := fun _ => .onQueue
  bufferSize_lt := by decide
  reserve_lt := Word32.four_kilo_lt

theorem shared_buffer_bound_two_ports :
    Bounded smallBuffer 2 3
      (run (smallBuffer.configNPort 2) 3 [.offer 1 4096, .offer 2 1500, .depart 0]) :=
  shared_buffer_bound smallBuffer 2 3 4096 ⟨⟨fun _ => rfl, fun _ => rfl⟩, by decide⟩ (by decide)
    _ (by
      simp only [List.forall_mem_cons]
      exact ⟨⟨⟨0, by decide, rfl⟩, by decide⟩, ⟨⟨1, by decide, rfl⟩, by decide⟩, trivial,
        List.forall_mem_nil _⟩)

/-- Two ports whose headrooms of 2^31 bytes wrap to a total of 0. -/
def wrappedTotals : AdmissionConfig :=
  { smallBuffer with headroom := fun _ => 2147483648 }

/-- One port without headroom and a buffer above 2^31 bytes. -/
def hugeBuffer : AdmissionConfig :=
  { smallBuffer.configBufferSize 2147487744 (by decide) with
    headroom := fun _ => 0
    pfcAShift := fun _ => 0 }

/-- The totals that `ConfigNPort` computes do not bound the buffer: once they have wrapped, and
with packets so long that the admission test itself wraps, more is admitted than it holds. -/
theorem wrapped_sums_overfill :
    (¬ ∀ (c : AdmissionConfig) (nPort qIndex limit : Nat) (events : List BufferEvent), c.Dynamic →
      (c.configNPort nPort).totalHdrm + (c.configNPort nPort).totalRsrv ≤ c.bufferSize →
      c.bufferSize + limit < Word32.size → (∀ event ∈ events, event.Valid nPort limit) →
      Bounded c nPort qIndex (run (c.configNPort nPort) qIndex events)) ∧
    (¬ ∀ (c : AdmissionConfig) (nPort qIndex limit : Nat) (events : List BufferEvent),
      c.Pooled nPort → limit < Word32.size → (∀ event ∈ events, event.Valid nPort limit) →
      Bounded c nPort qIndex (run (c.configNPort nPort) qIndex events)) := by
  constructor
  · intro claim
    have bounded := claim wrappedTotals 2 3 8192
      (.offer 1 4096 :: List.replicate 5 (.offer 1 8192))
      ⟨fun _ => rfl, fun _ => rfl⟩ (by decide) (by decide) (by
        intro event member
        rcases List.mem_cons.mp member with rfl | repeated
        · exact ⟨⟨0, by decide, rfl⟩, by decide⟩
        · rw [(List.mem_replicate.mp repeated).2]
          exact ⟨⟨0, by decide, rfl⟩, by decide⟩)
    exact absurd bounded.total (by decide)
  · intro claim
    have bounded := claim hugeBuffer 1 3 2147487754
      [.offer 1 2147483648, .offer 1 2147487754, .depart 0]
      ⟨⟨fun _ => rfl, fun _ => rfl⟩, by decide⟩ (by decide) (by
        simp only [List.forall_mem_cons]
        exact ⟨⟨⟨0, by decide, rfl⟩, by decide⟩, ⟨⟨0, by decide, rfl⟩, by decide⟩, trivial,
          List.forall_mem_nil _⟩)
    exact absurd bounded.total (by decide)

end SharedBuffer

end Floodgate
