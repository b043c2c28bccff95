import Floodgate.Packet

/-! Shared-buffer admission and PFC decisions of `SwitchMmu`. -/

namespace Floodgate

inductive PfcMode where
  | off
  | onQueue
  | onDst
  deriving DecidableEq, Repr

/-- The configured part: every field is a `uint32_t` or an array of them. -/
structure AdmissionConfig where
  bufferSize : Nat
  reserve : Nat
  resumeOffset : Nat
  totalHdrm : Nat
  totalRsrv : Nat
  headroom : Nat → Nat
  pfcAShift : Nat → Nat
  pfcThStatic : Nat → Nat
  pfcMode : Nat → PfcMode
  bufferSize_lt : bufferSize < Word32.size
  reserve_lt : reserve < Word32.size

structure Admission where
  sharedUsedBytes : Nat
  hdrmBytes : Nat → Nat → Nat
  ingressBytes : Nat → Nat → Nat
  egressBytes : Nat → Nat → Nat
  paused : Nat → Nat → Bool

def setCell {Value : Type} (table : Nat → Nat → Value) (row column : Nat) (value : Value) :
    Nat → Nat → Value :=
  fun i j => if i = row ∧ j = column then value else table i j

@[simp] theorem setCell_same {Value : Type} (table : Nat → Nat → Value) (row column : Nat)
    (value : Value) : setCell table row column value row column = value := by
  simp [setCell]

theorem setCell_other {Value : Type} (table : Nat → Nat → Value) (row column i j : Nat)
    (value : Value) (other : ¬ (i = row ∧ j = column)) :
    setCell table row column value i j = table i j := by
  simp only [setCell, if_neg other]

namespace Admission

def init : Admission := ⟨0, fun _ _ => 0, fun _ _ => 0, fun _ _ => 0, fun _ _ => false⟩

def getSharedUsed (c : AdmissionConfig) (m : Admission) (port qIndex : Nat) : Nat :=
  if m.ingressBytes port qIndex > c.reserve then m.ingressBytes port qIndex - c.reserve else 0

/-- `INT_MAX` when PFC is off; a static threshold wins over the dynamic one. -/
def getPfcThreshold (c : AdmissionConfig) (m : Admission) (port : Nat) : Nat :=
  if c.pfcMode port = .off then 2147483647
  else if c.pfcThStatic port > 0 then c.pfcThStatic port
  else Word32.sub (Word32.sub (Word32.sub c.bufferSize c.totalHdrm) c.totalRsrv)
    m.sharedUsedBytes >>> c.pfcAShift port

def checkIngressAdmission (c : AdmissionConfig) (m : Admission) (port qIndex psize : Nat) : Bool :=
  !(decide (Word32.add psize (m.hdrmBytes port qIndex) > c.headroom port) &&
    decide (Word32.add psize (m.getSharedUsed c port qIndex) > m.getPfcThreshold c port))

def checkEgressAdmission (_ : Admission) (_port _qIndex _psize : Nat) : Bool := true

def updateIngressAdmission (c : AdmissionConfig) (m : Admission) (port qIndex psize : Nat) :
    Admission :=
  let newBytes := Word32.add (m.ingressBytes port qIndex) psize
  if newBytes ≤ c.reserve then
    { m with ingressBytes := setCell m.ingressBytes port qIndex newBytes }
  else if Word32.sub newBytes c.reserve > m.getPfcThreshold c port then
    { m with
      hdrmBytes := setCell m.hdrmBytes port qIndex (Word32.add (m.hdrmBytes port qIndex) psize) }
  else
    { m with
      ingressBytes := setCell m.ingressBytes port qIndex newBytes
      sharedUsedBytes :=
        Word32.add m.sharedUsedBytes (min psize (Word32.sub newBytes c.reserve)) }

def updateEgressAdmission (m : Admission) (port qIndex psize : Nat) : Admission :=
  { m with
    egressBytes := setCell m.egressBytes port qIndex
      (Word32.add (m.egressBytes port qIndex) psize) }

def removeFromIngressAdmission (c : AdmissionConfig) (m : Admission) (port qIndex psize : Nat) :
    Admission :=
  let fromHdrm := min (m.hdrmBytes port qIndex) psize
  let fromShared := min (Word32.sub psize fromHdrm)
    (if m.ingressBytes port qIndex > c.reserve
      then Word32.sub (m.ingressBytes port qIndex) c.reserve else 0)
  { m with
    hdrmBytes := setCell m.hdrmBytes port qIndex
      (Word32.sub (m.hdrmBytes port qIndex) fromHdrm)
    ingressBytes := setCell m.ingressBytes port qIndex
      (Word32.sub (m.ingressBytes port qIndex) (Word32.sub psize fromHdrm))
    sharedUsedBytes := Word32.sub m.sharedUsedBytes fromShared }

def removeFromEgressAdmission (m : Admission) (port qIndex psize : Nat) : Admission :=
  { m with
    egressBytes := setCell m.egressBytes port qIndex
      (Word32.sub (m.egressBytes port qIndex) psize) }

def checkShouldPause (c : AdmissionConfig) (m : Admission) (port qIndex : Nat) : Bool :=
  !m.paused port qIndex &&
    (decide (m.hdrmBytes port qIndex > 0) ||
      decide (m.getSharedUsed c port qIndex ≥ m.getPfcThreshold c port))

def checkShouldResume (c : AdmissionConfig) (m : Admission) (port qIndex : Nat) : Bool :=
  if !m.paused port qIndex then false
  else
    decide (m.hdrmBytes port qIndex = 0) &&
      (decide (m.getSharedUsed c port qIndex = 0) ||
        decide (Word32.add (m.getSharedUsed c port qIndex) c.resumeOffset ≤
          m.getPfcThreshold c port))

def setPause (m : Admission) (port qIndex : Nat) : Admission :=
  { m with paused := setCell m.paused port qIndex true }

def setResume (m : Admission) (port qIndex : Nat) : Admission :=
  { m with paused := setCell m.paused port qIndex false }

end Admission

namespace AdmissionConfig

/-- Totals over the ports `1..nPort`, accumulated in `uint32_t`. -/
def configNPort (c : AdmissionConfig) (nPort : Nat) : AdmissionConfig :=
  { c with
    totalHdrm := (List.range nPort).foldl (fun total i => Word32.add total (c.headroom (i + 1))) 0
    totalRsrv := (List.range nPort).foldl (fun total _ => Word32.add total c.reserve) 0 }

def configBufferSize (c : AdmissionConfig) (size : Nat) (fits : size < Word32.size) :
    AdmissionConfig :=
  { c with bufferSize := size, bufferSize_lt := fits }

end AdmissionConfig

end Floodgate
