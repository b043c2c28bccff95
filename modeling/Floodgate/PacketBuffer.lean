import Floodgate.Library.Outcome
import Floodgate.Library.SharedArray
import Floodgate.Library.Word32
import Mathlib.Logic.Function.Basic

/-! `Buffer`: the bytes of a packet, which its copies share until one of them has to write where
another has written, with a run of zeros for the payload that takes no memory. -/

namespace Floodgate

open Outcome SharedArray

/-- `Buffer::Data`, without `m_size`, which is the number of bytes. -/
structure BufferData where
  count : Nat
  dirtyStart : Nat
  dirtyEnd : Nat
  bytes : List UInt8
  deriving DecidableEq

def BufferData.size (d : BufferData) : Nat := d.bytes.length

/-- `data` is the address of the shared bytes and `finish` is `m_end`. -/
structure Buffer where
  data : Nat
  maxZeroAreaStart : Nat
  zeroAreaStart : Nat
  zeroAreaEnd : Nat
  start : Nat
  finish : Nat
  deriving DecidableEq

inductive BufferFailure where
  | released
  | outside
  | assertion
  deriving DecidableEq

/-- What all buffers have in common. `allocated` is the next address. -/
structure BufferMemory where
  datas : Nat → Option BufferData
  allocated : Nat
  recommendedStart : Nat

namespace BufferData

def copyOut (d : BufferData) (offset n : Nat) : Except BufferFailure (List UInt8) :=
  if offset + n ≤ d.size then .ok (read offset (offset + n) d.bytes) else .error .outside

theorem copyOut_eq {d : BufferData} {offset n : Nat} (inside : offset + n ≤ d.size) :
    d.copyOut offset n = .ok (read offset (offset + n) d.bytes) :=
  if_pos inside

def copyIn (d : BufferData) (offset : Nat) (piece : List UInt8) :
    Except BufferFailure BufferData :=
  if offset + piece.length ≤ d.size then .ok { d with bytes := write offset piece d.bytes }
  else .error .outside

end BufferData

namespace BufferMemory

def init : BufferMemory := ⟨fun _ => none, 0, 0⟩

def load (m : BufferMemory) (address : Nat) : Except BufferFailure BufferData :=
  match m.datas address with
  | none => .error .released
  | some d => .ok d

def store (m : BufferMemory) (address : Nat) (d : BufferData) : BufferMemory :=
  { m with datas := Function.update m.datas address (some d) }

/-- `Create` with `Allocate`. What the new bytes hold is not known, and the callers set the dirty
area. -/
def create (garbage : Nat → Nat → UInt8) (m : BufferMemory) (reqSize : Nat) : BufferData :=
  ⟨1, 0, 0, (List.range (if reqSize = 0 then 1 else reqSize)).map (garbage m.allocated)⟩

def keep (m : BufferMemory) (d : BufferData) : BufferMemory :=
  { m.store m.allocated d with allocated := m.allocated + 1 }

/-- `m_count--`, with `Recycle` for the last reference. -/
def release (m : BufferMemory) (address : Nat) : Except BufferFailure BufferMemory := do
  let d ← m.load address
  if d.count - 1 = 0 then .ok { m with datas := Function.update m.datas address none }
  else .ok (m.store address { d with count := d.count - 1 })

/-- `m_count++`. -/
def retain (m : BufferMemory) (address : Nat) : Except BufferFailure BufferMemory := do
  let d ← m.load address
  .ok (m.store address { d with count := Word32.add d.count 1 })

def recommend (m : BufferMemory) (b : Buffer) : BufferMemory :=
  { m with recommendedStart := max m.recommendedStart b.maxZeroAreaStart }

end BufferMemory

namespace Buffer

def getInternalSize (b : Buffer) : Nat :=
  Word32.sub (Word32.add (Word32.sub b.zeroAreaStart b.start) b.finish) b.zeroAreaEnd

def getInternalEnd (b : Buffer) : Nat :=
  Word32.sub b.finish (Word32.sub b.zeroAreaEnd b.zeroAreaStart)

def getSize (b : Buffer) : Nat := Word32.sub b.finish b.start

/-- The check that every function makes of `CheckInternalState` where it is enabled. -/
def checkInternalState (b : Buffer) (d : BufferData) : Prop :=
  0 < d.count ∧
  (b.start ≤ b.zeroAreaStart ∧ b.zeroAreaStart ≤ b.zeroAreaEnd ∧ b.zeroAreaEnd ≤ b.finish) ∧
  (d.dirtyStart ≤ b.start ∧ b.finish ≤ d.dirtyEnd) ∧
  b.finish - (b.zeroAreaEnd - b.zeroAreaStart) ≤ d.size ∧ b.start ≤ d.size ∧
    b.zeroAreaStart ≤ d.size

def noteZeroArea (b : Buffer) : Buffer :=
  { b with maxZeroAreaStart := max b.maxZeroAreaStart b.zeroAreaStart }

section NoteZeroArea

variable (b : Buffer)

@[simp] theorem noteZeroArea_data : b.noteZeroArea.data = b.data := rfl

@[simp] theorem noteZeroArea_zeroAreaStart :
    b.noteZeroArea.zeroAreaStart = b.zeroAreaStart := rfl

@[simp] theorem noteZeroArea_zeroAreaEnd : b.noteZeroArea.zeroAreaEnd = b.zeroAreaEnd := rfl

@[simp] theorem noteZeroArea_start : b.noteZeroArea.start = b.start := rfl

@[simp] theorem noteZeroArea_finish : b.noteZeroArea.finish = b.finish := rfl

end NoteZeroArea

def shift (b : Buffer) (delta : Nat) : Buffer :=
  { b with
    start := Word32.add b.start delta
    zeroAreaStart := Word32.add b.zeroAreaStart delta
    zeroAreaEnd := Word32.add b.zeroAreaEnd delta
    finish := Word32.add b.finish delta }

section Allocation

variable (garbage : Nat → Nat → UInt8)

def initialise (m : BufferMemory) (zeroSize : Nat) : BufferMemory × Buffer :=
  let d := m.create garbage 0
  let start := min d.size m.recommendedStart
  let finish := Word32.add start zeroSize
  (m.keep { d with dirtyStart := start, dirtyEnd := finish },
    { data := m.allocated, maxZeroAreaStart := start, zeroAreaStart := start,
      zeroAreaEnd := finish, start := start, finish := finish })

def copy (m : BufferMemory) (o : Buffer) : Except BufferFailure (BufferMemory × Buffer) := do
  let m ← m.retain o.data
  .ok (m, { o with maxZeroAreaStart := o.zeroAreaStart })

/-- `operator =`, after which all fields are those of `o`. -/
def assign (m : BufferMemory) (b o : Buffer) : Except BufferFailure (BufferMemory × Buffer) := do
  let m ← if b.data = o.data then .ok m else do
    let m ← m.release b.data
    m.retain o.data
  .ok (m.recommend b, o)

def destroy (m : BufferMemory) (b : Buffer) : Except BufferFailure BufferMemory :=
  (m.recommend b).release b.data

/-- Where `AddAtStart` and `AddAtEnd` need new data: the bytes go to `place` of it, and the buffer
becomes `moved`. -/
def reallocate (m : BufferMemory) (b : Buffer) (d : BufferData) (newSize place : Nat)
    (moved : Buffer) : Except BufferFailure (BufferMemory × Buffer) := do
  let bytes ← d.copyOut b.start b.getInternalSize
  let newData ← (m.create garbage newSize).copyIn place bytes
  let kept := m.keep { newData with dirtyStart := moved.start, dirtyEnd := moved.finish }
  let m' ← kept.release b.data
  .ok (m', { moved with data := m.allocated })

def addAtStart (m : BufferMemory) (b : Buffer) (start : Nat) :
    Except BufferFailure (BufferMemory × Buffer × Bool) := do
  let d ← m.load b.data
  if start ≤ b.start ∧ ¬(1 < d.count ∧ d.dirtyStart < b.start) then
    if d.count = 1 ∨ b.start = d.dirtyStart then
      let newStart := Word32.sub b.start start
      .ok (m.store b.data { d with dirtyStart := newStart },
        { b with start := newStart }.noteZeroArea, decide (d.dirtyStart < newStart))
    else .error .assertion
  else do
    let far := b.shift (Word32.sub start b.start)
    let moved := { far with start := Word32.sub far.start start }
    let done ← b.reallocate garbage m d (Word32.add b.getInternalSize start) start moved
    .ok (done.1, done.2.noteZeroArea, true)

def addAtEnd (m : BufferMemory) (b : Buffer) (added : Nat) :
    Except BufferFailure (BufferMemory × Buffer × Bool) := do
  let d ← m.load b.data
  if Word32.add b.getInternalEnd added ≤ d.size ∧ ¬(1 < d.count ∧ b.finish < d.dirtyEnd) then
    if d.count = 1 ∨ b.finish = d.dirtyEnd then
      let newEnd := Word32.add b.finish added
      .ok (m.store b.data { d with dirtyEnd := newEnd },
        { b with finish := newEnd }.noteZeroArea, decide (newEnd < newEnd))
    else .error .assertion
  else do
    let near := b.shift (Word32.sub 0 b.start)
    let moved := { near with finish := Word32.add near.finish added }
    let done ← b.reallocate garbage m d (Word32.add b.getInternalSize added) 0 moved
    .ok (done.1, done.2.noteZeroArea, true)

end Allocation

def removeAtStart (b : Buffer) (start : Nat) : Except BufferFailure Buffer :=
  let newStart := Word32.add b.start start
  if newStart ≤ b.zeroAreaStart then .ok { b with start := newStart }.noteZeroArea
  else if newStart ≤ b.zeroAreaEnd then
    let delta := Word32.sub newStart b.zeroAreaStart
    .ok { b with
      start := b.zeroAreaStart
      zeroAreaEnd := Word32.sub b.zeroAreaEnd delta
      finish := Word32.sub b.finish delta }.noteZeroArea
  else if newStart ≤ b.finish then
    if start ≤ b.finish then
      let zeroSize := Word32.sub b.zeroAreaEnd b.zeroAreaStart
      let left := Word32.sub newStart zeroSize
      .ok { b with
        start := left
        finish := Word32.sub b.finish zeroSize
        zeroAreaStart := left
        zeroAreaEnd := left }.noteZeroArea
    else .error .assertion
  else
    let left := Word32.sub b.finish (Word32.sub b.zeroAreaEnd b.zeroAreaStart)
    .ok { b with
      start := left
      finish := left
      zeroAreaStart := left
      zeroAreaEnd := left }.noteZeroArea

/-- `RemoveAtEnd` once it knows the new end. -/
def cutAt (b : Buffer) (newEnd : Nat) : Buffer :=
  if b.zeroAreaEnd < newEnd then { b with finish := newEnd }.noteZeroArea
  else if b.zeroAreaStart < newEnd then
    { b with finish := newEnd, zeroAreaEnd := newEnd }.noteZeroArea
  else if b.start < newEnd then
    { b with finish := newEnd, zeroAreaEnd := newEnd, zeroAreaStart := newEnd }.noteZeroArea
  else
    { b with finish := b.start, zeroAreaEnd := b.start, zeroAreaStart := b.start }.noteZeroArea

def removeAtEnd (b : Buffer) (removed : Nat) : Buffer :=
  b.cutAt (Word32.sub b.finish (min removed (Word32.sub b.finish b.start)))

def copyData (m : BufferMemory) (b : Buffer) (size : Nat) :
    Except BufferFailure (List UInt8) := do
  let d ← m.load b.data
  let first := min (Word32.sub b.zeroAreaStart b.start) size
  let front ← d.copyOut b.start first
  let second := min (Word32.sub b.zeroAreaEnd b.zeroAreaStart) (size - first)
  let third := min (Word32.sub b.finish b.zeroAreaEnd) (size - first - second)
  let back ← d.copyOut b.zeroAreaStart third
  .ok (front ++ (List.replicate second 0 ++ back))

end Buffer

/-- `Buffer::Iterator`. -/
structure BufferIterator where
  zeroStart : Nat
  zeroEnd : Nat
  dataStart : Nat
  dataEnd : Nat
  current : Nat
  data : Nat

namespace BufferIterator

def construct (b : Buffer) (current : Nat) : BufferIterator :=
  ⟨b.zeroAreaStart, b.zeroAreaEnd, b.start, b.finish, current, b.data⟩

def check (it : BufferIterator) (i : Nat) : Bool :=
  decide (it.dataStart ≤ i) && !(decide (it.zeroStart ≤ i) && decide (i < it.zeroEnd)) &&
    decide (i ≤ it.dataEnd)

def checkNoZero (it : BufferIterator) (start stop : Nat) : Bool :=
  (List.range' start (stop - start)).all it.check

/-- Where the byte at `current` is kept: bytes behind the zeros follow those before them. -/
def beyond (it : BufferIterator) : Nat :=
  Word32.sub it.current (Word32.sub it.zeroEnd it.zeroStart)

def prev (it : BufferIterator) (delta : Nat) : Except BufferFailure BufferIterator :=
  if delta ≤ it.current then .ok { it with current := it.current - delta } else .error .assertion

def put (m : BufferMemory) (it : BufferIterator) (offset : Nat) (piece : List UInt8) :
    Except BufferFailure (BufferMemory × BufferIterator) := do
  let d ← m.load it.data
  let written ← d.copyIn offset piece
  .ok (m.store it.data written, { it with current := Word32.add it.current piece.length })

def writeU8 (m : BufferMemory) (it : BufferIterator) (byte : UInt8) :
    Except BufferFailure (BufferMemory × BufferIterator) :=
  if it.check it.current then
    put m it (if it.current < it.zeroStart then it.current else it.beyond) [byte]
  else .error .assertion

/-- `WriteU8` of one byte `len` times. -/
def fill (m : BufferMemory) (it : BufferIterator) (byte : UInt8) (len : Nat) :
    Except BufferFailure (BufferMemory × BufferIterator) :=
  if it.checkNoZero it.current (it.current + len) then
    put m it (if it.current ≤ it.zeroStart then it.current else it.beyond)
      (List.replicate len byte)
  else .error .assertion

def write (m : BufferMemory) (it : BufferIterator) (piece : List UInt8) :
    Except BufferFailure (BufferMemory × BufferIterator) :=
  if it.checkNoZero it.current piece.length then
    put m it (if it.current ≤ it.zeroStart then it.current else it.beyond) piece
  else .error .assertion

def writeAll (m : BufferMemory) (it : BufferIterator) :
    List UInt8 → Except BufferFailure BufferMemory
  | [] => .ok m
  | byte :: rest => do
      let next ← writeU8 m it byte
      writeAll next.1 next.2 rest

end BufferIterator

end Floodgate
