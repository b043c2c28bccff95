import Floodgate.BufferOffsets
import Floodgate.Library.LabelledRun
import Floodgate.Library.RefCount

/-! Many buffers over the same memory: each of them is a byte string of its own. -/

namespace Floodgate

open Outcome SharedArray RefCount LabelledRun

structure BufferHeap where
  memory : BufferMemory
  live : List Nat
  buffer : Nat → Buffer

inductive BufferCall where
  | create (h zeroSize : Nat)
  | copy (h o : Nat)
  | assign (h o : Nat)
  | destroy (h : Nat)
  | addAtStart (h : Nat) (bytes : List UInt8)
  | addAtEnd (h : Nat) (bytes : List UInt8)
  | removeAtStart (h n : Nat)
  | removeAtEnd (h n : Nat)
  | createFragment (h o start length : Nat)
  | peekData (h : Nat)
  | copyData (h size : Nat)
  deriving DecidableEq

abbrev ByteStrings := Nat → Option (List UInt8)

namespace ByteStrings

variable (s : ByteStrings)

/-- What a call means where every buffer has bytes of its own: the answer, and the strings. -/
def call : BufferCall → List UInt8 × ByteStrings
  | .create h zeroSize => ([], Function.update s h (some (List.replicate zeroSize 0)))
  | .copy h o | .assign h o => ([], Function.update s h (s o))
  | .destroy h => ([], Function.update s h none)
  | .addAtStart h bytes => ([], Function.update s h ((s h).map fun x => bytes ++ x))
  | .addAtEnd h bytes => ([], Function.update s h ((s h).map fun x => x ++ bytes))
  | .removeAtStart h n => ([], Function.update s h ((s h).map fun x => x.drop n))
  | .removeAtEnd h n => ([], Function.update s h ((s h).map fun x => x.take (x.length - n)))
  | .createFragment h o start length =>
      ([], Function.update s h ((s o).map fun x => (x.drop start).take length))
  | .peekData h => ((s h).getD [], s)
  | .copyData h size => (((s h).getD []).take size, s)

/-- What the callers promise. Half of the 32-bit range is the most that a buffer may hold. -/
def Legal : BufferCall → Prop
  | .create h zeroSize => s h = none ∧ zeroSize < 2147483648
  | .copy h o => s h = none ∧ (s o).isSome
  | .assign h o => (s h).isSome ∧ (s o).isSome
  | .destroy h | .peekData h | .copyData h _ | .removeAtEnd h _ => (s h).isSome
  | .addAtStart h bytes | .addAtEnd h bytes => ∃ x ∈ s h, x.length + bytes.length < 2147483648
  | .removeAtStart h n => (s h).isSome ∧ n < 2147483648
  | .createFragment h o start length =>
      s h = none ∧ ∃ x ∈ s o, start + length ≤ x.length

theorem call_names (c : BufferCall) :
    ∃ h, ∀ g, ((s.call c).2 g).isSome → g = h ∨ (s g).isSome := by
  have updated : ∀ (h : Nat) (x : Option (List UInt8)) (g : Nat),
      (Function.update s h x g).isSome → g = h ∨ (s g).isSome := by
    intro h x g some
    by_cases same : g = h
    · exact .inl same
    · rw [Function.update_of_ne same] at some
      exact .inr some
  cases c with
  | peekData h | copyData h size => exact ⟨h, fun g some => .inr some⟩
  | create h _ | copy h _ | assign h _ | destroy h | addAtStart h _ | addAtEnd h _
  | removeAtStart h _ | removeAtEnd h _ | createFragment h _ _ _ => exact ⟨h, updated h _⟩

def Step (s : ByteStrings) (label : BufferCall × List UInt8) (next : ByteStrings) : Prop :=
  s.Legal label.1 ∧ s.call label.1 = (label.2, next)

end ByteStrings

namespace BufferHeap

def init : BufferHeap := ⟨.init, [], fun _ => ⟨0, 0, 0, 0, 0, 0⟩⟩

def set (heap : BufferHeap) (h : Nat) (m : BufferMemory) (b : Buffer) : BufferHeap :=
  { heap with memory := m, buffer := Function.update heap.buffer h b }

def enter (heap : BufferHeap) (h : Nat) (m : BufferMemory) (b : Buffer) : BufferHeap :=
  { heap.set h m b with live := h :: heap.live }

def fresh (heap : BufferHeap) : Nat := heap.live.foldr (fun h n => max (h + 1) n) 0

section Calls

variable (garbage : Nat → Nat → UInt8) (heap : BufferHeap)

def create (h zeroSize : Nat) : BufferHeap :=
  let made := Buffer.initialise garbage heap.memory zeroSize
  heap.enter h made.1 made.2

def copy (h o : Nat) : Except BufferFailure BufferHeap := do
  let made ← Buffer.copy heap.memory (heap.buffer o)
  .ok (heap.enter h made.1 made.2)

def assign (h o : Nat) : Except BufferFailure BufferHeap := do
  let made ← Buffer.assign heap.memory (heap.buffer h) (heap.buffer o)
  .ok (heap.set h made.1 made.2)

def destroy (h : Nat) : Except BufferFailure BufferHeap := do
  let m ← Buffer.destroy heap.memory (heap.buffer h)
  .ok { heap with memory := m, live := heap.live.erase h }

def growStart (h n : Nat) : Except BufferFailure BufferHeap := do
  let grown ← (heap.buffer h).addAtStart garbage heap.memory n
  .ok (heap.set h grown.1 grown.2.1)

def growEnd (h n : Nat) : Except BufferFailure BufferHeap := do
  let grown ← (heap.buffer h).addAtEnd garbage heap.memory n
  .ok (heap.set h grown.1 grown.2.1)

/-- `AddHeader`: room for the header, which is written from the start on. -/
def addAtStart (h : Nat) (bytes : List UInt8) : Except BufferFailure BufferHeap := do
  let heap ← heap.growStart garbage h bytes.length
  let b := heap.buffer h
  let m ← BufferIterator.writeAll heap.memory (.construct b b.start) bytes
  .ok { heap with memory := m }

/-- `AddTrailer`: the trailer goes back from the end by its size. -/
def addAtEnd (h : Nat) (bytes : List UInt8) : Except BufferFailure BufferHeap := do
  let heap ← heap.growEnd garbage h bytes.length
  let b := heap.buffer h
  let it ← (BufferIterator.construct b b.finish).prev bytes.length
  let m ← BufferIterator.writeAll heap.memory it bytes
  .ok { heap with memory := m }

def removeAtStart (h n : Nat) : Except BufferFailure BufferHeap := do
  let b ← (heap.buffer h).removeAtStart n
  .ok (heap.set h heap.memory b)

def removeAtEnd (h n : Nat) : BufferHeap :=
  heap.set h heap.memory ((heap.buffer h).removeAtEnd n)

def createFragment (h o start length : Nat) : Except BufferFailure BufferHeap := do
  let size := (heap.buffer o).getSize
  let heap ← heap.copy h o
  let heap ← heap.removeAtStart h start
  .ok (heap.removeAtEnd h (Word32.sub size (Word32.add start length)))

/-- `CreateFullCopy`: zeros become bytes. -/
def createFullCopy (h o : Nat) : Except BufferFailure BufferHeap := do
  let b := heap.buffer o
  let zeroSize := Word32.sub b.zeroAreaEnd b.zeroAreaStart
  if zeroSize ≠ 0 then do
    let heap := heap.create garbage h 0
    let heap ← heap.growStart garbage h zeroSize
    let it := BufferIterator.construct (heap.buffer h) (heap.buffer h).start
    let done ← BufferIterator.fill heap.memory it 0 zeroSize
    let heap := { heap with memory := done.1 }
    let dataStart := Word32.sub b.zeroAreaStart b.start
    let heap ← heap.growStart garbage h dataStart
    let d ← heap.memory.load b.data
    let front ← d.copyOut b.start dataStart
    let it := BufferIterator.construct (heap.buffer h) (heap.buffer h).start
    let done ← BufferIterator.write heap.memory it front
    let heap := { heap with memory := done.1 }
    let dataEnd := Word32.sub b.finish b.zeroAreaEnd
    let heap ← heap.growEnd garbage h dataEnd
    let it ← (BufferIterator.construct (heap.buffer h) (heap.buffer h).finish).prev dataEnd
    let d ← heap.memory.load b.data
    let back ← d.copyOut b.zeroAreaStart dataEnd
    let done ← BufferIterator.write heap.memory it back
    .ok { heap with memory := done.1 }
  else heap.copy h o

/-- `PeekData` with `TransformIntoRealBuffer`: all bytes are in memory, one after another. -/
def peekData (h : Nat) : Except BufferFailure (List UInt8 × BufferHeap) := do
  let tmp := heap.fresh
  let heap ← heap.createFullCopy garbage tmp h
  let heap ← heap.assign h tmp
  let heap ← heap.destroy tmp
  let b := heap.buffer h
  let d ← heap.memory.load b.data
  let bytes ← d.copyOut b.start b.getSize
  .ok (bytes, heap)

def call : BufferCall → Except BufferFailure (List UInt8 × BufferHeap)
  | .create h zeroSize => .ok ([], heap.create garbage h zeroSize)
  | .copy h o => do .ok ([], ← heap.copy h o)
  | .assign h o => do .ok ([], ← heap.assign h o)
  | .destroy h => do .ok ([], ← heap.destroy h)
  | .addAtStart h bytes => do .ok ([], ← heap.addAtStart garbage h bytes)
  | .addAtEnd h bytes => do .ok ([], ← heap.addAtEnd garbage h bytes)
  | .removeAtStart h n => do .ok ([], ← heap.removeAtStart h n)
  | .removeAtEnd h n => .ok ([], heap.removeAtEnd h n)
  | .createFragment h o start length => do .ok ([], ← heap.createFragment h o start length)
  | .peekData h => heap.peekData garbage h
  | .copyData h size => do .ok (← (heap.buffer h).copyData heap.memory size, heap)

end Calls

def bytesAt (m : BufferMemory) (a : Nat) : List UInt8 := ((m.datas a).map BufferData.bytes).getD []

def content (heap : BufferHeap) (h : Nat) : List UInt8 :=
  (heap.buffer h).contents (bytesAt heap.memory (heap.buffer h).data)

def strings (heap : BufferHeap) : ByteStrings :=
  fun h => if h ∈ heap.live then some (heap.content h) else none

/-- References are counted in 32 bits. -/
def Legal (heap : BufferHeap) (c : BufferCall) : Prop :=
  heap.live.length + 2 < Word32.size ∧ heap.strings.Legal c

def Step (garbage : Nat → Nat → UInt8) (heap : BufferHeap) (label : BufferCall × List UInt8)
    (next : BufferHeap) : Prop :=
  heap.Legal label.1 ∧ heap.call garbage label.1 = .ok (label.2, next)

section Invariant

/-- No buffer's bytes go beyond those of a buffer that ends with the dirty area. `z` is the number
of zeros of the buffers that do. -/
def EndsBelow (b : Buffer) (z dirtyEnd : Nat) : Prop :=
  b.zeroAreaEnd - b.zeroAreaStart ≤ z ∧
    b.finish - (b.zeroAreaEnd - b.zeroAreaStart) + z ≤ dirtyEnd

abbrev home (heap : BufferHeap) (h : Nat) : Nat := (heap.buffer h).data

structure Good (heap : BufferHeap) : Prop where
  nodup : heap.live.Nodup
  held : ∀ h ∈ heap.live, ∃ d, heap.memory.datas (heap.home h) = some d ∧ (heap.buffer h).Fits d
  counted : ∀ a d, heap.memory.datas a = some d → d.count = refs heap.live heap.home a
  used : ∀ a d, heap.memory.datas a = some d → 0 < d.count
  placed : ∀ a d, heap.memory.datas a = some d → a < heap.memory.allocated
  ended : ∀ a d, heap.memory.datas a = some d →
    ∃ z, ∀ h ∈ heap.live, heap.home h = a → EndsBelow (heap.buffer h) z d.dirtyEnd

variable {heap next : BufferHeap} {h o : Nat} {b : Buffer} {d : BufferData}

theorem Good.fits (good : heap.Good) (member : h ∈ heap.live)
    (held : heap.memory.datas (heap.home h) = some d) : (heap.buffer h).Fits d := by
  obtain ⟨d', held', fits⟩ := good.held h member
  rw [held] at held'
  cases held'
  exact fits

theorem init_good : init.Good := by
  have empty : ∀ a d, init.memory.datas a ≠ some d := fun a d found => by cases found
  exact ⟨List.nodup_nil, fun h member => absurd member List.not_mem_nil,
    fun a d found => absurd found (empty a d), fun a d found => absurd found (empty a d),
    fun a d found => absurd found (empty a d), fun a d found => absurd found (empty a d)⟩

theorem bytesAt_eq {m : BufferMemory} {a : Nat} (held : m.datas a = some d) :
    bytesAt m a = d.bytes := by
  rw [bytesAt, held]
  rfl

theorem bytesAt_congr {m m' : BufferMemory} {a : Nat} (same : m.datas a = m'.datas a) :
    bytesAt m a = bytesAt m' a := by
  rw [bytesAt, bytesAt, same]

theorem strings_of_mem (member : h ∈ heap.live) : heap.strings h = some (heap.content h) :=
  if_pos member

theorem strings_isSome : (heap.strings h).isSome ↔ h ∈ heap.live := by
  unfold strings
  split_ifs with member <;> simp [member]

theorem strings_eq_none : heap.strings h = none ↔ h ∉ heap.live := by
  unfold strings
  split_ifs with member <;> simp [member]

theorem home_update (h : Nat) (b : Buffer) :
    (fun g => (Function.update heap.buffer h b g).data) = Function.update heap.home h b.data := by
  funext g
  by_cases same : g = h
  · subst same
    rw [Function.update_self, Function.update_self]
  · rw [Function.update_of_ne same, Function.update_of_ne same]

theorem enter_self (heap : BufferHeap) (h : Nat) (m : BufferMemory) (b : Buffer) :
    (heap.enter h m b).buffer h = b := Function.update_self ..

theorem enter_other (unused : h ∉ heap.live) {g : Nat} (member : g ∈ heap.live)
    (m : BufferMemory) (b : Buffer) : (heap.enter h m b).buffer g = heap.buffer g := by
  apply Function.update_of_ne
  intro same
  exact unused (same ▸ member)

theorem enter_home_self (heap : BufferHeap) (h : Nat) (m : BufferMemory) (b : Buffer) :
    (heap.enter h m b).home h = b.data :=
  congrArg Buffer.data (enter_self heap h m b)

theorem enter_home_other (unused : h ∉ heap.live) {g : Nat} (member : g ∈ heap.live)
    (m : BufferMemory) (b : Buffer) : (heap.enter h m b).home g = heap.home g :=
  congrArg Buffer.data (enter_other unused member m b)

theorem Good.release (good : heap.Good) (member : h ∈ heap.live) :
    ∃ m', heap.memory.release (heap.home h) = .ok m' ∧
      m'.allocated = heap.memory.allocated ∧
      Good { heap with memory := m', live := heap.live.erase h } ∧
      ∀ g ∈ heap.live.erase h, bytesAt m' (heap.home g) = bytesAt heap.memory (heap.home g) := by
  obtain ⟨d, held, -⟩ := good.held h member
  have counted := good.counted _ d held
  have nodup := good.nodup.erase h
  have rest : ∀ g ∈ heap.live.erase h, g ∈ heap.live := fun g => List.mem_of_mem_erase
  have dropped : ∀ a, refs (heap.live.erase h) heap.home a + (if heap.home h = a then 1 else 0) =
      refs heap.live heap.home a := fun a => refs_drop member a
  have own := dropped (heap.home h)
  rw [if_pos rfl] at own
  unfold BufferMemory.release
  rw [BufferMemory.load_eq held, ok_bind]
  by_cases last : d.count - 1 = 0
  · rw [if_pos last]
    have gone : ∀ g ∈ heap.live.erase h, heap.home g ≠ heap.home h := by
      intro g kept same
      have some : 0 < refs (heap.live.erase h) heap.home (heap.home g) := refs_pos kept
      rw [same] at some
      omega
    have same : ∀ a d', Function.update heap.memory.datas (heap.home h) none a = some d' →
        a ≠ heap.home h ∧ heap.memory.datas a = some d' := by
      intro a d' found
      by_cases here : a = heap.home h
      · rw [here, Function.update_self] at found
        cases found
      · exact ⟨here, by rwa [Function.update_of_ne here] at found⟩
    refine ⟨_, rfl, rfl, ⟨nodup, ?_, ?_, ?_, ?_, ?_⟩, ?_⟩
    · intro g kept
      obtain ⟨d', found, fits⟩ := good.held g (rest g kept)
      exact ⟨d', by rw [← found]; exact Function.update_of_ne (gone g kept) .., fits⟩
    · intro a d' found
      obtain ⟨elsewhere, found⟩ := same a d' found
      have count := dropped a
      rw [if_neg fun here => elsewhere here.symm] at count
      rw [good.counted a d' found]
      exact count.symm
    · exact fun a d' found => good.used a d' (same a d' found).2
    · exact fun a d' found => good.placed a d' (same a d' found).2
    · intro a d' found
      obtain ⟨z, below⟩ := good.ended a d' (same a d' found).2
      exact ⟨z, fun g kept => below g (rest g kept)⟩
    · intro g kept
      exact bytesAt_congr (Function.update_of_ne (gone g kept) ..)
  · rw [if_neg last]
    have same : ∀ a d', Function.update heap.memory.datas (heap.home h)
        (some { d with count := d.count - 1 }) a = some d' →
        ∃ d'', heap.memory.datas a = some d'' ∧ d'.dirtyEnd = d''.dirtyEnd ∧
          d'.count + (if heap.home h = a then 1 else 0) = d''.count ∧ 0 < d'.count := by
      intro a d' found
      by_cases here : a = heap.home h
      · rw [here, Function.update_self] at found
        cases found
        exact ⟨d, here ▸ held, rfl, by rw [if_pos here.symm]; show d.count - 1 + 1 = _; omega,
          by show 0 < d.count - 1; omega⟩
      · rw [Function.update_of_ne here] at found
        exact ⟨d', found, rfl, by rw [if_neg fun there => here there.symm]; rfl,
          good.used a d' found⟩
    refine ⟨_, rfl, rfl, ⟨nodup, ?_, ?_, ?_, ?_, ?_⟩, ?_⟩
    · intro g kept
      obtain ⟨d', found, fits⟩ := good.held g (rest g kept)
      by_cases here : heap.home g = heap.home h
      · rw [here, held] at found
        cases found
        exact ⟨{ d with count := d.count - 1 }, by
          show Function.update _ _ _ (heap.home g) = _
          rw [here, Function.update_self], fits.rewritten rfl rfl rfl⟩
      · exact ⟨d', by rw [← found]; exact Function.update_of_ne here .., fits⟩
    · intro a d' found
      obtain ⟨d'', old, -, count, -⟩ := same a d' found
      have total := dropped a
      rw [good.counted a d'' old] at count
      show d'.count = refs (heap.live.erase h) heap.home a
      omega
    · intro a d' found
      obtain ⟨d'', old, -, -, pos⟩ := same a d' found
      exact pos
    · intro a d' found
      obtain ⟨d'', old, -⟩ := same a d' found
      exact good.placed a d'' old
    · intro a d' found
      obtain ⟨d'', old, dirty, -⟩ := same a d' found
      obtain ⟨z, below⟩ := good.ended a d'' old
      exact ⟨z, fun g kept at' => dirty ▸ below g (rest g kept) at'⟩
    · intro g kept
      by_cases here : heap.home g = heap.home h
      · rw [here, bytesAt_eq held]
        exact bytesAt_eq (d := { d with count := d.count - 1 }) (Function.update_self ..)
      · exact bytesAt_congr (Function.update_of_ne here ..)

theorem Good.keep (good : heap.Good) (unused : h ∉ heap.live)
    (own : b.data = heap.memory.allocated) (one : d.count = 1) (fits : b.Fits d) :
    Good (heap.enter h (heap.memory.keep d) b) := by
  have below : ∀ g ∈ heap.live, heap.home g ≠ heap.memory.allocated := by
    intro g member
    obtain ⟨d', found, -⟩ := good.held g member
    exact Nat.ne_of_lt (good.placed _ _ found)
  have homes : (heap.enter h (heap.memory.keep d) b).home = Function.update heap.home h b.data :=
    home_update h b
  have others : ∀ g ∈ heap.live, (heap.enter h (heap.memory.keep d) b).buffer g = heap.buffer g :=
    fun g member => enter_other unused member _ _
  have self := enter_self heap h (heap.memory.keep d) b
  have found : ∀ a d', (heap.memory.keep d).datas a = some d' →
      (a = heap.memory.allocated ∧ d' = d) ∨
        (a ≠ heap.memory.allocated ∧ heap.memory.datas a = some d') := by
    intro a d' found
    by_cases here : a = heap.memory.allocated
    · subst here
      rw [BufferMemory.keep_datas, Function.update_self] at found
      exact .inl ⟨rfl, (Option.some.inj found).symm⟩
    · exact .inr ⟨here, by rwa [BufferMemory.keep_datas,
        Function.update_of_ne here] at found⟩
  have none : refs heap.live heap.home heap.memory.allocated = 0 :=
    List.countP_eq_zero.mpr fun g member => by
      rw [decide_eq_true_eq]
      exact below g member
  refine ⟨List.nodup_cons.mpr ⟨unused, good.nodup⟩, ?_, ?_, ?_, ?_, ?_⟩
  · intro g member
    rcases List.mem_cons.mp member with same | member
    · subst same
      refine ⟨d, ?_, by rw [self]; exact fits⟩
      rw [enter_home_self, own]
      exact Function.update_self ..
    · obtain ⟨d', old, fits'⟩ := good.held g member
      refine ⟨d', ?_, by rw [others g member]; exact fits'⟩
      rw [enter_home_other unused member, ← old]
      exact Function.update_of_ne (below g member) ..
  · intro a d' place
    rw [homes]
    show d'.count = refs (h :: heap.live) _ a
    rw [refs_new unused]
    rcases found a d' place with ⟨here, same⟩ | ⟨elsewhere, old⟩
    · rw [here, same, own, if_pos rfl, none, one]
    · rw [own, if_neg fun here => elsewhere here.symm, good.counted a d' old, Nat.add_zero]
  · intro a d' place
    rcases found a d' place with ⟨-, same⟩ | ⟨-, old⟩
    · rw [same, one]
      exact Nat.one_pos
    · exact good.used a d' old
  · intro a d' place
    rcases found a d' place with ⟨here, -⟩ | ⟨-, old⟩
    · rw [here]
      exact Nat.lt_succ_self _
    · exact Nat.lt_succ_of_lt (good.placed a d' old)
  · intro a d' place
    rcases found a d' place with ⟨here, same⟩ | ⟨elsewhere, old⟩
    · refine ⟨b.zeroAreaEnd - b.zeroAreaStart, ?_⟩
      intro g member at'
      rcases List.mem_cons.mp member with is | member
      · subst is
        have zeros := fits.zeros
        have back := fits.back
        have dirty := fits.dirtyBack
        rw [self, same]
        exact ⟨Nat.le_refl _, by omega⟩
      · rw [enter_home_other unused member, here] at at'
        exact absurd at' (below g member)
    · obtain ⟨z, ends⟩ := good.ended a d' old
      refine ⟨z, ?_⟩
      intro g member at'
      rcases List.mem_cons.mp member with is | member
      · subst is
        rw [enter_home_self, own] at at'
        exact absurd at'.symm elsewhere
      · rw [enter_home_other unused member] at at'
        rw [others g member]
        exact ends g member at'

theorem Good.retain (good : heap.Good) (unused : h ∉ heap.live) (member : o ∈ heap.live)
    (few : heap.live.length + 1 < Word32.size) (within : b.Within (heap.buffer o))
    (fits : ∀ d, (heap.buffer o).Fits d → b.Fits d) :
    ∃ m', heap.memory.retain (heap.home o) = .ok m' ∧ m'.allocated = heap.memory.allocated ∧
      Good (heap.enter h m' b) ∧ ∀ a, bytesAt m' a = bytesAt heap.memory a := by
  obtain ⟨d, held, whole⟩ := good.held o member
  have counted := good.counted _ d held
  have most : refs heap.live heap.home (heap.home o) ≤ heap.live.length := List.countP_le_length
  have more : Word32.add d.count 1 = d.count + 1 := by
    apply Word32.add_eq
    omega
  unfold BufferMemory.retain
  rw [BufferMemory.load_eq held, ok_bind, more]
  generalize raised : ({ d with count := d.count + 1 } : BufferData) = d'
  have self := enter_self heap h (heap.memory.store (heap.home o) d') b
  have others : ∀ g ∈ heap.live,
      (heap.enter h (heap.memory.store (heap.home o) d') b).buffer g = heap.buffer g :=
    fun g live => enter_other unused live _ _
  have homes : (heap.enter h (heap.memory.store (heap.home o) d') b).home =
      Function.update heap.home h b.data := home_update h b
  have found : ∀ a e, (heap.memory.store (heap.home o) d').datas a = some e →
      ∃ e', heap.memory.datas a = some e' ∧ e.dirtyEnd = e'.dirtyEnd ∧
        e.count = e'.count + if b.data = a then 1 else 0 := by
    intro a e place
    have own : b.data = heap.home o := within.data
    by_cases here : a = heap.home o
    · rw [here, BufferMemory.store_datas, Function.update_self] at place
      cases place
      rw [← raised]
      exact ⟨d, here ▸ held, rfl, by rw [if_pos (own.trans here.symm)]⟩
    · rw [BufferMemory.store_datas, Function.update_of_ne here] at place
      exact ⟨e, place, rfl, by rw [if_neg fun there => here (there.symm.trans own), Nat.add_zero]⟩
  have kept : ∀ g, heap.home g = heap.home o → d'.bytes = d.bytes ∧
      ∀ c : Buffer, c.Fits d → c.Fits d' := by
    intro g _
    rw [← raised]
    exact ⟨rfl, fun c fits => fits.rewritten rfl rfl rfl⟩
  refine ⟨_, rfl, rfl, ⟨List.nodup_cons.mpr ⟨unused, good.nodup⟩, ?_, ?_, ?_, ?_, ?_⟩, ?_⟩
  · intro g live
    rcases List.mem_cons.mp live with same | live
    · subst same
      refine ⟨d', ?_, ?_⟩
      · rw [enter_home_self, within.data]
        exact Function.update_self ..
      · rw [self]
        exact (kept o rfl).2 b (fits d whole)
    · obtain ⟨e, old, fits'⟩ := good.held g live
      rw [enter_home_other unused live, others g live]
      by_cases here : heap.home g = heap.home o
      · refine ⟨d', ?_, ?_⟩
        · show (heap.memory.store (heap.home o) d').datas (heap.home g) = some d'
          rw [here]
          exact Function.update_self ..
        · exact (kept g here).2 _ (good.fits live (here ▸ held))
      · exact ⟨e, by rw [← old]; exact Function.update_of_ne here .., fits'⟩
  · intro a e place
    obtain ⟨e', old, -, count⟩ := found a e place
    rw [homes]
    show e.count = refs (h :: heap.live) _ a
    rw [refs_new unused, count, good.counted a e' old]
  · intro a e place
    obtain ⟨e', old, -, count⟩ := found a e place
    have pos := good.used a e' old
    omega
  · intro a e place
    obtain ⟨e', old, -⟩ := found a e place
    exact good.placed a e' old
  · intro a e place
    obtain ⟨e', old, dirty, -⟩ := found a e place
    obtain ⟨z, ends⟩ := good.ended a e' old
    refine ⟨z, ?_⟩
    intro g live at'
    rw [dirty]
    rcases List.mem_cons.mp live with same | live
    · subst same
      rw [enter_home_self, within.data] at at'
      obtain ⟨zeros, back⟩ := ends o member at'
      rw [self]
      exact ⟨Nat.le_trans within.zeros zeros, Nat.le_trans
        (Nat.add_le_add_right within.back z) back⟩
    · rw [enter_home_other unused live] at at'
      rw [others g live]
      exact ends g live at'
  · intro a
    by_cases here : a = heap.home o
    · rw [here, bytesAt_eq held, bytesAt_eq (d := d') (Function.update_self ..)]
      exact (kept o rfl).1
    · exact bytesAt_congr (Function.update_of_ne here ..)

theorem set_self (heap : BufferHeap) (h : Nat) (m : BufferMemory) (b : Buffer) :
    (heap.set h m b).buffer h = b := Function.update_self ..

theorem set_other {g : Nat} (differs : g ≠ h) (m : BufferMemory) (b : Buffer) :
    (heap.set h m b).buffer g = heap.buffer g := Function.update_of_ne differs ..

theorem set_home_self (heap : BufferHeap) (h : Nat) (m : BufferMemory) (b : Buffer) :
    (heap.set h m b).home h = b.data :=
  congrArg Buffer.data (set_self heap h m b)

theorem set_home (same : b.data = heap.home h) (m : BufferMemory) :
    (heap.set h m b).home = heap.home := by
  have homes : (heap.set h m b).home = Function.update heap.home h b.data := home_update h b
  rw [homes, same, Function.update_eq_self]

theorem Good.edit (good : heap.Good)
    (held : heap.memory.datas (heap.home h) = some d) {d' : BufferData} (count : d'.count = d.count)
    (same : b.data = heap.home h) (fits : b.Fits d')
    (others : ∀ g ∈ heap.live, g ≠ h → heap.home g = heap.home h → (heap.buffer g).Fits d')
    (ended : ∃ z, EndsBelow b z d'.dirtyEnd ∧ ∀ g ∈ heap.live, g ≠ h → heap.home g = heap.home h →
      EndsBelow (heap.buffer g) z d'.dirtyEnd) :
    Good (heap.set h (heap.memory.store (heap.home h) d') b) := by
  have homes := set_home same (heap.memory.store (heap.home h) d')
  have found : ∀ a e, (heap.memory.store (heap.home h) d').datas a = some e →
      (a = heap.home h ∧ e = d') ∨ (a ≠ heap.home h ∧ heap.memory.datas a = some e) := by
    intro a e place
    by_cases here : a = heap.home h
    · rw [here, BufferMemory.store_datas, Function.update_self] at place
      exact .inl ⟨here, (Option.some.inj place).symm⟩
    · rw [BufferMemory.store_datas, Function.update_of_ne here] at place
      exact .inr ⟨here, place⟩
  refine ⟨good.nodup, ?_, ?_, ?_, ?_, ?_⟩
  · intro g live
    rw [homes]
    by_cases own : g = h
    · rw [own, set_self]
      exact ⟨d', Function.update_self .., fits⟩
    rw [set_other own]
    obtain ⟨e, old, fits'⟩ := good.held g live
    by_cases here : heap.home g = heap.home h
    · exact ⟨d', by rw [here]; exact Function.update_self .., others g live own here⟩
    · exact ⟨e, by rw [← old]; exact Function.update_of_ne here .., fits'⟩
  · intro a e place
    rw [homes]
    rcases found a e place with ⟨here, is⟩ | ⟨-, old⟩
    · rw [here, is, count]
      exact good.counted _ d held
    · exact good.counted a e old
  · intro a e place
    rcases found a e place with ⟨here, is⟩ | ⟨-, old⟩
    · rw [is, count]
      exact good.used _ d held
    · exact good.used a e old
  · intro a e place
    rcases found a e place with ⟨here, is⟩ | ⟨-, old⟩
    · rw [here]
      exact good.placed _ d held
    · exact good.placed a e old
  · intro a e place
    rcases found a e place with ⟨here, is⟩ | ⟨elsewhere, old⟩
    · obtain ⟨z, own, rest⟩ := ended
      refine ⟨z, ?_⟩
      intro g live at'
      rw [homes, here] at at'
      rw [is]
      by_cases self : g = h
      · rw [self, set_self]
        exact own
      · rw [set_other self]
        exact rest g live self at'
    · obtain ⟨z, ends⟩ := good.ended a e old
      refine ⟨z, ?_⟩
      intro g live at'
      rw [homes] at at'
      have self : g ≠ h := fun is => elsewhere (by rw [← at', is])
      rw [set_other self]
      exact ends g live at'

theorem Good.perm (good : heap.Good) {live : List Nat} (same : heap.live.Perm live) :
    Good { heap with live := live } := by
  have count : ∀ a, refs live heap.home a = refs heap.live heap.home a :=
    fun a => (same.countP_eq _).symm
  exact ⟨same.nodup_iff.mp good.nodup, fun h member => good.held h (same.mem_iff.mpr member),
    fun a d held => (good.counted a d held).trans (count a).symm, good.used, good.placed,
    fun a d held => by
      obtain ⟨z, ends⟩ := good.ended a d held
      exact ⟨z, fun h member => ends h (same.mem_iff.mpr member)⟩⟩

theorem Good.recommend (good : heap.Good) (b : Buffer) :
    Good { heap with memory := heap.memory.recommend b } :=
  ⟨good.nodup, good.held, good.counted, good.used, good.placed, good.ended⟩

theorem strings_update {x : List UInt8} (member : h ∈ next.live) (own : next.content h = x)
    (names : ∀ g, g ≠ h → (g ∈ next.live ↔ g ∈ heap.live))
    (others : ∀ g ∈ heap.live, g ≠ h → next.content g = heap.content g) :
    next.strings = Function.update heap.strings h (some x) := by
  funext g
  by_cases same : g = h
  · rw [same, Function.update_self, strings_of_mem member, own]
  · rw [Function.update_of_ne same]
    unfold strings
    by_cases live : g ∈ heap.live
    · rw [if_pos live, if_pos ((names g same).mpr live), others g live same]
    · rw [if_neg live, if_neg fun still => live ((names g same).mp still)]

/-- Nobody else reads from `lo` to `hi` of the data of `h`. -/
def Owns (heap : BufferHeap) (h lo hi : Nat) : Prop :=
  ∀ g ∈ heap.live, g ≠ h → heap.home g = heap.home h →
    (heap.buffer g).finish - ((heap.buffer g).zeroAreaEnd - (heap.buffer g).zeroAreaStart) ≤ lo ∨
      hi ≤ (heap.buffer g).start

/-- Between two heaps only the buffer `h` changes. -/
structure Alters (heap next : BufferHeap) (h : Nat) : Prop where
  names : ∀ g, g ≠ h → (g ∈ next.live ↔ g ∈ heap.live)
  buffers : ∀ g ∈ heap.live, g ≠ h → next.buffer g = heap.buffer g
  contents : ∀ g ∈ heap.live, g ≠ h → next.content g = heap.content g

theorem Alters.strings (alters : heap.Alters next h) (member : h ∈ next.live) {x : List UInt8}
    (own : next.content h = x) : next.strings = Function.update heap.strings h (some x) :=
  strings_update member own alters.names alters.contents

theorem Alters.trans {last : BufferHeap} (first : heap.Alters next h)
    (second : next.Alters last h) : heap.Alters last h where
  names g differs := (second.names g differs).trans (first.names g differs)
  buffers g member differs := (second.buffers g ((first.names g differs).mpr member) differs).trans
    (first.buffers g member differs)
  contents g member differs :=
    (second.contents g ((first.names g differs).mpr member) differs).trans
      (first.contents g member differs)

theorem set_same (heap : BufferHeap) (h : Nat) (m : BufferMemory) :
    heap.set h m (heap.buffer h) = { heap with memory := m } := by
  rw [set, Function.update_eq_self]

theorem content_eq {m : BufferMemory} (buffer : next.buffer h = b) (memory : next.memory = m)
    (held : m.datas b.data = some d) : next.content h = b.contents d.bytes := by
  rw [content, buffer, memory, bytesAt_eq held]

/-- With one reference there is nobody else, and else the buffer is the outermost one. -/
theorem Good.alone (good : heap.Good) (member : h ∈ heap.live)
    (held : heap.memory.datas (heap.home h) = some d) (single : d.count = 1) {g : Nat}
    (live : g ∈ heap.live) (same : heap.home g = heap.home h) : g = h :=
  refs_sole ((good.counted _ d held).symm.trans single) member live same

abbrev rewritten (heap : BufferHeap) (h : Nat) (d : BufferData) (p : Nat) (piece : List UInt8) :
    BufferHeap :=
  { heap with memory := BufferIterator.written heap.memory (heap.buffer h) d p piece }

/-- A write into bytes that nobody else reads. -/
theorem Good.write (good : heap.Good) (member : h ∈ heap.live)
    (held : heap.memory.datas (heap.home h) = some d) {v p : Nat} {piece : List UInt8}
    (kept : (heap.buffer h).KeptAt v piece.length p) (owns : heap.Owns h p (p + piece.length))
    (written : next = heap.rewritten h d p piece) :
    next.Good ∧ heap.Alters next h ∧
      next.content h = SharedArray.write (v - (heap.buffer h).start) piece (heap.content h) := by
  have fits := good.fits member held
  obtain ⟨room, -, -⟩ := kept.inside fits
  have size : (SharedArray.write p piece d.bytes).length = d.bytes.length := write_length room
  have good' : next.Good := by
    rw [written, rewritten, ← set_same]
    obtain ⟨z, ends⟩ := good.ended _ d held
    exact good.edit held rfl rfl (fits.rewritten size rfl rfl)
      (fun g live _ same => (good.fits live (same ▸ held)).rewritten size rfl rfl)
      ⟨z, ends h member rfl, fun g live _ same => ends g live same⟩
  have stored : next.memory.datas (heap.buffer h).data =
      some { d with bytes := SharedArray.write p piece d.bytes } := by
    rw [written]
    exact Function.update_self ..
  have buffer : next.buffer = heap.buffer := by rw [written]
  refine ⟨good', ⟨fun g _ => by rw [written], fun g _ _ => by rw [buffer], ?_⟩, ?_⟩
  · intro g live differs
    by_cases same : heap.home g = heap.home h
    · have there := good.fits live (same ▸ held)
      have front := there.front
      have zeros := there.zeros
      have back := there.back
      rw [content, content, buffer]
      change (heap.buffer g).contents (bytesAt _ (heap.home g)) =
        (heap.buffer g).contents (bytesAt _ (heap.home g))
      rw [same, bytesAt_eq held, bytesAt_eq stored]
      exact Buffer.contents_write_other _ room (owns g live differs same) front (by omega)
    · rw [content, content, buffer]
      congr 1
      apply bytesAt_congr
      rw [written]
      exact Function.update_of_ne same ..
  · rw [content, buffer, bytesAt_eq stored, content, bytesAt_eq held]
    exact kept.contents fits

theorem Good.move (good : heap.Good) (member : h ∈ heap.live)
    (own : b.data = heap.memory.allocated) (one : d.count = 1) (fits : b.Fits d) :
    ∃ m', (heap.memory.keep d).release (heap.home h) = .ok m' ∧ (heap.set h m' b).Good ∧
      heap.Alters (heap.set h m' b) h ∧ m'.datas b.data = some d := by
  obtain ⟨old, held, -⟩ := good.held h member
  obtain ⟨m1, released, next, good1, others⟩ := good.release member
  have fresh : h ∉ heap.live.erase h := fun still => (good.nodup.mem_erase_iff.mp still).1 rfl
  have good2 := (good1.keep fresh (own.trans next.symm) one fits).perm
    (List.perm_cons_erase member).symm
  have stored : (m1.keep d).datas b.data = some d := by
    rw [BufferMemory.keep_datas, own, next, Function.update_self]
  refine ⟨m1.keep d, BufferMemory.release_keep released
    (Nat.ne_of_lt (good.placed _ old held)) d, good2, ⟨fun g _ => Iff.rfl,
      fun g _ differs => set_other differs _ _, ?_⟩, stored⟩
  intro g live differs
  have kept : g ∈ heap.live.erase h := (List.mem_erase_of_ne differs).mpr live
  obtain ⟨d', there, -⟩ := good1.held g kept
  have below : heap.home g ≠ m1.allocated := Nat.ne_of_lt (good1.placed _ d' there)
  rw [content, content, set_other differs]
  congr 1
  rw [← others g kept]
  exact bytesAt_congr (Function.update_of_ne below ..)

section Growth

variable {garbage : Nat → Nat → UInt8} {n : Nat}

/-- What is known when a buffer has grown at its start: room for `n` bytes of its own. -/
structure GrownStart (heap next : BufferHeap) (h n : Nat) : Prop where
  good : next.Good
  alters : heap.Alters next h
  live : next.live = heap.live
  room : (next.buffer h).KeptAt (next.buffer h).start n (next.buffer h).start
  owns : next.Owns h (next.buffer h).start ((next.buffer h).start + n)
  rest : (next.content h).drop n = heap.content h
  zeros : (next.buffer h).zeroAreaEnd - (next.buffer h).zeroAreaStart =
    (heap.buffer h).zeroAreaEnd - (heap.buffer h).zeroAreaStart

/-- Where only the marks of the dirty area move, other buffers keep their bytes. -/
theorem marked_alters (held : heap.memory.datas (heap.home h) = some d) (d' : BufferData)
    (same : d'.bytes = d.bytes) (b : Buffer) :
    heap.Alters (heap.set h (heap.memory.store (heap.home h) d') b) h := by
  refine ⟨fun g _ => Iff.rfl, fun g _ differs => set_other differs _ _, ?_⟩
  intro g _ differs
  have bytes : bytesAt (heap.memory.store (heap.home h) d') (heap.home g) =
      bytesAt heap.memory (heap.home g) := by
    by_cases here : heap.home g = heap.home h
    · rw [here, bytesAt_eq held, bytesAt_eq (d := d') (Function.update_self ..), same]
    · exact bytesAt_congr (Function.update_of_ne here ..)
  rw [content, content, set_other differs]
  exact congrArg _ bytes

variable (garbage) in
theorem growStart_inPlace (good : heap.Good) (member : h ∈ heap.live)
    (held : heap.memory.datas (heap.home h) = some d)
    (room : n ≤ (heap.buffer h).start)
    (clean : d.count = 1 ∨ (heap.buffer h).start = d.dirtyStart)
    (short : (heap.buffer h).finish - (heap.buffer h).start + n < 2147483648) :
    ∃ next, heap.growStart garbage h n = .ok next ∧ heap.GrownStart next h n := by
  have fits := good.fits member held
  have front := fits.front
  have zeros := fits.zeros
  have back := fits.back
  obtain ⟨b', dirty, done, data, start, first, last, finish⟩ :=
    Buffer.addAtStart_inPlace garbage held fits room clean
  have self : (heap.set h (heap.memory.store (heap.home h) { d with dirtyStart := b'.start })
      b').buffer h = b' := set_self ..
  have dirtyFront := fits.dirtyFront
  have dirtyBack := fits.dirtyBack
  have stored := fits.stored
  have fits' : b'.Fits { d with dirtyStart := b'.start } :=
    ⟨by omega, by omega, by omega, Nat.le_refl _, by show b'.finish ≤ d.dirtyEnd; omega,
      by show b'.finish ≤ d.size + _; omega, fits.size, by omega⟩
  have outer : ∀ g ∈ heap.live, g ≠ h → heap.home g = heap.home h →
      (heap.buffer h).start ≤ (heap.buffer g).start := by
    intro g live differs same
    rcases clean with single | outermost
    · exact absurd (good.alone member held single live same) differs
    · rw [outermost]
      exact (good.fits live (same ▸ held)).dirtyFront
  have good' : (heap.set h (heap.memory.store (heap.home h) { d with dirtyStart := b'.start })
      b').Good := by
    obtain ⟨z, ends⟩ := good.ended _ d held
    refine good.edit held rfl data fits' ?_ ⟨z, ?_, fun g live _ same => ends g live same⟩
    · intro g live differs same
      have there := good.fits live (same ▸ held)
      have further := outer g live differs same
      exact ⟨there.front, there.zeros, there.back, by show b'.start ≤ _; omega, there.dirtyBack,
        there.stored, there.size, there.short⟩
    · obtain ⟨few, below⟩ := ends h member rfl
      exact ⟨by omega, by show _ ≤ d.dirtyEnd; omega⟩
  refine ⟨_, by rw [growStart, done]; rfl, good',
    marked_alters held { d with dirtyStart := b'.start } rfl b', rfl, ?_, ?_, ?_, ?_⟩
  · rw [self]
    exact .inl ⟨rfl, Nat.le_refl _, by omega⟩
  · intro g live differs same
    rw [self, set_other differs]
    rw [set_home data] at same
    exact .inr (by rw [start]; exact outer g live differs same)
  · rw [content_eq (d := { d with dirtyStart := b'.start }) self rfl
      (by rw [data]; exact Function.update_self ..), content, bytesAt_eq held]
    apply List.ext_getElem?
    intro i
    rw [List.getElem?_drop, fits'.contents_getElem?, fits.contents_getElem?]
    have place : b'.start + (n + i) = (heap.buffer h).start + i := by omega
    simp only [place, first, last, finish]
  · rw [self, first, last]

variable (garbage) in
theorem growStart_moves (good : heap.Good) (member : h ∈ heap.live)
    (held : heap.memory.datas (heap.home h) = some d)
    (inPlace : ¬ (n ≤ (heap.buffer h).start ∧
      (d.count = 1 ∨ (heap.buffer h).start = d.dirtyStart)))
    (short : (heap.buffer h).finish - (heap.buffer h).start + n < 2147483648) :
    ∃ next, heap.growStart garbage h n = .ok next ∧ heap.GrownStart next h n := by
  have pos := good.used _ d held
  have fits := good.fits member held
  have front := fits.front
  have zeros := fits.zeros
  have back := fits.back
  obtain ⟨b', d', done, own, one, fits', grown, rest⟩ :=
    Buffer.addAtStart_moves garbage held fits inPlace pos short
  obtain ⟨m', released, good', alters, stored⟩ := good.move member own one fits'
  have self : (heap.set h m' b').buffer h = b' := set_self ..
  have front' := grown.front
  have zeros' := grown.zeros
  refine ⟨heap.set h m' b', ?_, good', alters, rfl, ?_, ?_, ?_, ?_⟩
  · rw [growStart, done, released]
    rfl
  · rw [self]
    exact .inl ⟨rfl, Nat.le_refl _, by omega⟩
  · intro g live differs same
    exact absurd (good'.alone member (by rw [set_home_self]; exact stored) one live same) differs
  · rw [content_eq self rfl stored, rest, content, bytesAt_eq held]
  · rw [self]
    omega

variable (garbage) in
theorem growStart_spec (good : heap.Good) (member : h ∈ heap.live)
    (short : (heap.content h).length + n < 2147483648) :
    ∃ next, heap.growStart garbage h n = .ok next ∧ heap.GrownStart next h n := by
  obtain ⟨d, held, fits⟩ := good.held h member
  have length : (heap.content h).length = (heap.buffer h).finish - (heap.buffer h).start := by
    rw [content, bytesAt_eq held, fits.contents_length]
  rw [length] at short
  by_cases inPlace : n ≤ (heap.buffer h).start ∧
      (d.count = 1 ∨ (heap.buffer h).start = d.dirtyStart)
  · exact growStart_inPlace garbage good member held inPlace.1 inPlace.2 short
  · exact growStart_moves garbage good member held inPlace short

structure GrownEnd (heap next : BufferHeap) (h n p : Nat) : Prop where
  good : next.Good
  alters : heap.Alters next h
  live : next.live = heap.live
  room : (next.buffer h).KeptAt ((next.buffer h).finish - n) n p
  owns : next.Owns h p (p + n)
  rest : (next.content h).take (heap.content h).length = heap.content h
  length : (next.content h).length = (heap.content h).length + n
  zeros : (next.buffer h).zeroAreaEnd - (next.buffer h).zeroAreaStart =
    (heap.buffer h).zeroAreaEnd - (heap.buffer h).zeroAreaStart

variable (garbage) in
theorem growEnd_inPlace (good : heap.Good) (member : h ∈ heap.live)
    (held : heap.memory.datas (heap.home h) = some d)
    (room : (heap.buffer h).finish -
      ((heap.buffer h).zeroAreaEnd - (heap.buffer h).zeroAreaStart) + n ≤ d.size)
    (clean : d.count = 1 ∨ (heap.buffer h).finish = d.dirtyEnd)
    (short : (heap.buffer h).finish - (heap.buffer h).start + n < 2147483648) :
    ∃ next p, heap.growEnd garbage h n = .ok next ∧ heap.GrownEnd next h n p := by
  have fits := good.fits member held
  have front := fits.front
  have zeros := fits.zeros
  have back := fits.back
  have length : (heap.content h).length = (heap.buffer h).finish - (heap.buffer h).start := by
    rw [content, bytesAt_eq held, fits.contents_length]
  obtain ⟨b', dirty, done, data, start, first, last, finish⟩ :=
    Buffer.addAtEnd_inPlace garbage held fits room clean short
  have self : (heap.set h (heap.memory.store (heap.home h) { d with dirtyEnd := b'.finish })
      b').buffer h = b' := set_self ..
  have dirtyFront := fits.dirtyFront
  have dirtyBack := fits.dirtyBack
  have stored := fits.stored
  have fits' : b'.Fits { d with dirtyEnd := b'.finish } :=
    ⟨by omega, by omega, by omega, by show d.dirtyStart ≤ _; omega, Nat.le_refl _,
      by show b'.finish ≤ d.size + _; omega, fits.size, by omega⟩
  have alone : d.count = 1 → ∀ g ∈ heap.live, g ≠ h → heap.home g ≠ heap.home h :=
    fun single g live differs same => differs (good.alone member held single live same)
  have good' : (heap.set h (heap.memory.store (heap.home h) { d with dirtyEnd := b'.finish })
      b').Good := by
    obtain ⟨z, ends⟩ := good.ended _ d held
    obtain ⟨few, below⟩ := ends h member rfl
    rcases clean with single | outermost
    · refine good.edit held rfl data fits'
        (fun g live differs same => absurd same (alone single g live differs))
        ⟨b'.zeroAreaEnd - b'.zeroAreaStart, ?_,
          fun g live differs same => absurd same (alone single g live differs)⟩
      exact ⟨Nat.le_refl _, by show _ ≤ b'.finish; omega⟩
    · refine good.edit held rfl data fits' ?_ ⟨z, ?_, ?_⟩
      · intro g live differs same
        have there := good.fits live (same ▸ held)
        have inside := there.dirtyBack
        exact ⟨there.front, there.zeros, there.back, there.dirtyFront,
          by show _ ≤ b'.finish; omega, there.stored, there.size, there.short⟩
      · exact ⟨by omega, by show _ ≤ b'.finish; omega⟩
      · intro g live differs same
        obtain ⟨few', below'⟩ := ends g live same
        exact ⟨few', by show _ ≤ b'.finish; omega⟩
  have own := content_eq (d := { d with dirtyEnd := b'.finish }) self rfl
    (by rw [data]; exact Function.update_self ..)
  refine ⟨_, (heap.buffer h).finish -
    ((heap.buffer h).zeroAreaEnd - (heap.buffer h).zeroAreaStart),
    by rw [growEnd, done]; rfl, good', marked_alters held { d with dirtyEnd := b'.finish } rfl b',
    rfl, ?_, ?_, ?_, ?_, ?_⟩
  · rw [self]
    exact .inr ⟨by omega, by omega, by omega⟩
  · intro g live differs same
    rw [set_other differs]
    rw [set_home data] at same
    rcases clean with single | outermost
    · exact absurd same (alone single g live differs)
    · obtain ⟨z, ends⟩ := good.ended _ d held
      obtain ⟨few, below⟩ := ends h member rfl
      obtain ⟨few', below'⟩ := ends g live same
      exact .inl (by omega)
  · rw [own, content, bytesAt_eq held]
    apply List.ext_getElem?
    intro i
    rw [List.getElem?_take, fits'.contents_getElem?, fits.contents_getElem?,
      fits.contents_length, start, first, last, finish]
    split_ifs <;> first | rfl | omega
  · rw [own, fits'.contents_length, length]
    omega
  · rw [self, first, last]

variable (garbage) in
theorem growEnd_moves (good : heap.Good) (member : h ∈ heap.live)
    (held : heap.memory.datas (heap.home h) = some d)
    (inPlace : ¬ ((heap.buffer h).finish -
      ((heap.buffer h).zeroAreaEnd - (heap.buffer h).zeroAreaStart) + n ≤ d.size ∧
      (d.count = 1 ∨ (heap.buffer h).finish = d.dirtyEnd)))
    (short : (heap.buffer h).finish - (heap.buffer h).start + n < 2147483648) :
    ∃ next p, heap.growEnd garbage h n = .ok next ∧ heap.GrownEnd next h n p := by
  have pos := good.used _ d held
  have fits := good.fits member held
  have front := fits.front
  have zeros := fits.zeros
  have back := fits.back
  have length : (heap.content h).length = (heap.buffer h).finish - (heap.buffer h).start := by
    rw [content, bytesAt_eq held, fits.contents_length]
  obtain ⟨b', d', done, own, one, fits', grown, rest⟩ :=
    Buffer.addAtEnd_moves garbage held fits inPlace pos short
  obtain ⟨m', released, good', alters, stored⟩ := good.move member own one fits'
  have self : (heap.set h m' b').buffer h = b' := set_self ..
  have front' := grown.front
  have zeros' := grown.zeros
  have back' := grown.back
  have whole : (heap.set h m' b').content h = b'.contents d'.bytes :=
    content_eq self rfl stored
  refine ⟨heap.set h m' b', b'.finish - n - (b'.zeroAreaEnd - b'.zeroAreaStart), ?_, good',
    alters, rfl, ?_, ?_, ?_, ?_, ?_⟩
  · rw [growEnd, done, released]
    rfl
  · rw [self]
    exact .inr ⟨by omega, by omega, by omega⟩
  · intro g live differs same
    exact absurd (good'.alone member (by rw [set_home_self]; exact stored) one live same) differs
  · rw [whole, content, bytesAt_eq held]
    exact rest
  · rw [whole, fits'.contents_length, length]
    omega
  · rw [self]
    omega

variable (garbage) in
theorem growEnd_spec (good : heap.Good) (member : h ∈ heap.live)
    (short : (heap.content h).length + n < 2147483648) :
    ∃ next p, heap.growEnd garbage h n = .ok next ∧ heap.GrownEnd next h n p := by
  obtain ⟨d, held, fits⟩ := good.held h member
  have length : (heap.content h).length = (heap.buffer h).finish - (heap.buffer h).start := by
    rw [content, bytesAt_eq held, fits.contents_length]
  rw [length] at short
  by_cases inPlace : (heap.buffer h).finish -
      ((heap.buffer h).zeroAreaEnd - (heap.buffer h).zeroAreaStart) + n ≤ d.size ∧
      (d.count = 1 ∨ (heap.buffer h).finish = d.dirtyEnd)
  · exact growEnd_inPlace garbage good member held inPlace.1 inPlace.2 short
  · exact growEnd_moves garbage good member held inPlace short

end Growth

end Invariant

end BufferHeap

end Floodgate
