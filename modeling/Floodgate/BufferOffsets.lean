import Floodgate.PacketBuffer

/-! What the functions of `Buffer` do to the offsets of one buffer and to the bytes that it stands
for. -/

namespace Floodgate

open Outcome SharedArray

namespace Buffer

variable {b : Buffer} {d : BufferData}

/-- What holds of a buffer and the data it refers to. Lengths up to half of the 32-bit range keep
all offsets within it. -/
structure Fits (b : Buffer) (d : BufferData) : Prop where
  front : b.start ≤ b.zeroAreaStart
  zeros : b.zeroAreaStart ≤ b.zeroAreaEnd
  back : b.zeroAreaEnd ≤ b.finish
  dirtyFront : d.dirtyStart ≤ b.start
  dirtyBack : b.finish ≤ d.dirtyEnd
  stored : b.finish ≤ d.size + (b.zeroAreaEnd - b.zeroAreaStart)
  size : d.size < 2147483648
  short : b.finish < b.start + 2147483648

theorem Fits.checked (fits : b.Fits d) (counted : 0 < d.count) : b.checkInternalState d := by
  have front := fits.front
  have zeros := fits.zeros
  have back := fits.back
  have stored := fits.stored
  exact ⟨counted, ⟨front, zeros, back⟩, ⟨fits.dirtyFront, fits.dirtyBack⟩, by omega, by omega,
    by omega⟩

theorem Fits.lt (fits : b.Fits d) : b.finish < Word32.size := by
  have front := fits.front
  have zeros := fits.zeros
  have back := fits.back
  have stored := fits.stored
  have size := fits.size
  have short := fits.short
  unfold Word32.size
  omega

theorem Fits.zeroSize (fits : b.Fits d) :
    Word32.sub b.zeroAreaEnd b.zeroAreaStart = b.zeroAreaEnd - b.zeroAreaStart :=
  Word32.sub_eq _ _ (Nat.lt_of_le_of_lt fits.back fits.lt) fits.zeros

theorem Fits.getSize (fits : b.Fits d) : b.getSize = b.finish - b.start := by
  have front := fits.front
  have zeros := fits.zeros
  have back := fits.back
  exact Word32.sub_eq _ _ fits.lt (by omega)

theorem Fits.getInternalEnd (fits : b.Fits d) :
    b.getInternalEnd = b.finish - (b.zeroAreaEnd - b.zeroAreaStart) := by
  have zeros := fits.zeros
  have back := fits.back
  rw [Buffer.getInternalEnd, fits.zeroSize]
  exact Word32.sub_eq _ _ fits.lt (by omega)

theorem Fits.getInternalSize (fits : b.Fits d) :
    b.getInternalSize = b.finish - (b.zeroAreaEnd - b.zeroAreaStart) - b.start := by
  have front := fits.front
  have zeros := fits.zeros
  have back := fits.back
  have below := fits.lt
  unfold Word32.size at below
  unfold Buffer.getInternalSize Word32.sub Word32.add
  omega

def contents (b : Buffer) (bytes : List UInt8) : List UInt8 :=
  read b.start b.zeroAreaStart bytes ++
    (List.replicate (b.zeroAreaEnd - b.zeroAreaStart) 0 ++
      read b.zeroAreaStart (b.finish - (b.zeroAreaEnd - b.zeroAreaStart)) bytes)

theorem Fits.contents_length (fits : b.Fits d) :
    (b.contents d.bytes).length = b.finish - b.start := by
  have front := fits.front
  have zeros := fits.zeros
  have back := fits.back
  have stored := fits.stored
  unfold BufferData.size at stored
  rw [contents, List.length_append, List.length_append, read_length (by omega),
    read_length (by omega), List.length_replicate]
  omega

theorem Fits.contents_getElem? (fits : b.Fits d) (i : Nat) :
    (b.contents d.bytes)[i]? =
      if b.start + i < b.zeroAreaStart then d.bytes[b.start + i]?
      else if b.start + i < b.zeroAreaEnd then some 0
      else if b.start + i < b.finish then
        d.bytes[b.start + i - (b.zeroAreaEnd - b.zeroAreaStart)]?
      else none := by
  have front := fits.front
  have zeros := fits.zeros
  have back := fits.back
  have stored := fits.stored
  unfold BufferData.size at stored
  have size : (read b.start b.zeroAreaStart d.bytes).length = b.zeroAreaStart - b.start :=
    read_length (by omega)
  rw [contents]
  split_ifs with before within behind
  · rw [List.getElem?_append_left (by omega), read_getElem?, if_pos before]
  · rw [List.getElem?_append_right (by omega), List.getElem?_append_left
      (by rw [List.length_replicate]; omega), List.getElem?_replicate, if_pos (by omega)]
  · rw [List.getElem?_append_right (by omega), List.getElem?_append_right
      (by rw [List.length_replicate]; omega), List.length_replicate, size, read_getElem?,
      if_pos (by omega)]
    congr 1
    omega
  · rw [List.getElem?_append_right (by omega), List.getElem?_append_right
      (by rw [List.length_replicate]; omega), List.length_replicate, size, read_getElem?,
      if_neg (by omega)]

structure Within (b' b : Buffer) : Prop where
  data : b'.data = b.data
  zeros : b'.zeroAreaEnd - b'.zeroAreaStart ≤ b.zeroAreaEnd - b.zeroAreaStart
  back : b'.finish - (b'.zeroAreaEnd - b'.zeroAreaStart) ≤
    b.finish - (b.zeroAreaEnd - b.zeroAreaStart)

inductive CutsStart (b b' : Buffer) (n : Nat) : Prop where
  | front (cut : b.start + n ≤ b.zeroAreaStart) (start : b'.start = b.start + n)
      (first : b'.zeroAreaStart = b.zeroAreaStart) (last : b'.zeroAreaEnd = b.zeroAreaEnd)
      (finish : b'.finish = b.finish)
  | zeros (past : b.zeroAreaStart < b.start + n) (cut : b.start + n ≤ b.zeroAreaEnd)
      (start : b'.start = b.zeroAreaStart) (first : b'.zeroAreaStart = b.zeroAreaStart)
      (last : b'.zeroAreaEnd + (b.start + n) = b.zeroAreaEnd + b.zeroAreaStart)
      (finish : b'.finish + (b.start + n) = b.finish + b.zeroAreaStart)
  | back (past : b.zeroAreaEnd < b.start + n) (cut : b.start + n ≤ b.finish)
      (start : b'.start + (b.zeroAreaEnd - b.zeroAreaStart) = b.start + n)
      (first : b'.zeroAreaStart = b'.start) (last : b'.zeroAreaEnd = b'.start)
      (finish : b'.finish + (b.zeroAreaEnd - b.zeroAreaStart) = b.finish)
  | all (past : b.finish < b.start + n)
      (start : b'.start + (b.zeroAreaEnd - b.zeroAreaStart) = b.finish)
      (first : b'.zeroAreaStart = b'.start) (last : b'.zeroAreaEnd = b'.start)
      (finish : b'.finish = b'.start)

theorem removeAtStart_cuts (fits : b.Fits d) {n : Nat} (small : n < 2147483648) :
    ∃ b', b.removeAtStart n = .ok b' ∧ b'.data = b.data ∧ b.CutsStart b' n := by
  have front := fits.front
  have zeros := fits.zeros
  have back := fits.back
  have stored := fits.stored
  have size := fits.size
  have below := fits.lt
  have moved : Word32.add b.start n = b.start + n := by
    apply Word32.add_eq
    unfold Word32.size
    omega
  unfold removeAtStart
  rw [moved, fits.zeroSize]
  dsimp only
  by_cases inFront : b.start + n ≤ b.zeroAreaStart
  · rw [if_pos inFront]
    exact ⟨_, rfl, rfl, .front inFront rfl rfl rfl rfl⟩
  by_cases inZeros : b.start + n ≤ b.zeroAreaEnd
  · have delta : Word32.sub (b.start + n) b.zeroAreaStart = b.start + n - b.zeroAreaStart :=
      Word32.sub_eq _ _ (by omega) (by omega)
    rw [if_neg inFront, if_pos inZeros, delta, Word32.sub_eq _ _ (by omega) (by omega),
      Word32.sub_eq _ _ below (by omega)]
    refine ⟨_, rfl, rfl, .zeros (by omega) inZeros rfl rfl ?_ ?_⟩
    · show b.zeroAreaEnd - (b.start + n - b.zeroAreaStart) + (b.start + n) = _
      omega
    · show b.finish - (b.start + n - b.zeroAreaStart) + (b.start + n) = _
      omega
  rw [if_neg inFront, if_neg inZeros, Word32.sub_eq b.finish _ below (by omega)]
  by_cases inBack : b.start + n ≤ b.finish
  · rw [if_pos inBack, if_pos (by omega), Word32.sub_eq _ _ (by omega) (by omega)]
    refine ⟨_, rfl, rfl, .back (by omega) inBack ?_ rfl rfl ?_⟩
    · exact Nat.sub_add_cancel (by omega)
    · exact Nat.sub_add_cancel (by omega)
  · rw [if_neg inBack]
    exact ⟨_, rfl, rfl, .all (by omega) (Nat.sub_add_cancel (by omega)) rfl rfl rfl⟩

theorem CutsStart.within {b' : Buffer} {n : Nat} (cuts : b.CutsStart b' n) (fits : b.Fits d)
    (data : b'.data = b.data) : b'.Within b ∧ b'.Fits d := by
  have front := fits.front
  have zeros := fits.zeros
  have back := fits.back
  have dirtyFront := fits.dirtyFront
  have dirtyBack := fits.dirtyBack
  have stored := fits.stored
  have size := fits.size
  have short := fits.short
  cases cuts <;>
    exact ⟨⟨data, by omega, by omega⟩, ⟨by omega, by omega, by omega, by omega, by omega,
      by omega, size, by omega⟩⟩

theorem CutsStart.contents {b' : Buffer} {n : Nat} (cuts : b.CutsStart b' n) (fits : b.Fits d)
    (kept : b'.Fits d) : b'.contents d.bytes = (b.contents d.bytes).drop n := by
  have front := fits.front
  have zeros := fits.zeros
  have back := fits.back
  apply List.ext_getElem?
  intro i
  rw [kept.contents_getElem?, List.getElem?_drop, fits.contents_getElem?]
  cases cuts <;> split_ifs <;> first | rfl | omega | (congr 1; omega)

inductive CutsEnd (b b' : Buffer) (n : Nat) : Prop where
  | back (cut : b.zeroAreaEnd + n < b.finish) (start : b'.start = b.start)
      (first : b'.zeroAreaStart = b.zeroAreaStart) (last : b'.zeroAreaEnd = b.zeroAreaEnd)
      (finish : b'.finish + n = b.finish)
  | zeros (past : b.finish ≤ b.zeroAreaEnd + n) (cut : b.zeroAreaStart + n < b.finish)
      (start : b'.start = b.start) (first : b'.zeroAreaStart = b.zeroAreaStart)
      (last : b'.zeroAreaEnd = b'.finish) (finish : b'.finish + n = b.finish)
  | front (past : b.finish ≤ b.zeroAreaStart + n) (cut : b.start + n < b.finish)
      (start : b'.start = b.start) (first : b'.zeroAreaStart = b'.finish)
      (last : b'.zeroAreaEnd = b'.finish) (finish : b'.finish + n = b.finish)
  | all (past : b.finish ≤ b.start + n) (start : b'.start = b.start)
      (first : b'.zeroAreaStart = b.start) (last : b'.zeroAreaEnd = b.start)
      (finish : b'.finish = b.start)

theorem removeAtEnd_cuts (fits : b.Fits d) (n : Nat) :
    (b.removeAtEnd n).data = b.data ∧ b.CutsEnd (b.removeAtEnd n) n := by
  have front := fits.front
  have zeros := fits.zeros
  have back := fits.back
  have below := fits.lt
  have value : Word32.sub b.finish (min n (Word32.sub b.finish b.start)) =
      b.finish - min n (b.finish - b.start) := by
    rw [Word32.sub_eq b.finish b.start below (by omega), Word32.sub_eq _ _ below (by omega)]
  rw [removeAtEnd, value]
  generalize left : b.finish - min n (b.finish - b.start) = newEnd
  unfold cutAt
  by_cases inBack : b.zeroAreaEnd < newEnd
  · rw [if_pos inBack]
    exact ⟨rfl, .back (by omega) rfl rfl rfl (by show newEnd + n = _; omega)⟩
  by_cases inZeros : b.zeroAreaStart < newEnd
  · rw [if_neg inBack, if_pos inZeros]
    exact ⟨rfl, .zeros (by omega) (by omega) rfl rfl rfl (by show newEnd + n = _; omega)⟩
  by_cases inFront : b.start < newEnd
  · rw [if_neg inBack, if_neg inZeros, if_pos inFront]
    exact ⟨rfl, .front (by omega) (by omega) rfl rfl rfl (by show newEnd + n = _; omega)⟩
  · rw [if_neg inBack, if_neg inZeros, if_neg inFront]
    exact ⟨rfl, .all (by omega) rfl rfl rfl rfl⟩

theorem CutsEnd.within {b' : Buffer} {n : Nat} (cuts : b.CutsEnd b' n) (fits : b.Fits d)
    (data : b'.data = b.data) : b'.Within b ∧ b'.Fits d := by
  have front := fits.front
  have zeros := fits.zeros
  have back := fits.back
  have dirtyFront := fits.dirtyFront
  have dirtyBack := fits.dirtyBack
  have stored := fits.stored
  have size := fits.size
  have short := fits.short
  cases cuts <;>
    exact ⟨⟨data, by omega, by omega⟩, ⟨by omega, by omega, by omega, by omega, by omega,
      by omega, size, by omega⟩⟩

theorem CutsEnd.contents {b' : Buffer} {n : Nat} (cuts : b.CutsEnd b' n) (fits : b.Fits d)
    (kept : b'.Fits d) :
    b'.contents d.bytes = (b.contents d.bytes).take ((b.contents d.bytes).length - n) := by
  have front := fits.front
  have zeros := fits.zeros
  have back := fits.back
  apply List.ext_getElem?
  intro i
  rw [kept.contents_getElem?, List.getElem?_take, fits.contents_getElem?, fits.contents_length]
  cases cuts <;> split_ifs <;> first | rfl | omega | (congr 1; omega)

theorem Fits.rewritten (fits : b.Fits d) {d' : BufferData} (size : d'.size = d.size)
    (start : d'.dirtyStart = d.dirtyStart) (stop : d'.dirtyEnd = d.dirtyEnd) : b.Fits d' :=
  ⟨fits.front, fits.zeros, fits.back, start ▸ fits.dirtyFront, stop ▸ fits.dirtyBack,
    size ▸ fits.stored, size ▸ fits.size, fits.short⟩

/-- `n` bytes from the offset `v` on, all of them before the zeros or all behind, are kept from
`p` on. -/
def KeptAt (b : Buffer) (v n p : Nat) : Prop :=
  (p = v ∧ b.start ≤ v ∧ v + n ≤ b.zeroAreaStart) ∨
    (p + (b.zeroAreaEnd - b.zeroAreaStart) = v ∧ b.zeroAreaEnd ≤ v ∧ v + n ≤ b.finish)

theorem KeptAt.inside {v n p : Nat} (kept : b.KeptAt v n p) (fits : b.Fits d) :
    p + n ≤ d.bytes.length ∧ b.start ≤ v ∧ v + n ≤ b.finish := by
  have front := fits.front
  have zeros := fits.zeros
  have back := fits.back
  have stored := fits.stored
  unfold BufferData.size at stored
  rcases kept with ⟨place, lower, upper⟩ | ⟨place, lower, upper⟩
  · omega
  · omega

theorem KeptAt.contents {v p : Nat} {piece : List UInt8} (kept : b.KeptAt v piece.length p)
    (fits : b.Fits d) :
    b.contents (write p piece d.bytes) = write (v - b.start) piece (b.contents d.bytes) := by
  obtain ⟨stored, lower, upper⟩ := kept.inside fits
  have front := fits.front
  have zeros := fits.zeros
  have back := fits.back
  have rewritten : b.Fits { d with bytes := write p piece d.bytes } :=
    fits.rewritten (write_length stored) rfl rfl
  apply List.ext_getElem?
  intro i
  have spliced :
      (write (v - b.start) piece (b.contents d.bytes))[i]? =
        if i < v - b.start then (b.contents d.bytes)[i]?
        else if i < v - b.start + piece.length then piece[i - (v - b.start)]?
        else (b.contents d.bytes)[i]? :=
    write_getElem? (by rw [fits.contents_length]; omega) i
  rw [rewritten.contents_getElem?, spliced, fits.contents_getElem?, write_getElem? stored,
    write_getElem? stored]
  rcases kept with ⟨place, first, last⟩ | ⟨place, first, last⟩
  · split_ifs <;> first | rfl | omega | (congr 1; omega)
  · split_ifs <;> first | rfl | omega | (congr 1; omega)

theorem contents_write_other (b : Buffer) {bytes piece : List UInt8} {p : Nat}
    (fits : p + piece.length ≤ bytes.length)
    (apart : b.finish - (b.zeroAreaEnd - b.zeroAreaStart) ≤ p ∨ p + piece.length ≤ b.start)
    (front : b.start ≤ b.zeroAreaStart)
    (back : b.zeroAreaStart ≤ b.finish - (b.zeroAreaEnd - b.zeroAreaStart)) :
    b.contents (write p piece bytes) = b.contents bytes := by
  rw [contents, contents, read_write_other fits (by omega), read_write_other fits (by omega)]

end Buffer

namespace BufferMemory

variable {m : BufferMemory} {a : Nat} {d : BufferData}

theorem load_eq (held : m.datas a = some d) : m.load a = .ok d := by
  rw [load, held]

@[simp] theorem store_datas (m : BufferMemory) (a : Nat) (d : BufferData) :
    (m.store a d).datas = Function.update m.datas a (some d) := rfl

@[simp] theorem store_allocated (m : BufferMemory) (a : Nat) (d : BufferData) :
    (m.store a d).allocated = m.allocated := rfl

@[simp] theorem keep_datas (m : BufferMemory) (d : BufferData) :
    (m.keep d).datas = Function.update m.datas m.allocated (some d) := rfl

@[simp] theorem keep_allocated (m : BufferMemory) (d : BufferData) :
    (m.keep d).allocated = m.allocated + 1 := rfl

theorem store_same (held : m.datas a = some d) : m.store a d = m := by
  rw [store, ← held, Function.update_eq_self]

theorem store_store (m : BufferMemory) (a : Nat) (d d' : BufferData) :
    (m.store a d).store a d' = m.store a d' := by
  rw [store, store, store, Function.update_idem]

theorem release_keep {m' : BufferMemory} (released : m.release a = .ok m')
    (old : a ≠ m.allocated) (d : BufferData) :
    (m.keep d).release a = .ok (m'.keep d) := by
  have same : (m.keep d).datas a = m.datas a := Function.update_of_ne old ..
  unfold release load at released ⊢
  rw [same]
  cases held : m.datas a with
  | none =>
      rw [held] at released
      cases released
  | some d' =>
      rw [held, ok_bind] at released
      rw [ok_bind]
      by_cases last : d'.count - 1 = 0
      · rw [if_pos last] at released ⊢
        cases released
        simp only [keep, store, Function.update_comm old]
      · rw [if_neg last] at released ⊢
        cases released
        simp only [keep, store, Function.update_comm old]

end BufferMemory

namespace BufferIterator

open Buffer

variable {m : BufferMemory} {b : Buffer} {d : BufferData} {v p : Nat} {piece : List UInt8}

def written (m : BufferMemory) (b : Buffer) (d : BufferData) (p : Nat) (piece : List UInt8) :
    BufferMemory :=
  m.store b.data { d with bytes := SharedArray.write p piece d.bytes }

theorem put_spec (held : m.datas b.data = some d) (fits : b.Fits d)
    (kept : b.KeptAt v piece.length p) :
    put m (construct b v) p piece =
      .ok (written m b d p piece, construct b (v + piece.length)) := by
  obtain ⟨stored, -, upper⟩ := kept.inside fits
  have below := fits.lt
  have next : Word32.add v piece.length = v + piece.length := by
    apply Word32.add_eq
    omega
  unfold put construct
  rw [BufferMemory.load_eq held, ok_bind, BufferData.copyIn,
    if_pos (show p + piece.length ≤ d.size from stored), ok_bind]
  simp only [next]
  rfl

theorem prev_spec {n : Nat} (enough : n ≤ v) :
    (construct b v).prev n = .ok (construct b (v - n)) :=
  if_pos enough

theorem place_eq {n : Nat} (fits : b.Fits d) (kept : b.KeptAt v n p) :
    (if (construct b v).current ≤ (construct b v).zeroStart then (construct b v).current
      else (construct b v).beyond) = p := by
  obtain ⟨-, lower, upper⟩ := kept.inside fits
  have zeros := fits.zeros
  have below := fits.lt
  show (if v ≤ b.zeroAreaStart then v
    else Word32.sub v (Word32.sub b.zeroAreaEnd b.zeroAreaStart)) = p
  rw [fits.zeroSize]
  rcases kept with ⟨place, first, last⟩ | ⟨place, first, last⟩
  · rw [if_pos (by omega), place]
  · rw [Word32.sub_eq _ _ (by omega) (by omega)]
    split_ifs with atStart
    · omega
    · omega

theorem check_eq (fits : b.Fits d) {n i : Nat} (kept : b.KeptAt v n p) (first : v ≤ i)
    (last : i < v + n) : (construct b v).check i = true := by
  have front := fits.front
  have zeros := fits.zeros
  have back := fits.back
  unfold check construct
  simp only [Bool.and_eq_true, decide_eq_true_eq, Bool.not_eq_true', Bool.and_eq_false_iff,
    decide_eq_false_iff_not]
  rcases kept with ⟨place, lower, upper⟩ | ⟨place, lower, upper⟩
  · exact ⟨⟨by omega, .inl (by omega)⟩, by omega⟩
  · exact ⟨⟨by omega, .inr (by omega)⟩, by omega⟩

theorem fill_spec (held : m.datas b.data = some d) (fits : b.Fits d) {n : Nat} (byte : UInt8)
    (kept : b.KeptAt v n p) :
    fill m (construct b v) byte n =
      .ok (written m b d p (List.replicate n byte), construct b (v + n)) := by
  have sound : (construct b v).checkNoZero (construct b v).current
      ((construct b v).current + n) = true := by
    apply List.all_eq_true.mpr
    intro i member
    obtain ⟨first, last⟩ := List.mem_range'_1.mp member
    exact check_eq fits kept first (by simp only [construct] at first last; omega)
  have same : (List.replicate n byte).length = n := List.length_replicate
  have kept' : b.KeptAt v (List.replicate n byte).length p := same.symm ▸ kept
  rw [fill, if_pos sound, place_eq fits kept, put_spec held fits kept', same]

theorem write_spec (held : m.datas b.data = some d) (fits : b.Fits d)
    (kept : b.KeptAt v piece.length p) :
    write m (construct b v) piece =
      .ok (written m b d p piece, construct b (v + piece.length)) := by
  have sound : (construct b v).checkNoZero (construct b v).current piece.length = true := by
    apply List.all_eq_true.mpr
    intro i member
    obtain ⟨first, last⟩ := List.mem_range'_1.mp member
    exact check_eq fits kept first (by simp only [construct] at first last; omega)
  rw [write, if_pos sound, place_eq fits kept, put_spec held fits kept]

theorem writeU8_spec (held : m.datas b.data = some d) (fits : b.Fits d) (byte : UInt8)
    (kept : b.KeptAt v 1 p) :
    writeU8 m (construct b v) byte = .ok (written m b d p [byte], construct b (v + 1)) := by
  have sound : (construct b v).check (construct b v).current = true :=
    check_eq fits kept (Nat.le_refl _) (Nat.lt_succ_self _)
  have place : (if (construct b v).current < (construct b v).zeroStart
      then (construct b v).current else (construct b v).beyond) = p := by
    have zeros := fits.zeros
    have back := fits.back
    have below := fits.lt
    show (if v < b.zeroAreaStart then v
      else Word32.sub v (Word32.sub b.zeroAreaEnd b.zeroAreaStart)) = p
    rw [fits.zeroSize]
    rcases kept with ⟨place, first, last⟩ | ⟨place, first, last⟩
    · rw [if_pos (by omega), place]
    · rw [if_neg (by omega), Word32.sub_eq _ _ (by omega) (by omega)]
      omega
  rw [writeU8, if_pos sound, place, put_spec held fits kept]
  rfl

theorem writeAll_spec (piece : List UInt8) (held : m.datas b.data = some d) (fits : b.Fits d)
    (kept : b.KeptAt v piece.length p) :
    writeAll m (construct b v) piece = .ok (written m b d p piece) := by
  induction piece generalizing m d v p with
  | nil =>
      rw [writeAll, written, write_nil]
      exact congrArg _ (BufferMemory.store_same held).symm
  | cons byte rest others =>
      obtain ⟨stored, -, -⟩ := kept.inside fits
      rw [List.length_cons] at kept stored
      have single : b.KeptAt v 1 p := by
        rcases kept with ⟨place, lower, upper⟩ | ⟨place, lower, upper⟩
        · exact .inl ⟨place, lower, by omega⟩
        · exact .inr ⟨place, lower, by omega⟩
      have further : b.KeptAt (v + 1) rest.length (p + 1) := by
        rcases kept with ⟨place, lower, upper⟩ | ⟨place, lower, upper⟩
        · exact .inl ⟨by omega, by omega, by omega⟩
        · exact .inr ⟨by omega, by omega, by omega⟩
      have size : (SharedArray.write p [byte] d.bytes).length = d.bytes.length :=
        write_length (by rw [List.length_singleton]; omega)
      rw [writeAll, writeU8_spec held fits byte single, ok_bind]
      rw [others (d := { d with bytes := SharedArray.write p [byte] d.bytes })
        (Function.update_self ..) (fits.rewritten size rfl rfl) further]
      rw [written, written, written, BufferMemory.store_store, write_cons (by omega)]

end BufferIterator

namespace Buffer

variable {m : BufferMemory} {b b' : Buffer} {d : BufferData} {n : Nat}

theorem copyData_spec (held : m.datas b.data = some d) (fits : b.Fits d) (size : Nat) :
    b.copyData m size = .ok ((b.contents d.bytes).take size) := by
  have front := fits.front
  have zeros := fits.zeros
  have back := fits.back
  have stored := fits.stored
  have below := fits.lt
  have first : Word32.sub b.zeroAreaStart b.start = b.zeroAreaStart - b.start :=
    Word32.sub_eq _ _ (by omega) front
  have third : Word32.sub b.finish b.zeroAreaEnd = b.finish - b.zeroAreaEnd :=
    Word32.sub_eq _ _ below back
  have middle : (read b.start b.zeroAreaStart d.bytes).length = b.zeroAreaStart - b.start :=
    read_length (by unfold BufferData.size at stored; omega)
  rw [copyData, BufferMemory.load_eq held, ok_bind, first, third, fits.zeroSize]
  dsimp only
  rw [BufferData.copyOut_eq (by omega), ok_bind, BufferData.copyOut_eq (by omega), ok_bind]
  rw [contents, List.take_append, List.take_append, middle, List.length_replicate,
    List.take_replicate]
  rw [read_take, read_take]
  congr 4 <;> omega

/-- A buffer with `n` more bytes in front, which may have new data. -/
structure GrownFront (b b' : Buffer) (n : Nat) : Prop where
  front : b'.zeroAreaStart + b.start = b'.start + n + b.zeroAreaStart
  zeros : b'.zeroAreaEnd + b.start = b'.start + n + b.zeroAreaEnd
  back : b'.finish + b.start = b'.start + n + b.finish

/-- A buffer with `n` more bytes at the end. -/
structure GrownBack (b b' : Buffer) (n : Nat) : Prop where
  front : b'.zeroAreaStart + b.start = b'.start + b.zeroAreaStart
  zeros : b'.zeroAreaEnd + b.start = b'.start + b.zeroAreaEnd
  back : b'.finish + b.start = b'.start + b.finish + n

def moved (garbage : Nat → Nat → UInt8) (m : BufferMemory) (b : Buffer) (d : BufferData)
    (newSize place first last : Nat) : BufferData :=
  { m.create garbage newSize with
    dirtyStart := first
    dirtyEnd := last
    bytes := write place (read b.start (b.finish - (b.zeroAreaEnd - b.zeroAreaStart)) d.bytes)
      (m.create garbage newSize).bytes }

section Growth

variable {garbage : Nat → Nat → UInt8}

theorem create_size (m : BufferMemory) (newSize : Nat) :
    (m.create garbage newSize).size = if newSize = 0 then 1 else newSize := by
  rw [BufferData.size, BufferMemory.create, List.length_map, List.length_range]

theorem kept_length (fits : b.Fits d) :
    (read b.start (b.finish - (b.zeroAreaEnd - b.zeroAreaStart)) d.bytes).length =
      b.finish - (b.zeroAreaEnd - b.zeroAreaStart) - b.start :=
  read_length (by
    have stored := fits.stored
    unfold BufferData.size at stored
    omega)

theorem reallocate_eq (fits : b.Fits d) {newSize place : Nat} (moved' : Buffer)
    (enough : place + (b.finish - (b.zeroAreaEnd - b.zeroAreaStart) - b.start) ≤ newSize) :
    b.reallocate garbage m d newSize place moved' =
      (m.keep (moved garbage m b d newSize place moved'.start moved'.finish)).release b.data >>=
        fun m' => .ok (m', { moved' with data := m.allocated }) := by
  have front := fits.front
  have zeros := fits.zeros
  have back := fits.back
  have stored := fits.stored
  have size : (m.create garbage newSize).size = _ := create_size m newSize
  have whole : b.start + (b.finish - (b.zeroAreaEnd - b.zeroAreaStart) - b.start) =
      b.finish - (b.zeroAreaEnd - b.zeroAreaStart) := by omega
  have room : place + (read b.start (b.finish - (b.zeroAreaEnd - b.zeroAreaStart)) d.bytes).length
      ≤ (m.create garbage newSize).size := by
    rw [kept_length fits, size]
    split_ifs <;> omega
  rw [reallocate, fits.getInternalSize, BufferData.copyOut_eq (by omega), ok_bind, whole,
    BufferData.copyIn, if_pos room, ok_bind]
  rfl

variable (garbage) in
/-- Bytes in front of a buffer whose data nobody has written before its start. -/
theorem addAtStart_inPlace (held : m.datas b.data = some d) (fits : b.Fits d)
    (room : n ≤ b.start) (clean : d.count = 1 ∨ b.start = d.dirtyStart) :
    ∃ b' dirty, b.addAtStart garbage m n =
        .ok (m.store b.data { d with dirtyStart := b'.start }, b', dirty) ∧
      b'.data = b.data ∧ b'.start + n = b.start ∧ b'.zeroAreaStart = b.zeroAreaStart ∧
      b'.zeroAreaEnd = b.zeroAreaEnd ∧ b'.finish = b.finish := by
  have front := fits.front
  have zeros := fits.zeros
  have back := fits.back
  have below := fits.lt
  have start : Word32.sub b.start n = b.start - n := Word32.sub_eq _ _ (by omega) room
  have shared : n ≤ b.start ∧ ¬(1 < d.count ∧ d.dirtyStart < b.start) := ⟨room, by omega⟩
  rw [addAtStart, BufferMemory.load_eq held, ok_bind, if_pos shared, if_pos clean, start]
  exact ⟨{ b with start := b.start - n }.noteZeroArea, decide (d.dirtyStart < b.start - n), rfl,
    rfl, Nat.sub_add_cancel room, rfl, rfl, rfl⟩

theorem moved_size (fits : b.Fits d) {newSize place first last : Nat}
    (enough : place + (b.finish - (b.zeroAreaEnd - b.zeroAreaStart) - b.start) ≤ newSize) :
    (moved garbage m b d newSize place first last).size = if newSize = 0 then 1 else newSize := by
  have size : (m.create garbage newSize).size = _ := create_size m newSize
  have room : place + (read b.start (b.finish - (b.zeroAreaEnd - b.zeroAreaStart)) d.bytes).length
      ≤ (m.create garbage newSize).size := by
    rw [kept_length fits, size]
    split_ifs <;> omega
  rw [← size]
  exact write_length room

theorem moved_getElem? (fits : b.Fits d) {newSize place first last : Nat}
    (enough : place + (b.finish - (b.zeroAreaEnd - b.zeroAreaStart) - b.start) ≤ newSize) {i : Nat}
    (inside : i < b.finish - (b.zeroAreaEnd - b.zeroAreaStart) - b.start) :
    (moved garbage m b d newSize place first last).bytes[place + i]? = d.bytes[b.start + i]? := by
  have size : (m.create garbage newSize).size = _ := create_size m newSize
  have room : place + (read b.start (b.finish - (b.zeroAreaEnd - b.zeroAreaStart)) d.bytes).length
      ≤ (m.create garbage newSize).bytes.length := by
    rw [kept_length fits]
    unfold BufferData.size at size
    rw [size]
    split_ifs <;> omega
  rw [moved, write_getElem? room, kept_length fits, if_neg (by omega), if_pos (by omega),
    Nat.add_sub_cancel_left, read_getElem?, if_pos (by omega)]

theorem GrownFront.contents (grown : b.GrownFront b' n) (fits : b.Fits d)
    {newSize first last : Nat}
    (enough : n + (b.finish - (b.zeroAreaEnd - b.zeroAreaStart) - b.start) ≤ newSize)
    (start : b'.start = 0) (kept : b'.Fits (moved garbage m b d newSize n first last)) :
    (b'.contents (moved garbage m b d newSize n first last).bytes).drop n = b.contents d.bytes := by
  have front := fits.front
  have zeros := fits.zeros
  have back := fits.back
  have front' := grown.front
  have zeros' := grown.zeros
  have back' := grown.back
  apply List.ext_getElem?
  intro i
  rw [List.getElem?_drop, kept.contents_getElem?, fits.contents_getElem?]
  split_ifs <;> first | rfl | omega | skip
  · rw [start, Nat.zero_add, moved_getElem? fits enough (by omega)]
  · have place : b'.start + (n + i) - (b'.zeroAreaEnd - b'.zeroAreaStart) =
        n + (i - (b.zeroAreaEnd - b.zeroAreaStart)) := by omega
    rw [place, moved_getElem? fits enough (by omega)]
    congr 1
    omega

theorem GrownBack.contents (grown : b.GrownBack b' n) (fits : b.Fits d)
    {newSize first last : Nat}
    (enough : b.finish - (b.zeroAreaEnd - b.zeroAreaStart) - b.start + n ≤ newSize)
    (start : b'.start = 0) (kept : b'.Fits (moved garbage m b d newSize 0 first last)) :
    (b'.contents (moved garbage m b d newSize 0 first last).bytes).take
      (b.contents d.bytes).length = b.contents d.bytes := by
  have front := fits.front
  have zeros := fits.zeros
  have back := fits.back
  have front' := grown.front
  have zeros' := grown.zeros
  have back' := grown.back
  have placed : ∀ k, k < b.finish - (b.zeroAreaEnd - b.zeroAreaStart) - b.start →
      (moved garbage m b d newSize 0 first last).bytes[k]? = d.bytes[b.start + k]? := by
    intro k inside
    have found : (moved garbage m b d newSize 0 first last).bytes[0 + k]? =
        d.bytes[b.start + k]? := moved_getElem? fits (by omega) inside
    rwa [Nat.zero_add] at found
  apply List.ext_getElem?
  intro i
  rw [List.getElem?_take, kept.contents_getElem?, fits.contents_getElem?, fits.contents_length]
  split_ifs <;> first | rfl | omega | skip
  · rw [start, Nat.zero_add, placed i (by omega)]
  · have place : b'.start + i - (b'.zeroAreaEnd - b'.zeroAreaStart) =
        i - (b.zeroAreaEnd - b.zeroAreaStart) := by omega
    rw [place, placed _ (by omega)]
    congr 1
    omega

theorem shifted {x n s : Nat} (above : s ≤ x) (small : x - s + n < 4294967296)
    (bound : s < 4294967296) : Word32.add x (Word32.sub n s) = x - s + n := by
  unfold Word32.add Word32.sub
  omega

variable (garbage) in
theorem addAtStart_moves (held : m.datas b.data = some d) (fits : b.Fits d)
    (unlike : ¬(n ≤ b.start ∧ (d.count = 1 ∨ b.start = d.dirtyStart))) (pos : 0 < d.count)
    (short : b.finish - b.start + n < 2147483648) :
    ∃ b' d', b.addAtStart garbage m n = ((m.keep d').release b.data >>= fun m' =>
        .ok (m', b', true)) ∧
      b'.data = m.allocated ∧ d'.count = 1 ∧ b'.Fits d' ∧ b.GrownFront b' n ∧
      (b'.contents d'.bytes).drop n = b.contents d.bytes := by
  have front := fits.front
  have zeros := fits.zeros
  have back := fits.back
  have dirtyFront := fits.dirtyFront
  have stored := fits.stored
  have size := fits.size
  have below := fits.lt
  have newSize : Word32.add b.getInternalSize n =
      b.finish - (b.zeroAreaEnd - b.zeroAreaStart) - b.start + n := by
    rw [fits.getInternalSize]
    apply Word32.add_eq
    unfold Word32.size
    omega
  have enough : n + (b.finish - (b.zeroAreaEnd - b.zeroAreaStart) - b.start) ≤
      b.finish - (b.zeroAreaEnd - b.zeroAreaStart) - b.start + n := by omega
  have shared : ¬(n ≤ b.start ∧ ¬(1 < d.count ∧ d.dirtyStart < b.start)) := by omega
  have unchanged : ∀ x, b.start ≤ x → x ≤ b.finish →
      Word32.add x (Word32.sub n b.start) = x - b.start + n := by
    intro x lower upper
    exact shifted lower (by omega) (by unfold Word32.size at below; omega)
  obtain ⟨b', is⟩ : ∃ b' : Buffer, b' =
      { b with
        data := m.allocated
        start := 0
        zeroAreaStart := b.zeroAreaStart - b.start + n
        zeroAreaEnd := b.zeroAreaEnd - b.start + n
        finish := b.finish - b.start + n } := ⟨_, rfl⟩
  obtain ⟨d', made⟩ : ∃ d', d' = moved garbage m b d
      (b.finish - (b.zeroAreaEnd - b.zeroAreaStart) - b.start + n) n b'.start b'.finish := ⟨_, rfl⟩
  have size' : d'.size = if b.finish - (b.zeroAreaEnd - b.zeroAreaStart) - b.start + n = 0 then 1
      else b.finish - (b.zeroAreaEnd - b.zeroAreaStart) - b.start + n := by
    rw [made]
    exact moved_size fits enough
  have grown : b.GrownFront b' n := by
    rw [is]
    exact ⟨by simp only; omega, by simp only; omega, by simp only; omega⟩
  have fits' : b'.Fits d' := by
    have start : b'.start = 0 := by rw [is]
    have front' := grown.front
    have zeros' := grown.zeros
    have back' := grown.back
    have dirtyStart : d'.dirtyStart = b'.start := by rw [made]; rfl
    have dirtyEnd : d'.dirtyEnd = b'.finish := by rw [made]; rfl
    refine ⟨by omega, by omega, by omega, by omega, by omega, ?_, ?_, by omega⟩
    · rw [size']
      split_ifs <;> omega
    · rw [size']
      split_ifs <;> omega
  refine ⟨b'.noteZeroArea, d', ?_, by rw [is]; rfl, by rw [made]; rfl, ?_, ?_, ?_⟩
  · have far : b.shift (Word32.sub n b.start) = { b' with data := b.data, start := n } := by
      rw [is, shift, unchanged _ (Nat.le_refl _) (by omega), unchanged _ front (by omega),
        unchanged _ (by omega) back, unchanged _ (by omega) (Nat.le_refl _), Nat.sub_self,
        Nat.zero_add]
    have none : Word32.sub n n = b'.start := by
      rw [Word32.sub_eq _ _ (by unfold Word32.size; omega) (Nat.le_refl _), Nat.sub_self, is]
    rw [addAtStart, BufferMemory.load_eq held, ok_bind, if_neg shared, newSize]
    dsimp only
    rw [reallocate_eq fits _ enough, far]
    dsimp only
    have home : b'.data = m.allocated := by rw [is]
    rw [none, ← home, made]
    generalize (m.keep (moved garbage m b d _ n b'.start b'.finish)).release b.data = after
    cases after with
    | error failure => rfl
    | ok m' => rfl
  · exact ⟨fits'.front, fits'.zeros, fits'.back, fits'.dirtyFront, fits'.dirtyBack, fits'.stored,
      fits'.size, fits'.short⟩
  · exact ⟨grown.front, grown.zeros, grown.back⟩
  · rw [made] at fits' ⊢
    exact grown.contents fits enough (by rw [is]) fits'

variable (garbage) in
theorem addAtEnd_inPlace (held : m.datas b.data = some d) (fits : b.Fits d)
    (room : b.finish - (b.zeroAreaEnd - b.zeroAreaStart) + n ≤ d.size)
    (clean : d.count = 1 ∨ b.finish = d.dirtyEnd)
    (short : b.finish - b.start + n < 2147483648) :
    ∃ b' dirty, b.addAtEnd garbage m n =
        .ok (m.store b.data { d with dirtyEnd := b'.finish }, b', dirty) ∧
      b'.data = b.data ∧ b'.start = b.start ∧ b'.zeroAreaStart = b.zeroAreaStart ∧
      b'.zeroAreaEnd = b.zeroAreaEnd ∧ b'.finish = b.finish + n := by
  have front := fits.front
  have zeros := fits.zeros
  have back := fits.back
  have dirtyBack := fits.dirtyBack
  have stored := fits.stored
  have size := fits.size
  have internal : Word32.add b.getInternalEnd n =
      b.finish - (b.zeroAreaEnd - b.zeroAreaStart) + n := by
    rw [fits.getInternalEnd]
    apply Word32.add_eq
    unfold Word32.size
    omega
  have finish : Word32.add b.finish n = b.finish + n := by
    apply Word32.add_eq
    unfold Word32.size
    omega
  have shared : b.finish - (b.zeroAreaEnd - b.zeroAreaStart) + n ≤ d.size ∧
      ¬(1 < d.count ∧ b.finish < d.dirtyEnd) := ⟨room, by omega⟩
  rw [addAtEnd, BufferMemory.load_eq held, ok_bind, internal, if_pos shared, if_pos clean, finish]
  exact ⟨{ b with finish := b.finish + n }.noteZeroArea, decide (b.finish + n < b.finish + n), rfl,
    rfl, rfl, rfl, rfl, rfl⟩

variable (garbage) in
theorem addAtEnd_moves (held : m.datas b.data = some d) (fits : b.Fits d)
    (unlike : ¬(b.finish - (b.zeroAreaEnd - b.zeroAreaStart) + n ≤ d.size ∧
      (d.count = 1 ∨ b.finish = d.dirtyEnd))) (pos : 0 < d.count)
    (short : b.finish - b.start + n < 2147483648) :
    ∃ b' d', b.addAtEnd garbage m n = ((m.keep d').release b.data >>= fun m' =>
        .ok (m', b', true)) ∧
      b'.data = m.allocated ∧ d'.count = 1 ∧ b'.Fits d' ∧ b.GrownBack b' n ∧
      (b'.contents d'.bytes).take (b.contents d.bytes).length = b.contents d.bytes := by
  have front := fits.front
  have zeros := fits.zeros
  have back := fits.back
  have dirtyBack := fits.dirtyBack
  have stored := fits.stored
  have size := fits.size
  have below := fits.lt
  have internal : Word32.add b.getInternalEnd n =
      b.finish - (b.zeroAreaEnd - b.zeroAreaStart) + n := by
    rw [fits.getInternalEnd]
    apply Word32.add_eq
    unfold Word32.size
    omega
  have newSize : Word32.add b.getInternalSize n =
      b.finish - (b.zeroAreaEnd - b.zeroAreaStart) - b.start + n := by
    rw [fits.getInternalSize]
    apply Word32.add_eq
    unfold Word32.size
    omega
  have enough : 0 + (b.finish - (b.zeroAreaEnd - b.zeroAreaStart) - b.start) ≤
      b.finish - (b.zeroAreaEnd - b.zeroAreaStart) - b.start + n := by omega
  have shared : ¬(b.finish - (b.zeroAreaEnd - b.zeroAreaStart) + n ≤ d.size ∧
      ¬(1 < d.count ∧ b.finish < d.dirtyEnd)) := by omega
  have unchanged : ∀ x, b.start ≤ x → x ≤ b.finish →
      Word32.add x (Word32.sub 0 b.start) = x - b.start := by
    intro x lower upper
    exact shifted lower (by omega) (by unfold Word32.size at below; omega)
  obtain ⟨b', is⟩ : ∃ b' : Buffer, b' =
      { b with
        data := m.allocated
        start := 0
        zeroAreaStart := b.zeroAreaStart - b.start
        zeroAreaEnd := b.zeroAreaEnd - b.start
        finish := b.finish - b.start + n } := ⟨_, rfl⟩
  obtain ⟨d', made⟩ : ∃ d', d' = moved garbage m b d
      (b.finish - (b.zeroAreaEnd - b.zeroAreaStart) - b.start + n) 0 b'.start b'.finish :=
    ⟨_, rfl⟩
  have size' : d'.size = if b.finish - (b.zeroAreaEnd - b.zeroAreaStart) - b.start + n = 0 then 1
      else b.finish - (b.zeroAreaEnd - b.zeroAreaStart) - b.start + n := by
    rw [made]
    exact moved_size fits enough
  have grown : b.GrownBack b' n := by
    rw [is]
    exact ⟨by simp only; omega, by simp only; omega, by simp only; omega⟩
  have fits' : b'.Fits d' := by
    have start : b'.start = 0 := by rw [is]
    have front' := grown.front
    have zeros' := grown.zeros
    have back' := grown.back
    have dirtyStart : d'.dirtyStart = b'.start := by rw [made]; rfl
    have dirtyEnd : d'.dirtyEnd = b'.finish := by rw [made]; rfl
    refine ⟨by omega, by omega, by omega, by omega, by omega, ?_, ?_, by omega⟩
    · rw [size']
      split_ifs <;> omega
    · rw [size']
      split_ifs <;> omega
  refine ⟨b'.noteZeroArea, d', ?_, by rw [is]; rfl, by rw [made]; rfl, ?_, ?_, ?_⟩
  · have near : b.shift (Word32.sub 0 b.start) =
        { b' with data := b.data, finish := b.finish - b.start } := by
      rw [is, shift, unchanged _ (Nat.le_refl _) (by omega), unchanged _ front (by omega),
        unchanged _ (by omega) back, unchanged _ (by omega) (Nat.le_refl _), Nat.sub_self]
    have last : Word32.add (b.finish - b.start) n = b'.finish := by
      rw [Word32.add_eq _ _ (by unfold Word32.size; omega), is]
    have home : b'.data = m.allocated := by rw [is]
    rw [addAtEnd, BufferMemory.load_eq held, ok_bind, internal, if_neg shared, newSize]
    dsimp only
    rw [reallocate_eq fits _ enough, near]
    dsimp only
    rw [last, ← home, made]
    generalize (m.keep (moved garbage m b d _ 0 b'.start b'.finish)).release b.data = after
    cases after with
    | error failure => rfl
    | ok m' => rfl
  · exact ⟨fits'.front, fits'.zeros, fits'.back, fits'.dirtyFront, fits'.dirtyBack, fits'.stored,
      fits'.size, fits'.short⟩
  · exact ⟨grown.front, grown.zeros, grown.back⟩
  · rw [made] at fits' ⊢
    exact grown.contents fits (by omega) (by rw [is]) fits'

end Growth

end Buffer

end Floodgate
