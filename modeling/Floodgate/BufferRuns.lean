import Floodgate.BufferSharing
import Mathlib.Data.List.Perm.Subperm

/-! The calls on buffers that share memory do what they mean for byte strings. -/

namespace Floodgate

open Outcome SharedArray RefCount LabelledRun

namespace BufferHeap

section Served

variable {heap next : BufferHeap} {h o : Nat} {b : Buffer} {d : BufferData}

theorem Good.length (good : heap.Good) (member : h ∈ heap.live) :
    (heap.content h).length = (heap.buffer h).finish - (heap.buffer h).start ∧
      (heap.content h).length < 2147483648 := by
  obtain ⟨d, held, fits⟩ := good.held h member
  have short := fits.short
  have front := fits.front
  rw [content, bytesAt_eq held, fits.contents_length]
  exact ⟨rfl, by omega⟩

theorem enter_alters (unused : h ∉ heap.live) {m : BufferMemory}
    (bytes : ∀ g ∈ heap.live, bytesAt m (heap.home g) = bytesAt heap.memory (heap.home g)) :
    heap.Alters (heap.enter h m b) h where
  names g differs := by
    show g ∈ h :: heap.live ↔ _
    rw [List.mem_cons]
    exact ⟨fun either => either.resolve_left differs, .inr⟩
  buffers g member _ := enter_other unused member m b
  contents g member _ := by
    rw [content, content, enter_other unused member]
    exact congrArg _ (bytes g member)

/-- A call that has changed the buffer `h` to stand for `x`. -/
structure Becomes (heap next : BufferHeap) (h : Nat) (x : List UInt8) : Prop where
  good : next.Good
  alters : heap.Alters next h
  member : h ∈ next.live
  content : next.content h = x

theorem Becomes.strings {x : List UInt8} (becomes : heap.Becomes next h x) :
    next.strings = Function.update heap.strings h (some x) :=
  becomes.alters.strings becomes.member becomes.content

section Calls

variable (garbage : Nat → Nat → UInt8)

theorem create_spec (good : heap.Good) (unused : h ∉ heap.live) {zeroSize : Nat}
    (short : zeroSize < 2147483648) :
    heap.Becomes (heap.create garbage h zeroSize) h (List.replicate zeroSize 0) := by
  have size : (heap.memory.create garbage 0).size = 1 := Buffer.create_size heap.memory 0
  have start : min (heap.memory.create garbage 0).size heap.memory.recommendedStart ≤ 1 := by
    rw [size]
    exact Nat.min_le_left ..
  have finish :
      Word32.add (min (heap.memory.create garbage 0).size heap.memory.recommendedStart) zeroSize =
        min (heap.memory.create garbage 0).size heap.memory.recommendedStart + zeroSize := by
    apply Word32.add_eq
    unfold Word32.size
    omega
  unfold create Buffer.initialise
  dsimp only
  rw [finish]
  generalize min (heap.memory.create garbage 0).size heap.memory.recommendedStart = first at start
  generalize made : { heap.memory.create garbage 0 with
    dirtyStart := first
    dirtyEnd := first + zeroSize } = d
  obtain ⟨b, built⟩ : ∃ b : Buffer, b = ⟨heap.memory.allocated, first, first, first + zeroSize,
      first, first + zeroSize⟩ := ⟨_, rfl⟩
  have fits : b.Fits d := by
    rw [← made, built]
    exact ⟨Nat.le_refl _, Nat.le_add_right _ _, Nat.le_refl _, Nat.le_refl _, Nat.le_refl _,
      by show first + zeroSize ≤ (heap.memory.create garbage 0).size + (first + zeroSize - first)
         omega,
      by show (heap.memory.create garbage 0).size < _; omega,
      by show first + zeroSize < first + _; omega⟩
  have stored : (heap.memory.keep d).datas b.data = some d := by
    rw [built]
    exact Function.update_self ..
  rw [← built]
  refine ⟨good.keep unused (by rw [built]) (by rw [← made]; rfl) fits, enter_alters unused ?_,
    List.mem_cons_self, ?_⟩
  · intro g member
    obtain ⟨d', held, -⟩ := good.held g member
    exact bytesAt_congr (Function.update_of_ne (Nat.ne_of_lt (good.placed _ d' held)) ..)
  · rw [content_eq (enter_self heap h (heap.memory.keep d) b) rfl stored, built, Buffer.contents]
    dsimp only
    rw [read_none (Nat.le_refl _), List.nil_append, Nat.add_sub_cancel_left, Nat.add_sub_cancel,
      read_none (Nat.le_refl _), List.append_nil]

theorem copy_spec (good : heap.Good) (unused : h ∉ heap.live) (member : o ∈ heap.live)
    (few : heap.live.length + 1 < Word32.size) :
    ∃ next, heap.copy h o = .ok next ∧ next.live = h :: heap.live ∧
      heap.Becomes next h (heap.content o) ∧
      next.buffer h = { heap.buffer o with maxZeroAreaStart := (heap.buffer o).zeroAreaStart } := by
  obtain ⟨m', done, -, good', bytes⟩ := good.retain unused member few
    (b := { heap.buffer o with maxZeroAreaStart := (heap.buffer o).zeroAreaStart })
    ⟨rfl, Nat.le_refl _, Nat.le_refl _⟩ fun d fits => ⟨fits.front, fits.zeros, fits.back,
      fits.dirtyFront, fits.dirtyBack, fits.stored, fits.size, fits.short⟩
  refine ⟨_, by rw [copy, Buffer.copy, done]; rfl, rfl, ⟨good', enter_alters unused
    fun g _ => bytes _, List.mem_cons_self, ?_⟩, enter_self ..⟩
  rw [content, enter_self]
  exact congrArg (heap.buffer o).contents (bytes _)

theorem destroy_spec (good : heap.Good) (member : h ∈ heap.live) :
    ∃ next, heap.destroy h = .ok next ∧ next.Good ∧ next.live = heap.live.erase h ∧
      next.buffer = heap.buffer ∧ next.strings = Function.update heap.strings h none := by
  obtain ⟨m', done, -, good', bytes⟩ := (good.recommend (heap.buffer h)).release member
  refine ⟨{ heap with memory := m', live := heap.live.erase h }, ?_, good', rfl, rfl, ?_⟩
  · rw [destroy, Buffer.destroy, done]
    rfl
  funext g
  by_cases same : g = h
  · rw [same, Function.update_self]
    exact strings_eq_none.mpr fun still => (good.nodup.mem_erase_iff.mp still).1 rfl
  rw [Function.update_of_ne same]
  by_cases live : g ∈ heap.live
  · have kept : g ∈ heap.live.erase h := (List.mem_erase_of_ne same).mpr live
    rw [strings_of_mem live]
    exact (strings_of_mem kept).trans (congrArg some (congrArg _ (bytes g kept)))
  · rw [strings_eq_none.mpr live]
    exact strings_eq_none.mpr fun still => live (List.mem_of_mem_erase still)

theorem assign_spec (good : heap.Good) (member : h ∈ heap.live) (source : o ∈ heap.live)
    (few : heap.live.length + 1 < Word32.size) :
    ∃ next, heap.assign h o = .ok next ∧ next.live = heap.live ∧
      heap.Becomes next h (heap.content o) ∧ next.buffer h = heap.buffer o := by
  obtain ⟨d, held, -⟩ := good.held h member
  by_cases same : heap.home h = heap.home o
  · have there := good.fits source (same ▸ held)
    obtain ⟨z, ends⟩ := good.ended _ d held
    have stored : heap.memory.store (heap.home h) d = heap.memory := BufferMemory.store_same held
    have good' := (good.edit held rfl same.symm there
      (fun g live _ at' => good.fits live (at' ▸ held))
      ⟨z, ends o source same.symm, fun g live _ at' => ends g live at'⟩).recommend (heap.buffer h)
    rw [stored] at good'
    refine ⟨heap.set h (heap.memory.recommend (heap.buffer h)) (heap.buffer o),
      by rw [assign, Buffer.assign, if_pos same]; rfl, rfl, ⟨good', ⟨fun g _ => Iff.rfl,
      fun g _ differs => set_other differs .., ?_⟩, member, ?_⟩, set_self ..⟩
    · intro g live differs
      rw [content, content, set_other differs]
      rfl
    · rw [content, content, set_self]
      rfl
  · obtain ⟨m1, released, next1, good1, bytes1⟩ := good.release member
    have fresh : h ∉ heap.live.erase h := fun still => (good.nodup.mem_erase_iff.mp still).1 rfl
    have differ : o ≠ h := fun is => same (by rw [is])
    have kept : o ∈ heap.live.erase h := (List.mem_erase_of_ne differ).mpr source
    have fewer : (heap.live.erase h).length + 1 < Word32.size := by
      have less := List.length_erase_le (a := h) (l := heap.live)
      omega
    obtain ⟨m2, retained, -, good2, bytes2⟩ := good1.retain fresh kept fewer (b := heap.buffer o)
      ⟨rfl, Nat.le_refl _, Nat.le_refl _⟩ fun d fits => fits
    have good3 := (good2.perm (List.perm_cons_erase member).symm).recommend (heap.buffer h)
    refine ⟨heap.set h (m2.recommend (heap.buffer h)) (heap.buffer o), ?_, rfl, ⟨good3,
      ⟨fun g _ => Iff.rfl, fun g _ differs => set_other differs .., ?_⟩, member, ?_⟩, set_self ..⟩
    · rw [assign, Buffer.assign, if_neg same, released]
      dsimp only [ok_bind]
      rw [show m1.retain (heap.buffer o).data = .ok m2 from retained]
      rfl
    · intro g live differs
      have still : g ∈ heap.live.erase h := (List.mem_erase_of_ne differs).mpr live
      rw [content, content, set_other differs]
      exact congrArg _ ((bytes2 _).trans (bytes1 g still))
    · rw [content, content, set_self]
      exact congrArg _ ((bytes2 _).trans (bytes1 o kept))

theorem GrownStart.write {n : Nat} {piece : List UInt8} (growth : heap.GrownStart next h n)
    (member : h ∈ heap.live) (length : piece.length = n) :
    ∃ d, next.memory.datas (next.home h) = some d ∧ (next.buffer h).Fits d ∧
      heap.Becomes (next.rewritten h d (next.buffer h).start piece) h
        (piece ++ heap.content h) := by
  subst length
  have member' : h ∈ next.live := growth.live ▸ member
  obtain ⟨d, held, fits⟩ := growth.good.held h member'
  obtain ⟨good', alters, content'⟩ := growth.good.write member' held growth.room growth.owns rfl
  refine ⟨d, held, fits, good', growth.alters.trans alters, member', ?_⟩
  rw [content', Nat.sub_self, SharedArray.write, List.take_zero, List.nil_append, Nat.zero_add,
    growth.rest]

theorem GrownEnd.write {n p : Nat} {piece : List UInt8} (growth : heap.GrownEnd next h n p)
    (member : h ∈ heap.live) (length : piece.length = n) :
    ∃ d, next.memory.datas (next.home h) = some d ∧ (next.buffer h).Fits d ∧
      n ≤ (next.buffer h).finish ∧
      heap.Becomes (next.rewritten h d p piece) h (heap.content h ++ piece) := by
  subst length
  have member' : h ∈ next.live := growth.live ▸ member
  obtain ⟨d, held, fits⟩ := growth.good.held h member'
  obtain ⟨whole, -⟩ := growth.good.length member'
  have total := growth.length
  obtain ⟨good', alters, content'⟩ := growth.good.write member' held growth.room growth.owns rfl
  refine ⟨d, held, fits, by omega, good', growth.alters.trans alters, member', ?_⟩
  have place : (next.buffer h).finish - piece.length - (next.buffer h).start =
      (heap.content h).length := by omega
  rw [content', place, SharedArray.write, growth.rest, List.drop_of_length_le (by omega),
    List.append_nil]

theorem addAtStart_spec (good : heap.Good) (member : h ∈ heap.live) {bytes : List UInt8}
    (short : (heap.content h).length + bytes.length < 2147483648) :
    ∃ next, heap.addAtStart garbage h bytes = .ok next ∧
      heap.Becomes next h (bytes ++ heap.content h) := by
  obtain ⟨grown, done, growth⟩ := growStart_spec garbage good member short
  obtain ⟨d, held, fits, becomes⟩ := growth.write member rfl
  refine ⟨_, ?_, becomes⟩
  rw [addAtStart, done, ok_bind]
  dsimp only
  rw [BufferIterator.writeAll_spec bytes held fits growth.room]
  rfl

theorem addAtEnd_spec (good : heap.Good) (member : h ∈ heap.live) {bytes : List UInt8}
    (short : (heap.content h).length + bytes.length < 2147483648) :
    ∃ next, heap.addAtEnd garbage h bytes = .ok next ∧
      heap.Becomes next h (heap.content h ++ bytes) := by
  obtain ⟨grown, p, done, growth⟩ := growEnd_spec garbage good member short
  obtain ⟨d, held, fits, enough, becomes⟩ := growth.write member rfl
  refine ⟨_, ?_, becomes⟩
  rw [addAtEnd, done, ok_bind]
  dsimp only
  rw [BufferIterator.prev_spec enough, ok_bind,
    BufferIterator.writeAll_spec bytes held fits growth.room]
  rfl

theorem Good.shrink (good : heap.Good) (member : h ∈ heap.live)
    (held : heap.memory.datas (heap.home h) = some d) (within : b.Within (heap.buffer h))
    (fits : b.Fits d) : heap.Becomes (heap.set h heap.memory b) h (b.contents d.bytes) := by
  obtain ⟨z, ends⟩ := good.ended _ d held
  obtain ⟨few, below⟩ := ends h member rfl
  have zeros := within.zeros
  have back := within.back
  have good' := good.edit held rfl within.data fits
    (fun g live _ same => good.fits live (same ▸ held)) ⟨z, ⟨by omega, by omega⟩, fun g live _ same => ends g live same⟩
  rw [BufferMemory.store_same held] at good'
  refine ⟨good', ⟨fun g _ => Iff.rfl, fun g _ differs => set_other differs .., ?_⟩, member, ?_⟩
  · intro g live differs
    rw [content, content, set_other differs]
    rfl
  · exact content_eq (set_self ..) rfl (by rw [within.data]; exact held)

theorem removeAtStart_spec (good : heap.Good) (member : h ∈ heap.live) {n : Nat}
    (small : n < 2147483648) :
    ∃ next, heap.removeAtStart h n = .ok next ∧ next.live = heap.live ∧
      heap.Becomes next h ((heap.content h).drop n) := by
  obtain ⟨d, held, fits⟩ := good.held h member
  obtain ⟨b, done, data, cuts⟩ := Buffer.removeAtStart_cuts fits small
  obtain ⟨within, fits'⟩ := cuts.within fits data
  refine ⟨heap.set h heap.memory b, by rw [removeAtStart, done]; rfl, rfl, ?_⟩
  rw [content, bytesAt_eq held, ← cuts.contents fits fits']
  exact good.shrink member held within fits'

theorem removeAtEnd_spec (good : heap.Good) (member : h ∈ heap.live) (n : Nat) :
    heap.Becomes (heap.removeAtEnd h n) h
      ((heap.content h).take ((heap.content h).length - n)) := by
  obtain ⟨d, held, fits⟩ := good.held h member
  obtain ⟨data, cuts⟩ := Buffer.removeAtEnd_cuts fits n
  obtain ⟨within, fits'⟩ := cuts.within fits data
  rw [content, bytesAt_eq held, ← cuts.contents fits fits']
  exact good.shrink member held within fits'

theorem createFragment_spec (good : heap.Good) (unused : h ∉ heap.live) (member : o ∈ heap.live)
    (few : heap.live.length + 1 < Word32.size) {start length : Nat}
    (inside : start + length ≤ (heap.content o).length) :
    ∃ next, heap.createFragment h o start length = .ok next ∧
      heap.Becomes next h (((heap.content o).drop start).take length) := by
  obtain ⟨whole, short⟩ := good.length member
  obtain ⟨d, -, fits⟩ := good.held o member
  obtain ⟨first, copied, -, one, -⟩ := copy_spec good unused member few
  obtain ⟨second, removed, live, two⟩ := removeAtStart_spec (n := start) one.good one.member
    (by omega)
  have three := removeAtEnd_spec two.good two.member
    (Word32.sub (heap.buffer o).getSize (Word32.add start length))
  refine ⟨second.removeAtEnd h (Word32.sub (heap.buffer o).getSize (Word32.add start length)),
    by rw [createFragment, copied, ok_bind, removed]; rfl, three.good,
    (one.alters.trans two.alters).trans three.alters, three.member, ?_⟩
  have size : Word32.sub (heap.buffer o).getSize (Word32.add start length) =
      (heap.content o).length - (start + length) := by
    rw [fits.getSize, ← whole, Word32.add_eq _ _ (by unfold Word32.size; omega),
      Word32.sub_eq _ _ (by unfold Word32.size; omega) inside]
  rw [three.content, size, two.content, one.content, List.length_drop]
  congr 1
  omega

theorem copyData_spec (good : heap.Good) (member : h ∈ heap.live) (size : Nat) :
    (heap.buffer h).copyData heap.memory size = .ok ((heap.content h).take size) := by
  obtain ⟨d, held, fits⟩ := good.held h member
  rw [Buffer.copyData_spec held fits, content, bytesAt_eq held]

theorem Good.parts (good : heap.Good) (member : h ∈ heap.live) :
    ∃ d front back, heap.memory.datas (heap.home h) = some d ∧ (heap.buffer h).Fits d ∧
      d.copyOut (heap.buffer h).start ((heap.buffer h).zeroAreaStart - (heap.buffer h).start) =
        .ok front ∧
      d.copyOut (heap.buffer h).zeroAreaStart
        ((heap.buffer h).finish - (heap.buffer h).zeroAreaEnd) = .ok back ∧
      front.length = (heap.buffer h).zeroAreaStart - (heap.buffer h).start ∧
      back.length = (heap.buffer h).finish - (heap.buffer h).zeroAreaEnd ∧
      heap.content h = front ++ (List.replicate ((heap.buffer h).zeroAreaEnd -
        (heap.buffer h).zeroAreaStart) 0 ++ back) := by
  obtain ⟨d, held, fits⟩ := good.held h member
  have front := fits.front
  have zeros := fits.zeros
  have back := fits.back
  have stored := fits.stored
  have first : (heap.buffer h).start +
      ((heap.buffer h).zeroAreaStart - (heap.buffer h).start) = (heap.buffer h).zeroAreaStart := by
    omega
  have second : (heap.buffer h).zeroAreaStart +
      ((heap.buffer h).finish - (heap.buffer h).zeroAreaEnd) = (heap.buffer h).finish -
        ((heap.buffer h).zeroAreaEnd - (heap.buffer h).zeroAreaStart) := by
    omega
  refine ⟨d, _, _, held, fits, BufferData.copyOut_eq (by omega), BufferData.copyOut_eq (by omega),
    ?_, ?_, ?_⟩
  · rw [first, read_length (by unfold BufferData.size at stored; omega)]
  · rw [second, read_length (by unfold BufferData.size at stored; omega)]
    omega
  · rw [first, second, content, bytesAt_eq held, Buffer.contents]

/-- A buffer that the calls so far have left alone can still be read in its three parts. -/
theorem Alters.parts (alters : heap.Alters next h) (good : next.Good) (member : o ∈ heap.live)
    (differ : o ≠ h) :
    ∃ d front back, next.memory.datas (heap.buffer o).data = some d ∧
      d.copyOut (heap.buffer o).start ((heap.buffer o).zeroAreaStart - (heap.buffer o).start) =
        .ok front ∧
      d.copyOut (heap.buffer o).zeroAreaStart
        ((heap.buffer o).finish - (heap.buffer o).zeroAreaEnd) = .ok back ∧
      front.length = (heap.buffer o).zeroAreaStart - (heap.buffer o).start ∧
      back.length = (heap.buffer o).finish - (heap.buffer o).zeroAreaEnd ∧
      heap.content o = front ++ (List.replicate ((heap.buffer o).zeroAreaEnd -
        (heap.buffer o).zeroAreaStart) 0 ++ back) := by
  have there : o ∈ next.live := (alters.names o differ).mpr member
  obtain ⟨d, front, back, held, -, parts⟩ := good.parts there
  have same := alters.buffers o member differ
  rw [home, same] at held
  rw [same, alters.contents o member differ] at parts
  exact ⟨d, front, back, held, parts⟩

/-- Copying a buffer with zeros: first the zeros become bytes, then the bytes before them are added
at the start and those behind them at the end. -/
theorem createFullCopy_filled (good : heap.Good) (unused : h ∉ heap.live) (member : o ∈ heap.live)
    (zeros : (heap.buffer o).zeroAreaEnd - (heap.buffer o).zeroAreaStart ≠ 0) :
    ∃ next, heap.createFullCopy garbage h o = .ok next ∧ next.live = h :: heap.live ∧
      heap.Becomes next h (heap.content o) ∧
      (next.buffer h).zeroAreaStart = (next.buffer h).zeroAreaEnd := by
  obtain ⟨d, -, fits⟩ := good.held o member
  have order := fits.front
  have order' := fits.zeros
  have order'' := fits.back
  have below := fits.lt
  obtain ⟨whole, short⟩ := good.length member
  have differ : o ≠ h := fun is => unused (is ▸ member)
  have dataStart : Word32.sub (heap.buffer o).zeroAreaStart (heap.buffer o).start =
      (heap.buffer o).zeroAreaStart - (heap.buffer o).start := Word32.sub_eq _ _ (by omega) order
  have dataEnd : Word32.sub (heap.buffer o).finish (heap.buffer o).zeroAreaEnd =
      (heap.buffer o).finish - (heap.buffer o).zeroAreaEnd := Word32.sub_eq _ _ below order''
  rw [createFullCopy]
  dsimp only
  rw [fits.zeroSize, dataStart, dataEnd]
  rw [if_pos zeros]
  generalize count : (heap.buffer o).zeroAreaEnd - (heap.buffer o).zeroAreaStart = z at zeros
  have one := create_spec garbage good unused (show 0 < 2147483648 by omega)
  rw [List.replicate_zero] at one
  have flat : ((heap.create garbage h 0).buffer h).zeroAreaEnd -
      ((heap.create garbage h 0).buffer h).zeroAreaStart = 0 := by
    obtain ⟨length, -⟩ := one.good.length one.member
    obtain ⟨d0, -, fits0⟩ := one.good.held h one.member
    have front := fits0.front
    have back := fits0.back
    rw [one.content, List.length_nil] at length
    omega
  -- the zeros
  obtain ⟨h1, done1, growth1⟩ := growStart_spec garbage one.good one.member (n := z)
    (by rw [one.content, List.length_nil]; omega)
  obtain ⟨d1, held1, fits1, two⟩ :=
    growth1.write one.member (List.length_replicate (a := (0 : UInt8)))
  rw [one.content, List.append_nil] at two
  generalize second : h1.rewritten h d1 (h1.buffer h).start (List.replicate z 0) = h2 at two
  -- the bytes before them
  obtain ⟨h3, done3, growth3⟩ := growStart_spec garbage two.good two.member
    (n := (heap.buffer o).zeroAreaStart - (heap.buffer o).start)
    (by rw [two.content, List.length_replicate]; omega)
  have upTo2 := one.alters.trans two.alters
  have upTo3 := upTo2.trans growth3.alters
  obtain ⟨d3, front, back3, held3, copied3, -, length3, -, parts3⟩ :=
    upTo3.parts growth3.good member differ
  rw [count] at parts3
  obtain ⟨d4, held4, fits4, four⟩ := growth3.write two.member length3
  rw [two.content] at four
  generalize fourth : h3.rewritten h d4 (h3.buffer h).start front = h4 at four
  -- the bytes behind them
  obtain ⟨h5, p, done5, growth5⟩ := growEnd_spec garbage four.good four.member
    (n := (heap.buffer o).finish - (heap.buffer o).zeroAreaEnd)
    (by rw [four.content, List.length_append, List.length_replicate, length3]; omega)
  have upTo4 := upTo2.trans four.alters
  have upTo5 := upTo4.trans growth5.alters
  obtain ⟨d5, front', back, held5, -, copied5, length5, length5', parts5⟩ :=
    upTo5.parts growth5.good member differ
  rw [count] at parts5
  obtain ⟨d6, held6, fits6, enough, six⟩ := growth5.write four.member length5'
  rw [four.content] at six
  have room5 : (h5.buffer h).KeptAt ((h5.buffer h).finish -
      ((heap.buffer o).finish - (heap.buffer o).zeroAreaEnd)) back.length p := by
    rw [length5']
    exact growth5.room
  have same : front = front' :=
    List.append_inj_left (parts3.symm.trans parts5) (length3.trans length5.symm)
  refine ⟨h5.rewritten h d6 p back, ?_, ?_, ?_, ?_⟩
  · rw [done1, ok_bind, BufferIterator.fill_spec held1 fits1 0 growth1.room, ok_bind]
    change (growStart garbage (h1.rewritten h d1 _ _) h _ >>= _) = _
    rw [second, done3, ok_bind, BufferMemory.load_eq held3, ok_bind, copied3, ok_bind,
      BufferIterator.write_spec held4 fits4 (length3.symm ▸ growth3.room), ok_bind]
    change (growEnd garbage (h3.rewritten h d4 _ _) h _ >>= _) = _
    rw [fourth, done5, ok_bind, BufferIterator.prev_spec enough, ok_bind,
      BufferMemory.load_eq held5, ok_bind, copied5, ok_bind,
      BufferIterator.write_spec held6 fits6 room5, ok_bind]
  · have live2 : h2.live = h :: heap.live := by
      rw [← second]
      exact growth1.live
    have live4 : h4.live = h :: heap.live := by
      rw [← fourth]
      exact growth3.live.trans live2
    exact growth5.live.trans live4
  · refine ⟨six.good, upTo4.trans six.alters, six.member, ?_⟩
    rw [six.content, parts5, ← same, List.append_assoc]
  · have zeros2 : (h2.buffer h).zeroAreaEnd - (h2.buffer h).zeroAreaStart = 0 := by
      rw [← second]
      exact growth1.zeros.trans flat
    have zeros4 : (h4.buffer h).zeroAreaEnd - (h4.buffer h).zeroAreaStart = 0 := by
      rw [← fourth]
      exact growth3.zeros.trans zeros2
    have zeros5 := growth5.zeros.trans zeros4
    have order5 := fits6.zeros
    show (h5.buffer h).zeroAreaStart = (h5.buffer h).zeroAreaEnd
    omega

theorem createFullCopy_spec (good : heap.Good) (unused : h ∉ heap.live) (member : o ∈ heap.live)
    (few : heap.live.length + 1 < Word32.size) :
    ∃ next, heap.createFullCopy garbage h o = .ok next ∧ next.live = h :: heap.live ∧
      heap.Becomes next h (heap.content o) ∧
      (next.buffer h).zeroAreaStart = (next.buffer h).zeroAreaEnd := by
  by_cases zeros : (heap.buffer o).zeroAreaEnd - (heap.buffer o).zeroAreaStart ≠ 0
  · exact createFullCopy_filled garbage good unused member zeros
  · obtain ⟨d, -, fits⟩ := good.held o member
    have order := fits.zeros
    obtain ⟨next, done, live, becomes, same⟩ := copy_spec good unused member few
    refine ⟨next, ?_, live, becomes, ?_⟩
    · rw [createFullCopy]
      dsimp only
      rw [fits.zeroSize, if_neg zeros]
      exact done
    · rw [same]
      show (heap.buffer o).zeroAreaStart = (heap.buffer o).zeroAreaEnd
      omega

theorem fresh_not_mem (heap : BufferHeap) : heap.fresh ∉ heap.live := by
  have above : ∀ live : List Nat, ∀ h ∈ live, h < live.foldr (fun h n => max (h + 1) n) 0 := by
    intro live
    induction live with
    | nil => exact fun h member => absurd member List.not_mem_nil
    | cons first rest others =>
        intro h member
        rw [List.foldr_cons]
        rcases List.mem_cons.mp member with same | member
        · omega
        · have below := others h member
          omega
  exact fun member => Nat.lt_irrefl _ (above heap.live _ member)

theorem Good.flat (good : heap.Good) (member : h ∈ heap.live)
    (flat : (heap.buffer h).zeroAreaStart = (heap.buffer h).zeroAreaEnd) :
    ∃ d, heap.memory.load (heap.home h) = .ok d ∧
      d.copyOut (heap.buffer h).start (heap.buffer h).getSize = .ok (heap.content h) := by
  obtain ⟨d, held, fits⟩ := good.held h member
  have front := fits.front
  have back := fits.back
  have stored := fits.stored
  have whole : (heap.buffer h).start + ((heap.buffer h).finish - (heap.buffer h).start) =
      (heap.buffer h).finish := by omega
  refine ⟨d, BufferMemory.load_eq held, ?_⟩
  rw [fits.getSize, BufferData.copyOut_eq (by omega), whole, content, bytesAt_eq held,
    Buffer.contents, flat, Nat.sub_self, List.replicate_zero, List.nil_append, Nat.sub_zero,
    read_append (by omega) (by omega)]

theorem peekData_spec (good : heap.Good) (member : h ∈ heap.live)
    (few : heap.live.length + 2 < Word32.size) :
    ∃ next, heap.peekData garbage h = .ok (heap.content h, next) ∧ next.Good ∧
      next.strings = heap.strings := by
  have unused := heap.fresh_not_mem
  generalize temporary : heap.fresh = tmp at unused
  have differ : h ≠ tmp := fun is => unused (is ▸ member)
  obtain ⟨h1, copied, live1, one, flat⟩ :=
    createFullCopy_spec garbage good unused member (by omega)
  have member1 : h ∈ h1.live := (one.alters.names h differ).mpr member
  obtain ⟨h2, assigned, live2, two, same2⟩ := assign_spec one.good member1 one.member
    (by rw [live1, List.length_cons]; omega)
  have tmp2 : tmp ∈ h2.live := live2 ▸ one.member
  obtain ⟨h3, destroyed, good3, live3, same3, strings3⟩ := destroy_spec two.good tmp2
  have member3 : h ∈ h3.live := by
    rw [live3]
    exact (List.mem_erase_of_ne differ).mpr two.member
  have all : h3.strings = heap.strings := by
    funext g
    rw [strings3, two.strings, one.strings, one.content]
    by_cases isTmp : g = tmp
    · rw [isTmp, Function.update_self, strings_eq_none.mpr unused]
    rw [Function.update_of_ne isTmp]
    by_cases self : g = h
    · rw [self, Function.update_self, strings_of_mem member]
    · rw [Function.update_of_ne self, Function.update_of_ne isTmp]
  have own : h3.content h = heap.content h := by
    have found := congrFun all h
    rw [strings_of_mem member3, strings_of_mem member] at found
    exact Option.some.inj found
  obtain ⟨d, loaded, bytes⟩ := good3.flat member3 (by rw [same3, same2]; exact flat)
  refine ⟨h3, ?_, good3, all⟩
  rw [peekData]
  dsimp only
  rw [temporary, copied, ok_bind, assigned, ok_bind, destroyed, ok_bind,
    show h3.memory.load (h3.buffer h).data = .ok d from loaded, ok_bind, bytes, ok_bind, own]

theorem call_spec (good : heap.Good) {c : BufferCall} (legal : heap.Legal c) :
    ∃ next, heap.call garbage c = .ok ((heap.strings.call c).1, next) ∧ next.Good ∧
      next.strings = (heap.strings.call c).2 := by
  obtain ⟨few, legal⟩ := legal
  cases c with
  | create h zeroSize =>
      obtain ⟨unused, short⟩ := legal
      have done := create_spec garbage good (strings_eq_none.mp unused) short
      exact ⟨_, rfl, done.good, done.strings⟩
  | copy h o =>
      obtain ⟨unused, source⟩ := legal
      have member := strings_isSome.mp source
      obtain ⟨next, done, -, becomes, -⟩ :=
        copy_spec good (strings_eq_none.mp unused) member (by omega)
      exact ⟨next, by rw [call, done]; rfl, becomes.good, by
        rw [becomes.strings, ByteStrings.call, strings_of_mem member]⟩
  | assign h o =>
      obtain ⟨target, source⟩ := legal
      have member := strings_isSome.mp source
      obtain ⟨next, done, -, becomes, -⟩ :=
        assign_spec good (strings_isSome.mp target) member (by omega)
      exact ⟨next, by rw [call, done]; rfl, becomes.good, by
        rw [becomes.strings, ByteStrings.call, strings_of_mem member]⟩
  | destroy h =>
      obtain ⟨next, done, good', -, -, strings⟩ := destroy_spec good (strings_isSome.mp legal)
      exact ⟨next, by rw [call, done]; rfl, good', strings⟩
  | addAtStart h bytes =>
      obtain ⟨x, is, short⟩ := legal
      have member : h ∈ heap.live := strings_isSome.mp (by rw [Option.mem_def.mp is]; rfl)
      rw [Option.mem_def, strings_of_mem member] at is
      obtain rfl := Option.some.inj is
      obtain ⟨next, done, becomes⟩ := addAtStart_spec garbage good member short
      exact ⟨next, by rw [call, done]; rfl, becomes.good, by
        rw [becomes.strings, ByteStrings.call, strings_of_mem member]; rfl⟩
  | addAtEnd h bytes =>
      obtain ⟨x, is, short⟩ := legal
      have member : h ∈ heap.live := strings_isSome.mp (by rw [Option.mem_def.mp is]; rfl)
      rw [Option.mem_def, strings_of_mem member] at is
      obtain rfl := Option.some.inj is
      obtain ⟨next, done, becomes⟩ := addAtEnd_spec garbage good member short
      exact ⟨next, by rw [call, done]; rfl, becomes.good, by
        rw [becomes.strings, ByteStrings.call, strings_of_mem member]; rfl⟩
  | removeAtStart h n =>
      obtain ⟨source, small⟩ := legal
      have member := strings_isSome.mp source
      obtain ⟨next, done, -, becomes⟩ := removeAtStart_spec good member small
      exact ⟨next, by rw [call, done]; rfl, becomes.good, by
        rw [becomes.strings, ByteStrings.call, strings_of_mem member]; rfl⟩
  | removeAtEnd h n =>
      have member := strings_isSome.mp legal
      have becomes := removeAtEnd_spec good member n
      exact ⟨_, rfl, becomes.good, by
        rw [becomes.strings, ByteStrings.call, strings_of_mem member]; rfl⟩
  | createFragment h o start length =>
      obtain ⟨unused, x, is, inside⟩ := legal
      have member : o ∈ heap.live := strings_isSome.mp (by rw [Option.mem_def.mp is]; rfl)
      rw [Option.mem_def, strings_of_mem member] at is
      obtain rfl := Option.some.inj is
      obtain ⟨next, done, becomes⟩ :=
        createFragment_spec good (strings_eq_none.mp unused) member (by omega) inside
      exact ⟨next, by rw [call, done]; rfl, becomes.good, by
        rw [becomes.strings, ByteStrings.call, strings_of_mem member]; rfl⟩
  | peekData h =>
      have member := strings_isSome.mp legal
      obtain ⟨next, done, good', strings⟩ := peekData_spec garbage good member few
      refine ⟨next, ?_, good', strings⟩
      rw [call, done, ByteStrings.call, strings_of_mem member]
      rfl
  | copyData h size =>
      have member := strings_isSome.mp legal
      refine ⟨heap, ?_, good, rfl⟩
      rw [call, copyData_spec good member, ByteStrings.call, strings_of_mem member]
      rfl

end Calls

section Runs

variable {garbage : Nat → Nat → UInt8} {labels : List (BufferCall × List UInt8)}

theorem step_spec (good : heap.Good) {label : BufferCall × List UInt8}
    (step : heap.Step garbage label next) :
    next.Good ∧ heap.strings.Step label next.strings := by
  obtain ⟨legal, done⟩ := step
  obtain ⟨next', done', good', strings⟩ := call_spec garbage good legal
  rw [done] at done'
  obtain ⟨answer, same⟩ := Prod.mk.inj (Except.ok.inj done')
  subst same
  exact ⟨good', legal.2, Prod.ext answer.symm strings.symm⟩

theorem run_good (run : Run (Step garbage) init labels heap) : heap.Good :=
  run.invariant Good init_good fun _ _ _ good step => (step_spec good step).1

/-- Whatever is done to the buffers, and in whatever order, no buffer notices the others. -/
theorem buffers_are_strings (run : Run (Step garbage) init labels heap) :
    Run ByteStrings.Step (fun _ => none) labels heap.strings := by
  induction run with
  | nil =>
      have empty : init.strings = fun _ => none := rfl
      rw [empty]
      exact .nil
  | snoc earlier last ih => exact ih.snoc (step_spec (run_good earlier) last).2

theorem step_length (good : heap.Good) {label : BufferCall × List UInt8}
    (step : heap.Step garbage label next) : next.live.length ≤ heap.live.length + 1 := by
  obtain ⟨good', strings⟩ := step_spec good step
  have names : ∃ h, ∀ g ∈ next.live, g ∈ h :: heap.live := by
    obtain ⟨h, only⟩ := ByteStrings.call_names heap.strings label.1
    refine ⟨h, fun g member => ?_⟩
    have some := strings_isSome.mpr member
    rw [show next.strings = (heap.strings.call label.1).2 by rw [strings.2]] at some
    rcases only g some with same | old
    · exact List.mem_cons.mpr (.inl same)
    · exact List.mem_cons_of_mem _ (strings_isSome.mp old)
  obtain ⟨h, within⟩ := names
  exact (List.subperm_of_subset good'.nodup within).length_le

theorem served_run (good : heap.Good) {s : ByteStrings}
    (few : heap.live.length + labels.length + 2 < Word32.size)
    (run : Run ByteStrings.Step heap.strings labels s) :
    ∃ next, Run (Step garbage) heap labels next ∧ next.Good ∧ next.strings = s ∧
      next.live.length ≤ heap.live.length + labels.length := by
  induction run with
  | nil => exact ⟨heap, .nil, good, rfl, Nat.le_refl _⟩
  | snoc earlier last ih =>
      rw [List.length_append, List.length_singleton] at few
      obtain ⟨middle, run, good', same, short⟩ := ih (by omega)
      obtain ⟨legal, answer⟩ := last
      rw [← same] at legal answer
      obtain ⟨next, done, good'', strings⟩ := call_spec garbage good' ⟨by omega, legal⟩
      rw [answer] at done strings
      have step : middle.Step garbage _ next := ⟨⟨by omega, legal⟩, done⟩
      have longer := step_length good' step
      refine ⟨next, run.snoc step, good'', strings, ?_⟩
      rw [List.length_append, List.length_singleton]
      omega

/-- The buffers can do what byte strings can, with the same answers, and nothing else. -/
theorem buffer_runs_iff (few : labels.length + 2 < Word32.size) (s : ByteStrings) :
    (∃ heap, Run (Step garbage) init labels heap ∧ heap.strings = s) ↔
      Run ByteStrings.Step (fun _ => none) labels s := by
  constructor
  · intro both
    obtain ⟨heap, run, same⟩ := both
    exact same ▸ buffers_are_strings run
  · intro run
    obtain ⟨heap, done, -, same, -⟩ := served_run init_good
      (by rw [show init.live.length = 0 from rfl]; omega) run
    exact ⟨heap, done, same⟩

/-- No call fails, and the check of the internal state holds for every buffer. -/
theorem buffer_calls_served (run : Run (Step garbage) init labels heap) :
    (∀ c, heap.Legal c → ∃ answer next, heap.Step garbage (c, answer) next) ∧
      ∀ h ∈ heap.live, ∃ d, heap.memory.datas (heap.buffer h).data = some d ∧
        (heap.buffer h).checkInternalState d := by
  have good := run_good run
  constructor
  · intro c legal
    obtain ⟨next, done, -⟩ := call_spec garbage good legal
    exact ⟨_, next, legal, done⟩
  · intro h member
    obtain ⟨d, held, fits⟩ := good.held h member
    exact ⟨d, held, fits.checked (good.used _ d held)⟩

/-- Data are released with the last buffer that refers to them, and not before. -/
theorem data_live_iff (run : Run (Step garbage) init labels heap) (a : Nat) :
    ((heap.memory.datas a).isSome ↔ ∃ h ∈ heap.live, (heap.buffer h).data = a) ∧
      ∀ d, heap.memory.datas a = some d →
        d.count = heap.live.countP fun h => (heap.buffer h).data = a := by
  have good := run_good run
  refine ⟨⟨?_, ?_⟩, fun d held => good.counted a d held⟩
  · intro found
    obtain ⟨d, held⟩ := Option.isSome_iff_exists.mp found
    have some := good.used a d held
    rw [good.counted a d held] at some
    obtain ⟨h, member, is⟩ := List.countP_pos_iff.mp some
    exact ⟨h, member, of_decide_eq_true is⟩
  · intro found
    obtain ⟨h, member, is⟩ := found
    obtain ⟨d, held, -⟩ := good.held h member
    rw [← is, held]
    rfl

end Runs

end Served

section Example

instance (s : ByteStrings) : DecidablePred s.Legal
  | .create h zeroSize => inferInstanceAs (Decidable (s h = none ∧ zeroSize < 2147483648))
  | .copy h o => inferInstanceAs (Decidable (s h = none ∧ (s o).isSome))
  | .assign h o => inferInstanceAs (Decidable ((s h).isSome ∧ (s o).isSome))
  | .destroy h | .peekData h | .copyData h _ | .removeAtEnd h _ =>
      inferInstanceAs (Decidable ((s h).isSome = true))
  | .addAtStart h bytes | .addAtEnd h bytes =>
      inferInstanceAs (Decidable (∃ x ∈ s h, x.length + bytes.length < 2147483648))
  | .removeAtStart h n => inferInstanceAs (Decidable ((s h).isSome ∧ n < 2147483648))
  | .createFragment h o start length =>
      inferInstanceAs (Decidable (s h = none ∧ ∃ x ∈ s o, start + length ≤ x.length))

instance (heap : BufferHeap) (c : BufferCall) : Decidable (heap.Legal c) :=
  inferInstanceAs (Decidable (_ ∧ _))

def takes (garbage : Nat → Nat → UInt8) (heap : BufferHeap) (label : BufferCall × List UInt8) :
    Bool :=
  decide (heap.Legal label.1) &&
    match heap.call garbage label.1 with
    | .error _ => false
    | .ok (answer, _) => decide (answer = label.2)

def next (garbage : Nat → Nat → UInt8) (heap : BufferHeap) (label : BufferCall × List UInt8) :
    BufferHeap :=
  match heap.call garbage label.1 with
  | .error _ => heap
  | .ok (_, after) => after

theorem step_next (garbage : Nat → Nat → UInt8) (heap : BufferHeap)
    (label : BufferCall × List UInt8) (taken : heap.takes garbage label = true) :
    heap.Step garbage label (heap.next garbage label) := by
  unfold takes at taken
  obtain ⟨legal, fits⟩ := Bool.and_eq_true_iff.mp taken
  refine ⟨of_decide_eq_true legal, ?_⟩
  unfold next
  cases found : heap.call garbage label.1 with
  | error failure => simp [found] at fits
  | ok done =>
      rw [← of_decide_eq_true (show decide (done.1 = label.2) = true by simpa [found] using fits)]

/-- A header on a payload of three zeros, then another header on the packet and on its copy. -/
def twoCopies : List (BufferCall × List UInt8) :=
  [(.create 1 3, []), (.addAtStart 1 [5], []), (.copy 2 1, []), (.addAtStart 1 [7], []),
    (.addAtStart 2 [9], []), (.removeAtEnd 2 2, []), (.peekData 2, [9, 5, 0]),
    (.copyData 1 9, [7, 5, 0, 0, 0])]

def afterCopies : BufferHeap := twoCopies.foldl (next fun _ _ => 255) init

theorem twoCopies_run : Run (Step fun _ _ => 255) init twoCopies afterCopies :=
  Run.executed (step_next _) twoCopies (by decide +kernel)

theorem buffer_runs_copies :
    (∃ heap, Run (Step fun _ _ => 255) init twoCopies heap ∧ heap.strings = afterCopies.strings) ↔
      Run ByteStrings.Step (fun _ => none) twoCopies afterCopies.strings :=
  buffer_runs_iff (by decide) _

theorem buffer_calls_served_copies :
    ∃ answer after, afterCopies.Step (fun _ _ => 255) (.createFragment 3 1 1 2, answer) after :=
  (buffer_calls_served twoCopies_run).1 _ (by decide +kernel)

theorem data_live_copies :
    (afterCopies.memory.datas 0).isSome ↔
      ∃ h ∈ afterCopies.live, (afterCopies.buffer h).data = 0 :=
  (data_live_iff twoCopies_run 0).1

end Example

end BufferHeap

end Floodgate
