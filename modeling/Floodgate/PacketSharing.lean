import Floodgate.BufferRuns
import Floodgate.WireFormat

/-! Packets over shared buffers: headers come and go on one packet, and its copies keep theirs. -/

namespace Floodgate

open LabelledRun ByteReader

namespace ByteStrings

variable {s : ByteStrings} {h : Nat} {x : List UInt8}

def adds (h : Nat) (header : List UInt8) : BufferCall × List UInt8 := (.addAtStart h header, [])

/-- `RemoveHeader` as a call, after the header has been read. -/
def removes (h size : Nat) : BufferCall × List UInt8 := (.removeAtStart h size, [])

theorem step_adds (is : s h = some x) {header : List UInt8}
    (short : x.length + header.length < 2147483648) :
    s.Step (adds h header) (Function.update s h (some (header ++ x))) := by
  refine ⟨⟨x, is, short⟩, ?_⟩
  rw [adds, call, is]
  rfl

theorem step_removes (is : s h = some x) {size : Nat} (short : size < 2147483648) :
    s.Step (removes h size) (Function.update s h (some (x.drop size))) := by
  refine ⟨⟨by rw [is]; rfl, short⟩, ?_⟩
  rw [removes, call, is]
  rfl

theorem run_stack {headers : List (List UInt8)} (is : s h = some x)
    (short : (headers.map List.length).sum + x.length < 2147483648) :
    Run Step s (headers.map (adds h))
      (Function.update s h (some (headers.foldl (fun p header => header ++ p) x))) := by
  induction headers generalizing s x with
  | nil =>
      rw [List.foldl_nil, ← is, Function.update_eq_self]
      exact .nil
  | cons header rest others =>
      rw [List.map_cons, List.sum_cons] at short
      have added : Step s (adds h header) (Function.update s h (some (header ++ x))) :=
        step_adds is (by omega)
      have later := others (s := Function.update s h (some (header ++ x)))
        (Function.update_self ..) (by rw [List.length_append]; omega)
      rw [Function.update_idem] at later
      exact (Run.single added).append later

theorem stack_length (headers : List (List UInt8)) (x : List UInt8) :
    (headers.foldl (fun p header => header ++ p) x).length =
      (headers.map List.length).sum + x.length := by
  induction headers generalizing x with
  | nil => exact (Nat.zero_add _).symm
  | cons header rest others =>
      rw [List.foldl_cons, others, List.map_cons, List.sum_cons, List.length_append]
      omega

theorem dataStack_headers (mode : UInt32) (qp : QpAddress) (seq : UInt32) (ih : IntHeader)
    (payloadSize : UInt32) :
    ∃ headers : List (List UInt8), headers.length = 4 ∧
      RdmaHw.dataStack mode qp seq ih payloadSize =
        headers.foldl (fun p header => header ++ p) (createPacket payloadSize.toNat) :=
  ⟨[_, _, _, _], rfl, rfl⟩

/-- The packet of `GetNxtPacket`, from its payload of zeros to the outermost header. -/
theorem run_dataStack (unused : s h = none) (mode : UInt32) (qp : QpAddress) (seq : UInt32)
    (ih : IntHeader) (payloadSize : UInt32)
    (short : (RdmaHw.dataStack mode qp seq ih payloadSize).length < 2147483648) :
    ∃ headers : List (List UInt8), headers.length = 4 ∧
      Run Step s ((.create h payloadSize.toNat, []) :: headers.map (adds h))
        (Function.update s h (some (RdmaHw.dataStack mode qp seq ih payloadSize))) := by
  obtain ⟨headers, four, is⟩ := dataStack_headers mode qp seq ih payloadSize
  rw [is] at short ⊢
  rw [stack_length, createPacket, List.length_replicate] at short
  have made : Step s (.create h payloadSize.toNat, [])
      (Function.update s h (some (createPacket payloadSize.toNat))) :=
    ⟨⟨unused, by omega⟩, rfl⟩
  have short' : (headers.map List.length).sum + (createPacket payloadSize.toNat).length <
      2147483648 := by
    rw [createPacket, List.length_replicate]
    exact short
  have stacked := run_stack (s := Function.update s h (some (createPacket payloadSize.toNat)))
    (Function.update_self ..) short'
  rw [Function.update_idem] at stacked
  exact ⟨headers, four, (Run.single made).append stacked⟩

theorem removeHeader_rest {Header : Type} {r : Reader Header} {size : Header → Nat}
    {p : List UInt8} {read : Header × List UInt8} (removed : removeHeader r size p = some read) :
    read.2 = p.drop (size read.1) := by
  obtain ⟨found, -, same⟩ := Option.map_eq_some_iff.mp removed
  rw [← same]

theorem run_rewriteEcn {y : List UInt8} (is : s h = some x) (marked : rewriteEcn x = some y)
    (short : x.length + 58 < 2147483648) :
    ∃ size ip ppp, Run Step s
      [removes h PppHeader.getStaticSize, removes h size, adds h ip, adds h ppp]
      (Function.update s h (some y)) := by
  obtain ⟨framed, unframed, marked⟩ := Option.bind_eq_some_iff.mp marked
  obtain ⟨bare, unwrapped, marked⟩ := Option.bind_eq_some_iff.mp marked
  have first := removeHeader_rest unframed
  have second := removeHeader_rest unwrapped
  have written : framed.1.serialize ++ ((bare.1.setEcn 3).serialize ++ bare.2) = y :=
    Option.some.inj marked
  have size := bare.1.headerSize.toNat_lt
  have shorter : framed.2.length ≤ x.length := by
    rw [first, List.length_drop]
    exact Nat.sub_le ..
  have shortest : bare.2.length ≤ x.length := by
    rw [second, List.length_drop]
    omega
  have one : Step s (removes h PppHeader.getStaticSize)
      (Function.update s h (some (x.drop PppHeader.getStaticSize))) :=
    step_removes is (by decide)
  have two : Step (Function.update s h (some framed.2)) (removes h bare.1.headerSize.toNat)
      (Function.update (Function.update s h (some framed.2)) h
        (some (framed.2.drop bare.1.headerSize.toNat))) :=
    step_removes (Function.update_self ..) (by omega)
  have short' : ([(bare.1.setEcn 3).serialize, framed.1.serialize].map List.length).sum +
      bare.2.length < 2147483648 := by
    simp only [List.map_cons, List.map_nil, List.sum_cons, List.sum_nil,
      Ipv4Header.serialize_length, PppHeader.serialize_length, PppHeader.getStaticSize]
    omega
  have rest := run_stack (s := Function.update s h (some bare.2)) (h := h)
    (Function.update_self ..) short'
  rw [← first] at one
  rw [← second, Function.update_idem] at two
  rw [Function.update_idem] at rest
  rw [← written]
  exact ⟨bare.1.headerSize.toNat, (bare.1.setEcn 3).serialize, framed.1.serialize,
    ((Run.single one).append (Run.single two)).append rest⟩

end ByteStrings

namespace BufferHeap

variable {garbage : Nat → Nat → UInt8} {labels : List (BufferCall × List UInt8)}
  {heap : BufferHeap} {h : Nat} {x y : List UInt8}

/-- A switch marks one packet. Its copies in other queues stay as they are, whatever they share. -/
theorem marks_one_packet (run : Run (Step garbage) init labels heap) (is : heap.strings h = some x)
    (marked : rewriteEcn x = some y) (short : x.length + 58 < 2147483648)
    (few : heap.live.length + 6 < Word32.size) :
    ∃ size ip ppp next, Run (Step garbage) heap
      [ByteStrings.removes h PppHeader.getStaticSize, ByteStrings.removes h size,
        ByteStrings.adds h ip, ByteStrings.adds h ppp] next ∧
      next.strings = Function.update heap.strings h (some y) := by
  obtain ⟨size, ip, ppp, done⟩ := ByteStrings.run_rewriteEcn is marked short
  obtain ⟨next, run', -, strings, -⟩ := served_run (run_good run)
    (by simp only [List.length_cons, List.length_nil]; omega) done
  exact ⟨size, ip, ppp, next, run', strings⟩

theorem packet_built (run : Run (Step garbage) init labels heap) (unused : heap.strings h = none)
    (mode : UInt32) (qp : QpAddress) (seq : UInt32) (ih : IntHeader) (payloadSize : UInt32)
    (short : (RdmaHw.dataStack mode qp seq ih payloadSize).length < 2147483648)
    (few : heap.live.length + 7 < Word32.size) :
    ∃ (headers : List (List UInt8)) (next : BufferHeap), Run (Step garbage) heap
        ((.create h payloadSize.toNat, []) :: headers.map (ByteStrings.adds h)) next ∧
      next.strings = Function.update heap.strings h
        (some (RdmaHw.dataStack mode qp seq ih payloadSize)) := by
  obtain ⟨headers, four, done⟩ :=
    ByteStrings.run_dataStack unused mode qp seq ih payloadSize short
  obtain ⟨next, run', -, strings, -⟩ := served_run (run_good run)
    (by rw [List.length_cons, List.length_map, four]; omega) done
  exact ⟨headers, next, run', strings⟩

end BufferHeap

end Floodgate
