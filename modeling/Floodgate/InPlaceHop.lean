import Floodgate.HopRecords
import Floodgate.Library.ByteMemory
import Floodgate.WireFormat

/-! The switch writes its hop into the bytes of a packet, at the place where the headers of a data
packet put the INT header. -/

namespace Floodgate

open ByteReader ByteMemory

namespace IntHeader

/-- `PushHop` on the header that the bytes from `offset` on are cast to. -/
def pushInPlace (mode multi : UInt32) (offset : Nat) (s : HopSample) (buf : List UInt8) :
    Option (List UInt8) :=
  if mode = 0 then
    let nhop := load 2 (offset + maxHop * 8) buf
    let hop := offset + nhop % maxHop * 8
    if IntHop.bytesPerUnit multi = 0 ∨ IntHop.qlenPerUnit multi = 0 then none
    else some (store 2 (offset + maxHop * 8) (nhop + 1)
      (store 8 hop (IntHop.setFields multi (load 8 hop buf) s) buf))
  else some buf

end IntHeader

namespace SwitchNode

/-- Where `SwitchNotifyDequeue` looks for the INT header. -/
def intOffset : Nat := PppHeader.getStaticSize + 20 + 8 + 6

def pushInt (ccMode mode multi : UInt32) (s : HopSample) (buf : List UInt8) :
    Option (List UInt8) :=
  if buf[PppHeader.getStaticSize + 9]? = some 0x11 ∧ ccMode = 3 then
    IntHeader.pushInPlace mode multi intOffset s buf
  else some buf

end SwitchNode

def UdpHeader.deserialize : Reader UdpHeader := do
  let sourcePort ← readNtohU16
  let destinationPort ← readNtohU16
  skip 2
  skip 2
  pure { sourcePort := sourcePort, destinationPort := destinationPort }

/-- `memory` is the INT header that the header starts with. -/
def SeqTsHeader.deserialize (mode : UInt32) (memory : IntHeader) : Reader SeqTsHeader := do
  let seq ← readNtohU32
  let pg ← readNtohU16
  let ih ← memory.deserialize mode
  pure { seq := seq, pg := pg, ih := ih }

def reencode (mode multi : UInt32) (memory : IntHeader) (s : HopSample) (p : List UInt8) :
    Option (List UInt8) := do
  let (ppp, p) ← removeHeader PppHeader.deserialize (fun _ => PppHeader.getStaticSize) p
  let (ip, p) ← removeHeader Ipv4Header.deserialize (fun h => h.headerSize.toNat) p
  let (udp, p) ← removeHeader UdpHeader.deserialize (fun _ => 8) p
  let (seqTs, p) ← removeHeader (SeqTsHeader.deserialize mode memory)
    (fun _ => 6 + IntHeader.getStaticSize mode) p
  let ih ← seqTs.ih.pushHop mode multi s
  let p := SeqTsHeader.serialize mode { seqTs with ih := ih } ++ p
  let p := udp.serialize (UInt16.ofNat (8 + p.length)) ++ p
  some (ppp.serialize ++ (ip.serialize ++ p))

namespace IntHop

variable {multi : UInt32} {s : HopSample}

theorem serialize_word (hop : IntHop) : hop.serialize = littleEndian 8 hop.word := by
  have small := hop.buf0.toNat_lt
  have high : hop.word / 256 ^ 4 = hop.buf1.toNat := by
    unfold word
    omega
  have low : hop.word % 256 ^ 4 = hop.buf0.toNat := by
    unfold word
    omega
  rw [serialize, writeU32, writeU32, ← littleEndian_append 4 4, high,
    ← littleEndian_mod 4 hop.word, low]

theorem serialize_length (hop : IntHop) : hop.serialize.length = 8 := by
  rw [serialize_word, littleEndian_length]

theorem value_serialize (hop : IntHop) : value hop.serialize = hop.word := by
  have small := @word_lt hop
  rw [serialize_word, value_littleEndian]
  exact Nat.mod_eq_of_lt small

theorem serialize_ofWord {word : Nat} (small : word < 2 ^ 64) :
    (ofWord word).serialize = littleEndian 8 word := by
  rw [serialize_word, word_ofWord small]

end IntHop

namespace IntHeader

variable {mode multi : UInt32} {s : HopSample} {before after : List UInt8}

/-- The bytes of a header do not show what the mode leaves out. -/
theorem serialize_receive (memory ih : IntHeader) :
    (memory.receive mode ih).serialize mode = ih.serialize mode := by
  unfold receive serialize
  split_ifs
  · rfl
  · rfl
  · rfl

theorem pushHop_receive (memory ih : IntHeader) :
    (memory.receive mode ih).pushHop mode multi s =
      (ih.pushHop mode multi s).map (memory.receive mode) := by
  unfold pushHop
  by_cases int : mode = 0
  · subst int
    rw [if_pos rfl, if_pos rfl, Option.map_map]
    rfl
  · rw [if_neg int, if_neg int, Option.map_some]

theorem hops_length (hops : List.Vector IntHop maxHop) :
    (hops.toList.flatMap IntHop.serialize).length = maxHop * 8 := by
  rw [flatMap_length IntHop.serialize_length, List.Vector.toList_length]

section Places

variable {offset : Nat}

theorem load_nhop (start : before.length = offset) (hops : List.Vector IntHop maxHop)
    (nhop : UInt16) :
    load 2 (offset + maxHop * 8)
        (before ++ (hops.toList.flatMap IntHop.serialize ++ (writeU16 nhop ++ after))) =
      nhop.toNat := by
  have place : (before ++ hops.toList.flatMap IntHop.serialize).length = offset + maxHop * 8 := by
    rw [List.length_append, start, hops_length]
  have small := nhop.toNat_lt
  rw [← List.append_assoc, load_piece place (writeU16_length nhop), writeU16,
    value_littleEndian]
  exact Nat.mod_eq_of_lt small

theorem store_nhop (start : before.length = offset) (hops : List.Vector IntHop maxHop)
    (nhop : UInt16) :
    store 2 (offset + maxHop * 8) (nhop.toNat + 1)
        (before ++ (hops.toList.flatMap IntHop.serialize ++ (writeU16 nhop ++ after))) =
      before ++ (hops.toList.flatMap IntHop.serialize ++ (writeU16 (nhop + 1) ++ after)) := by
  have place : (before ++ hops.toList.flatMap IntHop.serialize).length = offset + maxHop * 8 := by
    rw [List.length_append, start, hops_length]
  have next : littleEndian 2 (nhop.toNat + 1) = writeU16 (nhop + 1) := by
    rw [writeU16, UInt16.toNat_add, ← littleEndian_mod]
    rfl
  rw [← List.append_assoc, store_piece place (writeU16_length nhop), next, List.append_assoc]

theorem place_hop (start : before.length = offset) (hops : List.Vector IntHop maxHop)
    (i : Fin maxHop) :
    (before ++ (hops.toList.take i.val).flatMap IntHop.serialize).length =
      offset + i.val * 8 := by
  have inside : i.val ≤ hops.toList.length := by
    rw [List.Vector.toList_length]
    exact Nat.le_of_lt i.isLt
  rw [List.length_append, start, flatMap_length IntHop.serialize_length, List.length_take,
    Nat.min_eq_left inside]

theorem load_hop (start : before.length = offset) (hops : List.Vector IntHop maxHop)
    (i : Fin maxHop) :
    load 8 (offset + i.val * 8) (before ++ (hops.toList.flatMap IntHop.serialize ++ after)) =
      (hops.get i).word := by
  have inside : i.val < hops.toList.length := by
    rw [List.Vector.toList_length]
    exact i.isLt
  have element : hops.toList[i.val] = hops.get i := (List.Vector.get_eq_get_toList hops i).symm
  rw [flatMap_slot hops.toList inside, List.append_assoc, List.append_assoc, ← List.append_assoc,
    load_piece (place_hop start hops i) (IntHop.serialize_length _), element,
    IntHop.value_serialize]

theorem store_hop (start : before.length = offset) (hops : List.Vector IntHop maxHop)
    (i : Fin maxHop) {word : Nat} (small : word < 2 ^ 64) :
    store 8 (offset + i.val * 8) word
        (before ++ (hops.toList.flatMap IntHop.serialize ++ after)) =
      before ++ ((hops.set i (IntHop.ofWord word)).toList.flatMap IntHop.serialize ++ after) := by
  have inside : i.val < hops.toList.length := by
    rw [List.Vector.toList_length]
    exact i.isLt
  rw [flatMap_slot hops.toList inside, List.append_assoc, List.append_assoc, ← List.append_assoc,
    store_piece (place_hop start hops i) (IntHop.serialize_length _), List.Vector.toList_set,
    flatMap_set hops.toList inside, IntHop.serialize_ofWord small]
  simp only [List.append_assoc]

end Places

/-- A header in place gets the bytes that it has when it is written again. -/
theorem pushInPlace_eq {offset : Nat} (start : before.length = offset) (ih : IntHeader) :
    pushInPlace mode multi offset s (before ++ (ih.serialize mode ++ after)) =
      (ih.pushHop mode multi s).map fun pushed =>
        before ++ (pushed.serialize mode ++ after) := by
  unfold pushInPlace pushHop
  by_cases int : mode = 0
  · subst int
    have bytes : ∀ written : IntHeader, before ++ (written.serialize 0 ++ after) =
        before ++ (written.hop.toList.flatMap IntHop.serialize ++
          (writeU16 written.nhop ++ after)) := by
      intro written
      rw [serialize, if_pos rfl, List.append_assoc]
    have found : load 8 (offset + ih.nhop.toNat % maxHop * 8)
        (before ++ (ih.hop.toList.flatMap IntHop.serialize ++ (writeU16 ih.nhop ++ after))) =
        (ih.hop.get (slot ih.nhop)).word := load_hop start ih.hop (slot ih.nhop)
    have small : IntHop.setFields multi (ih.hop.get (slot ih.nhop)).word s < 2 ^ 64 :=
      IntHop.setFields_lt IntHop.word_lt
    have stored := @store_hop before (writeU16 ih.nhop ++ after) offset start ih.hop
      (slot ih.nhop) _ small
    have counted := @store_nhop before after offset start
      (ih.hop.set (slot ih.nhop)
        (IntHop.ofWord (IntHop.setFields multi (ih.hop.get (slot ih.nhop)).word s))) ih.nhop
    rw [if_pos rfl, if_pos rfl, bytes, load_nhop start ih.hop ih.nhop]
    simp only [found, IntHop.set]
    split
    · rfl
    · simp only [Option.map_some, bytes]
      exact congrArg some ((congrArg _ stored).trans counted)
  · rw [if_neg int, if_neg int, Option.map_some]

end IntHeader

section Reencode

variable {mode multi : UInt32} {s : HopSample} {p : List UInt8}

theorem UdpHeader.reads (h : UdpHeader) (size : UInt16) :
    Reads UdpHeader.deserialize (h.serialize size) h :=
  (reads_ntohU16 h.sourcePort).bind <| (reads_ntohU16 h.destinationPort).bind <|
    (reads_skip (writeHtonU16_length size)).bind <| (reads_skip (writeU16_length 0)).last _

theorem SeqTsHeader.reads (memory : IntHeader) (h : SeqTsHeader) :
    Reads (SeqTsHeader.deserialize mode memory) (h.serialize mode)
      { h with ih := memory.receive mode h.ih } :=
  (reads_ntohU32 h.seq).bind <| (reads_ntohU16 h.pg).bind <|
    (IntHeader.reads memory h.ih).last _

theorem removeHeader_reads {Header : Type} {r : Reader Header} {size : Header → Nat}
    {bytes : List UInt8} {h : Header} (read : Reads r bytes h) (sized : bytes.length = size h)
    (rest : List UInt8) : removeHeader r size (bytes ++ rest) = some (h, rest) := by
  rw [removeHeader, read rest, Option.map_some, List.drop_left' sized]

open RdmaHw in
theorem dataStack_parts (qp : QpAddress) (seq : UInt32) (ih : IntHeader) (payload : UInt32) :
    ∃ udpSize ipSize : UInt16,
      udpSize = UInt16.ofNat (8 + (6 + IntHeader.getStaticSize mode + payload.toNat)) ∧
      dataStack mode qp seq ih payload = (PppHeader.mk 0x0021).serialize ++
        ((dataIp qp ipSize).serialize ++ ((UdpHeader.mk qp.sport qp.dport).serialize udpSize ++
          ((SeqTsHeader.mk seq qp.pg ih).serialize mode ++ createPacket payload.toNat))) := by
  refine ⟨_, _, ?_, rfl⟩
  rw [List.length_append, SeqTsHeader.serialize_length, createPacket, List.length_replicate]

theorem reencode_stack (ppp : PppHeader) {ip : Ipv4Header} (plain : ip.Plain) (udp : UdpHeader)
    (memory : IntHeader) (seqTs : SeqTsHeader) (payload : List UInt8) :
    reencode mode multi memory s (ppp.serialize ++ (ip.serialize ++ (udp.serialize
        (UInt16.ofNat (8 + (6 + IntHeader.getStaticSize mode + payload.length))) ++
          (seqTs.serialize mode ++ payload)))) =
      (seqTs.ih.pushHop mode multi s).map fun pushed =>
        ppp.serialize ++ (ip.serialize ++ (udp.serialize
          (UInt16.ofNat (8 + (6 + IntHeader.getStaticSize mode + payload.length))) ++
            (SeqTsHeader.serialize mode { seqTs with ih := pushed } ++ payload))) := by
  have size : ip.serialize.length = ip.headerSize.toNat := by
    rw [plain.headerSize, ip.serialize_length]
    rfl
  unfold reencode
  rw [removeHeader_reads ppp.reads ppp.serialize_length]
  simp only [Option.bind_eq_bind, Option.bind_some]
  rw [removeHeader_reads (ip.reads plain) size]
  simp only [Option.bind_some]
  rw [removeHeader_reads (udp.reads _) (udp.serialize_length _)]
  simp only [Option.bind_some]
  rw [removeHeader_reads (SeqTsHeader.reads memory seqTs) (seqTs.serialize_length mode)]
  simp only [Option.bind_some, IntHeader.pushHop_receive]
  cases seqTs.ih.pushHop mode multi s with
  | none => rfl
  | some pushed =>
      have bytes : SeqTsHeader.serialize mode { seqTs with ih := memory.receive mode pushed } =
          SeqTsHeader.serialize mode { seqTs with ih := pushed } := by
        simp only [SeqTsHeader.serialize, IntHeader.serialize_receive]
      simp only [Option.map_some, Option.bind_some, bytes, List.length_append,
        SeqTsHeader.serialize_length]

theorem stack_front (mode : UInt32) (ppp : PppHeader) (ip : Ipv4Header) (udp : UdpHeader)
    (size : UInt16) (seqTs : SeqTsHeader) (payload : List UInt8) :
    ∃ front : List UInt8, front.length = SwitchNode.intOffset ∧ ∀ ih : IntHeader,
      ppp.serialize ++ (ip.serialize ++ (udp.serialize size ++
        (SeqTsHeader.serialize mode { seqTs with ih := ih } ++ payload))) =
      front ++ (ih.serialize mode ++ payload) := by
  refine ⟨ppp.serialize ++ (ip.serialize ++ (udp.serialize size ++
    (writeHtonU32 seqTs.seq ++ writeHtonU16 seqTs.pg))), ?_, fun ih => ?_⟩
  · simp only [List.length_append, PppHeader.serialize_length, Ipv4Header.serialize_length,
      UdpHeader.serialize_length, writeHtonU32_length, writeHtonU16_length,
      SwitchNode.intOffset]
  · simp only [SeqTsHeader.serialize, List.append_assoc]

theorem protocol_stack (ppp : PppHeader) (ip : Ipv4Header) (rest : List UInt8) :
    (ppp.serialize ++ (ip.serialize ++ rest))[PppHeader.getStaticSize + 9]? =
      some ip.protocol := by
  rw [List.getElem?_append_right (by rw [ppp.serialize_length]; omega), ppp.serialize_length,
    Nat.add_sub_cancel_left]
  rfl

theorem getElem?_around {before left right after : List UInt8} (same : left.length = right.length)
    {i : Nat} (outside : i < before.length ∨ before.length + left.length ≤ i) :
    (before ++ (left ++ after))[i]? = (before ++ (right ++ after))[i]? := by
  rcases outside with below | above
  · rw [List.getElem?_append_left below, List.getElem?_append_left below]
  · rw [List.getElem?_append_right (by omega), List.getElem?_append_right (by omega),
      List.getElem?_append_right (by omega), List.getElem?_append_right (by omega), same]

end Reencode

structure EditsInPlace (mode multi : UInt32) (memory : IntHeader) (s : HopSample)
    (p : List UInt8) : Prop where
  switch : SwitchNode.pushInt 3 mode multi s p =
    IntHeader.pushInPlace mode multi SwitchNode.intOffset s p
  reencoded : IntHeader.pushInPlace mode multi SwitchNode.intOffset s p =
    reencode mode multi memory s p
  outside : ∀ q, IntHeader.pushInPlace mode multi SwitchNode.intOffset s p = some q →
    q.length = p.length ∧ ∀ i, i < SwitchNode.intOffset ∨
      SwitchNode.intOffset + IntHeader.getStaticSize mode ≤ i → q[i]? = p[i]?
  others : mode ≠ 0 → IntHeader.pushInPlace mode multi SwitchNode.intOffset s p = some p

/-- Editing the INT header of a data packet in place is taking its headers off, pushing the hop,
and adding them again, whatever the header held and however often the packet has been marked. -/
theorem data_edits_in_place (mode multi : UInt32) (memory : IntHeader) (qp : QpAddress)
    (seq : UInt32) (ih : IntHeader) (payload : UInt32) (marks : Nat) (s : HopSample) :
    ∃ p, rewrittenBy marks (RdmaHw.dataStack mode qp seq ih payload) = some p ∧
      EditsInPlace mode multi memory s p := by
  obtain ⟨udpSize, ipSize, sized, parts⟩ := @dataStack_parts mode qp seq ih payload
  have plain : (RdmaHw.dataIp qp ipSize).Plain := ⟨rfl, rfl, rfl⟩
  have marked : ((RdmaHw.dataIp qp ipSize).markedBy marks).Plain := by
    unfold Ipv4Header.markedBy
    split
    · exact plain
    · exact Ipv4Header.setEcn_plain plain 3
  obtain ⟨front, start, whole⟩ := stack_front mode ⟨0x0021⟩
    ((RdmaHw.dataIp qp ipSize).markedBy marks) ⟨qp.sport, qp.dport⟩ udpSize ⟨seq, qp.pg, ih⟩
    (createPacket payload.toNat)
  have edited := @IntHeader.pushInPlace_eq mode multi s front (createPacket payload.toNat)
    SwitchNode.intOffset start ih
  have again := @reencode_stack mode multi s ⟨0x0021⟩ _ marked ⟨qp.sport, qp.dport⟩ memory
    ⟨seq, qp.pg, ih⟩ (createPacket payload.toNat)
  have length : (createPacket payload.toNat).length = payload.toNat := List.length_replicate
  rw [length, ← sized] at again
  simp only [whole] at again
  have protocol := protocol_stack ⟨0x0021⟩ ((RdmaHw.dataIp qp ipSize).markedBy marks)
    ((UdpHeader.mk qp.sport qp.dport).serialize udpSize ++
      ((SeqTsHeader.mk seq qp.pg ih).serialize mode ++ createPacket payload.toNat))
  rw [(markedBy_kept marks).1, whole ih] at protocol
  refine ⟨front ++ (ih.serialize mode ++ createPacket payload.toNat), ?_, ?_, ?_, ?_, ?_⟩
  · rw [parts, rewrittenBy_stack plain]
    exact congrArg some (whole ih)
  · exact if_pos ⟨protocol, rfl⟩
  · rw [edited, again]
  · intro q pushed
    rw [edited] at pushed
    obtain ⟨after, _, rfl⟩ := Option.map_eq_some_iff.mp pushed
    have size : (after.serialize mode).length = (ih.serialize mode).length := by
      rw [IntHeader.serialize_length, IntHeader.serialize_length]
    refine ⟨?_, fun i outside => getElem?_around size ?_⟩
    · simp only [List.length_append, size]
    · rwa [start, IntHeader.serialize_length]
  · intro other
    exact if_neg other

end Floodgate
