import Floodgate.Library.ByteReader

/-! The bytes of a packet: how each header is written, and how those that a switch takes off are
read. The payload comes last, and the tags of a packet are not among its bytes. -/

namespace Floodgate

open ByteReader

section Iterator

/-! `Buffer::Iterator`. `WriteU16` and the like put the low byte first, `WriteHtonU16` the high. -/

def writeU8 (data : UInt8) : List UInt8 := [data]

def writeU16 (data : UInt16) : List UInt8 := littleEndian 2 data.toNat

def writeU32 (data : UInt32) : List UInt8 := littleEndian 4 data.toNat

def writeU64 (data : UInt64) : List UInt8 := littleEndian 8 data.toNat

def writeHtonU16 (data : UInt16) : List UInt8 := bigEndian 2 data.toNat

def writeHtonU32 (data : UInt32) : List UInt8 := bigEndian 4 data.toNat

def readU8 : Reader UInt8 := UInt8.ofNat <$> readLittle 1

def readU16 : Reader UInt16 := UInt16.ofNat <$> readLittle 2

def readU32 : Reader UInt32 := UInt32.ofNat <$> readLittle 4

def readU64 : Reader UInt64 := UInt64.ofNat <$> readLittle 8

def readNtohU16 : Reader UInt16 := UInt16.ofNat <$> readBig 2

def readNtohU32 : Reader UInt32 := UInt32.ofNat <$> readBig 4

@[simp] theorem writeU8_length (v : UInt8) : (writeU8 v).length = 1 := rfl

@[simp] theorem writeU16_length (v : UInt16) : (writeU16 v).length = 2 := littleEndian_length _ _

@[simp] theorem writeU32_length (v : UInt32) : (writeU32 v).length = 4 := littleEndian_length _ _

@[simp] theorem writeU64_length (v : UInt64) : (writeU64 v).length = 8 := littleEndian_length _ _

@[simp] theorem writeHtonU16_length (v : UInt16) : (writeHtonU16 v).length = 2 :=
  bigEndian_length _ _

@[simp] theorem writeHtonU32_length (v : UInt32) : (writeHtonU32 v).length = 4 :=
  bigEndian_length _ _

theorem reads_u8 (v : UInt8) : Reads readU8 (writeU8 v) v := by
  have read := (reads_little v.toNat_lt : Reads (readLittle 1) _ _).map UInt8.ofNat
  rwa [littleEndian, UInt8.ofNat_toNat] at read

theorem reads_u16 (v : UInt16) : Reads readU16 (writeU16 v) v := by
  have read := (reads_little v.toNat_lt : Reads (readLittle 2) _ _).map UInt16.ofNat
  rwa [UInt16.ofNat_toNat] at read

theorem reads_u32 (v : UInt32) : Reads readU32 (writeU32 v) v := by
  have read := (reads_little v.toNat_lt : Reads (readLittle 4) _ _).map UInt32.ofNat
  rwa [UInt32.ofNat_toNat] at read

theorem reads_u64 (v : UInt64) : Reads readU64 (writeU64 v) v := by
  have read := (reads_little v.toNat_lt : Reads (readLittle 8) _ _).map UInt64.ofNat
  rwa [UInt64.ofNat_toNat] at read

theorem reads_ntohU16 (v : UInt16) : Reads readNtohU16 (writeHtonU16 v) v := by
  have read := (reads_big v.toNat_lt : Reads (readBig 2) _ _).map UInt16.ofNat
  rwa [UInt16.ofNat_toNat] at read

theorem reads_ntohU32 (v : UInt32) : Reads readNtohU32 (writeHtonU32 v) v := by
  have read := (reads_big v.toNat_lt : Reads (readBig 4) _ _).map UInt32.ofNat
  rwa [UInt32.ofNat_toNat] at read

end Iterator

structure IntHop where
  buf0 : UInt32
  buf1 : UInt32
  deriving DecidableEq

namespace IntHop

def serialize (hop : IntHop) : List UInt8 := writeU32 hop.buf0 ++ writeU32 hop.buf1

def deserialize : Reader IntHop := do
  let buf0 ← readU32
  let buf1 ← readU32
  pure { buf0 := buf0, buf1 := buf1 }

theorem reads (hop : IntHop) : Reads deserialize hop.serialize hop :=
  (reads_u32 hop.buf0).bind ((reads_u32 hop.buf1).last (IntHop.mk hop.buf0 ·))

end IntHop

def IntHeader.maxHop : Nat := 5

/-- The hops and the timestamp share their memory; the mode of the run says which of them is
used. -/
structure IntHeader where
  hop : List.Vector IntHop IntHeader.maxHop
  nhop : UInt16
  ts : UInt64
  deriving DecidableEq

namespace IntHeader

variable (mode : UInt32)

def getStaticSize : Nat :=
  if mode = 0 then maxHop * 8 + 2
  else if mode = 1 then 8
  else 0

def serialize (ih : IntHeader) : List UInt8 :=
  if mode = 0 then ih.hop.toList.flatMap IntHop.serialize ++ writeU16 ih.nhop
  else if mode = 1 then writeU64 ih.ts
  else []

def deserialize (ih : IntHeader) : Reader IntHeader :=
  if mode = 0 then do
    let hop ← times IntHop.deserialize maxHop
    let nhop ← readU16
    pure { ih with hop := hop, nhop := nhop }
  else if mode = 1 then do
    let ts ← readU64
    pure { ih with ts := ts }
  else pure ih

def receive (ih written : IntHeader) : IntHeader :=
  if mode = 0 then { ih with hop := written.hop, nhop := written.nhop }
  else if mode = 1 then { ih with ts := written.ts }
  else ih

/-- The same contents, in the part that the mode writes. -/
structure Agrees (left right : IntHeader) : Prop where
  hop : mode = 0 → left.hop = right.hop
  nhop : mode = 0 → left.nhop = right.nhop
  ts : mode = 1 → left.ts = right.ts

variable {mode}

@[simp] theorem serialize_length (ih : IntHeader) :
    (ih.serialize mode).length = getStaticSize mode := by
  have hops : (ih.hop.toList.flatMap IntHop.serialize).length = maxHop * 8 := by
    have each : ∀ hop ∈ ih.hop.toList, (IntHop.serialize hop).length = 8 := by
      intro hop _
      rw [IntHop.serialize, List.length_append, writeU32_length, writeU32_length]
    rw [List.length_flatMap, List.map_congr_left each, List.map_const', List.sum_replicate,
      List.Vector.toList_length]
    rfl
  unfold serialize getStaticSize
  split_ifs
  · rw [List.length_append, hops, writeU16_length]
  · exact writeU64_length _
  · rfl

theorem reads (ih written : IntHeader) :
    Reads (ih.deserialize mode) (written.serialize mode) (ih.receive mode written) := by
  unfold deserialize serialize receive
  split_ifs
  · have hops := reads_times IntHop.reads written.hop
    exact hops.bind ((reads_u16 written.nhop).last fun nhop =>
      { ih with hop := written.hop, nhop := nhop })
  · exact (reads_u64 written.ts).last fun ts => { ih with ts := ts }
  · exact reads_pure

theorem receive_agrees (ih written : IntHeader) :
    Agrees mode (ih.receive mode written) written := by
  refine ⟨?_, ?_, ?_⟩
  all_goals
    intro chosen
    subst chosen
    rfl

end IntHeader

structure PppHeader where
  protocol : UInt16

namespace PppHeader

def getStaticSize : Nat := 38

def padding : List UInt8 := writeU64 0 ++ writeU32 0 ++ (List.replicate 6 (writeU32 0)).flatten

def serialize (h : PppHeader) : List UInt8 := writeHtonU16 h.protocol ++ padding

def deserialize : Reader PppHeader := do
  let protocol ← readNtohU16
  skip 36
  pure { protocol := protocol }

theorem padding_length : padding.length = 36 := by
  simp [padding]

@[simp] theorem serialize_length (h : PppHeader) : h.serialize.length = getStaticSize := by
  rw [serialize, List.length_append, writeHtonU16_length, padding_length, getStaticSize]

theorem reads (h : PppHeader) : Reads deserialize h.serialize h :=
  (reads_ntohU16 h.protocol).bind
    ((reads_skip padding_length).last fun _ => PppHeader.mk h.protocol)

end PppHeader

/-- The checksum stays disabled. `flags` has three bits. -/
structure Ipv4Header where
  payloadSize : UInt16
  identification : UInt16
  tos : UInt8
  ttl : UInt8
  protocol : UInt8
  flags : UInt8
  fragmentOffset : UInt16
  source : UInt32
  destination : UInt32
  headerSize : UInt16

namespace Ipv4Header

def init : Ipv4Header where
  payloadSize := 0
  identification := 0
  tos := 0
  ttl := 0
  protocol := 0
  flags := 0
  fragmentOffset := 0
  source := 0
  destination := 0
  headerSize := 20

def setEcn (h : Ipv4Header) (ecn : UInt8) : Ipv4Header := { h with tos := (h.tos &&& 0xfc) ||| ecn }

/-- The high five bits of the fragment offset, below `DONT_FRAGMENT` and `MORE_FRAGMENTS`. -/
def flagsFrag (h : Ipv4Header) : UInt8 :=
  ((h.fragmentOffset / 8) >>> 8 &&& 0x1f).toUInt8 |||
    (if h.flags &&& 1 ≠ 0 then (1 : UInt8) <<< 6 else 0) |||
    (if h.flags &&& 2 ≠ 0 then (1 : UInt8) <<< 5 else 0)

def serialize (h : Ipv4Header) : List UInt8 :=
  writeU8 0x45 ++ (writeU8 h.tos ++ (writeHtonU16 (h.payloadSize + 20) ++
    (writeHtonU16 h.identification ++ (writeU8 h.flagsFrag ++
    (writeU8 (h.fragmentOffset / 8 &&& 0xff).toUInt8 ++ (writeU8 h.ttl ++ (writeU8 h.protocol ++
    (writeHtonU16 0 ++ (writeHtonU32 h.source ++ writeHtonU32 h.destination)))))))))

/-- The iterator steps back over the flags, of which the fragment offset takes the low bits. -/
def deserialize : Reader Ipv4Header := do
  let verIhl ← readU8
  guard (verIhl >>> 4 = 4)
  let headerSize := (verIhl &&& 0x0f).toUInt16 * 4
  let tos ← readU8
  let size ← readNtohU16
  let identification ← readNtohU16
  let flags ← readU8
  let low ← readU8
  let ttl ← readU8
  let protocol ← readU8
  skip 2
  let source ← readNtohU32
  let destination ← readNtohU32
  pure
    { payloadSize := size - headerSize
      identification := identification
      tos := tos
      ttl := ttl
      protocol := protocol
      flags := (if flags &&& (1 : UInt8) <<< 6 ≠ 0 then 1 else 0) |||
        (if flags &&& (1 : UInt8) <<< 5 ≠ 0 then 2 else 0)
      fragmentOffset := ((flags &&& 0x1f).toUInt16 <<< 8 ||| low.toUInt16) <<< 3
      source := source
      destination := destination
      headerSize := headerSize }

structure Plain (h : Ipv4Header) : Prop where
  flags : h.flags = 0
  fragmentOffset : h.fragmentOffset = 0
  headerSize : h.headerSize = 20

@[simp] theorem serialize_length (h : Ipv4Header) : h.serialize.length = 20 := by
  simp [serialize]

theorem reads (h : Ipv4Header) (plain : h.Plain) : Reads deserialize h.serialize h := by
  have offset : h.flagsFrag = 0 := by
    rw [flagsFrag, plain.flags, plain.fragmentOffset]
    rfl
  have low : (h.fragmentOffset / 8 &&& 0xff).toUInt8 = 0 := by
    rw [plain.fragmentOffset]
    rfl
  have found : { h with
      payloadSize := h.payloadSize + 20 - 20
      flags := 0
      fragmentOffset := 0
      headerSize := 20 } = h := by
    rw [UInt16.add_sub_cancel, ← plain.flags, ← plain.fragmentOffset, ← plain.headerSize]
  have read : Reads deserialize h.serialize { h with
      payloadSize := h.payloadSize + 20 - 20
      flags := 0
      fragmentOffset := 0
      headerSize := 20 } := by
    rw [serialize, offset, low]
    exact (reads_u8 0x45).bind <| (reads_guard (by decide)).bind <| (reads_u8 h.tos).bind <|
      (reads_ntohU16 (h.payloadSize + 20)).bind <| (reads_ntohU16 h.identification).bind <|
      (reads_u8 0).bind <| (reads_u8 0).bind <| (reads_u8 h.ttl).bind <|
      (reads_u8 h.protocol).bind <| (reads_skip (writeHtonU16_length 0)).bind <|
      (reads_ntohU32 h.source).bind <| (reads_ntohU32 h.destination).last _
  rwa [found] at read

theorem setEcn_plain {h : Ipv4Header} (plain : h.Plain) (ecn : UInt8) : (h.setEcn ecn).Plain :=
  ⟨plain.flags, plain.fragmentOffset, plain.headerSize⟩

end Ipv4Header

structure UdpHeader where
  sourcePort : UInt16
  destinationPort : UInt16

/-- `size` is what the iterator says of the buffer, this header included. -/
def UdpHeader.serialize (h : UdpHeader) (size : UInt16) : List UInt8 :=
  writeHtonU16 h.sourcePort ++ (writeHtonU16 h.destinationPort ++
    (writeHtonU16 size ++ writeU16 0))

@[simp] theorem UdpHeader.serialize_length (h : UdpHeader) (size : UInt16) :
    (h.serialize size).length = 8 := by
  simp [serialize]

structure SeqTsHeader where
  seq : UInt32
  pg : UInt16
  ih : IntHeader

def SeqTsHeader.serialize (mode : UInt32) (h : SeqTsHeader) : List UInt8 :=
  writeHtonU32 h.seq ++ (writeHtonU16 h.pg ++ h.ih.serialize mode)

@[simp] theorem SeqTsHeader.serialize_length (mode : UInt32) (h : SeqTsHeader) :
    (h.serialize mode).length = 6 + IntHeader.getStaticSize mode := by
  simp only [serialize, List.length_append, writeHtonU32_length, writeHtonU16_length,
    IntHeader.serialize_length]
  omega

structure QbbHeader where
  sport : UInt16
  dport : UInt16
  flags : UInt16
  pg : UInt16
  seq : UInt32
  ih : IntHeader

namespace QbbHeader

/-- The bit `FLAG_CNP`, which is number 0. -/
def setCnp (h : QbbHeader) : QbbHeader := { h with flags := h.flags ||| (1 : UInt16) <<< 0 }

def getSerializedSize (mode : UInt32) : Nat := 12 + IntHeader.getStaticSize mode

def serialize (mode : UInt32) (h : QbbHeader) : List UInt8 :=
  writeU16 h.sport ++ (writeU16 h.dport ++ (writeU16 h.flags ++ (writeU16 h.pg ++
    (writeU32 h.seq ++ h.ih.serialize mode))))

@[simp] theorem serialize_length (mode : UInt32) (h : QbbHeader) :
    (h.serialize mode).length = getSerializedSize mode := by
  simp only [serialize, getSerializedSize, List.length_append, writeU16_length, writeU32_length,
    IntHeader.serialize_length]
  omega

end QbbHeader

structure PauseHeader where
  time : UInt32
  qlen : UInt32
  qindex : UInt32

def PauseHeader.serialize (h : PauseHeader) : List UInt8 :=
  writeU32 h.time ++ (writeU32 h.qlen ++ writeU32 h.qindex)

@[simp] theorem PauseHeader.serialize_length (h : PauseHeader) : h.serialize.length = 12 := by
  simp [serialize]

end Floodgate
