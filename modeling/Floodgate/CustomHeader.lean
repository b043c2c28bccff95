import Floodgate.PacketHeaders

/-! The header that devices and hosts read a packet with: one parser for the bytes of all of its
headers. -/

namespace Floodgate

open ByteReader

/-! The five alternatives of the union have fields of their own here: of one object, only the
alternative of its protocol is read. -/

structure TcpFields where
  sport : UInt16
  dport : UInt16
  seq : UInt32
  ack : UInt32
  length : UInt8
  tcpFlags : UInt8
  windowSize : UInt16
  urgentPointer : UInt16
  optionBuf : List UInt8

structure UdpFields where
  sport : UInt16
  dport : UInt16
  payloadSize : UInt16
  pg : UInt16
  seq : UInt32
  ih : IntHeader

structure CnpFields where
  fid : UInt16
  qIndex : UInt8
  qfb : UInt16
  ecnBits : UInt8
  total : UInt16

structure AckFields where
  sport : UInt16
  dport : UInt16
  flags : UInt16
  pg : UInt16
  seq : UInt32
  ih : IntHeader

structure PfcFields where
  time : UInt32
  qlen : UInt32
  qIndex : UInt32

structure CustomHeader where
  brief : Bool
  headerType : UInt32
  getInt : Bool
  pppProto : UInt16
  payloadSize : UInt16
  ipid : UInt16
  tos : UInt8
  ttl : UInt8
  l3Prot : UInt8
  ipv4Flags : UInt8
  fragmentOffset : UInt16
  checksum : UInt16
  headerSize : UInt16
  sip : UInt32
  dip : UInt32
  tcp : TcpFields
  udp : UdpFields
  cnp : CnpFields
  ack : AckFields
  pfc : PfcFields

namespace CustomHeader

def l2Header : UInt32 := 1
def l3Header : UInt32 := 2
def l4Header : UInt32 := 4

def make (headerType : UInt32) (memory : CustomHeader) : CustomHeader :=
  { memory with
    brief := true
    headerType := headerType
    getInt := true
    pppProto := 0
    payloadSize := 0
    ipid := 0
    tos := 0
    ttl := 0
    l3Prot := 0
    ipv4Flags := 0
    fragmentOffset := 0
    checksum := 0
    headerSize := 20 }

variable (mode : UInt32) (ch : CustomHeader)

def has (layer : UInt32) : Bool := ch.headerType &&& layer ≠ 0

def getIpv4EcnBits : UInt8 := ch.tos &&& 3

def getAckSerializedSize : Nat := 2 + 2 + 2 + 2 + 4 + IntHeader.getStaticSize mode

def getUdpHeaderSize : Nat := 8 + 2 + 4 + IntHeader.getStaticSize mode

def getSerializedSize : Nat :=
  let l2 := if ch.has l2Header then 38 else 0
  let l3 := if ch.has l3Header then 5 * 4 else 0
  let l4 :=
    if !ch.has l4Header then 0
    else if ch.l3Prot = 0x6 then ch.tcp.length.toNat * 4
    else if ch.l3Prot = 0x11 then getUdpHeaderSize mode
    else if ch.l3Prot = 0xFC ∨ ch.l3Prot = 0xFD then getAckSerializedSize mode
    else if ch.l3Prot = 0xFF then 8
    else if ch.l3Prot = 0xFE then 12
    else 0
  l2 + l3 + l4

/-! The parts of `Deserialize`. -/

def readPpp : Reader CustomHeader := do
  let pppProto ← readNtohU16
  skip 36
  pure { ch with pppProto := pppProto }

/-- The header and the size that it gives, or nothing where the version is not 4. -/
def readIpv4 : Reader (Option (CustomHeader × Nat)) := do
  let verIhl ← readU8
  let headerSize := (verIhl &&& 0x0f).toUInt16 * 4
  if verIhl >>> 4 ≠ 4 then pure none
  else if ch.brief then do
    let tos ← readU8
    skip 2
    let ipid ← readNtohU16
    skip 3
    let l3Prot ← readU8
    skip 2
    let sip ← readNtohU32
    let dip ← readNtohU32
    pure (some ({ ch with tos := tos, ipid := ipid, l3Prot := l3Prot, sip := sip, dip := dip },
      headerSize.toNat))
  else do
    let tos ← readU8
    let size ← readNtohU16
    let ipid ← readNtohU16
    let flags ← readU8
    let low ← readU8
    let ttl ← readU8
    let l3Prot ← readU8
    let checksum ← readU16
    let sip ← readNtohU32
    let dip ← readNtohU32
    pure (some (
      { ch with
        tos := tos
        payloadSize := size - headerSize
        ipid := ipid
        ipv4Flags := (if flags &&& (1 : UInt8) <<< 6 ≠ 0 then 1 else 0) |||
          (if flags &&& (1 : UInt8) <<< 5 ≠ 0 then 2 else 0)
        fragmentOffset := ((flags &&& 0x1f).toUInt16 <<< 8 ||| low.toUInt16) <<< 3
        ttl := ttl
        l3Prot := l3Prot
        checksum := checksum
        sip := sip
        dip := dip
        headerSize := headerSize },
      headerSize.toNat))

/-- Nothing is found where the options do not fit. -/
def readTcp : Reader (CustomHeader × Option Nat) := do
  let sport ← readNtohU16
  let dport ← readNtohU16
  let seq ← readNtohU32
  let ack ← readNtohU32
  let field ← readNtohU16
  let tcp :=
    { ch.tcp with
      sport := sport
      dport := dport
      seq := seq
      ack := ack
      tcpFlags := (field &&& 0x3f).toUInt8 }
  if ch.brief then pure ({ ch with tcp := tcp }, some (tcp.length.toNat * 4))
  else do
    let windowSize ← readNtohU16
    skip 2
    let urgentPointer ← readNtohU16
    let tcp :=
      { tcp with
        length := (field >>> 12).toUInt8
        windowSize := windowSize
        urgentPointer := urgentPointer }
    let optionLen := (tcp.length.toUInt32 - 5) * 4
    if optionLen > 32 then pure ({ ch with tcp := tcp }, none)
    else do
      let options ← take optionLen.toNat
      let tcp := { tcp with optionBuf := options ++ tcp.optionBuf.drop optionLen.toNat }
      pure ({ ch with tcp := tcp }, some (tcp.length.toNat * 4))

def readInt (ih : IntHeader) : Reader IntHeader :=
  if ch.getInt then ih.deserialize mode else pure ih

def readUdp : Reader CustomHeader := do
  let sport ← readNtohU16
  let dport ← readNtohU16
  let payloadSize ←
    if ch.brief then do
      skip 4
      pure ch.udp.payloadSize
    else do
      let size ← readNtohU16
      skip 2
      pure size
  let seq ← readNtohU32
  let pg ← readNtohU16
  let ih ← ch.readInt mode ch.udp.ih
  pure { ch with udp := ⟨sport, dport, payloadSize, pg, seq, ih⟩ }

def readCnp : Reader CustomHeader := do
  let qIndex ← readU8
  let fid ← readU16
  let ecnBits ← readU8
  let qfb ← readU16
  let total ← readU16
  pure { ch with cnp := ⟨fid, qIndex, qfb, ecnBits, total⟩ }

def readAck : Reader CustomHeader := do
  let sport ← readU16
  let dport ← readU16
  let flags ← readU16
  let pg ← readU16
  let seq ← readU32
  let ih ← ch.readInt mode ch.ack.ih
  pure { ch with ack := ⟨sport, dport, flags, pg, seq, ih⟩ }

def readPfc : Reader CustomHeader := do
  let time ← readU32
  let qlen ← readU32
  let qIndex ← readU32
  pure { ch with pfc := ⟨time, qlen, qIndex⟩ }

/-- TCP and UDP are looked for behind the sizes of the lower layers, the others where the iterator
`i` has come to. -/
def readL4 (lower : Nat) (start i : List UInt8) : Option (CustomHeader × Option Nat) :=
  if ch.l3Prot = 0x6 then
    ((skip lower >>= fun _ => ch.readTcp) start).map (·.1)
  else if ch.l3Prot = 0x11 then
    ((skip lower >>= fun _ => ch.readUdp mode) start).map
      fun read => (read.1, some (getUdpHeaderSize mode))
  else if ch.l3Prot = 0xFF then (ch.readCnp i).map fun read => (read.1, some 8)
  else if ch.l3Prot = 0xFC ∨ ch.l3Prot = 0xFD then
    (ch.readAck mode i).map fun read => (read.1, some (getAckSerializedSize mode))
  else if ch.l3Prot = 0xFE then (ch.readPfc i).map fun read => (read.1, some 12)
  else some (ch, some 0)

def deserialize (start : List UInt8) : Option (CustomHeader × Nat) := do
  let (framed, i) ← if ch.has l2Header then ch.readPpp start else some (ch, start)
  let l2Size := if ch.has l2Header then 38 else 0
  let (l3, i) ←
    if framed.has l3Header then (skip l2Size >>= fun _ => framed.readIpv4) start
    else some (some (framed, 0), i)
  match l3 with
  | none => some (framed, 0)
  | some (addressed, l3Size) =>
      if addressed.has l4Header then do
        let (found, l4Size) ← addressed.readL4 mode (l2Size + l3Size) start i
        some (found, match l4Size with
          | some size => l2Size + l3Size + size
          | none => 20)
      else some (addressed, l2Size + l3Size)

/-! What a header has read of the bytes that the writers make. -/

def withPpp (h : PppHeader) : CustomHeader := { ch with pppProto := h.protocol }

def withIpv4 (h : Ipv4Header) : CustomHeader :=
  { ch with
    tos := h.tos
    ipid := h.identification
    l3Prot := h.protocol
    sip := h.source
    dip := h.destination }

def withUdp (h : UdpHeader) (seqTs : SeqTsHeader) : CustomHeader :=
  { ch with
    udp :=
      { sport := h.sourcePort
        dport := h.destinationPort
        payloadSize := ch.udp.payloadSize
        pg := seqTs.pg
        seq := seqTs.seq
        ih := ch.udp.ih.receive mode seqTs.ih } }

def withAck (h : QbbHeader) : CustomHeader :=
  { ch with ack := ⟨h.sport, h.dport, h.flags, h.pg, h.seq, ch.ack.ih.receive mode h.ih⟩ }

def withPfc (h : PauseHeader) : CustomHeader := { ch with pfc := ⟨h.time, h.qlen, h.qindex⟩ }

section Parsing

variable {mode ch}

theorem readPpp_reads (h : PppHeader) : Reads ch.readPpp h.serialize (ch.withPpp h) := by
  exact (reads_ntohU16 h.protocol).bind
    ((reads_skip PppHeader.padding_length).last fun _ => ch.withPpp h)

theorem readIpv4_reads (brief : ch.brief = true) (h : Ipv4Header) :
    Reads ch.readIpv4 h.serialize (some (ch.withIpv4 h, 20)) := by
  have version : ¬ (0x45 : UInt8) >>> 4 ≠ 4 := by decide
  refine (reads_u8 0x45).bind ?_
  rw [if_neg version, if_pos brief]
  refine (reads_u8 h.tos).bind ?_
  refine (reads_skip (writeHtonU16_length _)).bind ?_
  refine (reads_ntohU16 h.identification).bind ?_
  -- the flags, the fragment offset and the time to live
  refine Reads.skip (n := 2) (writeU8_length _) ?_
  refine Reads.skip (n := 1) (writeU8_length _) ?_
  refine Reads.skip (n := 0) (writeU8_length _) ?_
  refine Reads.skip_none ?_
  refine (reads_u8 h.protocol).bind ?_
  refine (reads_skip (writeHtonU16_length _)).bind ?_
  refine (reads_ntohU32 h.source).bind ?_
  exact (reads_ntohU32 h.destination).last _

theorem readInt_reads (getInt : ch.getInt = true) (ih written : IntHeader) :
    Reads (ch.readInt mode ih) (written.serialize mode) (ih.receive mode written) := by
  rw [readInt, if_pos getInt]
  exact IntHeader.reads ih written

theorem readUdp_reads (brief : ch.brief = true) (getInt : ch.getInt = true) (h : UdpHeader)
    (size : UInt16) (seqTs : SeqTsHeader) :
    Reads (ch.readUdp mode) (h.serialize size ++ seqTs.serialize mode)
      (ch.withUdp mode h seqTs) := by
  unfold UdpHeader.serialize
  simp only [List.append_assoc]
  refine (reads_ntohU16 h.sourcePort).bind ?_
  refine (reads_ntohU16 h.destinationPort).bind ?_
  rw [if_pos brief]
  simp only [pure_bind]
  -- the length and the checksum
  refine Reads.skip (n := 2) (writeHtonU16_length _) ?_
  refine Reads.skip (n := 0) (writeU16_length _) ?_
  refine Reads.skip_none ?_
  refine (reads_ntohU32 seqTs.seq).bind ?_
  refine (reads_ntohU16 seqTs.pg).bind ?_
  exact (readInt_reads getInt _ seqTs.ih).last _

theorem readAck_reads (getInt : ch.getInt = true) (h : QbbHeader) :
    Reads (ch.readAck mode) (h.serialize mode) (ch.withAck mode h) := by
  refine (reads_u16 h.sport).bind ?_
  refine (reads_u16 h.dport).bind ?_
  refine (reads_u16 h.flags).bind ?_
  refine (reads_u16 h.pg).bind ?_
  refine (reads_u32 h.seq).bind ?_
  exact (readInt_reads getInt _ h.ih).last _

theorem readPfc_reads (h : PauseHeader) : Reads ch.readPfc h.serialize (ch.withPfc h) := by
  refine (reads_u32 h.time).bind ?_
  refine (reads_u32 h.qlen).bind ?_
  exact (reads_u32 h.qindex).last _

end Parsing

section Layers

variable {mode ch}

def allLayers : UInt32 := l2Header ||| l3Header ||| l4Header

theorem has_layers (layers : ch.headerType = allLayers) :
    ch.has l2Header = true ∧ ch.has l3Header = true ∧ ch.has l4Header = true := by
  simp only [has, layers]
  decide

theorem deserialize_layers {framed addressed found : CustomHeader} {l2 l3 : List UInt8} {size : Nat}
    (layers : ch.headerType = allLayers) (same : framed.headerType = ch.headerType ∧
      addressed.headerType = ch.headerType)
    (first : Reads ch.readPpp l2 framed) (length : l2.length = 38)
    (second : Reads framed.readIpv4 l3 (some (addressed, 20))) (rest : List UInt8)
    (upper : addressed.readL4 mode 58 (l2 ++ (l3 ++ rest)) rest = some (found, some size)) :
    ch.deserialize mode (l2 ++ (l3 ++ rest)) = some (found, 58 + size) := by
  obtain ⟨has2, -, -⟩ := has_layers layers
  obtain ⟨-, has3, -⟩ := has_layers (same.1.trans layers)
  obtain ⟨-, -, has4⟩ := has_layers (same.2.trans layers)
  have framing : ch.readPpp (l2 ++ (l3 ++ rest)) = some (framed, l3 ++ rest) := first _
  have addressing : (skip 38 >>= fun _ => framed.readIpv4) (l2 ++ (l3 ++ rest)) =
      some (some (addressed, 20), rest) := by
    have both := (reads_skip length).andThen second
    rw [← List.append_assoc]
    exact both rest
  unfold deserialize
  simp only [has2, if_true, framing, Option.bind_eq_bind, Option.bind_some, has3, addressing, has4,
    upper]

theorem deserialize_lower (layers : ch.headerType = allLayers) (brief : ch.brief = true)
    (ppp : PppHeader) (ip : Ipv4Header) (rest : List UInt8) {found : CustomHeader} {size : Nat}
    (upper : ((ch.withPpp ppp).withIpv4 ip).readL4 mode 58
      (ppp.serialize ++ (ip.serialize ++ rest)) rest = some (found, some size)) :
    ch.deserialize mode (ppp.serialize ++ (ip.serialize ++ rest)) = some (found, 58 + size) := by
  have same : (ch.withPpp ppp).headerType = ch.headerType ∧
      ((ch.withPpp ppp).withIpv4 ip).headerType = ch.headerType := ⟨rfl, rfl⟩
  have second := @readIpv4_reads (ch.withPpp ppp) brief ip
  exact deserialize_layers layers same (readPpp_reads ppp) ppp.serialize_length second rest upper

end Layers

end CustomHeader

end Floodgate
