import Floodgate.CustomHeader

/-! `Serialize` of the whole header, and `Deserialize` outside the brief mode. -/

namespace Floodgate

open ByteReader

namespace CustomHeader

variable (mode : UInt32) (ch : CustomHeader)

def writePpp : List UInt8 := writeHtonU16 ch.pppProto ++ PppHeader.padding

def flagsFrag : UInt8 :=
  ((ch.fragmentOffset / 8) >>> 8 &&& 0x1f).toUInt8 |||
    (if ch.ipv4Flags &&& 1 ≠ 0 then (1 : UInt8) <<< 6 else 0) |||
    (if ch.ipv4Flags &&& 2 ≠ 0 then (1 : UInt8) <<< 5 else 0)

def writeIpv4 : List UInt8 :=
  writeU8 ((4 : UInt8) <<< 4 ||| 5) ++ (writeU8 ch.tos ++ (writeHtonU16 (ch.payloadSize + 20) ++
    (writeHtonU16 ch.ipid ++ (writeU8 ch.flagsFrag ++
    (writeU8 (ch.fragmentOffset / 8 &&& 0xff).toUInt8 ++ (writeU8 ch.ttl ++ (writeU8 ch.l3Prot ++
    (writeHtonU16 0 ++ (writeHtonU32 ch.sip ++ writeHtonU32 ch.dip)))))))))

def tcpOptionLen : UInt32 := (ch.tcp.length.toUInt32 - 5) * 4

/-- The options are left out where the buffer does not hold them. -/
def writeTcp : List UInt8 :=
  writeHtonU16 ch.tcp.sport ++ (writeHtonU16 ch.tcp.dport ++ (writeHtonU32 ch.tcp.seq ++
    (writeHtonU32 ch.tcp.ack ++
    (writeHtonU16 (ch.tcp.length.toUInt16 <<< 12 ||| ch.tcp.tcpFlags.toUInt16) ++
    (writeHtonU16 ch.tcp.windowSize ++ (writeHtonU16 0 ++ (writeHtonU16 ch.tcp.urgentPointer ++
    if ch.tcpOptionLen ≤ 32 then ch.tcp.optionBuf.take ch.tcpOptionLen.toNat else [])))))))

def writeUdp : List UInt8 :=
  writeHtonU16 ch.udp.sport ++ (writeHtonU16 ch.udp.dport ++ (writeHtonU16 ch.udp.payloadSize ++
    (writeHtonU16 0 ++ (writeHtonU32 ch.udp.seq ++ (writeHtonU16 ch.udp.pg ++
    ch.udp.ih.serialize mode)))))

def writeCnp : List UInt8 :=
  writeU8 ch.cnp.qIndex ++ (writeU16 ch.cnp.fid ++ (writeU8 ch.cnp.ecnBits ++
    (writeU16 ch.cnp.qfb ++ writeU16 ch.cnp.total)))

/-- `udp.ih` of the union: the members before it have the same types in `udp` and `ack`, so it lies
where `ack.ih` lies. -/
def udpInt : IntHeader := if ch.l3Prot = 0xFC ∨ ch.l3Prot = 0xFD then ch.ack.ih else ch.udp.ih

def writeAck : List UInt8 :=
  writeU16 ch.ack.sport ++ (writeU16 ch.ack.dport ++ (writeU16 ch.ack.flags ++
    (writeU16 ch.ack.pg ++ (writeU32 ch.ack.seq ++ ch.udpInt.serialize mode))))

def writePfc : List UInt8 :=
  writeU32 ch.pfc.time ++ (writeU32 ch.pfc.qlen ++ writeU32 ch.pfc.qIndex)

def writeL4 : List UInt8 :=
  if ch.l3Prot = 0x6 then ch.writeTcp
  else if ch.l3Prot = 0x11 then ch.writeUdp mode
  else if ch.l3Prot = 0xFF then ch.writeCnp
  else if ch.l3Prot = 0xFC ∨ ch.l3Prot = 0xFD then ch.writeAck mode
  else if ch.l3Prot = 0xFE then ch.writePfc
  else []

def serialize : List UInt8 :=
  (if ch.has l2Header then ch.writePpp else []) ++
    ((if ch.has l3Header then ch.writeIpv4 else []) ++
    if ch.has l4Header then ch.writeL4 mode else [])

/-- All layers, outside the brief mode, with the INT block as the constructor asks for it. -/
structure Full (ch : CustomHeader) : Prop where
  brief : ch.brief = false
  headerType : ch.headerType = allLayers
  getInt : ch.getInt = true

/-- The fields fit their widths, and the protocol has a layout. -/
structure Fits (ch : CustomHeader) : Prop where
  protocol : ch.l3Prot ∈ [0x6, 0x11, 0xFC, 0xFD, 0xFF, 0xFE]
  flags : ch.ipv4Flags < 8
  fragment : ch.fragmentOffset % 8 = 0
  offset : ch.l3Prot = 0x6 → 5 ≤ ch.tcp.length ∧ ch.tcp.length ≤ 15
  tcpFlags : ch.l3Prot = 0x6 → ch.tcp.tcpFlags < 64
  buffer : ch.l3Prot = 0x6 → ch.tcp.optionBuf.length = 32

/-- `after` has the upper layer of `ch`. -/
structure RestoresL4 (ch after : CustomHeader) : Prop where
  tcp : ch.l3Prot = 0x6 →
    { after.tcp with optionBuf := after.tcp.optionBuf.take ch.tcpOptionLen.toNat } =
      { ch.tcp with optionBuf := ch.tcp.optionBuf.take ch.tcpOptionLen.toNat }
  udp : ch.l3Prot = 0x11 →
    { after.udp with ih := ch.udp.ih } = ch.udp ∧ after.udp.ih.Agrees mode ch.udp.ih
  ack : ch.l3Prot = 0xFC ∨ ch.l3Prot = 0xFD →
    { after.ack with ih := ch.ack.ih } = ch.ack ∧ after.ack.ih.Agrees mode ch.ack.ih
  cnp : ch.l3Prot = 0xFF → after.cnp = ch.cnp
  pfc : ch.l3Prot = 0xFE → after.pfc = ch.pfc

/-- `after` has every field of `ch` that is on the wire. -/
structure Restores (ch after : CustomHeader) : Prop where
  pppProto : after.pppProto = ch.pppProto
  tos : after.tos = ch.tos
  payloadSize : after.payloadSize = ch.payloadSize
  ipid : after.ipid = ch.ipid
  ipv4Flags : after.ipv4Flags = ch.ipv4Flags
  fragmentOffset : after.fragmentOffset = ch.fragmentOffset
  ttl : after.ttl = ch.ttl
  l3Prot : after.l3Prot = ch.l3Prot
  sip : after.sip = ch.sip
  dip : after.dip = ch.dip
  upper : ch.RestoresL4 mode after

/-- `Serialize` writes as many bytes as announced, and `Deserialize` takes these and restores the
header. -/
structure RoundTrips (ch reader : CustomHeader) : Prop where
  size : (ch.serialize mode).length = ch.getSerializedSize mode
  restores : ∀ rest, ∃ after,
    reader.deserialize mode (ch.serialize mode ++ rest) =
      some (after, ch.getSerializedSize mode) ∧ ch.Restores mode after

section Bits

theorem word_pieces {high low k : Nat} (small : low < 2 ^ k) (fits : high * 2 ^ k + low < 65536) :
    high <<< k % 65536 ||| low = high * 2 ^ k + low := by
  have whole : high <<< k < 65536 := by
    rw [Nat.shiftLeft_eq]
    omega
  rw [Nat.mod_eq_of_lt whole, ← Nat.shiftLeft_add_eq_or_of_lt small, Nat.shiftLeft_eq]

theorem flag_bits (high : Fin 32) (first second : Bool) :
    let byte := UInt8.ofNat high ||| (if first then (1 : UInt8) <<< 6 else 0) |||
      (if second then (1 : UInt8) <<< 5 else 0)
    (byte &&& (1 : UInt8) <<< 6 ≠ 0 ↔ first = true) ∧
      (byte &&& (1 : UInt8) <<< 5 ≠ 0 ↔ second = true) ∧ byte &&& 0x1f = UInt8.ofNat high := by
  revert high first second
  decide +kernel

theorem flags_read {flags : UInt8} (fits : flags < 8) :
    ((if flags &&& 1 ≠ 0 then (1 : UInt8) else 0) ||| (if flags &&& 2 ≠ 0 then 2 else 0)) =
        flags &&& 3 ∧
      (flags &&& 3 = flags ↔ flags < 4) := by
  have below : flags.toNat < 8 := fits
  obtain ⟨small, same⟩ : ∃ small : Fin 8, flags = UInt8.ofNat small :=
    ⟨⟨flags.toNat, below⟩, (UInt8.ofNat_toNat).symm⟩
  subst same
  clear fits below
  revert small
  decide +kernel

theorem fragment_high (offset : UInt16) :
    ((offset / 8) >>> 8 &&& 0x1f).toUInt8 = UInt8.ofNat (offset.toNat / 2048 % 32) := by
  have bound := offset.toNat_lt
  have low : ∀ x : Nat, x &&& 31 = x % 32 := fun x => Nat.and_two_pow_sub_one_eq_mod x 5
  apply UInt8.toNat_inj.mp
  simp [low, Nat.shiftRight_eq_div_pow]
  omega

theorem fragment_pieces (offset : UInt16) (multiple : offset % 8 = 0) :
    ((UInt8.ofNat (offset.toNat / 2048 % 32)).toUInt16 <<< 8 |||
      (offset / 8 &&& 0xff).toUInt8.toUInt16) <<< 3 = offset := by
  have bound := offset.toNat_lt
  have eighth : offset.toNat % 8 = 0 := by simpa using congrArg UInt16.toNat multiple
  have low : ∀ x : Nat, x &&& 255 = x % 256 := fun x => Nat.and_two_pow_sub_one_eq_mod x 8
  apply UInt16.toNat_inj.mp
  simp only [UInt16.toNat_shiftLeft, UInt16.toNat_or, UInt8.toNat_toUInt16, UInt8.toNat_ofNat',
    UInt16.toNat_toUInt8, UInt16.toNat_and, UInt16.toNat_div, UInt16.reduceToNat, low]
  simp only [Nat.reduceMod, Nat.reducePow]
  rw [word_pieces (by omega) (by omega), Nat.shiftLeft_eq]
  omega

theorem tcp_pieces {length flags : UInt8} (short : length ≤ 15) (small : flags < 64) :
    ((length.toUInt16 <<< 12 ||| flags.toUInt16) >>> 12).toUInt8 = length ∧
      ((length.toUInt16 <<< 12 ||| flags.toUInt16) &&& 0x3f).toUInt8 = flags := by
  have low : ∀ x : Nat, x &&& 63 = x % 64 := fun x => Nat.and_two_pow_sub_one_eq_mod x 6
  have offset : length.toNat ≤ 15 := short
  have bits : flags.toNat < 64 := small
  have field : (length.toUInt16 <<< 12 ||| flags.toUInt16).toNat =
      length.toNat * 2 ^ 12 + flags.toNat := by
    simp only [UInt16.toNat_or, UInt16.toNat_shiftLeft, UInt8.toNat_toUInt16, UInt16.reduceToNat,
      Nat.reduceMod]
    exact word_pieces (by omega) (by omega)
  constructor
  · apply UInt8.toNat_inj.mp
    rw [UInt16.toNat_toUInt8, UInt16.toNat_shiftRight, field]
    simp only [UInt16.reduceToNat, Nat.reduceMod, Nat.shiftRight_eq_div_pow]
    omega
  · apply UInt8.toNat_inj.mp
    rw [UInt16.toNat_toUInt8, UInt16.toNat_and, field]
    simp only [UInt16.reduceToNat, low]
    omega

end Bits

section Reading

variable {mode ch} {h : CustomHeader}

/-- What the lower layers of `h` make of a header. -/
def withLower (ch h : CustomHeader) : CustomHeader :=
  { ch with
    pppProto := h.pppProto
    tos := h.tos
    payloadSize := h.payloadSize
    ipid := h.ipid
    ipv4Flags := h.ipv4Flags &&& 3
    fragmentOffset := h.fragmentOffset
    ttl := h.ttl
    l3Prot := h.l3Prot
    checksum := 0
    sip := h.sip
    dip := h.dip
    headerSize := 20 }

theorem flagsFrag_read (fits : h.Fits) :
    ((if h.flagsFrag &&& (1 : UInt8) <<< 6 ≠ 0 then (1 : UInt8) else 0) |||
        (if h.flagsFrag &&& (1 : UInt8) <<< 5 ≠ 0 then 2 else 0)) = h.ipv4Flags &&& 3 ∧
      ((h.flagsFrag &&& 0x1f).toUInt16 <<< 8 |||
        (h.fragmentOffset / 8 &&& 0xff).toUInt8.toUInt16) <<< 3 = h.fragmentOffset := by
  obtain ⟨first, second, masked⟩ := flag_bits
    ⟨h.fragmentOffset.toNat / 2048 % 32, Nat.mod_lt _ (by decide)⟩ (h.ipv4Flags &&& 1 ≠ 0)
    (h.ipv4Flags &&& 2 ≠ 0)
  simp only [decide_eq_true_eq, ← fragment_high] at first second masked
  have dont : h.flagsFrag &&& (1 : UInt8) <<< 6 ≠ 0 ↔ h.ipv4Flags &&& 1 ≠ 0 := first
  have more : h.flagsFrag &&& (1 : UInt8) <<< 5 ≠ 0 ↔ h.ipv4Flags &&& 2 ≠ 0 := second
  have high : h.flagsFrag &&& (0x1f : UInt8) =
      ((h.fragmentOffset / 8) >>> 8 &&& 0x1f).toUInt8 := masked
  constructor
  · simp only [dont, more]
    exact (flags_read fits.flags).1
  · rw [high, fragment_high]
    exact fragment_pieces h.fragmentOffset fits.fragment

theorem writeIpv4_reads (brief : ch.brief = false) (fits : h.Fits) :
    Reads (ch.withPpp ⟨h.pppProto⟩).readIpv4 h.writeIpv4 (some (ch.withLower h, 20)) := by
  have version : ¬ ((4 : UInt8) <<< 4 ||| 5) >>> 4 ≠ 4 := by decide
  have size : (((4 : UInt8) <<< 4 ||| 5) &&& 0x0f).toUInt16 * 4 = 20 := by decide
  have long : ¬ (ch.withPpp ⟨h.pppProto⟩).brief = true := by
    rw [withPpp, brief]
    exact Bool.false_ne_true
  obtain ⟨flags, fragment⟩ := flagsFrag_read fits
  refine (reads_u8 _).bind ?_
  rw [if_neg version, if_neg long]
  refine (reads_u8 h.tos).bind ?_
  refine (reads_ntohU16 (h.payloadSize + 20)).bind ?_
  refine (reads_ntohU16 h.ipid).bind ?_
  refine (reads_u8 h.flagsFrag).bind ?_
  refine (reads_u8 (h.fragmentOffset / 8 &&& 0xff).toUInt8).bind ?_
  refine (reads_u8 h.ttl).bind ?_
  refine (reads_u8 h.l3Prot).bind ?_
  refine (reads_u16 0).bind ?_
  refine (reads_ntohU32 h.sip).bind ?_
  rw [flags, fragment, size, UInt16.add_sub_cancel]
  exact (reads_ntohU32 h.dip).last _

/-- The options cover the start of the buffer. -/
def withTcp (ch h : CustomHeader) : CustomHeader :=
  { ch with
    tcp :=
      { h.tcp with
        optionBuf := h.tcp.optionBuf.take h.tcpOptionLen.toNat ++
          ch.tcp.optionBuf.drop h.tcpOptionLen.toNat } }

theorem optionLen_short (fits : h.Fits) (tcp : h.l3Prot = 0x6) :
    h.tcpOptionLen.toNat = (h.tcp.length.toNat - 5) * 4 ∧
      (h.tcpOptionLen ≤ 32 ↔ h.tcp.length ≤ 13) := by
  obtain ⟨least, most⟩ := fits.offset tcp
  have above : 5 ≤ h.tcp.length.toNat := least
  have below : h.tcp.length.toNat ≤ 15 := most
  have width : h.tcpOptionLen.toNat = (h.tcp.length.toNat - 5) * 4 := by
    unfold tcpOptionLen
    rw [UInt32.toNat_mul, UInt32.toNat_sub_of_le, UInt8.toNat_toUInt32]
    · simp only [UInt32.reduceToNat]
      omega
    · rw [UInt32.le_iff_toNat_le, UInt8.toNat_toUInt32]
      exact above
  refine ⟨width, ?_⟩
  rw [UInt32.le_iff_toNat_le, UInt8.le_iff_toNat_le, width]
  simp only [UInt32.reduceToNat, UInt8.reduceToNat]
  omega

theorem writeTcp_reads (brief : ch.brief = false) (fits : h.Fits) (tcp : h.l3Prot = 0x6)
    (short : h.tcp.length ≤ 13) :
    Reads ch.readTcp h.writeTcp (ch.withTcp h, some (h.tcp.length.toNat * 4)) := by
  obtain ⟨width, room⟩ := optionLen_short fits tcp
  obtain ⟨length, flags⟩ := tcp_pieces (fits.offset tcp).2 (fits.tcpFlags tcp)
  have inside := room.mpr short
  have options : (h.tcp.optionBuf.take h.tcpOptionLen.toNat).length = h.tcpOptionLen.toNat := by
    have limit : h.tcpOptionLen.toNat ≤ 32 := inside
    rw [List.length_take, fits.buffer tcp]
    omega
  unfold writeTcp
  rw [if_pos inside]
  refine (reads_ntohU16 h.tcp.sport).bind ?_
  refine (reads_ntohU16 h.tcp.dport).bind ?_
  refine (reads_ntohU32 h.tcp.seq).bind ?_
  refine (reads_ntohU32 h.tcp.ack).bind ?_
  refine (reads_ntohU16 _).bind ?_
  rw [if_neg (by rw [brief]; exact Bool.false_ne_true)]
  refine (reads_ntohU16 h.tcp.windowSize).bind ?_
  refine (reads_skip (writeHtonU16_length 0)).bind ?_
  refine (reads_ntohU16 h.tcp.urgentPointer).bind ?_
  simp only [length, flags]
  have found : (h.tcp.length.toUInt32 - 5) * 4 = h.tcpOptionLen := rfl
  rw [found, if_neg (UInt32.not_lt.mpr inside)]
  have last := (@reads_take (h.tcp.optionBuf.take h.tcpOptionLen.toNat)).last fun options =>
    (({ ch with
      tcp := { h.tcp with optionBuf := options ++ ch.tcp.optionBuf.drop h.tcpOptionLen.toNat } } :
      CustomHeader), some (h.tcp.length.toNat * 4))
  rw [options] at last
  exact last

theorem writeUdp_reads (brief : ch.brief = false) (getInt : ch.getInt = true) :
    Reads (ch.readUdp mode) (h.writeUdp mode)
      { ch with udp := { h.udp with ih := ch.udp.ih.receive mode h.udp.ih } } := by
  refine (reads_ntohU16 h.udp.sport).bind ?_
  refine (reads_ntohU16 h.udp.dport).bind ?_
  rw [if_neg (by rw [brief]; exact Bool.false_ne_true)]
  simp only [pure_bind]
  refine (reads_ntohU16 h.udp.payloadSize).bind ?_
  refine (reads_skip (writeHtonU16_length 0)).bind ?_
  refine (reads_ntohU32 h.udp.seq).bind ?_
  refine (reads_ntohU16 h.udp.pg).bind ?_
  exact (readInt_reads getInt _ h.udp.ih).last _

theorem writeCnp_reads : Reads ch.readCnp h.writeCnp { ch with cnp := h.cnp } := by
  refine (reads_u8 h.cnp.qIndex).bind ?_
  refine (reads_u16 h.cnp.fid).bind ?_
  refine (reads_u8 h.cnp.ecnBits).bind ?_
  refine (reads_u16 h.cnp.qfb).bind ?_
  exact (reads_u16 h.cnp.total).last _

/-- The INT block of `udp` is that of `ack`. -/
theorem writeAck_reads (getInt : ch.getInt = true) (ack : h.l3Prot = 0xFC ∨ h.l3Prot = 0xFD) :
    Reads (ch.readAck mode) (h.writeAck mode)
      { ch with ack := { h.ack with ih := ch.ack.ih.receive mode h.ack.ih } } := by
  unfold writeAck udpInt
  rw [if_pos ack]
  exact readAck_reads getInt ⟨h.ack.sport, h.ack.dport, h.ack.flags, h.ack.pg, h.ack.seq, h.ack.ih⟩

theorem writePfc_reads : Reads ch.readPfc h.writePfc { ch with pfc := h.pfc } :=
  readPfc_reads ⟨h.pfc.time, h.pfc.qlen, h.pfc.qIndex⟩

end Reading

section Sizes

variable {mode ch}

def l4Size (mode : UInt32) (ch : CustomHeader) : Nat :=
  if ch.l3Prot = 0x6 then ch.tcp.length.toNat * 4
  else if ch.l3Prot = 0x11 then getUdpHeaderSize mode
  else if ch.l3Prot = 0xFC ∨ ch.l3Prot = 0xFD then getAckSerializedSize mode
  else if ch.l3Prot = 0xFF then 8
  else if ch.l3Prot = 0xFE then 12
  else 0

theorem getSerializedSize_full (full : ch.Full) :
    ch.getSerializedSize mode = 58 + ch.l4Size mode := by
  obtain ⟨l2, l3, l4⟩ := has_layers full.headerType
  simp only [getSerializedSize, l2, l3, l4, l4Size]
  rfl

theorem serialize_full (full : ch.Full) :
    ch.serialize mode = ch.writePpp ++ (ch.writeIpv4 ++ ch.writeL4 mode) := by
  obtain ⟨l2, l3, l4⟩ := has_layers full.headerType
  simp only [serialize, l2, l3, l4, if_true]

theorem writePpp_length : ch.writePpp.length = 38 := by
  rw [writePpp, List.length_append, writeHtonU16_length, PppHeader.padding_length]

theorem writeIpv4_length : ch.writeIpv4.length = 20 := by
  simp [writeIpv4]

/-- A TCP header announces its options even where it leaves them out. -/
theorem writeTcp_length (fits : ch.Fits) (tcp : ch.l3Prot = 0x6) :
    ch.writeTcp.length = ch.tcp.length.toNat * 4 ↔ ch.tcp.length ≤ 13 := by
  obtain ⟨width, room⟩ := optionLen_short fits tcp
  have least : 5 ≤ ch.tcp.length.toNat := (fits.offset tcp).1
  unfold writeTcp
  simp only [List.length_append, writeHtonU16_length, writeHtonU32_length]
  by_cases short : ch.tcp.length ≤ 13
  · have inside := room.mpr short
    have limit : ch.tcpOptionLen.toNat ≤ 32 := inside
    rw [if_pos inside, List.length_take, fits.buffer tcp]
    simp only [short, iff_true]
    omega
  · have long : ¬ ch.tcp.length.toNat ≤ 13 := short
    rw [if_neg fun inside => short (room.mp inside)]
    simp only [short, iff_false, List.length_nil]
    omega

theorem writeL4_length (fits : ch.Fits) :
    (ch.writeL4 mode).length = ch.l4Size mode ↔ (ch.l3Prot = 0x6 → ch.tcp.length ≤ 13) := by
  by_cases tcp : ch.l3Prot = 0x6
  · rw [writeL4, if_pos tcp, l4Size, if_pos tcp, writeTcp_length fits tcp]
    simp only [tcp, forall_const]
  · simp only [tcp, false_implies, iff_true]
    have known := fits.protocol
    simp only [List.mem_cons, List.not_mem_nil, or_false] at known
    rcases known with same | same | same | same | same | same
    · exact absurd same tcp
    · simp [writeL4, l4Size, same, writeUdp, getUdpHeaderSize]
      omega
    · simp [writeL4, l4Size, same, writeAck, getAckSerializedSize]
      omega
    · simp [writeL4, l4Size, same, writeAck, getAckSerializedSize]
      omega
    · simp [writeL4, l4Size, same, writeCnp]
    · simp [writeL4, l4Size, same, writePfc]

end Sizes

section RoundTrip

variable {mode ch} {reader : CustomHeader}

theorem readL4_restores {before : CustomHeader} (brief : before.brief = false)
    (getInt : before.getInt = true) (fits : ch.Fits) (same : before.l3Prot = ch.l3Prot)
    (short : ch.l3Prot = 0x6 → ch.tcp.length ≤ 13) {lower : List UInt8} (length : lower.length = 58)
    (rest : List UInt8) :
    ∃ found, before.readL4 mode 58 (lower ++ (ch.writeL4 mode ++ rest)) (ch.writeL4 mode ++ rest) =
        some (found, some (ch.l4Size mode)) ∧
      found = { before with
        tcp := found.tcp, udp := found.udp, cnp := found.cnp, ack := found.ack, pfc := found.pfc } ∧
      ch.RestoresL4 mode found := by
  have known := fits.protocol
  simp only [List.mem_cons, List.not_mem_nil, or_false] at known
  rcases known with tcp | udp | ack | nack | cnp | pfc
  · have read := ((reads_skip length).andThen (writeTcp_reads brief fits tcp (short tcp))) rest
    rw [List.append_assoc] at read
    refine ⟨before.withTcp ch, ?_, rfl, ?_⟩
    · rw [readL4, if_pos (same.trans tcp), writeL4, if_pos tcp, read, l4Size, if_pos tcp]
      rfl
    · refine ⟨fun _ => ?_, by simp [tcp], by simp [tcp], by simp [tcp], by simp [tcp]⟩
      obtain ⟨width, room⟩ := optionLen_short fits tcp
      have inside : ch.tcpOptionLen.toNat ≤ 32 := room.mpr (short tcp)
      simp only [withTcp]
      rw [List.take_left']
      rw [List.length_take, fits.buffer tcp]
      omega
  · have read := ((reads_skip length).andThen
      (@writeUdp_reads mode before ch brief getInt)) rest
    rw [List.append_assoc] at read
    refine ⟨{ before with udp := { ch.udp with ih := before.udp.ih.receive mode ch.udp.ih } }, ?_,
      rfl, by simp [udp], fun _ => ⟨rfl, IntHeader.receive_agrees _ _⟩, by simp [udp],
      by simp [udp], by simp [udp]⟩
    simp only [readL4, same, udp, writeL4, l4Size]
    simp [read, same, udp]
  · have read := @writeAck_reads mode before ch getInt (.inl ack) rest
    refine ⟨{ before with ack := { ch.ack with ih := before.ack.ih.receive mode ch.ack.ih } }, ?_,
      rfl, by simp [ack], by simp [ack], fun _ => ⟨rfl, IntHeader.receive_agrees _ _⟩,
      by simp [ack], by simp [ack]⟩
    simp only [readL4, same, ack, writeL4, l4Size]
    simp [read, same, ack]
  · have read := @writeAck_reads mode before ch getInt (.inr nack) rest
    refine ⟨{ before with ack := { ch.ack with ih := before.ack.ih.receive mode ch.ack.ih } }, ?_,
      rfl, by simp [nack], by simp [nack], fun _ => ⟨rfl, IntHeader.receive_agrees _ _⟩,
      by simp [nack], by simp [nack]⟩
    simp only [readL4, same, nack, writeL4, l4Size]
    simp [read, same, nack]
  · have read := @writeCnp_reads before ch rest
    refine ⟨{ before with cnp := ch.cnp }, ?_, rfl, by simp [cnp], by simp [cnp], by simp [cnp],
      fun _ => rfl, by simp [cnp]⟩
    simp only [readL4, same, cnp, writeL4, l4Size]
    simp [read, same, cnp]
  · have read := @writePfc_reads before ch rest
    refine ⟨{ before with pfc := ch.pfc }, ?_, rfl, by simp [pfc], by simp [pfc], by simp [pfc],
      by simp [pfc], fun _ => rfl⟩
    simp only [readL4, same, pfc, writeL4, l4Size]
    simp [read, same, pfc]

/-- `Deserialize` of what `Serialize` writes. -/
theorem deserialize_serialize (full : reader.Full) (written : ch.Full) (fits : ch.Fits)
    (short : ch.l3Prot = 0x6 → ch.tcp.length ≤ 13) (rest : List UInt8) :
    ∃ after, reader.deserialize mode (ch.serialize mode ++ rest) =
        some (after, ch.getSerializedSize mode) ∧
      after.ipv4Flags = ch.ipv4Flags &&& 3 ∧
      (after.ipv4Flags = ch.ipv4Flags → ch.Restores mode after) := by
  have lower : (ch.writePpp ++ ch.writeIpv4).length = 58 := by
    rw [List.length_append, writePpp_length, writeIpv4_length]
  obtain ⟨found, upper, same, restores⟩ := @readL4_restores mode ch (reader.withLower ch) full.brief
    full.getInt fits rfl short _ lower rest
  rw [List.append_assoc] at upper
  have layers : (reader.withPpp ⟨ch.pppProto⟩).headerType = reader.headerType ∧
      (reader.withLower ch).headerType = reader.headerType := ⟨rfl, rfl⟩
  have first : Reads reader.readPpp ch.writePpp (reader.withPpp ⟨ch.pppProto⟩) :=
    readPpp_reads ⟨ch.pppProto⟩
  have second := writeIpv4_reads full.brief fits
  refine ⟨found, ?_, congrArg ipv4Flags same, fun flags => ?_⟩
  · rw [serialize_full written, getSerializedSize_full written, List.append_assoc,
      List.append_assoc]
    exact deserialize_layers full.headerType layers first writePpp_length second _ upper
  · constructor
    case ipv4Flags => exact flags
    case upper => exact restores
    all_goals
      rw [same]
      rfl

/-- The full header survives the wire exactly where TCP options fit their buffer and no flag but
`DONT_FRAGMENT` and `MORE_FRAGMENTS` is set. -/
theorem full_round_trip_iff (mode : UInt32) (ch reader : CustomHeader) (written : ch.Full)
    (full : reader.Full) (fits : ch.Fits) :
    RoundTrips mode ch reader ↔
      (ch.l3Prot = 0x6 → ch.tcp.length ≤ 13) ∧ ch.ipv4Flags < 4 := by
  have sizes : (ch.serialize mode).length = ch.getSerializedSize mode ↔
      (ch.l3Prot = 0x6 → ch.tcp.length ≤ 13) := by
    rw [serialize_full written, getSerializedSize_full written, List.length_append,
      List.length_append, writePpp_length, writeIpv4_length, ← @writeL4_length mode ch fits]
    omega
  constructor
  · intro trips
    have short := sizes.mp trips.size
    obtain ⟨after, reads, flags, -⟩ := deserialize_serialize full written fits short []
    obtain ⟨other, again, restores⟩ := trips.restores []
    have same : other = after := by
      rw [reads] at again
      exact (congrArg Prod.fst (Option.some.inj again)).symm
    rw [← same, restores.ipv4Flags] at flags
    exact ⟨short, (flags_read fits.flags).2.mp flags.symm⟩
  · intro both
    refine ⟨sizes.mpr both.1, fun rest => ?_⟩
    obtain ⟨after, reads, flags, restores⟩ := deserialize_serialize full written fits both.1 rest
    exact ⟨after, reads, restores (flags.trans ((flags_read fits.flags).2.mpr both.2))⟩

end RoundTrip

def tcpHeader (length : UInt8) : CustomHeader where
  brief := false
  headerType := allLayers
  getInt := true
  pppProto := 0x21
  payloadSize := 1000
  ipid := 7
  tos := 3
  ttl := 64
  l3Prot := 0x6
  ipv4Flags := 1
  fragmentOffset := 2056
  checksum := 0
  headerSize := 20
  sip := 0x0b000001
  dip := 0x0b000101
  tcp := ⟨10000, 100, 1, 2, length, 0x10, 500, 0, List.replicate 32 1⟩
  udp := ⟨0, 0, 0, 0, 0, ⟨List.Vector.replicate IntHeader.maxHop ⟨0, 0⟩, 0, 0⟩⟩
  cnp := ⟨0, 0, 0, 0, 0⟩
  ack := ⟨0, 0, 0, 0, 0, ⟨List.Vector.replicate IntHeader.maxHop ⟨0, 0⟩, 0, 0⟩⟩
  pfc := ⟨0, 0, 0⟩

theorem tcpHeader_full (length : UInt8) : (tcpHeader length).Full := ⟨rfl, rfl, rfl⟩

theorem tcpHeader_fits {length : UInt8} (least : 5 ≤ length) (most : length ≤ 15) :
    (tcpHeader length).Fits := by
  have flags : (1 : UInt8) < 8 := by decide
  have bits : (0x10 : UInt8) < 64 := by decide
  have fragment : (2056 : UInt16) % 8 = 0 := by decide
  exact ⟨List.mem_cons_self, flags, fragment, fun _ => ⟨least, most⟩, fun _ => bits, fun _ => rfl⟩

/-- Options of 32 bytes fit. -/
theorem full_round_trip_longest : RoundTrips 0 (tcpHeader 13) (tcpHeader 5) :=
  (full_round_trip_iff 0 _ _ (tcpHeader_full 13) (tcpHeader_full 5)
    (tcpHeader_fits (by decide) (by decide))).mpr ⟨fun _ => by decide, by decide⟩

/-- Those of 36 bytes are announced but not written. -/
theorem long_options_lost : ¬ ∀ (mode : UInt32) (ch reader : CustomHeader), ch.Full → reader.Full →
    ch.Fits → RoundTrips mode ch reader := by
  intro claim
  have trips := claim 0 (tcpHeader 14) (tcpHeader 5) (tcpHeader_full 14) (tcpHeader_full 5)
    (tcpHeader_fits (by decide) (by decide))
  have short : ((tcpHeader 14).serialize 0).length ≠ (tcpHeader 14).getSerializedSize 0 := by
    decide +kernel
  exact short trips.size

end CustomHeader

end Floodgate
