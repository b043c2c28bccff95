import Floodgate.CustomHeader
import Floodgate.GoBackN
import Floodgate.MessageProgress

/-! The packets that hosts and devices stack header by header, and what the parser finds in them. -/

namespace Floodgate

open ByteReader

/-- `EtherToPpp` for the two protocols that it knows, and its return value for others. -/
def etherToPpp (proto : UInt16) : UInt16 :=
  if proto = 0x0800 then 0x0021
  else if proto = 0x86DD then 0x0057
  else 0

def addPpp (p : List UInt8) (protocolNumber : UInt16) : List UInt8 :=
  (PppHeader.mk (etherToPpp protocolNumber)).serialize ++ p

def createPacket (size : Nat) : List UInt8 := List.replicate size 0

/-- What the headers of a data packet take from its queue pair. -/
structure QpAddress where
  sip : UInt32
  dip : UInt32
  sport : UInt16
  dport : UInt16
  pg : UInt16
  ipid : UInt16

namespace RdmaHw

def dataIp (qp : QpAddress) (size : UInt16) : Ipv4Header :=
  { Ipv4Header.init with
    source := qp.sip
    destination := qp.dip
    protocol := 0x11
    payloadSize := size
    ttl := 64
    tos := 0
    identification := qp.ipid }

/-- The headers that `GetNxtPacket` adds. The INT header is the one that `SeqTsHeader` starts with,
or what switches have written into it since. -/
def dataStack (mode : UInt32) (qp : QpAddress) (seq : UInt32) (ih : IntHeader)
    (payloadSize : UInt32) : List UInt8 :=
  let p := createPacket payloadSize.toNat
  let seqTs : SeqTsHeader := { seq := seq, pg := qp.pg, ih := ih }
  let p := seqTs.serialize mode ++ p
  let udpHeader : UdpHeader := { sourcePort := qp.sport, destinationPort := qp.dport }
  let p := udpHeader.serialize (UInt16.ofNat (8 + p.length)) ++ p
  let p := (dataIp qp (UInt16.ofNat p.length)).serialize ++ p
  (PppHeader.mk 0x0021).serialize ++ p

def ackQbb (ch : CustomHeader) (seq : UInt32) : QbbHeader :=
  let seqh : QbbHeader :=
    { seq := seq
      pg := ch.udp.pg
      sport := ch.udp.dport
      dport := ch.udp.sport
      flags := 0
      ih := ch.udp.ih }
  if ch.getIpv4EcnBits ≠ 0 then seqh.setCnp else seqh

def ackIp (ch : CustomHeader) (x : Nat) (size ipid : UInt16) : Ipv4Header :=
  { Ipv4Header.init with
    destination := ch.sip
    source := ch.dip
    protocol := if x = 1 then 0xFC else 0xFD
    ttl := 64
    payloadSize := size
    identification := ipid }

/-- The acknowledgement that `ReceiveUdp` stacks after the verdict `x` on the packet with the header
`ch`. -/
def ackStack (mode : UInt32) (ch : CustomHeader) (x : Nat) (seq : UInt32) (ipid : UInt16) :
    List UInt8 :=
  let newp := createPacket (84 - 38 - 20 - QbbHeader.getSerializedSize mode)
  let newp := (ackQbb ch seq).serialize mode ++ newp
  let newp := (ackIp ch x (UInt16.ofNat newp.length) ipid).serialize ++ newp
  addPpp newp 0x800

def payloadSize (mode : UInt32) (p : List UInt8) (ch : CustomHeader) : UInt32 :=
  UInt32.ofNat p.length - UInt32.ofNat (ch.getSerializedSize mode)

end RdmaHw

namespace QbbNetDevice

/-- The IPv4 header of `SendPfc`, with a random identification. -/
def pfcIp (address : UInt32) (size identification : UInt16) : Ipv4Header :=
  { Ipv4Header.init with
    protocol := 0xFE
    source := address
    destination := 0xFFFFFFFF
    payloadSize := size
    ttl := 1
    identification := identification }

def pfcStack (pausetime nBytes qIndex type address : UInt32)
    (identification : UInt16) : List UInt8 :=
  let p := createPacket 0
  let pauseh : PauseHeader :=
    { time := if type = 0 then pausetime else 0, qlen := nBytes, qindex := qIndex }
  let p := pauseh.serialize ++ p
  let p := (pfcIp address (UInt16.ofNat p.length) identification).serialize ++ p
  addPpp p 0x800

end QbbNetDevice

/-- `RemoveHeader`: the header, and the bytes behind its size. -/
def removeHeader {Header : Type} (r : Reader Header) (size : Header → Nat) (p : List UInt8) :
    Option (Header × List UInt8) :=
  (r p).map fun read => (read.1, p.drop (size read.1))

/-- What a switch does to a packet that it marks: `SetEcn` in the IPv4 header. -/
def rewriteEcn (p : List UInt8) : Option (List UInt8) := do
  let (ppp, p) ← removeHeader PppHeader.deserialize (fun _ => PppHeader.getStaticSize) p
  let (h, p) ← removeHeader Ipv4Header.deserialize (fun h => h.headerSize.toNat) p
  some (ppp.serialize ++ ((h.setEcn 3).serialize ++ p))

def rewrittenBy : Nat → List UInt8 → Option (List UInt8)
  | 0, p => some p
  | n + 1, p => (rewriteEcn p).bind (rewrittenBy n)

section Ecn

variable {ppp : PppHeader} {ip : Ipv4Header} {p : List UInt8}

theorem rewriteEcn_stack (plain : ip.Plain) :
    rewriteEcn (ppp.serialize ++ (ip.serialize ++ p)) =
      some (ppp.serialize ++ ((ip.setEcn 3).serialize ++ p)) := by
  have framed : removeHeader PppHeader.deserialize (fun _ => PppHeader.getStaticSize)
      (ppp.serialize ++ (ip.serialize ++ p)) = some (ppp, ip.serialize ++ p) := by
    rw [removeHeader, PppHeader.reads ppp (ip.serialize ++ p), Option.map_some,
      List.drop_left' ppp.serialize_length]
  have addressed : removeHeader Ipv4Header.deserialize (fun h => h.headerSize.toNat)
      (ip.serialize ++ p) = some (ip, p) := by
    have size : ip.serialize.length = ip.headerSize.toNat := by
      rw [plain.headerSize, ip.serialize_length]
      rfl
    rw [removeHeader, Ipv4Header.reads ip plain p, Option.map_some, List.drop_left' size]
  simp only [rewriteEcn, framed, addressed, Option.bind_eq_bind, Option.bind_some]

theorem setEcn_twice (h : Ipv4Header) : (h.setEcn 3).setEcn 3 = h.setEcn 3 := by
  have kept : ∀ tos : Fin 256, ((UInt8.ofFin tos &&& 0xfc) ||| 3) &&& 0xfc ||| 3 =
      (UInt8.ofFin tos &&& 0xfc) ||| 3 := by decide +kernel
  have same := kept h.tos.toFin
  rw [UInt8.ofFin_toFin] at same
  simp only [Ipv4Header.setEcn, same]

def Ipv4Header.markedBy (n : Nat) (h : Ipv4Header) : Ipv4Header :=
  if n = 0 then h else h.setEcn 3

/-- Marking a packet again changes nothing. -/
theorem rewrittenBy_stack (plain : ip.Plain) (n : Nat) :
    rewrittenBy n (ppp.serialize ++ (ip.serialize ++ p)) =
      some (ppp.serialize ++ ((ip.markedBy n).serialize ++ p)) := by
  have again : ∀ k, rewrittenBy k (ppp.serialize ++ ((ip.setEcn 3).serialize ++ p)) =
      some (ppp.serialize ++ ((ip.setEcn 3).serialize ++ p)) := by
    intro k
    induction k with
    | zero => rfl
    | succ k ih =>
        rw [rewrittenBy, rewriteEcn_stack (Ipv4Header.setEcn_plain plain 3), setEcn_twice]
        exact ih
  cases n with
  | zero => rfl
  | succ n =>
      rw [rewrittenBy, rewriteEcn_stack plain, Ipv4Header.markedBy, if_neg (Nat.succ_ne_zero n)]
      exact again n

theorem markedBy_kept (n : Nat) :
    (ip.markedBy n).protocol = ip.protocol ∧ (ip.markedBy n).source = ip.source ∧
      (ip.markedBy n).destination = ip.destination ∧
      (ip.markedBy n).identification = ip.identification := by
  unfold Ipv4Header.markedBy
  split_ifs
  · exact ⟨rfl, rfl, rfl, rfl⟩
  · exact ⟨rfl, rfl, rfl, rfl⟩

end Ecn

structure DataRead (mode : UInt32) (qp : QpAddress) (seq : UInt32) (ih : IntHeader)
    (payload : UInt32) (marks : Nat) (p : List UInt8) (ch : CustomHeader) : Prop where
  protocol : ch.l3Prot = 0x11
  sip : ch.sip = qp.sip
  dip : ch.dip = qp.dip
  sport : ch.udp.sport = qp.sport
  dport : ch.udp.dport = qp.dport
  pg : ch.udp.pg = qp.pg
  seq : ch.udp.seq = seq
  ipid : ch.ipid = qp.ipid
  int : IntHeader.Agrees mode ch.udp.ih ih
  ecn : ch.getIpv4EcnBits = if marks = 0 then 0 else 3
  size : p.length = ch.getSerializedSize mode + payload.toNat
  body : p.drop (ch.getSerializedSize mode) = createPacket payload.toNat

/-- What a header that has read an acknowledgement holds, which answers the packet of the header
`data`. -/
structure AckRead (mode : UInt32) (data : CustomHeader) (x : Nat) (seq : UInt32) (ipid : UInt16)
    (p : List UInt8) (ch : CustomHeader) : Prop where
  protocol : ch.l3Prot = if x = 1 then 0xFC else 0xFD
  sip : ch.sip = data.dip
  dip : ch.dip = data.sip
  sport : ch.ack.sport = data.udp.dport
  dport : ch.ack.dport = data.udp.sport
  pg : ch.ack.pg = data.udp.pg
  seq : ch.ack.seq = seq
  flags : ch.ack.flags = if data.getIpv4EcnBits ≠ 0 then 1 else 0
  ipid : ch.ipid = ipid
  int : IntHeader.Agrees mode ch.ack.ih data.udp.ih
  ecn : ch.getIpv4EcnBits = 0
  size : p.length = ch.getSerializedSize mode + (84 - ch.getSerializedSize mode)
  body : p.drop (ch.getSerializedSize mode) = createPacket (84 - ch.getSerializedSize mode)

structure PfcRead (mode : UInt32) (pausetime nBytes qIndex type address : UInt32)
    (identification : UInt16) (p : List UInt8) (ch : CustomHeader) : Prop where
  protocol : ch.l3Prot = 0xFE
  sip : ch.sip = address
  dip : ch.dip = 0xFFFFFFFF
  time : ch.pfc.time = if type = 0 then pausetime else 0
  qlen : ch.pfc.qlen = nBytes
  qIndex : ch.pfc.qIndex = qIndex
  ipid : ch.ipid = identification
  ecn : ch.getIpv4EcnBits = 0
  size : p.length = ch.getSerializedSize mode

/-- The packet that `ReceiveUdp` works with, whose other fields are in the tags. -/
def DataPacket.ofWire (mode : UInt32) (tags : DataPacket) (p : List UInt8) (ch : CustomHeader) :
    DataPacket :=
  { tags with
    seq := ch.udp.seq.toNat
    payload := (RdmaHw.payloadSize mode p ch).toNat
    sport := ch.udp.sport.toNat }

section Reading

variable {mode : UInt32} (memory : CustomHeader)

open CustomHeader in
theorem deserialize_data (ppp : PppHeader) (ip : Ipv4Header) (protocol : ip.protocol = 0x11)
    (udp : UdpHeader) (size : UInt16) (seqTs : SeqTsHeader) (payload : List UInt8) :
    (make allLayers memory).deserialize mode (ppp.serialize ++ (ip.serialize ++
      (udp.serialize size ++ (seqTs.serialize mode ++ payload)))) =
      some ((((make allLayers memory).withPpp ppp).withIpv4 ip).withUdp mode udp seqTs,
        58 + getUdpHeaderSize mode) := by
  apply deserialize_lower rfl rfl
  have lower : (ppp.serialize ++ ip.serialize).length = 58 := by
    rw [List.length_append, ppp.serialize_length, ip.serialize_length]
    rfl
  have passed : Reads (skip 58) (ppp.serialize ++ ip.serialize) () := reads_skip lower
  have upper := @readUdp_reads mode (((make allLayers memory).withPpp ppp).withIpv4 ip) rfl rfl
    udp size seqTs
  have read := (passed.andThen upper) payload
  simp only [List.append_assoc] at read
  have named : (((make allLayers memory).withPpp ppp).withIpv4 ip).l3Prot = 0x11 := protocol
  rw [readL4, named, if_neg (by decide), if_pos rfl, read, Option.map_some]

open CustomHeader in
theorem deserialize_ack (ppp : PppHeader) (ip : Ipv4Header)
    (protocol : ip.protocol = 0xFC ∨ ip.protocol = 0xFD) (seqh : QbbHeader)
    (padding : List UInt8) :
    (make allLayers memory).deserialize mode
      (ppp.serialize ++ (ip.serialize ++ (seqh.serialize mode ++ padding))) =
      some ((((make allLayers memory).withPpp ppp).withIpv4 ip).withAck mode seqh,
        58 + getAckSerializedSize mode) := by
  apply deserialize_lower rfl rfl
  have read := @readAck_reads mode (((make allLayers memory).withPpp ppp).withIpv4 ip) rfl seqh
    padding
  have named : (((make allLayers memory).withPpp ppp).withIpv4 ip).l3Prot = ip.protocol := rfl
  rw [readL4, named, read]
  rcases protocol with ack | nack
  · rw [ack]
    rfl
  · rw [nack]
    rfl

open CustomHeader in
theorem deserialize_pfc (ppp : PppHeader) (ip : Ipv4Header) (protocol : ip.protocol = 0xFE)
    (pauseh : PauseHeader) (rest : List UInt8) :
    (make allLayers memory).deserialize mode
      (ppp.serialize ++ (ip.serialize ++ (pauseh.serialize ++ rest))) =
      some ((((make allLayers memory).withPpp ppp).withIpv4 ip).withPfc pauseh, 58 + 12) := by
  apply deserialize_lower rfl rfl
  have read := @readPfc_reads (((make allLayers memory).withPpp ppp).withIpv4 ip) pauseh rest
  have named : (((make allLayers memory).withPpp ppp).withIpv4 ip).l3Prot = 0xFE := protocol
  rw [readL4, named, read]
  rfl

end Reading

section Stacks

variable {mode : UInt32} (memory : CustomHeader)

open CustomHeader

theorem getSerializedSize_data {ch : CustomHeader} (layers : ch.headerType = allLayers)
    (protocol : ch.l3Prot = 0x11) : ch.getSerializedSize mode = 58 + getUdpHeaderSize mode := by
  simp only [getSerializedSize, has, layers, protocol]
  rfl

theorem getSerializedSize_ack {ch : CustomHeader} (layers : ch.headerType = allLayers)
    (protocol : ch.l3Prot = 0xFC ∨ ch.l3Prot = 0xFD) :
    ch.getSerializedSize mode = 58 + getAckSerializedSize mode := by
  rcases protocol with ack | nack
  · simp only [getSerializedSize, has, layers, ack]
    rfl
  · simp only [getSerializedSize, has, layers, nack]
    rfl

theorem getSerializedSize_pfc {ch : CustomHeader} (layers : ch.headerType = allLayers)
    (protocol : ch.l3Prot = 0xFE) : ch.getSerializedSize mode = 58 + 12 := by
  simp only [getSerializedSize, has, layers, protocol]
  rfl

theorem dataStack_read (qp : QpAddress) (seq : UInt32) (ih : IntHeader) (payload : UInt32)
    (n : Nat) :
    ∃ p ch, rewrittenBy n (RdmaHw.dataStack mode qp seq ih payload) = some p ∧
      (make allLayers memory).deserialize mode p = some (ch, ch.getSerializedSize mode) ∧
      DataRead mode qp seq ih payload n p ch := by
  let seqTs : SeqTsHeader := { seq := seq, pg := qp.pg, ih := ih }
  let udp : UdpHeader := { sourcePort := qp.sport, destinationPort := qp.dport }
  obtain ⟨udpSize, ipSize, stacked⟩ : ∃ udpSize ipSize,
      RdmaHw.dataStack mode qp seq ih payload = (PppHeader.mk 0x0021).serialize ++
        ((RdmaHw.dataIp qp ipSize).serialize ++ (udp.serialize udpSize ++
          (seqTs.serialize mode ++ createPacket payload.toNat))) := ⟨_, _, rfl⟩
  have plain : (RdmaHw.dataIp qp ipSize).Plain := ⟨rfl, rfl, rfl⟩
  let ip := (RdmaHw.dataIp qp ipSize).markedBy n
  let ch := (((make allLayers memory).withPpp ⟨0x0021⟩).withIpv4 ip).withUdp mode udp seqTs
  obtain ⟨protocol, source, destination, identification⟩ :=
    @markedBy_kept (RdmaHw.dataIp qp ipSize) n
  have rewritten := @rewrittenBy_stack ⟨0x0021⟩ _ (udp.serialize udpSize ++
    (seqTs.serialize mode ++ createPacket payload.toNat)) plain n
  have size : ch.getSerializedSize mode = 58 + getUdpHeaderSize mode :=
    getSerializedSize_data rfl protocol
  have read := @deserialize_data mode memory ⟨0x0021⟩ ip protocol udp udpSize seqTs
    (createPacket payload.toNat)
  rw [← size] at read
  have headers : ((PppHeader.mk 0x0021).serialize ++ (ip.serialize ++ (udp.serialize udpSize ++
      seqTs.serialize mode))).length = ch.getSerializedSize mode := by
    rw [size]
    simp only [List.length_append, PppHeader.serialize_length, Ipv4Header.serialize_length,
      UdpHeader.serialize_length, SeqTsHeader.serialize_length, PppHeader.getStaticSize,
      getUdpHeaderSize]
    omega
  have whole : (PppHeader.mk 0x0021).serialize ++ (ip.serialize ++ (udp.serialize udpSize ++
      (seqTs.serialize mode ++ createPacket payload.toNat))) =
      ((PppHeader.mk 0x0021).serialize ++ (ip.serialize ++ (udp.serialize udpSize ++
        seqTs.serialize mode))) ++ createPacket payload.toNat := by
    simp only [List.append_assoc]
  refine ⟨_, ch, (congrArg _ stacked).trans rewritten, read, ?_⟩
  exact
    { protocol := protocol
      sip := source
      dip := destination
      sport := rfl
      dport := rfl
      pg := rfl
      seq := rfl
      ipid := identification
      int := IntHeader.receive_agrees _ _
      ecn := by
        show ip.tos &&& 3 = _
        simp only [ip, Ipv4Header.markedBy]
        split_ifs
        · show (0 : UInt8) &&& 3 = 0
          decide
        · show ((0 : UInt8) &&& 0xfc ||| 3) &&& 3 = 3
          decide
      size := by
        rw [whole, List.length_append, headers, createPacket, List.length_replicate]
      body := by
        rw [whole, List.drop_left' headers] }

theorem ackQbb_fields (data : CustomHeader) (seq : UInt32) :
    (RdmaHw.ackQbb data seq).sport = data.udp.dport ∧
      (RdmaHw.ackQbb data seq).dport = data.udp.sport ∧
      (RdmaHw.ackQbb data seq).pg = data.udp.pg ∧ (RdmaHw.ackQbb data seq).seq = seq ∧
      (RdmaHw.ackQbb data seq).flags = (if data.getIpv4EcnBits ≠ 0 then 1 else 0) ∧
      (RdmaHw.ackQbb data seq).ih = data.udp.ih := by
  unfold RdmaHw.ackQbb
  by_cases marked : data.getIpv4EcnBits ≠ 0
  · have flag : (0 : UInt16) ||| (1 : UInt16) <<< 0 = 1 := by decide
    rw [if_pos marked, if_pos marked]
    exact ⟨rfl, rfl, rfl, rfl, flag, rfl⟩
  · rw [if_neg marked, if_neg marked]
    exact ⟨rfl, rfl, rfl, rfl, rfl, rfl⟩

theorem ackStack_read (data : CustomHeader) (x : Nat) (seq : UInt32) (ipid : UInt16) :
    ∃ ch, (make allLayers memory).deserialize mode (RdmaHw.ackStack mode data x seq ipid) =
        some (ch, ch.getSerializedSize mode) ∧
      AckRead mode data x seq ipid (RdmaHw.ackStack mode data x seq ipid) ch := by
  let seqh := RdmaHw.ackQbb data seq
  let padding := createPacket (84 - 38 - 20 - QbbHeader.getSerializedSize mode)
  obtain ⟨ipSize, stacked⟩ : ∃ ipSize, RdmaHw.ackStack mode data x seq ipid =
      (PppHeader.mk 0x0021).serialize ++ ((RdmaHw.ackIp data x ipSize ipid).serialize ++
        (seqh.serialize mode ++ padding)) := ⟨_, rfl⟩
  let ip := RdmaHw.ackIp data x ipSize ipid
  let ch := (((make allLayers memory).withPpp ⟨0x0021⟩).withIpv4 ip).withAck mode seqh
  have answer := ackQbb_fields data seq
  have protocol : ip.protocol = 0xFC ∨ ip.protocol = 0xFD := by
    show (if x = 1 then (0xFC : UInt8) else 0xFD) = 0xFC ∨ _
    by_cases ack : x = 1
    · exact Or.inl (if_pos ack)
    · exact Or.inr (if_neg ack)
  have size : ch.getSerializedSize mode = 58 + getAckSerializedSize mode :=
    getSerializedSize_ack rfl protocol
  have read := @deserialize_ack mode memory ⟨0x0021⟩ ip protocol seqh padding
  rw [← size] at read
  have headers : ((PppHeader.mk 0x0021).serialize ++ (ip.serialize ++
      seqh.serialize mode)).length = ch.getSerializedSize mode := by
    rw [size]
    simp only [List.length_append, PppHeader.serialize_length, Ipv4Header.serialize_length,
      QbbHeader.serialize_length, PppHeader.getStaticSize, getAckSerializedSize,
      QbbHeader.getSerializedSize]
    omega
  have room : 84 - 38 - 20 - QbbHeader.getSerializedSize mode =
      84 - ch.getSerializedSize mode := by
    rw [size, QbbHeader.getSerializedSize, getAckSerializedSize]
    omega
  have whole : (PppHeader.mk 0x0021).serialize ++ (ip.serialize ++ (seqh.serialize mode ++
      padding)) = ((PppHeader.mk 0x0021).serialize ++ (ip.serialize ++ seqh.serialize mode)) ++
        createPacket (84 - ch.getSerializedSize mode) := by
    simp only [List.append_assoc, padding, room]
  refine ⟨ch, (congrArg _ stacked).trans read, ?_⟩
  exact
    { protocol := rfl
      sip := rfl
      dip := rfl
      sport := answer.1
      dport := answer.2.1
      pg := answer.2.2.1
      seq := answer.2.2.2.1
      flags := answer.2.2.2.2.1
      ipid := rfl
      int := answer.2.2.2.2.2 ▸ IntHeader.receive_agrees _ _
      ecn := by
        show (0 : UInt8) &&& 3 = 0
        decide
      size := by
        rw [stacked, whole, List.length_append, headers, createPacket, List.length_replicate]
      body := by
        rw [stacked, whole, List.drop_left' headers] }

theorem pfcStack_read (pausetime nBytes qIndex type address : UInt32) (identification : UInt16) :
    ∃ ch, (make allLayers memory).deserialize mode
        (QbbNetDevice.pfcStack pausetime nBytes qIndex type address identification) =
        some (ch, ch.getSerializedSize mode) ∧
      PfcRead mode pausetime nBytes qIndex type address identification
        (QbbNetDevice.pfcStack pausetime nBytes qIndex type address identification) ch := by
  let pauseh : PauseHeader :=
    { time := if type = 0 then pausetime else 0, qlen := nBytes, qindex := qIndex }
  obtain ⟨ipSize, stacked⟩ : ∃ ipSize,
      QbbNetDevice.pfcStack pausetime nBytes qIndex type address identification =
        (PppHeader.mk 0x0021).serialize ++
          ((QbbNetDevice.pfcIp address ipSize identification).serialize ++
            (pauseh.serialize ++ [])) := ⟨_, rfl⟩
  let ip := QbbNetDevice.pfcIp address ipSize identification
  let ch := (((make allLayers memory).withPpp ⟨0x0021⟩).withIpv4 ip).withPfc pauseh
  have size : ch.getSerializedSize mode = 58 + 12 := getSerializedSize_pfc rfl rfl
  have read := @deserialize_pfc mode memory ⟨0x0021⟩ ip rfl pauseh []
  rw [← size] at read
  refine ⟨ch, (congrArg _ stacked).trans read, ?_⟩
  exact
    { protocol := rfl
      sip := rfl
      dip := rfl
      time := rfl
      qlen := rfl
      qIndex := rfl
      ipid := rfl
      ecn := by
        show (0 : UInt8) &&& 3 = 0
        decide
      size := by
        rw [stacked, size, List.append_nil]
        simp only [List.length_append, PppHeader.serialize_length, Ipv4Header.serialize_length,
          PauseHeader.serialize_length, PppHeader.getStaticSize] }

end Stacks

section Receiver

variable {mode : UInt32} {qp : QpAddress} {seq payload : UInt32} {ih : IntHeader} {marks : Nat}
  {p : List UInt8} {ch : CustomHeader}

/-- `payload_size` is what the packet was created with. -/
theorem DataRead.payloadSize (read : DataRead mode qp seq ih payload marks p ch) :
    RdmaHw.payloadSize mode p ch = payload := by
  rw [RdmaHw.payloadSize, read.size, UInt32.ofNat_add, UInt32.ofNat_toNat, UInt32.add_comm,
    UInt32.add_sub_cancel]

theorem DataRead.ofWire (read : DataRead mode qp seq ih payload marks p ch) {sent : DataPacket}
    (seq_eq : sent.seq = seq.toNat) (payload_eq : sent.payload = payload.toNat)
    (sport_eq : sent.sport = qp.sport.toNat) : DataPacket.ofWire mode sent p ch = sent := by
  unfold DataPacket.ofWire
  rw [read.seq, read.payloadSize, read.sport, ← seq_eq, ← payload_eq, ← sport_eq]

theorem receiveUdp_expected (g : RdmaSettings) (now : Nat) (rx : RdmaRxQueuePair) (p : DataPacket)
    (expected : rx.receiverNextExpectedSeq = p.seq) :
    (RdmaHw.receiveUdp g now rx p).2.receiverNextExpectedSeq =
      Word32.add rx.receiverNextExpectedSeq p.payload := by
  have moved : (RdmaHw.receiverCheckSeq g now { rx with milestoneRx := g.ackInterval } p.seq
      p.payload).2.receiverNextExpectedSeq = Word32.add rx.receiverNextExpectedSeq p.payload := by
    simp only [RdmaHw.receiverCheckSeq, expected, if_true]
    split_ifs <;> rfl
  rw [← moved]
  simp only [RdmaHw.receiveUdp]
  split_ifs <;> rfl

theorem getNxtPacket_fits {g : RdmaSettings} {now : Nat} {q after : RdmaQueuePair}
    {sent : DataPacket} (flow : g.packetLevelRouting = false) (mtu : g.mtu < Word32.size)
    (success : RdmaHw.getNxtPacket g now q = .ok (sent, after)) :
    sent.seq < Word32.size ∧ sent.payload < Word32.size := by
  obtain ⟨seq, m, chosen, rfl, -⟩ := getNxtPacket_leaves success
  rw [chooseSeq_flow flow] at chosen
  obtain ⟨rfl, rfl⟩ := Prod.mk.inj (Except.ok.inj chosen)
  refine ⟨Word32.trunc_lt _, ?_⟩
  simp only [RdmaHw.packetAt]
  split
  · exact Word32.trunc_lt _
  · exact mtu

/-- The packet that one host takes from a queue pair of a flow is the packet that the other host
works with. -/
theorem getNxtPacket_arrives {g : RdmaSettings} {now : Nat} {q after : RdmaQueuePair}
    {sent : DataPacket} (flow : g.packetLevelRouting = false) (mtu : g.mtu < Word32.size)
    (success : RdmaHw.getNxtPacket g now q = .ok (sent, after)) (memory : CustomHeader)
    (port : sent.sport = qp.sport.toNat) (marks : Nat) :
    ∃ p ch, rewrittenBy marks (RdmaHw.dataStack mode qp (UInt32.ofNat sent.seq) ih
        (UInt32.ofNat sent.payload)) = some p ∧
      (CustomHeader.make CustomHeader.allLayers memory).deserialize mode p =
        some (ch, ch.getSerializedSize mode) ∧
      DataPacket.ofWire mode sent p ch = sent := by
  obtain ⟨seq_fits, payload_fits⟩ := getNxtPacket_fits flow mtu success
  obtain ⟨p, ch, marked, parsed, read⟩ := dataStack_read memory qp (UInt32.ofNat sent.seq) ih
    (UInt32.ofNat sent.payload) marks
  refine ⟨p, ch, marked, parsed, read.ofWire ?_ ?_ port⟩
  · exact (UInt32.toNat_ofNat_of_lt seq_fits).symm
  · exact (UInt32.toNat_ofNat_of_lt payload_fits).symm

end Receiver

/-- What the stacks of data packets, acknowledgements and PFC frames write is what the parser
finds, in every mode and whatever its memory held before. -/
theorem CustomHeader.reads_stacks (mode : UInt32) (memory : CustomHeader) :
    (∀ (qp : QpAddress) (seq : UInt32) (ih : IntHeader) (payload : UInt32) (marks : Nat),
      ∃ p ch, rewrittenBy marks (RdmaHw.dataStack mode qp seq ih payload) = some p ∧
        (make allLayers memory).deserialize mode p = some (ch, ch.getSerializedSize mode) ∧
        DataRead mode qp seq ih payload marks p ch ∧
        RdmaHw.payloadSize mode p ch = payload ∧
        ∀ (g : RdmaSettings) (now : Nat) (rx : RdmaRxQueuePair) (tags : DataPacket),
          (RdmaHw.receiveUdp g now { rx with receiverNextExpectedSeq := seq.toNat }
            (DataPacket.ofWire mode tags p ch)).2.receiverNextExpectedSeq =
            Word32.add seq.toNat payload.toNat) ∧
    (∀ (data : CustomHeader) (x : Nat) (seq : UInt32) (ipid : UInt16),
      ∃ ch, (make allLayers memory).deserialize mode (RdmaHw.ackStack mode data x seq ipid) =
          some (ch, ch.getSerializedSize mode) ∧
        AckRead mode data x seq ipid (RdmaHw.ackStack mode data x seq ipid) ch) ∧
    ∀ (pausetime nBytes qIndex type address : UInt32) (identification : UInt16),
      ∃ ch, (make allLayers memory).deserialize mode
          (QbbNetDevice.pfcStack pausetime nBytes qIndex type address identification) =
          some (ch, ch.getSerializedSize mode) ∧
        PfcRead mode pausetime nBytes qIndex type address identification
          (QbbNetDevice.pfcStack pausetime nBytes qIndex type address identification) ch := by
  refine ⟨?_, ackStack_read memory, pfcStack_read memory⟩
  intro qp seq ih payload marks
  obtain ⟨p, ch, marked, parsed, read⟩ := dataStack_read memory qp seq ih payload marks
  refine ⟨p, ch, marked, parsed, read, read.payloadSize, ?_⟩
  intro g now rx tags
  have arrived := receiveUdp_expected g now { rx with receiverNextExpectedSeq := seq.toNat }
    (DataPacket.ofWire mode tags p ch) (congrArg UInt32.toNat read.seq.symm)
  have bytes : (DataPacket.ofWire mode tags p ch).payload = payload.toNat :=
    congrArg UInt32.toNat read.payloadSize
  rwa [bytes] at arrived

end Floodgate
