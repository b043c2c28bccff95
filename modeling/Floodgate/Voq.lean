import Floodgate.Packet
import Floodgate.Library.Outcome
import Floodgate.Library.Word32
import Std.Data.ExtTreeMap

/-! Virtual output queues and the groups that share them out among destinations. -/

namespace Floodgate

open Std

/-- A packet waiting in a VOQ with its routing decision. -/
structure PacketUnit where
  pkt : Packet
  dst : Nat
  outDev : Nat
  qIndex : Nat

/-- `HashFunctions::APHash` over the decimal text that `sprintf("%d")` gives. -/
def apHash (text : List Char) : UInt32 :=
  text.zipIdx.foldl
    (fun hash entry =>
      let char := entry.1.toNat.toUInt32
      hash ^^^
        (if entry.2 % 2 = 0 then (hash <<< 7) ^^^ (char * (hash >>> 3))
          else ~~~((hash <<< 11) + (char ^^^ (hash >>> 5)))))
    0xAAAAAAAA

def hashVOQId (dst limit : Nat) : Nat := (apHash (Nat.toDigits 10 dst)).toNat % limit

/-- `m_voq_limit` and `m_dynamic_hash`. Dynamic hashing needs a limit to allocate below. -/
structure VOQGroupConfig where
  voqLimit : Nat
  dynamicHash : Bool
  limit_pos : dynamicHash = true → 0 < voqLimit
  limit_lt : voqLimit < Word32.size

/-- The VOQs by id, the dynamic assignment of destinations to ids, and this group's entries of
`VOQ::VOQBuffer`, which outlive the VOQs they count. -/
structure VOQGroup where
  config : VOQGroupConfig
  voqs : ExtTreeMap Nat (List PacketUnit)
  dst2voq : ExtTreeMap Nat Nat
  voqBuffer : ExtTreeMap Nat Nat

namespace VOQGroup

def init (config : VOQGroupConfig) : VOQGroup := ⟨config, ∅, ∅, ∅⟩

/-- `none` stands for `(uint32_t)-1`, which no destination and no id below a limit equals. -/
def findVOQId (g : VOQGroup) (dst : Nat) : Option Nat :=
  if g.config.voqLimit = 0 then some dst
  else if g.config.dynamicHash then g.dst2voq[dst]?
  else some (hashVOQId dst g.config.voqLimit)

/-- The id for `dst` and whether it was found. The search for a free id runs through the whole
range, so the highest free one is taken. -/
def getVOQId (g : VOQGroup) (dst : Nat) : Option Nat × Bool :=
  match g.findVOQId dst with
  | some id => (some id, true)
  | none =>
      if g.voqs.size < g.config.voqLimit then
        (((List.range g.config.voqLimit).filter fun i => !g.voqs.contains i).getLast?, false)
      else (some (hashVOQId dst g.config.voqLimit), false)

def findVOQ (g : VOQGroup) (dst : Nat) : Option Nat :=
  match g.findVOQId dst with
  | some id => if g.voqs.contains id then some id else none
  | none => none

/-- The constructor of `VOQ` with its registration in `VOQs`. -/
def createVOQ (g : VOQGroup) (id : Nat) : VOQGroup :=
  { g with
    voqs := g.voqs.insert id []
    voqBuffer := g.voqBuffer.insertIfNew id 0 }

def ensureVOQ (g : VOQGroup) (id : Nat) : VOQGroup :=
  if g.voqs.contains id then g else g.createVOQ id

/-- The VOQ of a destination, created if it does not exist. -/
def getVOQ (g : VOQGroup) (dst : Nat) : Except Assertion (Nat × VOQGroup) :=
  match g.getVOQId dst with
  | (none, _) => .error .voqPresent
  | (some id, hasFind) =>
      if (!g.config.dynamicHash && !g.voqs.contains id) ||
          (g.config.dynamicHash && !hasFind) then
        let created := g.ensureVOQ id
        if g.config.dynamicHash then
          if g.dst2voq.contains dst then .error .voqMapped
          else .ok (id, { created with dst2voq := created.dst2voq.insert dst id })
        else .ok (id, created)
      else if g.voqs.contains id then .ok (id, g)
      else .error .voqPresent

def packets (g : VOQGroup) (id : Nat) : List PacketUnit := (g.voqs[id]?).getD []

def bufferBytes (g : VOQGroup) (id : Nat) : Nat := (g.voqBuffer[id]?).getD 0

def enqueue (g : VOQGroup) (id : Nat) (unit : PacketUnit) : VOQGroup :=
  { g with
    voqs := g.voqs.insert id (g.packets id ++ [unit])
    voqBuffer := g.voqBuffer.insert id (Word32.add (g.bufferBytes id) unit.pkt.size) }

def pop (g : VOQGroup) (id : Nat) (unit : PacketUnit) : VOQGroup :=
  { g with
    voqs := g.voqs.insert id (g.packets id).tail
    voqBuffer := g.voqBuffer.insert id (Word32.sub (g.bufferBytes id) unit.pkt.size) }

/-- The end of `VOQGroup::VOQDequeueCallback`, given the bytes of `dst` still buffered. -/
def releaseVOQ (g : VOQGroup) (dst id buffering : Nat) : VOQGroup :=
  if g.config.dynamicHash && buffering == 0 then
    { g with
      dst2voq := g.dst2voq.erase dst
      voqs := if (g.packets id).isEmpty then g.voqs.erase id else g.voqs }
  else g

end VOQGroup

end Floodgate
