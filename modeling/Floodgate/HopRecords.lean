import Floodgate.Library.BitField
import Floodgate.Library.Word32
import Floodgate.PacketHeaders

/-! In-band telemetry: the bit-fields of a hop, and what a sender computes from two records of one
port. -/

namespace Floodgate

open BitField ByteReader

structure HopSample where
  time : UInt64
  bytes : UInt64
  qlen : UInt32
  rate : UInt64

namespace IntHop

/-! The bit-fields, from the lowest bit on. -/

def lineRateField : Field := ⟨0, 3⟩

def timeField : Field := ⟨3, 24⟩

def bytesField : Field := ⟨27, 20⟩

def qlenField : Field := ⟨47, 17⟩

def lineRateValues : List Nat :=
  [10000000000, 20000000000, 25000000000, 40000000000, 50000000000, 100000000000, 200000000000,
    400000000000, 0, 0]

def word (hop : IntHop) : Nat := hop.buf0.toNat + hop.buf1.toNat * 4294967296

def ofWord (word : Nat) : IntHop :=
  ⟨UInt32.ofNat word, UInt32.ofNat (word / 4294967296)⟩

def lineRate (hop : IntHop) : Nat := lineRateField.get hop.word

def time (hop : IntHop) : Nat := timeField.get hop.word

def bytes (hop : IntHop) : Nat := bytesField.get hop.word

def qlen (hop : IntHop) : Nat := qlenField.get hop.word

def lineRateOf (rate : UInt64) : Option Nat :=
  if rate = 10000000000 then some 0
  else if rate = 20000000000 then some 1
  else if rate = 25000000000 then some 2
  else if rate = 40000000000 then some 3
  else if rate = 50000000000 then some 4
  else if rate = 100000000000 then some 5
  else if rate = 200000000000 then some 6
  else if rate = 400000000000 then some 7
  else none

section Units

variable (multi : UInt32)

def bytesPerUnit : Nat := Word32.trunc (128 * multi.toNat)

def qlenPerUnit : Nat := Word32.trunc (80 * multi.toNat)

/-- The stores of `Set`. An unknown rate leaves its field as it is. -/
def setFields (word : Nat) (s : HopSample) : Nat :=
  let word := timeField.set word s.time.toNat
  let word := bytesField.set word (s.bytes.toNat / bytesPerUnit multi)
  let word := qlenField.set word (s.qlen.toNat / qlenPerUnit multi)
  (lineRateOf s.rate).elim word (lineRateField.set word)

/-- `Set`. A division by zero ends the program. -/
def set (hop : IntHop) (s : HopSample) : Option IntHop :=
  if bytesPerUnit multi = 0 ∨ qlenPerUnit multi = 0 then none
  else some (ofWord (setFields multi hop.word s))

def getLineRate (hop : IntHop) : Nat := lineRateValues.getD hop.lineRate 0

def getQlen (hop : IntHop) : Nat :=
  Word32.trunc (Word32.trunc (hop.qlen * 80) * multi.toNat)

/-- The difference of the fields is an `int`; its products are `uint32_t`. -/
def getBytesDelta (hop b : IntHop) : Nat :=
  if hop.bytes ≥ b.bytes then
    Word32.trunc (Word32.trunc ((hop.bytes - b.bytes) * 128) * multi.toNat)
  else Word32.trunc (Word32.trunc ((hop.bytes + 1048576 - b.bytes) * 128) * multi.toNat)

def getTimeDelta (hop b : IntHop) : Nat :=
  if hop.time ≥ b.time then hop.time - b.time else hop.time + 16777216 - b.time

end Units

section Fields

variable {hop : IntHop} {multi : UInt32} {s : HopSample}

theorem word_lt : hop.word < 2 ^ 64 := by
  have low := hop.buf0.toNat_lt
  have high := hop.buf1.toNat_lt
  unfold word
  omega

theorem word_ofWord {word : Nat} (small : word < 2 ^ 64) : (ofWord word).word = word := by
  have low : (UInt32.ofNat word).toNat = word % 2 ^ 32 := UInt32.toNat_ofNat'
  have high : (UInt32.ofNat (word / 4294967296)).toNat = word / 4294967296 % 2 ^ 32 :=
    UInt32.toNat_ofNat'
  simp only [IntHop.word, ofWord, low, high]
  omega

/-- The fields after `Set`. -/
structure Holds (multi : UInt32) (s : HopSample) (hop : IntHop) : Prop where
  time : hop.time = s.time.toNat % 2 ^ 24
  bytes : hop.bytes = s.bytes.toNat / bytesPerUnit multi % 2 ^ 20
  qlen : hop.qlen = s.qlen.toNat / qlenPerUnit multi % 2 ^ 17
  lineRate : ∀ i, lineRateOf s.rate = some i → hop.lineRate = i % 2 ^ 3

theorem lineRate_apart {g : Field} (apart : lineRateField.Disjoint g) (word : Nat)
    (rate : Option Nat) : g.get (rate.elim word (lineRateField.set word)) = g.get word := by
  cases rate with
  | none => rfl
  | some i => exact Field.get_set_other apart

theorem setFields_lt {word : Nat} (small : word < 2 ^ 64) : setFields multi word s < 2 ^ 64 := by
  have timed : timeField.set word s.time.toNat < 2 ^ 64 := Field.set_lt (by decide) small
  have counted : bytesField.set (timeField.set word s.time.toNat)
      (s.bytes.toNat / bytesPerUnit multi) < 2 ^ 64 := Field.set_lt (by decide) timed
  have queued : qlenField.set (bytesField.set (timeField.set word s.time.toNat)
      (s.bytes.toNat / bytesPerUnit multi)) (s.qlen.toNat / qlenPerUnit multi) < 2 ^ 64 :=
    Field.set_lt (by decide) counted
  unfold setFields
  cases lineRateOf s.rate with
  | none => rwa [Option.elim_none]
  | some i =>
      rw [Option.elim_some]
      exact Field.set_lt (by decide) queued

theorem set_holds {after : IntHop} (success : hop.set multi s = some after) :
    Holds multi s after := by
  unfold set at success
  split at success
  · contradiction
  obtain rfl := Option.some.inj success
  have small : setFields multi hop.word s < 2 ^ 64 := setFields_lt word_lt
  have same := word_ofWord small
  refine ⟨?_, ?_, ?_, fun i known => ?_⟩
  · rw [IntHop.time, same, setFields, lineRate_apart (by decide),
      Field.get_set_other (by decide), Field.get_set_other (by decide), Field.get_set]
    rfl
  · rw [IntHop.bytes, same, setFields, lineRate_apart (by decide),
      Field.get_set_other (by decide), Field.get_set]
    rfl
  · rw [IntHop.qlen, same, setFields, lineRate_apart (by decide), Field.get_set]
    rfl
  · rw [IntHop.lineRate, same, setFields, known, Option.elim_some, Field.get_set]
    rfl

theorem set_some (bytes : bytesPerUnit multi ≠ 0) (qlen : qlenPerUnit multi ≠ 0) :
    ∃ after, hop.set multi s = some after := by
  unfold set
  rw [if_neg fun zero => zero.elim bytes qlen]
  exact ⟨_, rfl⟩

end Fields

end IntHop

namespace IntHeader

def init : IntHeader := ⟨List.Vector.replicate maxHop ⟨0, 0⟩, 0, 0⟩

theorem slot_lt (nhop : UInt16) : nhop.toNat % maxHop < maxHop := Nat.mod_lt _ (Nat.succ_pos 4)

def slot (nhop : UInt16) : Fin maxHop := ⟨nhop.toNat % maxHop, slot_lt nhop⟩

def pushHop (mode multi : UInt32) (ih : IntHeader) (s : HopSample) : Option IntHeader :=
  if mode = 0 then
    ((ih.hop.get (slot ih.nhop)).set multi s).map fun hop =>
      { ih with hop := ih.hop.set (slot ih.nhop) hop, nhop := ih.nhop + 1 }
  else some ih

/-- `Serialize` and `Deserialize` into a header in memory. -/
def carry (memory ih : IntHeader) : Option IntHeader :=
  (memory.deserialize 0 (ih.serialize 0)).map Prod.fst

def travel (multi : UInt32) (memory : IntHeader) : IntHeader → List HopSample → Option IntHeader
  | ih, [] => some ih
  | ih, s :: rest => do
      let pushed ← ih.pushHop 0 multi s
      let read ← carry memory pushed
      travel multi memory read rest

theorem carry_hops (memory ih : IntHeader) :
    ∃ read, carry memory ih = some read ∧ read.hop = ih.hop ∧ read.nhop = ih.nhop := by
  have read := (@IntHeader.reads 0 memory ih).run
  unfold carry
  rw [read]
  exact ⟨_, rfl, rfl, rfl⟩

section Travel

variable {multi : UInt32} {memory ih final : IntHeader} {s : HopSample}

theorem travel_cons {rest : List HopSample}
    (success : travel multi memory ih (s :: rest) = some final) :
    ∃ hop read, (ih.hop.get (slot ih.nhop)).set multi s = some hop ∧
      read.hop = ih.hop.set (slot ih.nhop) hop ∧ read.nhop = ih.nhop + 1 ∧
      travel multi memory read rest = some final := by
  unfold travel pushHop at success
  rw [if_pos rfl] at success
  cases stored : (ih.hop.get (slot ih.nhop)).set multi s with
  | none => simp [stored] at success
  | some hop =>
      rw [stored] at success
      simp only [Option.map_some, Option.bind_eq_bind, Option.bind_some] at success
      obtain ⟨read, carried, hops, count⟩ := carry_hops memory
        { ih with hop := ih.hop.set (slot ih.nhop) hop, nhop := ih.nhop + 1 }
      rw [carried, Option.bind_some] at success
      exact ⟨hop, read, rfl, hops, count, success⟩

/-- Each port of the path has its own place in the header, and what it has stored stays. -/
theorem travel_records (path : List HopSample) {k : Nat} (count : ih.nhop.toNat = k)
    (short : k + path.length ≤ maxHop) (success : travel multi memory ih path = some final) :
    (∀ j : Fin maxHop, j.val < k → final.hop.get j = ih.hop.get j) ∧
      ∀ (i : Nat) (inside : k + i < maxHop) (here : i < path.length),
        IntHop.Holds multi path[i] (final.hop.get ⟨k + i, inside⟩) := by
  induction path generalizing ih k with
  | nil =>
      obtain rfl := Option.some.inj success
      exact ⟨fun _ _ => rfl, fun i _ here => absurd here (Nat.not_lt_zero i)⟩
  | cons s rest recorded =>
      rw [List.length_cons] at short
      obtain ⟨hop, read, stored, hops, next, later⟩ := travel_cons success
      unfold maxHop at short
      have here : slot ih.nhop = ⟨k, by unfold maxHop; omega⟩ := by
        apply Fin.ext
        simp only [slot, count]
        exact Nat.mod_eq_of_lt (by unfold maxHop; omega)
      have nextCount : read.nhop.toNat = k + 1 := by
        rw [next, UInt16.toNat_add, count]
        exact Nat.mod_eq_of_lt (by simp; omega)
      obtain ⟨kept, held⟩ := recorded nextCount (by unfold maxHop; omega) later
      refine ⟨fun j below => ?_, fun i inside place => ?_⟩
      · have other : slot ih.nhop ≠ j := by
          rw [here]
          intro same
          rw [← same] at below
          exact Nat.lt_irrefl _ below
        rw [kept j (Nat.lt_succ_of_lt below), hops, List.Vector.get_set_of_ne other]
      · cases i with
        | zero =>
            have first := kept ⟨k, by omega⟩ (Nat.lt_succ_self k)
            simp only [Nat.add_zero, List.getElem_cons_zero]
            rw [first, hops, here, List.Vector.get_set_same]
            exact IntHop.set_holds stored
        | succ i =>
            rw [List.length_cons] at place
            have moved := held i (by omega) (by omega)
            have same : k + 1 + i = k + (i + 1) := by omega
            simp only [same] at moved
            exact moved

theorem travel_some (bytes : IntHop.bytesPerUnit multi ≠ 0) (qlen : IntHop.qlenPerUnit multi ≠ 0)
    (path : List HopSample) (ih : IntHeader) :
    ∃ final, travel multi memory ih path = some final := by
  induction path generalizing ih with
  | nil => exact ⟨ih, rfl⟩
  | cons s rest recorded =>
      obtain ⟨hop, stored⟩ := @IntHop.set_some (ih.hop.get (slot ih.nhop)) multi s bytes qlen
      obtain ⟨read, carried, -, -⟩ := carry_hops memory
        { ih with hop := ih.hop.set (slot ih.nhop) hop, nhop := ih.nhop + 1 }
      obtain ⟨final, later⟩ := recorded read
      refine ⟨final, ?_⟩
      unfold travel pushHop
      rw [if_pos rfl, stored]
      simp only [Option.map_some, Option.bind_eq_bind, Option.bind_some, carried]
      exact later

end Travel

end IntHeader

end Floodgate
