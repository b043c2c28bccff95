import Floodgate.HopRecords

/-! What a sender learns from the records of one port in the headers of several packets. -/

namespace Floodgate

structure SampledPacket where
  path : List HopSample
  short : path.length ≤ IntHeader.maxHop
  place : Fin path.length

namespace SampledPacket

def sample (p : SampledPacket) : HopSample := p.path.get p.place

def record (multi : UInt32) (memory : IntHeader) (p : SampledPacket) : Option IntHop :=
  (IntHeader.travel multi memory .init p.path).map fun ih =>
    ih.hop.get ⟨p.place.val, Nat.lt_of_lt_of_le p.place.isLt p.short⟩

end SampledPacket

/-- Time and transmitted bytes of a port do not go back. -/
structure HopSample.NotAfter (first second : HopSample) : Prop where
  time : first.time.toNat ≤ second.time.toNat
  bytes : first.bytes.toNat ≤ second.bytes.toNat

/-- The queue length of a record is less than a unit below the true one. -/
structure QlenFaithful (multi : UInt32) (s : HopSample) (hop : IntHop) : Prop where
  below : hop.getQlen multi ≤ s.qlen.toNat
  within : s.qlen.toNat < hop.getQlen multi + IntHop.qlenPerUnit multi

/-- The differences of two records less than a period of their counters apart. -/
structure DeltaFaithful (multi : UInt32) (first second : HopSample) (before after : IntHop) :
    Prop where
  time : second.time.toNat - first.time.toNat < 2 ^ 24 →
    after.getTimeDelta before = second.time.toNat - first.time.toNat
  bytes : second.bytes.toNat - first.bytes.toNat < 2 ^ 20 * IntHop.bytesPerUnit multi →
    after.getBytesDelta multi before <
        second.bytes.toNat - first.bytes.toNat + IntHop.bytesPerUnit multi ∧
      second.bytes.toNat - first.bytes.toNat <
        after.getBytesDelta multi before + IntHop.bytesPerUnit multi

/-- The packets of one port report faithfully. -/
structure Faithful (multi : UInt32) (memory : IntHeader) (packets : List SampledPacket) : Prop where
  records : ∀ p ∈ packets, ∃ hop, p.record multi memory = some hop ∧
    QlenFaithful multi p.sample hop
  deltas : packets.Pairwise fun first second => ∀ before after,
    first.record multi memory = some before → second.record multi memory = some after →
      DeltaFaithful multi first.sample second.sample before after

/-- The units that were transmitted between two samples. -/
def HopSample.unitsTo (multi : UInt32) (first second : HopSample) : Nat :=
  second.bytes.toNat / IntHop.bytesPerUnit multi - first.bytes.toNat / IntHop.bytesPerUnit multi

/-- The units between two samples fit their field, and their bytes 32 bits. For units of more than
2^31 bytes a sum that wraps once can still come out within a unit. -/
def BytesFit (multi : UInt32) (first second : HopSample) : Prop :=
  first.unitsTo multi second < 2 ^ 20 ∧
    (first.unitsTo multi second * IntHop.bytesPerUnit multi < 2 ^ 32 ∨
      first.unitsTo multi second * IntHop.bytesPerUnit multi < 2 ^ 33 ∧
        2 ^ 32 + second.bytes.toNat % IntHop.bytesPerUnit multi <
          IntHop.bytesPerUnit multi + first.bytes.toNat % IntHop.bytesPerUnit multi)

structure InRange (multi : UInt32) (packets : List SampledPacket) : Prop where
  units : packets ≠ [] → IntHop.bytesPerUnit multi ≠ 0 ∧ IntHop.qlenPerUnit multi ≠ 0
  qlen : ∀ p ∈ packets, p.sample.qlen.toNat / IntHop.qlenPerUnit multi < 2 ^ 17
  bytes : packets.Pairwise fun first second =>
    second.sample.bytes.toNat - first.sample.bytes.toNat < 2 ^ 20 * IntHop.bytesPerUnit multi →
      BytesFit multi first.sample second.sample

section Arithmetic

/-- A product of `uint32_t` factors is the product with the wrapped unit. -/
theorem product_trunc (count scale multi : Nat) :
    Word32.trunc (Word32.trunc (count * scale) * multi) =
      Word32.trunc (count * Word32.trunc (scale * multi)) := by
  unfold Word32.trunc
  rw [Nat.mod_mul_mod, Nat.mul_mod_mod, Nat.mul_assoc]

theorem wrapped_difference {first second : Nat} (order : first ≤ second) (period : Nat)
    (some : 0 < period) :
    (if second % period ≥ first % period then second % period - first % period
      else second % period + period - first % period) = (second - first) % period := by
  have firstSplit := Nat.div_add_mod first period
  have secondSplit := Nat.div_add_mod second period
  have firstBelow := Nat.mod_lt first some
  have secondBelow := Nat.mod_lt second some
  have rounds : first / period ≤ second / period := Nat.div_le_div_right order
  have gap : ∀ k rest, rest < period → second - first = period * k + rest →
      (second - first) % period = rest := by
    intro k rest below split
    rw [split, Nat.mul_add_mod, Nat.mod_eq_of_lt below]
  have parts : period * (second / period) =
      period * (second / period - first / period) + period * (first / period) := by
    rw [← Nat.mul_add]
    congr 1
    omega
  split
  · rw [gap (second / period - first / period) (second % period - first % period) (by omega)
      (by omega)]
  · rename_i wraps
    have more : second / period - first / period ≠ 0 := by
      intro none
      rw [none, Nat.mul_zero] at parts
      omega
    obtain ⟨k, rounds⟩ := Nat.exists_eq_succ_of_ne_zero more
    rw [rounds, Nat.mul_succ] at parts
    rw [gap k (second % period + period - first % period) (by omega) (by omega)]

theorem within_unit_iff {unit first second : Nat} (some : unit ≠ 0) (word : unit < 2 ^ 32)
    (order : first ≤ second) (period : second - first < 2 ^ 20 * unit) :
    (Word32.trunc ((second / unit - first / unit) % 2 ^ 20 * unit) < second - first + unit ∧
      second - first < Word32.trunc ((second / unit - first / unit) % 2 ^ 20 * unit) + unit) ↔
    second / unit - first / unit < 2 ^ 20 ∧
      ((second / unit - first / unit) * unit < 2 ^ 32 ∨
        (second / unit - first / unit) * unit < 2 ^ 33 ∧
          2 ^ 32 + second % unit < unit + first % unit) := by
  have firstSplit := Nat.div_add_mod first unit
  have secondSplit := Nat.div_add_mod second unit
  have firstBelow := Nat.mod_lt first (Nat.pos_of_ne_zero some)
  have secondBelow := Nat.mod_lt second (Nat.pos_of_ne_zero some)
  have rounds : first / unit ≤ second / unit := Nat.div_le_div_right order
  have parts : unit * (second / unit) =
      (second / unit - first / unit) * unit + unit * (first / unit) := by
    rw [Nat.mul_comm _ unit, ← Nat.mul_add]
    congr 1
    omega
  generalize second / unit - first / unit = count at parts ⊢
  have difference : second + first % unit = first + count * unit + second % unit := by omega
  by_cases fits : count < 2 ^ 20
  · rw [Nat.mod_eq_of_lt fits]
    unfold Word32.trunc
    generalize count * unit = product at difference ⊢
    omega
  · -- Within a period only one more unit than the field holds is possible.
    have least : 2 ^ 20 ≤ count := Nat.not_lt.mp fits
    have exactly : count = 2 ^ 20 := by
      by_contra other
      have more : (2 ^ 20 + 1) * unit ≤ count * unit := Nat.mul_le_mul_right _ (by omega)
      rw [Nat.succ_mul] at more
      omega
    rw [exactly] at difference ⊢
    unfold Word32.trunc
    omega

end Arithmetic

section Records

variable {multi : UInt32} {memory : IntHeader}

theorem SampledPacket.record_holds {p : SampledPacket} {hop : IntHop}
    (success : p.record multi memory = some hop) : IntHop.Holds multi p.sample hop := by
  unfold record at success
  obtain ⟨final, travelled, rfl⟩ := Option.map_eq_some_iff.mp success
  have short := p.short
  obtain ⟨_, held⟩ := IntHeader.travel_records (k := 0) p.path rfl (by omega) travelled
  have place := p.place.isLt
  have moved := held p.place.val (by omega) place
  simp only [Nat.zero_add] at moved
  exact moved

theorem SampledPacket.record_some_iff (p : SampledPacket) :
    (∃ hop, p.record multi memory = some hop) ↔
      IntHop.bytesPerUnit multi ≠ 0 ∧ IntHop.qlenPerUnit multi ≠ 0 := by
  constructor
  · rintro ⟨hop, success⟩
    unfold record at success
    obtain ⟨final, travelled, _⟩ := Option.map_eq_some_iff.mp success
    have some : p.path ≠ [] := by
      intro empty
      have place := p.place.isLt
      have length := congrArg List.length empty
      rw [List.length_nil] at length
      omega
    obtain ⟨s, rest, path⟩ := List.exists_cons_of_ne_nil some
    rw [path] at travelled
    obtain ⟨stored, _, set, _⟩ := IntHeader.travel_cons travelled
    unfold IntHop.set at set
    split at set
    · contradiction
    · rename_i units
      exact not_or.mp units
  · rintro ⟨bytes, qlen⟩
    obtain ⟨final, travelled⟩ := @IntHeader.travel_some multi memory bytes qlen p.path .init
    unfold record
    rw [travelled]
    exact ⟨_, rfl⟩

variable {first second s : HopSample} {hop before after : IntHop}

theorem getQlen_eq (held : IntHop.Holds multi s hop) :
    hop.getQlen multi =
      s.qlen.toNat / IntHop.qlenPerUnit multi % 2 ^ 17 * IntHop.qlenPerUnit multi := by
  have small := s.qlen.toNat_lt
  have whole := Nat.div_mul_le_self s.qlen.toNat (IntHop.qlenPerUnit multi)
  have part : s.qlen.toNat / IntHop.qlenPerUnit multi % 2 ^ 17 * IntHop.qlenPerUnit multi ≤
      s.qlen.toNat / IntHop.qlenPerUnit multi * IntHop.qlenPerUnit multi :=
    Nat.mul_le_mul_right _ (Nat.mod_le _ _)
  unfold IntHop.getQlen
  rw [held.qlen, product_trunc]
  exact Word32.trunc_eq _ (by unfold Word32.size IntHop.qlenPerUnit at *; omega)

theorem qlenFaithful_iff (held : IntHop.Holds multi s hop)
    (some : IntHop.qlenPerUnit multi ≠ 0) :
    QlenFaithful multi s hop ↔ s.qlen.toNat / IntHop.qlenPerUnit multi < 2 ^ 17 := by
  have same := getQlen_eq held
  have positive := Nat.pos_of_ne_zero some
  constructor
  · intro faithful
    have within := faithful.within
    rw [same, ← Nat.succ_mul] at within
    have count := (Nat.div_lt_iff_lt_mul positive).mpr within
    have field : s.qlen.toNat / IntHop.qlenPerUnit multi % 2 ^ 17 < 2 ^ 17 :=
      Nat.mod_lt _ (by decide)
    omega
  · intro fits
    rw [Nat.mod_eq_of_lt fits] at same
    refine ⟨?_, ?_⟩
    · rw [same]
      exact Nat.div_mul_le_self _ _
    · rw [same, ← Nat.succ_mul]
      exact (Nat.div_lt_iff_lt_mul positive).mp (Nat.lt_succ_self _)

theorem getTimeDelta_eq (held : IntHop.Holds multi first before)
    (later : IntHop.Holds multi second after) (order : first.time.toNat ≤ second.time.toNat) :
    after.getTimeDelta before = (second.time.toNat - first.time.toNat) % 2 ^ 24 := by
  unfold IntHop.getTimeDelta
  rw [held.time, later.time]
  exact wrapped_difference order (2 ^ 24) (Nat.two_pow_pos _)

theorem getBytesDelta_eq (held : IntHop.Holds multi first before)
    (later : IntHop.Holds multi second after) (order : first.bytes.toNat ≤ second.bytes.toNat) :
    after.getBytesDelta multi before =
      Word32.trunc (first.unitsTo multi second % 2 ^ 20 * IntHop.bytesPerUnit multi) := by
  have units : first.bytes.toNat / IntHop.bytesPerUnit multi ≤
      second.bytes.toNat / IntHop.bytesPerUnit multi := Nat.div_le_div_right order
  have wrapped := wrapped_difference units (2 ^ 20) (Nat.two_pow_pos _)
  unfold IntHop.getBytesDelta
  rw [held.bytes, later.bytes, product_trunc, product_trunc, HopSample.unitsTo, ← wrapped]
  split
  · rfl
  · rfl

theorem deltaFaithful_iff (held : IntHop.Holds multi first before)
    (later : IntHop.Holds multi second after) (order : first.NotAfter second)
    (some : IntHop.bytesPerUnit multi ≠ 0) :
    DeltaFaithful multi first second before after ↔
      (second.bytes.toNat - first.bytes.toNat < 2 ^ 20 * IntHop.bytesPerUnit multi →
        BytesFit multi first second) := by
  have word : IntHop.bytesPerUnit multi < 2 ^ 32 := Word32.trunc_lt _
  have bytes : second.bytes.toNat - first.bytes.toNat < 2 ^ 20 * IntHop.bytesPerUnit multi →
      ((after.getBytesDelta multi before <
          second.bytes.toNat - first.bytes.toNat + IntHop.bytesPerUnit multi ∧
        second.bytes.toNat - first.bytes.toNat <
          after.getBytesDelta multi before + IntHop.bytesPerUnit multi) ↔
        BytesFit multi first second) := by
    intro period
    rw [getBytesDelta_eq held later order.bytes]
    exact within_unit_iff some word order.bytes period
  constructor
  · exact fun faithful period => (bytes period).mp (faithful.bytes period)
  · refine fun fits => ⟨fun period => ?_, fun period => (bytes period).mpr (fits period)⟩
    rw [getTimeDelta_eq held later order.time]
    exact Nat.mod_eq_of_lt period

/-- The records of a port are faithful exactly when what it samples fits the fields of a hop. -/
theorem int_samples_faithful_iff (multi : UInt32) (memory : IntHeader)
    (packets : List SampledPacket)
    (order : packets.Pairwise fun first second => first.sample.NotAfter second.sample) :
    Faithful multi memory packets ↔ InRange multi packets := by
  constructor
  · intro faithful
    have units : packets ≠ [] →
        IntHop.bytesPerUnit multi ≠ 0 ∧ IntHop.qlenPerUnit multi ≠ 0 := by
      intro some
      obtain ⟨p, present⟩ := List.exists_mem_of_ne_nil packets some
      obtain ⟨hop, recorded, _⟩ := faithful.records p present
      exact p.record_some_iff.mp ⟨hop, recorded⟩
    refine ⟨units, fun p present => ?_, ?_⟩
    · obtain ⟨hop, recorded, qlen⟩ := faithful.records p present
      have some := units (List.ne_nil_of_mem present)
      exact (qlenFaithful_iff (SampledPacket.record_holds recorded) some.2).mp qlen
    · have both := faithful.deltas.and order
      refine both.imp_of_mem fun {first second} firstIn secondIn pair => ?_
      obtain ⟨before, recorded, _⟩ := faithful.records first firstIn
      obtain ⟨after, later, _⟩ := faithful.records second secondIn
      have some := units (List.ne_nil_of_mem firstIn)
      have held := SampledPacket.record_holds recorded
      have laterHeld := SampledPacket.record_holds later
      exact (deltaFaithful_iff held laterHeld pair.2 some.1).mp (pair.1 before after recorded later)
  · intro range
    refine ⟨fun p present => ?_, ?_⟩
    · have some := range.units (List.ne_nil_of_mem present)
      obtain ⟨hop, recorded⟩ := p.record_some_iff.mpr some
      have qlen := range.qlen p present
      have held := SampledPacket.record_holds recorded
      exact ⟨hop, recorded, (qlenFaithful_iff held some.2).mpr qlen⟩
    · have both := range.bytes.and order
      refine both.imp_of_mem fun {first second} firstIn _ pair => ?_
      intro before after recorded later
      have some := range.units (List.ne_nil_of_mem firstIn)
      have held := SampledPacket.record_holds recorded
      have laterHeld := SampledPacket.record_holds later
      exact (deltaFaithful_iff held laterHeld pair.2 some.1).mpr pair.1

end Records

section OnePort

def onePort (s : HopSample) : SampledPacket where
  path := [s]
  short := Nat.succ_le_succ (Nat.zero_le 4)
  place := ⟨0, Nat.zero_lt_one⟩

/-- The time and the bytes wrap between the two samples. -/
def wrapping : List SampledPacket :=
  [onePort ⟨16777000, 134217000, 1000, 40000000000⟩,
    onePort ⟨16778000, 134218000, 2000, 40000000000⟩]

theorem int_samples_faithful_wrapping : Faithful 1 .init wrapping := by
  have order : wrapping.Pairwise fun first second => first.sample.NotAfter second.sample :=
    List.pairwise_pair.mpr ⟨by decide +kernel, by decide +kernel⟩
  refine (int_samples_faithful_iff 1 .init wrapping order).mpr ⟨fun _ => by decide, ?_, ?_⟩
  · decide +kernel
  · refine List.pairwise_pair.mpr fun _ => ⟨?_, .inl ?_⟩
    · decide +kernel
    · decide +kernel

/-- 12 MiB wait in a buffer of 20 MiB, and the record tells of 2 MB. -/
theorem long_queue_unseen :
    ¬ ∀ (multi : UInt32) (memory : IntHeader) (packets : List SampledPacket), 1 ≤ multi →
      (∀ p ∈ packets, p.sample.qlen.toNat ≤ 20 * 1024 * 1024) →
      (packets.Pairwise fun first second => first.sample.NotAfter second.sample) →
      Faithful multi memory packets := by
  intro claim
  have faithful := claim 1 .init [onePort ⟨0, 0, 12582912, 40000000000⟩] (by decide)
    (by decide +kernel) (List.pairwise_singleton _ _)
  obtain ⟨hop, recorded, qlen⟩ := faithful.records _ (List.mem_singleton_self _)
  have same := getQlen_eq (SampledPacket.record_holds recorded)
  have read : hop.getQlen 1 = 2097120 := same
  have within := qlen.within
  rw [read] at within
  exact absurd within (by decide +kernel)

end OnePort

end Floodgate
