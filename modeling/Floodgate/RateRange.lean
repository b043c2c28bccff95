import Floodgate.RateControls

/-! The rates and gains of DCQCN, TIMELY and DCTCP stay in range, whatever the order of events. -/

namespace Floodgate

open LabelledRun Averaging

/-- A device with more than the minimum rate, which is even, and gains that are parts of one. -/
structure RateAttributes.Valid (a : RateAttributes) : Prop where
  order : a.minRate ≤ a.dcqcn.dataRate
  even : 2 ∣ a.minRate
  g : a.g ∈ Set.Icc 0 1
  rateOnFirstCnp : a.rateOnFirstCnp = 1
  tmlyBeta : a.tmlyBeta ∈ Set.Icc 0 1

def RateAttributes.range (a : RateAttributes) : Set Nat := Set.Icc a.minRate a.dcqcn.dataRate

section Factors

variable {a : RateAttributes} {alpha : Rat}

theorem dataRate_mem (valid : a.Valid) : a.dcqcn.dataRate ∈ a.range :=
  ⟨valid.order, Nat.le_refl _⟩

theorem one_mem_unit : (1 : Rat) ∈ Set.Icc (0 : Rat) 1 := ⟨zero_le_one, le_refl 1⟩

theorem zero_mem_unit : (0 : Rat) ∈ Set.Icc (0 : Rat) 1 := ⟨le_refl 0, zero_le_one⟩

theorem half_alpha_le (part : alpha ∈ Set.Icc 0 1) : 1 - alpha / 2 ≤ 1 := by
  have nonneg := part.1
  linarith

end Factors

namespace MlxPair

variable {a : RateAttributes} {s : MlxPair}

structure InRange (a : RateAttributes) (s : MlxPair) : Prop where
  rate : s.rate ∈ a.range
  targetRate : s.targetRate ∈ a.range
  alpha : s.alpha ∈ Set.Icc 0 1

theorem create_inRange (valid : a.Valid) (q : RatedQueuePair) : InRange a (create a q) :=
  ⟨dataRate_mem valid, dataRate_mem valid, one_mem_unit⟩

theorem cnpReceivedMlx_inRange (valid : a.Valid) (inside : InRange a s) :
    InRange a (s.cnpReceivedMlx a) := by
  have same : ⌊(s.rate : Rat) * a.rateOnFirstCnp⌋₊ = s.rate := by
    rw [valid.rateOnFirstCnp, mul_one, Nat.floor_natCast]
  unfold cnpReceivedMlx TimedQueuePair.cnpReceivedMlx
  rw [same]
  by_cases first : s.timed.q.mlx.firstCnp = true
  · simp only [first, if_true]
    exact ⟨inside.rate, inside.rate, one_mem_unit⟩
  · simp only [first]
    exact ⟨inside.rate, inside.targetRate, inside.alpha⟩

theorem updateAlphaMlx_inRange (valid : a.Valid) (inside : InRange a s) :
    InRange a (s.updateAlphaMlx a) := by
  refine ⟨inside.rate, inside.targetRate, ?_⟩
  unfold updateAlphaMlx
  dsimp only
  split
  · have mean := mean_mem_unit valid.g inside.alpha one_mem_unit
    rwa [mul_one] at mean
  · have mean := mean_mem_unit valid.g inside.alpha zero_mem_unit
    rwa [mul_zero, add_zero] at mean

theorem checkRateDecreaseMlx_inRange (inside : InRange a s) :
    InRange a (s.checkRateDecreaseMlx a) := by
  have slower := lowered_mem (half_alpha_le inside.alpha) inside.rate
  unfold checkRateDecreaseMlx TimedQueuePair.checkRateDecreaseMlx
  by_cases arrived : s.timed.q.mlx.decreaseCnpArrived = true
  · rw [if_pos arrived]
    refine ⟨slower, ?_, inside.alpha⟩
    show (if a.dcqcn.ecnClampTgtRate || decide (s.timed.q.mlx.rpTimeStage ≠ 0) then s.rate
      else s.targetRate) ∈ a.range
    split
    · exact inside.rate
    · exact inside.targetRate
  · rw [if_neg arrived]
    exact ⟨inside.rate, inside.targetRate, inside.alpha⟩

theorem raisedTarget_mem (inside : InRange a s) : s.raisedTarget a ∈ a.range := by
  have target := inside.targetRate
  unfold raisedTarget TimedQueuePair.rateIncEventMlx
  dsimp only
  split
  · exact target
  · split
    · exact raised_mem target _
    · exact raised_mem target _

theorem rateIncEventTimerMlx_inRange (valid : a.Valid) (inside : InRange a s) :
    InRange a (s.rateIncEventTimerMlx a) := by
  have target := raisedTarget_mem inside
  exact ⟨halves_mem valid.even inside.rate target, target, inside.alpha⟩

theorem receiveCnp_inRange (valid : a.Valid) (inside : InRange a s) :
    InRange a (s.receiveCnp a) := by
  unfold receiveCnp RatedQueuePair.receiveCnp
  split
  · exact ⟨dataRate_mem valid, dataRate_mem valid, inside.alpha⟩
  · exact inside

theorem run_inRange (valid : a.Valid) (inside : InRange a s) (timer : MlxTimer) :
    InRange a (s.run a timer) := by
  cases timer with
  | updateAlpha => exact updateAlphaMlx_inRange valid inside
  | decreaseRate => exact checkRateDecreaseMlx_inRange inside
  | rateIncrease => exact rateIncEventTimerMlx_inRange valid inside

theorem next_inRange (valid : a.Valid) (inside : InRange a s) (input : MlxInput) :
    InRange a (s.next a input) := by
  cases input with
  | cnp => exact cnpReceivedMlx_inRange valid inside
  | receiveCnp => exact receiveCnp_inRange valid inside
  | wait later => exact ⟨inside.rate, inside.targetRate, inside.alpha⟩
  | fire e =>
      have taken : InRange a { s with timed := s.timed.take e } :=
        ⟨inside.rate, inside.targetRate, inside.alpha⟩
      exact run_inRange valid taken e.timer

end MlxPair

namespace TimelyPair

variable {a : RateAttributes} {q : TimelyPair}

structure InRange (a : RateAttributes) (q : TimelyPair) : Prop where
  maxRate : q.maxRate = a.dcqcn.dataRate
  rate : q.rate ∈ a.range
  curRate : q.curRate ∈ a.range

theorem create_inRange (valid : a.Valid) : InRange a (create a) :=
  ⟨rfl, dataRate_mem valid, dataRate_mem valid⟩

theorem decreaseFactor_le (valid : a.Valid) {rtt : UInt64} {gradient c : Rat}
    (found : decreaseFactor a rtt gradient = some c) : c ≤ 1 := by
  have beta := valid.tmlyBeta.1
  unfold decreaseFactor at found
  split at found
  · exact absurd found (Option.some_ne_none _).symm
  split at found
  · rename_i late
    obtain rfl := Option.some.inj found
    have above : a.tmlyTHigh.toNat ≤ rtt.toNat := (UInt64.lt_iff_toNat_lt.mp late).le
    have part : (a.tmlyTHigh.toNat : Rat) / rtt.toNat ≤ 1 :=
      div_le_one_of_le₀ (Nat.cast_le.mpr above) (Nat.cast_nonneg _)
    have product : 0 ≤ a.tmlyBeta * (1 - (a.tmlyTHigh.toNat : Rat) / rtt.toNat) :=
      mul_nonneg beta (by linarith)
    linarith
  split at found
  · exact absurd found (Option.some_ne_none _).symm
  · rename_i positive
    obtain rfl := Option.some.inj found
    have product : 0 ≤ a.tmlyBeta * gradient := mul_nonneg beta (not_le.mp positive).le
    split
    · exact zero_le_one
    · linarith

theorem nextRate_mem (valid : a.Valid) (inside : InRange a q) (rtt : UInt64) (gradient : Rat) :
    (q.nextRate a rtt gradient).1 ∈ a.range := by
  unfold nextRate
  split
  · rw [inside.maxRate]
    exact raised_mem inside.curRate _
  · rename_i c found
    exact lowered_mem (decreaseFactor_le valid found) inside.curRate

theorem updateRateTimely_inRange (valid : a.Valid) (inside : InRange a q) (ack : RateAck) :
    InRange a (q.updateRateTimely a ack) := by
  have rates := nextRate_mem valid inside ack.rtt
  unfold updateRateTimely
  dsimp only
  by_cases later : q.lastUpdateSeq = 0
  · simp only [later, ne_eq, not_true_eq_false, if_false]
    split
    · exact ⟨inside.maxRate, inside.rate, inside.curRate⟩
    · exact inside
  · simp only [later, ne_eq, not_false_eq_true, if_true]
    split
    · exact ⟨inside.maxRate, rates _, rates _⟩
    · exact ⟨inside.maxRate, rates _, rates _⟩

theorem next_inRange (valid : a.Valid) (inside : InRange a q) (event : AckEvent) :
    InRange a (q.next a event) := by
  cases event with
  | ack ack =>
      unfold next handleAckTimely
      dsimp only
      split
      · exact updateRateTimely_inRange valid inside ack
      · exact inside
  | receiveCnp =>
      unfold next receiveCnp
      dsimp only
      split
      · exact ⟨inside.maxRate, dataRate_mem valid, dataRate_mem valid⟩
      · exact inside

end TimelyPair

namespace DctcpPair

variable {a : RateAttributes} {q next : DctcpPair}

structure InRange (a : RateAttributes) (q : DctcpPair) : Prop where
  maxRate : q.maxRate = a.dcqcn.dataRate
  rate : q.rate ∈ a.range
  alpha : q.alpha ∈ Set.Icc 0 1

theorem create_inRange (valid : a.Valid) : InRange a (create a) :=
  ⟨rfl, dataRate_mem valid, one_mem_unit⟩

theorem frac_mem (q : DctcpPair) : q.frac ∈ Set.Icc 0 1 := by
  unfold frac
  split
  · exact one_mem_unit
  · have quotient : (0 : Rat) ≤ (q.ecnCnt.toNat : Rat) / q.batchSizeOfAlpha.toNat :=
      div_nonneg (Nat.cast_nonneg _) (Nat.cast_nonneg _)
    exact ⟨le_min zero_le_one quotient, min_le_left _ _⟩

theorem nextAlpha_mem (valid : a.Valid) (inside : InRange a q) :
    q.nextAlpha a ∈ Set.Icc 0 1 :=
  mean_mem_unit valid.g inside.alpha (frac_mem q)

theorem countEcn_inRange (inside : InRange a q) (cnp : Bool) : InRange a (q.countEcn cnp) := by
  unfold countEcn
  split
  · exact ⟨inside.maxRate, inside.rate, inside.alpha⟩
  · exact inside

theorem updateAlpha_inRange (valid : a.Valid) (inside : InRange a q) {ack : RateAck}
    {updated : DctcpPair × Bool} (success : q.updateAlpha a ack = some updated) :
    InRange a updated.1 := by
  have counted := countEcn_inRange inside ack.cnp
  unfold updateAlpha at success
  dsimp only at success
  split at success
  · split at success
    · obtain ⟨size, -, success⟩ := Option.bind_eq_some_iff.mp success
      obtain rfl := Option.some.inj success
      exact ⟨counted.maxRate, counted.rate, counted.alpha⟩
    · obtain ⟨size, -, success⟩ := Option.bind_eq_some_iff.mp success
      obtain rfl := Option.some.inj success
      exact ⟨counted.maxRate, counted.rate, nextAlpha_mem valid counted⟩
  · obtain rfl := Option.some.inj success
    exact counted

theorem updateDisOrderedAlpha_inRange (valid : a.Valid) (inside : InRange a q) (ack : RateAck) :
    InRange a (q.updateDisOrderedAlpha a ack).1 := by
  have counted := countEcn_inRange inside ack.cnp
  have seen : InRange a { q.countEcn ack.cnp with acknumRtt := q.acknumRtt + 1 } :=
    ⟨counted.maxRate, counted.rate, counted.alpha⟩
  unfold updateDisOrderedAlpha
  dsimp only
  split
  · split
    · exact ⟨seen.maxRate, seen.rate, seen.alpha⟩
    · exact ⟨seen.maxRate, seen.rate, nextAlpha_mem valid seen⟩
  · exact seen

theorem exitCwr_inRange (inside : InRange a q) (seq : UInt32) : InRange a (q.exitCwr seq) := by
  unfold exitCwr
  split
  · exact ⟨inside.maxRate, inside.rate, inside.alpha⟩
  · exact inside

theorem reduceRate_inRange (inside : InRange a q) (cnp : Bool) (highSeq : UInt32) :
    InRange a (q.reduceRate a cnp highSeq) := by
  unfold reduceRate
  split
  · exact ⟨inside.maxRate, lowered_mem (half_alpha_le inside.alpha) inside.rate, inside.alpha⟩
  · exact inside

theorem increaseRate_inRange (inside : InRange a q) (newBatch : Bool) :
    InRange a (q.increaseRate a newBatch) := by
  unfold increaseRate
  split
  · have raised := raised_mem inside.rate a.dctcpRai
    rw [← inside.maxRate] at raised
    exact ⟨inside.maxRate, inside.maxRate ▸ raised, inside.alpha⟩
  · exact inside

theorem react_inRange {updated : DctcpPair × Bool} (inside : InRange a updated.1) (ack : RateAck)
    (highSeq : UInt32) : InRange a (react a ack highSeq updated) :=
  increaseRate_inRange (reduceRate_inRange (exitCwr_inRange inside _) _ _) _

theorem next_inRange (valid : a.Valid) (inside : InRange a q) {event : AckEvent}
    (success : q.next a event = some next) : InRange a next := by
  cases event with
  | ack ack =>
      unfold DctcpPair.next at success
      dsimp only at success
      split at success
      · obtain rfl := Option.some.inj success
        exact react_inRange (updateDisOrderedAlpha_inRange valid inside ack) _ _
      · obtain ⟨updated, found, success⟩ := Option.bind_eq_some_iff.mp success
        obtain rfl := Option.some.inj success
        exact react_inRange (updateAlpha_inRange valid inside found) _ _
  | receiveCnp =>
      obtain rfl := Option.some.inj success
      unfold receiveCnp
      split
      · exact ⟨inside.maxRate, dataRate_mem valid, inside.alpha⟩
      · exact inside

end DctcpPair

/-- Whatever the order of events, the rates lie between the minimum and the rate of the device, and
alpha between 0 and 1. -/
theorem rates_stay_in_range (a : RateAttributes) (valid : a.Valid) :
    (∀ q inputs finish,
      Run (fun s input next => next = MlxPair.next a s input) (MlxPair.create a q) inputs finish →
        finish.rate ∈ a.range ∧ finish.targetRate ∈ a.range ∧ finish.alpha ∈ Set.Icc 0 1) ∧
    (∀ events finish,
      Run (fun q event next => next = TimelyPair.next a q event) (TimelyPair.create a) events
        finish → finish.rate ∈ a.range ∧ finish.curRate ∈ a.range) ∧
    (∀ events finish,
      Run (fun q event next => DctcpPair.next a q event = some next) (DctcpPair.create a) events
        finish → finish.rate ∈ a.range ∧ finish.alpha ∈ Set.Icc 0 1) := by
  refine ⟨fun q inputs finish run => ?_, fun events finish run => ?_, fun events finish run => ?_⟩
  · have inside := run.invariant (MlxPair.InRange a) (MlxPair.create_inRange valid q) ?_
    · exact ⟨inside.rate, inside.targetRate, inside.alpha⟩
    · intro middle input next inside move
      rw [move]
      exact MlxPair.next_inRange valid inside input
  · have inside := run.invariant (TimelyPair.InRange a) (TimelyPair.create_inRange valid) ?_
    · exact ⟨inside.rate, inside.curRate⟩
    · intro middle event next inside move
      rw [move]
      exact TimelyPair.next_inRange valid inside event
  · have inside := run.invariant (DctcpPair.InRange a) (DctcpPair.create_inRange valid) ?_
    · exact ⟨inside.rate, inside.alpha⟩
    · exact fun _ _ _ inside move => DctcpPair.next_inRange valid inside move

section Examples

def slowDevice : RateAttributes where
  dcqcn := TimedQueuePair.resettingDcqcn
  minRate := 10
  g := 1 / 16
  rateOnFirstCnp := 1
  tmlyAlpha := 7 / 8
  tmlyBeta := 4 / 5
  tmlyTLow := 50000
  tmlyTHigh := 500000
  tmlyMinRtt := 20000
  dctcpRai := 20

theorem slowDevice_valid : slowDevice.Valid := by
  refine ⟨by decide, by decide, ⟨?_, ?_⟩, rfl, ⟨?_, ?_⟩⟩
  all_goals
    unfold slowDevice
    norm_num

def slowedPair : MlxPair :=
  ((MlxPair.create slowDevice TimedQueuePair.resettingQueuePair).next slowDevice .cnp).next
    slowDevice (.fire ⟨1, .decreaseRate, 4001⟩)

example : slowedPair.rate = 50 := by decide +kernel

theorem rates_stay_in_range_slowed : slowedPair.rate ∈ slowDevice.range ∧
    slowedPair.targetRate ∈ slowDevice.range ∧ slowedPair.alpha ∈ Set.Icc 0 1 := by
  refine (rates_stay_in_range slowDevice slowDevice_valid).1 TimedQueuePair.resettingQueuePair
    [.cnp, .fire ⟨1, .decreaseRate, 4001⟩] slowedPair ?_
  exact (Run.single rfl).snoc rfl

end Examples

end Floodgate
