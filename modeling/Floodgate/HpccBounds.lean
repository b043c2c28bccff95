import Floodgate.HpccRates
import Floodgate.Library.PartialFold

/-! When the rates of HPCC are defined, and what bounds them. -/

namespace Floodgate

open LabelledRun Averaging PartialFold

theorem divide_some {a b : Rat} (some : b ≠ 0) : divide a b = .some (a / b) := if_neg some

theorem divide_eq_some_iff {a b result : Rat} :
    divide a b = some result ↔ b ≠ 0 ∧ a / b = result := by
  unfold divide
  split
  · rename_i zero
    simp [zero]
  · rename_i some
    simp [some]

theorem IntHop.getLineRate_pos (hop : IntHop) : 0 < hop.getLineRate := by
  have field : hop.lineRate < 8 := Nat.mod_lt _ (by decide)
  have values : ∀ i < 8, 0 < IntHop.lineRateValues.getD i 0 := by decide
  exact values _ field

namespace HpQueuePair

section Utilization

variable (c : HpAttributes) (q : HpQueuePair) (hop last : IntHop)

/-- Nothing has been sent between two records of a hop, and nothing waited. -/
def Quiet : Prop := hop.getBytesDelta c.multi last = 0 ∧ shorter c hop last * q.maxRate = 0

def utilizationValue : Rat :=
  ((hop.getBytesDelta c.multi last * 8 : Nat) : Rat) / ((tau hop last : Rat) * (1 / 1000000000)) /
      hop.getLineRate +
    (shorter c hop last : Rat) * q.maxRate / hop.getLineRate / q.win.toNat

variable {c q hop last}

theorem lineRate_cast : (0 : Rat) < hop.getLineRate := Nat.cast_pos.mpr hop.getLineRate_pos

theorem utilization_eq_some_iff {u : Rat} : q.utilization c hop last = some u ↔
    tau hop last ≠ 0 ∧ q.win ≠ 0 ∧ u = utilizationValue c q hop last := by
  have rate : (hop.getLineRate : Rat) ≠ 0 := lineRate_cast.ne'
  have duration : (tau hop last : Rat) * (1 / 1000000000) ≠ 0 ↔ tau hop last ≠ 0 := by
    rw [mul_ne_zero_iff, Nat.cast_ne_zero]
    exact and_iff_left (by norm_num)
  have window : (q.win.toNat : Rat) ≠ 0 ↔ q.win ≠ 0 := by
    rw [Nat.cast_ne_zero, ← UInt32.toNat_inj.ne]
    rfl
  unfold utilization
  simp only [Option.bind_eq_bind, Option.bind_eq_some_iff, divide_eq_some_iff, Option.some.injEq]
  constructor
  · rintro ⟨txRate, ⟨time, rfl⟩, sent, ⟨_, rfl⟩, queued, ⟨_, rfl⟩, waiting, ⟨some, rfl⟩, rfl⟩
    exact ⟨duration.mp time, window.mp some, rfl⟩
  · rintro ⟨time, some, rfl⟩
    exact ⟨_, ⟨duration.mpr time, rfl⟩, _, ⟨rate, rfl⟩, _, ⟨rate, rfl⟩, _, ⟨window.mpr some, rfl⟩,
      rfl⟩

theorem utilizationValue_nonneg : 0 ≤ utilizationValue c q hop last := by
  unfold utilizationValue
  positivity

theorem utilizationValue_eq_zero_iff (time : tau hop last ≠ 0) (win : q.win ≠ 0) :
    utilizationValue c q hop last = 0 ↔ Quiet c q hop last := by
  have rate : (hop.getLineRate : Rat) ≠ 0 := lineRate_cast.ne'
  have window : (q.win.toNat : Rat) ≠ 0 := by
    rw [Nat.cast_ne_zero]
    exact fun zero => win (UInt32.toNat_inj.mp zero)
  have duration : (tau hop last : Rat) * (1 / 1000000000) ≠ 0 :=
    mul_ne_zero (Nat.cast_ne_zero.mpr time) (by norm_num)
  unfold utilizationValue Quiet
  rw [add_eq_zero_iff_of_nonneg (by positivity) (by positivity)]
  simp only [div_eq_zero_iff, rate, window, duration, or_false, ← Nat.cast_mul, Nat.cast_eq_zero]
  rw [Nat.mul_eq_zero, or_iff_left (by decide : ¬ 8 = 0)]

end Utilization

section Next

variable {c : HpAttributes} {q : HpQueuePair} {rate : Nat} {incStage : UInt32} {u : Rat}

theorem nextRate_some_iff : (∃ next, q.nextRate c rate incStage u = some next) ↔
    c.targetUtil ≠ 0 ∧ ¬ (u = 0 ∧ c.miThresh ≤ incStage) := by
  unfold nextRate
  by_cases target : c.targetUtil = 0
  · simp [divide, target]
  rw [divide_some target]
  simp only [Option.bind_eq_bind, Option.bind_some, target, ne_eq, not_false_eq_true, true_and]
  by_cases idle : u = 0
  · have small : ¬ (1 : Rat) ≤ 0 := by norm_num
    by_cases stage : c.miThresh ≤ incStage
    · simp [idle, stage, divide]
    · simp [idle, stage, small]
  · have some : u / c.targetUtil ≠ 0 := div_ne_zero idle target
    split
    · rw [divide_some some]
      simp [idle]
    · simp [idle]

theorem nextRate_mem {next : Nat × UInt32} (success : q.nextRate c rate incStage u = some next)
    (order : c.minRate ≤ q.maxRate) : c.minRate ≤ next.1 ∧ next.1 ≤ q.maxRate := by
  unfold nextRate at success
  obtain ⟨maxC, -, success⟩ := Option.bind_eq_some_iff.mp success
  split at success
  · obtain ⟨slowed, -, success⟩ := Option.bind_eq_some_iff.mp success
    obtain rfl := Option.some.inj success
    exact clamp_mem order _
  · obtain rfl := Option.some.inj success
    exact clamp_mem order _

end Next

section Blend

variable {period part : Nat} {old new result : Rat}

theorem blend_some_iff :
    (∃ result, divide (old * (period - min part period : Nat) + new * (min part period : Nat))
      period = some result) ↔ period ≠ 0 := by
  simp only [divide_eq_some_iff, Nat.cast_ne_zero, exists_and_left, exists_eq', and_true]

theorem blend_spec (first : 0 ≤ old) (second : 0 ≤ new)
    (success : divide (old * (period - min part period : Nat) + new * (min part period : Nat))
      period = some result) :
    0 ≤ result ∧ (result = 0 ↔ (old = 0 ∨ period ≤ part) ∧ (new = 0 ∨ part = 0)) := by
  obtain ⟨some, rfl⟩ := divide_eq_some_iff.mp success
  have nonzero : period ≠ 0 := Nat.cast_ne_zero.mp some
  have positive : (0 : Rat) < period := Nat.cast_pos.mpr (Nat.pos_of_ne_zero nonzero)
  have least : (0 : Rat) ≤ (min part period : Nat) := Nat.cast_nonneg _
  have most : ((min part period : Nat) : Rat) ≤ period := Nat.cast_le.mpr (Nat.min_le_right _ _)
  rw [Nat.cast_sub (Nat.min_le_right _ _)]
  refine ⟨blend_nonneg positive least most first second, ?_⟩
  rw [blend_eq_zero_iff positive least most first second, Nat.cast_inj, Nat.cast_eq_zero]
  have whole : min part period = period ↔ period ≤ part := by omega
  have none : min part period = 0 ↔ part = 0 := by omega
  rw [whole, none]

end Blend

section Sweep

theorem exists_bind_some {Item Result : Type} {found : Option Item} {make : Item → Result} :
    (∃ result, (found.bind fun item => some (make item)) = some result) ↔
      ∃ item, found = some item := by
  cases found with
  | none => simp
  | some item => simp

variable (c : HpAttributes) (q : HpQueuePair) (fast : Bool) (ih : IntHeader)

def Divisible (i : Fin IntHeader.maxHop) : Prop :=
  tau (ih.hop.get i) (q.hp.hop i) ≠ 0 ∧ q.win ≠ 0 ∧ (c.multipleRate = true → q.baseRtt ≠ 0)

def Vanishes (i : Fin IntHeader.maxHop) : Prop :=
  Quiet c q (ih.hop.get i) (q.hp.hop i) ∧
    ((q.hp.hopState i).u = 0 ∨ q.baseRtt.toNat ≤ tau (ih.hop.get i) (q.hp.hop i))

/-- What the loop over the hops has made of those in `done`. -/
structure Swept (done : List (Fin IntHeader.maxHop)) (w : Sweep) : Prop where
  updated : ∀ i, w.updated i = true ↔ i ∈ done ∧ skips c fast (ih.hop.get i) = false
  hop : ∀ i ∉ done, w.hop i = q.hp.hop i
  kept : ∀ i ∉ done, w.hopU i = (q.hp.hopState i).u
  hopU : ∀ i, 0 ≤ w.hopU i
  vanishes : c.multipleRate = true → ∀ i, w.updated i = true → (w.hopU i = 0 ↔ Vanishes c q ih i)
  best : 0 ≤ w.best
  dt : w.dt = 0 ∨ 0 < w.best

variable {c q fast ih} {done : List (Fin IntHeader.maxHop)} {w next : Sweep}
  {i : Fin IntHeader.maxHop}

theorem UInt64.toNat_ne_zero {n : UInt64} : n.toNat ≠ 0 ↔ n ≠ 0 := by
  rw [← UInt64.toNat_inj.ne]
  rfl

theorem utilization_none_iff {hop last : IntHop} : q.utilization c hop last = none ↔
    ¬ (tau hop last ≠ 0 ∧ q.win ≠ 0) := by
  rw [Option.eq_none_iff_forall_ne_some]
  simp only [ne_eq, utilization_eq_some_iff]
  constructor
  · intro never both
    exact never _ ⟨both.1, both.2, rfl⟩
  · intro never u both
    exact never ⟨both.1, both.2.1⟩

theorem sweep_hop_some_iff (swept : Swept c q fast ih done w) (new : i ∉ done) :
    (∃ next, q.sweepHop c fast ih w i = some next) ↔
      (skips c fast (ih.hop.get i) = false → Divisible c q ih i) := by
  unfold sweepHop
  by_cases skip : skips c fast (ih.hop.get i) = true
  · simp [skip]
  rw [if_neg skip, swept.hop i new]
  simp only [Bool.not_eq_true] at skip
  simp only [skip, true_implies, Divisible, Option.bind_eq_bind]
  by_cases both : tau (ih.hop.get i) (q.hp.hop i) ≠ 0 ∧ q.win ≠ 0
  · rw [utilization_eq_some_iff.mpr ⟨both.1, both.2, rfl⟩, Option.bind_some]
    by_cases multiple : c.multipleRate = true
    · rw [if_pos multiple, exists_bind_some, blend_some_iff, UInt64.toNat_ne_zero]
      simp only [multiple, both.1, both.2, ne_eq, not_false_eq_true, true_and, true_implies]
    · rw [if_neg multiple]
      refine iff_of_true ?_ ⟨both.1, both.2, fun on => absurd on multiple⟩
      split
      · exact ⟨_, rfl⟩
      · exact ⟨_, rfl⟩
  · rw [utilization_none_iff.mpr both, Option.bind_none]
    simp only [reduceCtorEq, exists_false, false_iff]
    intro all
    exact both ⟨all.1, all.2.1⟩

theorem Swept.skip (swept : Swept c q fast ih done w)
    (skipped : skips c fast (ih.hop.get i) = true) : Swept c q fast ih (done ++ [i]) w where
  updated := by
    intro j
    rw [swept.updated j, List.mem_append, List.mem_singleton]
    constructor
    · exact fun both => ⟨.inl both.1, both.2⟩
    · intro both
      rcases both.1 with old | rfl
      · exact ⟨old, both.2⟩
      · exact absurd both.2 (by simp [skipped])
  hop := fun j outside => swept.hop j fun old => outside (List.mem_append_left _ old)
  kept := fun j outside => swept.kept j fun old => outside (List.mem_append_left _ old)
  hopU := swept.hopU
  vanishes := swept.vanishes
  best := swept.best
  dt := swept.dt

theorem Swept.see (swept : Swept c q fast ih done w) (seen : skips c fast (ih.hop.get i) = false)
    (updated : next.updated = Function.update w.updated i true)
    (hop : next.hop = Function.update w.hop i (ih.hop.get i))
    (others : ∀ j, j ≠ i → next.hopU j = w.hopU j) (here : 0 ≤ next.hopU i)
    (vanishes : c.multipleRate = true → (next.hopU i = 0 ↔ Vanishes c q ih i))
    (best : 0 ≤ next.best) (dt : next.dt = 0 ∨ 0 < next.best) :
    Swept c q fast ih (done ++ [i]) next where
  updated := by
    intro j
    rw [updated, List.mem_append, List.mem_singleton]
    by_cases same : j = i
    · simp [same, seen]
    · rw [Function.update_of_ne same, swept.updated j, or_iff_left same]
  hop := by
    intro j outside
    simp only [List.mem_append, List.mem_singleton, not_or] at outside
    rw [hop, Function.update_of_ne outside.2, swept.hop j outside.1]
  kept := by
    intro j outside
    simp only [List.mem_append, List.mem_singleton, not_or] at outside
    rw [others j outside.2, swept.kept j outside.1]
  hopU := by
    intro j
    by_cases same : j = i
    · rw [same]
      exact here
    · rw [others j same]
      exact swept.hopU j
  vanishes := by
    intro multiple j marked
    by_cases same : j = i
    · rw [same]
      exact vanishes multiple
    · rw [updated, Function.update_of_ne same] at marked
      rw [others j same]
      exact swept.vanishes multiple j marked
  best := best
  dt := dt

theorem sweep_hop_swept (valid : ∀ i, 0 ≤ (q.hp.hopState i).u) (swept : Swept c q fast ih done w)
    (new : i ∉ done) (success : q.sweepHop c fast ih w i = some next) :
    Swept c q fast ih (done ++ [i]) next := by
  unfold sweepHop at success
  by_cases skip : skips c fast (ih.hop.get i) = true
  · rw [if_pos skip] at success
    obtain rfl := Option.some.inj success
    exact swept.skip skip
  rw [if_neg skip, swept.hop i new] at success
  rw [Bool.not_eq_true] at skip
  obtain ⟨u, value, success⟩ := Option.bind_eq_some_iff.mp success
  obtain ⟨time, win, rfl⟩ := utilization_eq_some_iff.mp value
  have least : 0 ≤ utilizationValue c q (ih.hop.get i) (q.hp.hop i) := utilizationValue_nonneg
  by_cases multiple : c.multipleRate = true
  · rw [if_pos multiple] at success
    obtain ⟨average, blended, success⟩ := Option.bind_eq_some_iff.mp success
    obtain rfl := Option.some.inj success
    rw [swept.kept i new] at blended
    obtain ⟨nonneg, zero⟩ := blend_spec (valid i) least blended
    refine swept.see skip rfl rfl ?_ ?_ ?_ swept.best swept.dt
    · exact fun j other => Function.update_of_ne other _ _
    · simpa using nonneg
    · intro _
      simp only [Function.update_self]
      rw [zero, utilizationValue_eq_zero_iff time win, or_iff_left time]
      exact and_comm
  · rw [if_neg multiple] at success
    split at success
    · rename_i more
      obtain rfl := Option.some.inj success
      exact swept.see skip rfl rfl (fun _ _ => rfl) (swept.hopU i) (fun on => absurd on multiple)
        least (.inr (lt_of_le_of_lt swept.best more))
    · obtain rfl := Option.some.inj success
      exact swept.see skip rfl rfl (fun _ _ => rfl) (swept.hopU i) (fun on => absurd on multiple)
        swept.best swept.dt

theorem hops_nodup : (hops ih).Nodup := (List.nodup_finRange _).filter _

theorem mem_hops : i ∈ hops ih ↔ i.val < ih.nhop.toNat := by simp [hops]

theorem sweep_spec (valid : ∀ i, 0 ≤ (q.hp.hopState i).u) :
    ((∃ w, q.sweep c fast ih = some w) ↔
      ∀ i ∈ hops ih, skips c fast (ih.hop.get i) = false → Divisible c q ih i) ∧
      ∀ w, q.sweep c fast ih = some w → Swept c q fast ih (hops ih) w := by
  apply foldlM_rule (Swept c q fast ih)
  · exact fun _ _ _ => sweep_hop_some_iff
  · exact fun _ _ _ _ => sweep_hop_swept valid
  · exact ⟨by simp, fun _ _ => rfl, fun _ _ => rfl, valid, by simp, le_refl 0, .inl rfl⟩
  · exact hops_nodup

end Sweep

section Rates

variable (c : HpAttributes) (q : HpQueuePair)

def Within (rate : Nat) : Prop := c.minRate ≤ rate ∧ rate ≤ q.maxRate

structure InRange : Prop where
  rate : Within c q q.rate
  curRate : Within c q q.hp.curRate
  rc : c.multipleRate = true → ∀ i, Within c q (q.hp.hopState i).rc

theorem InRange.order {c : HpAttributes} {q : HpQueuePair} (inside : InRange c q) :
    c.minRate ≤ q.maxRate :=
  Nat.le_trans inside.rate.1 inside.rate.2

/-- The estimates are not negative, and that of the aggregate rate is never nothing. -/
structure Estimated : Prop where
  u : 0 < q.hp.u
  hopU : ∀ i, 0 ≤ (q.hp.hopState i).u

structure Rated (next : HpQueuePair) : Prop where
  maxRate : next.maxRate = q.maxRate
  estimated : Estimated next
  inRange : c.minRate ≤ q.maxRate → InRange c q → InRange c next

variable {c q} {fast : Bool} {ih : IntHeader} {w : Sweep}

section Single

theorem aggregate_pos {u : Rat} (estimated : Estimated q) (best : 0 ≤ w.best)
    (dt : w.dt = 0 ∨ 0 < w.best)
    (success : divide (q.hp.u * (q.baseRtt.toNat - min w.dt q.baseRtt.toNat : Nat) +
      w.best * (min w.dt q.baseRtt.toNat : Nat)) q.baseRtt.toNat = some u) : 0 < u := by
  obtain ⟨nonneg, zero⟩ := blend_spec estimated.u.le best success
  apply lt_of_le_of_ne nonneg
  intro none
  obtain ⟨old, new⟩ := zero.mp none.symm
  have late : w.dt = 0 := by
    rcases new with still | still
    · exact dt.resolve_right (by rw [still]; exact lt_irrefl 0)
    · exact still
  have rtt : q.baseRtt.toNat = 0 := by
    rcases old with still | still
    · exact absurd still estimated.u.ne'
    · omega
  exact blend_some_iff.mp ⟨u, success⟩ rtt

theorem single_rate_some_iff (estimated : Estimated q) (best : 0 ≤ w.best)
    (dt : w.dt = 0 ∨ 0 < w.best) :
    (∃ next, q.singleRate c fast w = some next) ↔ q.baseRtt ≠ 0 ∧ c.targetUtil ≠ 0 := by
  rw [← UInt64.toNat_ne_zero, ← blend_some_iff]
  unfold singleRate
  simp only [Option.bind_eq_bind]
  constructor
  · intro success
    obtain ⟨next, success⟩ := success
    obtain ⟨u, blended, success⟩ := Option.bind_eq_some_iff.mp success
    obtain ⟨rates, found, success⟩ := Option.bind_eq_some_iff.mp success
    exact ⟨⟨u, blended⟩, (nextRate_some_iff.mp ⟨rates, found⟩).1⟩
  · intro both
    obtain ⟨⟨u, blended⟩, target⟩ := both
    have positive := aggregate_pos estimated best dt blended
    have defined : c.targetUtil ≠ 0 ∧ ¬ (u = 0 ∧ c.miThresh ≤ q.hp.incStage) :=
      ⟨target, fun idle => positive.ne' idle.1⟩
    obtain ⟨rates, found⟩ := (@nextRate_some_iff c q q.hp.curRate _ _).mpr defined
    rw [blended, Option.bind_some, found, Option.bind_some]
    split
    · exact ⟨_, rfl⟩
    · exact ⟨_, rfl⟩

theorem single_rate_rated (estimated : Estimated q) (best : 0 ≤ w.best)
    (dt : w.dt = 0 ∨ 0 < w.best) {next : HpQueuePair}
    (success : q.singleRate c fast w = some next) : Rated c q next := by
  unfold singleRate at success
  obtain ⟨u, blended, success⟩ := Option.bind_eq_some_iff.mp success
  obtain ⟨rates, found, success⟩ := Option.bind_eq_some_iff.mp success
  have positive := aggregate_pos estimated best dt blended
  split at success
  · obtain rfl := Option.some.inj success
    exact ⟨rfl, ⟨positive, estimated.hopU⟩, fun order inside =>
      ⟨nextRate_mem found order, inside.curRate, inside.rc⟩⟩
  · obtain rfl := Option.some.inj success
    exact ⟨rfl, ⟨positive, estimated.hopU⟩, fun order inside =>
      ⟨nextRate_mem found order, nextRate_mem found order, inside.rc⟩⟩

end Single

section Multiple

variable {i : Fin IntHeader.maxHop} {r next : HopRates}

def RateDefined (c : HpAttributes) (q : HpQueuePair) (w : Sweep) (i : Fin IntHeader.maxHop) :
    Prop :=
  w.updated i = true → c.targetUtil ≠ 0 ∧ ¬ (w.hopU i = 0 ∧ c.miThresh ≤ (q.hp.hopState i).incStage)

def RatesWithin (c : HpAttributes) (q : HpQueuePair) (r : HopRates) : Prop :=
  Within c q r.newRate ∧ ∀ i, Within c q (r.perHop i).1

theorem rate_hop_some_iff :
    (∃ next, q.rateHop c w r i = some next) ↔ RateDefined c q w i := by
  unfold rateHop RateDefined
  by_cases updated : w.updated i = true
  · rw [if_pos updated]
    simp only [Option.bind_eq_bind, updated, true_implies]
    rw [exists_bind_some, nextRate_some_iff]
  · rw [if_neg updated]
    exact iff_of_true ⟨_, rfl⟩ fun on => absurd on updated

theorem rate_hop_within (order : c.minRate ≤ q.maxRate)
    (inside : ∀ i, Within c q (q.hp.hopState i).rc) (within : RatesWithin c q r)
    (success : q.rateHop c w r i = some next) :
    RatesWithin c q next := by
  unfold rateHop at success
  split at success
  · obtain ⟨rates, found, success⟩ := Option.bind_eq_some_iff.mp success
    obtain rfl := Option.some.inj success
    have here : Within c q rates.1 := nextRate_mem found order
    refine ⟨?_, ?_⟩
    · dsimp only
      split
      · exact here
      · exact within.1
    · intro j
      by_cases same : j = i
      · rw [same]
        simpa using here
      · simpa [Function.update_of_ne same] using within.2 j
  · obtain rfl := Option.some.inj success
    refine ⟨?_, within.2⟩
    dsimp only
    split
    · exact inside i
    · exact within.1

theorem rate_hops_spec (r : HopRates) :
    ((∃ finish, (hops ih).foldlM (q.rateHop c w) r = some finish) ↔
      ∀ i ∈ hops ih, RateDefined c q w i) ∧
      ∀ finish, (hops ih).foldlM (q.rateHop c w) r = some finish →
        (c.minRate ≤ q.maxRate → (∀ i, Within c q (q.hp.hopState i).rc) → RatesWithin c q r →
          RatesWithin c q finish) := by
  apply foldlM_rule fun _ finish => c.minRate ≤ q.maxRate →
    (∀ i, Within c q (q.hp.hopState i).rc) → RatesWithin c q r → RatesWithin c q finish
  · exact fun _ _ _ _ _ => rate_hop_some_iff
  · exact fun _ _ _ _ holds _ success order inside first =>
      rate_hop_within order inside (holds order inside first) success
  · exact fun _ _ first => first
  · exact hops_nodup

theorem multiple_rates_some_iff :
    (∃ next, q.multipleRates c fast ih w = some next) ↔ ∀ i ∈ hops ih, RateDefined c q w i := by
  rw [← (rate_hops_spec _).1]
  unfold multipleRates
  simp only [Option.bind_eq_bind]
  constructor
  · intro success
    obtain ⟨next, success⟩ := success
    obtain ⟨r, found, -⟩ := Option.bind_eq_some_iff.mp success
    exact ⟨r, found⟩
  · intro success
    obtain ⟨r, found⟩ := success
    rw [found, Option.bind_some]
    split
    · exact ⟨_, rfl⟩
    · exact ⟨_, rfl⟩

theorem multiple_rates_rated (multiple : c.multipleRate = true) (estimated : Estimated q)
    {next : HpQueuePair} (success : q.multipleRates c fast ih w = some next) : Rated c q next := by
  unfold multipleRates at success
  obtain ⟨r, found, success⟩ := Option.bind_eq_some_iff.mp success
  have within : c.minRate ≤ q.maxRate → InRange c q → RatesWithin c q r := by
    intro order inside
    apply (rate_hops_spec _).2 r found order (inside.rc multiple)
    exact ⟨⟨order, Nat.le_refl _⟩, inside.rc multiple⟩
  split at success
  · obtain rfl := Option.some.inj success
    exact ⟨rfl, ⟨estimated.u, estimated.hopU⟩, fun order inside =>
      ⟨(within order inside).1, inside.curRate, inside.rc⟩⟩
  · obtain rfl := Option.some.inj success
    exact ⟨rfl, ⟨estimated.u, estimated.hopU⟩, fun order inside =>
      ⟨(within order inside).1, (within order inside).1, fun _ => (within order inside).2⟩⟩

end Multiple

end Rates

section Update

variable (c : HpAttributes) (q : HpQueuePair)

/-- No division by zero at a hop. -/
structure HopDefined (ih : IntHeader) (i : Fin IntHeader.maxHop) : Prop where
  time : tau (ih.hop.get i) (q.hp.hop i) ≠ 0
  win : q.win ≠ 0
  baseRtt : q.baseRtt ≠ 0
  targetUtil : c.targetUtil ≠ 0
  average : c.multipleRate = true → c.miThresh ≤ (q.hp.hopState i).incStage → ¬ Vanishes c q ih i

def Looks (fast : Bool) (ih : IntHeader) (i : Fin IntHeader.maxHop) : Prop :=
  i ∈ hops ih ∧ skips c fast (ih.hop.get i) = false

variable {c q} {fast : Bool} {ih : IntHeader} {w : Sweep}

theorem updated_any_iff (swept : Swept c q fast ih (hops ih) w) :
    updatedAny w = true ↔ ∃ i, Looks c fast ih i := by
  unfold updatedAny
  rw [List.any_eq_true]
  constructor
  · intro found
    obtain ⟨i, -, updated⟩ := found
    exact ⟨i, (swept.updated i).mp updated⟩
  · intro found
    obtain ⟨i, looked⟩ := found
    exact ⟨i, List.mem_finRange i, (swept.updated i).mpr looked⟩

theorem swept_estimated (estimated : Estimated q) (swept : Swept c q fast ih (hops ih) w) :
    Estimated (q.swept w) :=
  ⟨estimated.u, swept.hopU⟩

theorem new_rates_some_iff (estimated : Estimated q) (swept : Swept c q fast ih (hops ih) w)
    (divisible : ∀ i, Looks c fast ih i → Divisible c q ih i) :
    (∃ next, q.newRates c fast ih w = some next) ↔
      ∀ i, Looks c fast ih i → HopDefined c q ih i := by
  unfold newRates
  by_cases any : updatedAny w = true
  · rw [if_pos any]
    obtain ⟨first, looked⟩ := (updated_any_iff swept).mp any
    by_cases multiple : c.multipleRate = true
    · rw [if_pos multiple, multiple_rates_some_iff]
      constructor
      · intro all i here
        have updated := (swept.updated i).mpr here
        obtain ⟨target, some⟩ := all i here.1 updated
        obtain ⟨time, win, rtt⟩ := divisible i here
        refine ⟨time, win, rtt multiple, target, fun _ stage vanishes => ?_⟩
        exact some ⟨(swept.vanishes multiple i updated).mpr vanishes, stage⟩
      · intro all i member updated
        have here := (swept.updated i).mp updated
        have fine := all i here
        refine ⟨fine.targetUtil, fun both => ?_⟩
        exact fine.average multiple both.2 ((swept.vanishes multiple i updated).mp both.1)
    · have after := swept_estimated estimated swept
      rw [if_neg multiple, single_rate_some_iff after swept.best swept.dt]
      constructor
      · intro both i here
        obtain ⟨time, win, -⟩ := divisible i here
        exact ⟨time, win, both.1, both.2, fun on => absurd on multiple⟩
      · intro all
        exact ⟨(all first looked).baseRtt, (all first looked).targetUtil⟩
  · rw [if_neg any]
    refine iff_of_true ⟨_, rfl⟩ fun i here => ?_
    exact absurd ((updated_any_iff swept).mpr ⟨i, here⟩) any

theorem new_rates_rated (estimated : Estimated q) (swept : Swept c q fast ih (hops ih) w)
    {next : HpQueuePair} (success : q.newRates c fast ih w = some next) :
    Rated c q next := by
  have keeps : ∀ {next}, Rated c (q.swept w) next → Rated c q next := fun rates =>
    ⟨rates.maxRate, rates.estimated, fun order inside =>
      rates.inRange order ⟨inside.rate, inside.curRate, inside.rc⟩⟩
  have after := swept_estimated estimated swept
  unfold newRates at success
  split at success
  · by_cases multiple : c.multipleRate = true
    · rw [if_pos multiple] at success
      exact keeps (multiple_rates_rated multiple after success)
    · rw [if_neg multiple] at success
      exact keeps (single_rate_rated after swept.best swept.dt success)
  · obtain rfl := Option.some.inj success
    exact ⟨rfl, after, fun _ inside => ⟨inside.rate, inside.curRate, inside.rc⟩⟩

theorem updateRateHp_eq (a : HpAck) : q.updateRateHp c a fast =
    if q.hp.lastUpdateSeq = 0 then some (q.storeHops a)
    else (q.sweep c fast a.ih).bind fun w => (q.newRates c fast a.ih w).bind fun next =>
      some (if fast then next else next.proceed a.sndNxt) := rfl

/-- An update after the first divides by zero unless it is fine at all hops that it looks at. -/
theorem update_rate_some_iff (estimated : Estimated q) (a : HpAck) :
    (∃ next, q.updateRateHp c a fast = some next) ↔
      (q.hp.lastUpdateSeq ≠ 0 → ∀ i, Looks c fast a.ih i → HopDefined c q a.ih i) := by
  rw [updateRateHp_eq]
  by_cases first : q.hp.lastUpdateSeq = 0
  · simp [first]
  rw [if_neg first]
  simp only [ne_eq, first, not_false_eq_true, true_implies]
  obtain ⟨defined, result⟩ := @sweep_spec c q fast a.ih estimated.hopU
  constructor
  · intro success
    obtain ⟨next, success⟩ := success
    obtain ⟨w, swept, success⟩ := Option.bind_eq_some_iff.mp success
    obtain ⟨rates, found, -⟩ := Option.bind_eq_some_iff.mp success
    have divisible := defined.mp ⟨w, swept⟩
    exact (new_rates_some_iff estimated (result w swept) fun i here =>
      divisible i here.1 here.2).mp ⟨rates, found⟩
  · intro all
    have divisible : ∀ i, Looks c fast a.ih i → Divisible c q a.ih i := fun i here =>
      ⟨(all i here).time, (all i here).win, fun _ => (all i here).baseRtt⟩
    obtain ⟨w, swept⟩ := defined.mpr fun i member seen => divisible i ⟨member, seen⟩
    obtain ⟨rates, found⟩ := (new_rates_some_iff estimated (result w swept) divisible).mpr all
    rw [swept, Option.bind_some, found, Option.bind_some]
    exact ⟨_, rfl⟩

theorem update_rate_rated (estimated : Estimated q) (a : HpAck) {next : HpQueuePair}
    (success : q.updateRateHp c a fast = some next) : Rated c q next := by
  rw [updateRateHp_eq] at success
  split at success
  · obtain rfl := Option.some.inj success
    exact ⟨rfl, ⟨estimated.u, estimated.hopU⟩, fun _ inside =>
      ⟨inside.rate, inside.curRate, inside.rc⟩⟩
  · obtain ⟨w, swept, success⟩ := Option.bind_eq_some_iff.mp success
    obtain ⟨rates, found, success⟩ := Option.bind_eq_some_iff.mp success
    have after := new_rates_rated estimated ((sweep_spec estimated.hopU).2 w swept) found
    obtain rfl := Option.some.inj success
    split
    · exact after
    · exact ⟨after.maxRate, ⟨after.estimated.u, after.estimated.hopU⟩, fun order inside =>
        ⟨(after.inRange order inside).rate, (after.inRange order inside).curRate,
          (after.inRange order inside).rc⟩⟩

end Update

end HpQueuePair

end Floodgate
