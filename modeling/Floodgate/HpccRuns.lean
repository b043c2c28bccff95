import Floodgate.HpccBounds
import Floodgate.PairTables

/-! Runs of HPCC on a queue pair: the acknowledgements on which its rates are defined and in
range. -/

namespace Floodgate

open LabelledRun

namespace HpQueuePair

section Acks

variable (c : HpAttributes)

def acked (state : Option HpQueuePair) (a : HpAck) (next : Option HpQueuePair) : Prop :=
  next = state.bind fun q => q.handleAckHp c a

variable (q : HpQueuePair) (a : HpAck)

def fastReact : Bool := !decide (a.seq > q.hp.lastUpdateSeq)

def UpdatesFrom (i : Fin IntHeader.maxHop) : Prop :=
  q.hp.lastUpdateSeq ≠ 0 ∧ (q.fastReact a = true → c.fastReact = true) ∧
    Looks c (q.fastReact a) a.ih i

def Fine : Prop :=
  ∀ i, UpdatesFrom c q a i → HopDefined c q a.ih i ∧ c.minRate ≤ q.maxRate

/-- The acknowledgement is handled without a division by zero, and new rates are in range. -/
def Bounded : Prop :=
  ∃ next, q.handleAckHp c a = some next ∧ ((∃ i, UpdatesFrom c q a i) → InRange c next)

def NonNegative : Prop := 0 ≤ q.hp.u ∧ ∀ i, 0 ≤ (q.hp.hopState i).u

variable {c q a}

theorem handleAckHp_eq : q.handleAckHp c a =
    if q.fastReact a = true → c.fastReact = true then q.updateRateHp c a (q.fastReact a)
    else some q := by
  unfold handleAckHp fastReact
  by_cases full : a.seq > q.hp.lastUpdateSeq
  · simp [full]
  · by_cases reacts : c.fastReact = true
    · simp [full, reacts]
    · simp [full, reacts]

theorem handle_ack_rated (estimated : Estimated q) {next : HpQueuePair}
    (success : q.handleAckHp c a = some next) : Rated c q next := by
  rw [handleAckHp_eq] at success
  split at success
  · exact update_rate_rated estimated a success
  · obtain rfl := Option.some.inj success
    exact ⟨rfl, estimated, fun _ inside => inside⟩

theorem handle_ack_some_iff (estimated : Estimated q) :
    (∃ next, q.handleAckHp c a = some next) ↔
      ∀ i, UpdatesFrom c q a i → HopDefined c q a.ih i := by
  rw [handleAckHp_eq]
  by_cases reacts : q.fastReact a = true → c.fastReact = true
  · rw [if_pos reacts, update_rate_some_iff estimated]
    constructor
    · exact fun all i here => all here.1 i here.2.2
    · exact fun all later i here => all i ⟨later, reacts, here⟩
  · rw [if_neg reacts]
    exact iff_of_true ⟨q, rfl⟩ fun i here => absurd here.2.1 reacts

/-- One acknowledgement is handled well exactly under its condition. -/
theorem bounded_iff (estimated : Estimated q)
    (inside : c.minRate ≤ q.maxRate → InRange c q) : Fine c q a ↔ Bounded c q a := by
  constructor
  · intro fine
    obtain ⟨next, success⟩ := (handle_ack_some_iff estimated).mpr fun i here => (fine i here).1
    refine ⟨next, success, fun updates => ?_⟩
    obtain ⟨i, here⟩ := updates
    have order := (fine i here).2
    exact (handle_ack_rated estimated success).inRange order (inside order)
  · intro bounded i here
    obtain ⟨next, success, within⟩ := bounded
    have rated := handle_ack_rated estimated success
    exact ⟨(handle_ack_some_iff estimated).mp ⟨next, success⟩ i here,
      rated.maxRate ▸ (within ⟨i, here⟩).order⟩

end Acks

section Runs

variable (c : HpAttributes) (state : Option HpQueuePair)

def Defined : Prop := ∃ q, state = some q ∧ q.NonNegative

def Kept : Prop :=
  ∀ q, state = some q → Estimated q ∧ (c.minRate ≤ q.maxRate → InRange c q)

variable {c state}

theorem create_kept (dataRate : Nat) (win : UInt32) (baseRtt : UInt64)
    (memory : Fin IntHeader.maxHop → IntHop) :
    Kept c (some (create c dataRate win baseRtt memory)) := by
  intro q same
  obtain rfl := Option.some.inj same
  refine ⟨⟨zero_lt_one, fun _ => zero_le_one⟩, fun order => ?_⟩
  have whole : c.minRate ≤ dataRate ∧ dataRate ≤ dataRate := ⟨order, Nat.le_refl _⟩
  refine ⟨whole, whole, fun multiple i => ?_⟩
  unfold create Within
  simp only [multiple]
  exact whole

theorem Estimated.nonNegative {q : HpQueuePair} (estimated : Estimated q) : q.NonNegative :=
  ⟨estimated.u.le, estimated.hopU⟩

theorem acked_kept {a : HpAck} {next : Option HpQueuePair} (kept : Kept c state)
    (move : acked c state a next) : Kept c next := by
  intro after same
  rw [move] at same
  obtain ⟨q, here, success⟩ := Option.bind_eq_some_iff.mp same
  obtain ⟨estimated, inside⟩ := kept q here
  have rated := handle_ack_rated estimated success
  refine ⟨rated.estimated, fun order => ?_⟩
  rw [rated.maxRate] at order
  exact rated.inRange order (inside order)

end Runs

end HpQueuePair

open HpQueuePair

/-- The estimates stay defined and not negative, and the new rates in range, exactly in the runs in
which every update has divisors other than zero and a range of rates at the hops it looks at. -/
theorem hpcc_rates_bounded_iff (c : HpAttributes) (dataRate : Nat) (win : UInt32)
    (baseRtt : UInt64) (memory : Fin IntHeader.maxHop → IntHop)
    {entries : List (Option HpQueuePair × HpAck)} {finish : Option HpQueuePair}
    (run : Run (Traced (acked c)) (some (create c dataRate win baseRtt memory)) entries finish) :
    (∀ entry ∈ entries, ∀ q, entry.1 = some q → Fine c q entry.2) ↔
      (∀ entry ∈ entries, Defined entry.1 ∧ ∀ q, entry.1 = some q → Bounded c q entry.2) ∧
        Defined finish := by
  have start := create_kept (c := c) dataRate win baseRtt memory
  refine run.served_iff (Kept c) Defined (fun state a => ∀ q, state = some q → Fine c q a)
    (fun state a => ∀ q, state = some q → Bounded c q a) start
    ⟨_, rfl, (start _ rfl).1.nonNegative⟩ (fun _ _ _ kept _ move => acked_kept kept move) ?_
  rintro state a next kept ⟨q, rfl, -⟩ move
  obtain ⟨estimated, inside⟩ := kept q rfl
  simp only [Option.some.injEq, forall_eq']
  rw [bounded_iff estimated inside]
  refine ⟨fun bounded => ⟨bounded, ?_⟩, And.left⟩
  obtain ⟨after, success, -⟩ := bounded
  have same : next = some after := by rw [move, Option.bind_some, success]
  exact ⟨after, same, (acked_kept kept move after same).1.nonNegative⟩

section Examples

def aggregateRate : HpAttributes where
  minRate := 100000000
  rai := 50000000
  targetUtil := 19 / 20
  miThresh := 5
  multipleRate := false
  sampleFeedback := false
  fastReact := true
  multi := 1

def oneHop (hop : IntHop) : IntHeader := ⟨List.Vector.replicate IntHeader.maxHop hop, 1, 0⟩

theorem nhop_one (hop : IntHop) : (oneHop hop).nhop.toNat ≤ IntHeader.maxHop := by
  simp only [oneHop]
  decide

def firstAck : HpAck := ⟨1000, 2000, oneHop ⟨0, 0⟩, nhop_one ⟨0, 0⟩⟩

def secondAck : HpAck := ⟨3000, 4000, oneHop ⟨8000, 0⟩, nhop_one ⟨8000, 0⟩⟩

def freshPair (win : UInt32) (baseRtt : UInt64) : HpQueuePair :=
  create aggregateRate 100000000000 win baseRtt fun _ => ⟨0, 0⟩

theorem two_acks (win : UInt32) (baseRtt : UInt64) :
    Run (Traced (acked aggregateRate)) (some (freshPair win baseRtt))
      [(some (freshPair win baseRtt), firstAck),
        (some ((freshPair win baseRtt).storeHops firstAck), secondAck)]
      (((freshPair win baseRtt).storeHops firstAck).handleAckHp aggregateRate secondAck) := by
  have first : Run (Traced (acked aggregateRate)) (some (freshPair win baseRtt))
      [(some (freshPair win baseRtt), firstAck)]
      (some ((freshPair win baseRtt).storeHops firstAck)) := .single ⟨rfl, rfl⟩
  exact first.told rfl

theorem second_updates (win : UInt32) (baseRtt : UInt64) :
    UpdatesFrom aggregateRate ((freshPair win baseRtt).storeHops firstAck) secondAck
      (IntHeader.slot 0) := by
  refine ⟨?_, ?_, mem_hops.mpr ?_, ?_⟩
  · show (2000 : UInt32) ≠ 0
    decide
  · exact fun _ => rfl
  · decide
  · rfl

/-- Without a window the second acknowledgement is not handled. -/
theorem second_needs_window {win : UInt32} {baseRtt : UInt64} {next : HpQueuePair}
    (success : ((freshPair win baseRtt).storeHops firstAck).handleAckHp aggregateRate secondAck =
      some next) : win ≠ 0 := by
  have estimated : Estimated ((freshPair win baseRtt).storeHops firstAck) :=
    ⟨zero_lt_one, fun _ => zero_le_one⟩
  exact ((handle_ack_some_iff estimated).mp ⟨next, success⟩ _ (second_updates win baseRtt)).win

theorem hpcc_rates_bounded_two_acks :
    (∀ entry ∈ [(some (freshPair 100000 8000), firstAck),
        (some ((freshPair 100000 8000).storeHops firstAck), secondAck)],
      Defined entry.1 ∧ ∀ q, entry.1 = some q → Bounded aggregateRate q entry.2) ∧
      Defined
        (((freshPair 100000 8000).storeHops firstAck).handleAckHp aggregateRate secondAck) := by
  apply (hpcc_rates_bounded_iff aggregateRate 100000000000 100000 8000 (fun _ => ⟨0, 0⟩)
    (two_acks 100000 8000)).mp
  simp only [List.forall_mem_cons, List.not_mem_nil, false_implies, implies_true, and_true,
    Option.some.injEq, forall_eq']
  constructor
  · intro i here
    exact absurd rfl here.1
  · intro i here
    have hop : i = IntHeader.slot 0 := by
      have only : i.val < 1 := mem_hops.mp here.2.2.1
      exact Fin.ext (Nat.lt_one_iff.mp only)
    subst hop
    refine ⟨⟨?_, ?_, ?_, ?_, fun multiple => absurd multiple (by decide)⟩, ?_⟩
    · decide
    · show (100000 : UInt32) ≠ 0
      decide
    · show (8000 : UInt64) ≠ 0
      decide
    · show (19 / 20 : Rat) ≠ 0
      norm_num
    · show 100000000 ≤ 100000000000
      decide

/-- The flow of host 1 to host 0 divides by its window on its second acknowledgement. -/
theorem hpcc_divides_by_zero :
    ¬ ∀ (packetPayloadSize : UInt32) (links : LinkRates) (net : Network) (settings : WindowSettings)
      (src dst : Nat) (c : HpAttributes) (dataRate : Nat) (memory : Fin IntHeader.maxHop → IntHop)
      (entries : List (Option HpQueuePair × HpAck)) (finish : Option HpQueuePair),
      net.Connected → settings.hasWin = true → src ∈ net.hosts → dst ∈ net.hosts → src ≠ dst →
        c.minRate ≤ dataRate → 0 < c.targetUtil →
        Run (Traced (acked c))
          (some (create c dataRate
            (settings.win (.create (net.pairPaths packetPayloadSize links) net.hosts) src dst)
            (settings.baseRtt (.create (net.pairPaths packetPayloadSize links) net.hosts) src dst)
            memory)) entries finish →
        (∀ entry ∈ entries, Defined entry.1 ∧ ∀ q, entry.1 = some q → Bounded c q entry.2) ∧
          Defined finish := by
  intro claim
  have empty := (@create_cell (RoutedSwitch.twoPathNetwork.pairPaths 1000 fastLinks)
    RoutedSwitch.twoPathNetwork.hosts 1 0).1
  rw [if_neg fun all => absurd all.2.2 (by decide)] at empty
  have noWindow : perPairWindow.win (.create (RoutedSwitch.twoPathNetwork.pairPaths 1000 fastLinks)
      RoutedSwitch.twoPathNetwork.hosts) 1 0 = 0 := by
    unfold WindowSettings.win
    rw [if_pos (by decide), if_neg (by decide), empty]
    rfl
  have all := claim 1000 fastLinks RoutedSwitch.twoPathNetwork perPairWindow 1 0 aggregateRate
    100000000000 (fun _ => ⟨0, 0⟩) _ _ RoutedSwitch.connected_networks.1 rfl (by decide)
    (by decide) (by decide) (by decide) (by norm_num [aggregateRate]) (two_acks _ _)
  obtain ⟨next, success, -⟩ := (all.1 _ (List.mem_cons_of_mem _ List.mem_cons_self)).2 _ rfl
  exact second_needs_window success noWindow

end Examples

end Floodgate
