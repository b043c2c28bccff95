import Floodgate.Library.MeasuredSearch
import Floodgate.RdmaQueuePair
import Floodgate.Routes

/-! The window and the base round trip of a flow, from what the search measures of the path between
its hosts. -/

namespace Floodgate

open BreadthFirst

/-- `nbr2if[a][b].delay` and `nbr2if[a][b].bw`. The time on a link without a rate has no value. -/
structure LinkRates where
  delay : Nat → Nat → UInt64
  bw : Nat → Nat → UInt64
  bw_pos : ∀ a b, 0 < (bw a b).toNat

/-- What `CalculateRoute` measures of a path. -/
structure PathValue where
  delay : UInt64
  txDelay : UInt64
  bw : UInt64
  deriving DecidableEq

namespace PathValue

/-- The entries that a map gives for a pair it does not hold. -/
def missing : PathValue := ⟨0, 0, 0⟩

def ofHost : PathValue := ⟨0, 0, 0xffffffffffffffff⟩

def extend (packetPayloadSize : UInt32) (links : LinkRates) (now next : Nat) (v : PathValue) :
    PathValue where
  delay := v.delay + links.delay now next
  txDelay := v.txDelay + packetPayloadSize.toUInt64 * 1000000000 * 8 / links.bw now next
  bw := min v.bw (links.bw now next)

/-- `rtt` in whole nanoseconds. -/
def rtt (v : PathValue) : Nat := v.delay.toNat * 2 + v.txDelay.toNat

def bdp (v : PathValue) : Nat := v.rtt * v.bw.toNat / 1000000000 / 8

end PathValue

abbrev PairPaths := Nat → Nat → PathValue

namespace Network

variable (packetPayloadSize : UInt32) (links : LinkRates) (net : Network)

/-- The search of `CalculateRoute` with its three maps. -/
def measureRoute (host : Nat) : Measured Nat PathValue :=
  measure net.isSwitch net.neighbours (PathValue.extend packetPayloadSize links) net.nodeNum 0
    (measureStart host .ofHost .missing)

def recordPaths (paths : PairPaths) (host : Nat) : PairPaths := fun node other =>
  if other = host ∧ (net.measureRoute packetPayloadSize links host).search.distance node ≠ none then
    (net.measureRoute packetPayloadSize links host).value node
  else paths node other

def pairPaths : PairPaths :=
  net.hosts.foldl (net.recordPaths packetPayloadSize links) fun _ _ => .missing

end Network

structure PairTables where
  pairBdp : Nat → Nat → UInt64
  pairRtt : Nat → Nat → UInt64
  maxBdp : UInt64
  maxRtt : UInt64

namespace PairTables

def init : PairTables := ⟨fun _ _ => 0, fun _ _ => 0, 0, 0⟩

def measurePair (paths : PairPaths) (i : Nat) (t : PairTables) (j : Nat) : PairTables :=
  let rtt := (paths i j).delay * 2 + (paths i j).txDelay
  let bdp := rtt * (paths i j).bw / 1000000000 / 8
  { pairBdp := fun a b => if a = i ∧ b = j then bdp else t.pairBdp a b
    pairRtt := fun a b => if a = i ∧ b = j then rtt else t.pairRtt a b
    maxBdp := if bdp > t.maxBdp then bdp else t.maxBdp
    maxRtt := if rtt > t.maxRtt then rtt else t.maxRtt }

/-- The loops of `main` over the pairs of hosts. -/
def create (paths : PairPaths) (hosts : List Nat) : PairTables :=
  hosts.foldl (fun t i => (hosts.filter fun j => i < j).foldl (measurePair paths i) t) init

end PairTables

structure WindowSettings where
  hasWin : Bool
  globalT : Nat

namespace WindowSettings

variable (c : WindowSettings) (t : PairTables) (src dst : Nat)

def win : UInt32 :=
  (if c.hasWin then if c.globalT = 1 then t.maxBdp else t.pairBdp src dst else 0).toUInt32

def baseRtt : UInt64 := if c.globalT = 1 then t.maxRtt else t.pairRtt src dst

end WindowSettings

/-- A flow has the window and the base round trip of the path between its hosts. -/
structure GivenWindow (c : WindowSettings) (t : PairTables) (v : PathValue) (src dst : Nat) :
    Prop where
  win : (c.win t src dst).toNat = v.bdp
  baseRtt : (c.baseRtt t src dst).toNat = v.rtt
  winPos : 0 < (c.win t src dst).toNat
  baseRttPos : 0 < (c.baseRtt t src dst).toNat
  bound : ∀ varWin rate maxRate,
    (Pacing.mk (c.win t src dst).toNat varWin rate maxRate).getWin ≠ 0

/-- A round trip sends a byte at least, and its bits and nanoseconds are multiplied in 64 bits. -/
def WindowFits (v : PathValue) : Prop :=
  8000000000 ≤ v.rtt * v.bw.toNat ∧ v.rtt * v.bw.toNat < 2 ^ 64

section Tables

variable {paths : PairPaths}

theorem measurePairs_cell (i : Nat) (rest : List Nat) (t : PairTables) (a b : Nat) :
    (rest.foldl (PairTables.measurePair paths i) t).pairBdp a b =
        (if a = i ∧ b ∈ rest then
          ((paths a b).delay * 2 + (paths a b).txDelay) * (paths a b).bw / 1000000000 / 8
        else t.pairBdp a b) ∧
      (rest.foldl (PairTables.measurePair paths i) t).pairRtt a b =
        (if a = i ∧ b ∈ rest then (paths a b).delay * 2 + (paths a b).txDelay
        else t.pairRtt a b) := by
  induction rest generalizing t with
  | nil => simp
  | cons j others ih =>
      rw [List.foldl_cons]
      obtain ⟨bdp, rtt⟩ := ih (t.measurePair paths i j)
      rw [bdp, rtt]
      by_cases later : a = i ∧ b ∈ others
      · have listed : a = i ∧ b ∈ j :: others := ⟨later.1, List.mem_cons_of_mem _ later.2⟩
        simp only [if_pos later, if_pos listed, and_self]
      · simp only [if_neg later, PairTables.measurePair]
        by_cases here : a = i ∧ b = j
        · obtain ⟨rfl, rfl⟩ := here
          simp
        · have unlisted : ¬ (a = i ∧ b ∈ j :: others) := by
            rintro ⟨row, member⟩
            rcases List.mem_cons.mp member with same | inside
            · exact here ⟨row, same⟩
            · exact later ⟨row, inside⟩
          simp only [if_neg here, if_neg unlisted, and_self]

/-- The loops fill the tables for the pairs in ascending order, and no others. -/
theorem create_cell (hosts : List Nat) (a b : Nat) :
    (PairTables.create paths hosts).pairBdp a b =
        (if a ∈ hosts ∧ b ∈ hosts ∧ a < b then
          ((paths a b).delay * 2 + (paths a b).txDelay) * (paths a b).bw / 1000000000 / 8
        else 0) ∧
      (PairTables.create paths hosts).pairRtt a b =
        (if a ∈ hosts ∧ b ∈ hosts ∧ a < b then (paths a b).delay * 2 + (paths a b).txDelay
        else 0) := by
  have outer : ∀ (rows : List Nat) (t : PairTables),
      (rows.foldl (fun t i => (hosts.filter fun j => i < j).foldl
          (PairTables.measurePair paths i) t) t).pairBdp a b =
        (if a ∈ rows ∧ b ∈ hosts ∧ a < b then
          ((paths a b).delay * 2 + (paths a b).txDelay) * (paths a b).bw / 1000000000 / 8
        else t.pairBdp a b) ∧
      (rows.foldl (fun t i => (hosts.filter fun j => i < j).foldl
          (PairTables.measurePair paths i) t) t).pairRtt a b =
        (if a ∈ rows ∧ b ∈ hosts ∧ a < b then (paths a b).delay * 2 + (paths a b).txDelay
        else t.pairRtt a b) := by
    intro rows
    induction rows with
    | nil => simp
    | cons i others ih =>
        intro t
        rw [List.foldl_cons]
        obtain ⟨bdp, rtt⟩ := ih ((hosts.filter fun j => i < j).foldl
          (PairTables.measurePair paths i) t)
        obtain ⟨bdpRow, rttRow⟩ := measurePairs_cell i (hosts.filter fun j => i < j) t a b
        rw [bdp, rtt, bdpRow, rttRow]
        have row : (a = i ∧ b ∈ hosts.filter fun j => i < j) ↔ a = i ∧ b ∈ hosts ∧ a < b := by
          rw [List.mem_filter, decide_eq_true_iff]
          exact and_congr_right fun same => by rw [same]
        simp only [row, List.mem_cons]
        by_cases later : a ∈ others ∧ b ∈ hosts ∧ a < b
        · have listed : (a = i ∨ a ∈ others) ∧ b ∈ hosts ∧ a < b := ⟨.inr later.1, later.2⟩
          simp only [if_pos later, if_pos listed, and_self]
        · simp only [if_neg later]
          by_cases here : a = i ∧ b ∈ hosts ∧ a < b
          · have listed : (a = i ∨ a ∈ others) ∧ b ∈ hosts ∧ a < b := ⟨.inl here.1, here.2⟩
            simp only [if_pos here, if_pos listed, and_self]
          · have unlisted : ¬ ((a = i ∨ a ∈ others) ∧ b ∈ hosts ∧ a < b) := by
              rintro ⟨same | member, rest⟩
              · exact here ⟨same, rest⟩
              · exact later ⟨member, rest⟩
            simp only [if_neg here, if_neg unlisted, and_self]
  exact outer hosts .init

end Tables

section Paths

variable {packetPayloadSize : UInt32} {links : LinkRates} {net : Network}

/-- What the searches from all hosts leave for a host is what its own search has measured. -/
theorem pairPaths_eq {host : Nat} (known : host ∈ net.hosts) (node : Nat) :
    net.pairPaths packetPayloadSize links node host =
      if (net.measureRoute packetPayloadSize links host).search.distance node ≠ none then
        (net.measureRoute packetPayloadSize links host).value node
      else .missing := by
  have others : ∀ (rows : List Nat) (paths : PairPaths),
      rows.foldl (net.recordPaths packetPayloadSize links) paths node host =
        if host ∈ rows ∧
            (net.measureRoute packetPayloadSize links host).search.distance node ≠ none then
          (net.measureRoute packetPayloadSize links host).value node
        else paths node host := by
    intro rows
    induction rows with
    | nil => simp
    | cons i rest ih =>
        intro paths
        rw [List.foldl_cons, ih]
        simp only [List.mem_cons, Network.recordPaths]
        by_cases visited : (net.measureRoute packetPayloadSize links host).search.distance node ≠ none
        · by_cases later : host ∈ rest
          · simp [later, visited]
          · by_cases here : host = i
            · subst here
              simp [visited]
            · simp [later, here]
        · by_cases here : host = i
          · subst here
            simp [visited]
          · simp [visited, here]
  unfold Network.pairPaths
  rw [others]
  simp only [known, true_and]

/-- The path of a pair is a shortest one through switches, measured along its links. -/
theorem pairPaths_shortest {host node d : Nat} (known : host ∈ net.hosts)
    (shortest : Distance net.isSwitch net.neighbours host d node) :
    BreadthFirst.Carries net.isSwitch net.neighbours (PathValue.extend packetPayloadSize links)
      host .ofHost d node (net.pairPaths packetPayloadSize links node host) := by
  have inside : host ∈ Finset.range net.nodeNum :=
    Finset.mem_range.mpr (List.mem_range.mp (List.mem_filter.mp known).1)
  have closed : ∀ now next, next ∈ net.neighbours now → next ∈ Finset.range net.nodeNum := by
    intro now next edge
    obtain ⟨i, found, -⟩ := Network.up_iff.mp (Network.mem_neighbours.mp edge)
    exact Finset.mem_range.mpr (net.known now next i found)
  obtain ⟨distance, carried⟩ := @measured_shortest Nat PathValue _ net.isSwitch net.neighbours
    (PathValue.extend packetPayloadSize links) host .ofHost .missing (Finset.range net.nodeNum) closed
    neighbours_nodup inside node
  rw [Finset.card_range] at distance carried
  have visited : (net.measureRoute packetPayloadSize links host).search.distance node ≠ none := by
    have found := (distance d).mpr shortest
    unfold Network.measureRoute
    rw [found]
    exact Option.some_ne_none d
  rw [pairPaths_eq known, if_pos visited]
  exact carried d shortest

end Paths

section Windows

variable {c : WindowSettings} {paths : PairPaths} {hosts : List Nat} {src dst : Nat}

theorem toNat_rtt (v : PathValue) : (v.delay * 2 + v.txDelay).toNat = v.rtt % 2 ^ 64 := by
  rw [UInt64.toNat_add, UInt64.toNat_mul]
  unfold PathValue.rtt
  have two : (2 : UInt64).toNat = 2 := rfl
  rw [two]
  omega

theorem product_fits_iff (v : PathValue) (whole : v.rtt < 2 ^ 64) :
    (((v.delay * 2 + v.txDelay) * v.bw / 1000000000 / 8).toUInt32.toNat = v.bdp ∧ 0 < v.bdp) ↔
      WindowFits v := by
  have giga : (1000000000 : UInt64).toNat = 1000000000 := rfl
  have eight : (8 : UInt64).toNat = 8 := rfl
  have product : ((v.delay * 2 + v.txDelay) * v.bw / 1000000000 / 8).toUInt32.toNat =
      v.rtt * v.bw.toNat % 2 ^ 64 / 1000000000 / 8 % 2 ^ 32 := by
    rw [UInt64.toNat_toUInt32, UInt64.toNat_div, UInt64.toNat_div, UInt64.toNat_mul, toNat_rtt,
      Nat.mod_eq_of_lt whole, giga, eight]
  rw [product]
  unfold PathValue.bdp WindowFits
  simp only [Nat.div_div_eq_div_mul]
  generalize v.rtt * v.bw.toNat = bits
  by_cases fits : bits < 2 ^ 64
  · rw [Nat.mod_eq_of_lt fits]
    omega
  · -- What is cut off is worth many bytes.
    have cut : bits % 2 ^ 64 + 2305843009 * 8000000000 ≤ bits := by
      have parts := Nat.div_add_mod bits (2 ^ 64)
      have round : 1 ≤ bits / 2 ^ 64 :=
        Nat.div_pos (Nat.not_lt.mp fits) (Nat.two_pow_pos 64)
      have least : 2 ^ 64 * 1 ≤ 2 ^ 64 * (bits / 2 ^ 64) := Nat.mul_le_mul_left _ round
      omega
    have less := Nat.div_le_div_right (c := 8000000000) cut
    rw [Nat.add_mul_div_right _ _ (by decide : 0 < 8000000000)] at less
    have part := Nat.mod_le (bits % 2 ^ 64 / (1000000000 * 8)) (2 ^ 32)
    constructor
    · intro both
      have same := both.1
      omega
    · exact fun holds => absurd holds.2 fits

/-- A flow is given its window exactly when its hosts are in ascending order and the window fits. -/
theorem givenWindow_iff (hasWin : c.hasWin = true) (perPair : c.globalT ≠ 1) (srcKnown : src ∈ hosts)
    (dstKnown : dst ∈ hosts) :
    GivenWindow c (.create paths hosts) (paths src dst) src dst ↔
      src < dst ∧ WindowFits (paths src dst) := by
  obtain ⟨bdp, rtt⟩ := @create_cell paths hosts src dst
  have win : c.win (.create paths hosts) src dst =
      ((PairTables.create paths hosts).pairBdp src dst).toUInt32 := by
    unfold WindowSettings.win
    rw [if_pos hasWin, if_neg perPair]
  have baseRtt : c.baseRtt (.create paths hosts) src dst =
      (PairTables.create paths hosts).pairRtt src dst := if_neg perPair
  constructor
  · intro given
    have ascending : src < dst := by
      by_contra order
      have positive := given.baseRttPos
      rw [baseRtt, rtt, if_neg fun all => order all.2.2] at positive
      exact absurd positive (Nat.lt_irrefl 0)
    have both : src ∈ hosts ∧ dst ∈ hosts ∧ src < dst := ⟨srcKnown, dstKnown, ascending⟩
    rw [if_pos both] at bdp rtt
    have whole := given.baseRtt
    rw [baseRtt, rtt, toNat_rtt] at whole
    have fits : (paths src dst).rtt < 2 ^ 64 := by
      rw [← whole]
      exact Nat.mod_lt _ (Nat.two_pow_pos 64)
    have window := given.win
    have positive := given.winPos
    rw [window] at positive
    rw [win, bdp] at window
    exact ⟨ascending, (product_fits_iff _ fits).mp ⟨window, positive⟩⟩
  · intro holds
    obtain ⟨ascending, fits⟩ := holds
    have both : src ∈ hosts ∧ dst ∈ hosts ∧ src < dst := ⟨srcKnown, dstKnown, ascending⟩
    rw [if_pos both] at bdp rtt
    have rate : 0 < (paths src dst).bw.toNat := by
      by_contra none
      have zero : (paths src dst).bw.toNat = 0 := by omega
      have least := fits.1
      rw [zero] at least
      omega
    have trip : 0 < (paths src dst).rtt := by
      by_contra none
      have zero : (paths src dst).rtt = 0 := by omega
      have least := fits.1
      rw [zero] at least
      omega
    have whole : (paths src dst).rtt < 2 ^ 64 :=
      Nat.lt_of_le_of_lt (Nat.le_mul_of_pos_right _ rate) fits.2
    obtain ⟨window, positive⟩ := (product_fits_iff _ whole).mpr fits
    rw [← bdp, ← win] at window
    have round : (c.baseRtt (.create paths hosts) src dst).toNat = (paths src dst).rtt := by
      rw [baseRtt, rtt, toNat_rtt, Nat.mod_eq_of_lt whole]
    refine ⟨window, round, window ▸ positive, round ▸ trip, fun varWin rate maxRate => ?_⟩
    have some : (c.win (.create paths hosts) src dst).toNat ≠ 0 := by omega
    unfold Pacing.getWin
    simp only
    rw [if_neg some]
    split
    · omega
    · exact some

end Windows

/-- A flow is installed with the window and the base round trip of its ordered pair of hosts, and both
are positive, exactly when the pair is in ascending order and its window fits. -/
theorem flow_given_window_iff (packetPayloadSize : UInt32) (links : LinkRates) (net : Network)
    (c : WindowSettings) (src dst : Nat) (hasWin : c.hasWin = true) (perPair : c.globalT ≠ 1)
    (srcKnown : src ∈ net.hosts) (dstKnown : dst ∈ net.hosts) :
    GivenWindow c (.create (net.pairPaths packetPayloadSize links) net.hosts)
        (net.pairPaths packetPayloadSize links src dst) src dst ↔
      src < dst ∧ WindowFits (net.pairPaths packetPayloadSize links src dst) :=
  givenWindow_iff hasWin perPair srcKnown dstKnown

section Examples

def fastLinks : LinkRates where
  delay := fun _ _ => 1000
  bw := fun _ _ => 100000000000
  bw_pos := fun _ _ => by decide

def perPairWindow : WindowSettings := ⟨true, 0⟩

theorem flow_given_window_ascending :
    GivenWindow perPairWindow
      (.create (RoutedSwitch.twoPathNetwork.pairPaths 1000 fastLinks)
        RoutedSwitch.twoPathNetwork.hosts)
      (RoutedSwitch.twoPathNetwork.pairPaths 1000 fastLinks 0 1) 0 1 := by
  refine (flow_given_window_iff 1000 fastLinks RoutedSwitch.twoPathNetwork perPairWindow 0 1 rfl
    (by decide) (by decide) (by decide)).mpr ⟨Nat.zero_lt_one, ?_⟩
  unfold WindowFits
  decide +kernel

/-- The flow of host 1 to host 0 has no base round trip. -/
theorem descending_flow_without_window :
    ¬ ∀ (packetPayloadSize : UInt32) (links : LinkRates) (net : Network) (c : WindowSettings)
      (src dst : Nat), net.Connected → c.hasWin = true → c.globalT ≠ 1 → src ∈ net.hosts →
        dst ∈ net.hosts → src ≠ dst →
        GivenWindow c (.create (net.pairPaths packetPayloadSize links) net.hosts)
          (net.pairPaths packetPayloadSize links src dst) src dst := by
  intro claim
  have given := claim 1000 fastLinks RoutedSwitch.twoPathNetwork perPairWindow 1 0
    RoutedSwitch.connected_networks.1 rfl (by decide) (by decide) (by decide) (by decide)
  have positive := given.baseRttPos
  have empty := (@create_cell (RoutedSwitch.twoPathNetwork.pairPaths 1000 fastLinks)
    RoutedSwitch.twoPathNetwork.hosts 1 0).2
  rw [if_neg fun all => absurd all.2.2 (by decide)] at empty
  unfold WindowSettings.baseRtt at positive
  rw [if_neg (by decide), empty] at positive
  exact absurd positive (Nat.lt_irrefl 0)

end Examples

end Floodgate
