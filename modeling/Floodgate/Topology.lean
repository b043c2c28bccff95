import Floodgate.DrillRouting
import Floodgate.Library.BreadthFirst

/-! The graph of the simulated network, the routes that the simulator computes on it and the routing
table that a switch gets from them. -/

namespace Floodgate

open Std

structure Interface where
  idx : Nat
  up : Bool

def Interface.down (i : Interface) : Interface := { i with up := false }

/-- `nbr2if[a][b]` of two nodes, `none` for the default that a missing entry gives. -/
structure Network where
  nodeNum : Nat
  isSwitch : Nat → Bool
  nbr2if : Nat → ExtTreeMap Nat Interface
  known : ∀ (a b : Nat) (i : Interface), (nbr2if a)[b]? = some i → b < nodeNum
  symmetric : ∀ (a b : Nat) (i : Interface), (nbr2if a)[b]? = some i →
    ∃ j : Interface, (nbr2if b)[a]? = some j ∧ j.up = i.up
  distinct : ∀ (a b other : Nat) (i j : Interface), (nbr2if a)[b]? = some i →
    (nbr2if a)[other]? = some j → i.idx = j.idx → b = other

def DrillSwitch.NextHop (table : DrillSwitch) (dip port : Nat) : Prop :=
  ∃ nexthops, table.rtTable[dip]? = some nexthops ∧ port ∈ nexthops

namespace Network

def up (net : Network) (a b : Nat) : Bool := ((net.nbr2if a)[b]?).elim false fun i => i.up

def idx (net : Network) (a b : Nat) : Nat := ((net.nbr2if a)[b]?).elim 0 fun i => i.idx

/-- The neighbours that the search visits from a node: it skips links that are down. -/
def neighbours (net : Network) (now : Nat) : List Nat :=
  (net.nbr2if now).toList.filterMap fun edge => if edge.2.up then some edge.1 else none

/-- `CalculateRoute`: the next hops of each node on shortest paths to `host`. Only switches are
enqueued. -/
def calculateRoute (net : Network) (host : Nat) : Nat → List Nat :=
  (BreadthFirst.search net.isSwitch net.neighbours net.nodeNum 0 (BreadthFirst.start host)).previous

def hosts (net : Network) : List Nat := (List.range net.nodeNum).filter fun i => !net.isSwitch i

def setRoutingEntries (net : Network) (me : Nat) (table : DrillSwitch) : DrillSwitch :=
  net.hosts.foldl (fun table host =>
    (net.calculateRoute host me).foldl (fun table next => table.addTableEntry host (net.idx me next))
      table) table

/-- Every node has a route to every host. -/
def Connected (net : Network) : Prop :=
  ∀ host ∈ net.hosts, ∀ node < net.nodeNum, node ≠ host → net.calculateRoute host node ≠ []

section Facts

variable {net : Network} {a b : Nat}

theorem up_iff : net.up a b = true ↔ ∃ i : Interface, (net.nbr2if a)[b]? = some i ∧ i.up = true := by
  unfold up
  cases (net.nbr2if a)[b]? with
  | none => simp
  | some i => simp

theorem up_symm (working : net.up a b = true) : net.up b a = true := by
  obtain ⟨i, found, working⟩ := up_iff.mp working
  obtain ⟨j, back, same⟩ := net.symmetric a b i found
  exact up_iff.mpr ⟨j, back, same.trans working⟩

theorem mem_neighbours : b ∈ net.neighbours a ↔ net.up a b = true := by
  rw [up_iff]
  unfold neighbours
  rw [List.mem_filterMap]
  constructor
  · rintro ⟨⟨key, i⟩, member, found⟩
    split at found
    · rename_i working
      obtain rfl := Option.some.inj found
      exact ⟨i, ExtTreeMap.mem_toList_iff_getElem?_eq_some.mp member, working⟩
    · contradiction
  · rintro ⟨i, found, working⟩
    exact ⟨(b, i), ExtTreeMap.mem_toList_iff_getElem?_eq_some.mpr found, by rw [if_pos working]⟩

theorem calculateRoute_enough {host : Nat} (known : host < net.nodeNum) (more : Nat) :
    (BreadthFirst.search net.isSwitch net.neighbours (net.nodeNum + more) 0
      (BreadthFirst.start host)).previous = net.calculateRoute host := by
  have inside : ∀ now next, next ∈ net.neighbours now → next ∈ Finset.range net.nodeNum := by
    intro now next edge
    obtain ⟨i, found, -⟩ := up_iff.mp (mem_neighbours.mp edge)
    exact Finset.mem_range.mpr (net.known now next i found)
  have enough := @BreadthFirst.search_enough Nat _ net.isSwitch _ (Finset.range net.nodeNum) inside
    host (Finset.mem_range.mpr known) more
  rw [Finset.card_range] at enough
  unfold calculateRoute
  rw [enough]

theorem nextHop_up {host next : Nat} (member : next ∈ net.calculateRoute host a) :
    net.up a next = true :=
  up_symm (mem_neighbours.mp (BreadthFirst.previous_edge _ _ host member))

def PortsUp (net : Network) (me : Nat) (table : DrillSwitch) : Prop :=
  ∀ dip port, table.NextHop dip port → ∃ next, net.up me next = true ∧ net.idx me next = port

theorem addTableEntry_portsUp {me dip next : Nat} {table : DrillSwitch} (ports : net.PortsUp me table)
    (working : net.up me next = true) :
    net.PortsUp me (table.addTableEntry dip (net.idx me next)) := by
  rintro other port ⟨nexthops, found, member⟩
  simp only [DrillSwitch.addTableEntry, MapSum.lookup_insert] at found
  split at found
  · rename_i here
    obtain rfl := Option.some.inj found
    rcases List.mem_append.mp member with earlier | last
    · cases entry : table.rtTable[dip]? with
      | none => simp [entry] at earlier
      | some hops =>
          rw [entry, Option.getD_some] at earlier
          exact ports dip port ⟨hops, entry, earlier⟩
    · rw [List.mem_singleton.mp last]
      exact ⟨next, working, rfl⟩
  · exact ports other port ⟨nexthops, found, member⟩

theorem setRoutingEntries_portsUp {me : Nat} {table : DrillSwitch} (ports : net.PortsUp me table) :
    net.PortsUp me (net.setRoutingEntries me table) := by
  unfold setRoutingEntries
  generalize net.hosts = hosts
  induction hosts generalizing table with
  | nil => exact ports
  | cons host rest ih =>
      rw [List.foldl_cons]
      apply ih
      have inner : ∀ (hops : List Nat) (table : DrillSwitch), (∀ next ∈ hops, net.up me next = true) →
          net.PortsUp me table → net.PortsUp me
            (hops.foldl (fun table next => table.addTableEntry host (net.idx me next)) table) := by
        intro hops
        induction hops with
        | nil => exact fun _ _ ports => ports
        | cons next later ih =>
            intro table working ports
            rw [List.foldl_cons]
            exact ih _ (fun other member => working other (List.mem_cons_of_mem _ member))
              (addTableEntry_portsUp ports (working next (by simp)))
      exact inner _ table (fun next member => nextHop_up member) ports

theorem cleared_portsUp (me : Nat) (table : DrillSwitch) : net.PortsUp me table.clearTable :=
  fun _ _ ⟨_, found, _⟩ => by simp [DrillSwitch.clearTable] at found

end Facts

section MarkDown

variable (net : Network) (a b : Nat)

def markedDown (node : Nat) : ExtTreeMap Nat Interface :=
  if node = a ∨ node = b then
    (net.nbr2if node).map fun next i =>
      if (node = a ∧ next = b) ∨ (node = b ∧ next = a) then i.down else i
  else net.nbr2if node

variable {net a b}

theorem lookup_markedDown (node next : Nat) :
    (net.markedDown a b node)[next]? = ((net.nbr2if node)[next]?).map fun i =>
      if (node = a ∧ next = b) ∨ (node = b ∧ next = a) then i.down else i := by
  unfold markedDown
  split
  · rw [ExtTreeMap.getElem?_map]
  · rename_i elsewhere
    have apart : ¬ ((node = a ∧ next = b) ∨ (node = b ∧ next = a)) := by
      rintro (⟨here, -⟩ | ⟨here, -⟩)
      · exact elsewhere (.inl here)
      · exact elsewhere (.inr here)
    simp [apart]

theorem markedDown_found {node next : Nat} {i : Interface}
    (found : (net.markedDown a b node)[next]? = some i) :
    ∃ j : Interface, (net.nbr2if node)[next]? = some j ∧ i.idx = j.idx ∧
      i.up = (j.up && !decide ((node = a ∧ next = b) ∨ (node = b ∧ next = a))) := by
  rw [lookup_markedDown] at found
  obtain ⟨j, before, rfl⟩ := Option.map_eq_some_iff.mp found
  refine ⟨j, before, ?_⟩
  by_cases here : (node = a ∧ next = b) ∨ (node = b ∧ next = a)
  · simp [here, Interface.down]
  · simp [here]

end MarkDown

def markDown (net : Network) (a b : Nat) : Network where
  nodeNum := net.nodeNum
  isSwitch := net.isSwitch
  nbr2if := net.markedDown a b
  known := by
    intro node next i found
    obtain ⟨j, before, -⟩ := markedDown_found found
    exact net.known node next j before
  symmetric := by
    intro node next i found
    obtain ⟨j, before, -, upBefore⟩ := markedDown_found found
    obtain ⟨k, back, same⟩ := net.symmetric node next j before
    have there : (net.markedDown a b next)[node]? =
        some (if (next = a ∧ node = b) ∨ (next = b ∧ node = a) then k.down else k) := by
      rw [lookup_markedDown, back]
      rfl
    refine ⟨_, there, ?_⟩
    obtain ⟨l, again, -, upAfter⟩ := markedDown_found there
    rw [back] at again
    obtain rfl := Option.some.inj again
    rw [upAfter, upBefore, same]
    congr 2
    simp only [decide_eq_decide]
    constructor
    · rintro (⟨rfl, rfl⟩ | ⟨rfl, rfl⟩)
      · exact .inr ⟨rfl, rfl⟩
      · exact .inl ⟨rfl, rfl⟩
    · rintro (⟨rfl, rfl⟩ | ⟨rfl, rfl⟩)
      · exact .inr ⟨rfl, rfl⟩
      · exact .inl ⟨rfl, rfl⟩
  distinct := by
    intro node next other i j found present same
    obtain ⟨i', before, idx, -⟩ := markedDown_found found
    obtain ⟨j', beforeOther, idxOther, -⟩ := markedDown_found present
    exact net.distinct node next other i' j' before beforeOther
      (idx.symm.trans (same.trans idxOther))

theorem markDown_up {net : Network} {a b node next : Nat}
    (working : (net.markDown a b).up node next = true) :
    net.up node next = true ∧ (net.markDown a b).idx node next = net.idx node next ∧
      ¬ ((node = a ∧ next = b) ∨ (node = b ∧ next = a)) := by
  obtain ⟨i, found, working⟩ := up_iff.mp working
  obtain ⟨j, before, idx, upBefore⟩ := markedDown_found found
  rw [working] at upBefore
  have both := Bool.and_eq_true_iff.mp upBefore.symm
  refine ⟨up_iff.mpr ⟨j, before, both.1⟩, ?_, ?_⟩
  · have after : ((net.markDown a b).nbr2if node)[next]? = some i := found
    simp only [Network.idx, after, before, Option.elim_some]
    exact idx
  · exact of_decide_eq_false ((Bool.not_eq_true' _).mp both.2)

theorem idx_inj {net : Network} {a b other : Nat} (first : net.up a b = true)
    (second : net.up a other = true) (same : net.idx a b = net.idx a other) : b = other := by
  obtain ⟨i, found, -⟩ := up_iff.mp first
  obtain ⟨j, present, -⟩ := up_iff.mp second
  simp only [idx, found, present, Option.elim_some] at same
  exact net.distinct a b other i j found present same

end Network

end Floodgate
