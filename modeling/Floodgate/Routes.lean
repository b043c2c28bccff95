import Floodgate.Library.ShortestPaths
import Floodgate.Rerouting

/-! The routing tables of all nodes, as the simulator sets them at the start and again each time a
link is taken down: they lead along shortest paths through switches. -/

namespace Floodgate

open Std

/-- The global `nextHop` map and the `m_rtTable` of every node. -/
structure RoutedNetwork where
  net : Network
  nextHop : Nat → Nat → List Nat
  rtTable : Nat → ExtTreeMap Nat (List Nat)

namespace RoutedNetwork

/-- `AddTableEntry`, of switches and hosts alike. -/
def addTableEntry (table : ExtTreeMap Nat (List Nat)) (dip intf : Nat) :
    ExtTreeMap Nat (List Nat) :=
  table.insert dip ((table[dip]?).getD [] ++ [intf])

/-- `CalculateRoutes`, which adds to what is there. -/
def calculateRoutes (s : RoutedNetwork) : RoutedNetwork :=
  { s with
    nextHop := s.net.hosts.foldl (fun nextHop host node dst =>
      if dst = host then nextHop node dst ++ s.net.calculateRoute host node
      else nextHop node dst) s.nextHop }

/-- `SetRoutingEntries`, which adds to what is there. -/
def setRoutingEntries (s : RoutedNetwork) : RoutedNetwork :=
  { s with
    rtTable := fun node => s.net.hosts.foldl (fun table dst =>
      (s.nextHop node dst).foldl (fun table next =>
        addTableEntry table dst (s.net.idx node next)) table) (s.rtTable node) }

def unrouted (net : Network) : RoutedNetwork := ⟨net, fun _ _ => [], fun _ => ∅⟩

def create (net : Network) : RoutedNetwork := (unrouted net).calculateRoutes.setRoutingEntries

/-- `TakeDownLink`, up to the devices of the link and the queue pairs of the hosts. -/
def takeDownLink (s : RoutedNetwork) (link : Nat × Nat) : RoutedNetwork :=
  if s.net.up link.1 link.2 then
    let routed := { s with
      net := s.net.markDown link.1 link.2
      nextHop := fun _ _ => [] }.calculateRoutes
    { routed with rtTable := fun _ => ∅ }.setRoutingEntries
  else s

end RoutedNetwork

/-- A path of so many links that are up from a node to the host, with only switches in between. -/
inductive SwitchPath (net : Network) (host : Nat) : Nat → Nat → Prop
  | arrived : SwitchPath net host 0 host
  | hop {n x y : Nat} (up : net.up x y = true) (between : n = 0 ∨ net.isSwitch y = true)
      (path : SwitchPath net host n y) : SwitchPath net host (n + 1) x

structure HopsTo (net : Network) (host d x : Nat) : Prop where
  path : SwitchPath net host d x
  shortest : ∀ n, SwitchPath net host n x → d ≤ n

/-- What following the next hops for `n` hops leads to. -/
inductive Follows (s : RoutedNetwork) (host : Nat) : Nat → Nat → Nat → Prop
  | stay {x : Nat} : Follows s host 0 x x
  | hop {n x y z : Nat} (next : y ∈ s.nextHop x host) (rest : Follows s host n y z) :
      Follows s host (n + 1) x z

/-- Routing from a node to a host is along all shortest paths and no others. -/
structure ExactRoutes (s : RoutedNetwork) (node host : Nat) : Prop where
  once : (s.nextHop node host).Nodup
  nearer : ∀ y, y ∈ s.nextHop node host ↔ s.net.up node y = true ∧
    ∃ d, HopsTo s.net host (d + 1) node ∧ HopsTo s.net host d y ∧ (d = 0 ∨ s.net.isSwitch y = true)
  table : (s.rtTable node)[host]? =
    if s.nextHop node host = [] then none else some ((s.nextHop node host).map (s.net.idx node))
  arrives : s.nextHop node host ≠ [] → ∃ d, HopsTo s.net host d node ∧
    ∀ n z, Follows s host n node z →
      n ≤ d ∧ (n = d → z = host) ∧ (n < d → s.nextHop z host ≠ [])
  live : ∀ y, s.net.up node y = false → y ∉ s.nextHop node host ∧
    ∀ i : Interface, (s.net.nbr2if node)[y]? = some i →
      ∀ ports, (s.rtTable node)[host]? = some ports → i.idx ∉ ports

section Search

variable {net : Network} {host : Nat}

theorem switchPath_iff {n x : Nat} : SwitchPath net host n x ↔
    BreadthFirst.Reaches net.isSwitch net.neighbours host n x := by
  constructor
  · intro path
    induction path with
    | arrived => exact .source
    | hop up between _ ih => exact .edge ih between (Network.mem_neighbours.mpr (Network.up_symm up))
  · intro reached
    induction reached with
    | source => exact .arrived
    | edge _ relays member ih =>
        exact .hop (Network.up_symm (Network.mem_neighbours.mp member)) relays ih

theorem hopsTo_iff {d x : Nat} : HopsTo net host d x ↔
    BreadthFirst.Distance net.isSwitch net.neighbours host d x := by
  constructor
  · intro hops
    exact ⟨switchPath_iff.mp hops.path, fun n reached => hops.shortest n (switchPath_iff.mpr reached)⟩
  · intro distance
    exact ⟨switchPath_iff.mpr distance.reached,
      fun n path => distance.shortest n (switchPath_iff.mp path)⟩

theorem neighbours_nodup (now : Nat) : (net.neighbours now).Nodup := by
  have keys : ((net.nbr2if now).toList.map Prod.fst).Nodup := by
    rw [ExtTreeMap.map_fst_toList_eq_keys]
    exact MapSum.nodup_keys _
  have inside : ∀ edges : List (Nat × Interface),
      (edges.filterMap fun edge => if edge.2.up then some edge.1 else none).Sublist
        (edges.map Prod.fst) := by
    intro edges
    induction edges with
    | nil => exact .slnil
    | cons edge rest ih =>
        cases working : edge.2.up with
        | false =>
            rw [List.filterMap_cons_none (by simp [working])]
            exact ih.cons edge.1
        | true =>
            have kept : (if edge.2.up then some edge.1 else none) = some edge.1 := if_pos working
            rw [List.filterMap_cons_some (by exact kept)]
            exact ih.cons_cons edge.1
  exact keys.sublist (inside _)

theorem calculateRoute_exact (known : host < net.nodeNum) (x : Nat) :
    (net.calculateRoute host x).Nodup ∧ ∀ y, y ∈ net.calculateRoute host x ↔
      net.up x y = true ∧ ∃ d, HopsTo net host (d + 1) x ∧ HopsTo net host d y ∧
        (d = 0 ∨ net.isSwitch y = true) := by
  have inside : ∀ now next, next ∈ net.neighbours now → next ∈ Finset.range net.nodeNum := by
    intro now next edge
    obtain ⟨i, found, -⟩ := Network.up_iff.mp (Network.mem_neighbours.mp edge)
    exact Finset.mem_range.mpr (net.known now next i found)
  obtain ⟨all, layers⟩ := @BreadthFirst.search_layers Nat net.isSwitch net.neighbours host _
    (Finset.range net.nodeNum) inside neighbours_nodup (Finset.mem_range.mpr known)
  rw [Finset.card_range] at layers
  refine ⟨layers.once x, fun y => ?_⟩
  unfold Network.calculateRoute
  rw [layers.previous_iff]
  simp only [hopsTo_iff, Network.mem_neighbours]
  constructor
  · rintro ⟨d, further, nearer, relays, up⟩
    exact ⟨Network.up_symm up, d, further, nearer, relays⟩
  · rintro ⟨up, d, further, nearer, relays⟩
    exact ⟨d, further, nearer, relays, Network.up_symm up⟩

theorem HopsTo.next {d x : Nat} (hops : HopsTo net host (d + 1) x) :
    ∃ y, net.up x y = true ∧ HopsTo net host d y ∧ (d = 0 ∨ net.isSwitch y = true) := by
  cases hops.path with
  | @hop _ _ y up between path =>
      refine ⟨y, up, ⟨path, fun n other => ?_⟩, between⟩
      by_cases zero : n = 0
      · subst zero
        cases other
        have direct := hops.shortest 1 (.hop up (.inl rfl) .arrived)
        omega
      · rcases between with last | relays
        · omega
        · have further := hops.shortest (n + 1) (.hop up (.inr relays) other)
          omega

theorem SwitchPath.hopsTo {n x : Nat} (path : SwitchPath net host n x) :
    ∃ d, HopsTo net host d x := by
  classical
  have some : ∃ n, SwitchPath net host n x := ⟨n, path⟩
  exact ⟨Nat.find some, Nat.find_spec some, fun m other => Nat.find_min' some other⟩

theorem HopsTo.unique {d d' x : Nat} (first : HopsTo net host d x) (second : HopsTo net host d' x) :
    d = d' :=
  Nat.le_antisymm (first.shortest d' second.path) (second.shortest d first.path)

theorem HopsTo.arrived {x : Nat} (hops : HopsTo net host 0 x) : x = host := by
  cases hops.path
  rfl

end Search

section Tables

variable {s : RoutedNetwork} {node host : Nat}

open RoutedNetwork

/-- What one more host adds to `nextHop`. -/
theorem calculateRoutes_nextHop (distinct : s.net.hosts.Nodup) :
    s.calculateRoutes.nextHop node host =
      s.nextHop node host ++ if host ∈ s.net.hosts then s.net.calculateRoute host node else [] := by
  unfold calculateRoutes
  simp only
  generalize s.nextHop = nextHop
  revert distinct
  generalize s.net.hosts = hosts
  intro distinct
  induction hosts generalizing nextHop with
  | nil => simp
  | cons first rest ih =>
      obtain ⟨absent, distinct⟩ := List.nodup_cons.mp distinct
      rw [List.foldl_cons, ih _ distinct]
      by_cases here : host = first
      · simp [here, absent]
      · simp [here]

theorem lookup_addTableEntry (table : ExtTreeMap Nat (List Nat)) (dip intf other : Nat) :
    (addTableEntry table dip intf)[other]? =
      if other = dip then some ((table[dip]?).getD [] ++ [intf]) else table[other]? := by
  unfold addTableEntry
  rw [MapSum.lookup_insert]

theorem addEntries_lookup (dst : Nat) (port : Nat → Nat) (nexts : List Nat)
    (table : ExtTreeMap Nat (List Nat)) (other : Nat) :
    (nexts.foldl (fun table next => addTableEntry table dst (port next)) table)[other]? =
      if other = dst ∧ nexts ≠ [] then some ((table[dst]?).getD [] ++ nexts.map port)
      else table[other]? := by
  induction nexts generalizing table with
  | nil => simp
  | cons next rest ih =>
      rw [List.foldl_cons, ih, lookup_addTableEntry, lookup_addTableEntry]
      by_cases here : other = dst
      · by_cases last : rest = []
        · simp [here, last]
        · simp [here, last]
      · simp [here]

theorem setRoutingEntries_lookup (distinct : s.net.hosts.Nodup) (known : host ∈ s.net.hosts)
    (clear : s.rtTable node = ∅) :
    (s.setRoutingEntries.rtTable node)[host]? =
      if s.nextHop node host = [] then none else some ((s.nextHop node host).map (s.net.idx node)) := by
  have general : ∀ (hosts : List Nat) (table : ExtTreeMap Nat (List Nat)), hosts.Nodup →
      (hosts.foldl (fun table dst => (s.nextHop node dst).foldl (fun table next =>
        addTableEntry table dst (s.net.idx node next)) table) table)[host]? =
        if host ∈ hosts ∧ s.nextHop node host ≠ [] then
          some ((table[host]?).getD [] ++ (s.nextHop node host).map (s.net.idx node))
        else table[host]? := by
    intro hosts
    induction hosts with
    | nil => simp
    | cons first rest ih =>
        intro table distinct
        obtain ⟨absent, distinct⟩ := List.nodup_cons.mp distinct
        rw [List.foldl_cons, ih _ distinct, addEntries_lookup]
        by_cases here : host = first
        · subst here
          simp [absent]
        · simp [here]
  unfold setRoutingEntries
  simp only
  rw [general _ _ distinct, clear]
  by_cases none : s.nextHop node host = []
  · simp [none]
  · simp [none, known]

end Tables

section Runs

variable {s : RoutedNetwork} {node host : Nat}

open RoutedNetwork

structure Current (s : RoutedNetwork) : Prop where
  nextHop : ∀ node, ∀ host ∈ s.net.hosts, s.nextHop node host = s.net.calculateRoute host node
  table : ∀ node, ∀ host ∈ s.net.hosts, (s.rtTable node)[host]? =
    if s.nextHop node host = [] then none else some ((s.nextHop node host).map (s.net.idx node))

theorem hosts_nodup (net : Network) : net.hosts.Nodup :=
  List.Nodup.filter _ List.nodup_range

theorem current_recalculated (net : Network) :
    Current ({ (RoutedNetwork.mk net (fun _ _ => []) fun _ => ∅).calculateRoutes with
      rtTable := fun _ => ∅ }.setRoutingEntries) := by
  constructor
  · intro node host known
    have listed : host ∈ net.hosts := known
    refine (calculateRoutes_nextHop (hosts_nodup net)).trans ?_
    simp only [listed, if_true, List.nil_append]
    rfl
  · intro node host known
    exact setRoutingEntries_lookup (hosts_nodup net) known rfl

theorem Current.takeDownLink (current : Current s) (link : Nat × Nat) :
    Current (s.takeDownLink link) := by
  unfold RoutedNetwork.takeDownLink
  split
  · exact current_recalculated _
  · exact current

theorem Current.exact (current : Current s) (known : host ∈ s.net.hosts) (node : Nat) :
    ExactRoutes s node host := by
  have inside : host < s.net.nodeNum := List.mem_range.mp (List.mem_filter.mp known).1
  have nearer : ∀ x y, y ∈ s.nextHop x host ↔ s.net.up x y = true ∧
      ∃ d, HopsTo s.net host (d + 1) x ∧ HopsTo s.net host d y ∧
        (d = 0 ∨ s.net.isSwitch y = true) := by
    intro x y
    rw [current.nextHop x host known]
    exact (calculateRoute_exact inside x).2 y
  have goes : ∀ d x, HopsTo s.net host (d + 1) x → s.nextHop x host ≠ [] := by
    intro d x hops
    obtain ⟨y, up, less, relays⟩ := hops.next
    exact List.ne_nil_of_mem ((nearer x y).mpr ⟨up, d, hops, less, relays⟩)
  have follows : ∀ n x z, Follows s host n x z → ∀ d, HopsTo s.net host d x →
      n ≤ d ∧ HopsTo s.net host (d - n) z := by
    intro n x z walk
    induction walk with
    | stay => exact fun d hops => ⟨Nat.zero_le d, hops⟩
    | hop next _ ih =>
        intro d hops
        obtain ⟨_, less, further, near, _⟩ := (nearer _ _).mp next
        obtain rfl := further.unique hops
        obtain ⟨within, left⟩ := ih less near
        refine ⟨by omega, ?_⟩
        rw [Nat.succ_sub_succ]
        exact left
  refine ⟨?_, nearer node, current.table node host known, fun some => ?_, fun y down => ⟨?_, ?_⟩⟩
  · rw [current.nextHop node host known]
    exact (calculateRoute_exact inside node).1
  · obtain ⟨y, member⟩ := List.exists_mem_of_ne_nil _ some
    obtain ⟨_, d, hops, -⟩ := (nearer node y).mp member
    refine ⟨d + 1, hops, fun n z walk => ?_⟩
    obtain ⟨within, left⟩ := follows n node z walk (d + 1) hops
    refine ⟨within, fun all => ?_, fun fewer => ?_⟩
    · rw [all, Nat.sub_self] at left
      exact left.arrived
    · obtain ⟨rest, more⟩ : ∃ rest, d + 1 - n = rest + 1 := ⟨d - n, by omega⟩
      rw [more] at left
      exact goes rest z left
  · intro member
    have up := ((nearer node y).mp member).1
    rw [down] at up
    contradiction
  · intro i link ports found member
    rw [current.table node host known] at found
    split at found
    · contradiction
    · rw [← Option.some.inj found] at member
      obtain ⟨z, hop, same⟩ := List.mem_map.mp member
      have up := ((nearer node z).mp hop).1
      obtain ⟨j, other, working⟩ := Network.up_iff.mp up
      have port : s.net.idx node z = j.idx := by
        unfold Network.idx
        rw [other]
        rfl
      have one := s.net.distinct node y z i j link other (by rw [← same, port])
      subst one
      rw [down] at up
      contradiction

theorem Current.run (current : Current s) (links : List (Nat × Nat)) :
    Current (links.foldl RoutedNetwork.takeDownLink s) := by
  induction links generalizing s with
  | nil => exact current
  | cons link rest ih => exact ih (current.takeDownLink link)

theorem takeDownLink_net (s : RoutedNetwork) (link : Nat × Nat) :
    (s.takeDownLink link).net = s.net ∨
      (s.takeDownLink link).net = s.net.markDown link.1 link.2 := by
  unfold RoutedNetwork.takeDownLink
  split
  · exact .inr rfl
  · exact .inl rfl

theorem takeDownLink_hosts (s : RoutedNetwork) (link : Nat × Nat) :
    (s.takeDownLink link).net.hosts = s.net.hosts := by
  rcases takeDownLink_net s link with same | marked
  · rw [same]
  · rw [marked]
    rfl

theorem takeDownLink_up (s : RoutedNetwork) (link : Nat × Nat) {a b : Nat}
    (down : s.net.up a b = false) : (s.takeDownLink link).net.up a b = false := by
  rcases takeDownLink_net s link with same | marked
  · rw [same]
    exact down
  · rw [marked]
    cases up : (s.net.markDown link.1 link.2).up a b with
    | false => rfl
    | true =>
        rw [(Network.markDown_up up).1] at down
        contradiction

theorem takeDownLink_down (s : RoutedNetwork) (link : Nat × Nat) :
    (s.takeDownLink link).net.up link.1 link.2 = false := by
  unfold RoutedNetwork.takeDownLink
  by_cases working : s.net.up link.1 link.2 = true
  · rw [if_pos working]
    change (s.net.markDown link.1 link.2).up link.1 link.2 = false
    cases up : (s.net.markDown link.1 link.2).up link.1 link.2 with
    | false => rfl
    | true => exact absurd (.inl ⟨rfl, rfl⟩) (Network.markDown_up up).2.2
  · rw [if_neg working]
    exact Bool.eq_false_iff.mpr working

theorem run_hosts (links : List (Nat × Nat)) (s : RoutedNetwork) :
    (links.foldl takeDownLink s).net.hosts = s.net.hosts := by
  induction links generalizing s with
  | nil => rfl
  | cons link rest ih => rw [List.foldl_cons, ih, takeDownLink_hosts]

theorem run_down (links : List (Nat × Nat)) (s : RoutedNetwork) (link : Nat × Nat)
    (taken : link ∈ links) : (links.foldl takeDownLink s).net.up link.1 link.2 = false := by
  have stays : ∀ (rest : List (Nat × Nat)) (s : RoutedNetwork), s.net.up link.1 link.2 = false →
      (rest.foldl takeDownLink s).net.up link.1 link.2 = false := by
    intro rest
    induction rest with
    | nil => exact fun _ down => down
    | cons other rest ih => exact fun s down => ih _ (takeDownLink_up s other down)
  induction links generalizing s with
  | nil => exact absurd taken List.not_mem_nil
  | cons first rest ih =>
      rcases List.mem_cons.mp taken with rfl | later
      · exact stays rest _ (takeDownLink_down s link)
      · exact ih _ later

/-- The routes to a host are exact at the start and after any links have been taken down, which are
down from then on. -/
theorem routes_exact (net : Network) (links : List (Nat × Nat)) (node host : Nat)
    (known : host ∈ net.hosts) :
    ExactRoutes (links.foldl takeDownLink (create net)) node host ∧
      ∀ link ∈ links, (links.foldl takeDownLink (create net)).net.up link.1 link.2 = false := by
  have current : Current (create net) := current_recalculated net
  refine ⟨(current.run links).exact ?_ node, fun link taken => run_down links _ link taken⟩
  rw [run_hosts]
  exact known

/-- Both links of switch 3 towards host 1 are taken down, one after the other. -/
theorem routes_exact_two_paths :
    ExactRoutes ([(3, 4), (5, 3)].foldl takeDownLink (create RoutedSwitch.twoPathNetwork)) 3 1 ∧
      ∀ link ∈ [(3, 4), (5, 3)],
        ([(3, 4), (5, 3)].foldl takeDownLink (create RoutedSwitch.twoPathNetwork)).net.up link.1 link.2
          = false :=
  routes_exact RoutedSwitch.twoPathNetwork [(3, 4), (5, 3)] 3 1 (by decide)

/-- The routes of a single switch are those of the whole network. -/
theorem create_rtTable (net : Network) (me : Nat) :
    (net.setRoutingEntries me DrillSwitch.init).rtTable = (create net).rtTable me := by
  have entries : ∀ (dst : Nat) (nexts : List Nat) (table : DrillSwitch),
      (nexts.foldl (fun table next => table.addTableEntry dst (net.idx me next)) table).rtTable =
        nexts.foldl (fun table next => addTableEntry table dst (net.idx me next)) table.rtTable := by
    intro dst nexts
    induction nexts with
    | nil => exact fun _ => rfl
    | cons next rest ih => exact fun table => ih _
  have general : ∀ (hosts : List Nat) (table : DrillSwitch), (∀ host ∈ hosts, host ∈ net.hosts) →
      (hosts.foldl (fun table host => (net.calculateRoute host me).foldl (fun table next =>
        table.addTableEntry host (net.idx me next)) table) table).rtTable =
      hosts.foldl (fun table dst => ((unrouted net).calculateRoutes.nextHop me dst).foldl
        (fun table next => addTableEntry table dst (net.idx me next)) table) table.rtTable := by
    intro hosts
    induction hosts with
    | nil => exact fun _ _ => rfl
    | cons host rest ih =>
        intro table inside
        have hops : (unrouted net).calculateRoutes.nextHop me host = net.calculateRoute host me :=
          (current_recalculated net).nextHop me host (inside host (by simp))
        rw [List.foldl_cons, List.foldl_cons, ih _ fun other member => inside other (by simp [member]),
          entries, hops]
  exact general net.hosts DrillSwitch.init fun _ member => member

end Runs

end Floodgate
