import Floodgate.Library.CursorArray
import Floodgate.Routes

/-! Symmetric routing: the switches record the ports at which a data packet comes in and the receiver
turns them into the route of the acknowledgement. -/

namespace Floodgate

def maxHop : Nat := 5

abbrev RecordRoutingTag := CursorArray Nat maxHop

abbrev SymmetricRoutingTag := CursorArray Nat maxHop

namespace SymmetricRouting

/-- `TagForSymmeticRouting`, with the outcome `none` where the assertion of the tag fails. -/
def tagForSymmeticRouting (r : RoutingConfig) (isUdp : Bool) (inDev : Nat)
    (tag : Option RecordRoutingTag) : Option (Option RecordRoutingTag) :=
  if r.drill.symmetricReceiver && isUdp then
    ((tag.getD (CursorArray.filled maxHop 0)).push inDev).map some
  else some tag

/-- `GetOutDev` for a packet with a tag, which is consulted once the table has an entry. -/
def getOutDev (r : RoutingConfig) (table : DrillSwitch) (choice : Choice) (dip : Nat)
    (tag : Option SymmetricRoutingTag) :
    Option (Option Nat × DrillSwitch × Option SymmetricRoutingTag) :=
  match tag, table.rtTable[dip]? with
  | some symmetricTag, some _ =>
      if r.drill.symmetricReceiver then do
        let leaf ← symmetricTag.next
        let looked ← r.getOutDev table { choice with leafIngress := some leaf.1 } dip
        some (looked.1, looked.2, some leaf.2)
      else do
        let looked ← r.getOutDev table { choice with leafIngress := none } dip
        some (looked.1, looked.2, tag)
  | _, _ => do
      let looked ← r.getOutDev table { choice with leafIngress := none } dip
      some (looked.1, looked.2, tag)

/-- A switch that a data packet passes, with the port at which it comes in. -/
structure Hop where
  switch : Nat
  inDev : Nat

/-- A switch when the acknowledgement passes: its table and what a look-up depends on beside it. -/
structure Visit where
  table : DrillSwitch
  choice : Choice

def recorded (r : RoutingConfig) (path : List Hop) : Option (Option RecordRoutingTag) :=
  path.foldlM (fun tag hop => tagForSymmeticRouting r true hop.inDev tag) none

def travel (r : RoutingConfig) (peer : Nat → Nat → Nat) (dip : Nat) :
    List Visit → Nat → Option SymmetricRoutingTag → Option (List Hop × Nat)
  | [], node, _ => some ([], node)
  | visit :: rest, node, tag => do
      let looked ← getOutDev r visit.table visit.choice dip tag
      match looked.1 with
      | none => some ([], node)
      | some port => do
          let travelled ← travel r peer dip rest (peer node port) looked.2.2
          some (⟨node, port⟩ :: travelled.1, travelled.2)

/-- The port of each switch of a path leads back to the node before it. -/
def LeadsBack (peer : Nat → Nat → Nat) : Nat → List Hop → Prop
  | _, [] => True
  | before, hop :: rest => peer hop.switch hop.inDev = before ∧ LeadsBack peer hop.switch rest

def lastNode (first : Nat) (path : List Hop) : Nat := (path.getLast?).elim first Hop.switch

section Tags

variable {r : RoutingConfig}

end Tags

section Return

variable {r : RoutingConfig} {peer : Nat → Nat → Nat} {dip : Nat}

def Leads (peer : Nat → Nat → Nat) : Nat → List Hop → Nat → Prop
  | node, [], final => node = final
  | node, hop :: rest, final => node = hop.switch ∧ Leads peer (peer hop.switch hop.inDev) rest final

theorem Leads.snoc {node middle final : Nat} {hops : List Hop} (leads : Leads peer node hops middle)
    {hop : Hop} (here : middle = hop.switch) (goes : peer hop.switch hop.inDev = final) :
    Leads peer node (hops ++ [hop]) final := by
  induction hops generalizing node with
  | nil => exact ⟨leads.trans here, goes⟩
  | cons first rest ih => exact ⟨leads.1, ih leads.2⟩

theorem LeadsBack.reverse {before : Nat} {path : List Hop} (back : LeadsBack peer before path) :
    Leads peer (lastNode before path) path.reverse before := by
  induction path generalizing before with
  | nil => rfl
  | cons hop rest ih =>
      have last : lastNode before (hop :: rest) = lastNode hop.switch rest := by
        unfold lastNode
        cases rest with
        | nil => rfl
        | cons second more => rw [List.getLast?_cons_cons, List.getLast?_eq_some_getLast (by simp)]; rfl
      rw [last, List.reverse_cons]
      exact (ih back.2).snoc rfl back.1

end Return

section OnRoutes

def behind (net : Network) (node port : Nat) : Nat :=
  ((net.nbr2if node).toList.find? fun edge => edge.2.idx = port).elim 0 Prod.fst

def Passes (net : Network) : Nat → List Nat → Prop
  | _, [] => True
  | before, node :: rest =>
      net.up before node = true ∧ net.isSwitch node = true ∧ Passes net node rest

def entered (net : Network) : Nat → List Nat → List Hop
  | _, [] => []
  | before, node :: rest => ⟨node, net.idx node before⟩ :: entered net node rest

variable {net : Network}

/-- Every switch of a path from a host has a way back to it. -/
theorem Passes.paths {host before n : Nat} {path : List Nat} (passes : Passes net before path)
    (start : SwitchPath net host n before) (between : n = 0 ∨ net.isSwitch before = true) :
    ∀ node ∈ path, ∃ more, SwitchPath net host (more + 1) node := by
  induction path generalizing before n with
  | nil => exact fun _ member => absurd member List.not_mem_nil
  | cons first rest ih =>
      obtain ⟨up, relays, passes⟩ := passes
      have path : SwitchPath net host (n + 1) first := .hop (Network.up_symm up) between start
      intro node member
      rcases List.mem_cons.mp member with rfl | later
      · exact ⟨n, path⟩
      · exact ih passes path (.inr relays) node later

theorem Passes.entry {s : RoutedNetwork} {host : Nat} (routes : ∀ node, ExactRoutes s node host)
    (sender : s.net.isSwitch host = false) {path : List Nat} (passes : Passes s.net host path)
    {node : Nat} (member : node ∈ path) (relays : s.net.isSwitch node = true) :
    ∃ nexthops, (s.rtTable node)[host]? = some nexthops ∧ nexthops ≠ [] := by
  obtain ⟨more, path⟩ := passes.paths .arrived (.inl rfl) node member
  obtain ⟨d, hops⟩ := path.hopsTo
  cases d with
  | zero =>
      rw [hops.arrived, sender] at relays
      contradiction
  | succ d =>
      obtain ⟨y, up, nearer, between⟩ := hops.next
      have next := ((routes node).nearer y).mpr ⟨up, d, hops, nearer, between⟩
      have entry := (routes node).table
      rw [if_neg (List.ne_nil_of_mem next)] at entry
      exact ⟨_, entry, List.ne_nil_of_mem (List.mem_map_of_mem next)⟩

theorem Passes.switches {before : Nat} {path : List Nat} (passes : Passes net before path) :
    ∀ node ∈ path, net.isSwitch node = true := by
  induction path generalizing before with
  | nil => exact fun _ member => absurd member List.not_mem_nil
  | cons first rest ih =>
      intro node member
      rcases List.mem_cons.mp member with rfl | later
      · exact passes.2.1
      · exact ih passes.2.2 node later

end OnRoutes

end SymmetricRouting

end Floodgate
