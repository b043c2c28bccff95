import Floodgate.Admission
import Floodgate.Library.FloydWarshall
import Floodgate.Library.Word32
import Mathlib.Algebra.Order.Group.Nat
import Mathlib.Data.List.Induction

/-! The matrices that the simulator reads from the links of the topology file, the shortest paths
that it computes on them, and the search for the first link of a path. -/

namespace Floodgate

/-- A line of the topology file: the link's rate is in Gbps, its delay in ns. -/
structure LinkLine where
  src : Nat
  dst : Nat
  rate : Nat
  delay : Nat
  src_lt : src < dst
  rate_pos : 1 ≤ rate
  rate_le : rate ≤ 8000

structure LinkFile where
  nodeNum : Nat
  lines : List LinkLine
  known : ∀ line ∈ lines, line.dst < nodeNum

/-- What the matrices hold where there is nothing. -/
def noLink : Nat := 0x3fffffff

structure LinkMatrices where
  pd : Nat → Nat → Nat
  td : Nat → Nat → Nat
  bws : Nat → Nat → Nat
  nextBDPHop : Nat → Nat → Nat

namespace LinkMatrices

def blank (i j : Nat) : Nat := if i = j then 0 else noLink

def init : LinkMatrices := ⟨blank, blank, blank, blank⟩

def readLink (m : LinkMatrices) (line : LinkLine) : LinkMatrices where
  nextBDPHop := setCell (setCell m.nextBDPHop line.src line.dst line.dst) line.dst line.src line.src
  bws := setCell (setCell m.bws line.dst line.src line.rate) line.src line.dst line.rate
  pd := setCell (setCell m.pd line.dst line.src line.delay) line.src line.dst line.delay
  td := setCell (setCell m.td line.dst line.src (1000 * 8 / line.rate)) line.src line.dst
    (1000 * 8 / line.rate)

def floydStep (k i : Nat) (tables : (Nat → Nat → Nat) × (Nat → Nat → Nat)) (j : Nat) :
    (Nat → Nat → Nat) × (Nat → Nat → Nat) :=
  if Word32.add (tables.1 i k) (tables.1 k j) < tables.1 i j then
    (setCell tables.1 i j (Word32.add (tables.1 i k) (tables.1 k j)), setCell tables.2 i j k)
  else tables

def floyd (n : Nat) (G nextHop : Nat → Nat → Nat) : (Nat → Nat → Nat) × (Nat → Nat → Nat) :=
  (List.range n).foldl (fun tables k =>
    (List.range n).foldl (fun tables i =>
      (List.range n).foldl (fun tables j => floydStep k i tables j) tables) tables) (G, nextHop)

end LinkMatrices

namespace LinkFile

variable (f : LinkFile)

def read : LinkMatrices := f.lines.foldl LinkMatrices.readLink LinkMatrices.init

def prepared : LinkMatrices :=
  let first := LinkMatrices.floyd f.nodeNum f.read.pd f.read.nextBDPHop
  let second := LinkMatrices.floyd f.nodeNum f.read.td first.2
  { f.read with pd := first.1, td := second.1, nextBDPHop := second.2 }

/-- The link between two nodes: the last of its lines counts. -/
def link (a b : Nat) : Option LinkLine :=
  f.lines.reverse.find? fun line =>
    decide (line.src = a ∧ line.dst = b ∨ line.dst = a ∧ line.src = b)

def Linked (a b : Nat) : Prop := (f.link a b).isSome = true

def rate (a b : Nat) : Option Nat := (f.link a b).map LinkLine.rate

def Links : Nat → List Nat → Nat → Prop
  | i, [], j => f.Linked i j
  | i, k :: rest, j => f.Linked i k ∧ Links k rest j

def IsPath (i : Nat) (way : List Nat) (j : Nat) : Prop :=
  f.Links i way j ∧ (i :: (way ++ [j])).Nodup

def Connected : Prop :=
  ∀ i < f.nodeNum, ∀ j < f.nodeNum, i ≠ j → ∃ way, f.IsPath i way j

/-- The delays of every path, of propagation and of transmission, add up to less than the mark for
no link. -/
def SumsFit : Prop :=
  ∀ i way j, f.IsPath i way j →
    FloydWarshall.cost f.read.pd i way j < noLink ∧ FloydWarshall.cost f.read.td i way j < noLink

end LinkFile

namespace LinkMatrices

variable (n : Nat) (m : LinkMatrices)

def entry (row : Nat → Nat) (column : Nat) : Option Nat :=
  if column < n then some (row column) else none

/-- The loop `while (0x3fffffff == link)` with a bound on its rounds. -/
def searchLink (i : Nat) : Nat → Nat × Nat → Option (Nat × Nat)
  | rounds, (link, hopBefore) =>
      if noLink = link then
        match rounds with
        | 0 => none
        | rounds + 1 => do
            let hop ← entry n (m.nextBDPHop i) hopBefore
            let link ← entry n (m.bws i) hop
            searchLink i rounds (link, hop)
      else some (link, hopBefore)

def firstLink (i j rounds : Nat) : Option (Nat × Nat) := do
  let hopBefore ← entry n (m.nextBDPHop i) j
  let link ← entry n (m.bws i) hopBefore
  m.searchLink n i rounds (link, hopBefore)

section Floyd

open FloydWarshall

def Passes (tables : (Nat → Nat → Nat) × (Nat → Nat → Nat)) (t : Tables Nat Nat) : Prop :=
  tables = (t.dist, t.next) ∧ ∀ i j, t.dist i j ≤ noLink

theorem floydStep_passes {tables : (Nat → Nat → Nat) × (Nat → Nat → Nat)} {t : Tables Nat Nat}
    (passes : Passes tables t) (k i j : Nat) :
    Passes (floydStep k i tables j) (relax t k i j) := by
  obtain ⟨rfl, small⟩ := passes
  have sum : Word32.add (t.dist i k) (t.dist k j) = t.dist i k + t.dist k j := by
    apply Word32.add_eq
    have first := small i k
    have second := small k j
    unfold noLink at first second
    unfold Word32.size
    omega
  refine ⟨?_, fun a b => (relax_le a b).trans (small a b)⟩
  unfold floydStep relax
  simp only [sum]
  split <;> rfl

/-- `Floyd` is a pass over all nodes. -/
theorem floyd_eq (n : Nat) {G : Nat → Nat → Nat} (small : ∀ i j, G i j ≤ noLink)
    (nextHop : Nat → Nat → Nat) :
    floyd n G nextHop = ((FloydWarshall.pass ⟨G, nextHop⟩ (List.range n)).dist,
      (FloydWarshall.pass ⟨G, nextHop⟩ (List.range n)).next) := by
  have loops : Passes (floyd n G nextHop) (FloydWarshall.pass ⟨G, nextHop⟩ (List.range n)) := by
    unfold floyd FloydWarshall.pass FloydWarshall.run FloydWarshall.round
    simp only [List.foldl_flatMap, List.foldl_map]
    refine List.foldl_rel (r := Passes) ⟨rfl, small⟩ fun k _ tables t passes => ?_
    refine List.foldl_rel (r := Passes) passes fun i _ tables t passes => ?_
    refine List.foldl_rel (r := Passes) passes fun j _ tables t passes => ?_
    exact floydStep_passes passes k i j
  exact loops.1

end Floyd

section Cells

theorem read_cell {select : LinkMatrices → Nat → Nat → Nat} {value : LinkLine → Nat → Nat → Nat}
    (step : ∀ m line a b, select (m.readLink line) a b =
      if line.src = a ∧ line.dst = b ∨ line.dst = a ∧ line.src = b then value line a b
      else select m a b) (lines : List LinkLine) (a b : Nat) :
    select (lines.foldl readLink init) a b =
      ((lines.reverse.find? fun line => decide (line.src = a ∧ line.dst = b ∨
        line.dst = a ∧ line.src = b)).map fun line => value line a b).getD (select init a b) := by
  induction lines using List.reverseRecOn with
  | nil => rfl
  | append_singleton rest line ih =>
      rw [List.foldl_append, List.reverse_append]
      simp only [List.foldl_cons, List.foldl_nil, List.reverse_cons, List.reverse_nil,
        List.nil_append, List.singleton_append, List.find?_cons, step]
      split
      · rename_i here
        rw [decide_eq_true here]
        rfl
      · rename_i elsewhere
        rw [decide_eq_false elsewhere]
        exact ih

end Cells

end LinkMatrices

namespace LinkFile

open LinkMatrices FloydWarshall

section Reading

variable {f : LinkFile} {a b : Nat}

theorem read_pd : f.read.pd a b = ((f.link a b).map LinkLine.delay).getD (blank a b) := by
  refine @read_cell LinkMatrices.pd (fun line _ _ => line.delay) (fun m line a b => ?_) f.lines a b
  simp only [readLink, setCell]
  grind

theorem read_td :
    f.read.td a b = ((f.link a b).map fun line => 1000 * 8 / line.rate).getD (blank a b) := by
  refine @read_cell LinkMatrices.td (fun line _ _ => 1000 * 8 / line.rate) (fun m line a b => ?_)
    f.lines a b
  simp only [readLink, setCell]
  grind

theorem read_bws : f.read.bws a b = (f.rate a b).getD (blank a b) := by
  refine @read_cell LinkMatrices.bws (fun line _ _ => line.rate) (fun m line a b => ?_) f.lines a b
  simp only [readLink, setCell]
  grind

theorem read_nextBDPHop :
    f.read.nextBDPHop a b = if (f.link a b).isSome then b else blank a b := by
  have cell := @read_cell LinkMatrices.nextBDPHop (fun _ _ b => b) (fun m line a b => by
    simp only [readLink, setCell]
    grind) f.lines a b
  refine cell.trans ?_
  unfold link
  cases f.lines.reverse.find? fun line =>
    decide (line.src = a ∧ line.dst = b ∨ line.dst = a ∧ line.src = b) <;> rfl

theorem Linked.ends (linked : f.Linked a b) : a < f.nodeNum ∧ b < f.nodeNum ∧ a ≠ b := by
  obtain ⟨line, found⟩ := Option.isSome_iff_exists.mp linked
  unfold link at found
  have here := List.find?_some found
  have joins := of_decide_eq_true here
  have known := f.known line (List.mem_reverse.mp (List.mem_of_find?_eq_some found))
  have order := line.src_lt
  omega

theorem Links.known {way : List Nat} (links : f.Links a way b) :
    (∀ node ∈ way, node < f.nodeNum) ∧ b < f.nodeNum := by
  induction way generalizing a with
  | nil => exact ⟨fun node member => absurd member List.not_mem_nil, links.ends.2.1⟩
  | cons k rest ih =>
      obtain ⟨inside, target⟩ := ih links.2
      refine ⟨fun node member => ?_, target⟩
      rcases List.mem_cons.mp member with rfl | later
      · exact links.1.ends.2.1
      · exact inside node later

theorem linked_entries (linked : f.Linked a b) :
    ∃ rate, f.rate a b = some rate ∧ f.read.bws a b = rate ∧ rate < noLink ∧
      0 < f.read.td a b ∧ f.read.td a b < noLink ∧ f.read.nextBDPHop a b = b := by
  obtain ⟨line, found⟩ := Option.isSome_iff_exists.mp linked
  have rate : f.rate a b = some line.rate := by rw [LinkFile.rate, found, Option.map_some]
  have least := line.rate_pos
  have most := line.rate_le
  have sent : 0 < 1000 * 8 / line.rate := Nat.div_pos (by omega) least
  have quick : 1000 * 8 / line.rate ≤ 1000 * 8 := Nat.div_le_self _ _
  refine ⟨line.rate, rate, ?_, ?_, ?_, ?_, ?_⟩
  · rw [read_bws, rate, Option.getD_some]
  · unfold noLink
    omega
  · rwa [read_td, found, Option.map_some, Option.getD_some]
  · rw [read_td, found, Option.map_some, Option.getD_some]
    unfold noLink
    omega
  · rw [read_nextBDPHop, found]
    rfl

theorem unlinked_entries (unlinked : ¬ f.Linked a b) (different : a ≠ b) :
    f.read.bws a b = noLink ∧ f.read.td a b = noLink := by
  have none : f.link a b = none := Option.not_isSome_iff_eq_none.mp unlinked
  rw [read_bws, read_td, rate, none]
  simp [blank, different]

theorem td_apart (next : Nat → Nat → Nat) : Apart (⟨f.read.td, next⟩ : Tables Nat Nat) := by
  intro a b different
  by_cases linked : f.Linked a b
  · obtain ⟨_, -, -, -, positive, -⟩ := linked_entries linked
    exact positive
  · have none : f.read.td a b = noLink := (unlinked_entries linked different).2
    show 0 < f.read.td a b
    rw [none]
    decide

end Reading

section Search

variable {f : LinkFile}

theorem delays_small (sums : f.SumsFit) (i j : Nat) :
    f.read.pd i j ≤ noLink ∧ f.read.td i j ≤ noLink := by
  by_cases linked : f.Linked i j
  · have path : f.IsPath i [] j := ⟨linked, by simpa using linked.ends.2.2⟩
    obtain ⟨first, second⟩ := sums i [] j path
    exact ⟨first.le, second.le⟩
  · have none : f.link i j = none := Option.not_isSome_iff_eq_none.mp linked
    rw [read_pd, read_td, none]
    simp only [Option.map_none, Option.getD_none, blank]
    split <;> simp [noLink]

/-- The next hops of the node `i`: other nodes, and nearer ones where there is no link. -/
structure Hops (f : LinkFile) (i : Nat) (distance : Nat → Nat) : Prop where
  known : ∀ j < f.nodeNum, i ≠ j → f.prepared.nextBDPHop i j < f.nodeNum
  other : ∀ j < f.nodeNum, i ≠ j → i ≠ f.prepared.nextBDPHop i j
  closer : ∀ j < f.nodeNum, i ≠ j → ¬ f.Linked i j →
    distance (f.prepared.nextBDPHop i j) < distance j

/-- The run on the matrix of transmission delays overwrites every entry without a link, and these
delays are positive. -/
theorem prepared_hops (connected : f.Connected) (sums : f.SumsFit) {i : Nat}
    (source : i < f.nodeNum) : ∃ distance, Hops f i distance := by
  let first : Tables Nat Nat :=
    FloydWarshall.pass ⟨f.read.pd, f.read.nextBDPHop⟩ (List.range f.nodeNum)
  let second : Tables Nat Nat := FloydWarshall.pass ⟨f.read.td, first.next⟩ (List.range f.nodeNum)
  have table : f.prepared.nextBDPHop = second.next := by
    have run := floyd_eq f.nodeNum (fun a b => (delays_small sums a b).2) first.next
    have earlier := floyd_eq f.nodeNum (fun a b => (delays_small sums a b).1) f.read.nextBDPHop
    simp only [prepared, earlier]
    exact congrArg Prod.snd run
  have apart : Apart second := pass_apart (td_apart first.next) _
  have shortened : ∀ j < f.nodeNum, i ≠ j → ¬ f.Linked i j →
      second.dist i j < f.read.td i j := by
    intro j target different unlinked
    obtain ⟨way, path⟩ := connected i source j target different
    rw [(unlinked_entries unlinked different).2]
    calc
      second.dist i j ≤ cost f.read.td i way j :=
        pass_le_cost _ _ (List.mem_range.mpr source) (List.mem_range.mpr target)
          fun node member => List.mem_range.mpr (path.1.known.1 node member)
      _ < noLink := (sums i way j path).2
  have linked_hop : ∀ j, f.Linked i j → first.next i j < f.nodeNum ∧ i ≠ first.next i j := by
    intro j linked
    rcases pass_goes (List.range f.nodeNum) ⟨f.read.pd, f.read.nextBDPHop⟩ i j with
      ⟨-, same⟩ | ⟨known, notSource, -⟩
    · have direct : first.next i j = j := by
        obtain ⟨_, -, -, -, -, -, hop⟩ := linked_entries linked
        exact same.trans hop
      rw [direct]
      exact ⟨linked.ends.2.1, linked.ends.2.2⟩
    · exact ⟨List.mem_range.mp known, notSource.symm⟩
  have goes := pass_goes (List.range f.nodeNum) ⟨f.read.td, first.next⟩ i
  have hop : ∀ j < f.nodeNum, i ≠ j → second.next i j < f.nodeNum ∧ i ≠ second.next i j := by
    intro j target different
    rcases goes j with ⟨unchanged, same⟩ | ⟨known, notSource, -⟩
    · have linked : f.Linked i j := by
        by_contra unlinked
        exact (shortened j target different unlinked).ne unchanged
      have kept : second.next i j = first.next i j := same
      rw [kept]
      exact linked_hop j linked
    · exact ⟨List.mem_range.mp known, notSource.symm⟩
  refine ⟨second.dist i, ?_, ?_, ?_⟩
  · intro j target different
    rw [table]
    exact (hop j target different).1
  · intro j target different
    rw [table]
    exact (hop j target different).2
  · intro j target different unlinked
    rw [table]
    exact ((goes j).closer apart (shortened j target different unlinked)).2.2

theorem searchLink_neighbour {i hop : Nat} (linked : f.Linked i hop) :
    ∃ link, f.rate i hop = some link ∧ ∀ rounds,
      f.prepared.searchLink f.nodeNum i rounds (f.read.bws i hop, hop) = some (link, hop) := by
  obtain ⟨link, rate, bw, small, -⟩ := linked_entries linked
  refine ⟨link, rate, fun rounds => ?_⟩
  rw [bw]
  unfold searchLink
  exact if_neg small.ne'

theorem searchLink_hop {i hop : Nat} {distance : Nat → Nat} (hops : Hops f i distance)
    (known : hop < f.nodeNum) (other : i ≠ hop) (unlinked : ¬ f.Linked i hop) (rounds : Nat) :
    f.prepared.searchLink f.nodeNum i (rounds + 1) (f.read.bws i hop, hop) =
      f.prepared.searchLink f.nodeNum i rounds
        (f.read.bws i (f.prepared.nextBDPHop i hop), f.prepared.nextBDPHop i hop) := by
  have first : entry f.nodeNum (f.prepared.nextBDPHop i) hop =
      some (f.prepared.nextBDPHop i hop) := if_pos known
  have rates : entry f.nodeNum (f.prepared.bws i) (f.prepared.nextBDPHop i hop) =
      some (f.read.bws i (f.prepared.nextBDPHop i hop)) := if_pos (hops.known hop known other)
  rw [(unlinked_entries unlinked other).1, searchLink, if_pos rfl]
  simp only [first, rates, Option.bind_eq_bind, Option.bind_some]

/-- The search goes to nearer nodes until it comes to a neighbour. -/
theorem search_ends {i : Nat} {distance : Nat → Nat} (hops : Hops f i distance) (n : Nat)
    {hop : Nat} (near : distance hop ≤ n) (known : hop < f.nodeNum) (other : i ≠ hop) :
    ∃ link last rounds, f.rate i last = some link ∧ ∀ more,
      f.prepared.searchLink f.nodeNum i (rounds + more) (f.read.bws i hop, hop) =
        some (link, last) := by
  induction n generalizing hop with
  | zero =>
      have linked : f.Linked i hop := by
        by_contra unlinked
        have nearer := hops.closer hop known other unlinked
        omega
      obtain ⟨link, rate, ends⟩ := searchLink_neighbour linked
      exact ⟨link, hop, 0, rate, fun more => ends _⟩
  | succ n ih =>
      by_cases linked : f.Linked i hop
      · obtain ⟨link, rate, ends⟩ := searchLink_neighbour linked
        exact ⟨link, hop, 0, rate, fun more => ends _⟩
      · have nearer := hops.closer hop known other linked
        obtain ⟨link, last, rounds, rate, ends⟩ := ih (by omega) (hops.known hop known other)
          (hops.other hop known other)
        refine ⟨link, last, rounds + 1, rate, fun more => ?_⟩
        rw [Nat.add_right_comm, searchLink_hop hops known other linked]
        exact ends more

/-- In a connected topology the search finds a neighbour and the rate of the link to it. -/
theorem first_link_found (f : LinkFile) (connected : f.Connected) (sums : f.SumsFit) {i j : Nat}
    (source : i < f.nodeNum) (target : j < f.nodeNum) (different : i ≠ j) :
    ∃ link hopBefore rounds, f.rate i hopBefore = some link ∧ ∀ bound, rounds ≤ bound →
      f.prepared.firstLink f.nodeNum i j bound = some (link, hopBefore) := by
  obtain ⟨distance, hops⟩ := prepared_hops connected sums source
  have known := hops.known j target different
  obtain ⟨link, last, rounds, rate, ends⟩ := search_ends hops _ le_rfl known
    (hops.other j target different)
  refine ⟨link, last, rounds, rate, fun bound enough => ?_⟩
  have first : entry f.nodeNum (f.prepared.nextBDPHop i) j = some (f.prepared.nextBDPHop i j) :=
    if_pos target
  have rates : entry f.nodeNum (f.prepared.bws i) (f.prepared.nextBDPHop i j) =
      some (f.read.bws i (f.prepared.nextBDPHop i j)) := if_pos known
  unfold firstLink
  simp only [first, rates, Option.bind_eq_bind, Option.bind_some]
  have here := ends (bound - rounds)
  rwa [Nat.add_sub_cancel' enough] at here

end Search

/-- A host below a ToR below another switch. -/
def chainFile : LinkFile where
  nodeNum := 3
  lines := [⟨1, 2, 400, 5000, by decide, by decide, by decide⟩,
    ⟨0, 1, 100, 1000, by decide, by decide, by decide⟩]
  known := by decide

instance (f : LinkFile) (a b : Nat) : Decidable (f.Linked a b) :=
  inferInstanceAs (Decidable (_ = _))

theorem chainFile_connected : chainFile.Connected := by
  intro i source j target different
  have ways : ∀ i < 3, ∀ j < 3, i ≠ j →
      (chainFile.Linked i j ∨ chainFile.Linked i 1 ∧ chainFile.Linked 1 j ∧ [i, 1, j].Nodup) := by
    decide
  rcases ways i source j target different with direct | ⟨first, second, apart⟩
  · exact ⟨[], direct, by simpa using different⟩
  · exact ⟨[1], ⟨first, second⟩, apart⟩

/-- A path of the chain has at most one node between its ends. -/
theorem chainFile_sums : chainFile.SumsFit := by
  intro i way j path
  obtain ⟨links, once⟩ := path
  have single : ∀ a b, chainFile.Linked a b →
      chainFile.read.pd a b ≤ 5000 ∧ chainFile.read.td a b ≤ 5000 := by
    intro a b linked
    obtain ⟨source, target, -⟩ := linked.ends
    have all : ∀ a < 3, ∀ b < 3, chainFile.Linked a b →
        chainFile.read.pd a b ≤ 5000 ∧ chainFile.read.td a b ≤ 5000 := by decide
    exact all a source b target linked
  cases way with
  | nil =>
      obtain ⟨pd, td⟩ := single i j links
      exact ⟨lt_of_le_of_lt pd (by decide), lt_of_le_of_lt td (by decide)⟩
  | cons k rest =>
      obtain ⟨first, others⟩ := links
      cases rest with
      | nil =>
          obtain ⟨pd, td⟩ := single i k first
          obtain ⟨pd', td'⟩ := single k j others
          exact ⟨lt_of_le_of_lt (add_le_add pd pd') (by decide),
            lt_of_le_of_lt (add_le_add td td') (by decide)⟩
      | cons l more =>
          have sizes : i < 3 ∧ k < 3 ∧ l < 3 :=
            ⟨first.ends.1, first.ends.2.1, others.1.ends.2.1⟩
          have target : j < 3 := others.2.known.2
          simp only [List.cons_append, List.nodup_cons, List.mem_cons, List.mem_append,
            not_or] at once
          omega

theorem first_link_found_chain : ∃ link hopBefore rounds,
    chainFile.rate 2 hopBefore = some link ∧ ∀ bound, rounds ≤ bound →
      chainFile.prepared.firstLink 3 2 0 bound = some (link, hopBefore) :=
  first_link_found chainFile chainFile_connected chainFile_sums (by decide) (by decide) (by decide)

end LinkFile

end Floodgate
