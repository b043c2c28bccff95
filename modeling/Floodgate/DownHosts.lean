import Floodgate.Library.OrderedEdges
import Floodgate.Upstream
import Mathlib.Data.Finset.Sort

/-! The hosts that the simulator takes to be below a switch while it reads the links of the topology
file, and the destinations that the switch ignores or keeps apart because of them. -/

namespace Floodgate

open Std

structure TreeLink where
  src : Nat
  dst : Nat
  src_lt : src < dst
  deriving DecidableEq

/-- The switches have the highest ids, and links lead up into switches. -/
structure TreeFile where
  nodeNum : Nat
  switchIds : List Nat
  torNum : Nat
  coreNum : Nat
  links : List TreeLink
  switch_ids : ∀ id, id ∈ switchIds ↔ nodeNum - switchIds.length ≤ id ∧ id < nodeNum
  links_up : ∀ link ∈ links, link.dst ∈ switchIds

namespace TreeFile

def hostNum (f : TreeFile) : Nat := f.nodeNum - f.switchIds.length

/-- `GetNodeType() == 0`. -/
def isServer (f : TreeFile) (id : Nat) : Bool := !f.switchIds.contains id

def isCore (f : TreeFile) (id : Nat) : Bool :=
  decide (Word32.sub (Word32.add f.hostNum f.switchIds.length) f.coreNum ≤ id)

def isToR (f : TreeFile) (id : Nat) : Bool :=
  !f.isCore id && decide (id < Word32.add f.hostNum f.torNum)

def addDownHost (downHosts : Nat → Finset Nat) (dst host : Nat) : Nat → Finset Nat := fun id =>
  if id = dst then insert host (downHosts id) else downHosts id

/-- `switch_down_hosts` after one more link. The loop runs over a copy of the lower switch's set. -/
def readLink (f : TreeFile) (downHosts : Nat → Finset Nat) (link : TreeLink) : Nat → Finset Nat :=
  if f.isServer link.src then addDownHost downHosts link.dst link.src
  else (downHosts link.src).sort.foldl (fun sets host => addDownHost sets link.dst host) downHosts

def switchDownHosts (f : TreeFile) : Nat → Finset Nat :=
  f.links.foldl f.readLink fun _ => ∅

def reorder (f : TreeFile) (links : List TreeLink) (perm : links.Perm f.links) : TreeFile :=
  { f with
    links := links
    links_up := fun link member => f.links_up link (perm.mem_iff.mp member) }

def edges (f : TreeFile) : List (Nat × Nat) := f.links.map fun link => (link.src, link.dst)

def Below (f : TreeFile) (id host : Nat) : Prop :=
  host < f.hostNum ∧
    Relation.TransGen (fun upper lower => ∃ link ∈ f.links, link.dst = upper ∧ link.src = lower)
      id host

/-- The way up to a switch from each host below it is listed in the file from the host upward. -/
def ListedUpward (f : TreeFile) : Prop :=
  ∀ id ∈ f.switchIds, ∀ host, f.Below id host → OrderedEdges.Ordered f.edges host id

end TreeFile

/-- `m_dst2group` and the groups of VOQs while the switch is configured. -/
structure VOQRules where
  dst2group : Nat → DstRule
  groups : ExtTreeMap Nat VOQGroupConfig
  group_known : ∀ dst id, dst2group dst = .group id → id ∈ groups

/-- `(uint32_t)-1` marks the destinations that are ignored. -/
def DstRule.ofId (groupId : Nat) : DstRule :=
  if groupId = Word32.size - 1 then .ignored else .group groupId

namespace VOQRules

def init : VOQRules where
  dst2group := fun _ => .unset
  groups := ∅
  group_known := fun _ _ rule => DstRule.noConfusion rule

/-- A group that exists already takes over the new limit and the new kind of hashing. -/
def configVOQGroup (m : VOQRules) (groupId : Nat) (config : VOQGroupConfig) : VOQRules :=
  { m with
    groups := m.groups.insert groupId config
    group_known := fun dst id rule => ExtTreeMap.mem_insert.mpr (.inr (m.group_known dst id rule)) }

def configDst (m : VOQRules) (dst groupId : Nat) : Except Assertion VOQRules :=
  if known : groupId = Word32.size - 1 ∨ groupId ∈ m.groups then
    .ok { m with
      dst2group := fun id => if id = dst then .ofId groupId else m.dst2group id
      group_known := fun id group rule => by
        by_cases here : id = dst
        · simp only [here, if_true, DstRule.ofId] at rule
          split at rule
          · exact DstRule.noConfusion rule
          · rename_i other
            obtain rfl := DstRule.group.inj rule
            exact known.resolve_left other
        · exact m.group_known id group (by simpa only [here, if_false] using rule) }
  else .error .groupKnown

@[simp] theorem config_voq_group_rule (m : VOQRules) (groupId : Nat) (config : VOQGroupConfig) :
    (m.configVOQGroup groupId config).dst2group = m.dst2group := rfl

def upstream (m : VOQRules) (settings : Settings) (bdpMap : Nat → Option Nat)
    (bdpMap_lt : ∀ dst win, bdpMap dst = some win → win < Word32.size) : UpstreamConfig :=
  { m with
    settings := settings
    bdpMap := bdpMap
    bdpMap_lt := bdpMap_lt }

end VOQRules

structure SwitchRules where
  groups : List VOQGroupConfig
  rules : List (Nat × Nat)
  rules_some : rules ≠ []

structure FloodgateFile where
  useWinSwitches : List Nat
  defaultGroup : VOQGroupConfig
  switchRules : Nat → Option SwitchRules
  resetOnlyToRSwitchWin : Bool
  resetIsolateDownHost : Nat

namespace FloodgateFile

open VOQRules

variable (c : FloodgateFile) (f : TreeFile)

def defaultConfig : Except Assertion (VOQRules × Nat) := do
  let ruled ← (List.range f.hostNum).foldlM (fun m host => m.configDst host 0)
    (init.configVOQGroup 0 c.defaultGroup)
  .ok (ruled, 1)

/-- The rules are read along the hosts. A host that is not next among them gets group 0. -/
def configHost (s : VOQRules × List (Nat × Nat)) (host : Nat) :
    Except Assertion (VOQRules × List (Nat × Nat)) :=
  match s.2 with
  | [] => do
      let ruled ← s.1.configDst host 0
      .ok (ruled, [])
  | rule :: later =>
      if rule.1 = host then do
        let ruled ← s.1.configDst host rule.2
        .ok (ruled, later)
      else do
        let ruled ← s.1.configDst host 0
        .ok (ruled, rule :: later)

def inputConfig (input : SwitchRules) : Except Assertion (VOQRules × Nat) := do
  let grouped := input.groups.foldl
    (fun s config => (s.1.configVOQGroup s.2 config, Word32.add s.2 1)) (init, 0)
  let ruled ← (List.range f.hostNum).foldlM configHost (grouped.1, input.rules)
  .ok (ruled.1, grouped.2)

def resetIsolateDiffgroup : Nat := 2

def isolates (id : Nat) : Bool := !f.isCore id && decide (c.resetIsolateDownHost ≠ 0)

/-- The switch keeps its down hosts in a group of their own instead of ignoring them. -/
def groupsApart (id : Nat) : Bool :=
  !f.isToR id && decide (c.resetIsolateDownHost = resetIsolateDiffgroup)

def downGroup (id groupNum : Nat) : Nat :=
  if c.groupsApart f id then groupNum else Word32.size - 1

def configDownHosts (id : Nat) (m : VOQRules) (groupNum : Nat) : Except Assertion VOQRules :=
  (f.switchDownHosts id).sort.foldlM (fun m host => m.configDst host (c.downGroup f id groupNum))
    (if c.groupsApart f id then m.configVOQGroup groupNum c.defaultGroup else m)

def configRules (id : Nat) : Except Assertion (VOQRules × Nat) :=
  match c.switchRules id with
  | none => c.defaultConfig f
  | some input => inputConfig f input

def configSwitch (id : Nat) : Except Assertion VOQRules :=
  if id ∈ c.useWinSwitches ∧ (c.resetOnlyToRSwitchWin = true → f.isToR id = true) then do
    let base ← c.configRules f id
    if c.isolates f id then c.configDownHosts f id base.1 base.2 else .ok base.1
  else .ok init

end FloodgateFile

namespace TreeFile

/-- Two orders of the links agree on the hosts below every switch, with the topology and with each
other, and so do all configurations made from them. -/
def SameBelow (f g : TreeFile) : Prop :=
  ∀ id ∈ f.switchIds,
    f.switchDownHosts id = g.switchDownHosts id ∧
    (∀ host, host ∈ f.switchDownHosts id ↔ f.Below id host) ∧
    (∀ host, host ∈ g.switchDownHosts id ↔ g.Below id host) ∧
    ∀ c : FloodgateFile, c.configSwitch f id = c.configSwitch g id

section Reading

variable {f : TreeFile} {id host : Nat}

theorem is_server_iff (small : id < f.nodeNum) : f.isServer id = true ↔ id < f.hostNum := by
  have listed := f.switch_ids id
  unfold isServer hostNum
  simp only [Bool.not_eq_true', List.contains_eq_mem, decide_eq_false_iff_not, listed]
  omega

theorem link_dst_lt {link : TreeLink} (member : link ∈ f.links) : link.dst < f.nodeNum :=
  ((f.switch_ids _).mp (f.links_up link member)).2

theorem add_down_hosts (downHosts : Nat → Finset Nat) (dst : Nat) (hosts : List Nat) :
    hosts.foldl (fun sets host => addDownHost sets dst host) downHosts =
      fun id => if id = dst then downHosts id ∪ hosts.toFinset else downHosts id := by
  induction hosts generalizing downHosts with
  | nil =>
      funext id
      simp
  | cons host rest ih =>
      rw [List.foldl_cons, ih]
      funext id
      by_cases here : id = dst
      · simp only [addDownHost, here, if_true, List.toFinset_cons, Finset.insert_union,
          Finset.union_insert]
      · simp only [addDownHost, here, if_false]

theorem read_link_eq (downHosts : Nat → Finset Nat) (link : TreeLink) :
    f.readLink downHosts link = OrderedEdges.visit f.isServer downHosts (link.src, link.dst) := by
  funext id
  unfold readLink OrderedEdges.visit
  split
  · by_cases here : id = link.dst
    · simp only [addDownHost, here, if_true]
    · simp only [addDownHost, here, if_false]
  · rw [add_down_hosts, Finset.sort_toFinset]
    by_cases here : id = link.dst
    · simp only [here, if_true]
    · simp only [here, if_false]

theorem switch_down_hosts_eq : f.switchDownHosts = OrderedEdges.collected f.isServer f.edges := by
  unfold switchDownHosts OrderedEdges.collected edges
  rw [List.foldl_map]
  congr 1
  funext downHosts link
  exact read_link_eq downHosts link

theorem edges_apart : ∀ edge ∈ f.edges, f.isServer edge.2 = false := by
  intro edge member
  obtain ⟨link, listed, rfl⟩ := List.mem_map.mp member
  unfold isServer
  rw [List.contains_eq_mem, decide_eq_true (f.links_up link listed), Bool.not_true]

theorem reaches_iff : OrderedEdges.Reaches f.edges host id ↔
    Relation.TransGen (fun upper lower => ∃ link ∈ f.links, link.dst = upper ∧ link.src = lower)
      id host := by
  have swap : (fun a b => (a, b) ∈ f.edges) =
      Function.swap fun upper lower => ∃ link ∈ f.links, link.dst = upper ∧ link.src = lower := by
    funext lower upper
    simp only [edges, List.mem_map, Prod.mk.injEq, Function.swap, eq_iff_iff]
    exact exists_congr fun link => and_congr_right fun _ => and_comm
  unfold OrderedEdges.Reaches
  rw [swap, Relation.transGen_swap]

theorem below_iff : f.Below id host ↔
    f.isServer host = true ∧ OrderedEdges.Reaches f.edges host id := by
  rw [reaches_iff]
  refine and_congr_left fun down => ?_
  obtain ⟨upper, -, link, member, -, rfl⟩ := Relation.TransGen.tail'_iff.mp down
  exact (is_server_iff (Nat.lt_trans link.src_lt (link_dst_lt member))).symm

/-- A switch knows all hosts below it exactly if the ways up from them are listed in order. -/
theorem down_hosts_complete : (∀ host, host ∈ f.switchDownHosts id ↔ f.Below id host) ↔
    ∀ host, f.Below id host → OrderedEdges.Ordered f.edges host id := by
  have complete := @OrderedEdges.collected_complete Nat _ f.isServer f.edges id edges_apart
  simp only [switch_down_hosts_eq, below_iff, and_imp]
  exact complete

/-- It is enough that no link into a switch comes after a link out of it. -/
theorem listed_upward_of_layers
    (layers : f.links.Pairwise fun earlier later => later.dst ≠ earlier.src) : f.ListedUpward := by
  intro id _ host below
  refine OrderedEdges.ordered_of_layers ?_ ?_ (below_iff.mp below).2
  · exact List.pairwise_map.mpr layers
  · intro edge member
    obtain ⟨link, -, rfl⟩ := List.mem_map.mp member
    exact ne_of_gt link.src_lt

end Reading

section Configuring

open Outcome VOQRules FloodgateFile

variable {f : TreeFile} {c : FloodgateFile} {m after : VOQRules} {id groupId groupNum : Nat}

theorem config_dst_ok (known : groupId = Word32.size - 1 ∨ groupId ∈ m.groups) (dst : Nat) :
    ∃ after, m.configDst dst groupId = .ok after ∧ after.groups = m.groups ∧
      ∀ host, after.dst2group host = if host = dst then .ofId groupId else m.dst2group host := by
  unfold configDst
  rw [dif_pos known]
  exact ⟨_, rfl, rfl, fun _ => rfl⟩

theorem config_dsts_ok (known : groupId = Word32.size - 1 ∨ groupId ∈ m.groups)
    (hosts : List Nat) :
    ∃ after, hosts.foldlM (fun m host => m.configDst host groupId) m = .ok after ∧
      after.groups = m.groups ∧
      ∀ host, after.dst2group host = if host ∈ hosts then .ofId groupId else m.dst2group host := by
  induction hosts generalizing m with
  | nil => exact ⟨m, rfl, rfl, fun host => by simp⟩
  | cons dst rest ih =>
      obtain ⟨middle, first, kept, rule⟩ := config_dst_ok known dst
      obtain ⟨after, later, same, rules⟩ := ih (m := middle) (by rwa [kept])
      refine ⟨after, ?_, same.trans kept, fun host => ?_⟩
      · rw [List.foldlM_cons, first]
        exact later
      · rw [rules, rule]
        by_cases inside : host ∈ rest
        · simp [inside]
        · by_cases here : host = dst <;> simp [inside, here]

theorem config_down_hosts_ok (c : FloodgateFile) (f : TreeFile) (id : Nat) (m : VOQRules)
    (groupNum : Nat) :
    ∃ after, c.configDownHosts f id m groupNum = .ok after ∧
      ∀ host, after.dst2group host =
        if host ∈ f.switchDownHosts id then .ofId (c.downGroup f id groupNum)
        else m.dst2group host := by
  unfold configDownHosts downGroup
  split
  · have known : groupNum ∈ (m.configVOQGroup groupNum c.defaultGroup).groups :=
      ExtTreeMap.mem_insert_self
    obtain ⟨after, success, -, rules⟩ := config_dsts_ok (.inr known) (f.switchDownHosts id).sort
    exact ⟨after, success, fun host => by
      simpa only [Finset.mem_sort, config_voq_group_rule] using rules host⟩
  · obtain ⟨after, success, -, rules⟩ := config_dsts_ok (m := m) (.inl rfl)
      (f.switchDownHosts id).sort
    exact ⟨after, success, fun host => by simpa only [Finset.mem_sort] using rules host⟩

theorem tor_ignores_below (listed : f.ListedUpward) (switch : id ∈ f.switchIds)
    (uses : id ∈ c.useWinSwitches) (tor : f.isToR id = true) (isolates : c.isolates f id = true)
    (success : c.configSwitch f id = .ok after) (settings : Settings) (bdpMap : Nat → Option Nat)
    (bdpMap_lt : ∀ dst win, bdpMap dst = some win → win < Word32.size) {host : Nat}
    (below : f.Below id host) :
    (after.upstream settings bdpMap bdpMap_lt).shouldIgnore host = .ok true := by
  unfold configSwitch at success
  rw [if_pos ⟨uses, fun _ => tor⟩] at success
  obtain ⟨base, -, success⟩ := bind_ok.mp success
  rw [if_pos isolates] at success
  obtain ⟨configured, same, rules⟩ := config_down_hosts_ok c f id base.1 base.2
  obtain rfl : configured = after := Except.ok.inj (same.symm.trans success)
  have known := (down_hosts_complete.mpr (listed id switch) host).mpr below
  have together : c.groupsApart f id = false := by
    unfold groupsApart
    rw [tor, Bool.not_true, Bool.false_and]
  have ignored : configured.dst2group host = .ignored := by
    rw [rules, if_pos known, downGroup, together]
    rfl
  simp only [UpstreamConfig.shouldIgnore, upstream, ignored]

end Configuring

section Reordering

variable {f : TreeFile} {links : List TreeLink} (perm : links.Perm f.links) {id host : Nat}

theorem below_reorder : (f.reorder links perm).Below id host ↔ f.Below id host := by
  have same : (fun upper lower => ∃ link ∈ links, link.dst = upper ∧ link.src = lower) =
      fun upper lower => ∃ link ∈ f.links, link.dst = upper ∧ link.src = lower := by
    funext upper lower
    exact propext (exists_congr fun link => and_congr_left fun _ => perm.mem_iff)
  unfold Below
  rw [← same]
  rfl

theorem config_switch_reorder (c : FloodgateFile)
    (same : f.switchDownHosts id = (f.reorder links perm).switchDownHosts id) :
    c.configSwitch f id = c.configSwitch (f.reorder links perm) id := by
  have down : ∀ m groupNum, c.configDownHosts f id m groupNum =
      c.configDownHosts (f.reorder links perm) id m groupNum := by
    intro m groupNum
    unfold FloodgateFile.configDownHosts
    rw [same]
    rfl
  unfold FloodgateFile.configSwitch
  simp only [down]
  rfl

/-- The order of the links does not matter exactly if both orders list the ways up in order. -/
theorem same_below_iff (f : TreeFile) (links : List TreeLink) (perm : links.Perm f.links) :
    SameBelow f (f.reorder links perm) ↔ f.ListedUpward ∧ (f.reorder links perm).ListedUpward := by
  constructor
  · intro same
    constructor
    · intro id switch
      exact down_hosts_complete.mp (same id switch).2.1
    · intro id switch
      exact down_hosts_complete.mp (same id switch).2.2.1
  · rintro ⟨first, second⟩ id switch
    have here := down_hosts_complete.mpr (first id switch)
    have there := down_hosts_complete.mpr (second id switch)
    have same : f.switchDownHosts id = (f.reorder links perm).switchDownHosts id := by
      ext host
      rw [here, there, below_reorder]
    exact ⟨same, here, there, fun c => config_switch_reorder perm c same⟩

/-- Two racks under one upper switch, their hosts listed from the last to the first. -/
def twoRacks : TreeFile where
  nodeNum := 6
  switchIds := [3, 4, 5]
  torNum := 2
  coreNum := 0
  links :=
    [⟨2, 4, by omega⟩, ⟨1, 3, by omega⟩, ⟨0, 3, by omega⟩, ⟨4, 5, by omega⟩, ⟨3, 5, by omega⟩]
  switch_ids := by
    intro id
    simp only [List.mem_cons, List.not_mem_nil, or_false, List.length_cons, List.length_nil]
    omega
  links_up := by simp

/-- One rack is complete before the other begins. -/
def rackByRack : List TreeLink :=
  [⟨0, 3, by omega⟩, ⟨1, 3, by omega⟩, ⟨3, 5, by omega⟩, ⟨2, 4, by omega⟩, ⟨4, 5, by omega⟩]

theorem rack_by_rack_perm : rackByRack.Perm twoRacks.links := by
  decide

theorem same_below_two_racks :
    SameBelow twoRacks (twoRacks.reorder rackByRack rack_by_rack_perm) :=
  (same_below_iff twoRacks rackByRack rack_by_rack_perm).mpr
    ⟨listed_upward_of_layers (by simp [twoRacks]),
      listed_upward_of_layers (by simp [reorder, rackByRack])⟩

/-- With the upper links first, the upper switch knows no host. -/
theorem upper_links_first :
    ¬ SameBelow twoRacks (twoRacks.reorder twoRacks.links.reverse (List.reverse_perm _)) := by
  intro same
  have agree := (same 5 (by simp [twoRacks])).1
  simp only [switch_down_hosts_eq] at agree
  exact absurd agree (by decide)

end Reordering

end TreeFile

end Floodgate
