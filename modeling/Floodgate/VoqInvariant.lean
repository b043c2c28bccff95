import Floodgate.Voq
import Floodgate.Library.MapSum
import Mathlib.Data.List.Perm.Subperm

/-! The bookkeeping of one VOQ group, kept by buffering a packet and by sending a head. -/

namespace Floodgate

open Std

def PacketUnit.bytes (units : List PacketUnit) : Nat := (units.map fun unit => unit.pkt.size).sum

namespace PacketUnit

@[simp] theorem bytes_nil : bytes [] = 0 := rfl

@[simp] theorem bytes_cons (unit : PacketUnit) (units : List PacketUnit) :
    bytes (unit :: units) = unit.pkt.size + bytes units := by
  simp [bytes]

@[simp] theorem bytes_append (first second : List PacketUnit) :
    bytes (first ++ second) = bytes first + bytes second := by
  simp [bytes]

theorem bytes_pos (unit : PacketUnit) (units : List PacketUnit) (member : unit ∈ units) :
    0 < bytes units := by
  have part : unit.pkt.size ≤ bytes units :=
    List.single_le_sum (by simp) _ (List.mem_map.mpr ⟨unit, member, rfl⟩)
  have positive := unit.pkt.size_pos
  omega

end PacketUnit

namespace VOQGroup

section Accessors

variable (g : VOQGroup) (id i : Nat) (unit : PacketUnit)

@[simp] theorem enqueue_config : (g.enqueue id unit).config = g.config := rfl

@[simp] theorem pop_config : (g.pop id unit).config = g.config := rfl

@[simp] theorem createVOQ_config : (g.createVOQ id).config = g.config := rfl

@[simp] theorem enqueue_findVOQId (dst : Nat) :
    (g.enqueue id unit).findVOQId dst = g.findVOQId dst := rfl

@[simp] theorem pop_findVOQId (dst : Nat) : (g.pop id unit).findVOQId dst = g.findVOQId dst := rfl

theorem enqueue_packets :
    (g.enqueue id unit).packets i = if i = id then g.packets id ++ [unit] else g.packets i :=
  MapSum.getD_insert _ _ _ _ _

theorem enqueue_bufferBytes :
    (g.enqueue id unit).bufferBytes i =
      if i = id then Word32.add (g.bufferBytes id) unit.pkt.size else g.bufferBytes i :=
  MapSum.getD_insert _ _ _ _ _

theorem pop_packets :
    (g.pop id unit).packets i = if i = id then (g.packets id).tail else g.packets i :=
  MapSum.getD_insert _ _ _ _ _

theorem pop_bufferBytes :
    (g.pop id unit).bufferBytes i =
      if i = id then Word32.sub (g.bufferBytes id) unit.pkt.size else g.bufferBytes i :=
  MapSum.getD_insert _ _ _ _ _

theorem packets_mem (nonempty : g.packets id ≠ []) : id ∈ g.voqs := by
  by_contra absent
  have none : g.voqs[id]? = none := by simpa using absent
  simp [packets, none] at nonempty

theorem createVOQ_packets (absent : id ∉ g.voqs) : (g.createVOQ id).packets i = g.packets i := by
  simp only [packets, createVOQ, ExtTreeMap.getElem?_insert, LawfulEqOrd.compare_eq_iff_eq]
  split
  · rename_i same
    subst same
    have none : g.voqs[id]? = none := by simpa using absent
    simp [none]
  · rfl

theorem createVOQ_bufferBytes : (g.createVOQ id).bufferBytes i = g.bufferBytes i := by
  simp only [bufferBytes, createVOQ, ExtTreeMap.getElem?_insertIfNew,
    LawfulEqOrd.compare_eq_iff_eq]
  split
  · rename_i same
    obtain ⟨rfl, absent⟩ := same
    have none : g.voqBuffer[id]? = none := by simpa using absent
    simp [none]
  · rfl

theorem releaseVOQ_packets (dst buffering : Nat) :
    (g.releaseVOQ dst id buffering).packets i = g.packets i := by
  unfold releaseVOQ
  split
  · by_cases empty : (g.packets id).isEmpty
    · have none : g.packets id = [] := List.isEmpty_iff.mp empty
      rw [if_pos empty]
      simp only [packets, ExtTreeMap.getElem?_erase, LawfulEqOrd.compare_eq_iff_eq]
      split
      · rename_i same
        subst same
        exact none.symm
      · rfl
    · rw [if_neg empty]
      rfl
  · rfl

@[simp] theorem releaseVOQ_config (dst buffering : Nat) :
    (g.releaseVOQ dst id buffering).config = g.config := by
  unfold releaseVOQ
  split <;> rfl

@[simp] theorem releaseVOQ_bufferBytes (dst buffering : Nat) :
    (g.releaseVOQ dst id buffering).bufferBytes i = g.bufferBytes i := by
  unfold releaseVOQ
  split <;> rfl

end Accessors

/-- Every packet lies in the VOQ its destination maps to and the byte counts are exact. Under
dynamic hashing the destinations mapped are those with packets, and the ids in use are the ids
mapped to. -/
structure Consistent (g : VOQGroup) : Prop where
  located : ∀ id, ∀ unit ∈ g.packets id, g.findVOQId unit.dst = some id
  counted : ∀ id, g.bufferBytes id = PacketUnit.bytes (g.packets id)
  mapped : g.config.dynamicHash = true → ∀ (dst id : Nat), g.dst2voq[dst]? = some id →
    ∃ unit ∈ g.packets id, unit.dst = dst
  assigned : g.config.dynamicHash = true → ∀ id ∈ g.voqs, ∃ dst : Nat, g.dst2voq[dst]? = some id
  below : g.config.dynamicHash = true → ∀ id ∈ g.voqs, id < g.config.voqLimit

theorem Consistent.init (config : VOQGroupConfig) : (VOQGroup.init config).Consistent := by
  constructor <;> simp [VOQGroup.init, packets, bufferBytes]

theorem findVOQId_dynamic (g : VOQGroup) (dynamic : g.config.dynamicHash = true) (dst : Nat) :
    g.findVOQId dst = g.dst2voq[dst]? := by
  have limit := g.config.limit_pos dynamic
  simp only [findVOQId, if_neg (by omega : ¬ g.config.voqLimit = 0), dynamic, if_true]

theorem findVOQId_static (g : VOQGroup) (static : g.config.dynamicHash = false) (dst : Nat) :
    g.findVOQId dst =
      some (if g.config.voqLimit = 0 then dst else hashVOQId dst g.config.voqLimit) := by
  by_cases unlimited : g.config.voqLimit = 0
  · simp only [findVOQId, if_pos unlimited]
  · simp [findVOQId, if_neg unlimited, static]

theorem free_id_exists (voqs : ExtTreeMap Nat (List PacketUnit)) (limit : Nat)
    (room : voqs.size < limit) :
    ∃ id, ((List.range limit).filter fun i => !voqs.contains i).getLast? = some id ∧
      id < limit ∧ id ∉ voqs := by
  cases last : ((List.range limit).filter fun i => !voqs.contains i).getLast? with
  | none =>
      have full : ∀ i < limit, i ∈ voqs := by
        rw [List.getLast?_eq_none_iff, List.filter_eq_nil_iff] at last
        intro i inside
        simpa using last i (List.mem_range.mpr inside)
      have covered : List.range limit ⊆ voqs.keys := by
        intro i member
        simpa using full i (List.mem_range.mp member)
      have count := (List.nodup_range.subperm covered).length_le
      rw [List.length_range, ExtTreeMap.length_keys] at count
      omega
  | some id =>
      have member := List.mem_of_getLast? last
      rw [List.mem_filter] at member
      have free : voqs.contains id = false := by simpa using member.2
      exact ⟨id, rfl, List.mem_range.mp member.1, by simp [← ExtTreeMap.contains_iff_mem, free]⟩

theorem Consistent.size_le {g : VOQGroup} (consistent : g.Consistent)
    (dynamic : g.config.dynamicHash = true) : g.voqs.size ≤ g.config.voqLimit := by
  have covered : g.voqs.keys ⊆ List.range g.config.voqLimit := by
    intro id member
    exact List.mem_range.mpr (consistent.below dynamic id (by simpa using member))
  have count := ((MapSum.nodup_keys g.voqs).subperm covered).length_le
  rwa [ExtTreeMap.length_keys, List.length_range] at count

theorem Consistent.voq_nonempty {g : VOQGroup} (consistent : g.Consistent)
    (dynamic : g.config.dynamicHash = true) {id : Nat} (stored : id ∈ g.voqs) :
    g.packets id ≠ [] := by
  obtain ⟨dst, assigned⟩ := consistent.assigned dynamic id stored
  obtain ⟨unit, member, _⟩ := consistent.mapped dynamic dst id assigned
  exact List.ne_nil_of_mem member

/-- `after` is the group with the VOQ `id` allocated and assigned to `dst`, otherwise unchanged. -/
structure Opened (before : VOQGroup) (dst id : Nat) (after : VOQGroup) : Prop where
  config : after.config = before.config
  packets : ∀ i, after.packets i = before.packets i
  bufferBytes : ∀ i, after.bufferBytes i = before.bufferBytes i
  voqs : ∀ i, i ∈ after.voqs ↔ i = id ∨ i ∈ before.voqs
  dst2voq : before.config.dynamicHash = true →
    ∀ e : Nat, after.dst2voq[e]? = if e = dst then some id else before.dst2voq[e]?
  found : after.findVOQId dst = some id
  kept : ∀ i, before.findVOQId dst = some i → i = id
  other : ∀ e, e ≠ dst → after.findVOQId e = before.findVOQId e
  below : before.config.dynamicHash = true → id < before.config.voqLimit

section Ensure

variable (g : VOQGroup) (id i : Nat)

@[simp] theorem ensureVOQ_config : (g.ensureVOQ id).config = g.config := by
  unfold ensureVOQ
  split <;> rfl

@[simp] theorem ensureVOQ_dst2voq : (g.ensureVOQ id).dst2voq = g.dst2voq := by
  unfold ensureVOQ
  split <;> rfl

theorem ensureVOQ_packets : (g.ensureVOQ id).packets i = g.packets i := by
  unfold ensureVOQ
  by_cases present : g.voqs.contains id
  · rw [if_pos present]
  · rw [if_neg present]
    exact createVOQ_packets g id i fun member =>
      present (ExtTreeMap.contains_iff_mem.mpr member)

theorem ensureVOQ_bufferBytes : (g.ensureVOQ id).bufferBytes i = g.bufferBytes i := by
  unfold ensureVOQ
  split
  · rfl
  · exact createVOQ_bufferBytes g id i

theorem ensureVOQ_voqs : i ∈ (g.ensureVOQ id).voqs ↔ i = id ∨ i ∈ g.voqs := by
  unfold ensureVOQ
  by_cases present : g.voqs.contains id
  · rw [if_pos present]
    refine ⟨Or.inr, ?_⟩
    rintro (rfl | member)
    · exact ExtTreeMap.contains_iff_mem.mp present
    · exact member
  · rw [if_neg present]
    simp only [createVOQ, ExtTreeMap.mem_insert, LawfulEqOrd.compare_eq_iff_eq]
    exact or_congr_left eq_comm

end Ensure

theorem getVOQ_static {g : VOQGroup} (static : g.config.dynamicHash = false) (dst : Nat) :
    ∃ id after, g.getVOQ dst = .ok (id, after) ∧ Opened g dst id after := by
  have found := findVOQId_static g static dst
  revert found
  generalize (if g.config.voqLimit = 0 then dst else hashVOQId dst g.config.voqLimit) = id
  intro found
  have result : g.getVOQ dst = .ok (id, g.ensureVOQ id) := by
    unfold getVOQ getVOQId ensureVOQ
    by_cases present : id ∈ g.voqs
    · simp [found, static, present]
    · simp [found, static, present]
  refine ⟨id, _, result, ensureVOQ_config g id, ensureVOQ_packets g id, ensureVOQ_bufferBytes g id,
    ensureVOQ_voqs g id, ?_, ?_, ?_, ?_, ?_⟩
  · intro dynamic
    rw [static] at dynamic
    contradiction
  · rw [← found]
    simp only [findVOQId, ensureVOQ_config, ensureVOQ_dst2voq]
  · intro i earlier
    rw [found] at earlier
    exact (Option.some.inj earlier).symm
  · intro e _
    simp only [findVOQId, ensureVOQ_config, ensureVOQ_dst2voq]
  · intro dynamic
    rw [static] at dynamic
    contradiction

theorem getVOQ_allocates {g : VOQGroup} (dynamic : g.config.dynamicHash = true) {dst id : Nat}
    (unknown : g.dst2voq[dst]? = none) (allocated : g.getVOQId dst = (some id, false))
    (below : id < g.config.voqLimit) :
    ∃ after, g.getVOQ dst = .ok (id, after) ∧ Opened g dst id after := by
  have absent : g.dst2voq.contains dst = false := by
    simpa [← ExtTreeMap.contains_eq_isSome_getElem?] using congrArg Option.isSome unknown
  let after : VOQGroup :=
    { g.ensureVOQ id with dst2voq := (g.ensureVOQ id).dst2voq.insert dst id }
  have same : after.config = g.config := ensureVOQ_config g id
  have result : g.getVOQ dst = .ok (id, after) := by
    simp only [getVOQ, allocated, dynamic, absent, after]
    rfl
  have map : ∀ e : Nat, after.dst2voq[e]? = if e = dst then some id else g.dst2voq[e]? := by
    intro e
    simp only [after, ensureVOQ_dst2voq, MapSum.lookup_insert]
  refine ⟨after, result, same, ensureVOQ_packets g id, ensureVOQ_bufferBytes g id,
    ensureVOQ_voqs g id, fun _ => map, ?_, ?_, ?_, fun _ => below⟩
  · rw [findVOQId_dynamic after (by rw [same, dynamic]), map, if_pos rfl]
  · intro i earlier
    rw [findVOQId_dynamic _ dynamic, unknown] at earlier
    contradiction
  · intro e different
    rw [findVOQId_dynamic after (by rw [same, dynamic]), findVOQId_dynamic _ dynamic, map,
      if_neg different]

/-- A destination always gets a VOQ, so the assertions of `GetVOQ` hold. -/
theorem Consistent.getVOQ_opens {g : VOQGroup} (consistent : g.Consistent) (dst : Nat) :
    ∃ id after, g.getVOQ dst = .ok (id, after) ∧ Opened g dst id after := by
  cases dynamic : g.config.dynamicHash with
  | false => exact getVOQ_static dynamic dst
  | true =>
      have search := findVOQId_dynamic g dynamic dst
      have limit := g.config.limit_pos dynamic
      cases known : g.dst2voq[dst]? with
      | some id =>
          obtain ⟨unit, member, _⟩ := consistent.mapped dynamic dst id known
          have stored := packets_mem g id (List.ne_nil_of_mem member)
          have present : g.voqs.contains id = true := ExtTreeMap.contains_iff_mem.mpr stored
          rw [known] at search
          refine ⟨id, g, ?_, rfl, fun _ => rfl, fun _ => rfl, ?_, ?_, search, ?_, fun _ _ => rfl, ?_⟩
          · simp [getVOQ, getVOQId, search, dynamic, present]
          · intro i
            refine ⟨Or.inr, ?_⟩
            rintro (rfl | member)
            · exact stored
            · exact member
          · intro _ e
            by_cases same : e = dst
            · rw [if_pos same, same, known]
            · rw [if_neg same]
          · intro i earlier
            rw [search] at earlier
            exact (Option.some.inj earlier).symm
          · exact fun _ => consistent.below dynamic id stored
      | none =>
          rw [known] at search
          by_cases room : g.voqs.size < g.config.voqLimit
          · obtain ⟨id, free, below, _⟩ := free_id_exists g.voqs g.config.voqLimit room
            have allocated : g.getVOQId dst = (some id, false) := by
              simp [getVOQId, search, room, free]
            exact ⟨id, getVOQ_allocates dynamic known allocated below⟩
          · have allocated : g.getVOQId dst =
                (some (hashVOQId dst g.config.voqLimit), false) := by
              simp [getVOQId, search, room]
            exact ⟨_, getVOQ_allocates dynamic known allocated (Nat.mod_lt _ limit)⟩

section Buffering

variable {g after : VOQGroup} {id : Nat} {unit : PacketUnit}

theorem Opened.enqueue_packets (opened : Opened g unit.dst id after) (i : Nat) :
    (after.enqueue id unit).packets i =
      if i = id then g.packets id ++ [unit] else g.packets i := by
  rw [VOQGroup.enqueue_packets, opened.packets, opened.packets]

theorem Opened.enqueue_voqs (opened : Opened g unit.dst id after) (i : Nat) :
    i ∈ (after.enqueue id unit).voqs ↔ i = id ∨ i ∈ g.voqs := by
  simp only [VOQGroup.enqueue, ExtTreeMap.mem_insert, LawfulEqOrd.compare_eq_iff_eq, opened.voqs]
  constructor
  · rintro (rfl | rfl | member)
    · exact .inl rfl
    · exact .inl rfl
    · exact .inr member
  · exact .inr

theorem Opened.search (opened : Opened g unit.dst id after) {e i : Nat}
    (found : g.findVOQId e = some i) : after.findVOQId e = some i := by
  by_cases same : e = unit.dst
  · rw [same] at found ⊢
    rw [opened.found, opened.kept i found]
  · rw [opened.other e same, found]

theorem Consistent.enqueue (consistent : g.Consistent) (opened : Opened g unit.dst id after)
    (fits : PacketUnit.bytes (g.packets id) + unit.pkt.size < Word32.size) :
    (after.enqueue id unit).Consistent := by
  constructor
  · intro i u member
    rw [enqueue_findVOQId]
    rw [opened.enqueue_packets] at member
    by_cases same : i = id
    · rw [if_pos same, List.mem_append, List.mem_singleton] at member
      rcases member with earlier | rfl
      · exact opened.search (same ▸ consistent.located id u earlier)
      · rw [same]
        exact opened.found
    · rw [if_neg same] at member
      exact opened.search (consistent.located i u member)
  · intro i
    rw [enqueue_bufferBytes, opened.enqueue_packets, opened.bufferBytes, opened.bufferBytes]
    by_cases same : i = id
    · rw [if_pos same, if_pos same, consistent.counted, PacketUnit.bytes_append,
        Word32.add_eq _ _ fits]
      simp
    · rw [if_neg same, if_neg same]
      exact consistent.counted i
  · intro dynamic dst i assigned
    have was : g.config.dynamicHash = true := by rwa [enqueue_config, opened.config] at dynamic
    have map := opened.dst2voq was dst
    rw [show (after.enqueue id unit).dst2voq = after.dst2voq from rfl, map] at assigned
    rw [opened.enqueue_packets]
    by_cases same : dst = unit.dst
    · rw [if_pos same] at assigned
      obtain rfl := Option.some.inj assigned
      rw [if_pos rfl]
      exact ⟨unit, by simp, same.symm⟩
    · rw [if_neg same] at assigned
      obtain ⟨u, member, target⟩ := consistent.mapped was dst i assigned
      by_cases here : i = id
      · rw [if_pos here]
        exact ⟨u, List.mem_append_left _ (here ▸ member), target⟩
      · rw [if_neg here]
        exact ⟨u, member, target⟩
  · intro dynamic i stored
    have was : g.config.dynamicHash = true := by rwa [enqueue_config, opened.config] at dynamic
    rw [show (after.enqueue id unit).dst2voq = after.dst2voq from rfl]
    by_cases here : i = id
    · exact ⟨unit.dst, by rw [opened.dst2voq was, if_pos rfl, here]⟩
    · rcases (opened.enqueue_voqs i).mp stored with same | member
      · exact absurd same here
      · obtain ⟨e, assigned⟩ := consistent.assigned was i member
        refine ⟨e, ?_⟩
        by_cases same : e = unit.dst
        · have found := findVOQId_dynamic g was e
          rw [assigned, same] at found
          exact absurd (opened.kept i found) here
        · rw [opened.dst2voq was, if_neg same, assigned]
  · intro dynamic i stored
    have was : g.config.dynamicHash = true := by rwa [enqueue_config, opened.config] at dynamic
    rw [enqueue_config, opened.config]
    rcases (opened.enqueue_voqs i).mp stored with same | member
    · rw [same]
      exact opened.below was
    · exact consistent.below was i member

end Buffering

section Sending

variable {g : VOQGroup} {id buffering : Nat} {top : PacketUnit} {rest : List PacketUnit}

/-- The group after its VOQ `id` has sent its head and run the dequeue callback. -/
theorem sent_packets (head : g.packets id = top :: rest) (i : Nat) :
    ((g.pop id top).releaseVOQ top.dst id buffering).packets i =
      if i = id then rest else g.packets i := by
  rw [releaseVOQ_packets, pop_packets, head, List.tail_cons]

theorem pop_voqs (head : g.packets id = top :: rest) (i : Nat) :
    i ∈ (g.pop id top).voqs ↔ i ∈ g.voqs := by
  have stored := packets_mem g id (by simp [head])
  simp only [pop, ExtTreeMap.mem_insert, LawfulEqOrd.compare_eq_iff_eq]
  refine ⟨?_, .inr⟩
  rintro (rfl | member)
  · exact stored
  · exact member

/-- The assignments that survive: all of them but that of a destination left without packets. -/
theorem sent_dst2voq (dynamic : g.config.dynamicHash = true) (e : Nat) :
    ((g.pop id top).releaseVOQ top.dst id buffering).dst2voq[e]? =
      if e = top.dst ∧ buffering = 0 then none else g.dst2voq[e]? := by
  have unchanged : (g.pop id top).dst2voq = g.dst2voq := rfl
  by_cases empty : buffering = 0
  · simp only [releaseVOQ, pop_config, dynamic, empty, beq_self_eq_true, Bool.and_self, if_true,
      unchanged, MapSum.lookup_erase, and_true]
  · simp [releaseVOQ, empty, unchanged]

theorem sent_findVOQId (e : Nat)
    (other : g.config.dynamicHash = true → ¬ (e = top.dst ∧ buffering = 0)) :
    ((g.pop id top).releaseVOQ top.dst id buffering).findVOQId e = g.findVOQId e := by
  by_cases dynamic : g.config.dynamicHash = true
  · rw [findVOQId_dynamic _ (by simpa using dynamic), findVOQId_dynamic _ dynamic,
      sent_dst2voq dynamic, if_neg (other dynamic)]
  · simp [findVOQId, dynamic]

theorem sent_voqs (dynamic : g.config.dynamicHash = true) (head : g.packets id = top :: rest)
    (i : Nat) :
    i ∈ ((g.pop id top).releaseVOQ top.dst id buffering).voqs ↔
      i ∈ g.voqs ∧ ¬ (i = id ∧ buffering = 0 ∧ rest = []) := by
  have tail : (g.pop id top).packets id = rest := by
    rw [pop_packets, if_pos rfl, head, List.tail_cons]
  have kept := pop_voqs head i
  by_cases empty : buffering = 0
  · by_cases last : rest = []
    · simp only [releaseVOQ, pop_config, dynamic, empty, beq_self_eq_true, Bool.and_self, if_true,
        tail, last, List.isEmpty_nil, MapSum.mem_erase_iff, kept, and_true]
      exact and_comm
    · simp [releaseVOQ, dynamic, empty, tail, last, kept]
  · simp [releaseVOQ, empty, kept]

/-- Sending a head: the assertion of the dequeue callback holds and the group stays consistent,
given the exact number of bytes left for the destination of the head. -/
theorem Consistent.send (consistent : g.Consistent) (head : g.packets id = top :: rest)
    (exact : buffering = PacketUnit.bytes (rest.filter fun unit => unit.dst = top.dst))
    (fits : PacketUnit.bytes (g.packets id) < Word32.size) :
    (g.pop id top).findVOQId top.dst = some id ∧
      ((g.pop id top).releaseVOQ top.dst id buffering).Consistent := by
  have found : g.findVOQId top.dst = some id := consistent.located id top (by simp [head])
  have left : ∀ unit ∈ rest, unit.dst = top.dst → buffering ≠ 0 := by
    intro unit member target
    have positive := PacketUnit.bytes_pos unit (rest.filter fun unit => unit.dst = top.dst)
      (List.mem_filter.mpr ⟨member, by simpa using target⟩)
    omega
  refine ⟨by rw [pop_findVOQId, found], ?_, ?_, ?_, ?_, ?_⟩
  · intro i unit member
    rw [sent_packets head] at member
    have earlier : unit ∈ g.packets i := by
      by_cases same : i = id
      · rw [if_pos same] at member
        rw [same, head]
        exact List.mem_cons_of_mem _ member
      · rwa [if_neg same] at member
    have search := consistent.located i unit earlier
    rw [sent_findVOQId, search]
    rintro _ ⟨target, none⟩
    rw [target, found] at search
    obtain rfl := Option.some.inj search
    rw [if_pos rfl] at member
    exact left unit member target none
  · intro i
    rw [releaseVOQ_bufferBytes, pop_bufferBytes, sent_packets head]
    by_cases same : i = id
    · rw [if_pos same, if_pos same, consistent.counted, head, PacketUnit.bytes_cons] at *
      rw [Word32.sub_eq _ _ fits (Nat.le_add_right _ _)]
      omega
    · rw [if_neg same, if_neg same]
      exact consistent.counted i
  · intro dynamic dst i assigned
    rw [releaseVOQ_config, pop_config] at dynamic
    rw [sent_dst2voq dynamic] at assigned
    by_cases gone : dst = top.dst ∧ buffering = 0
    · rw [if_pos gone] at assigned
      contradiction
    rw [if_neg gone] at assigned
    rw [sent_packets head]
    obtain ⟨unit, member, target⟩ := consistent.mapped dynamic dst i assigned
    by_cases same : i = id
    · rw [if_pos same]
      by_cases leaves : dst = top.dst
      · have some : PacketUnit.bytes (rest.filter fun unit => unit.dst = top.dst) ≠ 0 := by
          intro zero
          exact gone ⟨leaves, exact.trans zero⟩
        have nonempty : rest.filter (fun unit => unit.dst = top.dst) ≠ [] := by
          intro nothing
          exact some (by rw [nothing]; rfl)
        obtain ⟨other, inside⟩ := List.exists_mem_of_ne_nil _ nonempty
        have facts := List.mem_filter.mp inside
        exact ⟨other, facts.1, by simpa [leaves] using facts.2⟩
      · rw [same, head] at member
        rcases List.mem_cons.mp member with equal | later
        · exact absurd (equal ▸ target).symm leaves
        · exact ⟨unit, later, target⟩
    · rw [if_neg same]
      exact ⟨unit, member, target⟩
  · intro dynamic i stored
    rw [releaseVOQ_config, pop_config] at dynamic
    obtain ⟨member, survives⟩ := (sent_voqs dynamic head i).mp stored
    obtain ⟨dst, assigned⟩ := consistent.assigned dynamic i member
    by_cases gone : dst = top.dst ∧ buffering = 0
    · have search := findVOQId_dynamic g dynamic dst
      rw [gone.1, found, ← gone.1, assigned] at search
      obtain rfl := Option.some.inj search
      have nonempty : rest ≠ [] := fun empty => survives ⟨rfl, gone.2, empty⟩
      obtain ⟨unit, inside⟩ := List.exists_mem_of_ne_nil _ nonempty
      have located := consistent.located id unit (by rw [head]; exact List.mem_cons_of_mem _ inside)
      rw [findVOQId_dynamic g dynamic] at located
      refine ⟨unit.dst, ?_⟩
      rw [sent_dst2voq dynamic, if_neg fun same => left unit inside same.1 same.2, located]
    · exact ⟨dst, by rw [sent_dst2voq dynamic, if_neg gone, assigned]⟩
  · intro dynamic i stored
    rw [releaseVOQ_config, pop_config] at dynamic ⊢
    exact consistent.below dynamic i ((sent_voqs dynamic head i).mp stored).1

end Sending

end VOQGroup

end Floodgate
