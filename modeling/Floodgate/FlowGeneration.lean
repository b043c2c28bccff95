import Floodgate.Library.Word32
import Mathlib.Data.List.Perm.Subperm
import Mathlib.Data.List.Nodup

/-! The flows of an experiment as they are generated: their numbers, and the queue pairs that they
are given. -/

namespace Floodgate

/-- `Flow`, without the oracle times and the statistics. -/
structure Flow where
  isTest : Bool
  flowId : Nat
  src : Nat
  dst : Nat
  size : Nat
  qpIdInput : Nat
  msgSeqInput : Nat
  qpId : Nat
  msgSeq : Nat
  finishTime : Nat
  rcvFinishTime : Nat
  deriving DecidableEq

structure FlowCounters where
  qpGlobal : Nat
  flowIndex : Nat

inductive FlowRequest where
  | single (src dst size : Nat)
  | message (src dst size qpId msgSeq : Nat) (reset : Bool)
  deriving DecidableEq

namespace FlowCounters

def init : FlowCounters := ⟨0, 0⟩

end FlowCounters

namespace Flow

def isComplete (f : Flow) : Bool := f.finishTime ≠ 0

def isRcvFinished (f : Flow) : Bool := f.rcvFinishTime ≠ 0

def create (c : FlowCounters) (src dst size : Nat) : Flow × FlowCounters :=
  ({ isTest := false, flowId := c.flowIndex, src := src, dst := dst, size := size
     qpIdInput := c.qpGlobal, msgSeqInput := 0, qpId := c.qpGlobal, msgSeq := 0
     finishTime := 0, rcvFinishTime := 0 },
    ⟨Word32.add c.qpGlobal 1, Word32.add c.flowIndex 1⟩)

def createMessage (c : FlowCounters) (src dst size qpId msgSeq : Nat) (reset : Bool) :
    Flow × FlowCounters :=
  let own := if reset then c.qpGlobal else qpId
  ({ isTest := false, flowId := c.flowIndex, src := src, dst := dst, size := size
     qpIdInput := qpId, msgSeqInput := msgSeq, qpId := own, msgSeq := if reset then 0 else msgSeq
     finishTime := 0, rcvFinishTime := 0 },
    ⟨Word32.add (max own c.qpGlobal) 1, Word32.add c.flowIndex 1⟩)

def make (c : FlowCounters) : FlowRequest → Flow × FlowCounters
  | .single src dst size => create c src dst size
  | .message src dst size qpId msgSeq reset => createMessage c src dst size qpId msgSeq reset

def generate : FlowCounters → List FlowRequest → List Flow
  | _, [] => []
  | c, request :: rest => (make c request).1 :: generate (make c request).2 rest

/-- The end of `generate_load_poisson_fromcdf_incast`: of the first flows of the queue those that
do not touch a destination of the incast go to its end. -/
def removeTouching (incastDsts : List Nat) : Nat → List Flow → List Flow
  | 0, flows => flows
  | _ + 1, [] => []
  | n + 1, curr :: flows =>
      if curr.src ∉ incastDsts ∧ curr.dst ∉ incastDsts then
        removeTouching incastDsts n (flows ++ [curr])
      else removeTouching incastDsts n flows

end Flow

namespace FlowRequest

def asked : FlowRequest → Nat
  | .single .. => 0
  | .message _ _ _ qpId _ reset => if reset then 0 else qpId

/-- The flow is to have a queue pair of its own. -/
def Alone : FlowRequest → Prop
  | .single .. => True
  | .message _ _ _ _ _ reset => reset = true

instance (request : FlowRequest) : Decidable request.Alone :=
  match request with
  | .single .. => isTrue trivial
  | .message _ _ _ _ _ reset => inferInstanceAs (Decidable (reset = true))

/-- No counter wraps. -/
def Few (requests : List FlowRequest) : Prop :=
  ∀ request ∈ requests, request.asked + requests.length < Word32.size

instance (requests : List FlowRequest) : Decidable (Few requests) :=
  inferInstanceAs (Decidable (∀ request ∈ requests, request.asked + requests.length < Word32.size))

end FlowRequest

namespace Flow

section Numbers

variable {c : FlowCounters} {request : FlowRequest} {requests : List FlowRequest}

structure Fresh (f : Flow) : Prop where
  isTest : f.isTest = false
  finishTime : f.finishTime = 0
  rcvFinishTime : f.rcvFinishTime = 0

structure Made (c : FlowCounters) (request : FlowRequest) : Prop where
  flowId : (make c request).1.flowId = c.flowIndex
  qpId : (make c request).1.qpId < (make c request).2.qpGlobal
  qpGlobal : c.qpGlobal < (make c request).2.qpGlobal
  bound : (make c request).2.qpGlobal ≤ max request.asked c.qpGlobal + 1
  flowIndex : (make c request).2.flowIndex = c.flowIndex + 1
  fresh : (make c request).1.Fresh
  alone : request.Alone → (make c request).1.qpId = c.qpGlobal
  asked : ¬ request.Alone → (make c request).1.qpId = request.asked

theorem make_spec (pairs : max request.asked c.qpGlobal + 1 < Word32.size)
    (numbers : c.flowIndex + 1 < Word32.size) : Made c request := by
  have index : Word32.add c.flowIndex 1 = c.flowIndex + 1 := Word32.add_eq _ _ numbers
  cases request with
  | single src dst size =>
      have next : Word32.add c.qpGlobal 1 = c.qpGlobal + 1 := by
        apply Word32.add_eq
        simp only [FlowRequest.asked, Nat.zero_max] at pairs
        exact pairs
      refine ⟨rfl, ?_, ?_, ?_, index, ⟨rfl, rfl, rfl⟩, fun _ => rfl, fun shares => (shares trivial).elim⟩
      all_goals
        simp only [make, create, next, FlowRequest.asked]
        omega
  | message src dst size qpId msgSeq reset =>
      cases reset with
      | true =>
          have next : Word32.add (max c.qpGlobal c.qpGlobal) 1 = c.qpGlobal + 1 := by
            rw [Nat.max_self]
            apply Word32.add_eq
            simp only [FlowRequest.asked, if_true, Nat.zero_max] at pairs
            exact pairs
          refine ⟨rfl, ?_, ?_, ?_, index, ⟨rfl, rfl, rfl⟩, fun _ => rfl, fun shares => (shares rfl).elim⟩
          all_goals
            simp only [make, createMessage, next, FlowRequest.asked, if_true]
            omega
      | false =>
          have next : Word32.add (max qpId c.qpGlobal) 1 = max qpId c.qpGlobal + 1 := by
            apply Word32.add_eq
            simp only [FlowRequest.asked, Bool.false_eq_true, if_false] at pairs
            exact pairs
          refine ⟨rfl, ?_, ?_, ?_, index, ⟨rfl, rfl, rfl⟩, fun alone => Bool.noConfusion alone,
            fun _ => rfl⟩
          all_goals
            simp only [make, createMessage, next, FlowRequest.asked, Bool.false_eq_true, if_false]
            omega

def Room (c : FlowCounters) (requests : List FlowRequest) : Prop :=
  c.flowIndex + requests.length < Word32.size ∧ c.qpGlobal + requests.length < Word32.size ∧
    FlowRequest.Few requests

theorem Room.cons (room : Room c (request :: requests)) :
    Made c request ∧ Room (make c request).2 requests := by
  obtain ⟨numbers, pairs, few⟩ := room
  have asked := few request List.mem_cons_self
  rw [List.length_cons] at numbers pairs asked
  have made : Made c request := make_spec (by omega) (by omega)
  have bound := made.bound
  refine ⟨made, ?_, ?_, ?_⟩
  · rw [made.flowIndex]
    omega
  · omega
  · intro other member
    have := few other (List.mem_cons_of_mem _ member)
    rw [List.length_cons] at this
    omega

theorem length_generate (c : FlowCounters) (requests : List FlowRequest) :
    (generate c requests).length = requests.length := by
  induction requests generalizing c with
  | nil => rfl
  | cons request rest others => rw [generate, List.length_cons, others, List.length_cons]

theorem generate_flowIds (room : Room c requests) :
    (generate c requests).map Flow.flowId = List.range' c.flowIndex requests.length := by
  induction requests generalizing c with
  | nil => rfl
  | cons request rest others =>
      obtain ⟨made, later⟩ := room.cons
      rw [generate, List.map_cons, made.flowId, others later, made.flowIndex, List.length_cons,
        List.range'_succ]

theorem generate_fresh (room : Room c requests) {f : Flow} (member : f ∈ generate c requests) :
    f.Fresh := by
  induction requests generalizing c with
  | nil => exact absurd member List.not_mem_nil
  | cons request rest others =>
      obtain ⟨made, later⟩ := room.cons
      rw [generate, List.mem_cons] at member
      cases member with
      | inl here =>
          rw [here]
          exact made.fresh
      | inr there => exact others later there

def countersAfter : FlowCounters → List FlowRequest → FlowCounters
  | c, [] => c
  | c, request :: rest => countersAfter (make c request).2 rest

theorem generate_append (c : FlowCounters) (earlier later : List FlowRequest) :
    generate c (earlier ++ later) = generate c earlier ++ generate (countersAfter c earlier) later := by
  induction earlier generalizing c with
  | nil => rfl
  | cons request rest others => rw [List.cons_append, generate, others]; rfl

theorem generate_request (room : Room c requests) {f : Flow} (member : f ∈ generate c requests) :
    ∃ request i, requests[i]? = some request ∧ (generate c requests)[i]? = some f ∧
      f.flowId = c.flowIndex + i := by
  obtain ⟨i, bound, here⟩ := List.mem_iff_getElem.mp member
  have inside : i < requests.length := by rwa [length_generate] at bound
  refine ⟨requests[i], i, List.getElem?_eq_getElem inside, by
    rw [List.getElem?_eq_getElem bound, here], ?_⟩
  have number : ((generate c requests).map Flow.flowId)[i]? = some f.flowId := by
    rw [List.getElem?_map, List.getElem?_eq_getElem bound, here]
    rfl
  rw [generate_flowIds room, List.getElem?_range' inside, Nat.one_mul] at number
  exact (Option.some.inj number).symm

/-- A flow on its own gets a queue pair above all that have been given before, and another the one
that it asks for. -/
theorem generate_pair (room : Room c requests) {i : Nat} {f : Flow} {request : FlowRequest}
    (given : (generate c requests)[i]? = some f) (found : requests[i]? = some request) :
    if request.Alone then c.qpGlobal ≤ f.qpId else f.qpId = request.asked := by
  induction requests generalizing c i with
  | nil => exact absurd given (by simp [generate])
  | cons first rest others =>
      obtain ⟨made, later⟩ := room.cons
      rw [generate] at given
      cases i with
      | zero =>
          rw [List.getElem?_cons_zero] at given found
          rw [← Option.some.inj given, Option.some.inj found.symm]
          split
          · rename_i alone
            exact Nat.le_of_eq (made.alone alone).symm
          · rename_i shares
            exact made.asked shares
      | succ i =>
          rw [List.getElem?_cons_succ] at given found
          have pair := others later given found
          split at pair
          · rename_i alone
            rw [if_pos alone]
            exact Nat.le_trans (Nat.le_of_lt made.qpGlobal) pair
          · rename_i shares
            rwa [if_neg shares]

theorem generate_shared_iff (room : Room c requests) {i j : Nat} {f g : Flow} {request : FlowRequest}
    (lt : i < j) (earlier : (generate c requests)[i]? = some f)
    (given : (generate c requests)[j]? = some g) (found : requests[j]? = some request) :
    f.qpId = g.qpId ↔ ¬ request.Alone ∧ request.asked = f.qpId := by
  induction requests generalizing c i j with
  | nil => exact absurd given (by simp [generate])
  | cons first rest others =>
      obtain ⟨made, later⟩ := room.cons
      rw [generate] at earlier given
      cases j with
      | zero => exact absurd lt (Nat.not_lt_zero i)
      | succ j =>
          rw [List.getElem?_cons_succ] at given found
          cases i with
          | succ i =>
              rw [List.getElem?_cons_succ] at earlier
              exact others later (Nat.lt_of_succ_lt_succ lt) earlier given found
          | zero =>
              rw [List.getElem?_cons_zero] at earlier
              obtain rfl := Option.some.inj earlier
              have pair := generate_pair later given found
              by_cases alone : request.Alone
              · rw [if_pos alone] at pair
                refine iff_of_false ?_ fun both => both.1 alone
                exact Nat.ne_of_lt (Nat.lt_of_lt_of_le made.qpId pair)
              · rw [if_neg alone] at pair
                rw [and_iff_right alone, pair]
                exact eq_comm

theorem generate_pairs (room : Room c requests) (alone : ∀ request ∈ requests, request.Alone) :
    ((generate c requests).map Flow.qpId).Nodup := by
  apply List.pairwise_map.mpr
  apply List.pairwise_iff_getElem.mpr
  intro i j hi hj lt same
  have inside : j < requests.length := by rwa [length_generate] at hj
  have shared := (generate_shared_iff room lt (List.getElem?_eq_getElem hi)
    (List.getElem?_eq_getElem hj) (List.getElem?_eq_getElem inside)).mp same
  exact shared.1 (alone _ (List.getElem_mem inside))

end Numbers

section Generators

variable {requests : List FlowRequest}

theorem room_init (few : requests.length < Word32.size) (asked : FlowRequest.Few requests) :
    Room .init requests :=
  ⟨by simpa [FlowCounters.init] using few, by simpa [FlowCounters.init] using few, asked⟩

theorem nodup_of_subperm {flows all : List Flow} (drawn : flows.Subperm all) {number : Flow → Nat}
    (nodup : (all.map number).Nodup) : (flows.map number).Nodup := by
  obtain ⟨kept, same, part⟩ := drawn
  exact (same.map number).nodup_iff.mp (nodup.sublist (part.map number))

theorem removeTouching_subperm (incastDsts : List Nat) (n : Nat) (flows : List Flow) :
    List.Subperm (removeTouching incastDsts n flows) flows := by
  fun_induction removeTouching incastDsts n flows with
  | case1 flows => exact .refl _
  | case2 => exact .refl _
  | case3 n curr flows clear kept =>
      exact kept.trans (List.perm_append_singleton curr flows).subperm
  | case4 n curr flows touches kept => exact kept.trans (List.sublist_cons_self ..).subperm

/-- `removeTouching` where the queue holds `n` flows of the load before those of the incast. -/
theorem removeTouching_eq (incastDsts : List Nat) (load incast : List Flow) :
    removeTouching incastDsts load.length (load ++ incast) =
      incast ++ load.filter fun f => decide (f.src ∉ incastDsts ∧ f.dst ∉ incastDsts) := by
  induction load generalizing incast with
  | nil => exact (List.append_nil incast).symm
  | cons curr load others =>
      rw [List.length_cons, List.cons_append, removeTouching, List.filter_cons]
      by_cases clear : curr.src ∉ incastDsts ∧ curr.dst ∉ incastDsts
      · rw [if_pos clear, List.append_assoc, others, if_pos (decide_eq_true clear),
          List.append_assoc]
        rfl
      · rw [if_neg clear, others, if_neg (by simpa using clear)]

/-- After the removal the queue holds the flows of the incast, and those of the load that do not touch
a destination of it. -/
theorem mem_removeTouching {load incast : List FlowRequest} (room : Room .init (load ++ incast))
    (incastDsts : List Nat) {f : Flow} :
    f ∈ removeTouching incastDsts load.length (generate .init (load ++ incast)) ↔
      f ∈ generate .init (load ++ incast) ∧
        (f.flowId < load.length → f.src ∉ incastDsts ∧ f.dst ∉ incastDsts) := by
  have numbers := generate_flowIds room
  have start : FlowCounters.init.flowIndex = 0 := rfl
  rw [generate_append, List.map_append, start, List.length_append, ← List.range'_append_1,
    Nat.zero_add] at numbers
  obtain ⟨ofLoad, ofIncast⟩ := List.append_inj numbers (by
    rw [List.length_map, length_generate, List.length_range'])
  have early : ∀ f ∈ generate .init load, f.flowId < load.length := by
    intro f member
    have inside := ofLoad ▸ List.mem_map_of_mem member
    simpa using inside
  have late : ∀ f ∈ generate (countersAfter .init load) incast, load.length ≤ f.flowId := by
    intro f member
    have inside := ofIncast ▸ List.mem_map_of_mem member
    exact (List.mem_range'_1.mp inside).1
  have same := removeTouching_eq incastDsts (generate .init load)
    (generate (countersAfter .init load) incast)
  rw [length_generate] at same
  rw [generate_append, same, List.mem_append, List.mem_append, List.mem_filter, decide_eq_true_iff]
  constructor
  · rintro (incastFlow | ⟨loadFlow, clear⟩)
    · exact ⟨.inr incastFlow, fun below => absurd below (Nat.not_lt.mpr (late f incastFlow))⟩
    · exact ⟨.inl loadFlow, fun _ => clear⟩
  · rintro ⟨loadFlow | incastFlow, clear⟩
    · exact .inr ⟨loadFlow, clear (early f loadFlow)⟩
    · exact .inl incastFlow

/-- A load with an incast: what stays in the queue, and who shares a queue pair there. The flows of
the incast have queue pairs of their own, also where the messages of the load share those of their
connections. -/
theorem queue_pairs_unshared {load incast : List FlowRequest}
    (few : (load ++ incast).length < Word32.size) (asked : FlowRequest.Few (load ++ incast))
    (incastDsts : List Nat) {flows : List Flow}
    (removed : removeTouching incastDsts load.length (generate .init (load ++ incast)) = flows) :
    (∀ f, f ∈ flows ↔ f ∈ generate .init (load ++ incast) ∧
      (f.flowId < load.length → f.src ∉ incastDsts ∧ f.dst ∉ incastDsts)) ∧
    (∀ f ∈ flows, ∀ g ∈ flows, f.flowId < g.flowId →
      (f.qpId = g.qpId ↔ ∃ request, (load ++ incast)[g.flowId]? = some request ∧
        ¬ request.Alone ∧ request.asked = f.qpId)) ∧
    ((∀ request ∈ load ++ incast, request.Alone) → (flows.map Flow.qpId).Nodup) := by
  subst removed
  have room := room_init few asked
  have stays := fun f => @mem_removeTouching load incast room incastDsts f
  refine ⟨stays, fun f member g other lt => ?_, fun alone =>
    nodup_of_subperm (removeTouching_subperm _ _ _) (generate_pairs room alone)⟩
  obtain ⟨-, i, -, earlier, numbered⟩ := generate_request room ((stays f).mp member).1
  obtain ⟨request, j, found, given, numbered'⟩ := generate_request room ((stays g).mp other).1
  have start : FlowCounters.init.flowIndex = 0 := rfl
  rw [start, Nat.zero_add] at numbered numbered'
  rw [generate_shared_iff room (numbered ▸ numbered' ▸ lt) earlier given found, numbered', found]
  simp

/-- Three messages of the load, of which one meets the incast and two share a connection, and two
flows of the incast. -/
def mixedLoad : List FlowRequest :=
  [.message 0 4 1000 7 0 false, .message 0 5 1000 8 0 false, .message 0 5 1000 8 1 false]

def mixedIncast : List FlowRequest := [.single 1 4 2000, .single 2 4 2000]

theorem queue_pairs_unshared_incast :
    ∃ flows : List Flow, flows.map (fun f => (f.flowId, f.qpId)) = [(3, 10), (4, 11), (1, 8), (2, 8)] ∧
      ∀ f ∈ flows, ∀ g ∈ flows, f.flowId < g.flowId →
        (f.qpId = g.qpId ↔ ∃ request, (mixedLoad ++ mixedIncast)[g.flowId]? = some request ∧
          ¬ request.Alone ∧ request.asked = f.qpId) :=
  ⟨_, by decide, (queue_pairs_unshared (by decide) (by decide) [4]
    (Eq.refl (removeTouching [4] mixedLoad.length (generate .init (mixedLoad ++ mixedIncast))))).2.1⟩

end Generators

end Flow

end Floodgate
