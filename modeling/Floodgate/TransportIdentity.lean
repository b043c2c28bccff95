import Floodgate.Library.LabelledRun
import Floodgate.RdmaFlow
import Floodgate.Settings

/-! How hosts tell flows apart outside `qp_mode`: the port numbers that flows are given and the keys
under which the two ends of a flow are looked up. -/

namespace Floodgate

open LabelledRun

/-- A flow as it is read or generated. -/
structure FlowSpec where
  src : Nat
  dst : Nat
  src_lt : src < nodeScale

/-- A flow with the source port of its client. -/
structure PortedFlow where
  src : Nat
  dst : Nat
  sport : Nat

namespace Transport

/-- The priority group and the destination port of every flow. -/
def pg : Nat := 3

def dport : Nat := 100

def serverAddress (i : Nat) : Nat :=
  Word32.trunc (184549377 + i / 256 * 65536 + i % 256 * 256)

/-- The loop over the flows with the counters `portNumder`, of type `uint16_t`. -/
def assignPorts : (Nat → Nat) → List FlowSpec → List PortedFlow
  | _, [] => []
  | portNumder, spec :: rest =>
      ⟨spec.src, spec.dst, portNumder spec.src⟩ ::
        assignPorts
          (fun host => if host = spec.src then (portNumder host + 1) % 65536 else portNumder host)
          rest

/-- The flows of a simulation. Each host uses port numbers from 10000. -/
def flows (specs : List FlowSpec) : List PortedFlow := assignPorts (fun _ => 10000) specs

def getQpKey (sport pg : Nat) : Nat := sport <<< 16 ||| pg

def getRxQpKey (dip dport pg : Nat) : Nat := dip <<< 32 ||| pg <<< 16 ||| dport

end Transport

/-- The maps of all hosts. A queue pair stands for the flow that it was made for, at either end;
`data` and `acks` are the packets ever sent with their flows, `heard` the flows that have arrived. -/
structure Transport where
  started : List Nat
  qpMap : Nat → Nat → Option Nat
  rxQpMap : Nat → Nat → Option Nat
  rxQp : Nat → RdmaRxQueuePair
  heard : List Nat
  data : List (Nat × DataPacket)
  acks : List (Nat × AckPacket)

/-- `owner` is the flow whose queue pair a data packet is handled with, which was `before`; `found`
is the flow whose queue pair an acknowledgement is applied to. -/
inductive TransportEvent where
  | start (flow : Nat)
  | send (flow : Nat) (p : DataPacket)
  | data (flow : Nat) (p : DataPacket) (owner : Nat) (before : RdmaRxQueuePair)
  | ack (flow : Nat) (a : AckPacket) (found : Option Nat)

namespace Transport

def init : Transport :=
  ⟨[], fun _ _ => none, fun _ _ => none, fun _ => RdmaRxQueuePair.init, [], [], []⟩

def getQp (s : Transport) (host sport pg : Nat) : Option Nat := s.qpMap host (getQpKey sport pg)

def addQueuePair (s : Transport) (flow host sport pg : Nat) : Transport :=
  { s with
    started := flow :: s.started
    qpMap := fun h key =>
      if h = host ∧ key = getQpKey sport pg then some flow else s.qpMap h key }

/-- `GetRxQp`, where `create` is true. A new queue pair is made for the flow of the packet. -/
def getRxQp (s : Transport) (host dip dport pg flow : Nat) : Nat × Transport :=
  match s.rxQpMap host (getRxQpKey dip dport pg) with
  | some owner => (owner, s)
  | none =>
      (flow,
        { s with
          rxQpMap := fun h key =>
            if h = host ∧ key = getRxQpKey dip dport pg then some flow else s.rxQpMap h key
          rxQp := fun owner => if owner = flow then RdmaRxQueuePair.init else s.rxQp owner })

def receiveUdp (g : RdmaSettings) (now : Nat) (s : Transport) (flow : Nat) (f : PortedFlow)
    (p : DataPacket) : Nat × RdmaRxQueuePair × Transport :=
  let found := s.getRxQp f.dst (serverAddress f.src) f.sport pg flow
  let before := found.2.rxQp found.1
  let handled := RdmaHw.receiveUdp g now before p
  (found.1, before,
    { found.2 with
      rxQp := fun owner => if owner = found.1 then handled.2 else found.2.rxQp owner
      heard := flow :: s.heard
      acks := s.acks ++ handled.1.toList.map fun a => (flow, a) })

/-- Flows start in any order, and whatever has been sent may arrive at any time and any number of
times. An acknowledgement goes to the source address and port of the data. -/
inductive Step (g : RdmaSettings) (flows : List PortedFlow) (s : Transport) :
    TransportEvent → Transport → Prop
  | start {flow : Nat} {f : PortedFlow} (listed : flows[flow]? = some f)
      (fresh : flow ∉ s.started) :
      Step g flows s (.start flow) (s.addQueuePair flow f.src f.sport pg)
  | send {flow : Nat} (p : DataPacket) (running : flow ∈ s.started) :
      Step g flows s (.send flow p) { s with data := (flow, p) :: s.data }
  | data {now flow : Nat} {f : PortedFlow} {p : DataPacket} (listed : flows[flow]? = some f)
      (sent : (flow, p) ∈ s.data) :
      Step g flows s
        (.data flow p (receiveUdp g now s flow f p).1 (receiveUdp g now s flow f p).2.1)
        (receiveUdp g now s flow f p).2.2
  | ack {flow : Nat} {f : PortedFlow} {a : AckPacket} (listed : flows[flow]? = some f)
      (sent : (flow, a) ∈ s.acks) :
      Step g flows s (.ack flow a (s.getQp f.src f.sport pg)) s

/-- Data are handled with a queue pair of their own, new for the first of them, and acknowledgements
applied to the queue pair of the flow that sent the data. -/
def Identified (s : Transport) : TransportEvent → Prop
  | .data flow _ owner before =>
      owner = flow ∧
        (flow ∉ s.heard → before.receiverNextExpectedSeq = 0 ∧ before.receivedPsn = ∅)
  | .ack flow _ found => found = some flow
  | _ => True

section Keys

theorem getQpKey_inj {sport sport' : Nat} (same : getQpKey sport pg = getQpKey sport' pg) :
    sport = sport' := by
  have shifted := congrArg (· >>> 16) same
  simpa [getQpKey, Nat.shiftRight_or_distrib, pg, Nat.shiftLeft_shiftRight] using shifted

theorem getRxQpKey_dip {dip port : Nat} (small : port < 65536) :
    getRxQpKey dip port pg >>> 32 = dip := by
  have low : port >>> 32 = 0 := by
    rw [Nat.shiftRight_eq_div_pow]
    omega
  unfold getRxQpKey pg
  rw [Nat.shiftRight_or_distrib, Nat.shiftRight_or_distrib, Nat.shiftLeft_shiftRight, low]
  simp

theorem getRxQpKey_port {dip port : Nat} (small : port < 65536) :
    getRxQpKey dip port pg % 2 ^ 16 = port := by
  have high : dip <<< 32 % 2 ^ 16 = 0 := by
    rw [Nat.shiftLeft_eq]
    omega
  have low : port % 2 ^ 16 = port := by omega
  unfold getRxQpKey pg
  rw [Nat.or_mod_two_pow, Nat.or_mod_two_pow, high, low]
  simp

theorem getRxQpKey_inj {dip dip' port port' : Nat} (small : port < 65536) (small' : port' < 65536)
    (same : getRxQpKey dip port pg = getRxQpKey dip' port' pg) : dip = dip' ∧ port = port' := by
  have dips := congrArg (· >>> 32) same
  have ports := congrArg (· % 2 ^ 16) same
  simp only [getRxQpKey_dip small, getRxQpKey_dip small', getRxQpKey_port small,
    getRxQpKey_port small'] at dips ports
  exact ⟨dips, ports⟩

theorem serverAddress_inj {i j : Nat} (first : i < nodeScale) (second : j < nodeScale)
    (same : serverAddress i = serverAddress j) : i = j := by
  unfold nodeScale at first second
  unfold serverAddress Word32.trunc at same
  omega

end Keys

section Ports

def before (specs : List FlowSpec) (host i : Nat) : Nat :=
  (specs.take i).countP fun spec => decide (spec.src = host)

theorem assignPorts_get (portNumder : Nat → Nat) (small : ∀ host, portNumder host < 65536)
    (specs : List FlowSpec) (i : Nat) :
    (assignPorts portNumder specs)[i]? = specs[i]?.map fun spec =>
      ⟨spec.src, spec.dst, (portNumder spec.src + before specs spec.src i) % 65536⟩ := by
  induction specs generalizing portNumder i with
  | nil => simp [assignPorts]
  | cons first rest ih =>
      cases i with
      | zero =>
          have fits := small first.src
          simp only [assignPorts, List.getElem?_cons_zero, Option.map_some, before, List.take_zero,
            List.countP_nil, Nat.add_zero, Nat.mod_eq_of_lt fits]
      | succ i =>
          have wraps : ∀ host, (if host = first.src then (portNumder host + 1) % 65536
              else portNumder host) < 65536 := by
            intro host
            split
            · exact Nat.mod_lt _ (by decide)
            · exact small host
          simp only [assignPorts, List.getElem?_cons_succ]
          rw [ih _ wraps]
          cases rest[i]? with
          | none => rfl
          | some spec =>
              simp only [Option.map_some, before, List.take_succ_cons, List.countP_cons,
                Option.some.injEq, PortedFlow.mk.injEq, true_and]
              by_cases here : spec.src = first.src
              · simp only [here, if_true, decide_true]
                omega
              · have other : ¬ first.src = spec.src := fun same => here same.symm
                simp only [here, other, if_false, decide_false, Bool.false_eq_true, Nat.add_zero]

theorem flows_get (specs : List FlowSpec) (i : Nat) :
    (flows specs)[i]? = specs[i]?.map fun spec =>
      ⟨spec.src, spec.dst, (10000 + before specs spec.src i) % 65536⟩ :=
  assignPorts_get _ (fun _ => by decide) specs i

theorem exists_before (specs : List FlowSpec) (host n : Nat)
    (many : n < specs.countP fun spec => decide (spec.src = host)) :
    ∃ i spec, specs[i]? = some spec ∧ spec.src = host ∧ before specs host i = n := by
  induction specs generalizing n with
  | nil => simp at many
  | cons first rest ih =>
      rw [List.countP_cons] at many
      by_cases here : first.src = host
      · cases n with
        | zero => exact ⟨0, first, rfl, here, rfl⟩
        | succ n =>
            simp only [here, decide_true, if_true] at many
            obtain ⟨i, spec, listed, own, count⟩ := ih n (by omega)
            refine ⟨i + 1, spec, listed, own, ?_⟩
            simp only [before, List.take_succ_cons, List.countP_cons, here, decide_true, if_true]
            exact congrArg (· + 1) count
      · simp only [here, decide_false, Bool.false_eq_true, if_false] at many
        obtain ⟨i, spec, listed, own, count⟩ := ih n (by omega)
        refine ⟨i + 1, spec, listed, own, ?_⟩
        simp only [before, List.take_succ_cons, List.countP_cons, here, decide_false,
          Bool.false_eq_true, if_false]
        exact count

theorem before_lt {specs : List FlowSpec} {host i j : Nat} {spec : FlowSpec}
    (listed : specs[i]? = some spec) (own : spec.src = host) (order : i < j) :
    before specs host i < before specs host j := by
  have inside := List.getElem?_eq_some_iff.mp listed
  obtain ⟨small, same⟩ := inside
  have further : before specs host (i + 1) = before specs host i + 1 := by
    unfold before
    rw [List.take_add_one, listed, List.countP_append]
    simp [own]
  have monotone : before specs host (i + 1) ≤ before specs host j := by
    unfold before
    exact List.Sublist.countP_le (List.take_sublist_take_left (by omega))
  omega

theorem before_le (specs : List FlowSpec) (host i : Nat) :
    before specs host i ≤ specs.countP fun spec => decide (spec.src = host) :=
  List.Sublist.countP_le (List.take_sublist _ _)

/-- No host has more flows than there are port numbers. -/
def FewFlows (specs : List FlowSpec) : Prop :=
  ∀ host, (specs.countP fun spec => decide (spec.src = host)) ≤ 65536

theorem flows_bounds {specs : List FlowSpec} {i : Nat} {f : PortedFlow}
    (listed : (flows specs)[i]? = some f) : f.src < nodeScale ∧ f.sport < 65536 := by
  rw [flows_get] at listed
  obtain ⟨spec, _, rfl⟩ := Option.map_eq_some_iff.mp listed
  exact ⟨spec.src_lt, Nat.mod_lt _ (by decide)⟩

theorem FewFlows.distinct {specs : List FlowSpec} (few : FewFlows specs) {i j : Nat}
    {f f' : PortedFlow} (first : (flows specs)[i]? = some f) (second : (flows specs)[j]? = some f')
    (host : f.src = f'.src) (port : f.sport = f'.sport) : i = j := by
  rw [flows_get] at first second
  obtain ⟨spec, one, rfl⟩ := Option.map_eq_some_iff.mp first
  obtain ⟨spec', two, rfl⟩ := Option.map_eq_some_iff.mp second
  simp only at host port
  rw [host] at port
  have limit := few spec'.src
  rcases Nat.lt_trichotomy i j with less | same | more
  · have order := before_lt one host less
    have bound := (before_lt two rfl (Nat.lt_succ_self j)).trans_le (before_le _ _ _)
    omega
  · exact same
  · have order := before_lt two rfl more
    have bound := (before_lt one host (Nat.lt_succ_self i)).trans_le (before_le _ _ _)
    omega

end Ports

section Runs

variable {g : RdmaSettings} {specs : List FlowSpec} {s next : Transport}

structure Sound (flows : List PortedFlow) (s : Transport) : Prop where
  qp : ∀ i ∈ s.started, ∀ f, flows[i]? = some f → s.getQp f.src f.sport pg = some i
  data : ∀ sent ∈ s.data, sent.1 ∈ s.started
  acks : ∀ sent ∈ s.acks, sent.1 ∈ s.started
  rx : ∀ host key i, s.rxQpMap host key = some i →
    i ∈ s.heard ∧ ∃ f, flows[i]? = some f ∧ key = getRxQpKey (serverAddress f.src) f.sport pg

theorem sound_init : Sound (flows specs) init :=
  ⟨by simp [init], by simp [init], by simp [init], by simp [init]⟩

theorem Sound.own (sound : Sound (flows specs) s) (few : FewFlows specs) {i : Nat} {f : PortedFlow}
    (listed : (flows specs)[i]? = some f) :
    (s.getRxQp f.dst (serverAddress f.src) f.sport pg i).1 = i ∧
      (i ∉ s.heard → (s.getRxQp f.dst (serverAddress f.src) f.sport pg i).2.rxQp i =
        RdmaRxQueuePair.init) := by
  obtain ⟨src, sport⟩ := flows_bounds listed
  unfold getRxQp
  cases found : s.rxQpMap f.dst (getRxQpKey (serverAddress f.src) f.sport pg) with
  | none => exact ⟨rfl, fun _ => if_pos rfl⟩
  | some owner =>
      obtain ⟨heard, f', listed', key⟩ := sound.rx _ _ _ found
      obtain ⟨src', sport'⟩ := flows_bounds listed'
      obtain ⟨address, port⟩ := getRxQpKey_inj sport sport' key
      have same := few.distinct listed listed' (serverAddress_inj src src' address) port
      subst same
      exact ⟨rfl, fun unheard => absurd heard unheard⟩

theorem Sound.step (sound : Sound (flows specs) s) (few : FewFlows specs) {label : TransportEvent}
    (step : Step g (flows specs) s label next) : Identified s label ∧ Sound (flows specs) next := by
  cases step with
  | @start i f listed fresh =>
      refine ⟨trivial, ?_, ?_, ?_, sound.rx⟩
      · intro j running f' listed'
        unfold getQp addQueuePair
        simp only
        by_cases same : f'.src = f.src ∧ getQpKey f'.sport pg = getQpKey f.sport pg
        · rw [if_pos same, few.distinct listed listed' same.1.symm (getQpKey_inj same.2).symm]
        · rw [if_neg same]
          rcases List.mem_cons.mp running with rfl | earlier
          · rw [listed] at listed'
            obtain rfl := Option.some.inj listed'
            exact absurd ⟨rfl, rfl⟩ same
          · exact sound.qp j earlier f' listed'
      · exact fun sent member => List.mem_cons_of_mem _ (sound.data sent member)
      · exact fun sent member => List.mem_cons_of_mem _ (sound.acks sent member)
  | send p running =>
      refine ⟨trivial, sound.qp, fun sent member => ?_, sound.acks, sound.rx⟩
      rcases List.mem_cons.mp member with rfl | earlier
      · exact running
      · exact sound.data sent earlier
  | @data now i f p listed sent =>
      obtain ⟨own, fresh⟩ := sound.own few listed
      have kept : (s.getRxQp f.dst (serverAddress f.src) f.sport pg i).2.started = s.started ∧
          (s.getRxQp f.dst (serverAddress f.src) f.sport pg i).2.qpMap = s.qpMap ∧
          (s.getRxQp f.dst (serverAddress f.src) f.sport pg i).2.data = s.data := by
        unfold getRxQp
        split
        · exact ⟨rfl, rfl, rfl⟩
        · exact ⟨rfl, rfl, rfl⟩
      refine ⟨⟨own, fun unheard => ?_⟩, ?_, ?_, ?_, ?_⟩
      · unfold receiveUdp
        simp only [own, fresh unheard]
        exact ⟨rfl, rfl⟩
      · intro j running f' listed'
        unfold receiveUdp getQp at *
        simp only [kept] at *
        exact sound.qp j running f' listed'
      · unfold receiveUdp
        simp only [kept]
        exact sound.data
      · unfold receiveUdp
        simp only [kept]
        intro other member
        rcases List.mem_append.mp member with earlier | new
        · exact sound.acks other earlier
        · obtain ⟨a, -, rfl⟩ := List.mem_map.mp new
          exact sound.data _ sent
      · intro host key j found
        have entry : s.rxQpMap host key = some j ∨
            j = i ∧ key = getRxQpKey (serverAddress f.src) f.sport pg := by
          unfold receiveUdp getRxQp at found
          cases old : s.rxQpMap f.dst (getRxQpKey (serverAddress f.src) f.sport pg) with
          | some owner =>
              simp only [old] at found
              exact .inl found
          | none =>
              simp only [old] at found
              split at found
              · rename_i here
                exact .inr ⟨(Option.some.inj found).symm, here.2⟩
              · exact .inl found
        rcases entry with earlier | ⟨rfl, here⟩
        · obtain ⟨heard, owner⟩ := sound.rx _ _ _ earlier
          exact ⟨List.mem_cons_of_mem _ heard, owner⟩
        · exact ⟨List.mem_cons_self, f, listed, here⟩
  | ack listed sent => exact ⟨sound.qp _ (sound.acks _ sent) _ listed, sound⟩

theorem receiveUdp_fresh {now flow : Nat} {f : PortedFlow} {p : DataPacket}
    (fresh : s.rxQpMap f.dst (getRxQpKey (serverAddress f.src) f.sport pg) = none) :
    (receiveUdp g now s flow f p).2.2.acks = s.acks ++
      (RdmaHw.receiveUdp g now RdmaRxQueuePair.init p).1.toList.map fun a => (flow, a) := by
  unfold receiveUdp getRxQp
  rw [fresh]
  simp only [if_true]

/-- Two flows with one port: the queue pair of the later one answers for the earlier. -/
theorem shared_port {i j : Nat} {f f' : PortedFlow} (first : (flows specs)[i]? = some f)
    (second : (flows specs)[j]? = some f') (host : f.src = f'.src) (port : f.sport = f'.sport)
    (apart : i ≠ j) (interval : g.ackInterval < Word32.size) :
    ¬ ∀ entries s, Run (Traced (Step g (flows specs))) init entries s →
      ∀ entry ∈ entries, Identified entry.1 entry.2 := by
  intro claim
  obtain ⟨p, made⟩ : ∃ p : DataPacket, p = ⟨0, g.ackInterval, 0, 0, 0, false⟩ := ⟨_, rfl⟩
  obtain ⟨a, answer⟩ : ∃ a, (RdmaHw.receiveUdp g 0 RdmaRxQueuePair.init p).1 = some a := by
    have next : Word32.add 0 g.ackInterval = g.ackInterval := by
      rw [Word32.add_eq _ _ (by omega), Nat.zero_add]
    have verdict : (RdmaHw.receiverCheckSeq g 0
        { RdmaRxQueuePair.init with milestoneRx := g.ackInterval } 0 g.ackInterval).1 = 1 := by
      unfold RdmaHw.receiverCheckSeq
      simp [RdmaRxQueuePair.init, next]
    rw [made]
    unfold RdmaHw.receiveUdp
    simp [verdict]
  have begun : Run (Traced (Step g (flows specs))) init _ _ :=
    Run.nil.told (Step.start first List.not_mem_nil)
  have sent := begun.told (Step.send p List.mem_cons_self)
  have arrived := sent.told (@Step.data g _ _ 0 i f p first List.mem_cons_self)
  have replaced := arrived.told (Step.start second fun running =>
    apart (List.mem_singleton.mp running).symm)
  have acked := replaced.told (@Step.ack g _ _ i f a first (by
    change (i, a) ∈ (receiveUdp g 0 _ i f p).2.2.acks
    rw [receiveUdp_fresh rfl, answer]
    exact List.mem_append_right _ List.mem_cons_self))
  have found := claim _ _ acked _ (List.mem_append_right _ List.mem_cons_self)
  simp only [Identified, getQp, addQueuePair, host, port, and_self, if_true] at found
  exact apart (Option.some.inj found).symm

/-- The two ends of every flow are its own, in all runs, exactly if no host has more than 65536
flows. -/
theorem flows_identified (g : RdmaSettings) (interval : g.ackInterval < Word32.size)
    (specs : List FlowSpec) :
    (∀ entries s, Run (Traced (Step g (flows specs))) init entries s →
      ∀ entry ∈ entries, Identified entry.1 entry.2) ↔
      ∀ host, (specs.countP fun spec => decide (spec.src = host)) ≤ 65536 := by
  constructor
  · intro claim host
    by_contra many
    obtain ⟨i, spec, one, own, none⟩ := exists_before specs host 0 (by omega)
    obtain ⟨j, spec', two, own', all⟩ := exists_before specs host 65536 (by omega)
    have first := flows_get specs i
    have second := flows_get specs j
    simp only [one, Option.map_some, own, none] at first
    simp only [two, Option.map_some, own', all] at second
    refine shared_port first second rfl rfl ?_ interval claim
    rintro rfl
    omega
  · intro few entries s run
    have sound := run.holds_along (Sound (flows specs)) (fun _ _ => True) sound_init
      (fun _ _ _ sound _ step => (sound.step few step).2) fun _ _ => trivial
    intro entry member
    obtain ⟨after, step⟩ := run.taken entry member
    exact ((sound.1 entry member).step few step).1

/-- Two hosts with a flow each to the third. -/
theorem flows_identified_two_hosts :
    (∀ entries s, Run (Traced (Step RdmaFlow.singlePath
      (flows [⟨0, 2, by decide⟩, ⟨1, 2, by decide⟩]))) init entries s →
      ∀ entry ∈ entries, Identified entry.1 entry.2) ↔
      ∀ host, ([⟨0, 2, by decide⟩, ⟨1, 2, by decide⟩].countP
        fun spec : FlowSpec => decide (spec.src = host)) ≤ 65536 :=
  flows_identified RdmaFlow.singlePath (by decide) [⟨0, 2, by decide⟩, ⟨1, 2, by decide⟩]

/-- Host 0 starts 65537 flows, the last of them with the port of the first. -/
theorem wrapped_port_answers_for_another : ¬ ∀ (g : RdmaSettings), g.ackInterval < Word32.size →
    ∀ specs entries s, Run (Traced (Step g (flows specs))) init entries s →
      ∀ entry ∈ entries, Identified entry.1 entry.2 := by
  intro claim
  obtain ⟨specs, all⟩ : ∃ specs : List FlowSpec,
      specs = List.replicate 65537 ⟨0, 1, by decide⟩ := ⟨_, rfl⟩
  have many : (specs.countP fun spec => decide (spec.src = 0)) = 65537 := by
    rw [all, List.countP_replicate]
    rfl
  obtain ⟨i, spec, one, own, none⟩ := exists_before specs 0 0 (by omega)
  obtain ⟨j, spec', two, own', last⟩ := exists_before specs 0 65536 (by omega)
  have first := flows_get specs i
  have second := flows_get specs j
  simp only [one, Option.map_some, own, none] at first
  simp only [two, Option.map_some, own', last] at second
  refine shared_port first second rfl rfl ?_ (by decide : RdmaFlow.singlePath.ackInterval < _)
    (claim RdmaFlow.singlePath (by decide) specs)
  rintro rfl
  omega

end Runs

end Transport

end Floodgate
