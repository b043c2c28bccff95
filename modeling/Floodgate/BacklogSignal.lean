import Floodgate.Rerouting

/-! The queue length that a switch tells HPCC. -/

namespace Floodgate

open Std LabelledRun

def serverAddress (i : Nat) : Nat := 0x0b000001 + i / 256 * 0x00010000 + i % 256 * 0x00000100

theorem hostNum_lt_serverAddress (g : Settings) (i : Nat) : g.hostNum < serverAddress i := by
  have few := g.hostNum_le
  unfold nodeScale at few
  unfold serverAddress
  omega

namespace SwitchNode

section Push

variable (c : SwitchNodeConfig) (s : SwitchNode) (ifIndex qIndex : Nat) (p : Packet)

/-- The test for the flows that consider the bytes in VOQs, with `ch.dip` of the packet. -/
def considersVoq : Bool :=
  c.useFloodgate && decide (s.upstream.getBufferDst (serverAddress p.dip) > 0)

def pushedQlen : Nat :=
  if s.considersVoq c p then s.admission.egressBytes ifIndex qIndex
  else (s.device ifIndex).queue.bytesInQueueTotal

/-- VOQs hold bytes for a destination. -/
def Backlogged (dst : Nat) : Prop := ∃ voq, ∃ unit ∈ s.upstream.voqPackets voq, unit.dst = dst

structure SeesBacklog : Prop where
  branch : s.considersVoq c p = true ↔ s.Backlogged p.dip
  counted : s.considersVoq c p = true ↔ 0 < s.upstream.getBufferDst p.dip
  congested : s.Backlogged p.dip → s.pushedQlen c ifIndex qIndex p =
    s.admission.egressBytes ifIndex qIndex
  free : ¬ s.Backlogged p.dip → s.pushedQlen c ifIndex qIndex p =
    (s.device ifIndex).queue.bytesInQueueTotal

end Push

/-- What the data packet that leaves a port is told, once it has been accounted for. -/
def TellsBacklog (c : SwitchNodeConfig) (s : SwitchNode) (event : NodeEvent) : Prop :=
  ∀ ifIndex p qIndex queue, event = .transmit ifIndex →
    (s.device ifIndex).queue.dequeueRR (c.device ifIndex) (s.device ifIndex).paused =
      some (p, qIndex, queue) → p.isUdp = true →
    SeesBacklog c ((s.taken ifIndex queue).depart c (p.flowId.getD 0) ifIndex qIndex p) ifIndex
      qIndex p

/-- No VOQ holds bytes for the destination of the data packet that leaves. -/
def LeavesUnbuffered (c : SwitchNodeConfig) (s : SwitchNode) (event : NodeEvent) : Prop :=
  ∀ ifIndex p qIndex queue, event = .transmit ifIndex →
    (s.device ifIndex).queue.dequeueRR (c.device ifIndex) (s.device ifIndex).paused =
      some (p, qIndex, queue) → p.isUdp = true → ¬ s.Backlogged p.dip

section Signal

variable {c : SwitchNodeConfig} {s : SwitchNode}

/-- The test fails for every packet: `m_buffering` has the numbers of hosts as keys. -/
theorem Places.considersVoq (places : Places c s) (p : Packet) :
    s.considersVoq c p = false := by
  have nothing : s.upstream.getBufferDst (serverAddress p.dip) = 0 := by
    apply places.counted.none
    intro voq unit member same
    obtain ⟨-, host, placed⟩ := places.units voq unit member
    have known := placed.host
    have far := hostNum_lt_serverAddress c.settings p.dip
    omega
  unfold SwitchNode.considersVoq
  rw [nothing]
  exact Bool.and_false _

theorem Places.seesBacklog_iff (places : Places c s) (ifIndex qIndex : Nat) (p : Packet) :
    SeesBacklog c s ifIndex qIndex p ↔ ¬ s.Backlogged p.dip := by
  have dead := places.considersVoq p
  constructor
  · intro sees backlogged
    have taken := sees.branch.mpr backlogged
    rw [dead] at taken
    contradiction
  · intro free
    have nothing : s.upstream.getBufferDst p.dip = 0 :=
      places.counted.none fun voq unit member same => free ⟨voq, unit, member, same⟩
    refine ⟨?_, ?_, fun backlogged => absurd backlogged free, fun _ => ?_⟩
    · rw [dead]
      exact ⟨fun taken => absurd taken Bool.false_ne_true, fun backlogged => absurd backlogged free⟩
    · rw [dead, nothing]
      exact ⟨fun taken => absurd taken Bool.false_ne_true, fun more => absurd more (Nat.lt_irrefl 0)⟩
    · unfold pushedQlen
      rw [dead, if_neg Bool.false_ne_true]

theorem Places.departed (places : Places c s) {ifIndex qIndex : Nat} {p : Packet}
    {queue : BEgressQueue}
    (served : (s.device ifIndex).queue.dequeueRR (c.device ifIndex) (s.device ifIndex).paused =
      some (p, qIndex, queue)) :
    Places c ((s.taken ifIndex queue).depart c (p.flowId.getD 0) ifIndex qIndex p) := by
  have taken := (places.taken (BEgressQueue.dequeueRR_dequeues served)).1
  obtain ⟨device, upstream, _⟩ :=
    discharged_same c (s.taken ifIndex queue) (p.flowId.getD 0) ifIndex qIndex p
  exact ((taken.same device upstream).1.signals (depart_signals c _ _ _ _ p)).1

theorem Places.tellsBacklog_iff (places : Places c s) (event : NodeEvent) :
    s.TellsBacklog c event ↔ s.LeavesUnbuffered c event := by
  have each : ∀ ifIndex p qIndex queue,
      (s.device ifIndex).queue.dequeueRR (c.device ifIndex) (s.device ifIndex).paused =
        some (p, qIndex, queue) →
      (SeesBacklog c ((s.taken ifIndex queue).depart c (p.flowId.getD 0) ifIndex qIndex p) ifIndex
        qIndex p ↔ ¬ s.Backlogged p.dip) := by
    intro ifIndex p qIndex queue served
    rw [(places.departed served).seesBacklog_iff]
    unfold Backlogged
    rw [depart_upstream]
    rfl
  constructor
  · intro tells ifIndex p qIndex queue leaves served data
    exact (each ifIndex p qIndex queue served).mp (tells ifIndex p qIndex queue leaves served data)
  · intro free ifIndex p qIndex queue leaves served data
    exact (each ifIndex p qIndex queue served).mpr (free ifIndex p qIndex queue leaves served data)

/-- In a run every data packet is told of the backlog of its destination exactly when there is
none. -/
theorem backlog_told_iff (c : SwitchNodeConfig)
    (entries : List (SwitchNode × NodeEvent × Option Packet)) (s : SwitchNode)
    (run : Run (Traced (Step c)) (init c) entries s) :
    (∀ entry ∈ entries, entry.1.TellsBacklog c entry.2.1) ↔
      ∀ entry ∈ entries, entry.1.LeavesUnbuffered c entry.2.1 := by
  have places := (run.holds_along (Places c) (fun _ _ => True) (Places.init c)
    (fun _ _ _ places _ step => places.handled step) fun _ _ => trivial).1
  constructor
  · exact fun tells entry member => ((places entry member).tellsBacklog_iff _).mp (tells entry member)
  · exact fun free entry member => ((places entry member).tellsBacklog_iff _).mpr (free entry member)

end Signal

section Examples

open RoutedSwitch

theorem leaving_run {entries : List (SwitchNode × NodeEvent × Option Packet)} {node : SwitchNode}
    (run : Run (Traced (Step oneWindow)) (init oneWindow) entries node)
    (succeeds : (node.handle oneWindow id (.transmit 2)).isOk = true) :
    ∃ out after, Run (Traced (Step oneWindow)) (init oneWindow)
      (entries ++ [(node, .transmit 2, out)]) after := by
  obtain ⟨out, step⟩ := @next_step node (.transmit 2) (by decide : 2 < 4) succeeds
  exact ⟨out, _, run.told step⟩

theorem sent_run : ∃ out, Run (Traced (Step oneWindow)) (init oneWindow)
    [(init oneWindow, .receive 1 (some 2) kiloPacket, out)] sentNode := by
  obtain ⟨out, step⟩ := @next_step (init oneWindow) _ (@kilo_valid 2 (by decide)) (by decide +kernel)
  exact ⟨out, Run.nil.told step⟩

/-- A packet for host 2 leaves while one for host 1 waits for its window. -/
def otherBacklog : List NodeEvent :=
  [.receive 1 (some 2) kiloPacket, .receive 1 (some 2) kiloPacket,
    .receive 1 (some 3) { kiloPacket with dip := 2 }, .transmit 3]

theorem backlog_told_other_host :
    ∃ (entries : List (SwitchNode × NodeEvent × Option Packet)) (s : SwitchNode),
      entries.map (fun entry => entry.2.1) = otherBacklog ∧
      ((∀ entry ∈ entries, entry.1.TellsBacklog roomySwitch entry.2.1) ↔
        ∀ entry ∈ entries, entry.1.LeavesUnbuffered roomySwitch entry.2.1) ∧ s.Backlogged 1 := by
  have evaluated : executes (takes roomySwitch) (SwitchNode.next roomySwitch) (init roomySwitch)
        otherBacklog = true ∧
      ((otherBacklog.foldl (SwitchNode.next roomySwitch) (init roomySwitch)).upstream.voqPackets
        (0, 1)).any (fun unit => unit.dst = 1) = true := by
    decide +kernel
  obtain ⟨works, waits⟩ := evaluated
  have same : (labelled roomySwitch (init roomySwitch) otherBacklog).map Prod.fst = otherBacklog := rfl
  have run := labelled_run (fun _ => Rat.le_refl) otherBacklog (fun _ => rfl) works
  obtain ⟨entries, traced, told⟩ := (run.mono fun _ _ _ bounded => bounded.1).traced
  obtain ⟨unit, member, target⟩ := List.any_eq_true.mp waits
  refine ⟨entries, _, ?_, backlog_told_iff roomySwitch entries _ traced,
    (0, 1), unit, member, of_decide_eq_true target⟩
  rw [← same, ← told, List.map_map]
  rfl

theorem congested_head : ∃ p queue,
    (congestedNode.device 2).queue.dequeueRR (oneWindow.device 2) (congestedNode.device 2).paused =
      some (p, 3, queue) ∧ p.isUdp = true ∧ p.dip = 1 := by
  have head : ((congestedNode.device 2).queue.dequeueRR (oneWindow.device 2)
      (congestedNode.device 2).paused).elim false
        (fun served => served.1.isUdp && decide (served.1.dip = 1 ∧ served.2.1 = 3)) = true := by
    decide +kernel
  cases served : (congestedNode.device 2).queue.dequeueRR (oneWindow.device 2)
      (congestedNode.device 2).paused with
  | none => simp [served] at head
  | some found =>
      obtain ⟨p, qIndex, queue⟩ := found
      rw [served] at head
      obtain ⟨data, rest⟩ := Bool.and_eq_true_iff.mp head
      obtain ⟨target, queueNumber⟩ := of_decide_eq_true rest
      exact ⟨p, queue, by rw [← queueNumber], data, target⟩

/-- A packet leaves while another one for the same host waits in a VOQ, and is not told of it. -/
theorem backlog_not_told :
    ¬ ∀ (c : SwitchNodeConfig) (entries : List (SwitchNode × NodeEvent × Option Packet))
      (s : SwitchNode), c.useFloodgate = true → Run (Traced (Step c)) (init c) entries s →
        ∀ entry ∈ entries, entry.1.TellsBacklog c entry.2.1 := by
  intro claim
  obtain ⟨first, sent⟩ := sent_run
  obtain ⟨second, waits⟩ := @next_step sentNode _ (@kilo_valid 2 (by decide)) (by decide +kernel)
  obtain ⟨third, s, run⟩ := @leaving_run _ congestedNode (sent.told waits) (by decide +kernel)
  have told := claim oneWindow _ s rfl run (congestedNode, .transmit 2, third) (by simp)
  obtain ⟨p, queue, served, data, target⟩ := congested_head
  have sees := told 2 p 3 queue rfl served data
  have buffered : 0 < congestedNode.upstream.getBufferDst 1 := by decide +kernel
  have address : congestedNode.upstream.getBufferDst (serverAddress 1) = 0 := by decide +kernel
  have counted := sees.counted
  unfold considersVoq at counted
  rw [depart_upstream, target] at counted
  have taken := counted.mpr buffered
  rw [Bool.and_eq_true_iff] at taken
  have positive := of_decide_eq_true taken.2
  have upstream : (congestedNode.taken 2 queue).upstream = congestedNode.upstream := rfl
  rw [upstream, address] at positive
  exact absurd positive (Nat.lt_irrefl 0)

end Examples

end SwitchNode

end Floodgate
