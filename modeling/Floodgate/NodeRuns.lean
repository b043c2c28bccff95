import Floodgate.RoomyPorts
import Floodgate.VoqOverflow

/-! Runs of one switch: the shared buffer's accounting over any interleaving of arrivals, VOQ
releases, departures and timers. -/

namespace Floodgate

open Std Outcome LabelledRun

def NodeEvent.Valid (c : SwitchNodeConfig) : NodeEvent → Prop
  | .receive inDev outDev p => inDev < c.nDevices ∧ (∀ dev, outDev = some dev → dev < c.nDevices) ∧
      p.dip < c.settings.hostNum
  | .goOn inDev outDev p _ => inDev < c.nDevices ∧
      (∀ dev, outDev = some dev → dev < c.nDevices) ∧ p.dip < c.settings.hostNum
  | .transmit ifIndex => ifIndex < c.nDevices
  | _ => True

namespace SwitchNode

def Step (c : SwitchNodeConfig) (s : SwitchNode) (label : NodeEvent × Option Packet)
    (after : SwitchNode) : Prop :=
  label.1.Valid c ∧ ∃ route, s.handle c route label.1 = .ok (label.2, after)

def BoundedStep (c : SwitchNodeConfig) (s : SwitchNode) (label : NodeEvent × Option Packet)
    (after : SwitchNode) : Prop :=
  Step c s label after ∧ Within c after

def execute (c : SwitchNodeConfig) (route : Nat → Nat) (s : SwitchNode) (events : List NodeEvent) :
    Except Assertion SwitchNode :=
  events.foldlM
    (fun s event => do
      let sent ← s.handle c route event
      .ok sent.2) s

theorem execute_run {c : SwitchNodeConfig} {route : Nat → Nat} (events : List NodeEvent)
    {s after : SwitchNode} (valid : ∀ event ∈ events, event.Valid c)
    (success : s.execute c route events = .ok after) :
    ∃ labels, labels.map Prod.fst = events ∧ Run (Step c) s labels after := by
  induction events generalizing s with
  | nil =>
      obtain rfl := Except.ok.inj success
      exact ⟨[], rfl, .nil⟩
  | cons event rest ih =>
      unfold execute at success
      rw [List.foldlM_cons] at success
      obtain ⟨middle, first, success⟩ := bind_ok.mp success
      obtain ⟨⟨out, next⟩, handled, first⟩ := bind_ok.mp first
      obtain rfl := Except.ok.inj first
      obtain ⟨labels, same, run⟩ := ih (fun e member => valid e (List.mem_cons_of_mem _ member))
        success
      have step : Step c s (event, out) next := ⟨valid event (by simp), route, handled⟩
      refine ⟨[(event, out)] ++ labels, ?_, (Run.single step).append run⟩
      simp [same]

section Steps

variable {c : SwitchNodeConfig} {s after : SwitchNode}

theorem Accounts.forwarded (accounts : Accounts c s) {inDev : Nat} {outDev : Option Nat}
    {p : Packet} (flowId : p.flowId = some inDev) (ingress : inDev < c.nDevices)
    (egress : ∀ dev, outDev = some dev → dev < c.nDevices) (known : p.dip < c.settings.hostNum)
    (forwards : Forwards c s inDev p outDev after) (within : Within c after) :
    Accounts c after := by
  have dip : p.dip < nodeScale := Nat.lt_of_lt_of_le known c.settings.hostNum_le
  cases forwards with
  | unrouted => exact accounts
  | dropped => exact ⟨accounts.laws.congr ⟨rfl, rfl, rfl, rfl⟩ fun _ _ _ => rfl,
      accounts.consistent, accounts.data, accounts.placed, within⟩
  | admitted passed => exact accounts.admitted flowId ingress (egress _ rfl) dip passed within

theorem Accounts.same (accounts : Accounts c s) (queues : after.queues = s.queues)
    (admission : after.admission = s.admission) (frame : Upstream.Frame s.upstream after.upstream)
    (within : Within c after) : Accounts c after := by
  have resident : ∀ weight, after.residentBy c weight = s.residentBy c weight := by
    intro weight
    simp only [residentBy, queuedBy, cellBy, queues, frame.heldBy]
  refine ⟨?_, accounts.consistent.frame frame, ?_, ?_, within⟩
  · rw [admission]
    exact accounts.laws.congr ⟨rfl, rfl, rfl, rfl⟩ fun weight _ _ => resident weight
  · rw [frame.heldBy]
    exact accounts.data
  · rw [resident]
    exact accounts.placed

theorem Accounts.replied {middle : SwitchNode} (accounts : Accounts c s)
    (replies : Replies c middle after) (device : middle.device = s.device)
    (upstream : middle.upstream = s.upstream) (admission : middle.admission = s.admission)
    (within : Within c after) : Accounts c after := by
  obtain ⟨frames, returns⟩ := replies
  refine Accounts.emits accounts.laws accounts.consistent accounts.data accounts.placed
    (returns.emits.congr ⟨device.symm, upstream.symm⟩ ⟨rfl, rfl⟩) ?_ within
  rw [returns.admission, admission]
  exact ⟨rfl, rfl, rfl, rfl⟩

theorem recordPsn_dip {inDev : Nat} {p : Packet} : (s.recordPsn c inDev p).1.dip = p.dip ∧
    (s.recordPsn c inDev p).1.flowId = p.flowId := by
  unfold recordPsn
  split
  · unfold Packet.toIngressPsn
    split
    · exact ⟨rfl, rfl⟩
    · exact ⟨rfl, rfl⟩
  · exact ⟨rfl, rfl⟩

theorem Accounts.received (accounts : Accounts c s) {inDev : Nat} {outDev : Option Nat}
    {p : Packet} (ingress : inDev < c.nDevices)
    (egress : ∀ dev, outDev = some dev → dev < c.nDevices) (known : p.dip < c.settings.hostNum)
    (receives : Receives c s inDev outDev p after) (within : Within c after) :
    Accounts c after := by
  cases receives with
  | pfc _ received =>
      exact accounts.same (setDevice_queues (receive_queue received)).1 rfl
        (Upstream.Frame.refl _) within
  | syn _ _ replies =>
      exact accounts.replied replies rfl rfl rfl within
  | ack _ _ restored =>
      exact accounts.same rfl rfl ((Upstream.restoreWin_frame _ _ _ _ _).of_ok restored) within
  | other _ _ forwards =>
      obtain ⟨upstream, device, admission⟩ :=
        recordPsn_same (c := c) (s := s) (p := p.setFlowId (some inDev))
      have recorded : Accounts c (s.recordPsn c inDev (p.setFlowId (some inDev))).2 := by
        apply accounts.same _ admission (upstream ▸ Upstream.Frame.refl _)
        · constructor
          · intro dev
            rw [device]
            exact accounts.within.noDrops dev
          · have bytes := accounts.within.bytes
            simpa only [residentBy, queuedBy, cellBy, queues, device, upstream] using bytes
        · funext dev q
          simp only [queues, device]
      have header := @recordPsn_dip c s inDev (p.setFlowId (some inDev))
      exact recorded.forwarded header.2 ingress egress (header.1.symm ▸ known) forwards within

theorem handle_accounts (accounts : Accounts c s) {label : NodeEvent × Option Packet}
    (step : BoundedStep c s label after) : Accounts c after := by
  obtain ⟨⟨valid, route, success⟩, within⟩ := step
  obtain ⟨event, out⟩ := label
  have handles := handle_handles accounts.consistent success
  cases handles with
  | received receives =>
      exact accounts.received valid.1 valid.2.1 valid.2.2 receives within
  | @wentOn inDev outDev p _ _ forwards =>
      have flowId : (p.setFlowId (some inDev)).flowId = some inDev := rfl
      exact accounts.forwarded flowId valid.1 valid.2.1 valid.2.2 forwards within
  | released releases => exact accounts.released releases within
  | transmitted transmits => exact accounts.transmitted valid transmits within
  | fired replies => exact accounts.replied replies rfl rfl rfl within
  | probed probes =>
      obtain ⟨frames, emits, -⟩ := probes.emits
      have admission : after.admission = s.admission := by
        cases probes with
        | idle => rfl
        | sent => rfl
      refine Accounts.emits accounts.laws accounts.consistent accounts.data accounts.placed emits ?_
        within
      rw [admission]
      exact ⟨rfl, rfl, rfl, rfl⟩

end Steps

section SendToDev

variable {c : SwitchNodeConfig} {route : Nat → Nat} {s after : SwitchNode} {inDev : Nat}
  {outDev : Option Nat} {p : Packet}

theorem drain_run {u up : Upstream} {units : List PacketUnit}
    (drains : Upstream.Drains c.upstream u units up) (s : SwitchNode) (start : s.upstream = u) :
    ∃ labels, Run (Step c) s labels (units.foldl (sendUnit c) { s with upstream := up }) := by
  induction drains generalizing s with
  | nil u =>
      subst start
      exact ⟨[], .nil⟩
  | @sent u middle finish voq top unit units performed sends rest ih =>
      subst start
      have first : Step c s (.release voq, none)
          ({ s with upstream := middle }.sendUnit c unit) := by
        refine ⟨trivial, fun dev => dev, ?_⟩
        simp only [handle, release, performed, ok_bind]
      obtain ⟨labels, later⟩ := ih ({ s with upstream := middle }.sendUnit c unit) rfl
      exact ⟨_, (Run.single first).append later⟩

/-- `SendToDev`, complete, is a run of events of the switch: the events do not add up to less. -/
theorem sendToDev_run (consistent : s.upstream.Consistent c.upstream)
    (valid : (NodeEvent.receive inDev outDev p).Valid c)
    (frame : p.isPfc = false)
    (success : s.sendToDev c route inDev outDev (p.setFlowId (some inDev)) = .ok after) :
    ∃ labels, Run (Step c) s labels after := by
  have arrives : ∀ middle, s.enter c route inDev outDev (p.setFlowId (some inDev)) = .ok middle →
      Step c s (.receive inDev outDev p, none) middle := by
    intro middle entered
    refine ⟨valid, route, ?_⟩
    have received : s.receive c route inDev outDev p = .ok middle := by
      rw [receive, frame, if_neg Bool.false_ne_true]
      exact entered
    simp only [handle, received, ok_bind]
  unfold enter at arrives
  unfold sendToDev at success
  split at success
  · rename_i tag floodgate syn
    simp only [floodgate, syn] at arrives
    exact ⟨_, Run.single (arrives after success)⟩
  · rename_i notSyn
    simp only at success
    rw [recordPsn_ackTag] at success
    split at success
    · rename_i tag floodgate acked
      have synless : (p.setFlowId (some inDev)).synTag = none := by
        cases shape : p.body <;>
          simp [Packet.ackTag, Packet.synTag, Packet.setFlowId, shape] at acked ⊢
      have recorded := @recordPsn_ack c inDev _ s _ acked
      rw [recorded] at success
      simp only [floodgate, synless, recorded, acked] at arrives
      obtain ⟨resumed, drained, success⟩ := bind_ok.mp success
      unfold Upstream.resumeVOQWin at drained
      obtain ⟨restored, restores, drained⟩ := bind_ok.mp drained
      have first := arrives { s with upstream := restored } (by rw [restores, ok_bind])
      have kept := consistent.frame ((Upstream.restoreWin_frame _ _ _ _ _).of_ok restores)
      obtain ⟨labels, later⟩ := drain_run ((Upstream.drain_drains kept _).of_ok drained)
        { s with upstream := restored } rfl
      have sent := (Run.single first).append later
      split at success
      · obtain rfl := Except.ok.inj success
        exact ⟨_, sent⟩
      · have last : Step c (resumed.1.foldl (sendUnit c) { s with upstream := resumed.2 })
            (.goOn inDev outDev (p.setFlowId (some inDev)) (Option.isSome_iff_exists.mpr ⟨tag, acked⟩),
              none) after := by
          refine ⟨valid, route, ?_⟩
          have again : (p.setFlowId (some inDev)).setFlowId (some inDev) =
              p.setFlowId (some inDev) := rfl
          simp only [handle, again]
          rw [success, ok_bind]
        exact ⟨_, sent.snoc last⟩
    · rename_i plain
      refine ⟨_, Run.single (arrives after ?_)⟩
      split
      · rename_i tag floodgate syn
        exact absurd syn (notSyn tag floodgate)
      · simp only
        rw [recordPsn_ackTag]
        split
        · rename_i tag floodgate acked
          exact absurd acked (plain tag floodgate)
        · exact success

end SendToDev

theorem init_queues (c : SwitchNodeConfig) (dev qIndex : Nat) : (init c).queues dev qIndex = [] :=
  rfl

theorem init_residentBy (c : SwitchNodeConfig) (weight : PacketUnit → Nat) :
    (init c).residentBy c weight = 0 := by
  have held : (init c).upstream.heldBy weight = 0 := Upstream.init_heldBy c.upstream weight
  have queued : (init c).queuedBy c weight = 0 := by
    apply Finset.sum_eq_zero
    intro place _
    simp [cellBy, init_queues]
  rw [residentBy, held, queued]

theorem Accounts.init (c : SwitchNodeConfig) : Accounts c (init c) := by
  refine ⟨⟨?_, ?_, ?_⟩, Upstream.Consistent.init c.upstream, Upstream.init_heldBy _ _,
    init_residentBy c _, ?_, ?_⟩
  · intro port cls
    rw [init_residentBy]
    rfl
  · exact (Finset.sum_eq_zero fun _ _ => Nat.zero_sub _).symm
  · intro dev qIndex
    rw [init_residentBy]
    rfl
  · intro dev
    rfl
  · rw [init_residentBy]
    decide

theorem Accounts.run {c : SwitchNodeConfig} {labels : List (NodeEvent × Option Packet)}
    {s : SwitchNode} (run : Run (BoundedStep c) (SwitchNode.init c) labels s) : Accounts c s :=
  run.invariant (Accounts c) (Accounts.init c) fun _ _ _ accounts step =>
    handle_accounts accounts step

def bytesTowards (s : SwitchNode) (dev qIndex : Nat) : Nat :=
  ((s.queues dev qIndex).map fun p => p.size).sum +
    s.upstream.heldBy fun unit => if unit.outDev = dev ∧ unit.qIndex = qIndex then unit.pkt.size
      else 0

theorem residentBy_towards (c : SwitchNodeConfig) (s : SwitchNode) {dev qIndex : Nat}
    (port : dev < c.nDevices) (below : qIndex < qCnt) (queue : qIndex ≠ 0) :
    s.residentBy c (towards dev qIndex) = s.bytesTowards dev qIndex := by
  have inside : (dev, qIndex) ∈ Finset.range c.nDevices ×ˢ Finset.range qCnt := by
    simp [port, below]
  have queued : s.queuedBy c (towards dev qIndex) =
      ((s.queues dev qIndex).map fun p => p.size).sum := by
    unfold queuedBy
    rw [Finset.sum_eq_single_of_mem _ inside]
    · simp [cellBy, towards, Packet.toUnit, queue]
    · rintro ⟨i, j⟩ _ different
      apply List.sum_eq_zero
      intro value member
      obtain ⟨p, _, rfl⟩ := List.mem_map.mp member
      apply if_neg
      rintro ⟨_, row, column⟩
      exact different (Prod.ext row column)
  have held : (fun unit => if unit.outDev = dev ∧ unit.qIndex = qIndex then unit.pkt.size else 0) =
      towards dev qIndex := by
    funext unit
    unfold towards
    by_cases here : unit.outDev = dev ∧ unit.qIndex = qIndex
    · rw [if_pos here, if_pos ⟨here.2 ▸ queue, here⟩]
    · rw [if_neg here, if_neg fun all => here all.2]
  rw [residentBy, queued, bytesTowards, held]
  exact Nat.add_comm _ _

structure AccountingExact (c : SwitchNodeConfig) (s : SwitchNode) : Prop where
  ingress : ∀ port cls, s.admission.ingressBytes port cls + s.admission.hdrmBytes port cls =
    s.residentBy c (fromPort c port cls)
  shared : s.admission.sharedUsedBytes =
    ∑ port ∈ Finset.range c.nDevices, ∑ cls ∈ Finset.range nodeScale,
      (s.admission.ingressBytes port cls - c.admission.reserve)
  egress : ∀ dev < c.nDevices, ∀ qIndex < qCnt, qIndex ≠ 0 →
    s.admission.egressBytes dev qIndex = s.bytesTowards dev qIndex
  highest : ∀ dev, s.admission.egressBytes dev 0 = 0
  departures : ∀ dev < c.nDevices, ∀ p qIndex queue,
    (s.device dev).queue.dequeueRR (c.device dev) (s.device dev).paused = some (p, qIndex, queue) →
      qIndex ≠ 0 → NoWrap c s.admission (p.flowId.getD 0)
        (c.pfcFine (p.flowId.getD 0) qIndex p.dip) dev qIndex p.size

/-- In every run in which nothing is refused and the bytes fit 32 bits. -/
theorem accounting_exact (c : SwitchNodeConfig) (labels : List (NodeEvent × Option Packet))
    (s : SwitchNode) (run : Run (BoundedStep c) (init c) labels s) : AccountingExact c s := by
  have accounts := Accounts.run run
  refine ⟨accounts.laws.ingress, ?_, ?_, ?_, ?_⟩
  · rw [accounts.laws.shared, sharedTotal, cells, Finset.sum_product]
  · intro dev port qIndex below queue
    rw [accounts.laws.egress, residentBy_towards c s port below queue]
  · intro dev
    rw [accounts.laws.egress]
    have none : towards dev 0 = fun _ => 0 := by
      funext unit
      exact if_neg fun inside => inside.1 inside.2.2
    rw [none, residentBy_zero]
  · intro dev port p qIndex queue served nonzero
    have dequeues := BEgressQueue.dequeueRR_dequeues served
    have leaves := taken_residentBy dequeues port
    have belongs := accounts.head_belongs dequeues port nonzero
    exact (accounts.laws.noWrap belongs fun weight _ => by
      have change := leaves weight
      omega).1

section Replay

variable (c : SwitchNodeConfig) (s : SwitchNode) (event : NodeEvent)

instance : DecidablePred (NodeEvent.Valid c)
  | .receive inDev outDev p => inferInstanceAs (Decidable (inDev < c.nDevices ∧
      (∀ dev ∈ outDev, dev < c.nDevices) ∧ p.dip < c.settings.hostNum))
  | .goOn inDev outDev p _ => inferInstanceAs (Decidable (inDev < c.nDevices ∧
      (∀ dev ∈ outDev, dev < c.nDevices) ∧ p.dip < c.settings.hostNum))
  | .transmit ifIndex => inferInstanceAs (Decidable (ifIndex < c.nDevices))
  | .release _ | .creditTimeout _ _ | .synTimeout _ _ => inferInstanceAs (Decidable True)

instance : DecidablePred Plain
  | .receive _ _ p => inferInstanceAs (Decidable (p.isPfc = false ∧ p.synTag = none))
  | .release _ | .transmit _ => inferInstanceAs (Decidable True)
  | .goOn _ _ _ _ | .creditTimeout _ _ | .synTimeout _ _ => inferInstanceAs (Decidable False)

def output : Option Packet :=
  match s.handle c id event with
  | .ok sent => sent.1
  | .error _ => none

def next : SwitchNode :=
  match s.handle c id event with
  | .ok sent => sent.2
  | .error _ => s

def takes : Bool :=
  decide (event.Valid c) && decide (Plain event) && (s.handle c id event).isOk &&
    decide ((s.next c event).residentBy c (fun unit => unit.pkt.size) < Word32.size)

def labelled (events : List NodeEvent) : List (NodeEvent × Option Packet) :=
  replay (fun s event => (event, s.output c event)) (next c) s events

theorem takes_step {c : SwitchNodeConfig} (roomy : Roomy c) {s : SwitchNode} (whole : NoDrops s)
    {event : NodeEvent} (taken : s.takes c event = true) :
    BoundedStep c s (event, s.output c event) (s.next c event) := by
  simp only [takes, Bool.and_eq_true, decide_eq_true_eq] at taken
  obtain ⟨⟨⟨valid, plain⟩, works⟩, bytes⟩ := taken
  cases handled : s.handle c id event with
  | error failure =>
      rw [handled] at works
      contradiction
  | ok sent =>
      obtain ⟨out, after⟩ := sent
      have same : s.next c event = after := by rw [next, handled]
      have left : s.output c event = out := by rw [output, handled]
      rw [same] at bytes ⊢
      rw [left]
      exact ⟨⟨valid, _, handled⟩, ⟨roomy.handle whole plain handled, bytes⟩⟩

theorem labelled_run {c : SwitchNodeConfig} (roomy : Roomy c) (events : List NodeEvent)
    {s : SwitchNode} (whole : NoDrops s) (all : executes (takes c) (next c) s events = true) :
    Run (BoundedStep c) s (labelled c s events) (events.foldl (next c) s) :=
  Run.replayed NoDrops
    (fun _ _ whole taken => ⟨takes_step roomy whole taken, (takes_step roomy whole taken).2.noDrops⟩)
    events whole all

end Replay

def smallSwitch (upstream : UpstreamConfig) (useFloodgate : Bool) : SwitchNodeConfig where
  admission :=
    { bufferSize := 65536
      reserve := 4096
      resumeOffset := 3072
      totalHdrm := 0
      totalRsrv := 12288
      headroom := fun _ => 0
      pfcAShift := fun _ => 0
      pfcThStatic := fun _ => 0
      pfcMode := fun _ => .onQueue
      bufferSize_lt := by decide
      reserve_lt := Word32.four_kilo_lt }
  upstream := upstream
  device := fun _ => ⟨1048576000, true, true, 5⟩
  nDevices := 4
  useFloodgate := useFloodgate
  isToR := false
  ackHighPrio := true
  thAck := 0
  id := 3
  nDevices_le := by decide

def plainSwitch : SwitchNodeConfig :=
  smallSwitch (narrow .switchDstCredit unlimited 1000 (by decide)) false

def afterOne (p : Packet) : SwitchNode :=
  ((init plainSwitch).admitPacket plainSwitch 1 2 (plainSwitch.qIndexOf p) p).switchSend plainSwitch 2
    (plainSwitch.qIndexOf p) p

theorem afterOne_within (p : Packet)
    (taken : ((afterOne p).device 2).queue.dropped = 0)
    (quiet : ∀ dev, dev ≠ 2 → (afterOne p).device dev = QbbNetDevice.init)
    (small : (afterOne p).queuedBy plainSwitch (fun unit => unit.pkt.size) < Word32.size) :
    Within plainSwitch (afterOne p) := by
  constructor
  · intro dev
    by_cases here : dev = 2
    · rw [here]
      exact taken
    · rw [quiet dev here]
      rfl
  · have upstream : (afterOne p).upstream = Upstream.init plainSwitch.upstream := admit_upstream _ _
    rw [residentBy, upstream, Upstream.init_heldBy, Nat.zero_add]
    exact small

/-- A congestion notification, which travels in queue 0. -/
def cnpPacket : Packet :=
  { kiloPacket with
    body := .host .cnp none }

theorem afterOne_small : ∀ p ∈ [kiloPacket, cnpPacket],
    ((afterOne (p.setFlowId (some 1))).device 2).queue.dropped = 0 ∧
      (afterOne (p.setFlowId (some 1))).queuedBy plainSwitch (fun unit => unit.pkt.size) <
        Word32.size := by
  decide +kernel

theorem kilo_step : BoundedStep plainSwitch (init plainSwitch)
    (.receive 1 (some 2) kiloPacket, none) (afterOne (kiloPacket.setFlowId (some 1))) := by
  refine ⟨⟨⟨by decide, fun dev same => ?_, by decide⟩, id, rfl⟩, ?_⟩
  · obtain rfl := Option.some.inj same
    decide
  · obtain ⟨taken, small⟩ := afterOne_small kiloPacket (by simp)
    exact afterOne_within _ taken (fun dev other => if_neg other) small

/-- A switch with a window of one packet for host 1. -/
def roomySwitch : SwitchNodeConfig :=
  { smallSwitch (narrow .switchDstCredit unlimited 1024 Word32.kilo_lt) true with
    device := fun _ => ⟨4294967296, true, true, 5⟩ }

/-- The second packet waits until the first one has left and its window is back. -/
def twoThrough : List NodeEvent :=
  [.receive 1 (some 2) kiloPacket, .receive 1 (some 2) kiloPacket, .transmit 2,
    .receive 2 none kiloReturn, .release (0, 1)]

theorem accounting_exact_two_packets :
    AccountingExact roomySwitch (twoThrough.foldl (next roomySwitch) (init roomySwitch)) :=
  accounting_exact roomySwitch _ _
    (labelled_run (fun _ => Rat.le_refl) twoThrough (fun _ => rfl) (by decide +kernel))

theorem cnp_step : BoundedStep plainSwitch (init plainSwitch)
    (.receive 1 (some 2) cnpPacket, none) (afterOne (cnpPacket.setFlowId (some 1))) := by
  refine ⟨⟨⟨by decide, fun dev same => ?_, by decide⟩, id, rfl⟩, ?_⟩
  · obtain rfl := Option.some.inj same
    decide
  · obtain ⟨taken, small⟩ := afterOne_small cnpPacket (by simp)
    exact afterOne_within _ taken (fun dev other => if_neg other) small

/-- Queue 0 fills without a trace in `egress_bytes`. -/
theorem highest_priority_unaccounted :
    ¬ ∀ (c : SwitchNodeConfig) (labels : List (NodeEvent × Option Packet)) (s : SwitchNode),
      Run (BoundedStep c) (init c) labels s → ∀ dev < c.nDevices, ∀ qIndex < qCnt,
        s.admission.egressBytes dev qIndex = s.bytesTowards dev qIndex := by
  intro claim
  have law := claim plainSwitch _ _ (Run.single cnp_step) 2 (by decide) 0 (by decide)
  have counted : (afterOne (cnpPacket.setFlowId (some 1))).admission.egressBytes 2 0 = 0 := by
    decide +kernel
  have queued : (((afterOne (cnpPacket.setFlowId (some 1))).queues 2 0).map
      fun p => p.size).sum = 1024 := by
    decide +kernel
  rw [counted, bytesTowards, queued] at law
  omega

end SwitchNode

end Floodgate
