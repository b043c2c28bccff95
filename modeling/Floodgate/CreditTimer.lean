import Floodgate.Library.Earliest
import Floodgate.CreditLoops
import Floodgate.OwedCredit
import Floodgate.PacketPlaces

/-! The credit timer of a switch: one timer for a table of times of the last Switch-ACKs. -/

namespace Floodgate

open Std Outcome LabelledRun Downstream

/-- A pending `CreditTimeout` with its arguments. -/
structure CreditEvent where
  time : Nat
  dev : Nat
  dst : Nat
  deriving DecidableEq

/-- A switch with its clock, the times of its last Switch-ACKs and its credit timer. Times count
nanoseconds, and zero stands for never. -/
structure CreditNode where
  now : Nat
  node : SwitchNode
  ingressLastTime : Nat → Nat → Nat
  creditTimer : Option CreditEvent

inductive TimerAssertion where
  | node (failed : Assertion)
  | indexKnown
  | notOverdue
  deriving DecidableEq

/-- The part of the code that knows no timer. -/
def untimed {Value : Type} (result : Except Assertion Value) : Except TimerAssertion Value :=
  result.mapError .node

namespace SwitchNodeConfig

/-- `MicroSeconds(switch_credit_interval)`: the parameter is an integer. -/
def creditInterval (c : SwitchNodeConfig) : Nat := c.settings.switchCreditInterval.floor.toNat * 1000

/-- The column of the table for a destination: one ingress has one timer if its ACKs are shared. -/
def timerDst (c : SwitchNodeConfig) (dst : Nat) : Nat :=
  if c.settings.switchAckMode = .switchIngressCredit then 0 else dst

end SwitchNodeConfig

namespace CreditNode

variable (c : SwitchNodeConfig) (route : Nat → Nat) (s : CreditNode)

def create : CreditNode where
  now := 0
  node := SwitchNode.init c
  ingressLastTime := fun _ _ => 0
  creditTimer := none

/-- The loops of `ResetCreditTimer`, from one second ahead. -/
def earliest : Nat × Option (Nat × Nat) :=
  Earliest.scan (fun cell => s.ingressLastTime cell.1 cell.2) (s.now + 1000000000)
    (List.range switchScale ×ˢ List.range c.settings.hostNum)

def resetCreditTimer : Except TimerAssertion CreditNode :=
  if c.settings.switchCreditInterval = 0 then .ok s
  else
    match s.earliest c with
    | (_, none) => .ok { s with creditTimer := none }
    | (minTime, some (dev, dst)) =>
        if s.now ≤ minTime + c.creditInterval then
          .ok { s with
            creditTimer := some ⟨s.now + (minTime + c.creditInterval - s.now), dev, dst⟩ }
        else .error .notOverdue

def updateIngressLastSendTime (dev dst : Nat) : Except TimerAssertion CreditNode :=
  if dev < switchScale then
    { s with ingressLastTime := setCell s.ingressLastTime dev dst s.now }.resetCreditTimer c
  else .error .indexKnown

/-- What the first loop begins with for an upstream. -/
def initialiseLastTime (first : Bool) (dev dst : Nat) : Except TimerAssertion CreditNode :=
  if first = true ∧ c.settings.switchAckMode ≠ .hostPerPacketAck ∧
      s.ingressLastTime dev (c.timerDst dst) = 0 then
    s.updateIngressLastSendTime c dev (c.timerDst dst)
  else .ok s

def checkAndSendACK (p : Packet) (threshold : Nat) (first : Bool) (creditId : Nat) :
    Except TimerAssertion (Bool × CreditNode) := do
  let ready ← s.initialiseLastTime c first creditId p.dip
  let sent ← untimed (ready.node.checkAndSendACK c route p threshold creditId)
  let after := { ready with node := sent.2 }
  if sent.1 then
    -- what `SendAccSwitchACK` and `SendSwitchACK` end with
    let updated ← after.updateIngressLastSendTime c creditId (c.timerDst p.dip)
    .ok (true, updated)
  else .ok (false, after)

def checkAndSendACKs (p : Packet) (threshold : Nat) (first : Bool) (ids : List Nat) :
    Except TimerAssertion (Bool × CreditNode) :=
  ids.foldlM
    (fun before creditId => do
      let after ← before.2.checkAndSendACK c route p threshold first creditId
      .ok (before.1 || after.1, after.2)) (false, s)

def returnCredits (p : Packet) (creditId : Nat) : Except TimerAssertion CreditNode := do
  let num := if c.settings.switchAckThM > 0 then c.upstreamNum else 1
  let first ← s.checkAndSendACKs c route p c.settings.switchByteCounter true
    (creditIds creditId num)
  if !first.1 && decide (c.settings.switchByteCounter > 1) &&
      decide (c.settings.switchCreditInterval = 0) &&
      first.2.node.upstream.getBufferDst p.dip == 0 then
    let flushed ← first.2.checkAndSendACKs c route p 1 false
      (creditIds ((creditId + num) % num) c.upstreamNum)
    .ok flushed.2
  else .ok first.2

def earning (node : SwitchNode) (downstream : Downstream) : CreditNode :=
  { s with node := { node with downstream := downstream } }

def notifyDequeue (ifIndex qIndex : Nat) (p : Packet) :
    Except TimerAssertion (Packet × CreditNode) := do
  let inDev := p.flowId.getD 0
  let departed := s.node.depart c inDev ifIndex qIndex p
  if c.useFloodgate && p.isUdp then
    let ignore ← untimed (c.upstream.shouldIgnore p.sip)
    if c.isToR && ignore then .ok (p.setFlowId none, { s with node := departed })
    else
      let creditId := c.creditRow inDev p.sip
      if c.settings.switchAbsolutePsn then
        match p.ingressPsn with
        | none => .error (.node .ingressPsnPresent)
        | some psn =>
            let returned ← (s.earning departed
              (departed.downstream.updateNxtAckPsn creditId p.dip psn)).returnCredits c route p
                creditId
            .ok ((p.setFlowId none).removeIngressPsn, returned)
      else
        let returned ← (s.earning departed
          (departed.downstream.addCreditCounter creditId p.dip p.size)).returnCredits c route p
            creditId
        .ok (p.setFlowId none, returned)
  else .ok (p.setFlowId none, { s with node := departed })

/-- `DequeueAndTransmit` on an idle port. -/
def transmit (ifIndex : Nat) : Except TimerAssertion (Option Packet × CreditNode) :=
  match (s.node.device ifIndex).queue.dequeueRR (c.device ifIndex)
      (s.node.device ifIndex).paused with
  | none => .ok (none, s)
  | some (p, qIndex, queue) => do
      let sent ← { s with node := s.node.taken ifIndex queue }.notifyDequeue c route ifIndex qIndex p
      .ok (some sent.1, sent.2)

def creditTimeout (dev dst : Nat) : Except TimerAssertion CreditNode :=
  if dev < switchScale ∧ dst < c.settings.hostNum then
    match c.settings.switchAckMode with
    | .switchIngressCredit => do
        let owed ← untimed (s.node.downstream.checkIngressCreditCounter c.settings
          (s.node.ackDue c) dev 1)
        if owed then
          let sent ← untimed (s.node.sendAccSwitchACK c route dev
            (s.node.downstream.getSwitchACKTag c.settings (s.node.ackDue c) dev))
          { s with node := sent }.updateIngressLastSendTime c dev 0
        else s.updateIngressLastSendTime c dev dst
    | .switchDstCredit => do
        let credit ← untimed (s.node.downstream.getIngressDstCreditCounter c.settings
          (s.node.ackDue c) dev dst)
        if credit > 0 then
          let sent ← untimed (s.node.sendSwitchACK c dev dst 0
            (if c.settings.switchAbsolutePsn then s.node.downstream.nxtAckPsn dev dst
              else credit))
          { s with node := sent }.updateIngressLastSendTime c dev dst
        else s.updateIngressLastSendTime c dev dst
    | .hostPerPacketAck => .error (.node .switchAcksOn)
  else .error .indexKnown

end CreditNode

/-- A departure or another event of the switch, a timeout, or time that passes. -/
inductive CreditLabel where
  | node (event : NodeEvent)
  | timeout
  | wait (later : Nat)

def CreditLabel.isTimeout : CreditLabel → Bool
  | .timeout => true
  | _ => false

def CreditLabel.isWait : CreditLabel → Bool
  | .wait _ => true
  | _ => false

/-- Neither a departure nor a SYN, and not the timeout that the timer stands for. -/
def NodeEvent.LeavesCredits : NodeEvent → Prop
  | .transmit _ | .creditTimeout _ _ => False
  | .receive _ _ p => p.synTag = none
  | .goOn _ _ _ _ | .release _ | .synTimeout _ _ => True

namespace CreditNode

/-- Any event of the switch but the arrival of a SYN, the timer when it expires, and time that
passes. No packet leaves a switch when the simulation starts. -/
inductive Step (c : SwitchNodeConfig) (s : CreditNode) : CreditLabel → CreditNode → Prop
  | transmit {route : Nat → Nat} {ifIndex : Nat} {out : Option Packet} {after : CreditNode}
      (started : 0 < s.now) (sent : s.transmit c route ifIndex = .ok (out, after)) :
      Step c s (.node (.transmit ifIndex)) after
  | node {route : Nat → Nat} {event : NodeEvent} {out : Option Packet} {node : SwitchNode}
      (valid : event.Valid c) (leaves : event.LeavesCredits)
      (handled : s.node.handle c route event = .ok (out, node)) :
      Step c s (.node event) { s with node := node }
  | timeout {route : Nat → Nat} {event : CreditEvent} {after : CreditNode}
      (pending : s.creditTimer = some event) (due : event.time = s.now)
      (fired : { s with creditTimer := none }.creditTimeout c route event.dev event.dst =
        .ok after) :
      Step c s .timeout after
  | wait {later : Nat} (forward : s.now < later)
      (before : ∀ event, s.creditTimer = some event → later ≤ event.time) :
      Step c s (.wait later) { s with now := later }

/-- The only failures are those of the switch. -/
def OfSwitch : TimerAssertion → Prop
  | .node _ => True
  | _ => False

/-- Every filled cell of the table exists, was filled in the past and is at most a period old. -/
structure Clock (c : SwitchNodeConfig) (s : CreditNode) : Prop where
  past : ∀ dev dst, s.ingressLastTime dev dst ≤ s.now
  known : ∀ dev dst, s.ingressLastTime dev dst ≠ 0 →
    dev < switchScale ∧ dst < c.settings.hostNum ∧ c.timerDst dst = dst
  fresh : ∀ dev dst, s.ingressLastTime dev dst ≠ 0 →
    s.now ≤ s.ingressLastTime dev dst + c.creditInterval

/-- A timer expires a period after the oldest time in the table. -/
structure Guards (c : SwitchNodeConfig) (s : CreditNode) (event : CreditEvent) : Prop where
  filled : s.ingressLastTime event.dev event.dst ≠ 0
  time : event.time = s.ingressLastTime event.dev event.dst + c.creditInterval
  least : ∀ dev dst, s.ingressLastTime dev dst ≠ 0 →
    s.ingressLastTime event.dev event.dst ≤ s.ingressLastTime dev dst

def Armed (c : SwitchNodeConfig) (s : CreditNode) : Prop :=
  (s.creditTimer = none ∧ ∀ dev dst, s.ingressLastTime dev dst = 0) ∨
    ∃ event, s.creditTimer = some event ∧ Guards c s event

structure Moves (c : SwitchNodeConfig) (s after : CreditNode) : Prop where
  now : after.now = s.now
  cells : ∀ dev dst, after.ingressLastTime dev dst = s.ingressLastTime dev dst ∨
    after.ingressLastTime dev dst = s.now
  clock : Clock c after
  armed : Armed c s → Armed c after

section Clock

variable {c : SwitchNodeConfig} {s middle after : CreditNode}

theorem Moves.refl (clock : Clock c s) : Moves c s s :=
  ⟨rfl, fun _ _ => .inl rfl, clock, id⟩

theorem Moves.trans (left : Moves c s middle) (right : Moves c middle after) : Moves c s after := by
  refine ⟨right.now.trans left.now, fun dev dst => ?_, right.clock,
    fun armed => right.armed (left.armed armed)⟩
  rcases right.cells dev dst with same | set
  · rw [same]
    exact left.cells dev dst
  · exact .inr (set.trans left.now)

theorem Moves.filled (moves : Moves c s after) (started : 0 < s.now) {dev dst : Nat}
    (filled : s.ingressLastTime dev dst ≠ 0) : after.ingressLastTime dev dst ≠ 0 := by
  rcases moves.cells dev dst with same | set
  · rwa [same]
  · omega

theorem Clock.congr (clock : Clock c s) (now : after.now = s.now)
    (cells : after.ingressLastTime = s.ingressLastTime) : Clock c after :=
  ⟨by rw [cells, now]; exact clock.past, by rw [cells]; exact clock.known,
    by rw [cells, now]; exact clock.fresh⟩

theorem Armed.congr (armed : Armed c s) (timer : after.creditTimer = s.creditTimer)
    (cells : after.ingressLastTime = s.ingressLastTime) : Armed c after := by
  rcases armed with ⟨off, empty⟩ | ⟨event, pending, guards⟩
  · exact .inl ⟨timer.trans off, by rw [cells]; exact empty⟩
  · exact .inr ⟨event, timer.trans pending, by rw [cells]; exact guards.filled,
      by rw [cells]; exact guards.time, by rw [cells]; exact guards.least⟩

/-- The event that the timer holds guards the table. -/
theorem Armed.guards (armed : Armed c s) {event : CreditEvent}
    (pending : s.creditTimer = some event) : Guards c s event := by
  rcases armed with ⟨off, _⟩ | ⟨other, running, guards⟩
  · rw [off] at pending
    contradiction
  · obtain rfl := Option.some.inj (running.symm.trans pending)
    exact guards

theorem Moves.congr (clock : Clock c s) (now : after.now = s.now)
    (cells : after.ingressLastTime = s.ingressLastTime)
    (timer : after.creditTimer = s.creditTimer) : Moves c s after :=
  ⟨now, fun dev dst => .inl (congrFun (congrFun cells dev) dst), clock.congr now cells,
    fun armed => armed.congr timer cells⟩

theorem resetCreditTimer_armed (on : c.settings.switchCreditInterval ≠ 0) (clock : Clock c s) :
    Holds OfSwitch (fun after => Armed c after ∧ after.now = s.now ∧ after.node = s.node ∧
      after.ingressLastTime = s.ingressLastTime) (s.resetCreditTimer c) := by
  have inside : ∀ dev dst, s.ingressLastTime dev dst ≠ 0 →
      (dev, dst) ∈ List.range switchScale ×ˢ List.range c.settings.hostNum := by
    intro dev dst filled
    obtain ⟨row, column, -⟩ := clock.known dev dst filled
    exact List.pair_mem_product.mpr ⟨List.mem_range.mpr row, List.mem_range.mpr column⟩
  have scanned := Earliest.scan_scanned (fun cell : Nat × Nat => s.ingressLastTime cell.1 cell.2)
    (s.now + 1000000000) (List.range switchScale ×ˢ List.range c.settings.hostNum)
  unfold resetCreditTimer earliest
  rw [if_neg on]
  generalize Earliest.scan (fun cell : Nat × Nat => s.ingressLastTime cell.1 cell.2)
    (s.now + 1000000000) (List.range switchScale ×ˢ List.range c.settings.hostNum) = found
    at scanned
  cases scanned with
  | @found key _ filled least =>
      have due := clock.fresh key.1 key.2 filled
      have past := clock.past key.1 key.2
      simp only [if_pos due]
      refine ⟨.inr ⟨_, rfl, filled, ?_, fun dev dst other => ?_⟩, rfl, rfl, rfl⟩
      · simp only
        omega
      · exact least (dev, dst) (inside dev dst other) other
  | none empty =>
      refine ⟨.inl ⟨rfl, fun dev dst => ?_⟩, rfl, rfl, rfl⟩
      by_contra filled
      have ahead := empty (dev, dst) (inside dev dst filled) filled
      have past := clock.past dev dst
      simp only at ahead
      omega

structure Updated (c : SwitchNodeConfig) (s : CreditNode) (dev dst : Nat) (after : CreditNode) :
    Prop where
  moves : Moves c s after
  armed : Armed c after
  node : after.node = s.node
  cells : after.ingressLastTime = setCell s.ingressLastTime dev dst s.now

theorem updateIngressLastSendTime_updated (on : c.settings.switchCreditInterval ≠ 0)
    (clock : Clock c s) {dev dst : Nat} (row : dev < switchScale)
    (column : dst < c.settings.hostNum) (shared : c.timerDst dst = dst) :
    Holds OfSwitch (Updated c s dev dst) (s.updateIngressLastSendTime c dev dst) := by
  unfold updateIngressLastSendTime
  rw [if_pos row]
  have set : Clock c { s with ingressLastTime := setCell s.ingressLastTime dev dst s.now } := by
    have cell : ∀ i j, (i = dev ∧ j = dst ∧ setCell s.ingressLastTime dev dst s.now i j = s.now) ∨
        setCell s.ingressLastTime dev dst s.now i j = s.ingressLastTime i j := by
      intro i j
      by_cases here : i = dev ∧ j = dst
      · obtain ⟨rfl, rfl⟩ := here
        exact .inl ⟨rfl, rfl, setCell_same _ _ _ _⟩
      · exact .inr (setCell_other _ _ _ _ _ _ here)
    refine ⟨fun i j => ?_, fun i j filled => ?_, fun i j filled => ?_⟩
    · rcases cell i j with ⟨-, -, now⟩ | other
      · exact now.le
      · exact other.le.trans (clock.past i j)
    · rcases cell i j with ⟨rfl, rfl, -⟩ | other
      · exact ⟨row, column, shared⟩
      · exact clock.known i j (other ▸ filled)
    · simp only at filled ⊢
      rcases cell i j with ⟨-, -, now⟩ | other
      · rw [now]
        exact Nat.le_add_right _ _
      · rw [other] at filled ⊢
        exact clock.fresh i j filled
  refine (resetCreditTimer_armed on set).mono fun after _ ⟨armed, now, node, cells⟩ => ?_
  refine ⟨⟨now, fun i j => ?_, set.congr now cells, fun _ => armed⟩, armed, node, cells⟩
  rw [cells]
  by_cases here : i = dev ∧ j = dst
  · obtain ⟨rfl, rfl⟩ := here
    exact .inr (setCell_same _ _ _ _)
  · exact .inl (setCell_other _ _ _ _ _ _ here)

end Clock

theorem untimed_ok {Value : Type} {result : Except Assertion Value} {value : Value} :
    untimed result = .ok value ↔ result = .ok value := by
  cases result with
  | error failure => simp [untimed, Except.mapError]
  | ok found => simp [untimed, Except.mapError]

theorem untimed_holds {Value : Type} {result : Except Assertion Value} {post : Value → Prop}
    (success : ∀ value, result = .ok value → post value) :
    Holds OfSwitch post (untimed result) := by
  cases result with
  | error failure => trivial
  | ok value => exact success value rfl

section Loops

variable {c : SwitchNodeConfig} {s : CreditNode} {p : Packet}

theorem timerDst_timerDst (c : SwitchNodeConfig) (dst : Nat) :
    c.timerDst (c.timerDst dst) = c.timerDst dst := by
  unfold SwitchNodeConfig.timerDst
  split <;> rfl

theorem timerDst_lt {dst : Nat} (host : dst < c.settings.hostNum) :
    c.timerDst dst < c.settings.hostNum := by
  unfold SwitchNodeConfig.timerDst
  split
  · exact Nat.zero_lt_of_lt host
  · exact host

theorem checkAndSendACK_moves (on : c.settings.switchCreditInterval ≠ 0)
    (mode : c.settings.switchAckMode ≠ .hostPerPacketAck) (clock : Clock c s)
    (host : p.dip < c.settings.hostNum) {creditId : Nat} (row : creditId < switchScale)
    (route : Nat → Nat) (threshold : Nat) (first : Bool) :
    Holds OfSwitch (fun after =>
        s.node.checkAndSendACK c route p threshold creditId = .ok (after.1, after.2.node) ∧
        Moves c s after.2 ∧ (first = true → 0 < s.now →
          after.2.ingressLastTime creditId (c.timerDst p.dip) ≠ 0))
      (s.checkAndSendACK c route p threshold first creditId) := by
  have update : ∀ {s : CreditNode}, Clock c s →
      Holds OfSwitch (Updated c s creditId (c.timerDst p.dip))
        (s.updateIngressLastSendTime c creditId (c.timerDst p.dip)) :=
    fun clock => updateIngressLastSendTime_updated on clock row (timerDst_lt host)
      (timerDst_timerDst c p.dip)
  have ready : Holds OfSwitch (fun ready => Moves c s ready ∧ ready.node = s.node ∧
      (first = true → 0 < s.now → ready.ingressLastTime creditId (c.timerDst p.dip) ≠ 0))
      (s.initialiseLastTime c first creditId p.dip) := by
    unfold initialiseLastTime
    split
    · refine (update clock).mono fun after _ updated => ?_
      refine ⟨updated.moves, updated.node, fun _ started => ?_⟩
      rw [updated.cells, setCell_same]
      omega
    · rename_i filled
      exact ⟨Moves.refl clock, rfl, fun initial _ empty => filled ⟨initial, mode, empty⟩⟩
  unfold checkAndSendACK
  apply ready.bind
  rintro ready _ ⟨moves, node, filled⟩
  have sending : Holds OfSwitch
      (fun sent => s.node.checkAndSendACK c route p threshold creditId = .ok sent)
      (untimed (ready.node.checkAndSendACK c route p threshold creditId)) := by
    rw [node]
    exact untimed_holds fun sent success => success
  apply sending.bind
  rintro ⟨acked, node'⟩ _ success
  have later : Moves c ready { ready with node := node' } := Moves.congr moves.clock rfl rfl rfl
  simp only
  split
  · rename_i sent
    apply (update later.clock).bind
    intro after _ updated
    refine ⟨?_, (moves.trans later).trans updated.moves, fun _ started => ?_⟩
    · rw [success, sent, updated.node]
    · have running : 0 < ready.now := moves.now ▸ started
      rw [updated.cells, setCell_same]
      exact Nat.ne_of_gt running
  · rename_i unsent
    refine ⟨?_, moves.trans later, filled⟩
    rw [success, Bool.eq_false_of_not_eq_true unsent]

theorem foldlM_checkAndSendACK (on : c.settings.switchCreditInterval ≠ 0)
    (mode : c.settings.switchAckMode ≠ .hostPerPacketAck) (host : p.dip < c.settings.hostNum)
    (route : Nat → Nat) (threshold : Nat) (first : Bool) (ids : List Nat)
    (rows : ∀ creditId ∈ ids, creditId < switchScale) (before : Bool × CreditNode)
    (clock : Clock c before.2) :
    Holds OfSwitch (fun after =>
        ids.foldlM (fun (before : Bool × SwitchNode) creditId => do
          let after ← before.2.checkAndSendACK c route p threshold creditId
          .ok (before.1 || after.1, after.2)) (before.1, before.2.node) =
            .ok (after.1, after.2.node) ∧
        Moves c before.2 after.2 ∧ (first = true → 0 < before.2.now → ∀ creditId ∈ ids,
          after.2.ingressLastTime creditId (c.timerDst p.dip) ≠ 0))
      (ids.foldlM (fun (before : Bool × CreditNode) creditId => do
        let after ← before.2.checkAndSendACK c route p threshold first creditId
        .ok (before.1 || after.1, after.2)) before) := by
  induction ids generalizing before with
  | nil => exact ⟨rfl, Moves.refl clock, fun _ _ _ member => absurd member (by simp)⟩
  | cons creditId rest ih =>
      rw [List.foldlM_cons, List.foldlM_cons]
      have one : Holds OfSwitch (fun next : Bool × CreditNode =>
          (do
            let after ← before.2.node.checkAndSendACK c route p threshold creditId
            .ok (before.1 || after.1, after.2)) = Except.ok (next.1, next.2.node) ∧
          Moves c before.2 next.2 ∧ (first = true → 0 < before.2.now →
            next.2.ingressLastTime creditId (c.timerDst p.dip) ≠ 0))
          (do
            let after ← before.2.checkAndSendACK c route p threshold first creditId
            .ok (before.1 || after.1, after.2)) := by
        apply (checkAndSendACK_moves on mode clock host (rows creditId (by simp)) route threshold
          first).bind
        rintro after _ ⟨follows, moves, filled⟩
        rw [follows]
        exact ⟨rfl, moves, filled⟩
      apply one.bind
      rintro next _ ⟨follows, moves, filled⟩
      rw [follows]
      have others := ih (fun id member => rows id (List.mem_cons_of_mem _ member)) next moves.clock
      refine others.mono ?_
      rintro last _ ⟨rest_follows, later, rest_filled⟩
      refine ⟨rest_follows, moves.trans later, fun initial started id member => ?_⟩
      · have running : 0 < next.2.now := moves.now ▸ started
        rcases List.mem_cons.mp member with rfl | other
        · exact later.filled running (filled initial started)
        · exact rest_filled initial running id other

theorem returnCredits_moves (on : c.settings.switchCreditInterval ≠ 0)
    (mode : c.settings.switchAckMode ≠ .hostPerPacketAck)
    (all : c.settings.resetOnlyToRSwitchWin = false) (host : p.dip < c.settings.hostNum)
    (clock : Clock c s) {creditId : Nat} (port : creditId < c.nDevices) (route : Nat → Nat) :
    Holds OfSwitch (fun after =>
        s.node.returnCredits c route p creditId = .ok after.node ∧ Moves c s after ∧
        (0 < s.now → after.ingressLastTime creditId (c.timerDst p.dip) ≠ 0))
      (s.returnCredits c route p creditId) := by
  have upstreams : c.upstreamNum = c.nDevices := by simp [SwitchNodeConfig.upstreamNum, all]
  have scale := c.nDevices_le
  have visited : ∀ id, id ∈ creditIds creditId
      (if c.settings.switchAckThM > 0 then c.upstreamNum else 1) →
      id < switchScale := by
    intro id member
    split at member
    · rw [upstreams, creditIds_mem port] at member
      omega
    · rw [creditIds_one, List.mem_singleton] at member
      omega
  have start : creditId ∈ creditIds creditId
      (if c.settings.switchAckThM > 0 then c.upstreamNum else 1) := by
    split
    · rw [upstreams, creditIds_mem port]
      exact port
    · simp [creditIds_one]
  unfold returnCredits SwitchNode.returnCredits
  simp only [on, decide_false, Bool.and_false, Bool.false_and, Bool.false_eq_true, if_false]
  have loop := foldlM_checkAndSendACK on mode host route c.settings.switchByteCounter true _ visited
    (false, s) clock
  apply Holds.bind loop
  rintro ⟨sent, after⟩ _ ⟨follows, moves, filled⟩
  refine ⟨?_, moves, fun started => filled rfl started creditId start⟩
  unfold SwitchNode.checkAndSendACKs
  rw [follows]
  rfl

end Loops

section Departures

variable {c : SwitchNodeConfig} {s : CreditNode}

/-- A departure follows the switch. What is owed was owed before, or its time is set. -/
structure Departs (c : SwitchNodeConfig) (s : CreditNode) (after : CreditNode) : Prop where
  moves : Moves c s after
  owes : 0 < s.now → ∀ dev dst, after.node.downstream.Owes c.settings dev dst →
    s.node.downstream.Owes c.settings dev dst ∨ after.ingressLastTime dev (c.timerDst dst) ≠ 0

theorem notifyDequeue_departs (on : c.settings.switchCreditInterval ≠ 0)
    (mode : c.settings.switchAckMode ≠ .hostPerPacketAck)
    (all : c.settings.resetOnlyToRSwitchWin = false) (clock : Clock c s) {p : Packet}
    {ifIndex qIndex : Nat} (placed : p.isUdp = true → SwitchNode.Placed c p ifIndex qIndex)
    (route : Nat → Nat) :
    Holds OfSwitch (fun sent =>
        s.node.notifyDequeue c route ifIndex qIndex p = .ok (sent.1, sent.2.node) ∧
        Departs c s sent.2)
      (s.notifyDequeue c route ifIndex qIndex p) := by
  have same : (s.node.depart c (p.flowId.getD 0) ifIndex qIndex p).downstream =
      s.node.downstream :=
    (SwitchNode.depart_signals c s.node _ ifIndex qIndex p).downstream.trans
      (SwitchNode.discharged_same c s.node _ ifIndex qIndex p).2.2
  have plain : Departs c s
      { s with node := s.node.depart c (p.flowId.getD 0) ifIndex qIndex p } := by
    refine ⟨Moves.congr clock rfl rfl rfl, fun _ dev dst owed => .inl ?_⟩
    rwa [same] at owed
  -- The loops start with `p` recorded at its port.
  have returns : p.isUdp = true → ∀ d : Downstream,
      (∀ dev dst, d.Owes c.settings dev dst → s.node.downstream.Owes c.settings dev dst ∨
        dev = c.creditRow (p.flowId.getD 0) p.sip ∧ dst = p.dip) →
      Holds OfSwitch (fun after =>
          ({ s.node.depart c (p.flowId.getD 0) ifIndex qIndex p with
            downstream := d } : SwitchNode).returnCredits c route p
              (c.creditRow (p.flowId.getD 0) p.sip) = .ok after.node ∧ Departs c s after)
        ((s.earning (s.node.depart c (p.flowId.getD 0) ifIndex qIndex p) d).returnCredits c route p
          (c.creditRow (p.flowId.getD 0) p.sip)) := by
    intro data d recorded
    obtain ⟨port, below, ingress⟩ := (placed data).ingress
    have row : c.creditRow (p.flowId.getD 0) p.sip < c.nDevices := by
      simpa [SwitchNodeConfig.creditRow, all, ingress] using below
    have start : Moves c s
        (s.earning (s.node.depart c (p.flowId.getD 0) ifIndex qIndex p) d) :=
      Moves.congr clock rfl rfl rfl
    refine (returnCredits_moves on mode all (placed data).host start.clock row route).mono ?_
    rintro after _ ⟨follows, moves, filled⟩
    refine ⟨follows, start.trans moves, fun started dev dst owed => ?_⟩
    rcases recorded dev dst (SwitchNode.returnCredits_repays follows dev dst owed) with
      before | ⟨rfl, rfl⟩
    · exact .inl before
    · exact .inr (filled started)
  unfold notifyDequeue SwitchNode.notifyDequeue
  simp only
  split
  case isFalse => exact ⟨rfl, plain⟩
  case isTrue data =>
    rw [Bool.and_eq_true] at data
    apply (untimed_holds fun ignore rule => rule).bind
    intro ignore _ rule
    simp only [rule, ok_bind]
    split
    · exact ⟨rfl, plain⟩
    · rw [same]
      split
      · cases tag : p.ingressPsn with
        | none => trivial
        | some psn =>
            simp only
            apply (returns data.2 _ fun _ _ => updateNxtAckPsn_owes).bind
            rintro after _ ⟨follows, departs⟩
            rw [follows]
            exact ⟨rfl, departs⟩
      · apply (returns data.2 _ fun _ _ => addCreditCounter_owes).bind
        rintro after _ ⟨follows, departs⟩
        rw [follows]
        exact ⟨rfl, departs⟩

theorem transmit_departs (on : c.settings.switchCreditInterval ≠ 0)
    (mode : c.settings.switchAckMode ≠ .hostPerPacketAck)
    (all : c.settings.resetOnlyToRSwitchWin = false) (clock : Clock c s)
    (places : SwitchNode.Places c s.node) (route : Nat → Nat) (ifIndex : Nat) :
    Holds OfSwitch (fun sent =>
        s.node.transmit c route ifIndex = .ok (sent.1, sent.2.node) ∧ Departs c s sent.2)
      (s.transmit c route ifIndex) := by
  unfold transmit SwitchNode.transmit
  cases served : (s.node.device ifIndex).queue.dequeueRR (c.device ifIndex)
      (s.node.device ifIndex).paused with
  | none => exact ⟨rfl, Moves.refl clock, fun _ _ _ owed => .inl owed⟩
  | some head =>
      obtain ⟨p, qIndex, queue⟩ := head
      obtain ⟨-, -, placed⟩ := places.taken (BEgressQueue.dequeueRR_dequeues served)
      have start : Moves c s { s with node := s.node.taken ifIndex queue } :=
        Moves.congr clock rfl rfl rfl
      apply (notifyDequeue_departs on mode all start.clock placed route).bind
      rintro sent _ ⟨follows, departs⟩
      refine ⟨?_, start.trans departs.moves, departs.owes⟩
      change ((s.node.taken ifIndex queue).notifyDequeue c route ifIndex qIndex p >>= fun sent =>
        .ok (some sent.1, sent.2)) = _
      rw [follows]
      rfl

/-- `CreditTimeout` on a filled cell follows the switch, sets the cell and the timer. -/
theorem creditTimeout_updated (on : c.settings.switchCreditInterval ≠ 0) (clock : Clock c s)
    {dev dst : Nat} (filled : s.ingressLastTime dev dst ≠ 0) (route : Nat → Nat) :
    Holds OfSwitch (fun after => s.node.creditTimeout c route dev dst = .ok after.node ∧
        Moves c s after ∧ Armed c after ∧ after.ingressLastTime dev dst = s.now)
      (s.creditTimeout c route dev dst) := by
  obtain ⟨row, column, shared⟩ := clock.known dev dst filled
  have update : ∀ node, Holds OfSwitch (fun after => after.node = node ∧ Moves c s after ∧
      Armed c after ∧ after.ingressLastTime dev dst = s.now)
      ({ s with node := node }.updateIngressLastSendTime c dev dst) := by
    intro node
    have start : Moves c s { s with node := node } := Moves.congr clock rfl rfl rfl
    refine (updateIngressLastSendTime_updated on start.clock row column shared).mono ?_
    intro after _ updated
    exact ⟨updated.node, start.trans updated.moves, updated.armed, by
      rw [updated.cells, setCell_same]⟩
  have sends : ∀ sending : Except Assertion SwitchNode,
      Holds OfSwitch (fun after => sending = .ok after.node ∧ Moves c s after ∧ Armed c after ∧
          after.ingressLastTime dev dst = s.now)
        (untimed sending >>= fun sent =>
          { s with node := sent }.updateIngressLastSendTime c dev dst) := by
    intro sending
    apply (untimed_holds fun sent success => success).bind
    intro sent _ success
    refine (update sent).mono ?_
    rintro after _ ⟨node, rest⟩
    exact ⟨by rw [success, node], rest⟩
  have stays : Holds OfSwitch (fun after => (.ok s.node : Except Assertion SwitchNode) =
        .ok after.node ∧ Moves c s after ∧ Armed c after ∧ after.ingressLastTime dev dst = s.now)
      (s.updateIngressLastSendTime c dev dst) := by
    refine (update s.node).mono ?_
    rintro after _ ⟨node, rest⟩
    exact ⟨by rw [node], rest⟩
  unfold creditTimeout SwitchNode.creditTimeout
  rw [if_pos ⟨row, column⟩]
  cases ackMode : c.settings.switchAckMode with
  | hostPerPacketAck => trivial
  | switchIngressCredit =>
      have zero : dst = 0 := by
        simpa [SwitchNodeConfig.timerDst, ackMode, eq_comm] using shared
      subst zero
      apply (untimed_holds fun owed check => check).bind
      intro owed _ check
      simp only [check, ok_bind]
      split
      · exact sends _
      · exact stays
  | switchDstCredit =>
      apply (untimed_holds fun credit check => check).bind
      intro credit _ check
      simp only [check, ok_bind]
      split
      · exact sends _
      · exact stays

end Departures

/-- Packets are in their places, the timer guards the table, and every debt has a time. -/
structure TimerBooks (c : SwitchNodeConfig) (s : CreditNode) : Prop where
  places : SwitchNode.Places c s.node
  clock : Clock c s
  armed : Armed c s
  registered : ∀ dev dst, s.node.downstream.Owes c.settings dev dst →
    s.ingressLastTime dev (c.timerDst dst) ≠ 0

/-- A debt has a pending timer that expires no later than a period after its last time, which is
not over. -/
structure CheckDue (c : SwitchNodeConfig) (s : CreditNode) (dev dst : Nat) : Prop where
  started : s.ingressLastTime dev (c.timerDst dst) ≠ 0
  pending : ∃ event, s.creditTimer = some event ∧ s.now ≤ event.time ∧
    event.time ≤ s.ingressLastTime dev (c.timerDst dst) + c.creditInterval

/-- The assertion of `ResetCreditTimer` holds in whatever may happen next. -/
structure NeverOverdue (c : SwitchNodeConfig) (s : CreditNode) : Prop where
  transmit : ∀ route ifIndex, s.transmit c route ifIndex ≠ .error .notOverdue
  timeout : ∀ route event, s.creditTimer = some event → event.time = s.now →
    { s with creditTimer := none }.creditTimeout c route event.dev event.dst ≠ .error .notOverdue

/-- The filled cells whose period is over. -/
@[irreducible]
def dueCells (c : SwitchNodeConfig) (s : CreditNode) : Finset (Nat × Nat) :=
  (Finset.range switchScale ×ˢ Finset.range c.settings.hostNum).filter fun cell =>
    s.ingressLastTime cell.1 cell.2 ≠ 0 ∧
      s.ingressLastTime cell.1 cell.2 + c.creditInterval ≤ s.now

section Runs

variable {c : SwitchNodeConfig} {s after : CreditNode}

theorem creditInterval_pos (whole : 1 ≤ c.settings.switchCreditInterval) :
    0 < c.creditInterval := by
  have floor : 1 ≤ c.settings.switchCreditInterval.floor := Rat.le_floor_iff.mpr (by simpa using whole)
  unfold SwitchNodeConfig.creditInterval
  omega

theorem TimerBooks.create (c : SwitchNodeConfig) : TimerBooks c (create c) := by
  refine ⟨SwitchNode.Places.init c, ⟨fun _ _ => Nat.le_refl 0, fun _ _ filled => absurd rfl filled,
    fun _ _ filled => absurd rfl filled⟩, .inl ⟨rfl, fun _ _ => rfl⟩, fun dev dst owed => ?_⟩
  unfold Owes at owed
  split at owed
  · exact absurd owed (Nat.lt_irrefl 0)
  · exact absurd owed (Nat.lt_irrefl 0)

/-- The guarded cell is the oldest one, so nothing is older than the clock allows. -/
theorem Guards.fresh {event : CreditEvent} (guards : Guards c s event) {later : Nat}
    (before : later ≤ event.time) {dev dst : Nat} (filled : s.ingressLastTime dev dst ≠ 0) :
    later ≤ s.ingressLastTime dev dst + c.creditInterval := by
  have least := guards.least dev dst filled
  have time := guards.time
  omega

theorem TimerBooks.waited (books : TimerBooks c s) {later : Nat} (forward : s.now < later)
    (before : ∀ event, s.creditTimer = some event → later ≤ event.time) :
    TimerBooks c { s with now := later } := by
  refine ⟨books.places, ⟨fun dev dst => (books.clock.past dev dst).trans forward.le,
    books.clock.known, fun dev dst filled => ?_⟩, books.armed.congr rfl rfl, books.registered⟩
  rcases books.armed with ⟨_, empty⟩ | ⟨event, pending, guards⟩
  · exact absurd (empty dev dst) filled
  · exact guards.fresh (before event pending) filled

theorem leavesCredits_repays {node : SwitchNode} (places : SwitchNode.Places c s.node)
    {route : Nat → Nat} {event : NodeEvent} {out : Option Packet} (valid : event.Valid c)
    (leaves : event.LeavesCredits) (handled : s.node.handle c route event = .ok (out, node)) :
    Repays c.settings s.node.downstream node.downstream := by
  have same : SwitchNode.SameDebts s.node.downstream node.downstream := by
    cases event with
    | receive inDev outDev p =>
        obtain ⟨middle, received, handled⟩ := bind_ok.mp handled
        obtain ⟨-, rfl⟩ := Prod.mk.inj (Except.ok.inj handled)
        obtain ⟨-, -, debts | ⟨tag, frame, -⟩⟩ :=
          places.received valid.1 valid.2.1 valid.2.2 received
        · exact debts
        · have plain : p.synTag = none := leaves
          rw [plain] at frame
          contradiction
    | goOn inDev outDev p tagged =>
        obtain ⟨middle, forwarded, handled⟩ := bind_ok.mp handled
        obtain ⟨-, rfl⟩ := Prod.mk.inj (Except.ok.inj handled)
        have known : ∃ port < c.nDevices, (p.setFlowId (some inDev)).flowId = some port :=
          ⟨inDev, valid.1, rfl⟩
        exact .of_eq (places.forwarded known valid.2.1 valid.2.2 forwarded).2.2
    | release voq =>
        obtain ⟨middle, released, handled⟩ := bind_ok.mp handled
        obtain ⟨-, rfl⟩ := Prod.mk.inj (Except.ok.inj handled)
        unfold SwitchNode.release at released
        obtain ⟨⟨sent, up⟩, _, released⟩ := bind_ok.mp released
        cases sent with
        | none =>
            obtain rfl := Except.ok.inj released
            exact .of_eq rfl
        | some unit =>
            obtain rfl := Except.ok.inj released
            exact .of_eq rfl
    | transmit ifIndex => exact leaves.elim
    | creditTimeout dev dst => exact leaves.elim
    | synTimeout dev recent =>
        obtain ⟨-, rfl⟩ := Prod.mk.inj (Except.ok.inj handled)
        have probes := SwitchNode.synTimeout_probes c route s.node dev recent
        generalize s.node.synTimeout c route dev recent = after at probes
        cases probes with
        | idle => exact .of_eq rfl
        | sent => exact .of_eq rfl
  intro dev dst owed
  unfold Owes at owed ⊢
  rwa [same.nxtAckPsn, same.lstAckPsn, same.credit] at owed

theorem Step.moves (on : c.settings.switchCreditInterval ≠ 0)
    (mode : c.settings.switchAckMode ≠ .hostPerPacketAck)
    (all : c.settings.resetOnlyToRSwitchWin = false) (books : TimerBooks c s) {label : CreditLabel}
    (step : Step c s label after) (still : label.isWait = false) : Moves c s after := by
  cases step with
  | @transmit route ifIndex out after started sent =>
      exact ((transmit_departs on mode all books.clock books.places route ifIndex).of_ok
        sent).2.moves
  | node valid leaves handled => exact Moves.congr books.clock rfl rfl rfl
  | @timeout route event after pending due fired =>
      have guards := books.armed.guards pending
      have clock : Clock c { s with creditTimer := none } := books.clock.congr rfl rfl
      obtain ⟨-, moves, armed, -⟩ := (creditTimeout_updated on clock guards.filled route).of_ok fired
      exact ⟨moves.now, moves.cells, moves.clock, fun _ => armed⟩
  | wait => exact absurd still (by simp [CreditLabel.isWait])

theorem TimerBooks.step (on : c.settings.switchCreditInterval ≠ 0)
    (mode : c.settings.switchAckMode ≠ .hostPerPacketAck)
    (all : c.settings.resetOnlyToRSwitchWin = false) (books : TimerBooks c s) {label : CreditLabel}
    (step : Step c s label after) : TimerBooks c after := by
  have moves := step.moves on mode all books
  cases step with
  | @transmit route ifIndex out after started sent =>
      obtain ⟨follows, departs⟩ :=
        (transmit_departs on mode all books.clock books.places route ifIndex).of_ok sent
      have moves := moves rfl
      refine ⟨books.places.transmitted follows, moves.clock, moves.armed books.armed,
        fun dev dst owed => ?_⟩
      rcases departs.owes started dev dst owed with before | filled
      · exact moves.filled started (books.registered dev dst before)
      · exact filled
  | @node route event out node valid leaves handled =>
      have moves := moves rfl
      have step : SwitchNode.Step c s.node (event, out) node := ⟨valid, route, handled⟩
      refine ⟨books.places.handled step, moves.clock, moves.armed books.armed,
        fun dev dst owed => ?_⟩
      exact books.registered dev dst
        (leavesCredits_repays books.places valid leaves handled dev dst owed)
  | @timeout route event after pending due fired =>
      have moves := moves rfl
      have guards := books.armed.guards pending
      have clock : Clock c { s with creditTimer := none } := books.clock.congr rfl rfl
      obtain ⟨follows, -⟩ := (creditTimeout_updated on clock guards.filled route).of_ok fired
      have started : 0 < s.now := by
        have past := books.clock.past event.dev event.dst
        have filled := guards.filled
        omega
      refine ⟨books.places.timedOut follows, moves.clock, moves.armed books.armed,
        fun dev dst owed => ?_⟩
      exact moves.filled started
        (books.registered dev dst (SwitchNode.creditTimeout_repays follows dev dst owed))
  | wait forward before => exact books.waited forward before

theorem TimerBooks.checkDue (books : TimerBooks c s) {dev dst : Nat}
    (owed : s.node.downstream.Owes c.settings dev dst) : CheckDue c s dev dst := by
  have filled := books.registered dev dst owed
  rcases books.armed with ⟨_, empty⟩ | ⟨event, pending, guards⟩
  · exact absurd (empty dev _) filled
  · refine ⟨filled, event, pending, ?_, guards.fresh (Nat.le_refl _) filled⟩
    rw [guards.time]
    exact books.clock.fresh event.dev event.dst guards.filled

theorem TimerBooks.neverOverdue (on : c.settings.switchCreditInterval ≠ 0)
    (mode : c.settings.switchAckMode ≠ .hostPerPacketAck)
    (all : c.settings.resetOnlyToRSwitchWin = false) (books : TimerBooks c s) :
    NeverOverdue c s := by
  constructor
  · intro route ifIndex failed
    exact (transmit_departs on mode all books.clock books.places route ifIndex).of_error failed
  · intro route event pending _ failed
    have guards := books.armed.guards pending
    have clock : Clock c { s with creditTimer := none } := books.clock.congr rfl rfl
    exact (creditTimeout_updated on clock guards.filled route).of_error failed

theorem mem_dueCells (cell : Nat × Nat) : cell ∈ dueCells c s ↔
    (cell.1 < switchScale ∧ cell.2 < c.settings.hostNum) ∧
      s.ingressLastTime cell.1 cell.2 ≠ 0 ∧
      s.ingressLastTime cell.1 cell.2 + c.creditInterval ≤ s.now := by
  unfold dueCells
  rw [Finset.mem_filter, Finset.mem_product, Finset.mem_range, Finset.mem_range]

theorem Moves.dueCells_subset (positive : 0 < c.creditInterval) (moves : Moves c s after) :
    dueCells c after ⊆ dueCells c s := by
  rw [Finset.subset_iff]
  intro cell member
  rw [mem_dueCells] at member ⊢
  obtain ⟨inside, filled, due⟩ := member
  rw [moves.now] at due
  rcases moves.cells cell.1 cell.2 with same | set
  · rw [same] at filled due
    exact ⟨inside, filled, due⟩
  · rw [set] at due
    omega

/-- A timeout serves a cell that was due. -/
theorem Step.dueCells_lt (on : c.settings.switchCreditInterval ≠ 0) (positive : 0 < c.creditInterval)
    (books : TimerBooks c s) (step : Step c s .timeout after) :
    (dueCells c after).card < (dueCells c s).card := by
  cases step with
  | @timeout route event after pending due fired =>
      rcases books.armed with ⟨off, _⟩ | ⟨other, running, guards⟩
      · rw [off] at pending
        contradiction
      obtain rfl := Option.some.inj (running.symm.trans pending)
      have clock : Clock c { s with creditTimer := none } := books.clock.congr rfl rfl
      obtain ⟨-, moves, armed, served⟩ :=
        (creditTimeout_updated on clock guards.filled route).of_ok fired
      have still : Moves c s after := ⟨moves.now, moves.cells, moves.clock, fun _ => armed⟩
      obtain ⟨row, column, -⟩ := books.clock.known _ _ guards.filled
      have here : (other.dev, other.dst) ∈ dueCells c s := by
        rw [mem_dueCells]
        have time := guards.time
        simp only at due ⊢
        exact ⟨⟨row, column⟩, guards.filled, by omega⟩
      have gone : (other.dev, other.dst) ∉ dueCells c after := by
        rw [mem_dueCells, served, still.now]
        rintro ⟨_, _, due⟩
        simp only at due
        omega
      apply Finset.card_lt_card
      rw [Finset.ssubset_iff_of_subset (still.dueCells_subset positive)]
      exact ⟨(other.dev, other.dst), here, gone⟩

theorem dueCells_card (c : SwitchNodeConfig) (s : CreditNode) :
    (dueCells c s).card ≤ switchScale * c.settings.hostNum := by
  unfold dueCells
  refine (Finset.card_filter_le _ _).trans ?_
  rw [Finset.card_product, Finset.card_range, Finset.card_range]

/-- At one instant every timeout takes a cell off those that are due. -/
theorem timeouts_bounded (on : c.settings.switchCreditInterval ≠ 0)
    (positive : 0 < c.creditInterval) (mode : c.settings.switchAckMode ≠ .hostPerPacketAck)
    (all : c.settings.resetOnlyToRSwitchWin = false) (books : TimerBooks c s)
    {labels : List CreditLabel} (run : Run (Step c) s labels after)
    (still : ∀ label ∈ labels, label.isWait = false) :
    labels.countP CreditLabel.isTimeout + (dueCells c after).card ≤ (dueCells c s).card := by
  have both : TimerBooks c after ∧ ((∀ label ∈ labels, label.isWait = false) →
      labels.countP CreditLabel.isTimeout + (dueCells c after).card ≤ (dueCells c s).card) := by
    refine run.history (fun labels state => TimerBooks c state ∧
      ((∀ label ∈ labels, label.isWait = false) →
        labels.countP CreditLabel.isTimeout + (dueCells c state).card ≤ (dueCells c s).card)) ?_ ?_
    · exact ⟨books, fun _ => by simp⟩
    · rintro labels middle label finish - ⟨before, count⟩ step
      refine ⟨before.step on mode all step, fun quiet => ?_⟩
      rw [List.forall_mem_append, List.forall_mem_singleton] at quiet
      have counted := count quiet.1
      have shrinks := (step.moves on mode all before quiet.2).dueCells_subset positive
      have smaller := Finset.card_le_card shrinks
      rw [List.countP_append, List.countP_singleton]
      split
      · rename_i timeout
        cases label with
        | timeout =>
            have strictly := step.dueCells_lt on positive before
            omega
        | node => simp [CreditLabel.isTimeout] at timeout
        | wait => simp [CreditLabel.isTimeout] at timeout
      · omega
  exact both.2 still

end Runs

/-- In runs of whole microseconds and more, whatever is owed has its timer, the timer is never late,
and at one instant it expires at most once for each cell of its table. -/
theorem credit_timer_sound (c : SwitchNodeConfig)
    (mode : c.settings.switchAckMode ≠ .hostPerPacketAck)
    (all : c.settings.resetOnlyToRSwitchWin = false)
    (whole : 1 ≤ c.settings.switchCreditInterval) (labels : List CreditLabel) (s : CreditNode)
    (run : Run (Step c) (create c) labels s) :
    (∀ dev dst, s.node.downstream.Owes c.settings dev dst → CheckDue c s dev dst) ∧
    NeverOverdue c s ∧
    ∀ later after, Run (Step c) s later after → (∀ label ∈ later, label.isWait = false) →
      later.countP CreditLabel.isTimeout ≤ switchScale * c.settings.hostNum := by
  have positive := creditInterval_pos whole
  have on : c.settings.switchCreditInterval ≠ 0 := by
    intro off
    rw [off] at whole
    exact absurd whole (by decide)
  have books : TimerBooks c s := run.invariant (TimerBooks c) (TimerBooks.create c)
    fun _ _ _ books step => books.step on mode all step
  refine ⟨fun dev dst owed => books.checkDue owed, books.neverOverdue on mode all, ?_⟩
  intro later after more still
  have bounded := timeouts_bounded on positive mode all books more still
  have cells := dueCells_card c s
  omega

/-- A switch that acknowledges bytes, every `counter` of them. -/
def tickingSwitch (mode : AckMode) (counter : Nat) (interval : Rat) : SwitchNodeConfig :=
  SwitchNode.smallSwitch
    { narrow mode unlimited 2048 (by decide) with
      settings :=
        { (narrow mode unlimited 2048 (by decide)).settings with
          switchByteCounter := counter
          switchCreditInterval := interval } } true

def oneArrival : NodeEvent := .receive 1 (some 3) kiloPacket

/-- A packet that leaves five nanoseconds after the start. -/
def oneDeparture (c : SwitchNodeConfig) : Except TimerAssertion CreditNode := do
  let received ← untimed ((SwitchNode.init c).handle c id oneArrival)
  let sent ← { create c with now := 5, node := received.2 }.transmit c id 3
  .ok sent.2

theorem oneDeparture_run {c : SwitchNodeConfig} {s : CreditNode} (valid : oneArrival.Valid c)
    (success : oneDeparture c = .ok s) : ∃ labels, Run (Step c) (create c) labels s := by
  unfold oneDeparture at success
  obtain ⟨⟨out, node⟩, arriving, success⟩ := bind_ok.mp success
  obtain ⟨⟨leaves, last⟩, sent, success⟩ := bind_ok.mp success
  obtain rfl := Except.ok.inj success
  have waited : Step c (create c) (.wait 5) { create c with now := 5 } :=
    .wait (Nat.zero_lt_succ 4) fun event pending => by simp [create] at pending
  have arrived : Step c { create c with now := 5 } (.node oneArrival)
      { create c with now := 5, node := node } :=
    .node valid rfl (untimed_ok.mp arriving)
  have departed : Step c { create c with now := 5, node := node } (.node (.transmit 3)) last :=
    .transmit (Nat.zero_lt_succ 4) sent
  exact ⟨_, ((Run.single waited).snoc arrived).snoc departed⟩

theorem oneArrival_valid (mode : AckMode) (counter : Nat) (interval : Rat) :
    oneArrival.Valid (tickingSwitch mode counter interval) :=
  ⟨show 1 < 4 by decide, fun _ same => Option.some.inj same ▸ show 3 < 4 by decide,
    show 1 < 3 by decide⟩

theorem waitingCredit_run : ∃ labels s,
    Run (Step (tickingSwitch .switchIngressCredit 2000 10))
      (create (tickingSwitch .switchIngressCredit 2000 10)) labels s ∧
    s.node.downstream.credit 1 1 = 1024 ∧ s.ingressLastTime 1 1 = 0 := by
  have passed : (match oneDeparture (tickingSwitch .switchIngressCredit 2000 10) with
      | .ok s => decide (s.node.downstream.credit 1 1 = 1024 ∧ s.ingressLastTime 1 1 = 0)
      | .error _ => false) = true := by
    decide +kernel
  split at passed
  · rename_i s departed
    obtain ⟨labels, run⟩ := oneDeparture_run (oneArrival_valid _ _ _) departed
    exact ⟨labels, s, run, of_decide_eq_true passed⟩
  · exact Bool.noConfusion passed

theorem credit_timer_sound_waiting : ∃ labels s,
    Run (Step (tickingSwitch .switchIngressCredit 2000 10))
      (create (tickingSwitch .switchIngressCredit 2000 10)) labels s ∧
    s.node.downstream.credit 1 1 = 1024 ∧
    (∀ dev dst, s.node.downstream.Owes (tickingSwitch .switchIngressCredit 2000 10).settings dev dst →
      CheckDue (tickingSwitch .switchIngressCredit 2000 10) s dev dst) ∧
    NeverOverdue (tickingSwitch .switchIngressCredit 2000 10) s ∧
    ∀ later after, Run (Step (tickingSwitch .switchIngressCredit 2000 10)) s later after →
      (∀ label ∈ later, label.isWait = false) → later.countP CreditLabel.isTimeout ≤
        switchScale * (tickingSwitch .switchIngressCredit 2000 10).settings.hostNum := by
  obtain ⟨labels, s, run, owed, -⟩ := waitingCredit_run
  exact ⟨labels, s, run, owed, credit_timer_sound (tickingSwitch .switchIngressCredit 2000 10)
    (by decide) rfl (by decide) labels s run⟩

/-- With an interval of no whole microsecond a timeout that finds nothing repeats itself. -/
theorem Step.timeout_again {c : SwitchNodeConfig} {s : CreditNode} {dev dst : Nat}
    (on : c.settings.switchCreditInterval ≠ 0) (none : c.creditInterval = 0)
    (mode : c.settings.switchAckMode = .switchDstCredit)
    (known : dev < switchScale ∧ dst < c.settings.hostNum)
    (pending : s.creditTimer = .some ⟨s.now, dev, dst⟩) (set : s.ingressLastTime dev dst = s.now)
    (first : s.earliest c = (s.now, .some (dev, dst)))
    (nothing : s.node.downstream.getIngressDstCreditCounter c.settings (s.node.ackDue c) dev dst =
      .ok 0) : Step c s .timeout s := by
  have same : setCell s.ingressLastTime dev dst s.now = s.ingressLastTime := by
    funext i j
    by_cases here : i = dev ∧ j = dst
    · obtain ⟨rfl, rfl⟩ := here
      rw [setCell_same, set]
    · exact setCell_other _ _ _ _ _ _ here
  have found : earliest c { s with creditTimer := .none } = (s.now, .some (dev, dst)) := first
  have fired : { s with creditTimer := .none }.creditTimeout c id dev dst = .ok s := by
    unfold creditTimeout
    rw [if_pos known]
    simp only [mode, nothing, untimed, Except.mapError, ok_bind, gt_iff_lt, Nat.lt_irrefl, if_false]
    unfold updateIngressLastSendTime
    rw [if_pos known.1]
    simp only [same]
    unfold resetCreditTimer
    rw [if_neg on, found]
    simp only [none, Nat.add_zero, Nat.le_refl, if_true, Nat.sub_self]
    rw [← pending]
  exact .timeout pending rfl fired

/-- Half a microsecond counts as no time, and every ACK has been sent. -/
theorem endlessTimeouts_run : ∃ labels s,
    Run (Step (tickingSwitch .switchDstCredit 1 (1 / 2)))
      (create (tickingSwitch .switchDstCredit 1 (1 / 2))) labels s ∧
    Step (tickingSwitch .switchDstCredit 1 (1 / 2)) s .timeout s := by
  have passed : (match oneDeparture (tickingSwitch .switchDstCredit 1 (1 / 2)) with
      | .ok s => decide (s.now = 5 ∧ s.creditTimer = some ⟨5, 1, 1⟩ ∧ s.ingressLastTime 1 1 = 5 ∧
          s.earliest (tickingSwitch .switchDstCredit 1 (1 / 2)) = (5, some (1, 1)) ∧
          s.node.downstream.credit 1 1 = 0)
      | .error _ => false) = true := by
    decide +kernel
  split at passed
  · rename_i s departed
    obtain ⟨labels, run⟩ := oneDeparture_run (oneArrival_valid _ _ _) departed
    obtain ⟨now, pending, set, first, nothing⟩ := of_decide_eq_true passed
    refine ⟨labels, s, run, ?_⟩
    apply Step.timeout_again (by decide +kernel) (by decide +kernel) rfl
      ⟨by decide, by decide⟩ (now ▸ pending) (now ▸ set) (now ▸ first)
    simpa [getIngressDstCreditCounter, tickingSwitch, SwitchNode.smallSwitch, narrow,
      SwitchNodeConfig.settings, SwitchNode.ackDue] using nothing
  · exact Bool.noConfusion passed

/-- Where ACKs are shared by the destinations of a port only the time of its first column is set,
and an interval of less than a microsecond lets the timer expire any number of times at once. -/
theorem timer_of_pair_and_fraction : (¬ ∀ (c : SwitchNodeConfig),
      c.settings.switchAckMode ≠ .hostPerPacketAck → c.settings.resetOnlyToRSwitchWin = false →
      0 < c.settings.switchCreditInterval → ∀ labels s, Run (Step c) (create c) labels s →
      ∀ dev dst, s.node.downstream.Owes c.settings dev dst → s.ingressLastTime dev dst ≠ 0) ∧
    ¬ ∀ (c : SwitchNodeConfig), c.settings.switchAckMode ≠ .hostPerPacketAck →
      c.settings.resetOnlyToRSwitchWin = false → 0 < c.settings.switchCreditInterval →
      ∀ labels s, Run (Step c) (create c) labels s → ∃ bound, ∀ later after,
        Run (Step c) s later after → (∀ label ∈ later, label.isWait = false) →
        later.countP CreditLabel.isTimeout ≤ bound := by
  constructor
  · intro claim
    obtain ⟨labels, s, run, owed, unset⟩ := waitingCredit_run
    refine claim _ (by decide) rfl (by decide +kernel) labels s run 1 1 ?_ unset
    have positive : 0 < s.node.downstream.credit 1 1 := by omega
    exact positive
  · intro claim
    obtain ⟨labels, s, run, again⟩ := endlessTimeouts_run
    obtain ⟨bound, bounded⟩ := claim _ (by decide) rfl (by decide +kernel) labels s run
    have repeated : ∀ n, Run (Step (tickingSwitch .switchDstCredit 1 (1 / 2))) s
        (List.replicate n CreditLabel.timeout) s := by
      intro n
      induction n with
      | zero => exact .nil
      | succ n ih =>
          rw [List.replicate_succ']
          exact ih.snoc again
    have many := bounded _ s (repeated (bound + 1)) fun label member => by
      rw [List.eq_of_mem_replicate member]
      rfl
    rw [List.countP_replicate] at many
    have all : CreditLabel.isTimeout .timeout = true := rfl
    rw [if_pos all] at many
    omega

end CreditNode

end Floodgate
