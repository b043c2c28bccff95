import Floodgate.CreditLoops
import Floodgate.PacketPlaces

/-! Credit without a timer: what the departure of the last byte of a destination leaves owing. -/

namespace Floodgate

open Std Outcome LabelledRun

namespace SwitchNode

/-- Without a byte of a destination in the switch no credit for it is left. -/
def NothingStranded (s : SwitchNode) : Prop :=
  ∀ dst, ¬ s.Holding dst → ∀ row, s.downstream.credit row dst = 0

/-- The switch as the credit loops find it when `p` has left, admission aside. -/
def creditedFor (c : SwitchNodeConfig) (s : SwitchNode) (p : Packet) : SwitchNode :=
  { s with
    downstream := s.downstream.addCreditCounter (c.creditRow (p.flowId.getD 0) p.sip) p.dip p.size }

/-- The departure of `p`, given the switch without it, leaves nothing owing for its destination. -/
def LeavesNothing (c : SwitchNodeConfig) (s : SwitchNode) (p : Packet) : Prop :=
  (Credited c p → ∀ row, (s.creditedFor c p).downstream.credit row p.dip ≠ 0 →
    Served c (s.creditedFor c p) p.dip (p.flowId.getD 0) row) ∧
  (¬ Credited c p → ∀ row, s.downstream.credit row p.dip = 0)

/-- The last byte of a destination does not leave while other credit for it is to stay: it goes out
at an egress port and the loops serve every row that is owed anything, or nothing is owed. -/
def LastByteSettled (c : SwitchNodeConfig) (s : SwitchNode) : NodeEvent → Prop
  | .transmit ifIndex => ∀ p qIndex queue,
      (s.device ifIndex).queue.dequeueRR (c.device ifIndex) (s.device ifIndex).paused =
        some (p, qIndex, queue) →
      p.isUdp = true → ¬ (s.taken ifIndex queue).Holding p.dip →
      LeavesNothing c (s.taken ifIndex queue) p
  | .release voq => ∀ unit up, s.upstream.checkAndSendOne c.upstream voq = .ok (some unit, up) →
      ¬ (s.device unit.outDev).queue.Takes (c.device unit.outDev) unit.pkt →
      ¬ ({ s with upstream := up } : SwitchNode).Holding unit.dst →
      ∀ row, s.downstream.credit row unit.dst = 0
  | _ => True

structure CreditBooks (c : SwitchNodeConfig) (s : SwitchNode) : Prop where
  places : Places c s
  fit : s.downstream.CreditsFit

structure Keeps (s after : SwitchNode) : Prop where
  holding : Stays s after
  credit : ∀ row dst, after.downstream.credit row dst ≤ s.downstream.credit row dst

section Moves

variable {c : SwitchNodeConfig} {s middle after : SwitchNode}

theorem Keeps.refl (s : SwitchNode) : Keeps s s := ⟨Stays.refl s, fun _ _ => Nat.le_refl _⟩

theorem Keeps.trans (left : Keeps s middle) (right : Keeps middle after) : Keeps s after :=
  ⟨left.holding.trans right.holding,
    fun row dst => Nat.le_trans (right.credit row dst) (left.credit row dst)⟩

theorem Keeps.of_debts (stays : Stays s after) (debts : SameDebts s.downstream after.downstream) :
    Keeps s after := ⟨stays, fun row dst => (debts.credit row dst).le⟩

theorem Keeps.nothingStranded (keeps : Keeps s after) (nothing : NothingStranded s) :
    NothingStranded after := by
  intro dst gone row
  have before := nothing dst (fun held => gone (keeps.holding dst held)) row
  have below := keeps.credit row dst
  omega

theorem CreditBooks.of_debts (books : CreditBooks c s) (places : Places c after)
    (debts : SameDebts s.downstream after.downstream) : CreditBooks c after :=
  ⟨places, fun row dst => (debts.credit row dst).symm ▸ books.fit row dst⟩

theorem CreditBooks.replied (mode : CountsCredits c) (books : CreditBooks c s)
    (replies : Replies c s after) : CreditBooks c after ∧ Keeps s after := by
  obtain ⟨frames, returns⟩ := replies
  have settled := (returns.settled mode.all).credits mode.credit books.fit
  have below : ∀ row dst, after.downstream.credit row dst ≤ s.downstream.credit row dst := by
    intro row dst
    have total := settled row dst
    omega
  obtain ⟨places, stays⟩ := books.places.emits returns.emits
  exact ⟨⟨places, fun row dst => Nat.lt_of_le_of_lt (below row dst) (books.fit row dst)⟩, stays,
    below⟩

end Moves

section Arrivals

variable {c : SwitchNodeConfig} {s after : SwitchNode}

theorem checkSYN_credits (g : Settings) (d : Downstream) (dev : Nat) (tag : SwitchSYNTag) :
    (d.checkSYN g dev tag).2.ingressDstCredits = d.ingressDstCredits := by
  have loop : ∀ (hosts : List Nat) (found : List Nat × Downstream),
      (hosts.foldl (Downstream.checkSYNDst dev tag) found).2.ingressDstCredits =
        found.2.ingressDstCredits := by
    intro hosts
    induction hosts with
    | nil => exact fun _ => rfl
    | cons host rest ih =>
        intro found
        rw [List.foldl_cons, ih]
        unfold Downstream.checkSYNDst
        simp only
        split <;> rfl
  exact loop _ _

theorem checkSYN_credit (g : Settings) (d : Downstream) (dev : Nat) (tag : SwitchSYNTag)
    (row dst : Nat) : (d.checkSYN g dev tag).2.credit row dst = d.credit row dst := by
  simp only [Downstream.credit, checkSYN_credits]

theorem CreditBooks.received (mode : CountsCredits c) (books : CreditBooks c s) {route : Nat → Nat}
    {inDev : Nat} {outDev : Option Nat} {p : Packet} (port : inDev < c.nDevices)
    (egress : ∀ dev, outDev = some dev → dev < c.nDevices) (host : p.dip < c.settings.hostNum)
    (success : s.receive c route inDev outDev p = .ok after) :
    CreditBooks c after ∧ Keeps s after := by
  obtain ⟨places, stays, debts | ⟨tag, -, replies⟩⟩ :=
    books.places.received port egress host success
  · exact ⟨books.of_debts places debts, Keeps.of_debts stays debts⟩
  · have credit := checkSYN_credit c.settings s.downstream (c.creditRow inDev p.sip) tag
    have checked : CreditBooks c { s with
        downstream := (s.downstream.checkSYN c.settings (c.creditRow inDev p.sip) tag).2 } :=
      ⟨books.places.downstream _, fun row dst => (credit row dst).symm ▸ books.fit row dst⟩
    obtain ⟨replied, kept⟩ := checked.replied mode replies
    exact ⟨replied, stays, fun row dst => (kept.credit row dst).trans (credit row dst).le⟩

end Arrivals

section Departures

variable {c : SwitchNodeConfig} {s after : SwitchNode}

/-- Where every destination but one keeps its bytes and owes no more, that one decides. -/
theorem nothingStranded_iff {target : Nat} (nothing : NothingStranded s)
    (holding : ∀ dst, dst ≠ target → s.Holding dst → after.Holding dst)
    (credit : ∀ dst, dst ≠ target → ∀ row,
      after.downstream.credit row dst ≤ s.downstream.credit row dst) :
    NothingStranded after ↔
      (¬ after.Holding target → ∀ row, after.downstream.credit row target = 0) := by
  constructor
  · exact fun all => all target
  · intro own dst gone row
    by_cases same : dst = target
    · subst same
      exact own gone row
    · have before := nothing dst (fun held => gone (holding dst same held)) row
      have below := credit dst same row
      omega

theorem CreditBooks.released (books : CreditBooks c s) {voq : Nat × Nat}
    (success : s.release c voq = .ok after) :
    CreditBooks c after ∧ (NothingStranded s →
      (LastByteSettled c s (.release voq) ↔ NothingStranded after)) := by
  unfold release at success
  obtain ⟨⟨sent, up⟩, sending, success⟩ := bind_ok.mp success
  have contents := (Upstream.checkAndSendOne_yields voq).of_ok sending
  cases sent with
  | none =>
      obtain rfl := Except.ok.inj success
      obtain ⟨framed, stays⟩ := books.places.frame contents
      have keeps : Keeps s { s with upstream := up } := ⟨stays, fun _ _ => Nat.le_refl _⟩
      refine ⟨⟨framed, books.fit⟩, fun nothing => ⟨fun _ => keeps.nothingStranded nothing, fun _ => ?_⟩⟩
      intro unit other attempt
      rw [sending] at attempt
      exact absurd (congrArg Prod.fst (Except.ok.inj attempt)) (by simp)
  | some unit =>
      obtain rfl := Except.ok.inj success
      obtain ⟨top, yields⟩ := contents
      obtain ⟨popped, data, target, sameDst, placed⟩ := books.places.yielded yields
      obtain ⟨kept, stays⟩ := popped.sent unit.outDev unit.qIndex unit.pkt fun _ => placed
      refine ⟨⟨kept, books.fit⟩, fun nothing => ?_⟩
      have others : ∀ dst, dst ≠ unit.dst → s.Holding dst →
          (({ s with upstream := up } : SwitchNode).switchSend c unit.outDev unit.qIndex
            unit.pkt).Holding dst := by
        rintro dst different (⟨place, other, member, here⟩ | queued)
        · rcases yields.kept member with rfl | before
          · exact absurd (here.symm.trans sameDst.symm) different
          · exact stays dst (.inl ⟨place, other, before, here⟩)
        · exact stays dst (.inr queued)
      have decides := nothingStranded_iff nothing others fun _ _ _ => Nat.le_refl _
      refine Iff.trans ?_ decides.symm
      rcases switchSend_cases c { s with upstream := up } unit.outDev unit.qIndex unit.pkt with
        ⟨takes, queues⟩ | ⟨full, queues⟩
      · have held : (({ s with upstream := up } : SwitchNode).switchSend c unit.outDev unit.qIndex
            unit.pkt).Holding unit.dst := by
          refine .inr ⟨unit.outDev, unit.qIndex, unit.pkt, ?_, data, target⟩
          rw [queues, setCell_same]
          simp
        refine ⟨fun _ gone => absurd held gone, fun _ other other' attempt refused => ?_⟩
        rw [sending] at attempt
        obtain ⟨same, rfl⟩ := Prod.mk.inj (Except.ok.inj attempt)
        obtain rfl := Option.some.inj same
        exact absurd takes refused
      · have same := holding_congr { s with upstream := up }
          (({ s with upstream := up } : SwitchNode).switchSend c unit.outDev unit.qIndex unit.pkt)
          (fun _ => rfl) queues unit.dst
        constructor
        · exact fun settled gone => settled unit up sending full fun held => gone (same.mpr held)
        · intro own other other' attempt _ gone
          rw [sending] at attempt
          obtain ⟨here, rfl⟩ := Prod.mk.inj (Except.ok.inj attempt)
          obtain rfl := Option.some.inj here
          exact own fun held => gone (same.mp held)

theorem notifyDequeue_credited (mode : CountsCredits c) {route : Nat → Nat} {ifIndex qIndex : Nat}
    {p : Packet} (credited : Credited c p) {sent : Packet × SwitchNode}
    (success : s.notifyDequeue c route ifIndex qIndex p = .ok sent) :
    ((s.depart c (p.flowId.getD 0) ifIndex qIndex p).creditedFor c p).returnCredits c route p
      (p.flowId.getD 0) = .ok sent.2 := by
  obtain ⟨floodgate, data, source⟩ := credited
  have row : c.creditRow (p.flowId.getD 0) p.sip = p.flowId.getD 0 :=
    SwitchNodeConfig.creditRow_all mode.all _ _
  unfold notifyDequeue at success
  simp only [floodgate, data, Bool.and_self, if_true] at success
  obtain ⟨ignore, rule, success⟩ := bind_ok.mp success
  have counted : (c.isToR && ignore) = false := by
    rcases (Upstream.shouldIgnore_input c.upstream p.sip).of_ok rule with ⟨_, ignored⟩ | ⟨rfl, _⟩
    · have tor : c.isToR = false := by
        by_contra both
        exact source ⟨by simpa using both, ignored⟩
      rw [tor, Bool.false_and]
    · rw [Bool.and_false]
  simp only [counted, Bool.false_eq_true, if_false, mode.credit] at success
  obtain ⟨returned, loops, success⟩ := bind_ok.mp success
  obtain rfl := Except.ok.inj success
  rw [creditedFor, row]
  rw [row] at loops
  exact loops

theorem served_congr {first second : SwitchNode} (upstream : second.upstream = first.upstream)
    (downstream : second.downstream = first.downstream) (dst row other : Nat) :
    Served c second dst row other ↔ Served c first dst row other := by
  have due : second.ackDue c = first.ackDue c := by
    funext i
    simp only [ackDue, upstream]
  have same : ∀ i, second.backlog c dst i = first.backlog c dst i := by
    intro i
    simp only [backlog, due, downstream]
  simp only [Served, Flushes, same, upstream]

theorem creditedFor_credit (mode : CountsCredits c) (s : SwitchNode) (p : Packet) (row dst : Nat) :
    (s.creditedFor c p).downstream.credit row dst =
      if row = p.flowId.getD 0 ∧ dst = p.dip then
        Word32.add (s.downstream.credit (p.flowId.getD 0) p.dip) p.size
      else s.downstream.credit row dst := by
  unfold creditedFor
  rw [SwitchNodeConfig.creditRow_all mode.all]
  exact Downstream.addCreditCounter_credit _ _ _ _ _ _

/-- `SwitchNotifyDequeue` for a packet that has been taken out of its queue. -/
structure Settles (c : SwitchNodeConfig) (s : SwitchNode) (p : Packet) (after : SwitchNode) : Prop where
  books : CreditBooks c after
  holding : ∀ dst, after.Holding dst ↔ s.Holding dst
  others : ∀ dst, ¬ (p.isUdp = true ∧ dst = p.dip) → ∀ row,
    after.downstream.credit row dst ≤ s.downstream.credit row dst
  last : p.isUdp = true → ¬ s.Holding p.dip →
    (LeavesNothing c s p ↔ ∀ row, after.downstream.credit row p.dip = 0)

theorem CreditBooks.notified (mode : CountsCredits c)
    (timerOff : c.settings.switchCreditInterval = 0) (books : CreditBooks c s) {route : Nat → Nat}
    {ifIndex qIndex : Nat} {p : Packet} {sent : Packet × SwitchNode}
    (placed : p.isUdp = true → Placed c p ifIndex qIndex)
    (success : s.notifyDequeue c route ifIndex qIndex p = .ok sent) :
    Settles c s p sent.2 := by
  obtain ⟨travels, after⟩ := sent
  have plain : ¬ Credited c p → after = s.depart c (p.flowId.getD 0) ifIndex qIndex p := by
    intro free
    cases (notifyDequeue_notified c route s ifIndex qIndex p).of_ok success with
    | plain => rfl
    | credit credited => exact absurd credited free
    | psn credited => exact absurd credited free
  have loops := fun credited => notifyDequeue_credited mode credited success
  have departed := depart_signals c s (p.flowId.getD 0) ifIndex qIndex p
  obtain ⟨device, upstream, downstream⟩ := discharged_same c s (p.flowId.getD 0) ifIndex qIndex p
  have before := (books.places.same device upstream).1.signals departed |>.1
  have sameCredit : (s.depart c (p.flowId.getD 0) ifIndex qIndex p).downstream = s.downstream :=
    departed.downstream.trans downstream
  have sameUpstream : (s.depart c (p.flowId.getD 0) ifIndex qIndex p).upstream = s.upstream :=
    depart_upstream _
  have sameHolding : ∀ dst, (s.depart c (p.flowId.getD 0) ifIndex qIndex p).Holding dst ↔
      s.Holding dst := by
    intro dst
    obtain ⟨frames, emits⟩ := departed.emits
    rw [emits.holding_iff]
    apply holding_congr
    · intro voq
      rw [upstream]
    · funext dev q
      simp only [queues, device]
  generalize s.depart c (p.flowId.getD 0) ifIndex qIndex p = d at *
  by_cases credited : Credited c p
  case neg =>
    obtain rfl := plain credited
    refine ⟨⟨before, sameCredit ▸ books.fit⟩, sameHolding, fun dst _ row => by rw [sameCredit],
      fun _ _ => ?_⟩
    rw [sameCredit]
    exact ⟨fun leaves => leaves.2 credited,
      fun zero => ⟨fun yes => absurd yes credited, fun _ => zero⟩⟩
  obtain ⟨port, below, ingress⟩ := (placed credited.2.1).ingress
  have row : p.flowId.getD 0 = port := by rw [ingress, Option.getD_some]
  have fit : (d.creditedFor c p).downstream.CreditsFit := by
    intro i dst
    rw [creditedFor_credit mode]
    split
    · exact Word32.add_lt _ _
    · rw [sameCredit]
      exact books.fit i dst
  have serves := returnCredits_serves mode timerOff fit (row.symm ▸ below) (loops credited)
  have start : ∀ i dst, (d.creditedFor c p).downstream.credit i dst =
      (s.creditedFor c p).downstream.credit i dst := by
    intro i dst
    rw [creditedFor_credit mode, creditedFor_credit mode, sameCredit]
  have served : ∀ other, Served c (d.creditedFor c p) p.dip (p.flowId.getD 0) other ↔
      Served c (s.creditedFor c p) p.dip (p.flowId.getD 0) other := by
    apply served_congr
    · exact sameUpstream
    · rw [creditedFor, creditedFor, sameCredit]
  obtain ⟨frames, emits⟩ := serves.emits
  have sameDevices : Emits d after frames := emits.congr ⟨rfl, rfl⟩ ⟨rfl, rfl⟩
  refine ⟨⟨(before.emits sameDevices).1, serves.fit fit⟩,
    fun dst => (sameDevices.holding_iff dst).trans (sameHolding dst), fun dst other i => ?_,
    fun data gone => ?_⟩
  · have below := serves.le i dst
    rw [start, creditedFor_credit mode, if_neg fun same => other ⟨credited.2.1, same.2⟩] at below
    exact below
  · have due : Returned c (d.creditedFor c p) p.dip p.dip := by
      have empty : d.upstream.getBufferDst p.dip = 0 := by
        apply before.counted.none
        intro voq unit member here
        exact gone ((sameHolding p.dip).mp (.inl ⟨voq, unit, member, here⟩))
      unfold Returned
      split
      · simp only [ackDue, creditedFor, empty, Nat.zero_le, decide_true, Bool.or_true]
      · rfl
    constructor
    · intro leaves i
      by_cases owed : (s.creditedFor c p).downstream.credit i p.dip = 0
      · have bound := serves.le i p.dip
        rw [start, owed] at bound
        omega
      · exact serves.returned i p.dip ((served i).mpr (leaves.1 credited i owed)) due
    · refine fun zero => ⟨fun _ i owed => ?_, fun free => absurd credited free⟩
      by_contra unserved
      have kept := serves.kept i p.dip fun both => unserved ((served i).mp both.1)
      rw [start, zero i] at kept
      exact owed kept.symm

theorem CreditBooks.transmitted (mode : CountsCredits c)
    (timerOff : c.settings.switchCreditInterval = 0) (books : CreditBooks c s) {route : Nat → Nat}
    {ifIndex : Nat} {out : Option Packet}
    (success : s.transmit c route ifIndex = .ok (out, after)) :
    CreditBooks c after ∧ (NothingStranded s →
      (LastByteSettled c s (.transmit ifIndex) ↔ NothingStranded after)) := by
  unfold transmit at success
  cases served : (s.device ifIndex).queue.dequeueRR (c.device ifIndex) (s.device ifIndex).paused with
  | none =>
      rw [served] at success
      obtain ⟨-, rfl⟩ := Prod.mk.inj (Except.ok.inj success)
      refine ⟨books, fun nothing => ⟨fun _ => nothing, fun _ p qIndex queue again => ?_⟩⟩
      rw [served] at again
      contradiction
  | some head =>
      obtain ⟨p, qIndex, queue⟩ := head
      rw [served] at success
      obtain ⟨sent, notifying, success⟩ := bind_ok.mp success
      obtain ⟨-, rfl⟩ := Prod.mk.inj (Except.ok.inj success)
      obtain ⟨taken, before, placed⟩ :=
        books.places.taken (BEgressQueue.dequeueRR_dequeues served)
      have credits : (s.taken ifIndex queue).downstream = s.downstream := rfl
      have decided : LastByteSettled c s (.transmit ifIndex) ↔ (p.isUdp = true →
          ¬ (s.taken ifIndex queue).Holding p.dip → LeavesNothing c (s.taken ifIndex queue) p) := by
        constructor
        · exact fun settled => settled p qIndex queue served
        · intro own other q' queue' again
          rw [served] at again
          obtain ⟨rfl, -, rfl⟩ := Prod.mk.inj (Option.some.inj again) |>.imp id Prod.mk.inj
          exact own
      have settles := CreditBooks.notified mode timerOff ⟨taken, books.fit⟩ placed notifying
      refine ⟨settles.books, fun nothing => decided.trans ?_⟩
      by_cases data : p.isUdp = true
      · have decides : NothingStranded sent.2 ↔ (¬ sent.2.Holding p.dip →
            ∀ row, sent.2.downstream.credit row p.dip = 0) := nothingStranded_iff nothing
          (fun dst different held => (settles.holding dst).mpr
            ((before dst held).resolve_right fun gone => different gone.2))
          (fun dst different => settles.others dst fun same => different same.2)
        rw [decides, settles.holding]
        constructor
        · exact fun leaves gone => (settles.last data gone).mp (leaves data gone)
        · exact fun zero _ gone => (settles.last data gone).mpr (zero gone)
      · have keeps : Keeps s sent.2 :=
          ⟨fun dst held => (settles.holding dst).mpr
              ((before dst held).resolve_right fun gone => data gone.1),
            fun row dst => settles.others dst (fun same => data same.1) row⟩
        exact ⟨fun _ => keeps.nothingStranded nothing, fun _ yes => absurd yes data⟩

theorem CreditBooks.init (c : SwitchNodeConfig) : CreditBooks c (SwitchNode.init c) :=
  ⟨Places.init c, fun _ _ => show 0 < 4294967296 by decide⟩

/-- One event keeps the books, and leaves nothing stranded exactly if its last byte is settled. -/
theorem CreditBooks.handled (mode : CountsCredits c)
    (timerOff : c.settings.switchCreditInterval = 0) (books : CreditBooks c s)
    {label : NodeEvent × Option Packet} (step : Step c s label after) :
    CreditBooks c after ∧ (NothingStranded s →
      (LastByteSettled c s label.1 ↔ NothingStranded after)) := by
  obtain ⟨event, out⟩ := label
  obtain ⟨valid, route, success⟩ := step
  have plain : CreditBooks c after ∧ Keeps s after → (LastByteSettled c s event ↔ True) →
      CreditBooks c after ∧ (NothingStranded s →
        (LastByteSettled c s event ↔ NothingStranded after)) := by
    rintro ⟨kept, keeps⟩ free
    exact ⟨kept, fun nothing => free.trans (iff_of_true trivial (keeps.nothingStranded nothing))⟩
  cases event with
  | receive inDev outDev p =>
      obtain ⟨middle, received, success⟩ := bind_ok.mp success
      obtain ⟨-, rfl⟩ := Prod.mk.inj (Except.ok.inj success)
      exact plain (books.received mode valid.1 valid.2.1 valid.2.2 received) Iff.rfl
  | goOn inDev outDev p tagged =>
      obtain ⟨middle, forwarded, success⟩ := bind_ok.mp success
      obtain ⟨-, rfl⟩ := Prod.mk.inj (Except.ok.inj success)
      have known : ∃ port < c.nDevices, (p.setFlowId (some inDev)).flowId = some port :=
        ⟨inDev, valid.1, rfl⟩
      obtain ⟨places, stays, same⟩ := books.places.forwarded known valid.2.1 valid.2.2 forwarded
      have debts := SameDebts.of_eq same
      exact plain ⟨books.of_debts places debts, Keeps.of_debts stays debts⟩ Iff.rfl
  | release voq =>
      obtain ⟨middle, released, success⟩ := bind_ok.mp success
      obtain ⟨-, rfl⟩ := Prod.mk.inj (Except.ok.inj success)
      exact books.released released
  | transmit ifIndex => exact books.transmitted mode timerOff success
  | creditTimeout dev dst =>
      obtain ⟨middle, fired, success⟩ := bind_ok.mp success
      obtain ⟨-, rfl⟩ := Prod.mk.inj (Except.ok.inj success)
      exact plain (books.replied mode ((creditTimeout_replies c route s dev dst).of_ok fired))
        Iff.rfl
  | synTimeout dev recent =>
      obtain ⟨-, rfl⟩ := Prod.mk.inj (Except.ok.inj success)
      refine plain ?_ Iff.rfl
      have probes := synTimeout_probes c route s dev recent
      generalize s.synTimeout c route dev recent = after at probes
      cases probes with
      | idle => exact ⟨books, Keeps.refl s⟩
      | @sent port p body =>
          have control : p.isUdp = false := by simp [Packet.isUdp, body]
          obtain ⟨places, stays⟩ := books.places.sent port 0 p fun data => by simp [control] at data
          exact ⟨⟨places, books.fit⟩, stays, fun _ _ => Nat.le_refl _⟩

end Departures

/-- With the credit timer off, credit is left without a byte in the switch exactly if a last byte
leaves unsettled. -/
theorem no_credit_stranded (c : SwitchNodeConfig) (mode : CountsCredits c)
    (timerOff : c.settings.switchCreditInterval = 0)
    (entries : List (SwitchNode × NodeEvent × Option Packet)) (s : SwitchNode)
    (run : Run (Traced (Step c)) (init c) entries s) :
    (∀ entry ∈ entries, LastByteSettled c entry.1 entry.2.1) ↔
      (∀ entry ∈ entries, NothingStranded entry.1) ∧ NothingStranded s :=
  run.traced_iff (CreditBooks c) NothingStranded (fun state label => LastByteSettled c state label.1)
    (CreditBooks.init c) (fun _ _ _ => rfl)
    (fun _ _ _ books _ step => (books.handled mode timerOff step).1)
    (fun _ _ _ books nothing step => (books.handled mode timerOff step).2 nothing)

/-- A switch that acknowledges every 2000 bytes and has a window of two packets for host 1. -/
def sparingSwitch : SwitchNodeConfig :=
  smallSwitch
    { narrow .switchDstCredit unlimited 2048 Word32.two_kilo_lt with
      settings :=
        { (narrow .switchDstCredit unlimited 2048 Word32.two_kilo_lt).settings with
          switchByteCounter := 2000 } } true

/-- One packet comes from port 1 and two from port 2, of which the last has to wait. It leaves when
the window is back and brings the credit of port 2 above the threshold. -/
def twoUpstreams : List NodeEvent :=
  [.receive 1 (some 3) kiloPacket, .receive 2 (some 3) kiloPacket, .receive 2 (some 3) kiloPacket,
    .transmit 3, .transmit 3, .receive 3 none kiloReturn, .release (0, 1), .transmit 3]

theorem sparingSwitch_credits : CountsCredits sparingSwitch := ⟨rfl, rfl, by decide⟩

theorem twoUpstreams_run : ∃ labels s, labels.map Prod.fst = twoUpstreams ∧
    Run (Step sparingSwitch) (init sparingSwitch) labels s ∧
    s.holds sparingSwitch 1 = false ∧ s.downstream.credit 1 1 = 1024 := by
  have passed : (match (init sparingSwitch).execute sparingSwitch id twoUpstreams with
      | .ok s => decide (s.holds sparingSwitch 1 = false ∧ s.downstream.credit 1 1 = 1024)
      | .error _ => false) = true := by
    decide +kernel
  have valid : ∀ event ∈ twoUpstreams, event.Valid sparingSwitch := by
    simp [twoUpstreams, NodeEvent.Valid, sparingSwitch, smallSwitch, narrow, kiloPacket,
      kiloReturn, SwitchNodeConfig.settings]
  split at passed
  · rename_i s executed
    obtain ⟨labels, same, run⟩ := execute_run twoUpstreams valid executed
    exact ⟨labels, s, same, run, of_decide_eq_true passed⟩
  · exact Bool.noConfusion passed

theorem no_credit_stranded_two_upstreams :
    ∃ (entries : List (SwitchNode × NodeEvent × Option Packet)) (s : SwitchNode),
      entries.map (fun entry => entry.2.1) = twoUpstreams ∧
      ((∀ entry ∈ entries, LastByteSettled sparingSwitch entry.1 entry.2.1) ↔
        (∀ entry ∈ entries, NothingStranded entry.1) ∧ NothingStranded s) := by
  obtain ⟨labels, s, same, run, -⟩ := twoUpstreams_run
  obtain ⟨entries, traced, told⟩ := run.traced
  refine ⟨entries, s, ?_, no_credit_stranded sparingSwitch sparingSwitch_credits rfl entries s traced⟩
  rw [← same, ← told, List.map_map]
  rfl

/-- All bytes are gone, and the 1024 bytes of port 1 are never returned. -/
theorem credit_of_port_stranded : ¬ ∀ (c : SwitchNodeConfig), CountsCredits c →
    c.settings.switchCreditInterval = 0 → 1 ≤ c.settings.switchByteCounter → ∀ labels s,
    Run (Step c) (init c) labels s → NothingStranded s := by
  intro claim
  obtain ⟨labels, s, -, run, gone, owed⟩ := twoUpstreams_run
  have books : CreditBooks sparingSwitch s := run.invariant (CreditBooks sparingSwitch)
    (CreditBooks.init sparingSwitch)
    fun _ _ _ books step => (books.handled sparingSwitch_credits rfl step).1
  have nothing := claim sparingSwitch sparingSwitch_credits rfl (by decide) labels s run 1
    (fun held => by simp [books.places.holds held] at gone) 1
  rw [owed] at nothing
  contradiction

end SwitchNode

end Floodgate
