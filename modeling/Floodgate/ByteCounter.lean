import Floodgate.CreditLoops
import Floodgate.StrandedCredit
import Mathlib.Data.Nat.ModEq

/-! `switch_byte_counter` 0 and 1: the Switch-ACKs that a dequeue sends, with the devices they are
handed to. -/

namespace Floodgate

open Std Outcome LabelledRun Downstream

/-- What the script makes of `switch_byte_counter` when Floodgate is on. -/
def configuredByteCounter (mode : AckMode) (counter : Nat) : Nat :=
  if mode = .hostPerPacketAck then counter
  else if counter = 0 then 1
  else counter

namespace SwitchNodeConfig

def withByteCounter (c : SwitchNodeConfig) (counter : Nat) : SwitchNodeConfig :=
  { c with
    upstream := { c.upstream with
      settings := { c.upstream.settings with switchByteCounter := counter } } }

/-- Device 0 is the loopback device. -/
def HasDevice (c : SwitchNodeConfig) (dev : Nat) : Prop := 1 ≤ dev ∧ dev < c.nDevices

def ackDevice (c : SwitchNodeConfig) (route : Nat → Nat) (row : Nat) : Nat :=
  if c.settings.switchAckMode = .switchIngressCredit ∧ c.settings.resetOnlyToRSwitchWin = true then
    route row
  else row

end SwitchNodeConfig

namespace SwitchNode

section Emitted

variable (c : SwitchNodeConfig) (route : Nat → Nat) (s : SwitchNode)

/-- The number of a row that is compared with the threshold. -/
def owed (p : Packet) (row : Nat) : Except Assertion Nat :=
  match c.settings.switchAckMode with
  | .switchIngressCredit =>
      (List.range c.settings.hostNum).foldlM
        (fun sum dst => do
          let credit ← s.downstream.getIngressDstCreditCounter c.settings (s.ackDue c) row dst
          .ok (Word32.add sum credit)) 0
  | .switchDstCredit => s.downstream.getIngressDstCreditCounter c.settings (s.ackDue c) row p.dip
  | .hostPerPacketAck => .ok 0

def rowACK (p : Packet) (row credit : Nat) : Packet :=
  match c.settings.switchAckMode with
  | .switchIngressCredit =>
      let tag := s.downstream.getSwitchACKTag c.settings (s.ackDue c) row
      if c.settings.resetOnlyToRSwitchWin then
        switchACKPacket c.settings tag (c.id * c.settings.hostPerRack)
          (row * c.settings.hostPerRack)
      else switchACKPacket c.settings tag 0 0
  | _ =>
      switchACKPacket c.settings
        (SwitchACKTag.setAckedSize
          (if c.settings.switchAbsolutePsn then s.downstream.nxtAckPsn row p.dip else credit))
        p.dip (if c.settings.resetOnlyToRSwitchWin then row * c.settings.hostPerRack else p.sip)

def serveRow (p : Packet) (row credit : Nat) : Except Assertion SwitchNode :=
  match c.settings.switchAckMode with
  | .switchIngressCredit => s.sendAccSwitchACK c route row
      (s.downstream.getSwitchACKTag c.settings (s.ackDue c) row)
  | .switchDstCredit => s.sendSwitchACK c row p.dip
      (if c.settings.resetOnlyToRSwitchWin then row * c.settings.hostPerRack else p.sip)
      (if c.settings.switchAbsolutePsn then s.downstream.nxtAckPsn row p.dip else credit)
  | .hostPerPacketAck => .ok s

def emitACK (p : Packet) (threshold row : Nat) :
    Except Assertion (List (Nat × Packet) × SwitchNode) := do
  let credit ← s.owed c p row
  let after ← s.checkAndSendACK c route p threshold row
  .ok (if after.1 then [(c.ackDevice route row, s.rowACK c p row credit)] else [], after.2)

def emitACKs (p : Packet) (threshold : Nat) (s : SwitchNode) :
    List Nat → Except Assertion (List (Nat × Packet) × SwitchNode)
  | [] => .ok ([], s)
  | row :: rest => do
      let first ← s.emitACK c route p threshold row
      let later ← emitACKs p threshold first.2 rest
      .ok (first.1 ++ later.1, later.2)

def emitCredits (p : Packet) (creditId : Nat) :
    Except Assertion (List (Nat × Packet) × SwitchNode) := do
  let num := if c.settings.switchAckThM > 0 then c.upstreamNum else 1
  let first ← emitACKs c route p c.settings.switchByteCounter s (creditIds creditId num)
  if first.1.isEmpty && decide (c.settings.switchByteCounter > 1) &&
      decide (c.settings.switchCreditInterval = 0) &&
      first.2.upstream.getBufferDst p.dip == 0 then
    emitACKs c route p 1 first.2 (creditIds ((creditId + num) % num) c.upstreamNum)
  else .ok first

/-- `SwitchNotifyDequeue` up to the loops: the state they start in, if the packet counts. -/
def creditDequeue (ifIndex qIndex : Nat) (p : Packet) : Except Assertion (Option SwitchNode) := do
  let inDev := p.flowId.getD 0
  let departed := s.depart c inDev ifIndex qIndex p
  if c.useFloodgate && p.isUdp then
    let ignore ← c.upstream.shouldIgnore p.sip
    if c.isToR && ignore then .ok none
    else
      let creditId := c.creditRow inDev p.sip
      if c.settings.switchAbsolutePsn then
        match p.ingressPsn with
        | none => .error .ingressPsnPresent
        | some psn => .ok (some { departed with
            downstream := departed.downstream.updateNxtAckPsn creditId p.dip psn })
      else .ok (some { departed with
        downstream := departed.downstream.addCreditCounter creditId p.dip p.size })
  else .ok none

def dequeueACKs (ifIndex qIndex : Nat) (p : Packet) : Except Assertion (List (Nat × Packet)) := do
  match ← s.creditDequeue c ifIndex qIndex p with
  | none => .ok []
  | some owing => do
      let emitted ← owing.emitCredits c route p (c.creditRow (p.flowId.getD 0) p.sip)
      .ok emitted.1

def sentACKs : NodeEvent → Except Assertion (List (Nat × Packet))
  | .transmit ifIndex =>
      match (s.device ifIndex).queue.dequeueRR (c.device ifIndex) (s.device ifIndex).paused with
      | none => .ok []
      | some (p, qIndex, queue) => (s.taken ifIndex queue).dequeueACKs c route ifIndex qIndex p
  | _ => .ok []

end Emitted

end SwitchNode

/-- What is seen of an event: the packet that leaves and the Switch-ACKs of a dequeue. -/
structure ACKLabel where
  route : Nat → Nat
  event : NodeEvent
  out : Option Packet
  acks : List (Nat × Packet)

namespace SwitchNode

def ACKStep (c : SwitchNodeConfig) (s : SwitchNode) (label : ACKLabel) (after : SwitchNode) : Prop :=
  s.handle c label.route label.event = .ok (label.out, after) ∧
    s.sentACKs c label.route label.event = .ok label.acks

def RowOwed (c : SwitchNodeConfig) (s : SwitchNode) (p : Packet) (row : Nat) : Prop :=
  ∃ credit, s.owed c p row = .ok credit ∧ 1 ≤ credit

/-- The condition: each row that the loop of a dequeue visits is owed something and has a device. -/
def RowsOwed (c : SwitchNodeConfig) (s : SwitchNode) (route : Nat → Nat) : NodeEvent → Prop
  | .transmit ifIndex => ∀ p qIndex queue owing,
      (s.device ifIndex).queue.dequeueRR (c.device ifIndex) (s.device ifIndex).paused =
        some (p, qIndex, queue) →
      (s.taken ifIndex queue).creditDequeue c ifIndex qIndex p = .ok (some owing) →
      ∀ row ∈ visited c (c.creditRow (p.flowId.getD 0) p.sip),
        RowOwed c owing p row ∧ c.HasDevice (c.ackDevice route row)
  | _ => True

section Logs

variable {c : SwitchNodeConfig} {route : Nat → Nat} {s after : SwitchNode}

theorem checkAndSendACK_owed (p : Packet) (threshold row : Nat)
    (acks : c.settings.switchAckMode ≠ .hostPerPacketAck) :
    s.checkAndSendACK c route p threshold row = (s.owed c p row >>= fun credit =>
      if threshold ≤ credit then (s.serveRow c route p row credit).map (true, ·)
      else .ok (false, s)) := by
  unfold checkAndSendACK owed checkIngressCreditCounter serveRow
  cases mode : c.settings.switchAckMode with
  | hostPerPacketAck => exact absurd mode acks
  | switchIngressCredit =>
      simp only [bind_assoc, ok_bind, decide_eq_true_eq]
      rfl
  | switchDstCredit => rfl

theorem emitACK_owed (p : Packet) (threshold row : Nat)
    (acks : c.settings.switchAckMode ≠ .hostPerPacketAck) :
    s.emitACK c route p threshold row = (s.owed c p row >>= fun credit =>
      if threshold ≤ credit then (s.serveRow c route p row credit).map
        ([(c.ackDevice route row, s.rowACK c p row credit)], ·)
      else .ok ([], s)) := by
  unfold emitACK
  rw [checkAndSendACK_owed p threshold row acks]
  cases s.owed c p row with
  | error reason => rfl
  | ok credit =>
      simp only [ok_bind]
      split
      · cases s.serveRow c route p row credit with
        | error reason => rfl
        | ok served => rfl
      · rfl

/-- What counts for a row is the same in two states. -/
structure SameRow (before after : SwitchNode) (row : Nat) : Prop where
  upstream : after.upstream = before.upstream
  credits : after.downstream.ingressDstCredits row = before.downstream.ingressDstCredits row
  nxtAckPsn : after.downstream.nxtAckPsn row = before.downstream.nxtAckPsn row
  lstAckPsn : after.downstream.lstAckPsn row = before.downstream.lstAckPsn row

theorem SameRow.trans {middle : SwitchNode} {row : Nat} (first : SameRow s middle row)
    (second : SameRow middle after row) : SameRow s after row :=
  ⟨second.upstream.trans first.upstream, second.credits.trans first.credits,
    second.nxtAckPsn.trans first.nxtAckPsn, second.lstAckPsn.trans first.lstAckPsn⟩

theorem SameRow.ackDue {row : Nat} (same : SameRow s after row) : after.ackDue c = s.ackDue c := by
  funext dst
  unfold SwitchNode.ackDue
  rw [same.upstream]

theorem SameRow.getIngressDstCreditCounter {row : Nat} (same : SameRow s after row) (g : Settings)
    (due : Nat → Bool) (dst : Nat) :
    after.downstream.getIngressDstCreditCounter g due row dst =
      s.downstream.getIngressDstCreditCounter g due row dst := by
  unfold Downstream.getIngressDstCreditCounter Downstream.credit
  rw [same.credits, same.nxtAckPsn, same.lstAckPsn]

theorem SameRow.owed {row : Nat} (same : SameRow s after row) (p : Packet) :
    after.owed c p row = s.owed c p row := by
  unfold SwitchNode.owed
  simp only [same.ackDue, same.getIngressDstCreditCounter]

def RowKept (row : Nat) (before after : Downstream) : Prop :=
  after.ingressDstCredits row = before.ingressDstCredits row ∧
    after.nxtAckPsn row = before.nxtAckPsn row ∧ after.lstAckPsn row = before.lstAckPsn row

theorem setCell_row {Value : Type} (table : Nat → Nat → Value) {row other : Nat} (column : Nat)
    (value : Value) (apart : other ≠ row) : setCell table row column value other = table other := by
  funext j
  simp [setCell, apart]

theorem cleanIngressCreditCounter_other {d cleaned : Downstream} {g : Settings} {row other : Nat}
    {tag : SwitchACKTag} (success : d.cleanIngressCreditCounter g row tag = .ok cleaned)
    (apart : other ≠ row) : RowKept other d cleaned := by
  unfold Downstream.cleanIngressCreditCounter at success
  split at success
  · rw [← Except.ok.inj success]
    refine List.foldlRecOn _ _ ⟨rfl, rfl, rfl⟩ fun state kept dst _ => ?_
    split
    · exact ⟨kept.1, kept.2.1, (setCell_row _ _ _ apart).trans kept.2.2⟩
    · exact kept
  · split at success
    · rw [← Except.ok.inj success]
      exact ⟨if_neg apart, rfl, rfl⟩
    · have kept : Holds (fun _ => True) (RowKept other d)
          ((d.ingressDstCredits row).keys.foldlM
            (fun d dst =>
              if tag.getACKEntry dst ≤ d.credit row dst then
                .ok (d.setCredits row ((d.ingressDstCredits row).insert dst
                  (Word32.sub (d.credit row dst) (Word32.trunc (tag.getACKEntry dst)))))
              else .error Assertion.creditCovered) d) := by
        apply Holds.foldlM _ _ _ ⟨rfl, rfl, rfl⟩
        intro state key _ kept
        split
        · exact ⟨(if_neg apart).trans kept.1, kept.2⟩
        · trivial
      exact kept.of_ok success

theorem serveRow_other {p : Packet} {row other credit : Nat} (apart : other ≠ row)
    (success : s.serveRow c route p row credit = .ok after) : SameRow s after other := by
  unfold serveRow at success
  split at success
  · unfold sendAccSwitchACK at success
    obtain ⟨cleaned, clean, success⟩ := bind_ok.mp success
    obtain ⟨credits, next, last⟩ := cleanIngressCreditCounter_other clean apart
    rw [← Except.ok.inj success]
    refine ⟨?_, credits, next, last⟩
    simp only
    split
    · rfl
    · rfl
  · unfold sendSwitchACK at success
    obtain ⟨cleaned, clean, success⟩ := bind_ok.mp success
    rw [← Except.ok.inj success]
    unfold Downstream.cleanIngressDstCreditCounter at clean
    split at clean
    · rw [← Except.ok.inj clean]
      exact ⟨rfl, rfl, rfl, setCell_row _ _ _ apart⟩
    · split at clean
      · contradiction
      · split at clean
        · rw [← Except.ok.inj clean]
          exact ⟨rfl, if_neg apart, rfl, rfl⟩
        · contradiction
  · rw [← Except.ok.inj success]
    exact ⟨rfl, rfl, rfl, rfl⟩

theorem SameRow.rowOwed {row : Nat} (same : SameRow s after row) (p : Packet) :
    RowOwed c after p row ↔ RowOwed c s p row := by
  unfold RowOwed
  rw [same.owed]

theorem emitACK_visit {p : Packet} {threshold row : Nat}
    (acks : c.settings.switchAckMode ≠ .hostPerPacketAck) {log : List (Nat × Packet)}
    (success : s.emitACK c route p threshold row = .ok (log, after)) :
    (∀ other, other ≠ row → SameRow s after other) ∧
      ∃ credit, s.owed c p row = .ok credit ∧
        log = if threshold ≤ credit then [(c.ackDevice route row, s.rowACK c p row credit)]
          else [] := by
  rw [emitACK_owed p threshold row acks] at success
  obtain ⟨credit, owed, success⟩ := bind_ok.mp success
  split at success
  · rename_i enough
    cases served : s.serveRow c route p row credit with
    | error reason =>
        rw [served] at success
        contradiction
    | ok next =>
        rw [served] at success
        obtain ⟨rfl, rfl⟩ := Prod.mk.inj (Except.ok.inj success)
        exact ⟨fun other apart => serveRow_other apart served, credit, owed, (if_pos enough).symm⟩
  · rename_i short
    obtain ⟨rfl, rfl⟩ := Prod.mk.inj (Except.ok.inj success)
    exact ⟨fun _ _ => ⟨rfl, rfl, rfl, rfl⟩, credit, owed, (if_neg short).symm⟩

/-- A row that is owed a byte is served whether the threshold is 0 or 1. -/
theorem emitACK_threshold {p : Packet} {row : Nat}
    (acks : c.settings.switchAckMode ≠ .hostPerPacketAck) (owing : RowOwed c s p row) :
    s.emitACK c route p 0 row = s.emitACK c route p 1 row := by
  obtain ⟨credit, owed, enough⟩ := owing
  rw [emitACK_owed p 0 row acks, emitACK_owed p 1 row acks, owed, ok_bind, ok_bind,
    if_pos (Nat.zero_le credit), if_pos enough]

section Rows

variable {p : Packet}

theorem emitACK_state (threshold row : Nat) (acks : c.settings.switchAckMode ≠ .hostPerPacketAck) :
    (s.emitACK c route p threshold row).map (fun emitted => (!emitted.1.isEmpty, emitted.2)) =
      s.checkAndSendACK c route p threshold row := by
  rw [emitACK_owed p threshold row acks, checkAndSendACK_owed p threshold row acks]
  cases s.owed c p row with
  | error reason => rfl
  | ok credit =>
      simp only [ok_bind]
      split
      · cases s.serveRow c route p row credit with
        | error reason => rfl
        | ok served => rfl
      · rfl

theorem emitACKs_state (threshold : Nat) (ids : List Nat)
    (acks : c.settings.switchAckMode ≠ .hostPerPacketAck) :
    (emitACKs c route p threshold s ids).map (fun emitted => (!emitted.1.isEmpty, emitted.2)) =
      s.checkAndSendACKs c route p threshold ids := by
  have loop : ∀ (ids : List Nat) (flag : Bool) (state : SwitchNode),
      (emitACKs c route p threshold state ids).map
        (fun emitted => (flag || !emitted.1.isEmpty, emitted.2)) =
      ids.foldlM (fun before creditId => do
        let after ← before.2.checkAndSendACK c route p threshold creditId
        Except.ok (before.1 || after.1, after.2)) (flag, state) := by
    intro ids
    induction ids with
    | nil =>
        intro flag state
        simp only [emitACKs, Except.map, List.isEmpty_nil, Bool.not_true, Bool.or_false,
          List.foldlM_nil]
        rfl
    | cons row rest ih =>
        intro flag state
        rw [List.foldlM_cons, ← emitACK_state threshold row acks]
        unfold emitACKs
        cases state.emitACK c route p threshold row with
        | error reason => rfl
        | ok first =>
            have later := ih (flag || !first.1.isEmpty) first.2
            simp only [Except.map, ok_bind] at later ⊢
            rw [← later]
            cases emitACKs c route p threshold first.2 rest with
            | error reason => rfl
            | ok rest =>
                have both : (first.1 ++ rest.1).isEmpty = (first.1.isEmpty && rest.1.isEmpty) := by
                  cases first.1 with | _ => rfl
                simp only [ok_bind, both, Bool.not_and, Bool.or_assoc]
  have result := loop ids false s
  simp only [Bool.false_or] at result
  exact result

theorem emitCredits_state (creditId : Nat) (acks : c.settings.switchAckMode ≠ .hostPerPacketAck) :
    (s.emitCredits c route p creditId).map Prod.snd = s.returnCredits c route p creditId := by
  unfold emitCredits returnCredits
  simp only
  rw [← emitACKs_state _ _ acks]
  cases emitACKs c route p c.settings.switchByteCounter s
      (creditIds creditId (if c.settings.switchAckThM > 0 then c.upstreamNum else 1)) with
  | error reason => rfl
  | ok first =>
      have flag : Except.map (fun emitted : List (Nat × Packet) × SwitchNode =>
          (!emitted.1.isEmpty, emitted.2)) (Except.ok first : Except Assertion _) =
          .ok (!first.1.isEmpty, first.2) := rfl
      simp only [flag, ok_bind, Bool.not_not, apply_ite (Except.map Prod.snd)]
      split
      · rw [← emitACKs_state _ _ acks]
        cases emitACKs c route p 1 first.2 (creditIds _ c.upstreamNum) with
        | error reason => rfl
        | ok flushed => rfl
      · rfl

theorem emitACKs_all {ids : List Nat} (acks : c.settings.switchAckMode ≠ .hostPerPacketAck)
    {log : List (Nat × Packet)} (success : emitACKs c route p 0 s ids = .ok (log, after)) :
    log.map Prod.fst = ids.map (c.ackDevice route) := by
  induction ids generalizing s log with
  | nil =>
      obtain ⟨rfl, -⟩ := Prod.mk.inj (Except.ok.inj success)
      rfl
  | cons row rest ih =>
      unfold emitACKs at success
      obtain ⟨first, visit, success⟩ := bind_ok.mp success
      obtain ⟨later, visits, success⟩ := bind_ok.mp success
      obtain ⟨rfl, rfl⟩ := Prod.mk.inj (Except.ok.inj success)
      obtain ⟨-, credit, -, logged⟩ := emitACK_visit acks visit
      rw [logged, if_pos (Nat.zero_le credit), List.map_append, ih visits]
      rfl

/-- With threshold 1 as many ACKs are sent as there are rows exactly if each of them is owed a
byte. -/
theorem emitACKs_owed {ids : List Nat} (distinct : ids.Nodup)
    (acks : c.settings.switchAckMode ≠ .hostPerPacketAck) {log : List (Nat × Packet)}
    (success : emitACKs c route p 1 s ids = .ok (log, after)) :
    log.length ≤ ids.length ∧
      (log.length = ids.length ↔ ∀ row ∈ ids, RowOwed c s p row) := by
  induction ids generalizing s log with
  | nil =>
      obtain ⟨rfl, -⟩ := Prod.mk.inj (Except.ok.inj success)
      simp
  | cons row rest ih =>
      unfold emitACKs at success
      obtain ⟨first, visit, success⟩ := bind_ok.mp success
      obtain ⟨later, visits, success⟩ := bind_ok.mp success
      obtain ⟨rfl, rfl⟩ := Prod.mk.inj (Except.ok.inj success)
      obtain ⟨fresh, distinct⟩ := List.nodup_cons.mp distinct
      obtain ⟨others, credit, owed, logged⟩ := emitACK_visit acks visit
      obtain ⟨short, equal⟩ := ih distinct visits
      have same : (∀ other ∈ rest, RowOwed c first.2 p other) ↔
          ∀ other ∈ rest, RowOwed c s p other := by
        refine forall₂_congr fun other member => ?_
        exact (others other fun here => fresh (here ▸ member)).rowOwed p
      rw [same] at equal
      rw [List.length_append, List.length_cons, List.forall_mem_cons, ← equal]
      by_cases enough : 1 ≤ credit
      · rw [if_pos enough] at logged
        have here : RowOwed c s p row := ⟨credit, owed, enough⟩
        simp only [logged, List.length_singleton, here, true_and]
        omega
      · rw [if_neg enough] at logged
        have here : ¬ RowOwed c s p row := by
          intro owing
          obtain ⟨found, again, large⟩ := owing
          rw [owed] at again
          exact enough (Except.ok.inj again ▸ large)
        simp only [logged, List.length_nil, here, false_and, iff_false]
        omega

theorem emitACKs_threshold {ids : List Nat} (distinct : ids.Nodup)
    (acks : c.settings.switchAckMode ≠ .hostPerPacketAck) (owing : ∀ row ∈ ids, RowOwed c s p row) :
    emitACKs c route p 0 s ids = emitACKs c route p 1 s ids := by
  induction ids generalizing s with
  | nil => rfl
  | cons row rest ih =>
      obtain ⟨fresh, distinct⟩ := List.nodup_cons.mp distinct
      obtain ⟨here, later⟩ := List.forall_mem_cons.mp owing
      unfold emitACKs
      rw [emitACK_threshold acks here]
      cases visit : s.emitACK c route p 1 row with
      | error reason => rfl
      | ok first =>
          have others := (emitACK_visit acks visit).1
          have next : ∀ other ∈ rest, RowOwed c first.2 p other := by
            intro other member
            exact ((others other fun same => fresh (same ▸ member)).rowOwed p).mpr (later other member)
          simp only [ok_bind, ih distinct next]

end Rows

theorem creditIds_distinct (start num : Nat) : (creditIds start num).Nodup := by
  by_cases below : start < num
  · exact creditIds_nodup below
  · unfold creditIds
    refine List.Nodup.map_on (fun i first j second same => ?_) List.nodup_range
    rw [List.mem_range] at first second
    have small : ∀ k, k < num → (start + k) % num < start := fun k inside =>
      Nat.lt_of_lt_of_le (Nat.mod_lt _ (by omega)) (by omega)
    split at same
    · split at same
      · omega
      · have apart := small j second
        omega
    · split at same
      · have apart := small i first
        omega
      · have turn : Nat.ModEq num (start + i) (start + j) := same
        exact Nat.ModEq.eq_of_lt_of_lt (Nat.ModEq.add_left_cancel' start turn) first second

theorem emitACKs_counter (n : Nat) (p : Packet) (threshold : Nat) (ids : List Nat) :
    emitACKs (c.withByteCounter n) route p threshold s ids = emitACKs c route p threshold s ids := by
  induction ids generalizing s with
  | nil => rfl
  | cons row rest ih =>
      have visit : s.emitACK (c.withByteCounter n) route p threshold row =
          s.emitACK c route p threshold row := rfl
      unfold emitACKs
      simp only [visit, ih]

theorem emitCredits_small {n : Nat} (small : n ≤ 1) (p : Packet) (row : Nat) :
    s.emitCredits (c.withByteCounter n) route p row = emitACKs c route p n s (visited c row) := by
  have quiet : decide (n > 1) = false := decide_eq_false (by omega)
  have loop : emitACKs (c.withByteCounter n) route p n s (visited c row) =
      emitACKs c route p n s (visited c row) := emitACKs_counter n p n _
  unfold emitCredits
  change (emitACKs (c.withByteCounter n) route p n s (visited c row) >>= _) = _
  rw [loop]
  cases emitACKs c route p n s (visited c row) with
  | error reason => rfl
  | ok first =>
      simp only [ok_bind]
      change (if (first.1.isEmpty && decide (n > 1) && _ && _) = true then _ else _) = _
      rw [quiet]
      simp

/-- `SwitchNotifyDequeue` in its two parts. -/
theorem notifyDequeue_credit (ifIndex qIndex : Nat) (p : Packet) :
    s.notifyDequeue c route ifIndex qIndex p =
      (s.creditDequeue c ifIndex qIndex p >>= fun credited => match credited with
        | none => .ok (p.setFlowId none, s.depart c (p.flowId.getD 0) ifIndex qIndex p)
        | some owing =>
            (owing.returnCredits c route p (c.creditRow (p.flowId.getD 0) p.sip)).map
              fun returned => (if c.settings.switchAbsolutePsn then
                (p.setFlowId none).removeIngressPsn else p.setFlowId none, returned)) := by
  unfold notifyDequeue creditDequeue
  simp only
  split
  · cases c.upstream.shouldIgnore p.sip with
    | error reason => rfl
    | ok ignore =>
        simp only [ok_bind]
        split
        · rfl
        · split
          · cases p.ingressPsn with
            | none => rfl
            | some psn => 
                simp only [ok_bind]
                rfl
          · rfl
  · rfl

end Logs

section Steps

variable {c : SwitchNodeConfig} {s after other : SwitchNode} {label : ACKLabel}

theorem emitCredits_agree {route : Nat → Nat} {p : Packet} {row : Nat}
    (acks : c.settings.switchAckMode ≠ .hostPerPacketAck)
    (owing : ∀ visit ∈ visited c row, RowOwed c s p visit) :
    s.emitCredits (c.withByteCounter 0) route p row =
      s.emitCredits (c.withByteCounter 1) route p row := by
  rw [emitCredits_small (Nat.zero_le 1), emitCredits_small (Nat.le_refl 1)]
  exact emitACKs_threshold (creditIds_distinct _ _) acks owing

theorem emitCredits_owed {route : Nat → Nat} {p : Packet} {row : Nat}
    (acks : c.settings.switchAckMode ≠ .hostPerPacketAck) {log : List (Nat × Packet)}
    (zero : s.emitCredits (c.withByteCounter 0) route p row = .ok (log, other))
    (one : s.emitCredits (c.withByteCounter 1) route p row = .ok (log, after)) :
    log.map Prod.fst = (visited c row).map (c.ackDevice route) ∧
      ∀ visit ∈ visited c row, RowOwed c s p visit := by
  rw [emitCredits_small (Nat.zero_le 1)] at zero
  rw [emitCredits_small (Nat.le_refl 1)] at one
  have devices := emitACKs_all acks zero
  have many := congrArg List.length devices
  rw [List.length_map, List.length_map] at many
  exact ⟨devices, (emitACKs_owed (creditIds_distinct _ _) acks one).2.mp many⟩

theorem transmit_none {route : Nat → Nat} {ifIndex : Nat}
    (next : (s.device ifIndex).queue.dequeueRR (c.device ifIndex) (s.device ifIndex).paused = none) :
    s.handle c route (.transmit ifIndex) = .ok (none, s) ∧
      s.sentACKs c route (.transmit ifIndex) = .ok [] := by
  unfold handle transmit sentACKs
  simp only [next]
  exact ⟨trivial, trivial⟩

theorem transmit_some {route : Nat → Nat} {ifIndex qIndex : Nat} {p : Packet} {queue : BEgressQueue}
    (next : (s.device ifIndex).queue.dequeueRR (c.device ifIndex) (s.device ifIndex).paused =
      some (p, qIndex, queue)) :
    s.handle c route (.transmit ifIndex) =
        ((s.taken ifIndex queue).notifyDequeue c route ifIndex qIndex p).map
          (fun sent => (some sent.1, sent.2)) ∧
      s.sentACKs c route (.transmit ifIndex) =
        (s.taken ifIndex queue).dequeueACKs c route ifIndex qIndex p := by
  unfold handle transmit sentACKs
  simp only [next]
  refine ⟨?_, trivial⟩
  change ((s.taken ifIndex queue).notifyDequeue c route ifIndex qIndex p >>= _) = _
  cases (s.taken ifIndex queue).notifyDequeue c route ifIndex qIndex p with
  | error reason => rfl
  | ok sent => rfl

theorem handle_agree {route : Nat → Nat} {event : NodeEvent}
    (acks : c.settings.switchAckMode ≠ .hostPerPacketAck) (owed : RowsOwed c s route event) :
    s.handle (c.withByteCounter 0) route event = s.handle (c.withByteCounter 1) route event ∧
      s.sentACKs (c.withByteCounter 0) route event =
        s.sentACKs (c.withByteCounter 1) route event := by
  cases event with
  | transmit ifIndex =>
      cases next : (s.device ifIndex).queue.dequeueRR (c.device ifIndex) (s.device ifIndex).paused with
      | none =>
          have zero := @transmit_none (c.withByteCounter 0) s route ifIndex next
          have one := @transmit_none (c.withByteCounter 1) s route ifIndex next
          exact ⟨zero.1.trans one.1.symm, zero.2.trans one.2.symm⟩
      | some dequeued =>
          obtain ⟨p, qIndex, queue⟩ := dequeued
          have zero := @transmit_some (c.withByteCounter 0) s route ifIndex qIndex p queue next
          have one := @transmit_some (c.withByteCounter 1) s route ifIndex qIndex p queue next
          rw [zero.1, zero.2, one.1, one.2, notifyDequeue_credit, notifyDequeue_credit]
          unfold dequeueACKs
          have same : (s.taken ifIndex queue).creditDequeue (c.withByteCounter 0) ifIndex qIndex p =
            (s.taken ifIndex queue).creditDequeue (c.withByteCounter 1) ifIndex qIndex p := rfl
          rw [same]
          cases counted : (s.taken ifIndex queue).creditDequeue (c.withByteCounter 1) ifIndex qIndex
              p with
          | error reason => exact ⟨rfl, rfl⟩
          | ok credited =>
              cases credited with
              | none => exact ⟨rfl, rfl⟩
              | some owing =>
                  have agree := @emitCredits_agree c owing route p
                    (c.creditRow (p.flowId.getD 0) p.sip) acks
                    fun row member => (owed p qIndex queue owing next counted row member).1
                  have states := congrArg (Except.map Prod.snd) agree
                  rw [@emitCredits_state (c.withByteCounter 0) route owing p _ acks,
                    @emitCredits_state (c.withByteCounter 1) route owing p _ acks] at states
                  have row : ∀ n, (c.withByteCounter n).creditRow = c.creditRow := fun _ => rfl
                  simp only [ok_bind, row, states, agree]
                  exact ⟨rfl, trivial⟩
  | receive inDev outDev p => exact ⟨rfl, rfl⟩
  | goOn inDev outDev p tagged => exact ⟨rfl, rfl⟩
  | release voq => exact ⟨rfl, rfl⟩
  | creditTimeout dev dst => exact ⟨rfl, rfl⟩
  | synTimeout dev recent => exact ⟨rfl, rfl⟩

theorem ACKStep.zero (acks : c.settings.switchAckMode ≠ .hostPerPacketAck)
    (step : s.ACKStep (c.withByteCounter 1) label after)
    (owed : RowsOwed c s label.route label.event) :
    s.ACKStep (c.withByteCounter 0) label after := by
  obtain ⟨handled, sent⟩ := handle_agree acks owed
  obtain ⟨step, log⟩ := step
  exact ⟨handled.trans step, sent.trans log⟩

theorem ACKStep.emitted {route : Nat → Nat} {ifIndex : Nat} {log : List (Nat × Packet)}
    (sent : s.sentACKs c route (.transmit ifIndex) = .ok log) {p : Packet} {qIndex : Nat}
    {queue : BEgressQueue} {owing : SwitchNode}
    (next : (s.device ifIndex).queue.dequeueRR (c.device ifIndex) (s.device ifIndex).paused =
      some (p, qIndex, queue))
    (counted : (s.taken ifIndex queue).creditDequeue c ifIndex qIndex p = .ok (some owing)) :
    ∃ finish, owing.emitCredits c route p (c.creditRow (p.flowId.getD 0) p.sip) =
      .ok (log, finish) := by
  rw [(transmit_some next).2] at sent
  unfold dequeueACKs at sent
  simp only [counted, ok_bind] at sent
  obtain ⟨⟨emitted, finish⟩, loops, result⟩ := bind_ok.mp sent
  obtain rfl := Except.ok.inj result
  exact ⟨finish, loops⟩

theorem ACKStep.owed (acks : c.settings.switchAckMode ≠ .hostPerPacketAck)
    (one : s.ACKStep (c.withByteCounter 1) label after)
    (zero : s.ACKStep (c.withByteCounter 0) label other)
    (devices : ∀ ack ∈ label.acks, c.HasDevice ack.1) : RowsOwed c s label.route label.event := by
  obtain ⟨route, event, out, log⟩ := label
  cases event with
  | transmit ifIndex =>
      intro p qIndex queue owing next counted
      obtain ⟨finish, first⟩ := @ACKStep.emitted (c.withByteCounter 1) s route ifIndex log one.2 p
        qIndex queue owing next counted
      obtain ⟨finish', second⟩ := @ACKStep.emitted (c.withByteCounter 0) s route ifIndex log zero.2 p
        qIndex queue owing next counted
      obtain ⟨handed, owed⟩ := emitCredits_owed acks second first
      intro row member
      refine ⟨owed row member, ?_⟩
      have listed : c.ackDevice route row ∈ log.map Prod.fst := by
        rw [handed]
        exact List.mem_map_of_mem member
      obtain ⟨ack, inside, device⟩ := List.mem_map.mp listed
      rw [← device]
      exact devices ack inside
  | receive inDev outDev p => trivial
  | goOn inDev outDev p tagged => trivial
  | release voq => trivial
  | creditTimeout dev dst => trivial
  | synTimeout dev recent => trivial

theorem ACKStep.devices (acks : c.settings.switchAckMode ≠ .hostPerPacketAck)
    (one : s.ACKStep (c.withByteCounter 1) label after)
    (owed : RowsOwed c s label.route label.event) : ∀ ack ∈ label.acks, c.HasDevice ack.1 := by
  have zero := one.zero acks owed
  obtain ⟨route, event, out, log⟩ := label
  cases event with
  | transmit ifIndex =>
      cases next : (s.device ifIndex).queue.dequeueRR (c.device ifIndex) (s.device ifIndex).paused with
      | none =>
          have quiet := (@transmit_none (c.withByteCounter 1) s route ifIndex next).2
          rw [Except.ok.inj (one.2.symm.trans quiet)]
          simp
      | some dequeued =>
          obtain ⟨p, qIndex, queue⟩ := dequeued
          cases counted : (s.taken ifIndex queue).creditDequeue (c.withByteCounter 1) ifIndex qIndex
              p with
          | error reason =>
              have sent := one.2
              rw [(@transmit_some (c.withByteCounter 1) s route ifIndex qIndex p queue next).2] at sent
              unfold dequeueACKs at sent
              rw [counted] at sent
              contradiction
          | ok credited =>
              cases credited with
              | none =>
                  have sent := one.2
                  rw [(@transmit_some (c.withByteCounter 1) s route ifIndex qIndex p queue next).2]
                    at sent
                  unfold dequeueACKs at sent
                  simp only [counted, ok_bind] at sent
                  rw [← Except.ok.inj sent]
                  simp
              | some owing =>
                  obtain ⟨finish, first⟩ := @ACKStep.emitted (c.withByteCounter 1) s route ifIndex
                    log one.2 p qIndex queue owing next counted
                  obtain ⟨finish', second⟩ := @ACKStep.emitted (c.withByteCounter 0) s route ifIndex
                    log zero.2 p qIndex queue owing next counted
                  have handed := (emitCredits_owed acks second first).1
                  intro ack inside
                  have listed : ack.1 ∈ log.map Prod.fst := List.mem_map_of_mem inside
                  rw [handed] at listed
                  obtain ⟨row, member, device⟩ := List.mem_map.mp listed
                  rw [← device]
                  exact (owed p qIndex queue owing next counted row member).2
  | receive inDev outDev p =>
      rw [← Except.ok.inj one.2]
      simp
  | goOn inDev outDev p tagged =>
      rw [← Except.ok.inj one.2]
      simp
  | release voq =>
      rw [← Except.ok.inj one.2]
      simp
  | creditTimeout dev dst =>
      rw [← Except.ok.inj one.2]
      simp
  | synTimeout dev recent =>
      rw [← Except.ok.inj one.2]
      simp

theorem ACKStep.deterministic (first : s.ACKStep c label after) (second : s.ACKStep c label other) :
    other = after :=
  (Prod.mk.inj (Except.ok.inj (first.1.symm.trans second.1))).2.symm

/-- A run with counter 0 that logs the same meets the condition all along, and goes through the
states of the run with counter 1. -/
theorem run_owed (acks : c.settings.switchAckMode ≠ .hostPerPacketAck) {start : SwitchNode}
    {entries : List (SwitchNode × ACKLabel)}
    (one : Run (Traced (ACKStep (c.withByteCounter 1))) start entries after) :
    ∀ other, Run (ACKStep (c.withByteCounter 0)) start (entries.map Prod.snd) other →
      (∀ entry ∈ entries, ∀ ack ∈ entry.2.acks, c.HasDevice ack.1) →
      other = after ∧ ∀ entry ∈ entries, RowsOwed c entry.1 entry.2.route entry.2.event := by
  induction one with
  | nil =>
      intro other zero _
      exact ⟨Run.nil_iff.mp zero, by simp⟩
  | @snoc entries middle after entry earlier last ih =>
      intro other zero devices
      rw [List.map_append, List.map_singleton] at zero
      obtain ⟨between, before, step⟩ := Run.snoc_iff.mp zero
      simp only [List.forall_mem_append, List.forall_mem_singleton] at devices ⊢
      obtain ⟨same, owed⟩ := ih between before devices.1
      obtain ⟨state, label⟩ := entry
      obtain ⟨rfl, moved⟩ := last
      rw [same] at step
      have here := moved.owed acks step devices.2
      exact ⟨(moved.zero acks here).deterministic step, owed, here⟩

theorem run_zero (acks : c.settings.switchAckMode ≠ .hostPerPacketAck) {start : SwitchNode}
    {entries : List (SwitchNode × ACKLabel)}
    (one : Run (Traced (ACKStep (c.withByteCounter 1))) start entries after)
    (owed : ∀ entry ∈ entries, RowsOwed c entry.1 entry.2.route entry.2.event) :
    Run (ACKStep (c.withByteCounter 0)) start (entries.map Prod.snd) after ∧
      ∀ entry ∈ entries, ∀ ack ∈ entry.2.acks, c.HasDevice ack.1 := by
  induction one with
  | nil => exact ⟨.nil, by simp⟩
  | @snoc entries middle after entry earlier last ih =>
      simp only [List.forall_mem_append, List.forall_mem_singleton] at owed ⊢
      obtain ⟨run, devices⟩ := ih owed.1
      obtain ⟨state, label⟩ := entry
      obtain ⟨rfl, moved⟩ := last
      rw [List.map_append]
      exact ⟨run.snoc (moved.zero acks owed.2), devices, moved.devices acks owed.2⟩

/-- The settings 0 and 1 are made one by the script; a switch with counter 0 does what one with
counter 1 does exactly if every row that a dequeue visits is owed something and has a device. -/
theorem byte_counters (c : SwitchNodeConfig)
    (acks : c.settings.switchAckMode ≠ .hostPerPacketAck) :
    (∀ counter ≤ 1, c.withByteCounter (configuredByteCounter c.settings.switchAckMode counter) =
      c.withByteCounter 1) ∧
    ∀ (start : SwitchNode) (entries : List (SwitchNode × ACKLabel)) (finish : SwitchNode),
      Run (Traced (ACKStep (c.withByteCounter 1))) start entries finish →
      ((∀ entry ∈ entries, RowsOwed c entry.1 entry.2.route entry.2.event) ↔
        Run (ACKStep (c.withByteCounter 0)) start (entries.map Prod.snd) finish ∧
          ∀ entry ∈ entries, ∀ ack ∈ entry.2.acks, c.HasDevice ack.1) := by
  constructor
  · intro counter small
    have one : configuredByteCounter c.settings.switchAckMode counter = 1 := by
      unfold configuredByteCounter
      rw [if_neg acks]
      split
      · rfl
      · omega
    rw [one]
  · intro start entries finish run
    constructor
    · intro owed
      exact run_zero acks run owed
    · intro zero
      exact (run_owed acks run finish zero.1 zero.2).2

def logEvents (c : SwitchNodeConfig) (route : Nat → Nat) :
    SwitchNode → List NodeEvent → Except Assertion (List ACKLabel × SwitchNode)
  | s, [] => .ok ([], s)
  | s, event :: rest => do
      let sent ← s.handle c route event
      let acks ← s.sentACKs c route event
      let later ← logEvents c route sent.2 rest
      .ok (⟨route, event, sent.1, acks⟩ :: later.1, later.2)

theorem logEvents_run {route : Nat → Nat} {events : List NodeEvent} {labels : List ACKLabel}
    (logged : logEvents c route s events = .ok (labels, after)) :
    Run (ACKStep c) s labels after ∧ labels.map ACKLabel.event = events ∧
      ∀ label ∈ labels, label.route = route := by
  induction events generalizing s labels with
  | nil =>
      obtain ⟨rfl, rfl⟩ := Prod.mk.inj (Except.ok.inj logged)
      exact ⟨.nil, rfl, by simp⟩
  | cons event rest ih =>
      unfold logEvents at logged
      obtain ⟨sent, handled, logged⟩ := bind_ok.mp logged
      obtain ⟨acks, emitted, logged⟩ := bind_ok.mp logged
      obtain ⟨later, others, logged⟩ := bind_ok.mp logged
      obtain ⟨rfl, rfl⟩ := Prod.mk.inj (Except.ok.inj logged)
      obtain ⟨run, same, routes⟩ := ih others
      have first : s.ACKStep c ⟨route, event, sent.1, acks⟩ sent.2 := ⟨handled, emitted⟩
      refine ⟨(Run.single first).append run, ?_, List.forall_mem_cons.mpr ⟨rfl, routes⟩⟩
      rw [List.map_cons, same]

theorem run_executes {route : Nat → Nat} {labels : List ACKLabel}
    (run : Run (ACKStep c) s labels after) (routes : ∀ label ∈ labels, label.route = route) :
    s.execute c route (labels.map ACKLabel.event) = .ok after := by
  induction run with
  | nil => rfl
  | @snoc labels middle after label earlier last ih =>
      simp only [List.forall_mem_append, List.forall_mem_singleton] at routes
      have handled := last.1
      rw [routes.2] at handled
      unfold execute at ih ⊢
      rw [List.map_append, List.foldlM_append, ih routes.1, List.map_singleton]
      simp only [ok_bind, List.foldlM_cons, handled]
      rfl

end Steps

def ackingSwitch (thM : Rat) : SwitchNodeConfig :=
  smallSwitch
    { narrow .switchDstCredit unlimited 2048 Word32.two_kilo_lt with
      settings :=
        { (narrow .switchDstCredit unlimited 2048 Word32.two_kilo_lt).settings with
          switchAckThM := thM } } true

def onePassage : List NodeEvent := [.receive 1 (some 3) kiloPacket, .transmit 3]

theorem onePassage_logged (thM : Rat) (either : thM = 0 ∨ thM = 1) :
    ∃ labels finish, Run (ACKStep ((ackingSwitch thM).withByteCounter 1)) (init (ackingSwitch thM))
      labels finish ∧ labels.map ACKLabel.event = onePassage ∧
      (∀ label ∈ labels, label.route = id) ∧ labels.map (fun label => label.acks.length) = [0, 1] := by
  have passed : (match logEvents ((ackingSwitch thM).withByteCounter 1) id
        (init (ackingSwitch thM)) onePassage with
      | .ok (labels, _) => decide (labels.map (fun label => label.acks.length) = [0, 1])
      | .error _ => false) = true := by
    rcases either with rfl | rfl
    · decide +kernel
    · decide +kernel
  split at passed
  · rename_i labels finish logged
    obtain ⟨run, events, routes⟩ := logEvents_run logged
    exact ⟨labels, finish, run, events, routes, of_decide_eq_true passed⟩
  · exact Bool.noConfusion passed

theorem byte_counters_one_passage :
    ∃ (entries : List (SwitchNode × ACKLabel)) (finish : SwitchNode),
      entries.map (fun entry => entry.2.acks.length) = [0, 1] ∧
      ((∀ entry ∈ entries, RowsOwed (ackingSwitch 0) entry.1 entry.2.route entry.2.event) ↔
        Run (ACKStep ((ackingSwitch 0).withByteCounter 0)) (init (ackingSwitch 0))
          (entries.map Prod.snd) finish ∧
        ∀ entry ∈ entries, ∀ ack ∈ entry.2.acks, (ackingSwitch 0).HasDevice ack.1) := by
  obtain ⟨labels, finish, run, -, -, sent⟩ := onePassage_logged 0 (.inl rfl)
  obtain ⟨entries, traced, told⟩ := run.traced
  refine ⟨entries, finish, ?_, (byte_counters (ackingSwitch 0) (by decide)).2 _ _ _ traced⟩
  rw [← sent, ← told, List.map_map]
  rfl

/-- With delayed ACKs counter 0 sends an empty ACK for a port that has never been owed anything. -/
theorem delayed_counter_zero_fails : ¬ ∀ c : SwitchNodeConfig,
    c.settings.switchAckMode ≠ .hostPerPacketAck → ∀ labels finish,
    Run (ACKStep (c.withByteCounter 1)) (init c) labels finish →
    Run (ACKStep (c.withByteCounter 0)) (init c) labels finish := by
  intro claim
  obtain ⟨labels, finish, run, events, routes, -⟩ := onePassage_logged 1 (.inr rfl)
  have executed := run_executes (claim (ackingSwitch 1) (by decide) labels finish run) routes
  rw [events] at executed
  have fails : (match (init (ackingSwitch 1)).execute ((ackingSwitch 1).withByteCounter 0) id
      onePassage with
      | .ok _ => false
      | .error _ => true) = true := by
    decide +kernel
  rw [executed] at fails
  exact Bool.noConfusion fails

end SwitchNode

end Floodgate
