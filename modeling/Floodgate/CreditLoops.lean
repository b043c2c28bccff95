import Floodgate.NodeAcks

/-! What the credit loops leave in the books: the rows they serve, and what they leave owing. -/

namespace Floodgate

open Std Outcome Downstream

theorem creditIds_one (start : Nat) : creditIds start 1 = [start] := rfl

theorem creditIds_mem {start num : Nat} (below : start < num) (row : Nat) :
    row ∈ creditIds start num ↔ row < num := by
  unfold creditIds
  rw [List.mem_map]
  constructor
  · rintro ⟨i, inside, rfl⟩
    split
    · exact below
    · exact Nat.mod_lt _ (by omega)
  · intro inside
    by_cases later : start ≤ row
    · refine ⟨row - start, List.mem_range.mpr (by omega), ?_⟩
      split
      · omega
      · have sum : start + (row - start) = row := by omega
        rw [sum, Nat.mod_eq_of_lt inside]
    · refine ⟨num + row - start, List.mem_range.mpr (by omega), ?_⟩
      have sum : start + (num + row - start) = row + num := by omega
      rw [if_neg (by omega), sum, Nat.add_mod_right, Nat.mod_eq_of_lt inside]

theorem creditIds_nodup {start num : Nat} (below : start < num) : (creditIds start num).Nodup := by
  unfold creditIds
  apply List.Nodup.map_on
  · intro i first j second same
    rw [List.mem_range] at first second
    have value : ∀ k, k < num → (if k = 0 then start else (start + k) % num) =
        if start + k < num then start + k else start + k - num := by
      intro k inside
      by_cases zero : k = 0
      · simp [zero, below]
      · rw [if_neg zero]
        split
        · rename_i small
          exact Nat.mod_eq_of_lt small
        · rw [Nat.mod_eq_sub_mod (by omega), Nat.mod_eq_of_lt (by omega)]
    rw [value i first, value j second] at same
    split at same
    · split at same
      · omega
      · omega
    · split at same
      · omega
      · omega
  · exact List.nodup_range

namespace SwitchNode

/-- Credits are counted and every switch has its own window at each of its upstreams. -/
structure CountsCredits (c : SwitchNodeConfig) : Prop where
  credit : c.settings.switchAbsolutePsn = false
  all : c.settings.resetOnlyToRSwitchWin = false
  acks : c.settings.switchAckMode ≠ .hostPerPacketAck

/-- What the loops that run for a packet to `dst` compare with their threshold. -/
def backlog (c : SwitchNodeConfig) (s : SwitchNode) (dst row : Nat) : Nat :=
  match c.settings.switchAckMode with
  | .switchIngressCredit => (List.range c.settings.hostNum).foldl
      (fun sum i => Word32.add sum (if s.ackDue c i then s.downstream.credit row i else 0)) 0
  | _ => if s.ackDue c dst then s.downstream.credit row dst else 0

def Returned (c : SwitchNodeConfig) (s : SwitchNode) (dst i : Nat) : Prop :=
  match c.settings.switchAckMode with
  | .switchIngressCredit => s.ackDue c i = true
  | _ => i = dst

def visited (c : SwitchNodeConfig) (row : Nat) : List Nat :=
  creditIds row (if c.settings.switchAckThM > 0 then c.upstreamNum else 1)

/-- ACKs have been sent for some rows, on behalf of a packet to `dst`. -/
structure Serves (c : SwitchNodeConfig) (dst : Nat) (rows : Nat → Prop) (s after : SwitchNode) :
    Prop where
  emits : ∃ frames, Emits s after frames
  returned : ∀ row i, rows row → Returned c s dst i → after.downstream.credit row i = 0
  kept : ∀ row i, ¬ (rows row ∧ Returned c s dst i) →
    after.downstream.credit row i = s.downstream.credit row i

section Serves

variable {c : SwitchNodeConfig} {s middle after : SwitchNode} {dst : Nat} {rows : Nat → Prop}

theorem Serves.refl (c : SwitchNodeConfig) (dst : Nat) (s : SwitchNode) (none : ∀ row, ¬ rows row) :
    Serves c dst rows s s :=
  ⟨⟨_, Emits.refl s⟩, fun row _ served => absurd served (none row), fun _ _ _ => rfl⟩

theorem Serves.upstream (serves : Serves c dst rows s after) : after.upstream = s.upstream := by
  obtain ⟨frames, emits⟩ := serves.emits
  exact emits.upstream

theorem Serves.ackDue (serves : Serves c dst rows s after) (i : Nat) :
    after.ackDue c i = s.ackDue c i := by
  unfold SwitchNode.ackDue
  rw [serves.upstream]

theorem Serves.returned_iff (serves : Serves c dst rows s after) (i : Nat) :
    Returned c after dst i ↔ Returned c s dst i := by
  unfold Returned
  split
  · rw [serves.ackDue]
  · rfl

theorem Serves.le (serves : Serves c dst rows s after) (row i : Nat) :
    after.downstream.credit row i ≤ s.downstream.credit row i := by
  by_cases served : rows row ∧ Returned c s dst i
  · rw [serves.returned row i served.1 served.2]
    exact Nat.zero_le _
  · rw [serves.kept row i served]

theorem Serves.backlog (serves : Serves c dst rows s after) {row : Nat} (other : ¬ rows row) :
    after.backlog c dst row = s.backlog c dst row := by
  have same : ∀ i, after.downstream.credit row i = s.downstream.credit row i :=
    fun i => serves.kept row i fun served => other served.1
  unfold SwitchNode.backlog
  simp only [serves.ackDue, same]

theorem Serves.trans {later all : Nat → Prop} (left : Serves c dst rows s middle)
    (right : Serves c dst later middle after) (either : ∀ row, all row ↔ rows row ∨ later row) :
    Serves c dst all s after := by
  obtain ⟨frames, emits⟩ := left.emits
  obtain ⟨frames', emits'⟩ := right.emits
  refine ⟨⟨_, emits.trans emits'⟩, fun row i served back => ?_, fun row i apart => ?_⟩
  · rcases (either row).mp served with early | late
    · have zero := left.returned row i early back
      have below := right.le row i
      omega
    · exact right.returned row i late ((left.returned_iff i).mpr back)
  · rw [either] at apart
    rw [right.kept row i fun both => apart ⟨.inr both.1, (left.returned_iff i).mp both.2⟩,
      left.kept row i fun both => apart ⟨.inl both.1, both.2⟩]

end Serves

section Loops

variable {c : SwitchNodeConfig} {route : Nat → Nat} {s : SwitchNode}

/-- In the credit mode the sum over a row is the number it is compared with. -/
theorem checkIngressCreditCounter_credit (mode : CountsCredits c)
    (ingress : c.settings.switchAckMode = .switchIngressCredit) (row threshold dst : Nat) :
    s.downstream.checkIngressCreditCounter c.settings (s.ackDue c) row threshold =
      .ok (decide (threshold ≤ s.backlog c dst row)) := by
  have loop : ∀ (hosts : List Nat) (sum : Nat),
      hosts.foldlM (fun sum i => do
        let credit ← s.downstream.getIngressDstCreditCounter c.settings (s.ackDue c) row i
        Except.ok (Word32.add sum credit)) sum =
      (.ok (hosts.foldl (fun sum i =>
        Word32.add sum (if s.ackDue c i then s.downstream.credit row i else 0)) sum) :
        Except Assertion Nat) := by
    intro hosts
    induction hosts with
    | nil => exact fun _ => rfl
    | cons host rest ih =>
        intro sum
        rw [List.foldlM_cons, List.foldl_cons]
        have one : s.downstream.getIngressDstCreditCounter c.settings (s.ackDue c) row host =
            .ok (if s.ackDue c host then s.downstream.credit row host else 0) := by
          unfold getIngressDstCreditCounter
          rw [if_neg (by simp [mode.credit])]
          split <;> rfl
        rw [one]
        exact ih _
  unfold checkIngressCreditCounter
  rw [loop]
  simp only [ok_bind, backlog, ingress]

theorem getIngressDstCreditCounter_credit (mode : CountsCredits c)
    (single : c.settings.switchAckMode = .switchDstCredit) (row dst : Nat) :
    s.downstream.getIngressDstCreditCounter c.settings (s.ackDue c) row dst =
      .ok (s.backlog c dst row) := by
  unfold getIngressDstCreditCounter
  rw [if_neg (by simp [mode.credit])]
  simp only [backlog, single]
  split <;> rfl

theorem sendDueACK_serves (mode : CountsCredits c)
    (ingress : c.settings.switchAckMode = .switchIngressCredit) (fit : s.downstream.CreditsFit)
    {row : Nat} {after : SwitchNode} (dst : Nat)
    (success : s.sendAccSwitchACK c route row
      (s.downstream.getSwitchACKTag c.settings (s.ackDue c) row) = .ok after) :
    Serves c dst (fun i => i = row) s after := by
  have entries := @getSwitchACKTag_credit c.settings (s.ackDue c) s.downstream row mode.credit
  unfold sendAccSwitchACK at success
  simp only [mode.all, Bool.false_eq_true, if_false] at success
  obtain ⟨cleaned, clean, success⟩ := bind_ok.mp success
  obtain rfl := Except.ok.inj success
  have emits := switchSend_emits c s row (ackPacket_control c.settings
    (s.downstream.getSwitchACKTag c.settings (s.ackDue c) row) 0 0)
  have settled := (cleanIngress_settled ingress (ackDue_undelayed c s) (fun _ => entries)
    (fun absolute => absurd absolute (by simp [mode.credit])) 0 0).of_ok clean
  have balance := settled.credits mode.credit fit
  have left : ∀ i j, cleaned.credit i j = if i = row ∧ s.ackDue c j = true then 0
      else s.downstream.credit i j := by
    intro i j
    have total := balance i j
    by_cases here : i = row
    · subst here
      have small := fit i j
      have entry := entries j
      simp only [oneFrame, if_true, List.map_cons, List.map_nil, List.sum_cons, List.sum_nil,
        Packet.acked, switchACKPacket, controlPacket, ingress, entry] at total
      by_cases due : s.ackDue c j = true
      · rw [if_pos due, Word32.trunc_eq _ small] at total
        rw [if_pos ⟨rfl, due⟩]
        omega
      · have none : Word32.trunc 0 = 0 := rfl
        rw [if_neg due, none] at total
        rw [if_neg fun both => due both.2]
        omega
    · rw [if_neg fun both => here both.1]
      simpa [oneFrame, here] using total
  refine ⟨⟨_, emits.congr ⟨rfl, rfl⟩ ⟨rfl, rfl⟩⟩, fun i j served back => ?_, fun i j apart => ?_⟩
  · simp only [Returned, ingress] at back
    exact (left i j).trans (if_pos ⟨served, back⟩)
  · simp only [Returned, ingress] at apart
    exact (left i j).trans (if_neg apart)

theorem sendSwitchACK_serves (mode : CountsCredits c)
    (single : c.settings.switchAckMode = .switchDstCredit) {row dst ackDst size : Nat}
    {after : SwitchNode} (success : s.sendSwitchACK c row dst ackDst size = .ok after) :
    Serves c dst (fun i => i = row) s after := by
  unfold sendSwitchACK at success
  obtain ⟨cleaned, clean, success⟩ := bind_ok.mp success
  obtain rfl := Except.ok.inj success
  have emits := switchSend_emits c s row (ackPacket_control c.settings
    (SwitchACKTag.setAckedSize size) dst ackDst)
  unfold cleanIngressDstCreditCounter at clean
  rw [if_neg (by simp [mode.credit])] at clean
  have left : ∀ i j, cleaned.credit i j = if i = row ∧ j = dst then 0
      else s.downstream.credit i j := by
    intro i j
    split at clean
    · contradiction
    · split at clean
      · obtain rfl := Except.ok.inj clean
        exact credit_insert _ _ _ _ _ _
      · contradiction
  refine ⟨⟨_, emits.congr ⟨rfl, rfl⟩ ⟨rfl, rfl⟩⟩, fun i j served back => ?_, fun i j apart => ?_⟩
  · simp only [Returned, single] at back
    exact (left i j).trans (if_pos ⟨served, back⟩)
  · simp only [Returned, single] at apart
    exact (left i j).trans (if_neg apart)

theorem checkAndSendACK_serves (mode : CountsCredits c) (fit : s.downstream.CreditsFit)
    {p : Packet} {threshold row : Nat} {after : Bool × SwitchNode}
    (success : s.checkAndSendACK c route p threshold row = .ok after) :
    after.1 = decide (threshold ≤ s.backlog c p.dip row) ∧
      Serves c p.dip (fun i => i = row ∧ threshold ≤ s.backlog c p.dip row) s after.2 := by
  unfold checkAndSendACK at success
  cases shape : c.settings.switchAckMode with
  | hostPerPacketAck => exact absurd shape mode.acks
  | switchIngressCredit =>
      simp only [shape, checkIngressCreditCounter_credit mode shape row threshold p.dip,
        ok_bind, decide_eq_true_eq] at success
      split at success
      · rename_i enough
        obtain ⟨sent, sending, success⟩ := bind_ok.mp success
        obtain rfl := Except.ok.inj success
        have serves := sendDueACK_serves mode shape fit p.dip sending
        simp only [enough, decide_true, and_true]
        exact ⟨trivial, serves⟩
      · rename_i short
        obtain rfl := Except.ok.inj success
        exact ⟨(decide_eq_false short).symm, Serves.refl c p.dip s fun i both => short both.2⟩
  | switchDstCredit =>
      simp only [shape, getIngressDstCreditCounter_credit mode shape row p.dip, ok_bind] at success
      split at success
      · rename_i enough
        obtain ⟨sent, sending, success⟩ := bind_ok.mp success
        obtain rfl := Except.ok.inj success
        have serves := sendSwitchACK_serves mode shape sending
        simp only [enough, decide_true, and_true]
        exact ⟨trivial, serves⟩
      · rename_i short
        obtain rfl := Except.ok.inj success
        exact ⟨(decide_eq_false short).symm, Serves.refl c p.dip s fun i both => short both.2⟩

theorem Serves.fit {dst : Nat} {rows : Nat → Prop} {after : SwitchNode}
    (serves : Serves c dst rows s after) (fit : s.downstream.CreditsFit) :
    after.downstream.CreditsFit := fun row i =>
  Nat.lt_of_le_of_lt (serves.le row i) (fit row i)

/-- A loop serves the rows whose number reaches the threshold; a row served does not change the
number of another. -/
theorem checkAndSendACKs_serves (mode : CountsCredits c) {p : Packet} {threshold : Nat}
    (ids : List Nat) (distinct : ids.Nodup) (fit : s.downstream.CreditsFit)
    {after : Bool × SwitchNode} (success : s.checkAndSendACKs c route p threshold ids = .ok after) :
    (after.1 = true ↔ ∃ row ∈ ids, threshold ≤ s.backlog c p.dip row) ∧
      Serves c p.dip (fun row => row ∈ ids ∧ threshold ≤ s.backlog c p.dip row) s after.2 := by
  have loop : ∀ (ids : List Nat) (start after : Bool × SwitchNode), ids.Nodup →
      start.2.downstream.CreditsFit →
      ids.foldlM (fun before creditId => do
        let after ← before.2.checkAndSendACK c route p threshold creditId
        Except.ok (before.1 || after.1, after.2)) start = .ok after →
      (after.1 = true ↔ start.1 = true ∨
        ∃ row ∈ ids, threshold ≤ start.2.backlog c p.dip row) ∧
      Serves c p.dip (fun row => row ∈ ids ∧ threshold ≤ start.2.backlog c p.dip row)
        start.2 after.2 := by
    intro ids
    induction ids with
    | nil =>
        intro start after _ _ success
        obtain rfl := Except.ok.inj success
        exact ⟨by simp, Serves.refl c p.dip _ fun row both => absurd both.1 (by simp)⟩
    | cons id rest ih =>
        intro start after distinct fit success
        rw [List.foldlM_cons] at success
        obtain ⟨middle, one, success⟩ := bind_ok.mp success
        obtain ⟨sent, sending, one⟩ := bind_ok.mp one
        obtain rfl := Except.ok.inj one
        obtain ⟨fresh, distinct⟩ := List.nodup_cons.mp distinct
        obtain ⟨flag, serves⟩ := checkAndSendACK_serves mode fit sending
        obtain ⟨later, served⟩ := ih (start.1 || sent.1, sent.2) after distinct (serves.fit fit)
          success
        have same : ∀ row ∈ rest, sent.2.backlog c p.dip row = start.2.backlog c p.dip row := by
          intro row member
          exact serves.backlog fun both => fresh (both.1 ▸ member)
        constructor
        · rw [later]
          simp only [flag, Bool.or_eq_true, decide_eq_true_eq, List.mem_cons]
          constructor
          · rintro ((before | here) | ⟨row, member, enough⟩)
            · exact .inl before
            · exact .inr ⟨id, .inl rfl, here⟩
            · exact .inr ⟨row, .inr member, same row member ▸ enough⟩
          · rintro (before | ⟨row, rfl | member, enough⟩)
            · exact .inl (.inl before)
            · exact .inl (.inr enough)
            · exact .inr ⟨row, member, (same row member).symm ▸ enough⟩
        · apply serves.trans served
          intro row
          rw [List.mem_cons]
          constructor
          · rintro ⟨rfl | member, enough⟩
            · exact .inl ⟨rfl, enough⟩
            · exact .inr ⟨member, (same row member).symm ▸ enough⟩
          · rintro (⟨rfl, enough⟩ | ⟨member, enough⟩)
            · exact ⟨.inl rfl, enough⟩
            · exact ⟨.inr member, same row member ▸ enough⟩
  unfold checkAndSendACKs at success
  have result := loop ids (false, s) after distinct fit success
  simpa using result

theorem upstreamNum_all (mode : CountsCredits c) : c.upstreamNum = c.nDevices := by
  simp [SwitchNodeConfig.upstreamNum, mode.all]

theorem visited_nodup (mode : CountsCredits c) {row : Nat} (port : row < c.nDevices) :
    (visited c row).Nodup := by
  unfold visited
  split
  · rw [upstreamNum_all mode]
    exact creditIds_nodup port
  · rw [creditIds_one]
    exact List.nodup_singleton row

/-- The second loop runs: no row visited by the first reaches `switch_byte_counter`, which is above
1, and no packet of the destination waits in a VOQ. -/
def Flushes (c : SwitchNodeConfig) (s : SwitchNode) (dst row : Nat) : Prop :=
  1 < c.settings.switchByteCounter ∧ s.upstream.getBufferDst dst = 0 ∧
    ∀ other ∈ visited c row, s.backlog c dst other < c.settings.switchByteCounter

def Served (c : SwitchNodeConfig) (s : SwitchNode) (dst row other : Nat) : Prop :=
  other ∈ visited c row ∧ c.settings.switchByteCounter ≤ s.backlog c dst other ∨
    Flushes c s dst row ∧ other < c.nDevices ∧ 1 ≤ s.backlog c dst other

theorem returnCredits_serves (mode : CountsCredits c) (timerOff : c.settings.switchCreditInterval = 0)
    (fit : s.downstream.CreditsFit) {p : Packet} {row : Nat} (port : row < c.nDevices)
    {after : SwitchNode} (success : s.returnCredits c route p row = .ok after) :
    Serves c p.dip (Served c s p.dip row) s after := by
  unfold returnCredits at success
  obtain ⟨first, visiting, success⟩ := bind_ok.mp success
  obtain ⟨flag, serves⟩ :=
    checkAndSendACKs_serves mode (visited c row) (visited_nodup mode port) fit visiting
  have short : first.1 = false ↔
      ∀ other ∈ visited c row, s.backlog c p.dip other < c.settings.switchByteCounter := by
    rw [← Bool.not_eq_true, flag]
    simp
  have flushes : (!first.1 && decide (c.settings.switchByteCounter > 1) &&
      decide (c.settings.switchCreditInterval = 0) &&
      first.2.upstream.getBufferDst p.dip == 0) = true ↔ Flushes c s p.dip row := by
    rw [serves.upstream]
    simp only [Bool.and_eq_true, Bool.not_eq_true', decide_eq_true_eq, beq_iff_eq, short, timerOff,
      and_true, Flushes]
    constructor
    · rintro ⟨⟨below, large⟩, empty⟩
      exact ⟨large, empty, below⟩
    · rintro ⟨large, empty, below⟩
      exact ⟨⟨below, large⟩, empty⟩
  split at success
  · rename_i second
    have flush := flushes.mp second
    obtain ⟨flushed, flushing, success⟩ := bind_ok.mp success
    obtain rfl := Except.ok.inj success
    rw [upstreamNum_all mode] at flushing
    have start : (row + if c.settings.switchAckThM > 0 then c.nDevices else 1) %
        (if c.settings.switchAckThM > 0 then c.nDevices else 1) < c.nDevices := by
      split
      · exact Nat.mod_lt _ (by omega)
      · rw [Nat.mod_one]
        omega
    obtain ⟨_, last⟩ := checkAndSendACKs_serves mode _ (creditIds_nodup start) (serves.fit fit)
      flushing
    have none : ∀ other, ¬ (other ∈ visited c row ∧
        c.settings.switchByteCounter ≤ s.backlog c p.dip other) := by
      rintro other ⟨member, enough⟩
      exact absurd enough (by have := flush.2.2 other member; omega)
    apply serves.trans last
    intro other
    rw [creditIds_mem start, serves.backlog (none other)]
    simp only [Served, flush, true_and]
  · rename_i second
    have quiet : ¬ Flushes c s p.dip row := fun flush => second (flushes.mpr flush)
    obtain rfl := Except.ok.inj success
    have last : Serves c p.dip (fun _ => False) first.2 first.2 :=
      Serves.refl c p.dip first.2 fun _ => id
    apply serves.trans last
    intro other
    simp only [Served, quiet, false_and, or_false]

end Loops

end SwitchNode

end Floodgate
