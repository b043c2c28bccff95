import Floodgate.WindowSteps

/-! Windows registered per destination: each operation touches one destination, and the PSNs of a
destination stay ordered. -/

namespace Floodgate.Upstream

open Std Outcome

structure SameFor (dst : Nat) (before after : Upstream) : Prop where
  win : after.win dst = before.win dst
  nxtDataPsn : ∀ i, after.nxtDataPsn i dst = before.nxtDataPsn i dst
  rcvAckPsn : ∀ i, after.rcvAckPsn i dst = before.rcvAckPsn i dst

theorem SameFor.refl (dst : Nat) (s : Upstream) : SameFor dst s s :=
  ⟨rfl, fun _ => rfl, fun _ => rfl⟩

theorem SameFor.trans {dst : Nat} {first second third : Upstream}
    (left : SameFor dst first second) (right : SameFor dst second third) :
    SameFor dst first third :=
  ⟨right.win.trans left.win, fun i => (right.nxtDataPsn i).trans (left.nxtDataPsn i),
    fun i => (right.rcvAckPsn i).trans (left.rcvAckPsn i)⟩

theorem SameFor.of_eq {before after : Upstream} (wins : after.wins = before.wins)
    (nxtDataPsn : after.nxtDataPsn = before.nxtDataPsn)
    (rcvAckPsn : after.rcvAckPsn = before.rcvAckPsn) (dst : Nat) : SameFor dst before after :=
  ⟨by simp only [Upstream.win, wins], fun i => by rw [nxtDataPsn], fun i => by rw [rcvAckPsn]⟩

section Same

variable {c : UpstreamConfig} {s after : Upstream} {dst : Nat}

theorem SameFor.inflightBytes (same : SameFor dst s after) :
    after.inflightBytes dst = s.inflightBytes dst := by
  simp only [Upstream.inflightBytes, same.nxtDataPsn, same.rcvAckPsn]

theorem SameFor.inflightOrdered (same : SameFor dst s after) :
    after.inflightOrdered dst = s.inflightOrdered dst := by
  simp only [Upstream.inflightOrdered, same.nxtDataPsn, same.rcvAckPsn]

theorem SameFor.fits (same : SameFor dst s after) (pktSize : Nat) :
    after.fits c dst pktSize = s.fits c dst pktSize := by
  simp only [Upstream.fits, same.inflightBytes, same.win]

theorem touchWin_win (other : Nat) : (s.touchWin dst).win other = s.win other := by
  unfold win touchWin
  rw [ExtTreeMap.getElem?_insertIfNew]
  split
  · rename_i absent
    rw [LawfulEqOrd.compare_eq_iff_eq] at absent
    obtain ⟨rfl, unknown⟩ := absent
    have none : s.wins[dst]? = none := by simpa using unknown
    rw [none]
    rfl
  · rfl

theorem touchWin_same (other : Nat) : SameFor other s (s.touchWin dst) :=
  ⟨touchWin_win other, fun _ => rfl, fun _ => rfl⟩

theorem setWins_other {size other : Nat} (different : other ≠ dst) :
    SameFor other s { s with wins := s.wins.insert dst size } := by
  refine ⟨?_, fun _ => rfl, fun _ => rfl⟩
  unfold win
  rw [MapSum.lookup_insert, if_neg different]

theorem setRcvAckPsn_other {row psn other : Nat} (different : other ≠ dst) :
    SameFor other s (s.setRcvAckPsn row dst psn) := by
  refine ⟨rfl, fun _ => rfl, fun i => ?_⟩
  exact setCell_other _ _ _ _ _ _ fun same => different same.2

theorem Passes.other {outDev other : Nat} {pkt pkt' : Packet}
    (passes : Passes c s outDev dst pkt pkt' after) (different : other ≠ dst) :
    SameFor other s after := by
  cases passes with
  | credit _ wins nxtDataPsn rcvAckPsn =>
      refine ⟨?_, fun i => by rw [nxtDataPsn], fun i => by rw [rcvAckPsn]⟩
      rw [win, win, wins, MapSum.lookup_insert, if_neg different]
  | psn _ wins nxtDataPsn rcvAckPsn =>
      refine ⟨by rw [win, win, wins], fun i => ?_, fun i => by rw [rcvAckPsn]⟩
      rw [nxtDataPsn]
      exact setCell_other _ _ _ _ _ _ fun same => different same.2

end Same

/-- Every destination is blocked on its own window. -/
def AllSwitches (c : UpstreamConfig) : Prop := c.settings.resetOnlyToRSwitchWin = false

/-- Only destinations of a group have windows. With absolute PSNs, what is acknowledged for such a
destination has been sent, and nothing is in flight under a window of 0. -/
structure WindowsSound (c : UpstreamConfig) (s : Upstream) : Prop where
  rule : ∀ dst ∈ s.wins, ∃ gid, c.dst2group dst = .group gid
  ordered : c.settings.switchAbsolutePsn = true → ∀ dst gid, c.dst2group dst = .group gid →
    s.inflightOrdered dst = true
  idle : c.settings.switchAbsolutePsn = true → ∀ dst gid, c.dst2group dst = .group gid →
    s.win dst = 0 → ∀ i < switchScale, s.nxtDataPsn i dst = s.rcvAckPsn i dst

theorem inflightOrdered_iff (s : Upstream) (dst : Nat) :
    s.inflightOrdered dst = true ↔ ∀ i < switchScale, s.rcvAckPsn i dst ≤ s.nxtDataPsn i dst := by
  simp [inflightOrdered]

theorem inflightBytes_zero {s : Upstream} {dst : Nat}
    (idle : ∀ i < switchScale, s.nxtDataPsn i dst = s.rcvAckPsn i dst) :
    s.inflightBytes dst = 0 := by
  unfold inflightBytes
  have steady : ∀ rows : List Nat, (∀ i ∈ rows, i < switchScale) →
      rows.foldl (fun inflight i =>
        Word32.add inflight (s.nxtDataPsn i dst - s.rcvAckPsn i dst)) 0 = 0 := by
    intro rows inside
    induction rows with
    | nil => rfl
    | cons row rest ih =>
        have none : s.nxtDataPsn row dst - s.rcvAckPsn row dst = 0 := by
          rw [idle row (inside row (by simp)), Nat.sub_self]
        rw [List.foldl_cons, none]
        exact ih fun i member => inside i (List.mem_cons_of_mem _ member)
  exact steady _ fun i member => List.mem_range.mp member

namespace WindowsSound

variable {c : UpstreamConfig} {s after : Upstream} {dst : Nat}

theorem init (c : UpstreamConfig) : WindowsSound c (Upstream.init c) := by
  refine ⟨?_, fun _ dst gid _ => ?_, fun _ dst gid _ _ i _ => rfl⟩
  · intro dst member
    simp [Upstream.init] at member
  · rw [inflightOrdered_iff]
    exact fun i _ => Nat.le_refl _

theorem closed (sound : WindowsSound c s) {gid : Nat} (rule : c.dst2group dst = .group gid)
    (none : s.win dst = 0) {pktSize : Nat} (positive : 0 < pktSize) (small : pktSize < Word32.size) :
    s.fits c dst pktSize = false := by
  unfold fits
  by_cases absolute : c.settings.switchAbsolutePsn = true
  · have idle := inflightBytes_zero (sound.idle absolute dst gid rule none)
    have total : Word32.add 0 pktSize = pktSize := by
      rw [Word32.add_eq 0 pktSize (by omega), Nat.zero_add]
    simp [absolute, idle, none, total, positive]
  · simp [absolute, none, positive]

/-- An operation on one destination has to be checked for that destination only. -/
theorem update (sound : WindowsSound c s) (others : ∀ d, d ≠ dst → SameFor d s after)
    (keys : ∀ d ∈ after.wins, d ∈ s.wins ∨ ∃ gid, c.dst2group d = .group gid)
    (own : c.settings.switchAbsolutePsn = true → ∀ gid, c.dst2group dst = .group gid →
      after.inflightOrdered dst = true ∧ (after.win dst = 0 →
        ∀ i < switchScale, after.nxtDataPsn i dst = after.rcvAckPsn i dst)) :
    WindowsSound c after := by
  refine ⟨?_, ?_, ?_⟩
  · intro d member
    rcases keys d member with earlier | rule
    · exact sound.rule d earlier
    · exact rule
  · intro absolute d gid rule
    by_cases same : d = dst
    · subst same
      exact (own absolute gid rule).1
    · rw [(others d same).inflightOrdered]
      exact sound.ordered absolute d gid rule
  · intro absolute d gid rule none i inside
    by_cases same : d = dst
    · subst same
      exact (own absolute gid rule).2 none i inside
    · have unchanged := others d same
      rw [unchanged.nxtDataPsn, unchanged.rcvAckPsn]
      exact sound.idle absolute d gid rule (unchanged.win ▸ none) i inside

theorem congr (sound : WindowsSound c s) (wins : after.wins = s.wins)
    (nxtDataPsn : after.nxtDataPsn = s.nxtDataPsn) (rcvAckPsn : after.rcvAckPsn = s.rcvAckPsn) :
    WindowsSound c after := by
  have same := SameFor.of_eq wins nxtDataPsn rcvAckPsn
  refine ⟨wins ▸ sound.rule, ?_, ?_⟩
  · intro absolute d gid rule
    rw [(same d).inflightOrdered]
    exact sound.ordered absolute d gid rule
  · intro absolute d gid rule none
    rw [(same d).win] at none
    rw [nxtDataPsn, rcvAckPsn]
    exact sound.idle absolute d gid rule none

theorem touchWin (sound : WindowsSound c s) {gid : Nat} (rule : c.dst2group dst = .group gid) :
    WindowsSound c (s.touchWin dst) := by
  have others : ∀ d, d ≠ dst → SameFor d s (s.touchWin dst) := fun d _ => touchWin_same d
  apply sound.update others
  · intro d member
    simp only [Upstream.touchWin, ExtTreeMap.mem_insertIfNew, LawfulEqOrd.compare_eq_iff_eq] at member
    rcases member with rfl | earlier
    · exact .inr ⟨gid, rule⟩
    · exact .inl earlier
  · intro absolute gid' rule'
    have same : SameFor dst s (s.touchWin dst) := touchWin_same dst
    refine ⟨by rw [same.inflightOrdered]; exact sound.ordered absolute dst gid' rule', ?_⟩
    intro none i inside
    exact sound.idle absolute dst gid' rule' (same.win ▸ none) i inside

end WindowsSound

section Registration

variable {c : UpstreamConfig} {s : Upstream} {dst : Nat}

theorem winKey_all (all : AllSwitches c) (dst : Nat) : winKey c dst = dst := by
  unfold AllSwitches at all
  simp [winKey, all]

theorem ensureRegisteredWin_registers (all : AllSwitches c) :
    Holds Assertion.OfInput
      (fun after => dst ∈ s.wins ∧ after = s ∨ dst ∉ s.wins ∧ ∃ size, c.bdpMap dst = some size ∧
        after = { s with wins := s.wins.insert dst size })
      (s.ensureRegisteredWin c dst) := by
  unfold ensureRegisteredWin
  rw [winKey_all all]
  by_cases known : dst ∈ s.wins
  · rw [if_pos (ExtTreeMap.contains_iff_mem.mpr known)]
    exact .inl ⟨known, rfl⟩
  rw [if_neg fun present => known (ExtTreeMap.contains_iff_mem.mp present)]
  cases c.bdpMap dst with
  | none => trivial
  | some size =>
      simp only
      split
      · apply (getInflightBytes_input _ _).bind
        intro _ _ _
        exact .inr ⟨known, size, rfl, rfl⟩
      · exact .inr ⟨known, size, rfl, rfl⟩

theorem checkDstWin_registers (all : AllSwitches c) (pktSize : Nat) :
    Holds Assertion.OfInput
      (fun checked => dst ∈ s.wins ∧ checked.2 = s ∨ dst ∉ s.wins ∧ ∃ size,
        c.bdpMap dst = some size ∧ checked.2 = { s with wins := s.wins.insert dst size })
      (s.checkDstWin c dst pktSize) := by
  unfold checkDstWin
  have registers := @ensureRegisteredWin_registers c s dst all
  apply registers.bind
  intro registered _ cases
  have read : registered.touchWin dst = registered := by
    apply touchWin_known
    rcases cases with ⟨known, rfl⟩ | ⟨_, size, _, rfl⟩
    · exact known
    · simp
  rw [read]
  split
  · apply (getInflightBytes_input _ _).bind
    intro _ _ _
    exact cases
  · exact cases

theorem WindowsSound.register (sound : WindowsSound c s) {gid size : Nat}
    (rule : c.dst2group dst = .group gid) (unknown : dst ∉ s.wins) :
    WindowsSound c { s with wins := s.wins.insert dst size } := by
  have absent : s.win dst = 0 := by
    have none : s.wins[dst]? = none := by simpa using unknown
    rw [win, none]
    rfl
  have others : ∀ d, d ≠ dst → SameFor d s { s with wins := s.wins.insert dst size } :=
    fun d different => setWins_other different
  apply sound.update others
  · intro d member
    rcases ExtTreeMap.mem_insert.mp member with same | earlier
    · rw [LawfulEqOrd.compare_eq_iff_eq] at same
      exact .inr ⟨gid, same ▸ rule⟩
    · exact .inl earlier
  · intro absolute gid' rule'
    refine ⟨sound.ordered absolute dst gid' rule', fun _ i inside => ?_⟩
    exact sound.idle absolute dst gid' rule' absent i inside

theorem checkDstWin_sound (all : AllSwitches c) (sound : WindowsSound c s) {gid : Nat}
    (rule : c.dst2group dst = .group gid) (pktSize : Nat) :
    Holds Assertion.OfInput
      (fun checked => WindowsSound c checked.2 ∧ ∀ d, d ≠ dst → SameFor d s checked.2)
      (s.checkDstWin c dst pktSize) := by
  have registers := @checkDstWin_registers c s dst all pktSize
  apply registers.mono
  rintro ⟨room, registered⟩ _ (⟨known, rfl⟩ | ⟨unknown, size, _, rfl⟩)
  · exact ⟨sound, fun d _ => SameFor.refl d _⟩
  · exact ⟨sound.register rule unknown, fun d different => setWins_other different⟩

end Registration

section Restoring

variable {c : UpstreamConfig} {s : Upstream} {dst : Nat}

/-- Adding credit to a window, or logging it under absolute PSNs. The state may come with a new
acknowledged PSN, which is checked here. -/
theorem updateDstWin_restores (sound : WindowsSound c s) {before : Upstream}
    (others : ∀ d, d ≠ dst → SameFor d s before) (wins : before.wins = s.wins)
    (nxtDataPsn : before.nxtDataPsn = s.nxtDataPsn)
    (advanced : ∀ i, s.rcvAckPsn i dst ≤ before.rcvAckPsn i dst) (pktSize : Nat) :
    Holds Assertion.OfInput
      (fun after => WindowsSound c after ∧ ∀ d, d ≠ dst → SameFor d s after)
      (before.updateDstWin c dst pktSize true) := by
  unfold updateDstWin
  apply (shouldIgnore_input c dst).bind
  rintro ignore _ (⟨rfl, rule⟩ | ⟨rfl, gid, rule⟩)
  · refine ⟨?_, others⟩
    apply sound.update others
    · rw [wins]
      exact fun d member => .inl member
    · intro _ gid other
      rw [rule] at other
      contradiction
  simp only [Bool.false_eq_true, if_false, if_true]
  cases mode : c.settings.switchAbsolutePsn with
  | true =>
      simp only [if_true]
      apply (getInflightBytes_input _ _).bind
      rintro _ _ ⟨ordered, _⟩
      have sound' : WindowsSound c before := by
        apply sound.update others
        · rw [wins]
          exact fun d member => .inl member
        · intro _ gid' rule'
          refine ⟨ordered, fun none i inside => ?_⟩
          have earlier := sound.idle mode dst gid' rule' (by rw [← none, win, win, wins]) i inside
          have bound := (inflightOrdered_iff before dst).mp ordered i inside
          have grown := advanced i
          rw [nxtDataPsn] at bound ⊢
          omega
      refine ⟨sound'.touchWin rule, fun d different => ?_⟩
      exact (others d different).trans (touchWin_same d)
  | false =>
      simp only [Bool.false_eq_true, if_false]
      split
      · rename_i known
        refine ⟨?_, fun d different => (others d different).trans (setWins_other different)⟩
        apply sound.update fun d different => (others d different).trans (setWins_other different)
        · intro d member
          rcases ExtTreeMap.mem_insert.mp member with same | earlier
          · rw [LawfulEqOrd.compare_eq_iff_eq] at same
            exact .inr ⟨gid, same ▸ rule⟩
          · exact .inl (wins ▸ earlier)
        · intro absolute
          rw [mode] at absolute
          contradiction
      · trivial

theorem setRcvAckPsn_advances {row psn : Nat} (newer : s.rcvAckPsn row dst < psn) (i : Nat) :
    s.rcvAckPsn i dst ≤ (s.setRcvAckPsn row dst psn).rcvAckPsn i dst := by
  simp only [setRcvAckPsn]
  by_cases same : i = row
  · subst same
    rw [setCell_same]
    omega
  · rw [setCell_other _ _ _ _ _ _ fun equal => same equal.1]

theorem updateDstWin_sound (sound : WindowsSound c s) (pktSize : Nat) :
    Holds Assertion.OfInput
      (fun after => WindowsSound c after ∧ ∀ d, d ≠ dst → SameFor d s after)
      (s.updateDstWin c dst pktSize true) :=
  updateDstWin_restores sound (fun d _ => SameFor.refl d s) rfl rfl (fun _ => Nat.le_refl _) pktSize

theorem setRcvAckPsn_restores (sound : WindowsSound c s) {row psn : Nat}
    (newer : s.rcvAckPsn row dst < psn) (pktSize : Nat) :
    Holds Assertion.OfInput
      (fun after => WindowsSound c after ∧ ∀ d, d ≠ dst → SameFor d s after)
      ((s.setRcvAckPsn row dst psn).updateDstWin c dst pktSize true) :=
  updateDstWin_restores sound (fun _ different => setRcvAckPsn_other different) rfl rfl
    (setRcvAckPsn_advances newer) pktSize

theorem recoverDst_sound (sound : WindowsSound c s) (tag : SwitchACKTag) (dev : Nat) :
    Holds Assertion.OfInput (WindowsSound c) (recoverDst c tag dev s dst) := by
  unfold recoverDst
  dsimp only
  split
  · split
    · split
      · rename_i newer
        exact (setRcvAckPsn_restores sound newer _).mono fun _ _ facts => facts.1
      · exact (updateDstWin_sound sound _).mono fun _ _ facts => facts.1
    · exact (updateDstWin_sound sound _).mono fun _ _ facts => facts.1
  · exact sound

theorem recoverWin_sound (sound : WindowsSound c s) (tag : SwitchACKTag) (dev : Nat) :
    Holds Assertion.OfInput (WindowsSound c) (s.recoverWin c tag dev) :=
  Holds.foldlM (WindowsSound c) _ _ sound fun _ _ _ earlier => recoverDst_sound earlier tag dev

/-- The test sees the acked size cut to 32 bits; what passes it is newer all the more. -/
theorem resumeDst_sound (sound : WindowsSound c s) (tag : SwitchACKTag) (dev : Nat) :
    Holds Assertion.OfInput
      (fun after => WindowsSound c after ∧ ∀ d, d ≠ dst → SameFor d s after)
      (s.resumeDst c tag dst dev) := by
  unfold resumeDst
  dsimp only
  split
  · split
    · rename_i newer
      have bound := Word32.trunc_le tag.getAckedSize
      exact setRcvAckPsn_restores sound (by omega) _
    · exact updateDstWin_sound sound _
  · exact updateDstWin_sound sound _

/-- A Switch-ACK of an ingress port may restore any window, another ACK that of its host only. -/
theorem restoreWin_sound (sound : WindowsSound c s) (tag : SwitchACKTag) (sip inDev : Nat) :
    Holds Assertion.OfInput
      (fun after => WindowsSound c after ∧
        (c.settings.switchAckMode ≠ .switchIngressCredit → ∀ d, d ≠ sip → SameFor d s after))
      (s.restoreWin c tag sip inDev) := by
  unfold restoreWin
  split
  · rename_i mode
    exact (recoverWin_sound sound tag inDev).mono fun _ _ sound' =>
      ⟨sound', fun other => absurd mode other⟩
  · exact (resumeDst_sound sound tag inDev).mono fun _ _ facts => ⟨facts.1, fun _ => facts.2⟩

end Restoring

theorem Passes.sound {c : UpstreamConfig} {s after : Upstream} {outDev dst gid : Nat}
    {pkt pkt' : Packet} (passes : Passes c s outDev dst pkt pkt' after) (sound : WindowsSound c s)
    (rule : c.dst2group dst = .group gid) (room : s.fits c dst pkt.size = true) :
    WindowsSound c after := by
  apply sound.update fun d different => passes.other different
  · intro d member
    cases passes with
    | credit _ wins =>
        rw [wins] at member
        rcases ExtTreeMap.mem_insert.mp member with same | earlier
        · rw [LawfulEqOrd.compare_eq_iff_eq] at same
          exact .inr ⟨gid, same ▸ rule⟩
        · exact .inl earlier
    | psn _ wins => exact .inl (wins ▸ member)
  · intro absolute gid' rule'
    cases passes with
    | credit mode =>
        rw [mode] at absolute
        contradiction
    | psn _ wins nxtDataPsn rcvAckPsn =>
        refine ⟨?_, fun none => ?_⟩
        · have ordered := (inflightOrdered_iff s dst).mp (sound.ordered absolute dst gid rule)
          rw [inflightOrdered_iff]
          intro i inside
          have bound := ordered i inside
          rw [nxtDataPsn, rcvAckPsn]
          by_cases same : i = c.psnRow outDev dst
          · subst same
            rw [setCell_same]
            omega
          · rwa [setCell_other _ _ _ _ _ _ fun equal => same equal.1]
        · have window : s.win dst = 0 := by rw [← none, win, win, wins]
          have full := sound.closed rule window pkt.size_pos pkt.size_lt
          rw [room] at full
          contradiction

end Floodgate.Upstream
