import Floodgate.Upstream
import Floodgate.Library.MapSum

/-! What the window operations change, and which assertions they can fail. -/

namespace Floodgate

open Std Outcome

/-- The assertions that depend on the configuration or on what an ACK carries. The others are
about the switch's own bookkeeping. -/
def Assertion.OfInput : Assertion → Prop
  | .dst2groupKnown | .windowDefined | .windowRegistered | .inflightOrdered => True
  | _ => False

namespace Upstream

structure Frame (before after : Upstream) : Prop where
  voqGroups : after.voqGroups = before.voqGroups
  buffering : after.buffering = before.buffering
  registered : ∀ dst ∈ before.wins, dst ∈ after.wins

theorem Frame.refl (s : Upstream) : Frame s s := ⟨rfl, rfl, fun _ member => member⟩

theorem Frame.trans {first second third : Upstream} (left : Frame first second)
    (right : Frame second third) : Frame first third :=
  ⟨right.voqGroups.trans left.voqGroups, right.buffering.trans left.buffering,
    fun dst member => right.registered dst (left.registered dst member)⟩

theorem Frame.setWins (s : Upstream) (key size : Nat) :
    Frame s { s with wins := s.wins.insert key size } :=
  ⟨rfl, rfl, fun _ member => ExtTreeMap.mem_insert.mpr (.inr member)⟩

theorem Frame.touchWin (s : Upstream) (dst : Nat) : Frame s (s.touchWin dst) :=
  ⟨rfl, rfl, fun _ member => ExtTreeMap.mem_insertIfNew.mpr (.inr member)⟩

theorem Frame.setRcvAckPsn (s : Upstream) (row dst psn : Nat) :
    Frame s (s.setRcvAckPsn row dst psn) :=
  ⟨rfl, rfl, fun _ member => member⟩

theorem touchWin_mem (s : Upstream) (dst : Nat) : dst ∈ (s.touchWin dst).wins := by
  simp [Upstream.touchWin]

section Frames

variable (c : UpstreamConfig) (s : Upstream) (dst pktSize : Nat)

theorem shouldIgnore_input : Holds Assertion.OfInput
    (fun ignore => ignore = true ∧ c.dst2group dst = .ignored ∨
      ignore = false ∧ ∃ id, c.dst2group dst = .group id) (c.shouldIgnore dst) := by
  unfold UpstreamConfig.shouldIgnore
  cases rule : c.dst2group dst with
  | unset => trivial
  | ignored => simp
  | group id => simp

theorem getInflightBytes_input : Holds Assertion.OfInput
    (fun inflight => s.inflightOrdered dst = true ∧ inflight = s.inflightBytes dst)
    (s.getInflightBytes dst) := by
  unfold getInflightBytes
  by_cases ordered : s.inflightOrdered dst
  · simp [ordered]
  · simp [ordered, Assertion.OfInput]

theorem ensureRegisteredWin_frame :
    Holds Assertion.OfInput (Frame s) (s.ensureRegisteredWin c dst) := by
  unfold ensureRegisteredWin
  by_cases known : s.wins.contains dst
  · rw [if_pos known]
    exact Frame.refl s
  rw [if_neg known]
  cases c.bdpMap (winKey c dst) with
  | none => trivial
  | some size =>
      simp only
      split
      · apply (getInflightBytes_input _ _).bind
        intro _ _ _
        exact Frame.setWins s _ _
      · exact Frame.setWins s _ _

theorem checkDstWin_frame : Holds Assertion.OfInput
    (fun checked => Frame s checked.2 ∧ dst ∈ checked.2.wins) (s.checkDstWin c dst pktSize) := by
  unfold checkDstWin
  apply (ensureRegisteredWin_frame c s dst).bind
  intro registered _ frame
  have read := frame.trans (Frame.touchWin registered dst)
  split
  · apply (getInflightBytes_input _ _).bind
    intro _ _ _
    exact ⟨read, touchWin_mem registered dst⟩
  · exact ⟨read, touchWin_mem registered dst⟩

theorem updateDstWin_frame (isAdd : Bool) :
    Holds Assertion.OfInput (Frame s) (s.updateDstWin c dst pktSize isAdd) := by
  unfold updateDstWin
  apply (shouldIgnore_input c dst).bind
  intro ignore _ _
  split
  · exact Frame.refl s
  split
  · apply (getInflightBytes_input _ _).bind
    intro _ _ _
    exact Frame.touchWin s dst
  split
  · split
    · exact Frame.setWins s _ _
    · trivial
  · apply (ensureRegisteredWin_frame c s dst).bind
    intro registered _ frame
    exact frame.trans (Frame.setWins registered _ _)

theorem recoverDst_frame (tag : SwitchACKTag) (dev : Nat) :
    Holds Assertion.OfInput (Frame s) (recoverDst c tag dev s dst) := by
  unfold recoverDst
  dsimp only
  split
  · split
    · split
      · apply (updateDstWin_frame c (s.setRcvAckPsn _ dst _) dst _ true).mono
        intro _ _ frame
        exact (Frame.setRcvAckPsn s _ _ _).trans frame
      · exact updateDstWin_frame c s dst _ true
    · exact updateDstWin_frame c s dst _ true
  · exact Frame.refl s

theorem recoverWin_frame (tag : SwitchACKTag) (dev : Nat) :
    Holds Assertion.OfInput (Frame s) (s.recoverWin c tag dev) := by
  apply Holds.foldlM (Frame s) _ _ (Frame.refl s)
  intro state dst _ frame
  exact (recoverDst_frame c state dst tag dev).mono fun _ _ last => frame.trans last

theorem resumeDst_frame (tag : SwitchACKTag) (dev : Nat) :
    Holds Assertion.OfInput (Frame s) (s.resumeDst c tag dst dev) := by
  unfold resumeDst
  dsimp only
  split
  · split
    · apply (updateDstWin_frame c (s.setRcvAckPsn _ dst _) dst _ true).mono
      intro _ _ frame
      exact (Frame.setRcvAckPsn s _ _ _).trans frame
    · exact updateDstWin_frame c s dst _ true
  · exact updateDstWin_frame c s dst _ true

theorem restoreWin_frame (tag : SwitchACKTag) (sip inDev : Nat) :
    Holds Assertion.OfInput (Frame s) (s.restoreWin c tag sip inDev) := by
  unfold restoreWin
  split
  · exact recoverWin_frame c s tag inDev
  · exact resumeDst_frame c s sip tag inDev

end Frames

section Known

variable {c : UpstreamConfig} {s : Upstream} {dst : Nat}

theorem ensureRegisteredWin_known (known : dst ∈ s.wins) :
    s.ensureRegisteredWin c dst = .ok s := by
  unfold ensureRegisteredWin
  rw [if_pos (ExtTreeMap.contains_iff_mem.mpr known)]

theorem touchWin_known (known : dst ∈ s.wins) : s.touchWin dst = s := by
  have same : s.wins.insertIfNew dst 0 = s.wins := by
    apply ExtTreeMap.ext_getElem?
    intro other
    rw [ExtTreeMap.getElem?_insertIfNew]
    split
    · rename_i absent
      rw [LawfulEqOrd.compare_eq_iff_eq] at absent
      exact absurd known absent.2
    · rfl
  unfold touchWin
  rw [same]

def fits (c : UpstreamConfig) (s : Upstream) (dst pktSize : Nat) : Bool :=
  if c.settings.switchAbsolutePsn then
    !decide (Word32.add (s.inflightBytes dst) pktSize > s.win dst)
  else !decide (s.win dst < pktSize)

theorem checkDstWin_known (known : dst ∈ s.wins) (pktSize : Nat)
    (ordered : c.settings.switchAbsolutePsn = true → s.inflightOrdered dst = true) :
    s.checkDstWin c dst pktSize = .ok (s.fits c dst pktSize, s) := by
  unfold checkDstWin fits
  rw [ensureRegisteredWin_known known, ok_bind, touchWin_known known]
  by_cases absolute : c.settings.switchAbsolutePsn
  · simp only [absolute, if_true, getInflightBytes, ordered absolute, ok_bind]
  · simp only [absolute, if_false, Bool.false_eq_true]

theorem checkDstWin_ok {pktSize : Nat} {checked : Bool × Upstream}
    (success : s.checkDstWin c dst pktSize = .ok checked) :
    checked.1 = checked.2.fits c dst pktSize ∧
      (c.settings.switchAbsolutePsn = true → checked.2.inflightOrdered dst = true) ∧
      (dst ∈ s.wins → checked.2 = s) := by
  unfold checkDstWin at success
  obtain ⟨registered, found, success⟩ := bind_ok.mp success
  have unchanged : dst ∈ s.wins → registered.touchWin dst = s := by
    intro known
    rw [ensureRegisteredWin_known known] at found
    obtain rfl := Except.ok.inj found
    exact touchWin_known known
  by_cases absolute : c.settings.switchAbsolutePsn
  · simp only [absolute, if_true] at success
    obtain ⟨inflight, measured, success⟩ := bind_ok.mp success
    obtain ⟨ordered, rfl⟩ := (getInflightBytes_input _ _).of_ok measured
    obtain rfl := Except.ok.inj success
    exact ⟨by simp only [fits, absolute, if_true], fun _ => ordered, unchanged⟩
  · simp only [absolute, if_false, Bool.false_eq_true] at success
    obtain rfl := Except.ok.inj success
    exact ⟨by simp only [fits, absolute, if_false, Bool.false_eq_true], fun on => absurd on absolute,
      unchanged⟩

end Known

/-- The window side of one packet of `dst` passing to the egress port `outDev`: its credit is taken,
or it gets the next PSN. -/
inductive Passes (c : UpstreamConfig) (s : Upstream) (outDev dst : Nat) (pkt : Packet) :
    Packet → Upstream → Prop
  | credit {after : Upstream} (mode : c.settings.switchAbsolutePsn = false)
      (wins : after.wins = s.wins.insert dst (Word32.sub (s.win dst) pkt.size))
      (nxtDataPsn : after.nxtDataPsn = s.nxtDataPsn) (rcvAckPsn : after.rcvAckPsn = s.rcvAckPsn) :
      Passes c s outDev dst pkt pkt after
  | psn {after : Upstream} (mode : c.settings.switchAbsolutePsn = true)
      (wins : after.wins = s.wins)
      (nxtDataPsn : after.nxtDataPsn = setCell s.nxtDataPsn (c.psnRow outDev dst) dst
        (s.nxtDataPsn (c.psnRow outDev dst) dst + pkt.size))
      (rcvAckPsn : after.rcvAckPsn = s.rcvAckPsn) :
      Passes c s outDev dst pkt
        (pkt.setPsn (s.nxtDataPsn (c.psnRow outDev dst) dst + pkt.size)) after

section Pass

variable {c : UpstreamConfig} {s after : Upstream} {outDev dst : Nat} {pkt : Packet}

theorem updateDstWin_credit (mode : c.settings.switchAbsolutePsn = false) {id : Nat}
    (rule : c.dst2group dst = .group id) (known : dst ∈ s.wins) (pktSize : Nat) :
    s.updateDstWin c dst pktSize false =
      .ok { s with wins := s.wins.insert dst (Word32.sub (s.win dst) pktSize) } := by
  simp [updateDstWin, UpstreamConfig.shouldIgnore, rule, mode, ensureRegisteredWin_known known]

theorem updateDstWin_psn (mode : c.settings.switchAbsolutePsn = true) {id : Nat}
    (rule : c.dst2group dst = .group id) (known : dst ∈ s.wins) (pktSize : Nat) (isAdd : Bool) :
    s.updateDstWin c dst pktSize isAdd =
      if s.inflightOrdered dst then .ok s else .error .inflightOrdered := by
  simp only [updateDstWin, UpstreamConfig.shouldIgnore, rule, mode, ok_bind, if_true,
    getInflightBytes]
  by_cases ordered : s.inflightOrdered dst
  · simp [ordered, touchWin_known known]
  · simp [ordered]

theorem Passes.registered {pkt' : Packet} (passes : Passes c s outDev dst pkt pkt' after) {e : Nat}
    (known : e ∈ s.wins) : e ∈ after.wins := by
  cases passes with
  | credit _ wins => exact wins ▸ ExtTreeMap.mem_insert.mpr (.inr known)
  | psn _ wins => exact wins ▸ known

theorem Passes.congr {first second : Upstream} {pkt' : Packet}
    (passes : Passes c s outDev dst pkt pkt' after)
    (before : first.wins = s.wins ∧ first.nxtDataPsn = s.nxtDataPsn ∧ first.rcvAckPsn = s.rcvAckPsn)
    (later : second.wins = after.wins ∧ second.nxtDataPsn = after.nxtDataPsn ∧
      second.rcvAckPsn = after.rcvAckPsn) :
    Passes c first outDev dst pkt pkt' second := by
  cases passes with
  | credit mode wins nxtDataPsn rcvAckPsn =>
      refine .credit mode ?_ ?_ ?_
      · rw [later.1, wins, win, win, before.1]
      · rw [later.2.1, nxtDataPsn, before.2.1]
      · rw [later.2.2, rcvAckPsn, before.2.2]
  | psn mode wins nxtDataPsn rcvAckPsn =>
      rw [← before.2.1] at nxtDataPsn ⊢
      refine .psn mode ?_ ?_ ?_
      · rw [later.1, wins, before.1]
      · rw [later.2.1, nxtDataPsn]
      · rw [later.2.2, rcvAckPsn, before.2.2]

theorem Passes.size {pkt' : Packet} (passes : Passes c s outDev dst pkt pkt' after) :
    pkt'.size = pkt.size := by
  cases passes with
  | credit => rfl
  | psn => exact Packet.setPsn_size _ _

end Pass

end Upstream

end Floodgate
