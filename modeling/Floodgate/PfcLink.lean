import Floodgate.Library.Toggle
import Floodgate.NodeRuns

/-! PFC between a switch port and the device at the other end of its link. -/

namespace Floodgate

open Std Outcome LabelledRun Toggle

/-- What a frame tells the other end about a class: `true` pauses it and `false` resumes it. -/
def Packet.pfcMark (cls : Nat) (p : Packet) : Option Bool :=
  match p.body with
  | .pfc time qIndex => if qIndex = cls then some (decide (time > 0)) else none
  | _ => none

def marks (cls : Nat) (frames : List Packet) : List Bool := frames.filterMap (Packet.pfcMark cls)

section Marks

variable {cls : Nat}

theorem marks_append (first second : List Packet) :
    marks cls (first ++ second) = marks cls first ++ marks cls second :=
  List.filterMap_append

theorem pfcMark_other {p : Packet} (other : p.isPfc = false) : p.pfcMark cls = none := by
  cases shape : p.body <;> simp [Packet.isPfc, Packet.pfcMark, shape] at other ⊢

theorem marks_other {frames : List Packet} (other : ∀ p ∈ frames, p.isPfc = false) :
    marks cls frames = [] := by
  apply List.filterMap_eq_nil_iff.mpr
  intro p member
  exact pfcMark_other (other p member)

theorem pfcPacket_mark (c : DeviceConfig) (qIndex type : Nat) :
    (pfcPacket c qIndex type).pfcMark cls =
      if qIndex = cls then some (decide (type = 0 ∧ 0 < c.pauseTime)) else none := by
  by_cases pause : type = 0
  · simp [pfcPacket, controlPacket, Packet.pfcMark, pause]
  · simp [pfcPacket, controlPacket, Packet.pfcMark, pause]

theorem marks_cons (p : Packet) (rest : List Packet) :
    marks cls (p :: rest) = (p.pfcMark cls).toList ++ marks cls rest := by
  unfold marks
  cases mark : p.pfcMark cls with
  | none => simp [mark]
  | some value => simp [mark]

end Marks

namespace SwitchNode

def signals (s : SwitchNode) (port cls : Nat) : List Bool := marks cls (s.queues port 0)

/-- The signals added since `before` start at its state and lead to the present one. -/
def Toggles (port cls : Nat) (before after : SwitchNode) : Prop :=
  ∃ added, after.signals port cls = before.signals port cls ++ added ∧
    Alternates (before.admission.paused port cls) added ∧
    final (before.admission.paused port cls) added = after.admission.paused port cls

section Toggles

variable {c : SwitchNodeConfig} {s first second third : SwitchNode} {port cls : Nat}

theorem Toggles.same (signals : second.signals port cls = first.signals port cls)
    (paused : second.admission.paused = first.admission.paused) :
    Toggles port cls first second :=
  ⟨[], by rw [signals, List.append_nil], trivial, by rw [paused]; rfl⟩

theorem Toggles.trans (left : Toggles port cls first second)
    (right : Toggles port cls second third) : Toggles port cls first third := by
  obtain ⟨early, signals, alternate, last⟩ := left
  obtain ⟨late, signals', alternate', last'⟩ := right
  refine ⟨early ++ late, ?_, ?_, ?_⟩
  · rw [signals', signals, List.append_assoc]
  · rw [alternates_append, last]
    exact ⟨alternate, alternate'⟩
  · rw [final_append, last, last']

theorem setPause_paused (m : Admission) (dev fine : Nat) :
    (m.setPause dev fine).paused = setCell m.paused dev fine true := rfl

theorem setResume_paused (m : Admission) (dev fine : Nat) :
    (m.setResume dev fine).paused = setCell m.paused dev fine false := rfl

theorem sendPfc_toggles {dev fine type : Nat} {admission : Admission} {value : Bool}
    (means : ∀ dev, decide (type = 0 ∧ 0 < (c.device dev).pauseTime) = value ∨ dev ≠ port)
    (changes : s.admission.paused dev fine = !value)
    (paused : admission.paused = setCell s.admission.paused dev fine value)
    (whole : NoDrops { s.sendPfc c dev fine type with admission := admission }) :
    Toggles port cls s { s.sendPfc c dev fine type with admission := admission } := by
  have queues : (s.sendPfc c dev fine type).queues = _ := switchSend_queues whole
  have after : ({ s.sendPfc c dev fine type with admission := admission } :
      SwitchNode).signals port cls = marks cls ((s.sendPfc c dev fine type).queues port 0) := rfl
  by_cases here : port = dev ∧ cls = fine
  · obtain ⟨rfl, rfl⟩ := here
    have means := (means port).resolve_right fun other => other rfl
    refine ⟨[value], ?_, ?_, ?_⟩
    · rw [after, queues, setCell_same, marks_append, marks_cons, pfcPacket_mark, means]
      simp [signals, marks]
    · simp [changes]
    · simp [paused]
  · refine ⟨[], ?_, trivial, ?_⟩
    · rw [after, queues, List.append_nil]
      by_cases row : port = dev
      · subst row
        have other : fine ≠ cls := fun same => here ⟨rfl, same.symm⟩
        rw [setCell_same, marks_append, marks_cons, pfcPacket_mark, if_neg other]
        simp [signals, marks]
      · rw [setCell_other _ _ _ _ _ _ fun same => row same.1]
        rfl
    · rw [paused, setCell_other _ _ _ _ _ _ here]
      rfl

theorem checkAndSendPfc_toggles (period : 0 < (c.device port).pauseTime) (dev fine : Nat)
    (whole : NoDrops (s.checkAndSendPfc c dev fine)) :
    Toggles port cls s (s.checkAndSendPfc c dev fine) := by
  unfold checkAndSendPfc at whole ⊢
  split
  · rename_i due
    rw [if_pos due] at whole
    unfold Admission.checkShouldPause at due
    simp only [Bool.and_eq_true] at due
    refine sendPfc_toggles (fun i => ?_) ?_ (setPause_paused _ dev fine) whole
    · by_cases here : i = port
      · subst here
        exact .inl (decide_eq_true ⟨rfl, period⟩)
      · exact .inr here
    · simpa using due.1
  · exact Toggles.same rfl rfl

theorem checkAndSendResume_toggles (dev fine : Nat)
    (whole : NoDrops (s.checkAndSendResume c dev fine)) :
    Toggles port cls s (s.checkAndSendResume c dev fine) := by
  unfold checkAndSendResume at whole ⊢
  split
  · rename_i due
    rw [if_pos due] at whole
    unfold Admission.checkShouldResume at due
    refine sendPfc_toggles (fun _ => .inl (by simp)) ?_ (setResume_paused _ dev fine) whole
    by_contra running
    simp only [Bool.not_false, Bool.not_eq_true] at running
    simp [running] at due
  · exact Toggles.same rfl rfl

theorem Emits.toggles {frames : Nat → List Packet} (emits : Emits first second frames)
    (other : ∀ p ∈ frames port, p.isPfc = false)
    (paused : second.admission.paused = first.admission.paused) :
    Toggles port cls first second := by
  apply Toggles.same _ paused
  obtain ⟨taken, part, _, queues⟩ := emits.queues port
  unfold signals
  rw [queues, if_pos rfl, marks_append, marks_other fun p member => other p (part.mem member),
    List.append_nil]

theorem switchSend_toggles {outDev qIndex : Nat} {p : Packet} (other : p.isPfc = false) :
    Toggles port cls s (s.switchSend c outDev qIndex p) := by
  refine Toggles.same ?_ rfl
  obtain ⟨taken, part, _, queues⟩ := switchSend_taken c s outDev qIndex p
  unfold signals
  rw [queues]
  by_cases here : port = outDev ∧ 0 = qIndex
  · obtain ⟨rfl, rfl⟩ := here
    have none : marks cls taken = [] := by
      apply marks_other
      intro frame member
      rw [List.mem_singleton.mp (part.mem member)]
      exact other
    rw [setCell_same, marks_append, none, List.append_nil]
  · rw [setCell_other _ _ _ _ _ _ here]

theorem Passes.isPfc {u up : Upstream} {outDev dst : Nat} {p p' : Packet}
    (passes : Upstream.Passes c.upstream u outDev dst p p' up) : p'.isPfc = p.isPfc := by
  cases passes <;> simp

theorem PassedOn.toggles {outDev qIndex : Nat} {p : Packet} (other : p.isPfc = false)
    (passed : PassedOn c first p outDev qIndex second) : Toggles port cls first second := by
  cases passed with
  | held => exact Toggles.same rfl rfl
  | @sent p' up routes =>
      have same : p'.isPfc = false := by
        cases routes with
        | off => exact other
        | on _ arrives =>
            cases arrives with
            | control => exact other
            | ignored => exact other
            | passed _ _ _ _ _ _ passes _ => rw [Passes.isPfc passes, other]
      have unchanged : Toggles port cls first { first with upstream := up } :=
        Toggles.same rfl rfl
      exact unchanged.trans (switchSend_toggles same)

theorem ack_isPfc {p : Packet} (frame : ∃ tag, p.body = .switchAck tag) : p.isPfc = false := by
  obtain ⟨tag, body⟩ := frame
  simp [Packet.isPfc, body]

theorem Replies.toggles (replies : Replies c first second) : Toggles port cls first second := by
  obtain ⟨frames, returns⟩ := replies
  apply returns.emits.toggles fun p member => ack_isPfc (returns.acks port p member)
  rw [returns.admission]

theorem charged_paused (inDev outDev qIndex : Nat) (p : Packet) :
    (s.charged c inDev outDev qIndex p).admission.paused = s.admission.paused := by
  unfold charged charge Admission.updateEgressAdmission Admission.updateIngressAdmission
  split
  · rfl
  · simp only
    split
    · rfl
    · split <;> rfl

theorem admit_toggles (period : 0 < (c.device port).pauseTime) {inDev outDev qIndex : Nat}
    {p : Packet} (whole : NoDrops (s.admitPacket c inDev outDev qIndex p)) :
    Toggles port cls s (s.admitPacket c inDev outDev qIndex p) := by
  have charged : Toggles port cls s (s.charged c inDev outDev qIndex p) := by
    refine Toggles.same ?_ (charged_paused inDev outDev qIndex p)
    simp only [signals, queues, (charged_same c s inDev outDev qIndex p).1]
  apply charged.trans
  unfold admitPacket at whole ⊢
  unfold SwitchNode.charged
  split
  · exact Toggles.same rfl rfl
  · rename_i other
    rw [if_neg other] at whole
    exact checkAndSendPfc_toggles period _ _ whole

theorem remove_paused (config : AdmissionConfig) (m : Admission)
    (dev fine ifIndex qIndex size : Nat) :
    ((m.removeFromIngressAdmission config dev fine size).removeFromEgressAdmission ifIndex qIndex
      size).paused = m.paused := by
  -- Unfolded before the projections are compared, which would compare the byte counts.
  cases m
  rfl

theorem discharged_paused (inDev ifIndex qIndex : Nat) (p : Packet) :
    (s.discharged c inDev ifIndex qIndex p).admission.paused = s.admission.paused := by
  unfold discharged
  split
  · rfl
  · unfold discharge
    exact remove_paused c.admission s.admission inDev (c.pfcFine inDev qIndex p.dip) ifIndex qIndex
      p.size

theorem depart_toggles {inDev ifIndex qIndex : Nat} {p : Packet}
    (whole : NoDrops (s.depart c inDev ifIndex qIndex p)) :
    Toggles port cls s (s.depart c inDev ifIndex qIndex p) := by
  have discharged : Toggles port cls s (s.discharged c inDev ifIndex qIndex p) := by
    refine Toggles.same ?_ (discharged_paused inDev ifIndex qIndex p)
    simp only [signals, queues, (discharged_same c s inDev ifIndex qIndex p).1]
  apply discharged.trans
  unfold depart at whole ⊢
  unfold SwitchNode.discharged
  split
  · exact Toggles.same rfl rfl
  · rename_i other
    rw [if_neg other] at whole
    exact checkAndSendResume_toggles _ _ whole

theorem Forwards.toggles (period : 0 < (c.device port).pauseTime) {inDev : Nat}
    {outDev : Option Nat} {p : Packet} (other : p.isPfc = false)
    (forwards : Forwards c first inDev p outDev second) (whole : NoDrops second) :
    Toggles port cls first second := by
  cases forwards with
  | unrouted => exact Toggles.same rfl rfl
  | dropped => exact Toggles.same rfl rfl
  | admitted passed => exact (admit_toggles period (passed.noDrops whole)).trans (passed.toggles other)

theorem recordPsn_isPfc {inDev : Nat} {p : Packet} :
    (s.recordPsn c inDev p).1.isPfc = p.isPfc := by
  unfold recordPsn
  split
  · cases shape : p.body with
    | udp psn ingress => cases psn <;> simp [Packet.toIngressPsn, Packet.isPfc, shape]
    | _ => simp [Packet.toIngressPsn, Packet.isPfc, shape]
  · rfl

theorem Receives.toggles (period : 0 < (c.device port).pauseTime) {inDev : Nat}
    {outDev : Option Nat} {p : Packet} (receives : Receives c first inDev outDev p second)
    (whole : NoDrops second) : Toggles port cls first second := by
  cases receives with
  | pfc _ received =>
      refine Toggles.same ?_ rfl
      rw [signals, (setDevice_queues (receive_queue received)).1, signals]
  | @syn tag after _ _ replies =>
      have found : Toggles port cls first { first with
          downstream := (first.downstream.checkSYN c.settings (c.creditRow inDev p.sip) tag).2 } :=
        Toggles.same rfl rfl
      exact found.trans replies.toggles
  | ack => exact Toggles.same rfl rfl
  | other frame _ forwards =>
      obtain ⟨upstream, device, admission⟩ :=
        recordPsn_same (c := c) (s := first) (p := p.setFlowId (some inDev))
      have recorded : Toggles port cls first
          (first.recordPsn c inDev (p.setFlowId (some inDev))).2 := by
        refine Toggles.same ?_ (by rw [admission])
        simp only [signals, queues, device]
      refine recorded.trans (forwards.toggles period ?_ whole)
      rw [recordPsn_isPfc]
      exact frame

theorem Notified.toggles {ifIndex qIndex : Nat} {p p' : Packet}
    (notified : Notified c first ifIndex qIndex p p' second) (whole : NoDrops second) :
    Toggles port cls first second := by
  cases notified with
  | plain => exact depart_toggles whole
  | @credit after _ _ replies =>
      have departed := @depart_toggles c first port cls (p.flowId.getD 0) ifIndex qIndex p
        (by obtain ⟨_, returns⟩ := replies; exact returns.emits.noDrops whole)
      exact departed.trans ((Toggles.same rfl rfl).trans replies.toggles)
  | @psn psn after _ _ _ replies =>
      have departed := @depart_toggles c first port cls (p.flowId.getD 0) ifIndex qIndex p
        (by obtain ⟨_, returns⟩ := replies; exact returns.emits.noDrops whole)
      exact departed.trans ((Toggles.same rfl rfl).trans replies.toggles)

theorem Notified.mark {ifIndex qIndex : Nat} {p p' : Packet}
    (notified : Notified c first ifIndex qIndex p p' second) :
    p'.pfcMark cls = p.pfcMark cls := by
  have plain : (p.setFlowId none).pfcMark cls = p.pfcMark cls := rfl
  cases notified with
  | plain => exact plain
  | credit => exact plain
  | psn =>
      rw [← plain]
      cases shape : p.body <;>
        simp [Packet.removeIngressPsn, Packet.setFlowId, Packet.pfcMark, shape]

end Toggles

/-- Whoever is paused has bytes in the switch. -/
def Grounded (c : SwitchNodeConfig) (s : SwitchNode) : Prop :=
  ∀ port cls, s.admission.paused port cls = true → 0 < s.residentBy c (fromPort c port cls)

section Grounded

variable {c : SwitchNodeConfig} {s after : SwitchNode}

theorem Grounded.same (grounded : Grounded c s)
    (paused : after.admission.paused = s.admission.paused)
    (resident : ∀ port cls, after.residentBy c (fromPort c port cls) =
      s.residentBy c (fromPort c port cls)) : Grounded c after := by
  intro port cls stopped
  rw [resident]
  apply grounded
  rw [← paused]
  exact stopped

theorem admit_paused {inDev outDev qIndex port cls : Nat} {p : Packet}
    (stopped : (s.admitPacket c inDev outDev qIndex p).admission.paused port cls = true) :
    s.admission.paused port cls = true ∨
      qIndex ≠ 0 ∧ port = inDev ∧ cls = c.pfcFine inDev qIndex p.dip := by
  have kept := charged_paused (c := c) (s := s) inDev outDev qIndex p
  unfold admitPacket at stopped
  unfold charged at kept
  split at stopped
  · exact .inl stopped
  · rename_i other
    rw [if_neg other] at kept
    unfold checkAndSendPfc at stopped
    split at stopped
    · by_cases here : port = inDev ∧ cls = c.pfcFine inDev qIndex p.dip
      · exact .inr ⟨other, here⟩
      · simp only [setPause_paused, setCell_other _ _ _ _ _ _ here, kept] at stopped
        exact .inl stopped
    · rw [kept] at stopped
      exact .inl stopped

theorem Grounded.forwarded (grounded : Grounded c s) {inDev : Nat} {outDev : Option Nat}
    {p : Packet} (flowId : p.flowId = some inDev)
    (egress : ∀ dev, outDev = some dev → dev < c.nDevices)
    (forwards : Forwards c s inDev p outDev after) (whole : NoDrops after) :
    Grounded c after := by
  cases forwards with
  | unrouted => exact grounded
  | dropped => exact grounded.same rfl fun _ _ => rfl
  | @admitted outDev _ passed =>
      intro port cls stopped
      rw [admitted_residentBy passed whole (fromPort_traffic c port cls)
        (.inl ⟨egress outDev rfl, qIndexOf_lt c p⟩)]
      rw [passed.same.1] at stopped
      rcases admit_paused stopped with before | ⟨queue, rfl, rfl⟩
      · have bytes := grounded port cls before
        omega
      · have counted : fromPort c port (c.pfcFine port (c.qIndexOf p) p.dip)
            (p.toUnit outDev (c.qIndexOf p)) = p.size := if_pos ⟨queue, flowId, rfl⟩
        have size := p.size_pos
        omega

theorem Grounded.received (grounded : Grounded c s) {inDev : Nat} {outDev : Option Nat}
    {p : Packet} (egress : ∀ dev, outDev = some dev → dev < c.nDevices)
    (receives : Receives c s inDev outDev p after) (whole : NoDrops after) :
    Grounded c after := by
  cases receives with
  | pfc _ received =>
      refine grounded.same rfl fun port cls => ?_
      have queues := (setDevice_queues (receive_queue received)).1
      simp only [residentBy, queuedBy, cellBy, queues]
      rfl
  | syn _ _ replies =>
      obtain ⟨frames, returns⟩ := replies
      refine grounded.same (by rw [returns.admission]) fun port cls => ?_
      rw [returns.emits.residentBy (fromPort_traffic c port cls)]
      exact residentBy_congr rfl rfl
  | ack _ _ restored =>
      have frame := (Upstream.restoreWin_frame _ _ _ _ _).of_ok restored
      refine grounded.same rfl fun port cls => ?_
      rw [residentBy, frame.heldBy]
      rfl
  | other _ _ forwards =>
      obtain ⟨upstream, device, admission⟩ :=
        recordPsn_same (c := c) (s := s) (p := p.setFlowId (some inDev))
      have recorded : Grounded c (s.recordPsn c inDev (p.setFlowId (some inDev))).2 :=
        grounded.same (by rw [admission]) fun _ _ => residentBy_congr device upstream
      refine recorded.forwarded ?_ egress forwards whole
      exact recordPsn_dip.2

/-- No resume is held back for a class without bytes. -/
theorem checkAndSendResume_paused {inDev fine : Nat}
    (stopped : (s.checkAndSendResume c inDev fine).admission.paused inDev fine = true) :
    0 < s.admission.ingressBytes inDev fine + s.admission.hdrmBytes inDev fine := by
  unfold checkAndSendResume at stopped
  split at stopped
  · simp [setResume_paused] at stopped
  · rename_i kept
    unfold Admission.checkShouldResume Admission.getSharedUsed at kept
    by_contra none
    simp [stopped, show s.admission.hdrmBytes inDev fine = 0 by omega,
      show s.admission.ingressBytes inDev fine = 0 by omega] at kept

theorem checkAndSendResume_other {inDev fine port cls : Nat}
    (other : ¬ (port = inDev ∧ cls = fine)) :
    (s.checkAndSendResume c inDev fine).admission.paused port cls =
      s.admission.paused port cls := by
  unfold checkAndSendResume
  split
  · simp only [setResume_paused, setCell_other _ _ _ _ _ _ other]
  · rfl

theorem Grounded.transmitted (grounded : Grounded c s) (accounts : Accounts c s) {ifIndex : Nat}
    {out : Option Packet} (port_lt : ifIndex < c.nDevices)
    (transmits : Transmits c s ifIndex out after) : Grounded c after := by
  cases transmits with
  | idle => exact grounded
  | @sent p p' qIndex queue _ served notified =>
      have dequeues := BEgressQueue.dequeueRR_dequeues served
      have laws := accounts.discharged dequeues port_lt
      intro port cls stopped
      have leaves := taken_residentBy dequeues port_lt (fromPort c port cls)
      rw [notified.residentBy (fromPort_traffic c port cls)]
      rw [notified.admission] at stopped
      have kept := discharged_paused (c := c) (s := s.taken ifIndex queue) (p.flowId.getD 0) ifIndex
        qIndex p
      unfold depart at stopped
      unfold SwitchNode.discharged at laws kept
      by_cases zero : qIndex = 0
      · rw [if_pos zero] at stopped
        have before := grounded port cls stopped
        have blind : fromPort c port cls (p.toUnit ifIndex qIndex) = 0 := by
          simp [fromPort, Packet.toUnit, zero]
        omega
      · rw [if_neg zero] at stopped laws kept
        by_cases here : port = p.flowId.getD 0 ∧ cls = c.pfcFine (p.flowId.getD 0) qIndex p.dip
        · obtain ⟨rfl, rfl⟩ := here
          rw [← laws.ingress]
          exact checkAndSendResume_paused stopped
        · rw [checkAndSendResume_other here, kept] at stopped
          have before := grounded port cls stopped
          have belongs := accounts.head_belongs dequeues port_lt zero
          rw [belongs.fromPort, if_neg here] at leaves
          omega

theorem handle_grounded (accounts : Accounts c s) (grounded : Grounded c s)
    {label : NodeEvent × Option Packet} (step : BoundedStep c s label after) :
    Grounded c after := by
  obtain ⟨⟨valid, route, success⟩, within⟩ := step
  obtain ⟨event, out⟩ := label
  have handles := handle_handles accounts.consistent success
  cases handles with
  | received receives => exact grounded.received valid.2.1 receives within.noDrops
  | wentOn _ forwards => exact grounded.forwarded rfl valid.2.1 forwards within.noDrops
  | released releases =>
      have admission : after.admission = s.admission := by
        cases releases with
        | idle => rfl
        | sent => rfl
      refine grounded.same (by rw [admission]) fun port cls => ?_
      exact accounts.released_residentBy releases within.noDrops (fromPort_traffic c port cls)
  | transmitted transmits => exact grounded.transmitted accounts valid transmits
  | fired replies =>
      obtain ⟨frames, returns⟩ := replies
      refine grounded.same (by rw [returns.admission]) fun port cls => ?_
      exact returns.emits.residentBy (fromPort_traffic c port cls)
  | probed probes =>
      obtain ⟨frames, emits, -⟩ := probes.emits
      refine grounded.same ?_ fun port cls => emits.residentBy (fromPort_traffic c port cls)
      cases probes with
      | idle => rfl
      | sent => rfl

end Grounded

section Carried

variable {c : SwitchNodeConfig} {s after : SwitchNode} {port cls : Nat}

def carried (port : Nat) : NodeEvent → Option Packet → List Packet
  | .transmit ifIndex, out => if ifIndex = port then out.toList else []
  | _, _ => []

@[simp] theorem carried_transmit (port ifIndex : Nat) (out : Option Packet) :
    carried port (.transmit ifIndex) out = if ifIndex = port then out.toList else [] := rfl

def SendsSignals (port cls : Nat) (s : SwitchNode) (frames : List Packet) (after : SwitchNode) :
    Prop :=
  ∃ added, marks cls frames ++ after.signals port cls = s.signals port cls ++ added ∧
    Alternates (s.admission.paused port cls) added ∧
    final (s.admission.paused port cls) added = after.admission.paused port cls

theorem Toggles.sends (toggles : Toggles port cls s after) :
    SendsSignals port cls s [] after := toggles

theorem transmitted_signals {ifIndex : Nat} {out : Option Packet} (accounts : Accounts c s)
    (port_lt : ifIndex < c.nDevices) (transmits : Transmits c s ifIndex out after)
    (whole : NoDrops after) :
    SendsSignals port cls s (carried port (.transmit ifIndex) out) after := by
  cases transmits with
  | idle =>
      have nothing : carried port (.transmit ifIndex) none = [] := by simp
      rw [nothing]
      exact (Toggles.same rfl rfl).sends
  | @sent p p' qIndex queue _ served notified =>
      have dequeues := BEgressQueue.dequeueRR_dequeues served
      obtain ⟨head, others⟩ := taken_queues dequeues
      obtain ⟨added, signals, alternate, last⟩ :=
        @Notified.toggles c (s.taken ifIndex queue) after port cls ifIndex qIndex p p' notified whole
      refine ⟨added, ?_, alternate, last⟩
      rw [signals, ← List.append_assoc]
      congr 1
      rw [carried_transmit]
      unfold SwitchNode.signals
      by_cases here : ifIndex = port
      · subst here
        rw [if_pos rfl, Option.toList_some, marks_cons, notified.mark]
        by_cases zero : qIndex = 0
        · subst zero
          rw [head, marks_cons]
          simp [marks]
        · have member := taken_head dequeues
          have data : p.isPfc = false := by
            rcases misplaced_zero (accounts.queued_placed port_lt dequeues.below member) with
              control | ⟨_, _, place⟩
            · exact absurd control.1 zero
            · exact (place zero).1
          rw [pfcMark_other data, others ifIndex 0 fun same => zero same.2.symm]
          simp [marks]
      · rw [if_neg here, others port 0 fun same => here same.1.symm]
        rfl

theorem handle_signals (accounts : Accounts c s) (period : 0 < (c.device port).pauseTime)
    {event : NodeEvent} {out : Option Packet} (step : BoundedStep c s (event, out) after) :
    SendsSignals port cls s (carried port event out) after := by
  obtain ⟨⟨valid, route, success⟩, within⟩ := step
  have handles := handle_handles accounts.consistent success
  cases handles with
  | received receives => exact (receives.toggles period within.noDrops).sends
  | @wentOn inDev outDev p _ tagged forwards =>
      have frame : (p.setFlowId (some inDev)).isPfc = false := by
        cases shape : p.body <;>
          simp [Packet.ackTag, Packet.isPfc, Packet.setFlowId, shape] at tagged ⊢
      exact (forwards.toggles period frame within.noDrops).sends
  | @released voq _ releases =>
      refine Toggles.sends ?_
      cases releases with
      | idle => exact Toggles.same rfl rfl
      | @sent top unit up sends =>
          obtain ⟨rest, head⟩ := sends.head
          have data := @Accounts.unit_data c s accounts voq top (by simp [head])
          have frame : unit.pkt.isPfc = false := by
            rw [sends.unit, Passes.isPfc sends.passes]
            cases shape : top.pkt.body <;> simp [Packet.isUdp, Packet.isPfc, shape] at data ⊢
          have popped : Toggles port cls s { s with upstream := up } := Toggles.same rfl rfl
          exact popped.trans (switchSend_toggles frame)
  | transmitted transmits => exact transmitted_signals accounts valid transmits within.noDrops
  | fired replies => exact replies.toggles.sends
  | probed probes =>
      obtain ⟨frames, emits, syns⟩ := probes.emits
      refine (emits.toggles (fun p member => ?_) ?_).sends
      · simp [Packet.isPfc, syns port p member]
      · cases probes with
        | idle => rfl
        | sent => rfl

end Carried

end SwitchNode

/-- A switch, the wire that leaves one of its ports and the device at the other end. -/
structure PfcLink where
  node : SwitchNode
  wire : List Packet
  peer : QbbNetDevice

inductive LinkEvent where
  | node (event : NodeEvent) (out : Option Packet)
  | deliver (frame : Packet)

namespace PfcLink

open SwitchNode

def init (c : SwitchNodeConfig) : PfcLink := ⟨SwitchNode.init c, [], QbbNetDevice.init⟩

inductive Step (c : SwitchNodeConfig) (port : Nat) (far : DeviceConfig) (l : PfcLink) :
    LinkEvent → PfcLink → Prop
  | node {event : NodeEvent} {out : Option Packet} {after : SwitchNode}
      (step : BoundedStep c l.node (event, out) after) :
      Step c port far l (.node event out)
        { l with node := after, wire := l.wire ++ carried port event out }
  | deliver {frame : Packet} {rest : List Packet} {device : QbbNetDevice}
      (wire : l.wire = frame :: rest) (received : l.peer.receive far frame = .ok device) :
      Step c port far l (.deliver frame) { l with wire := rest, peer := device }

def delivered : List LinkEvent → List Packet
  | [] => []
  | .deliver frame :: rest => frame :: delivered rest
  | .node _ _ :: rest => delivered rest

def sent (port : Nat) (history : List LinkEvent) (l : PfcLink) : List Packet :=
  delivered history ++ l.wire ++ l.node.queues port 0

theorem delivered_append (first second : List LinkEvent) :
    delivered (first ++ second) = delivered first ++ delivered second := by
  induction first with
  | nil => rfl
  | cons label rest ih =>
      cases label with
      | node event out => exact ih
      | deliver frame => exact congrArg (frame :: ·) ih

structure Agrees (c : SwitchNodeConfig) (port : Nat) (history : List LinkEvent) (l : PfcLink) :
    Prop where
  accounts : Accounts c l.node
  grounded : Grounded c l.node
  alternate : ∀ cls, Alternates false (marks cls (sent port history l))
  near : ∀ cls, final false (marks cls (sent port history l)) = l.node.admission.paused port cls
  far : ∀ cls, final false (marks cls (delivered history)) = l.peer.paused cls

section Agrees

variable {c : SwitchNodeConfig} {port : Nat} {far : DeviceConfig} {history : List LinkEvent}
  {l next : PfcLink}

theorem agrees_init : Agrees c port [] (init c) := by
  refine ⟨Accounts.init c, fun _ _ stopped => ?_, fun cls => ?_, fun cls => ?_, fun cls => rfl⟩
  · contradiction
  · exact trivial
  · rfl

theorem marks_sent (cls : Nat) : marks cls (sent port history l) =
    marks cls (delivered history) ++ (marks cls l.wire ++ l.node.signals port cls) := by
  rw [sent, marks_append, marks_append, List.append_assoc]
  rfl

theorem Agrees.works (agrees : Agrees c port history l) (period : 0 < (c.device port).pauseTime)
    {event : NodeEvent} {out : Option Packet} {after : SwitchNode}
    (step : BoundedStep c l.node (event, out) after) :
    Agrees c port (history ++ [.node event out])
      { l with node := after, wire := l.wire ++ carried port event out } := by
  have same : delivered (history ++ [.node event out]) = delivered history := by
    rw [delivered_append]
    exact List.append_nil _
  have grown : ∀ cls, ∃ added,
      marks cls (sent port (history ++ [.node event out])
        { l with node := after, wire := l.wire ++ carried port event out }) =
          marks cls (sent port history l) ++ added ∧
      Alternates (l.node.admission.paused port cls) added ∧
      final (l.node.admission.paused port cls) added = after.admission.paused port cls := by
    intro cls
    obtain ⟨added, signals, alternate, last⟩ :=
      @handle_signals _ _ _ _ cls agrees.accounts period _ _ step
    refine ⟨added, ?_, alternate, last⟩
    rw [marks_sent, marks_sent, same, marks_append]
    simp only [List.append_assoc, signals]
  refine ⟨handle_accounts agrees.accounts step, handle_grounded agrees.accounts agrees.grounded step,
    fun cls => ?_, fun cls => ?_, fun cls => ?_⟩
  · obtain ⟨added, marks, alternate, _⟩ := grown cls
    rw [marks, alternates_append, agrees.near]
    exact ⟨agrees.alternate cls, alternate⟩
  · obtain ⟨added, marks, _, last⟩ := grown cls
    rw [marks, final_append, agrees.near]
    exact last
  · rw [same]
    exact agrees.far cls

theorem receive_mark (enabled : far.qbbEnabled = true) (d : QbbNetDevice) (frame : Packet)
    (toggles : ∀ cls, Alternates (d.paused cls) (frame.pfcMark cls).toList) :
    ∃ device, d.receive far frame = .ok device ∧
      ∀ cls, device.paused cls = final (d.paused cls) (frame.pfcMark cls).toList := by
  cases shape : frame.body with
  | pfc time qIndex =>
      have mark : ∀ cls, frame.pfcMark cls =
          if qIndex = cls then some (decide (time > 0)) else none := by
        intro cls
        simp only [Packet.pfcMark, shape]
      have paused : ∀ value, value = decide (time > 0) → ∀ cls,
          (d.setPaused qIndex value).paused cls =
            final (d.paused cls) (frame.pfcMark cls).toList := by
        intro value same cls
        rw [mark]
        by_cases here : qIndex = cls
        · subst here
          simp [QbbNetDevice.setPaused, same]
        · simp [QbbNetDevice.setPaused, here, Ne.symm here]
      unfold QbbNetDevice.receive QbbNetDevice.receivePfc
      simp only [shape, enabled, Bool.not_true, Bool.false_eq_true, if_false]
      by_cases pause : time > 0
      · rw [if_pos pause]
        exact ⟨_, rfl, paused true (by simp [pause])⟩
      · have stopped : d.paused qIndex = true := by
          have before := toggles qIndex
          rw [mark, if_pos rfl] at before
          simpa [pause] using before
        rw [if_neg pause, QbbNetDevice.resume, if_pos stopped]
        exact ⟨_, rfl, paused false (by simp [pause])⟩
  | _ =>
      refine ⟨d, by simp only [QbbNetDevice.receive, shape], fun cls => ?_⟩
      simp [Packet.pfcMark, shape]

/-- The first frame on the wire toggles what it names at the other end. -/
theorem Agrees.first_toggles (agrees : Agrees c port history l) {frame : Packet}
    {rest : List Packet} (wire : l.wire = frame :: rest) (cls : Nat) :
    Alternates (l.peer.paused cls) (frame.pfcMark cls).toList := by
  have all := agrees.alternate cls
  rw [marks_sent, alternates_append, agrees.far, wire, marks_cons, List.append_assoc,
    alternates_append] at all
  exact all.2.1

theorem Agrees.arrives (agrees : Agrees c port history l) (enabled : far.qbbEnabled = true)
    {frame : Packet} {rest : List Packet} {device : QbbNetDevice} (wire : l.wire = frame :: rest)
    (received : l.peer.receive far frame = .ok device) :
    Agrees c port (history ++ [.deliver frame]) { l with wire := rest, peer := device } := by
  have grown : delivered (history ++ [.deliver frame]) = delivered history ++ [frame] := by
    rw [delivered_append]
    rfl
  have same : sent port (history ++ [.deliver frame]) { l with wire := rest, peer := device } =
      sent port history l := by
    simp only [sent, grown, wire, List.append_assoc, List.cons_append, List.nil_append]
  refine ⟨agrees.accounts, agrees.grounded, fun cls => ?_, fun cls => ?_, fun cls => ?_⟩
  · rw [same]
    exact agrees.alternate cls
  · rw [same]
    exact agrees.near cls
  · obtain ⟨found, success, paused⟩ :=
      receive_mark enabled l.peer frame (agrees.first_toggles wire)
    rw [received] at success
    obtain rfl := Except.ok.inj success
    rw [grown, marks_append, final_append, agrees.far, marks_cons, paused]
    simp [marks]

end Agrees

/-- PFC on one port: what the claim of a consistent protocol comes to. -/
structure PfcConsistent (c : SwitchNodeConfig) (port : Nat) (far : DeviceConfig)
    (history : List LinkEvent) (l : PfcLink) : Prop where
  alternate : ∀ cls, Alternates false (marks cls (sent port history l))
  settled : ∀ cls, (∀ p ∈ l.wire ++ l.node.queues port 0, p.pfcMark cls = none) →
    l.peer.paused cls = l.node.admission.paused port cls
  asserted : ∀ frame rest, l.wire = frame :: rest →
    l.peer.receive far frame ≠ .error .mustBePaused
  resident : ∀ cls, l.node.admission.paused port cls = true →
    0 < l.node.residentBy c (fromPort c port cls)

/-- In every run in which no queue refuses a frame and the bytes fit 32 bits. -/
theorem pfc_consistent (c : SwitchNodeConfig) (port : Nat) (far : DeviceConfig)
    (period : 0 < (c.device port).pauseTime) (enabled : far.qbbEnabled = true)
    (history : List LinkEvent) (l : PfcLink) (run : Run (Step c port far) (init c) history l) :
    PfcConsistent c port far history l := by
  have agrees : Agrees c port history l := by
    refine run.history (Agrees c port) agrees_init ?_
    intro labels middle label finish _ agrees step
    cases step with
    | node step => exact agrees.works period step
    | deliver wire received => exact agrees.arrives enabled wire received
  refine ⟨agrees.alternate, fun cls clear => ?_, fun frame rest wire => ?_,
    fun cls => agrees.grounded port cls⟩
  · have none : marks cls (l.wire ++ l.node.queues port 0) = [] :=
      List.filterMap_eq_nil_iff.mpr clear
    have near := agrees.near cls
    rw [sent, List.append_assoc, marks_append, none, List.append_nil, agrees.far] at near
    exact near
  · obtain ⟨device, success, _⟩ :=
      receive_mark enabled l.peer frame (agrees.first_toggles wire)
    rw [success]
    simp

def attentive : DeviceConfig := ⟨1048576000, true, true, 5⟩

/-- A switch without shared buffer beyond the reserves, whose pauses last for no time. -/
def fleeting : SwitchNodeConfig :=
  { plainSwitch with
    admission :=
      { plainSwitch.admission with
        bufferSize := 12288
        headroom := fun _ => 2048
        bufferSize_lt := by decide }
    device := fun _ => ⟨1048576000, true, true, 0⟩ }

section Replay

variable (c : SwitchNodeConfig) (port : Nat) (far : DeviceConfig) (l : PfcLink)

def takes : Option NodeEvent → Bool
  | some event => l.node.takes c event
  | none =>
      match l.wire with
      | [] => false
      | frame :: _ => (l.peer.receive far frame).isOk

def next : Option NodeEvent → PfcLink
  | some event =>
      { l with
        node := l.node.next c event
        wire := l.wire ++ carried port event (l.node.output c event) }
  | none =>
      match l.wire with
      | [] => l
      | frame :: rest =>
          match l.peer.receive far frame with
          | .ok device => { l with wire := rest, peer := device }
          | .error _ => l

def labelled : PfcLink → List (Option NodeEvent) → List LinkEvent
  | _, [] => []
  | l, some event :: rest =>
      .node event (l.node.output c event) :: labelled (l.next c port far (some event)) rest
  | l, none :: rest =>
      (l.wire.take 1).map LinkEvent.deliver ++ labelled (l.next c port far none) rest

theorem takes_deliver {c : SwitchNodeConfig} {l : PfcLink} (taken : l.takes c far none = true) :
    ∃ frame behind device, l.wire = frame :: behind ∧ l.peer.receive far frame = .ok device ∧
      l.next c port far none = { l with wire := behind, peer := device } := by
  unfold takes at taken
  unfold next
  cases wire : l.wire with
  | nil =>
      rw [wire] at taken
      contradiction
  | cons frame behind =>
      rw [wire] at taken
      cases received : l.peer.receive far frame with
      | error failure =>
          simp [received, Except.isOk, Except.toBool] at taken
      | ok device =>
          simp only [received]
          exact ⟨frame, behind, device, rfl, received, rfl⟩

theorem labelled_run {c : SwitchNodeConfig} (roomy : Roomy c) (moves : List (Option NodeEvent))
    {l : PfcLink} (whole : NoDrops l.node)
    (all : executes (takes c far) (next c port far) l moves = true) :
    Run (Step c port far) l (labelled c port far l moves) (moves.foldl (next c port far) l) := by
  induction moves generalizing l with
  | nil => exact .nil
  | cons move rest ih =>
      obtain ⟨here, later⟩ := Bool.and_eq_true_iff.mp all
      cases move with
      | some event =>
          have step := takes_step roomy whole here
          exact (Run.single (Step.node step)).append (ih step.2.noDrops later)
      | none =>
          obtain ⟨frame, behind, device, wire, received, arrived⟩ := takes_deliver port far here
          rw [labelled, List.foldl_cons, wire]
          rw [arrived] at later ⊢
          exact (Run.single (Step.deliver wire received)).append (ih whole later)

end Replay

/-- `fleeting` with pauses that last. -/
def pausing : SwitchNodeConfig :=
  { fleeting with device := fun _ => ⟨4294967296, true, true, 5⟩ }

/-- A packet comes in on port 1 and leaves on port 2; the pause and the resume for its class leave on
port 1 and arrive. -/
def pauseAndResume : List (Option NodeEvent) :=
  [some (.receive 1 (some 2) kiloPacket), some (.transmit 1), none, some (.transmit 2),
    some (.transmit 1), none]

theorem pfc_consistent_pause_resume :
    PfcConsistent pausing 1 attentive (labelled pausing 1 attentive (init pausing) pauseAndResume)
        (pauseAndResume.foldl (next pausing 1 attentive) (init pausing)) ∧
      marks 3 (delivered (labelled pausing 1 attentive (init pausing) pauseAndResume)) =
        [true, false] := by
  have evaluated : executes (takes pausing attentive) (next pausing 1 attentive) (init pausing)
        pauseAndResume = true ∧
      marks 3 (delivered (labelled pausing 1 attentive (init pausing) pauseAndResume)) =
        [true, false] := by
    decide +kernel
  exact ⟨pfc_consistent pausing 1 attentive (by decide) rfl _ _
    (labelled_run 1 attentive (fun _ => Rat.le_refl) pauseAndResume (fun _ => rfl) evaluated.1),
    evaluated.2⟩

/-- `fleeting` after one packet, which sends a pause that reads as a resume. -/
def afterPause : SwitchNode :=
  ((SwitchNode.init fleeting).admitPacket fleeting 1 2 3 (kiloPacket.setFlowId (some 1))).switchSend
    fleeting 2 3 (kiloPacket.setFlowId (some 1))

theorem fleeting_step : BoundedStep fleeting (SwitchNode.init fleeting)
    (.receive 1 (some 2) kiloPacket, none) afterPause := by
  refine ⟨⟨⟨by decide, fun dev same => ?_, by decide⟩, id, rfl⟩, ?_, ?_⟩
  · obtain rfl := Option.some.inj same
    decide
  · intro dev
    by_cases first : dev = 1
    · subst first
      decide +kernel
    · by_cases second : dev = 2
      · subst second
        decide +kernel
      · have quiet : afterPause.device dev = QbbNetDevice.init := by
          have sent : afterPause.device dev = ((SwitchNode.init fleeting).admitPacket fleeting 1 2 3
              (kiloPacket.setFlowId (some 1))).device dev := if_neg second
          rw [sent]
          exact if_neg first
        rw [quiet]
        rfl
  · have upstream : afterPause.upstream = Upstream.init fleeting.upstream := admit_upstream _ _
    rw [residentBy, upstream, Upstream.init_heldBy, Nat.zero_add]
    decide +kernel

/-- With a pause time of zero the other end takes every pause for a resume. -/
theorem zero_pause_time_inconsistent :
    ¬ ∀ (c : SwitchNodeConfig) (port : Nat) (far : DeviceConfig),
      c.admission.pfcMode port ≠ .off → far.qbbEnabled = true →
      ∀ (history : List LinkEvent) (l : PfcLink), Run (Step c port far) (init c) history l →
        PfcConsistent c port far history l := by
  intro claim
  have consistent := claim fleeting 1 attentive (by decide) rfl _ _
    (Run.single (.node fleeting_step))
  have pauses := consistent.alternate 3
  have told : marks 3 (afterPause.queues 1 0) = [false] := by decide +kernel
  simp only [marks_sent, delivered, init, signals, carried, told] at pauses
  simp [marks] at pauses

/-- Queues that refuse a packet after it has been charged. -/
def refusing : SwitchNodeConfig :=
  { fleeting with device := fun _ => ⟨1000, true, true, 5⟩ }

/-- Once a queue refuses a packet its class can be paused with nothing in the switch. -/
theorem refused_packet_orphans_pause : ∃ s,
    SwitchNode.Step refusing (SwitchNode.init refusing) (.receive 1 (some 2) kiloPacket, none) s ∧
      s.admission.paused 1 3 = true ∧ s.residentBy refusing (fromPort refusing 1 3) = 0 := by
  have evaluated : ((SwitchNode.init refusing).handle refusing id
        (.receive 1 (some 2) kiloPacket)).isOk = true ∧
      ((SwitchNode.init refusing).next refusing (.receive 1 (some 2) kiloPacket)).admission.paused 1 3 =
        true ∧
      ((SwitchNode.init refusing).next refusing (.receive 1 (some 2) kiloPacket)).residentBy refusing
        (fromPort refusing 1 3) = 0 := by
    decide +kernel
  obtain ⟨works, stopped⟩ := evaluated
  unfold SwitchNode.next at stopped
  cases handled : (SwitchNode.init refusing).handle refusing id (.receive 1 (some 2) kiloPacket) with
  | error failure =>
      rw [handled] at works
      contradiction
  | ok sent =>
      rw [handled] at stopped
      obtain ⟨out, s⟩ := sent
      obtain ⟨received, receiving, success⟩ := bind_ok.mp handled
      obtain ⟨rfl, rfl⟩ := Prod.mk.inj (Except.ok.inj success)
      exact ⟨_, ⟨⟨by decide, fun dev same => Option.some.inj same ▸ (by decide : 2 < 4), by decide⟩,
        id, handled⟩, stopped⟩

end PfcLink

end Floodgate
