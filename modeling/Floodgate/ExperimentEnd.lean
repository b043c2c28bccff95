import Floodgate.FlowAccounting
import Floodgate.FlowCompletion
import Floodgate.MessageTimer

/-! When an experiment stops the simulation, from the reports of the senders and, outside `qp_mode`,
from what the senders do. -/

namespace Floodgate

open LabelledRun

namespace FlowRegister

section Reports

variable {requests : List FlowRequest} {qpMode : Bool} {flows tests : List Flow}
  {calls : List FinishCall} {s : FlowRegister}

theorem ids_card (nodup : (flows.map Flow.flowId).Nodup) : (ids flows).card = flows.length := by
  rw [ids, List.toFinset_card_of_nodup nodup, List.length_map]

/-- The counter that is compared with `flow_num` counts the ordinary flows. -/
theorem Accounts.ordinary (drawn : Drawn flows tests) (counts : qpMode = true ∨ tests = [])
    (accounts : Accounts qpMode flows tests calls s) :
    s.finished (kind qpMode false) = (FinishCall.reported .sender calls ∩ ids flows).card := by
  rw [accounts.finished]
  congr 1
  ext id
  rw [Finset.mem_filter, Finset.mem_inter]
  apply and_congr_right
  intro reported
  have member := accounts.within reported
  rw [all_eq, Finset.mem_union] at member
  cases counts with
  | inl messages =>
      subst messages
      by_cases test : id ∈ ids tests
      · have other : id ∉ ids flows := (assign_spec drawn).apart id test
        simp [kind, test, other]
      · simp [kind, test, member.resolve_right test]
  | inr none =>
      subst none
      have plain : id ∈ ids flows := member.resolve_right List.not_mem_nil
      have untested : id ∉ ids [] := List.not_mem_nil
      simp [untested, plain]

theorem Accounts.stops_iff (drawn : Drawn flows tests) (counts : qpMode = true ∨ tests = [])
    (some : flows ≠ []) (accounts : Accounts qpMode flows tests calls s) :
    s.stops = if ∀ f ∈ flows, f.flowId ∈ FinishCall.reported .sender calls then 1 else 0 := by
  have nodup : (flows.map Flow.flowId).Nodup := by
    have all := drawn.nodup
    rw [List.map_append] at all
    exact (List.nodup_append.mp all).1
  have positive : 0 < flows.length := List.length_pos_iff.mpr some
  have reached : flows.length ≤ (FinishCall.reported .sender calls ∩ ids flows).card ↔
      ∀ f ∈ flows, f.flowId ∈ FinishCall.reported .sender calls := by
    rw [← ids_card nodup]
    constructor
    · intro enough f member
      have whole := Finset.eq_of_subset_of_card_le Finset.inter_subset_right enough
      have inside : f.flowId ∈ ids flows := mem_ids.mpr ⟨f, member, rfl⟩
      rw [← whole] at inside
      exact (Finset.mem_inter.mp inside).1
    · intro reported
      apply Finset.card_le_card
      intro id inside
      obtain ⟨f, member, rfl⟩ := mem_ids.mp inside
      exact Finset.mem_inter.mpr ⟨reported f member, inside⟩
  rw [accounts.stops, accounts.ordinary drawn counts]
  by_cases reported : ∀ f ∈ flows, f.flowId ∈ FinishCall.reported .sender calls
  · rw [if_pos reported, if_pos ⟨positive, reached.mpr reported⟩]
  · rw [if_neg reported, if_neg fun both => reported (reached.mp both.2)]

/-- `Simulator::Stop` is called once the senders of all ordinary flows have reported, and once only,
whatever the order of the reports and however often a sender reports again. -/
theorem simulation_stops_iff (few : requests.length < Word32.size)
    (asked : FlowRequest.Few requests)
    (part : (flows ++ tests).Subperm (Flow.generate .init requests))
    (counts : qpMode = true ∨ tests = []) (some : flows ≠ [])
    (run : Run (Step qpMode) (assign flows tests) calls s) :
    s.stops = if ∀ f ∈ flows, f.flowId ∈ FinishCall.reported .sender calls then 1 else 0 := by
  have drawn := drawn_of_generated few asked part
  exact (Accounts.run drawn run).stops_iff drawn counts some

/-- `IsComplete` tells whether the sender of a flow has reported outside `qp_mode` only, as
`msg_finish` does not set the time; `IsRcvFinished` always tells it of the receiver. -/
theorem finish_times_kept (few : requests.length < Word32.size)
    (asked : FlowRequest.Few requests)
    (part : (flows ++ tests).Subperm (Flow.generate .init requests))
    (later : ∀ call ∈ calls, 0 < call.now)
    (run : Run (Step qpMode) (assign flows tests) calls s) {f : Flow} (member : f ∈ flows) :
    ∃ g, s.flowsMap f.flowId = some g ∧
      (g.isComplete = true ↔ qpMode = false ∧ f.flowId ∈ FinishCall.reported .sender calls) ∧
      (g.isRcvFinished = true ↔ f.flowId ∈ FinishCall.reported .receiver calls) := by
  have drawn := drawn_of_generated few asked part
  have plain : f.flowId ∈ ids flows := mem_ids.mpr ⟨f, member, rfl⟩
  have inside : f.flowId ∈ all flows tests := by
    rw [all_eq]
    exact Finset.mem_union_left _ plain
  have untested : f.flowId ∉ ids tests := fun test => (assign_spec drawn).apart _ test plain
  obtain ⟨g, entry, test⟩ := (Accounts.run drawn run).found inside
  rw [decide_eq_false untested] at test
  have timed := Timed.run drawn run
  refine ⟨g, entry, ?_, ?_⟩
  · rw [Flow.isComplete, decide_eq_true_eq, timed.finishTime _ g entry, test,
      ← FinishCall.first_isSome]
    cases qpMode with
    | true => simp
    | false =>
        cases first : FinishCall.first .sender calls f.flowId with
        | none => simp
        | some time =>
            have after := FinishCall.first_pos later first
            simp
            omega
  · rw [Flow.isRcvFinished, decide_eq_true_eq, timed.rcvFinishTime _ g entry,
      ← FinishCall.first_isSome]
    cases first : FinishCall.first .receiver calls f.flowId with
    | none => simp
    | some time =>
        have after := FinishCall.first_pos later first
        simp
        omega

end Reports

section Example

/-- Two messages of one connection. -/
def twoMessages : List FlowRequest := [.message 0 4 1000 7 0 false, .message 0 4 2000 7 1 false]

/-- The second message finishes first, and reports again. -/
def reportsAgain : List FinishCall := [.sent 5 1, .sent 6 1, .received 6 0, .sent 7 0]

theorem twoMessages_few : twoMessages.length < Word32.size ∧ FlowRequest.Few twoMessages := by
  decide

theorem twoMessages_part :
    (Flow.generate .init twoMessages ++ []).Subperm (Flow.generate .init twoMessages) := by
  rw [List.append_nil]

theorem twoMessages_served : ∃ s, Run (Step true)
    (assign (Flow.generate .init twoMessages) []) reportsAgain s :=
  (reports_served_iff (drawn_of_generated twoMessages_few.1 twoMessages_few.2
    twoMessages_part)).mpr (by decide)

theorem simulation_stops_iff_messages : ∃ s, Run (Step true)
    (assign (Flow.generate .init twoMessages) []) reportsAgain s ∧ s.stops = 1 := by
  obtain ⟨s, run⟩ := twoMessages_served
  refine ⟨s, run, ?_⟩
  rw [simulation_stops_iff twoMessages_few.1 twoMessages_few.2 twoMessages_part (.inl rfl)
    (List.cons_ne_nil _ _) run]
  decide

theorem finish_times_kept_messages : ∃ s, Run (Step true)
    (assign (Flow.generate .init twoMessages) []) reportsAgain s ∧
    ∃ g, s.flowsMap 0 = some g ∧ g.isComplete = false ∧ g.isRcvFinished = true := by
  obtain ⟨s, run⟩ := twoMessages_served
  have member : (Flow.createMessage .init 0 4 1000 7 0 false).1 ∈ Flow.generate .init twoMessages :=
    List.mem_cons_self
  obtain ⟨g, entry, complete, received⟩ := finish_times_kept twoMessages_few.1 twoMessages_few.2
    twoMessages_part (by decide) run member
  refine ⟨s, run, g, entry, ?_, received.mpr (by decide)⟩
  exact Bool.eq_false_iff.mpr fun done => absurd (complete.mp done).1 (by decide)

end Example

end FlowRegister

structure Experiment where
  register : FlowRegister
  senders : Nat → DcqcnFlow

namespace Experiment

/-- An event of one sender. `QpComplete` reports the flow at once. -/
inductive Step (g : RdmaSettings) (d : DcqcnSettings) (flows : List Flow) (e : Experiment) :
    Nat × DcqcnEvent → Experiment → Prop
  | runs {f : Flow} {event : DcqcnEvent} {next : DcqcnFlow} (member : f ∈ flows)
      (moves : DcqcnFlow.Step g d (e.senders f.flowId) event next)
      (same : next.completions = (e.senders f.flowId).completions) :
      Step g d flows e (f.flowId, event)
        { e with senders := Function.update e.senders f.flowId next }
  | completes {f : Flow} {event : DcqcnEvent} {next : DcqcnFlow} {register : FlowRegister}
      (member : f ∈ flows) (moves : DcqcnFlow.Step g d (e.senders f.flowId) event next)
      (more : next.completions = (e.senders f.flowId).completions + 1)
      (reported : e.register.qpFinish next.now f.flowId = some register) :
      Step g d flows e (f.flowId, event)
        ⟨register, Function.update e.senders f.flowId next⟩

structure Begins (g : RdmaSettings) (flows : List Flow) (e : Experiment) : Prop where
  register : e.register = .assign flows []
  senders : ∀ f ∈ flows, ∃ sport, e.senders f.flowId = DcqcnFlow.create g f.size f.flowId sport

section Senders

variable {g : RdmaSettings} {d : DcqcnSettings} {s next : DcqcnFlow} {event : DcqcnEvent}

theorem getNxtPacket_finished {now : Nat} {q after : RdmaQueuePair} {p : DataPacket}
    (single : g.qpMode = false) (sends : RdmaHw.getNxtPacket g now q = .ok (p, after)) :
    after.isFinished g = q.isFinished g := by
  obtain ⟨seq, m, chosen, made, reset⟩ := getNxtPacket_single single sends
  have sent : q.current.sendOne g = RdmaHw.advance m p := by
    rw [MsgStatus.sendOne, chosen, made]
  have current : after.current = RdmaHw.advance m p := (resetTimer_current single reset).1
  rw [RdmaQueuePair.isFinished, current, ← sent, isFinished_sendOne, RdmaQueuePair.isFinished]

def Shows (g : RdmaSettings) (s : DcqcnFlow) : Prop :=
  s.qp.isFinished g = true ↔ 0 < s.completions

theorem Shows.step (single : g.qpMode = false) (acks : g.ackInterval ≠ 0) (shows : Shows g s)
    (step : DcqcnFlow.Step g d s event next) :
    Shows g next ∧
      (next.completions = s.completions ∨ next.completions = s.completions + 1) := by
  cases step with
  | send left room sends =>
      refine ⟨?_, .inl rfl⟩
      rw [Shows, getNxtPacket_finished single sends]
      exact shows
  | data sent ecn => exact ⟨shows, .inl rfl⟩
  | ack sent received =>
      rename_i a cnp
      obtain ⟨current, -, completes, continues, -⟩ := DcqcnFlow.receiveAck_parts single received
      rw [Shows, RdmaQueuePair.isFinished, current]
      by_cases finishes : s.qp.Finishes g a
      · obtain ⟨more, -⟩ := completes finishes
        refine ⟨⟨fun _ => by omega, fun _ => DcqcnFlow.acked_finished finishes.2⟩, .inr more⟩
      · have same := continues finishes
        have heard : ¬(s.qp.current.hear g a).isFinished g = true :=
          fun done => finishes ⟨acks, done⟩
        have before : ¬0 < s.completions :=
          fun some => heard (isFinished_hear a (shows.mpr some))
        refine ⟨⟨fun done => absurd done ?_, fun some => absurd (same ▸ some) before⟩, .inl same⟩
        rw [RdmaQueuePair.acked]
        split
        · exact heard
        · exact heard
  | timeout due => exact ⟨shows, .inl rfl⟩
  | updateAlpha due => exact ⟨shows, .inl rfl⟩
  | decreaseRate due => exact ⟨shows, .inl rfl⟩
  | increaseRate due => exact ⟨shows, .inl rfl⟩
  | pace rate => exact ⟨shows, .inl rfl⟩
  | wait forward before => exact ⟨shows, .inl rfl⟩

theorem Shows.create (size flowId sport : Nat) (some : 0 < size) :
    Shows g (DcqcnFlow.create g size flowId sport) := by
  have unfinished : (DcqcnFlow.create g size flowId sport).qp.isFinished g = false := by
    simp only [RdmaQueuePair.isFinished, MsgStatus.isFinished, DcqcnFlow.create,
      RdmaFlow.create]
    split
    · exact decide_eq_false (by omega)
    · rfl
  rw [Shows, unfinished]
  exact ⟨fun done => Bool.noConfusion done, fun done => absurd done (Nat.lt_irrefl 0)⟩

end Senders

section Runs

variable {g : RdmaSettings} {d : DcqcnSettings} {flows : List Flow} {e start : Experiment}
  {labels : List (Nat × DcqcnEvent)}

theorem drawn_flows {requests : List FlowRequest} (few : requests.length < Word32.size)
    (asked : FlowRequest.Few requests) (part : flows.Subperm (Flow.generate .init requests)) :
    FlowRegister.Drawn flows [] := by
  apply FlowRegister.drawn_of_generated few asked
  rw [List.append_nil]
  exact part

structure Reported (g : RdmaSettings) (flows : List Flow) (e : Experiment) : Prop where
  reports : ∃ calls, Run (FlowRegister.Step false) (.assign flows []) calls e.register ∧
    ∀ f ∈ flows,
      (f.flowId ∈ FinishCall.reported .sender calls ↔ 0 < (e.senders f.flowId).completions)
  shows : ∀ f ∈ flows, Shows g (e.senders f.flowId)

theorem Begins.reported (begins : Begins g flows e) (sized : ∀ f ∈ flows, 0 < f.size) :
    Reported g flows e := by
  refine ⟨⟨[], begins.register ▸ .nil, ?_⟩, ?_⟩
  · intro f member
    obtain ⟨sport, same⟩ := begins.senders f member
    rw [same]
    exact ⟨fun none => absurd none (Finset.notMem_empty _),
      fun some => absurd some (Nat.lt_irrefl 0)⟩
  · intro f member
    obtain ⟨sport, same⟩ := begins.senders f member
    rw [same]
    exact .create f.size f.flowId sport (sized f member)

theorem update_senders (property : Flow → DcqcnFlow → Prop) {f : Flow} {next : DcqcnFlow}
    (here : ∀ k ∈ flows, k.flowId = f.flowId → property k next)
    (other : ∀ k ∈ flows, property k (e.senders k.flowId)) :
    ∀ k ∈ flows, property k (Function.update e.senders f.flowId next k.flowId) := by
  intro k member
  by_cases same : k.flowId = f.flowId
  · rw [same, Function.update_self]
    exact here k member same
  · rw [Function.update_of_ne same]
    exact other k member

theorem Reported.step (single : g.qpMode = false) (acks : g.ackInterval ≠ 0)
    (reported : Reported g flows e) {label : Nat × DcqcnEvent} {next : Experiment}
    (step : Step g d flows e label next) : Reported g flows next := by
  obtain ⟨⟨calls, served, agree⟩, shows⟩ := reported
  cases step with
  | runs member moves same =>
      rename_i f event after
      refine ⟨⟨calls, served, ?_⟩, ?_⟩
      · apply update_senders
          (fun k s => k.flowId ∈ FinishCall.reported .sender calls ↔ 0 < s.completions) _ agree
        intro k inside alike
        rw [agree k inside, alike, same]
      · exact update_senders (fun _ => Shows g)
          (fun _ _ _ => ((shows f member).step single acks moves).1) shows
  | completes member moves more call =>
      rename_i f event after register
      have answers : FlowRegister.Step false e.register (.sent after.now f.flowId) register := call
      refine ⟨⟨calls ++ [.sent after.now f.flowId], served.snoc answers, ?_⟩, ?_⟩
      · have sender : FinishCall.reported .sender (calls ++ [.sent after.now f.flowId]) =
            insert f.flowId (FinishCall.reported .sender calls) := FinishCall.reported_same rfl
        rw [sender]
        intro k inside
        by_cases same : k.flowId = f.flowId
        · rw [same]
          simp only [Function.update_self, more]
          exact ⟨fun _ => Nat.succ_pos _, fun _ => Finset.mem_insert_self ..⟩
        · simp only [Function.update_of_ne same, Finset.mem_insert, same, false_or]
          exact agree k inside
      · exact update_senders (fun _ => Shows g)
          (fun _ _ _ => ((shows f member).step single acks moves).1) shows

theorem Reported.run (single : g.qpMode = false) (acks : g.ackInterval ≠ 0)
    (begins : Begins g flows start) (sized : ∀ f ∈ flows, 0 < f.size)
    (run : Run (Step g d flows) start labels e) : Reported g flows e := by
  apply run.invariant (Reported g flows) (begins.reported sized)
  exact fun _ _ _ reported step => reported.step single acks step

/-- The register never holds a sender up. -/
theorem Reported.moves (single : g.qpMode = false) (acks : g.ackInterval ≠ 0)
    (drawn : FlowRegister.Drawn flows []) (reported : Reported g flows e) {f : Flow}
    (member : f ∈ flows) {event : DcqcnEvent} {next : DcqcnFlow}
    (moves : DcqcnFlow.Step g d (e.senders f.flowId) event next) :
    ∃ after, Step g d flows e (f.flowId, event) after ∧
      after.senders = Function.update e.senders f.flowId next := by
  obtain ⟨⟨calls, served, -⟩, shows⟩ := reported
  cases ((shows f member).step single acks moves).2 with
  | inl same => exact ⟨_, .runs member moves same, rfl⟩
  | inr more =>
      have inside : f.flowId ∈ FlowRegister.all flows [] := by
        rw [FlowRegister.all_eq]
        exact Finset.mem_union_left _ (FlowRegister.mem_ids.mpr ⟨f, member, rfl⟩)
      obtain ⟨register, call, -⟩ :=
        (FlowRegister.Accounts.run drawn served).sent drawn.few inside next.now
      exact ⟨_, .completes member moves more call, rfl⟩

/-- So every run of one sender is a run of the experiment. -/
theorem Reported.lifts (single : g.qpMode = false) (acks : g.ackInterval ≠ 0)
    (drawn : FlowRegister.Drawn flows []) (reported : Reported g flows start) {f : Flow}
    (member : f ∈ flows) {events : List DcqcnEvent} {next : DcqcnFlow}
    (run : Run (DcqcnFlow.Step g d) (start.senders f.flowId) events next) :
    ∃ after, Run (Step g d flows) start (events.map fun event => (f.flowId, event)) after ∧
      Reported g flows after ∧ after.senders = Function.update start.senders f.flowId next := by
  induction run with
  | nil => exact ⟨start, .nil, reported, (Function.update_eq_self ..).symm⟩
  | snoc earlier last ih =>
      obtain ⟨middle, before, good, same⟩ := ih
      have here := congrFun same f.flowId
      rw [Function.update_self] at here
      rw [← here] at last
      obtain ⟨after, step, senders⟩ := good.moves single acks drawn member last
      refine ⟨after, ?_, good.step single acks step, ?_⟩
      · rw [List.map_append]
        exact before.snoc step
      · rw [senders, same, Function.update_idem]

/-- The simulation is stopped exactly when all flows are finished, also where flows complete
again. -/
theorem stopped_iff_finished {requests : List FlowRequest} (few : requests.length < Word32.size)
    (asked : FlowRequest.Few requests) (part : flows.Subperm (Flow.generate .init requests))
    (some : flows ≠ []) (sized : ∀ f ∈ flows, 0 < f.size) (single : g.qpMode = false)
    (acks : g.ackInterval ≠ 0) (begins : Begins g flows start)
    (run : Run (Step g d flows) start labels e) :
    e.register.stops =
      if ∀ f ∈ flows, (e.senders f.flowId).qp.isFinished g = true then 1 else 0 := by
  obtain ⟨⟨calls, served, agree⟩, shows⟩ := Reported.run single acks begins sized run
  have drawn := drawn_flows few asked part
  have same : (∀ f ∈ flows, f.flowId ∈ FinishCall.reported .sender calls) ↔
      ∀ f ∈ flows, (e.senders f.flowId).qp.isFinished g = true :=
    forall₂_congr fun f member => (agree f member).trans (shows f member).symm
  rw [(FlowRegister.Accounts.run drawn served).stops_iff drawn (.inr rfl) some]
  simp only [same]

end Runs

section Example

def oneRequest : List FlowRequest := [.single 0 1 1000]

def oneSender : Experiment :=
  ⟨.assign (Flow.generate .init oneRequest) [],
    fun _ => DcqcnFlow.create RdmaFlow.singlePath 1000 0 0⟩

theorem oneSender_begins :
    Begins RdmaFlow.singlePath (Flow.generate .init oneRequest) oneSender := by
  refine ⟨rfl, fun f member => ⟨0, ?_⟩⟩
  rw [List.mem_singleton.mp member]
  rfl

theorem stopped_iff_finished_again : ∃ labels e,
    Run (Step RdmaFlow.singlePath DcqcnFlow.dcqcn (Flow.generate .init oneRequest)) oneSender
      labels e ∧ (e.senders 0).completions = 2 ∧ e.register.stops = 1 := by
  have sized : ∀ f ∈ Flow.generate .init oneRequest, 0 < f.size := by decide
  have few : oneRequest.length < Word32.size := by decide
  have asked : FlowRequest.Few oneRequest := by decide
  have member : (Flow.create .init 0 1 1000).1 ∈ Flow.generate .init oneRequest :=
    List.mem_singleton.mpr rfl
  obtain ⟨s, once, -, sent, next, again, twice⟩ := DcqcnFlow.one_packet_run
  obtain ⟨e, run, reported, senders⟩ := (oneSender_begins.reported sized).lifts rfl (by decide)
    (drawn_flows few asked (.refl _)) member (once.snoc (.ack sent again))
  have here : e.senders 0 = next := by
    rw [senders]
    exact Function.update_self ..
  have done : ∀ f ∈ Flow.generate .init oneRequest,
      (e.senders f.flowId).qp.isFinished RdmaFlow.singlePath = true := by
    intro f inside
    have first : f.flowId = 0 := by
      rw [List.mem_singleton.mp inside]
      rfl
    have shows := reported.shows f inside
    rw [first, here] at shows ⊢
    exact shows.mpr (by omega)
  refine ⟨_, e, run, by rw [here, twice], ?_⟩
  rw [stopped_iff_finished few asked (.refl _) (List.cons_ne_nil _ _) sized rfl (by decide)
    oneSender_begins run, if_pos done]

end Example

end Experiment

end Floodgate
