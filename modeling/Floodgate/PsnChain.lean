import Floodgate.Mesh
import Floodgate.NodeRuns
import Floodgate.PsnBooks

/-! Absolute PSNs across the links of a network: from what a switch has sent over what its
downstream has received and passed on to what has been acknowledged, whatever is lost or overtaken. -/

namespace Floodgate

open Std Outcome LabelledRun SwitchNode

def MeshConfig.Numbering (c : MeshConfig) : Prop := ∀ n, (c.node n).Numbering

def NodeEvent.Examines (c : SwitchNodeConfig) (s : SwitchNode) (event : NodeEvent)
    (dst size : Nat) : Prop :=
  match event with
  | .receive inDev outDev p => Examined c s inDev outDev p dst size
  | .release voq => s.ExaminedHead voq dst size
  | _ => False

namespace SwitchNode

theorem PsnBooks.worked {c : SwitchNodeConfig} {toSwitch : Nat → Prop} {s : SwitchNode}
    (mode : c.Numbering) (books : PsnBooks c toSwitch s) (route : Nat → Nat) (event : NodeEvent)
    (internal : event.Internal) :
    Holds OtherFailure
      (fun sent => Moves c toSwitch s (event.Examines c s) sent.2 ∧
        sent.2.downstream.rcvDataPsn = s.downstream.rcvDataPsn ∧
        ∀ dev, event = .transmit dev → ∀ p, sent.1 = some p → Departs c toSwitch sent.2 dev p)
      (s.handle c route event) := by
  cases event with
  | receive => exact internal.elim
  | goOn => exact internal.elim
  | release voq =>
      apply (books.released mode voq).bind
      rintro after _ ⟨moves, same⟩
      exact ⟨moves, by rw [same], fun _ other => by contradiction⟩
  | transmit ifIndex =>
      apply (books.transmitted mode route ifIndex).mono
      rintro sent _ ⟨moves, same, departs⟩
      refine ⟨moves, same, fun dev here p out => ?_⟩
      obtain rfl := NodeEvent.transmit.inj here
      exact departs p out
  | creditTimeout dev dst =>
      apply (books.fired mode route dev dst).bind
      rintro after _ ⟨moves, same⟩
      exact ⟨moves, same, fun _ other => by contradiction⟩
  | synTimeout dev recent =>
      obtain ⟨moves, same⟩ := books.probes mode (synTimeout_probes c route s dev recent)
      exact ⟨moves, by rw [same], fun _ other => by contradiction⟩

end SwitchNode

namespace Mesh

/-- The books of all switches, and of every link what its frames tell. -/
structure Chained (c : MeshConfig) (w : Mesh) : Prop where
  books : ∀ n, PsnBooks (c.node n) (c.ToSwitch n) (w.node n)
  received : ∀ up down, c.peer up = some down → ∀ dst,
    (w.node down.1).downstream.rcvDataPsn down.2 dst ≤
      (w.node up.1).upstream.nxtDataPsn up.2 dst
  frames : ∀ up down, c.peer up = some down → ∀ p ∈ w.wire down,
    Vouched c.settings (w.node up.1) up.2 p ∧ p.Clean

section Chain

variable {c : MeshConfig} {w after : Mesh}

theorem Chained.init (c : MeshConfig) : Chained c (Mesh.init c) :=
  ⟨fun n => PsnBooks.init (c.node n) _, fun _ _ _ _ => Nat.le_refl 0,
    fun _ _ _ _ member => absurd member List.not_mem_nil⟩

theorem Chained.replaced (chained : Chained c w) {n : Nat} {s : SwitchNode}
    {examined : Nat → Nat → Prop}
    (moves : SwitchNode.Moves (c.node n) (c.ToSwitch n) (w.node n) examined s)
    (received : ∀ up dev, c.peer up = some (n, dev) → ∀ dst,
      s.downstream.rcvDataPsn dev dst ≤ (w.node up.1).upstream.nxtDataPsn up.2 dst) :
    Chained c (w.setNode n s) := by
  have advances : ∀ m, Advances (w.node m) ((w.setNode n s).node m) := by
    intro m
    by_cases same : m = n
    · subst same
      rw [setNode_self]
      exact moves.advances
    · rw [setNode_other same]
      exact Advances.refl _
  refine ⟨fun m => ?_, fun up down link dst => ?_, fun up down link p member => ?_⟩
  · by_cases same : m = n
    · subst same
      rw [setNode_self]
      exact moves.books
    · rw [setNode_other same]
      exact chained.books m
  · refine Nat.le_trans ?_ ((advances up.1).sent up.2 dst)
    by_cases same : down.1 = n
    · rw [same, setNode_self]
      exact received up down.2 (same ▸ link) dst
    · rw [setNode_other same]
      exact chained.received up down link dst
  · obtain ⟨vouched, clean⟩ := chained.frames up down link p member
    exact ⟨vouched.advance (advances up.1), clean⟩

theorem Chained.taken (chained : Chained c w) (port : Nat × Nat) (k : Nat) :
    Chained c (w.take port k) :=
  ⟨chained.books, chained.received,
    fun up down link p member => chained.frames up down link p (take_member member)⟩

theorem Chained.put (chained : Chained c w) {n dev : Nat} {out : Option Packet}
    (departs : ∀ p, out = some p → Departs (c.node n) (c.ToSwitch n) (w.node n) dev p) :
    Chained c (w.put c n dev out) := by
  refine ⟨fun m => ?_, fun up down link dst => ?_, fun up down link p member => ?_⟩
  · rw [put_node]
    exact chained.books m
  · rw [put_node]
    exact chained.received up down link dst
  · rw [put_node]
    rcases put_member member with before | ⟨peer, here⟩
    · exact chained.frames up down link p before
    · have same : up = (n, dev) := c.peer_unique link peer
      subst same
      have leaves := departs p here
      refine ⟨?_, leaves.clean (by simp [MeshConfig.ToSwitch, link])⟩
      have vouched := leaves.vouched
      rwa [c.shared] at vouched

/-- One event: the chain holds, and the windows of every switch turn as its checks allow. -/
structure Continues (c : MeshConfig) (w : Mesh) (examines : Nat → Nat → Nat → Prop)
    (after : Mesh) : Prop where
  chained : Chained c after
  turns : ∀ n, Upstream.Turns (c.node n).upstream (w.node n).upstream (examines n)
    (after.node n).upstream

/-- The switch `n` has worked. -/
theorem Chained.continues (chained : Chained c w) {n : Nat} {s : SwitchNode}
    {examined : Nat → Nat → Prop}
    (moves : SwitchNode.Moves (c.node n) (c.ToSwitch n) (w.node n) examined s)
    (received : ∀ up dev, c.peer up = some (n, dev) → ∀ dst,
      s.downstream.rcvDataPsn dev dst ≤ (w.node up.1).upstream.nxtDataPsn up.2 dst)
    {examines : Nat → Nat → Nat → Prop}
    (included : ∀ dst size, examined dst size → examines n dst size) :
    Continues c w examines (w.setNode n s) := by
  refine ⟨chained.replaced moves received, fun m => ?_⟩
  by_cases same : m = n
  · subst same
    rw [setNode_self]
    exact moves.turns.mono included
  · rw [setNode_other same]
    exact .still rfl rfl fun _ => .inl rfl

theorem Chained.same_received (chained : Chained c w) {n : Nat} {s : SwitchNode}
    (same : s.downstream.rcvDataPsn = (w.node n).downstream.rcvDataPsn) (up : Nat × Nat) (dev : Nat)
    (link : c.peer up = some (n, dev)) (dst : Nat) :
    s.downstream.rcvDataPsn dev dst ≤ (w.node up.1).upstream.nxtDataPsn up.2 dst := by
  rw [same]
  exact chained.received up (n, dev) link dst

def Examines (c : MeshConfig) (w : Mesh) (event : MeshEvent) (n dst size : Nat) : Prop :=
  match event with
  | .host m inDev outDev p => m = n ∧ Examined (c.node m) (w.node m) inDev outDev p dst size
  | .deliver m inDev k outDev =>
      m = n ∧ ∃ p, (w.wire (m, inDev))[k]? = some p ∧
        Examined (c.node m) (w.node m) inDev outDev p dst size
  | .lose _ _ _ => False
  | .act m work _ => m = n ∧ work.Examines (c.node m) (w.node m) dst size

theorem Chained.acted (mode : c.Numbering) (chained : Chained c w) (route : Nat → Nat → Nat)
    (n : Nat) (event : NodeEvent) (internal : event.Internal) :
    Holds OtherFailure (Continues c w (w.Examines c (.act n event internal)))
      (w.react c route n event) := by
  unfold react
  apply ((chained.books n).worked (mode n) (route n) event internal).bind
  rintro ⟨out, s⟩ _ ⟨moves, same, departs⟩
  have continues : Continues c w (w.Examines c (.act n event internal)) (w.setNode n s) :=
    chained.continues moves (chained.same_received same) fun _ _ looks => ⟨rfl, looks⟩
  cases event with
  | transmit ifIndex =>
      refine ⟨continues.chained.put fun p here => ?_, fun m => ?_⟩
      · rw [setNode_self]
        exact departs ifIndex rfl p here
      · rw [put_node]
        exact continues.turns m
  | receive => exact internal.elim
  | goOn => exact internal.elim
  | release => exact continues
  | creditTimeout => exact continues
  | synTimeout => exact continues

theorem Chained.arrived (mode : c.Numbering) (chained : Chained c w) (route : Nat → Nat → Nat)
    {n inDev : Nat} {outDev : Option Nat} {p : Packet}
    (sound : Sound (c.node n) (c.ToSwitch n) (w.node n) inDev outDev p)
    (sent : ∀ up, c.peer up = some (n, inDev) → ∀ dst,
      p.announced dst ≤ (w.node up.1).upstream.nxtDataPsn up.2 dst) :
    Holds OtherFailure (Continues c w fun m dst size =>
      n = m ∧ Examined (c.node n) (w.node n) inDev outDev p dst size)
      (w.react c route n (.receive inDev outDev p)) := by
  have works : Holds OtherFailure
      (fun sent => SwitchNode.Moves (c.node n) (c.ToSwitch n) (w.node n)
          (Examined (c.node n) (w.node n) inDev outDev p) sent.2 ∧
        Hears (w.node n) inDev p sent.2)
      ((w.node n).handle (c.node n) (route n) (.receive inDev outDev p)) := by
    apply ((chained.books n).received (mode n) (route n) sound).bind
    intro after _ both
    exact both
  unfold react
  apply works.bind
  rintro ⟨out, s⟩ _ ⟨moves, hears⟩
  refine chained.continues moves (fun up dev link dst => ?_) fun _ _ looks => ⟨rfl, looks⟩
  have heard := hears dev dst
  have before := chained.received up (n, dev) link dst
  by_cases here : dev = inDev
  · subst here
    have new := sent up link dst
    rw [if_pos rfl] at heard
    exact heard.trans (Nat.max_le.mpr ⟨before, new⟩)
  · rw [if_neg here, Nat.max_zero] at heard
    exact heard.trans before

theorem quiet_host {g : Settings} {p : Packet} (plain : p.FromHost) (dst : Nat) :
    p.announced dst = 0 ∧ p.acked g dst = 0 := by
  refine ⟨?_, Packet.acked_untagged plain.ackTag dst⟩
  cases data : p.isUdp with
  | true => exact Packet.announced_data data plain.psn dst
  | false => exact Packet.announced_control data plain.synTag dst

theorem Chained.acked (chained : Chained c w) {up down : Nat × Nat} (link : c.peer up = some down)
    {p : Packet} (member : p ∈ w.wire down) (dst : Nat) :
    p.acked c.settings dst ≤ (w.node down.1).upstream.nxtDataPsn down.2 dst := by
  obtain ⟨vouched, -⟩ := chained.frames up down link p member
  calc
    p.acked c.settings dst ≤ (w.node up.1).downstream.nxtAckPsn up.2 dst := vouched.acked dst
    _ ≤ (w.node up.1).downstream.rcvDataPsn up.2 dst := (chained.books up.1).next up.2 dst
    _ ≤ (w.node down.1).upstream.nxtDataPsn down.2 dst :=
        chained.received down up (c.symmetric _ _ link) dst

/-- No event fails an assertion on the order of PSNs, and each keeps the chain. -/
theorem Chained.handled (mode : c.Numbering) (chained : Chained c w) (route : Nat → Nat → Nat)
    (event : MeshEvent) (valid : event.Valid c w) :
    Holds OtherFailure (Continues c w (w.Examines c event)) (w.handle c route event) := by
  cases event with
  | host n inDev outDev p =>
      obtain ⟨port, plain, below⟩ := valid
      apply chained.arrived mode route
      · refine ⟨⟨fun _ => plain.ingressPsn, fun tag tagged => ?_⟩, fun dst => ?_, below⟩
        · rw [plain.ackTag] at tagged
          contradiction
        · rw [(quiet_host plain dst).2]
          exact Nat.zero_le _
      · intro up link
        rw [c.symmetric _ _ link] at port
        contradiction
  | deliver n inDev k outDev =>
      obtain ⟨port, below⟩ := valid
      cases found : (w.wire (n, inDev))[k]? with
      | none =>
          simp only [handle, found]
          exact ⟨chained, fun _ => .still rfl rfl fun _ => .inl rfl⟩
      | some p =>
          simp only [handle, found]
          obtain ⟨up, peer⟩ := Option.isSome_iff_exists.mp port
          have link := c.symmetric _ _ peer
          have member : p ∈ w.wire (n, inDev) := List.mem_of_getElem? found
          obtain ⟨vouched, clean⟩ := chained.frames up (n, inDev) link p member
          have acked := chained.acked link member
          apply ((chained.taken (n, inDev) k).arrived mode route ?_ ?_).mono
          · rintro after _ ⟨kept, turns⟩
            exact ⟨kept, fun m => (turns m).mono fun dst size looks => ⟨looks.1, p, found, looks.2⟩⟩
          · refine ⟨clean, fun dst => ?_, below p found⟩
            rw [c.shared]
            exact acked dst
          · intro other other_link dst
            have same : other = up := c.peer_unique other_link link
            subst same
            exact vouched.announced dst
  | lose n inDev k =>
      exact ⟨chained.taken (n, inDev) k, fun _ => .still rfl rfl fun _ => .inl rfl⟩
  | act n event internal => exact chained.acted mode route n event internal

/-- The window checks that decide in one event do not wrap. -/
def Unwrapped (c : MeshConfig) (w : Mesh) (event : MeshEvent) : Prop :=
  ∀ n dst size, w.Examines c event n dst size →
    (w.node n).upstream.inflightBytes dst + size < Word32.size

theorem Continues.windowed {event : MeshEvent}
    (continues : Continues c w (w.Examines c event) after)
    (windowed : ∀ n, (w.node n).upstream.Windowed) (unwrapped : w.Unwrapped c event) (n : Nat) :
    (after.node n).upstream.Windowed := by
  apply (continues.turns n).windowed (windowed n)
  intro dst size looks
  have small := (windowed n).small dst
  have within := (windowed n).within dst
  have exact := Upstream.inflightBytes_outstanding (w.node n).upstream dst
  rw [Word32.trunc_eq _ (Nat.lt_of_le_of_lt within small)] at exact
  rw [← exact]
  exact unwrapped n dst size looks

theorem Step.continues (mode : c.Numbering) (chained : Chained c w) {event : MeshEvent}
    (step : Step c w event after) : Continues c w (w.Examines c event) after := by
  obtain ⟨valid, route, success⟩ := step
  exact (chained.handled mode route event valid).of_ok success

theorem Chained.run (mode : c.Numbering) {labels : List MeshEvent}
    (run : Run (Step c) (Mesh.init c) labels w) : Chained c w :=
  run.invariant (Chained c) (Chained.init c) fun _ _ _ chained step =>
    (step.continues mode chained).chained

end Chain

/-- On every link what has been acknowledged, passed on, received and sent is in this order. -/
structure PsnsOrdered (c : MeshConfig) (w : Mesh) : Prop where
  acked : ∀ n dev dst,
    (w.node n).upstream.rcvAckPsn dev dst ≤ (w.node n).upstream.nxtDataPsn dev dst
  last : ∀ n dev dst,
    (w.node n).downstream.lstAckPsn dev dst ≤ (w.node n).downstream.nxtAckPsn dev dst
  passed : ∀ n dev dst,
    (w.node n).downstream.nxtAckPsn dev dst ≤ (w.node n).downstream.rcvDataPsn dev dst
  received : ∀ up down, c.peer up = some down → ∀ dst,
    (w.node down.1).downstream.rcvDataPsn down.2 dst ≤ (w.node up.1).upstream.nxtDataPsn up.2 dst

/-- `GetInflightBytes` is within the window of every destination. -/
def WithinWindows (w : Mesh) : Prop :=
  ∀ n dst, ∃ inflight, (w.node n).upstream.getInflightBytes dst = .ok inflight ∧
    inflight ≤ (w.node n).upstream.win dst

theorem Chained.ordered {c : MeshConfig} {w : Mesh} (chained : Chained c w) :
    PsnsOrdered c w :=
  ⟨fun n => (chained.books n).acks, fun n => (chained.books n).last,
    fun n => (chained.books n).next, chained.received⟩

theorem Chained.withinWindows {c : MeshConfig} {w : Mesh} (chained : Chained c w)
    (windowed : ∀ n, (w.node n).upstream.Windowed) : WithinWindows w := by
  intro n dst
  have ordered : (w.node n).upstream.inflightOrdered dst = true :=
    (Upstream.inflightOrdered_iff _ dst).mpr fun i _ => (chained.books n).acks i dst
  refine ⟨(w.node n).upstream.inflightBytes dst, ?_, (windowed n).inflightBytes_le dst⟩
  rw [Upstream.getInflightBytes, if_pos ordered]

/-- Whatever is lost, delayed or overtaken, the PSNs of every link stay in order and the assertions
on their order never fail; and where no window check exceeds 32 bits, what is in flight stays within
the windows. -/
theorem psn_chain_safe (c : MeshConfig) (mode : c.Numbering)
    (entries : List (Mesh × MeshEvent)) (w : Mesh)
    (run : Run (Traced (Step c)) (init c) entries w) :
    ((∀ entry ∈ entries, PsnsOrdered c entry.1) ∧ PsnsOrdered c w) ∧
    (∀ event route failure, event.Valid c w → w.handle c route event = .error failure →
      failure ≠ .inflightOrdered ∧ failure ≠ .ackOrdered) ∧
    ((∀ entry ∈ entries, entry.1.Unwrapped c entry.2) →
      (∀ entry ∈ entries, WithinWindows entry.1) ∧ WithinWindows w) := by
  have chain := run.holds_along (Chained c) (fun _ _ => True) (Chained.init c)
    (fun _ _ _ chained _ step => (step.continues mode chained).chained) fun _ _ => trivial
  refine ⟨⟨fun entry member => (chain.1 entry member).ordered, chain.2.ordered⟩,
    fun event route failure valid failed =>
      (chain.2.handled mode route event valid).of_error failed, fun unwrapped => ?_⟩
  have windows := run.holds_along (fun w => Chained c w ∧ ∀ n, (w.node n).upstream.Windowed)
    (Unwrapped c) ⟨Chained.init c, fun n => Upstream.Windowed.init (c.node n).upstream⟩
    (fun _ _ _ both fits step => ⟨(step.continues mode both.1).chained,
      (step.continues mode both.1).windowed both.2 fits⟩) unwrapped
  exact ⟨fun entry member => (windows.1 entry member).1.withinWindows (windows.1 entry member).2,
    windows.2.1.withinWindows windows.2.2⟩

end Mesh

/-- A ToR and a second switch with two links between them. Host 1 is below the second switch, and
the window of host 1 is 50 bytes short of 4 GiB. -/
def wideUpstream : UpstreamConfig :=
  { narrow .switchDstCredit unlimited 4294967246 (by decide) with
    settings :=
      { (narrow .switchDstCredit unlimited 4294967246 (by decide)).settings with
        switchAbsolutePsn := true } }

def wideSwitch (isToR : Bool) : SwitchNodeConfig :=
  { smallSwitch wideUpstream true with
    admission :=
      { (smallSwitch wideUpstream true).admission with headroom := fun _ => 4294967295 }
    device := fun _ => ⟨4294967295, true, true, 5⟩
    isToR := isToR }

def twoLinks (port : Nat × Nat) : Option (Nat × Nat) :=
  if port = (0, 1) then some (1, 1)
  else if port = (1, 1) then some (0, 1)
  else if port = (0, 2) then some (1, 2)
  else if port = (1, 2) then some (0, 2)
  else none

theorem twoLinks_symmetric (port other : Nat × Nat) (link : twoLinks port = some other) :
    twoLinks other = some port := by
  have cases : port = (0, 1) ∧ other = (1, 1) ∨ port = (1, 1) ∧ other = (0, 1) ∨
      port = (0, 2) ∧ other = (1, 2) ∨ port = (1, 2) ∧ other = (0, 2) := by
    unfold twoLinks at link
    grind
  rcases cases with ⟨rfl, rfl⟩ | ⟨rfl, rfl⟩ | ⟨rfl, rfl⟩ | ⟨rfl, rfl⟩ <;> decide

def wideMesh : MeshConfig where
  settings := wideUpstream.settings
  node := fun n => wideSwitch (decide (n = 0))
  peer := twoLinks
  shared := fun _ => rfl
  symmetric := twoLinks_symmetric

def dataOf (size : Nat) (pos : 0 < size) (lt : size < Word32.size) : Packet :=
  { kiloPacket with
    size := size
    size_pos := pos
    size_lt := lt }

namespace Mesh

theorem wideMesh_numbering : wideMesh.Numbering := by
  intro n
  have mode : (wideMesh.node n).settings.switchAckMode = .switchDstCredit := rfl
  refine ⟨rfl, rfl, rfl, ?_⟩
  rw [mode]
  decide

theorem wideMesh_local (n : Nat) (outDev : Option Nat) (p : Packet) (target : p.dip = 1) :
    wideMesh.Local n outDev p := by
  intro dev _ _ _ _ _ ignored
  have group : (wideMesh.node n).upstream.dst2group 1 = .group 0 := rfl
  rw [target, group] at ignored
  contradiction

theorem kilo_fromHost (size : Nat) (pos : 0 < size) (lt : size < Word32.size) :
    (dataOf size pos lt).FromHost := ⟨rfl, rfl, rfl, rfl⟩

/-- Three packets for host 1 over both links leave 10 bytes of its window. A fourth of 100 bytes
brings the sum of the check past 32 bits and passes; then the first is acknowledged. -/
def wideRun : List MeshEvent :=
  [.host 0 0 (some 1) (dataOf 50 (by decide) (by decide)),
   .act 0 (.transmit 1) trivial,
   .host 0 0 (some 1) (dataOf 2147483648 (by decide) (by decide)),
   .act 0 (.transmit 1) trivial,
   .host 0 0 (some 2) (dataOf 2147483538 (by decide) (by decide)),
   .act 0 (.transmit 2) trivial,
   .host 0 0 (some 1) (dataOf 100 (by decide) (by decide)),
   .deliver 1 1 0 (some 3),
   .act 1 (.transmit 3) trivial,
   .act 1 (.transmit 1) trivial,
   .deliver 0 1 0 none]

/-- What the two switches have numbered fits 32 bits, and the first has more in flight to host 1
than its window. -/
def Exceeds (w : Mesh) : Prop :=
  (w.node 0).upstream.win 1 < (w.node 0).upstream.inflightBytes 1 ∧
    ∀ n < 2, ∀ dev < switchScale, ∀ dst < wideMesh.settings.hostNum,
      (w.node n).upstream.nxtDataPsn dev dst < Word32.size

instance : DecidablePred Exceeds := fun _ => inferInstanceAs (Decidable (_ ∧ _))

set_option maxRecDepth 20000 in
theorem wideRun_exceeds : ends wideMesh wideRun (fun w => decide (Exceeds w)) = true := by
  decide +kernel

theorem dataOf_host {inDev : Nat} (outDev : Option Nat) (n size : Nat) (pos : 0 < size)
    (lt : size < Word32.size) (port : twoLinks (n, inDev) = none) (w : Mesh) :
    (MeshEvent.host n inDev outDev (dataOf size pos lt)).Valid wideMesh w :=
  ⟨port, kilo_fromHost size pos lt, wideMesh_local n outDev _ rfl⟩

theorem wideRun_valid : ∀ event ∈ wideRun, ∀ w, event.Valid wideMesh w := by
  intro event member w
  simp only [wideRun, List.mem_cons, List.not_mem_nil, or_false] at member
  rcases member with rfl | rfl | rfl | rfl | rfl | rfl | rfl | rfl | rfl | rfl | rfl
  · exact dataOf_host _ _ _ _ _ rfl w
  · trivial
  · exact dataOf_host _ _ _ _ _ rfl w
  · trivial
  · exact dataOf_host _ _ _ _ _ rfl w
  · trivial
  · exact dataOf_host _ _ _ _ _ rfl w
  · exact MeshEvent.deliver_valid _ rfl fun dev same => Option.some.inj same ▸ rfl
  · trivial
  · trivial
  · exact ⟨rfl, fun p _ dev toNone => by contradiction⟩

theorem windows_exceeded : ¬ ∀ (c : MeshConfig), c.Numbering → ∀ labels w,
    Run (Step c) (init c) labels w →
    (∀ n, ∀ dev < switchScale, ∀ dst < c.settings.hostNum,
      (w.node n).upstream.nxtDataPsn dev dst < Word32.size) →
    PsnsOrdered c w ∧ WithinWindows w := by
  intro claim
  obtain ⟨w, run, exceeds⟩ := ends_run wideRun_valid wideRun_exceeds
  obtain ⟨more, fits⟩ := of_decide_eq_true exceeds
  have places : ∀ event ∈ wideRun, event.place < 2 := by decide
  obtain ⟨-, within⟩ := claim wideMesh wideMesh_numbering wideRun w run (fun n => by
    by_cases early : n < 2
    · exact fits n early
    · have away : ∀ event ∈ wideRun, event.place ≠ n := fun event member same =>
        early (same ▸ places event member)
      rw [run_other run away]
      intro dev _ dst _
      exact Nat.zero_lt_succ _)
  obtain ⟨inflight, succeeds, small⟩ := within 0 1
  rw [Upstream.getInflightBytes] at succeeds
  split at succeeds
  · have same : _ = inflight := Except.ok.inj succeeds
    rw [← same] at small
    exact Nat.not_lt.mpr small more
  · contradiction

def firstData : MeshEvent := .host 0 0 (some 1) (dataOf 50 (by decide) (by decide))

def allows : MeshEvent → Bool
  | .host n inDev _ p => (twoLinks (n, inDev)).isNone && p.psn.isNone && p.ingressPsn.isNone &&
      p.ackTag.isNone && p.synTag.isNone && decide (p.dip = 1)
  | .deliver n inDev _ outDev =>
      (twoLinks (n, inDev)).isSome && outDev.all fun dev => (twoLinks (n, dev)).isNone
  | .lose _ _ _ | .act _ _ _ => true

def performs (w : Mesh) (event : MeshEvent) : Bool :=
  allows event && (w.handle wideMesh (fun _ => id) event).isOk

def weighs (w : Mesh) : MeshEvent → Bool
  | .host n _ _ p => decide ((w.node n).upstream.inflightBytes p.dip + p.size < Word32.size)
  | .deliver n inDev k _ => ((w.wire (n, inDev))[k]?).all fun p =>
      decide ((w.node n).upstream.inflightBytes p.dip + p.size < Word32.size)
  | .act _ (.release _) _ => false
  | .lose _ _ _ | .act _ _ _ => true

theorem allows_valid {event : MeshEvent} (allowed : allows event = true) (w : Mesh) :
    event.Valid wideMesh w := by
  cases event with
  | host n inDev outDev p =>
      simp only [allows, Bool.and_eq_true, Option.isNone_iff_eq_none, decide_eq_true_eq] at allowed
      obtain ⟨⟨⟨⟨⟨alone, psn⟩, ingress⟩, ack⟩, syn⟩, target⟩ := allowed
      exact ⟨alone, ⟨psn, ingress, ack, syn⟩, wideMesh_local n outDev p target⟩
  | deliver n inDev k outDev =>
      obtain ⟨linked, out⟩ := Bool.and_eq_true_iff.mp allowed
      refine MeshEvent.deliver_valid k linked fun dev same => ?_
      subst same
      exact Option.isNone_iff_eq_none.mp out
  | lose | act => trivial

theorem performs_step (w : Mesh) (event : MeshEvent) (performed : w.performs event = true) :
    Step wideMesh w event (next wideMesh w event) := by
  obtain ⟨allowed, works⟩ := Bool.and_eq_true_iff.mp performed
  refine ⟨allows_valid allowed w, fun _ => id, ?_⟩
  unfold next
  cases handled : w.handle wideMesh (fun _ => id) event with
  | ok after => rfl
  | error failure =>
      rw [handled] at works
      contradiction

theorem weighs_unwrapped {w : Mesh} {event : MeshEvent} (fits : w.weighs event = true) :
    w.Unwrapped wideMesh event := by
  intro n dst size examined
  cases event with
  | host m inDev outDev p =>
      obtain ⟨rfl, weighed, -⟩ := examined
      rw [weighed.target, weighed.size]
      exact of_decide_eq_true fits
  | deliver m inDev k outDev =>
      obtain ⟨rfl, p, there, weighed, -⟩ := examined
      simp only [weighs, there, Option.all_some, decide_eq_true_eq] at fits
      rw [weighed.target, weighed.size]
      exact fits
  | lose => exact examined.elim
  | act m event internal =>
      cases event with
      | release voq => cases fits
      | receive => exact internal.elim
      | goOn | transmit | creditTimeout | synTimeout => exact examined.2.elim

def passedRun : List MeshEvent :=
  [firstData,
   .act 0 (.transmit 1) trivial,
   .deliver 1 1 0 (some 3),
   .act 1 (.transmit 3) trivial,
   .act 1 (.transmit 1) trivial,
   .deliver 0 1 0 none]

theorem psn_chain_safe_acknowledged :
    Run (Traced (Step wideMesh)) (init wideMesh) (trace (next wideMesh) (init wideMesh) passedRun)
        (passedRun.foldl (next wideMesh) (init wideMesh)) ∧
      PsnsOrdered wideMesh (passedRun.foldl (next wideMesh) (init wideMesh)) ∧
      WithinWindows (passedRun.foldl (next wideMesh) (init wideMesh)) := by
  have evaluated : executes performs (next wideMesh) (init wideMesh) passedRun = true ∧
      executes weighs (next wideMesh) (init wideMesh) passedRun = true := by
    decide +kernel
  obtain ⟨works, fits⟩ := evaluated
  have run := Run.executed_traced performs_step passedRun works
  obtain ⟨ordered, -, windows⟩ := psn_chain_safe wideMesh wideMesh_numbering _ _ run
  refine ⟨run, ordered.2, (windows fun entry member => ?_).2⟩
  exact weighs_unwrapped (executes_trace passedRun fits entry member)

end Mesh

end Floodgate
