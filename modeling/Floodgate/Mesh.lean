import Floodgate.SwitchNode

/-! Switches and the links between them. A frame on a link may be delayed, overtaken or lost. -/

namespace Floodgate

open Std Outcome LabelledRun

/-- A port is a switch and a device of it. Ports without a peer lead to hosts. -/
structure MeshConfig where
  settings : Settings
  node : Nat → SwitchNodeConfig
  peer : Nat × Nat → Option (Nat × Nat)
  shared : ∀ n, (node n).settings = settings
  symmetric : ∀ port other, peer port = some other → peer other = some port

theorem MeshConfig.peer_unique (c : MeshConfig) {up other down : Nat × Nat}
    (link : c.peer up = some down) (same : c.peer other = some down) : up = other :=
  Option.some.inj ((c.symmetric _ _ link).symm.trans (c.symmetric _ _ same))

/-- `wire port` holds the frames on their way to `port`, the oldest first. -/
structure Mesh where
  node : Nat → SwitchNode
  wire : Nat × Nat → List Packet

def NodeEvent.Internal : NodeEvent → Prop
  | .receive _ _ _ | .goOn _ _ _ _ => False
  | _ => True

/-- A packet of a host arrives, or the frame at place `k` of a link; such a frame is lost; or a
switch works by itself. -/
inductive MeshEvent where
  | host (n inDev : Nat) (outDev : Option Nat) (p : Packet)
  | deliver (n inDev k : Nat) (outDev : Option Nat)
  | lose (n inDev k : Nat)
  | act (n : Nat) (event : NodeEvent) (internal : event.Internal)

namespace Mesh

def init (c : MeshConfig) : Mesh := ⟨fun n => SwitchNode.init (c.node n), fun _ => []⟩

def setNode (w : Mesh) (n : Nat) (s : SwitchNode) : Mesh :=
  { w with node := fun m => if m = n then s else w.node m }

def setWire (w : Mesh) (port : Nat × Nat) (frames : List Packet) : Mesh :=
  { w with wire := fun other => if other = port then frames else w.wire other }

def take (w : Mesh) (port : Nat × Nat) (k : Nat) : Mesh :=
  w.setWire port ((w.wire port).eraseIdx k)

def put (c : MeshConfig) (w : Mesh) (n dev : Nat) (out : Option Packet) : Mesh :=
  match c.peer (n, dev), out with
  | some port, some p => w.setWire port (w.wire port ++ [p])
  | _, _ => w

def react (c : MeshConfig) (route : Nat → Nat → Nat) (w : Mesh) (n : Nat)
    (event : NodeEvent) : Except Assertion Mesh := do
  let sent ← (w.node n).handle (c.node n) (route n) event
  match event with
  | .transmit ifIndex => .ok ((w.setNode n sent.2).put c n ifIndex sent.1)
  | _ => .ok (w.setNode n sent.2)

/-- One event. `route n` is the device that `GetOutDev` of the switch `n` gives for a rack. -/
def handle (c : MeshConfig) (route : Nat → Nat → Nat) (w : Mesh) :
    MeshEvent → Except Assertion Mesh
  | .host n inDev outDev p => w.react c route n (.receive inDev outDev p)
  | .deliver n inDev k outDev =>
      match (w.wire (n, inDev))[k]? with
      | some p => (w.take (n, inDev) k).react c route n (.receive inDev outDev p)
      | none => .ok w
  | .lose n inDev k => .ok (w.take (n, inDev) k)
  | .act n event _ => w.react c route n event

end Mesh

def MeshEvent.place : MeshEvent → Nat
  | .host n _ _ _ | .deliver n _ _ _ | .lose n _ _ | .act n _ _ => n

/-- What hosts send: data and control frames that carry nothing of Floodgate. -/
structure Packet.FromHost (p : Packet) : Prop where
  psn : p.psn = none
  ingressPsn : p.ingressPsn = none
  ackTag : p.ackTag = none
  synTag : p.synTag = none

def MeshConfig.ToSwitch (c : MeshConfig) (n dev : Nat) : Prop :=
  (c.peer (n, dev)).isSome = true

/-- A ToR sends data from one of its hosts to another of them straight to that host. -/
def MeshConfig.Local (c : MeshConfig) (n : Nat) (outDev : Option Nat) (p : Packet) : Prop :=
  ∀ dev, outDev = some dev → c.ToSwitch n dev → p.isUdp = true → (c.node n).isToR = true →
    (c.node n).upstream.dst2group p.sip = .ignored →
    (c.node n).upstream.dst2group p.dip ≠ .ignored

def MeshEvent.Valid (c : MeshConfig) (w : Mesh) : MeshEvent → Prop
  | .host n inDev outDev p => c.peer (n, inDev) = none ∧ p.FromHost ∧ c.Local n outDev p
  | .deliver n inDev k outDev =>
      (c.peer (n, inDev)).isSome = true ∧
        ∀ p, (w.wire (n, inDev))[k]? = some p → c.Local n outDev p
  | _ => True

theorem MeshEvent.deliver_valid {c : MeshConfig} {w : Mesh} {n inDev : Nat} (k : Nat)
    {outDev : Option Nat} (link : (c.peer (n, inDev)).isSome = true)
    (host : ∀ dev, outDev = some dev → c.peer (n, dev) = none) :
    (MeshEvent.deliver n inDev k outDev).Valid c w := by
  refine ⟨link, fun p _ dev leads toSwitch => ?_⟩
  rw [MeshConfig.ToSwitch, host dev leads] at toSwitch
  contradiction

namespace Mesh

def Step (c : MeshConfig) (w : Mesh) (event : MeshEvent) (after : Mesh) : Prop :=
  event.Valid c w ∧ ∃ route, w.handle c route event = .ok after

def next (c : MeshConfig) (w : Mesh) (event : MeshEvent) : Mesh :=
  match w.handle c (fun _ => id) event with
  | .ok after => after
  | .error _ => w

def execute (c : MeshConfig) (w : Mesh) (events : List MeshEvent) :
    Except Assertion Mesh :=
  events.foldlM (fun w event => w.handle c (fun _ => id) event) w

theorem execute_run {c : MeshConfig} (events : List MeshEvent) {w after : Mesh}
    (valid : ∀ event ∈ events, ∀ w, event.Valid c w) (success : w.execute c events = .ok after) :
    Run (Step c) w events after := by
  induction events generalizing w with
  | nil =>
      obtain rfl := Except.ok.inj success
      exact .nil
  | cons event rest ih =>
      unfold execute at success
      rw [List.foldlM_cons] at success
      obtain ⟨middle, first, success⟩ := bind_ok.mp success
      have step : Step c w event middle := ⟨valid event (by simp) w, _, first⟩
      have later := ih (fun e member => valid e (List.mem_cons_of_mem _ member)) success
      exact (Run.single step).append later

def ends (c : MeshConfig) (events : List MeshEvent) (test : Mesh → Bool) : Bool :=
  match (init c).execute c events with
  | .ok w => test w
  | .error _ => false

theorem ends_run {c : MeshConfig} {events : List MeshEvent} {test : Mesh → Bool}
    (valid : ∀ event ∈ events, ∀ w, event.Valid c w) (passes : ends c events test = true) :
    ∃ w, Run (Step c) (init c) events w ∧ test w = true := by
  unfold ends at passes
  split at passes
  · rename_i w success
    exact ⟨w, execute_run events valid success, passes⟩
  · contradiction

section Wires

variable {w : Mesh} {port other : Nat × Nat} {n m : Nat} {s : SwitchNode}

@[simp] theorem setNode_wire : (w.setNode n s).wire = w.wire := rfl

@[simp] theorem setWire_node (frames : List Packet) : (w.setWire port frames).node = w.node := rfl

@[simp] theorem setNode_self : (w.setNode n s).node n = s := if_pos rfl

theorem setNode_other (different : m ≠ n) : (w.setNode n s).node m = w.node m := if_neg different

@[simp] theorem setWire_self (frames : List Packet) : (w.setWire port frames).wire port = frames :=
  if_pos rfl

theorem setWire_other (frames : List Packet) (different : other ≠ port) :
    (w.setWire port frames).wire other = w.wire other := if_neg different

@[simp] theorem take_node (k : Nat) : (w.take port k).node = w.node := rfl

theorem take_member {k : Nat} {p : Packet} (member : p ∈ (w.take port k).wire other) :
    p ∈ w.wire other := by
  unfold take at member
  by_cases same : other = port
  · subst same
    rw [setWire_self] at member
    exact List.mem_of_mem_eraseIdx member
  · rwa [setWire_other _ same] at member

@[simp] theorem put_node (c : MeshConfig) (dev : Nat) (out : Option Packet) :
    (w.put c n dev out).node = w.node := by
  unfold put
  split <;> rfl

theorem put_member {c : MeshConfig} {dev : Nat} {out : Option Packet} {p : Packet}
    (member : p ∈ (w.put c n dev out).wire other) :
    p ∈ w.wire other ∨ c.peer (n, dev) = some other ∧ out = some p := by
  unfold put at member
  split at member
  · rename_i port frame peer
    by_cases same : other = port
    · subst same
      rw [setWire_self] at member
      rcases List.mem_append.mp member with before | new
      · exact .inl before
      · exact .inr ⟨peer, by rw [List.mem_singleton.mp new]⟩
    · rw [setWire_other _ same] at member
      exact .inl member
  · exact .inl member

end Wires

theorem react_receive {c : MeshConfig} {route : Nat → Nat → Nat} {w after : Mesh} {n inDev : Nat}
    {outDev : Option Nat} {p : Packet}
    (success : w.react c route n (.receive inDev outDev p) = .ok after) :
    ∃ s, (w.node n).receive (c.node n) (route n) inDev outDev p = .ok s ∧ after = w.setNode n s := by
  obtain ⟨sent, working, success⟩ := bind_ok.mp success
  obtain ⟨s, receiving, result⟩ := bind_ok.mp working
  obtain rfl := Except.ok.inj result
  exact ⟨s, receiving, (Except.ok.inj success).symm⟩

/-- What the switch `n` does by itself. -/
inductive Acts (c : MeshConfig) (route : Nat → Nat → Nat) (w : Mesh) (n : Nat) :
    NodeEvent → Mesh → Prop
  | release {voq : Nat × Nat} {s : SwitchNode}
      (releasing : (w.node n).release (c.node n) voq = .ok s) :
      Acts c route w n (.release voq) (w.setNode n s)
  | transmit {ifIndex : Nat} {out : Option Packet} {s : SwitchNode}
      (sending : (w.node n).transmit (c.node n) (route n) ifIndex = .ok (out, s)) :
      Acts c route w n (.transmit ifIndex) ((w.setNode n s).put c n ifIndex out)
  | creditTimeout {dev dst : Nat} {s : SwitchNode}
      (firing : (w.node n).creditTimeout (c.node n) (route n) dev dst = .ok s) :
      Acts c route w n (.creditTimeout dev dst) (w.setNode n s)
  | synTimeout {dev : Nat} {recent : Nat → Bool} :
      Acts c route w n (.synTimeout dev recent)
        (w.setNode n ((w.node n).synTimeout (c.node n) (route n) dev recent))

theorem react_acts {c : MeshConfig} {route : Nat → Nat → Nat} {w after : Mesh} {n : Nat}
    {event : NodeEvent} (internal : event.Internal)
    (success : w.react c route n event = .ok after) : Acts c route w n event after := by
  obtain ⟨⟨out, s⟩, working, success⟩ := bind_ok.mp success
  cases event with
  | receive => exact internal.elim
  | goOn => exact internal.elim
  | release voq =>
      obtain rfl := Except.ok.inj success
      obtain ⟨middle, releasing, result⟩ := bind_ok.mp working
      obtain ⟨-, rfl⟩ := Prod.mk.inj (Except.ok.inj result)
      exact .release releasing
  | transmit ifIndex =>
      obtain rfl := Except.ok.inj success
      exact .transmit working
  | creditTimeout dev dst =>
      obtain rfl := Except.ok.inj success
      obtain ⟨middle, firing, result⟩ := bind_ok.mp working
      obtain ⟨-, rfl⟩ := Prod.mk.inj (Except.ok.inj result)
      exact .creditTimeout firing
  | synTimeout dev recent =>
      obtain rfl := Except.ok.inj success
      obtain ⟨-, rfl⟩ := Prod.mk.inj (Except.ok.inj working)
      exact .synTimeout

theorem react_other {c : MeshConfig} {route : Nat → Nat → Nat} {w after : Mesh} {n m : Nat}
    {event : NodeEvent} (success : w.react c route n event = .ok after) (different : m ≠ n) :
    after.node m = w.node m := by
  unfold react at success
  obtain ⟨sent, -, success⟩ := bind_ok.mp success
  cases event <;> obtain rfl := Except.ok.inj success <;> simp [setNode_other different]

theorem handle_other {c : MeshConfig} {route : Nat → Nat → Nat} {w after : Mesh} {m : Nat}
    {event : MeshEvent} (success : w.handle c route event = .ok after)
    (different : m ≠ event.place) : after.node m = w.node m := by
  cases event with
  | host n inDev outDev p => exact react_other success different
  | deliver n inDev k outDev =>
      simp only [handle] at success
      split at success
      · have rest : after.node m = (w.take (n, inDev) k).node m := react_other success different
        exact rest
      · obtain rfl := Except.ok.inj success
        rfl
  | lose n inDev k =>
      obtain rfl := Except.ok.inj success
      rfl
  | act n event internal => exact react_other success different

theorem run_other {c : MeshConfig} {w after : Mesh} {labels : List MeshEvent} {m : Nat}
    (run : Run (Step c) w labels after) (away : ∀ event ∈ labels, event.place ≠ m) :
    after.node m = w.node m := by
  induction run with
  | nil => rfl
  | snoc rest step ih =>
      obtain ⟨-, route, success⟩ := step
      have last := away _ (List.mem_append_right _ (List.mem_singleton_self _))
      rw [handle_other success (Ne.symm last)]
      exact ih fun event member => away event (List.mem_append_left _ member)

end Mesh

end Floodgate
