import Mathlib.Tactic.Common

/-! Finite runs of a labelled transition relation and their invariant rules. -/

namespace LabelledRun

variable {State Label : Type}

/-- `Run step start labels finish`: the labels, oldest first, lead from `start` to `finish`. -/
inductive Run (step : State → Label → State → Prop) (start : State) :
    List Label → State → Prop
  | nil : Run step start [] start
  | snoc {labels : List Label} {middle finish : State} {label : Label} :
      Run step start labels middle → step middle label finish →
      Run step start (labels ++ [label]) finish

variable {step : State → Label → State → Prop} {start : State}

/-- A property of the labels so far and the present state that every step keeps. -/
theorem Run.history (property : List Label → State → Prop) (base : property [] start)
    (keeps : ∀ labels middle label finish, Run step start labels middle →
      property labels middle → step middle label finish → property (labels ++ [label]) finish)
    {labels : List Label} {finish : State} (run : Run step start labels finish) :
    property labels finish := by
  induction run with
  | nil => exact base
  | snoc earlier last ih => exact keeps _ _ _ _ earlier ih last

theorem Run.invariant (property : State → Prop) (base : property start)
    (keeps : ∀ middle label finish, property middle → step middle label finish → property finish)
    {labels : List Label} {finish : State} (run : Run step start labels finish) :
    property finish :=
  run.history (fun _ state => property state) base
    (fun _ middle label finish _ holds move => keeps middle label finish holds move)

theorem Run.nil_iff {finish : State} : Run step start [] finish ↔ finish = start := by
  constructor
  · intro run
    generalize told : ([] : List Label) = all at run
    cases run with
    | nil => rfl
    | snoc earlier last => exact absurd told (by simp)
  · intro same
    rw [same]
    exact .nil

theorem Run.snoc_iff {labels : List Label} {label : Label} {finish : State} :
    Run step start (labels ++ [label]) finish ↔
      ∃ middle, Run step start labels middle ∧ step middle label finish := by
  constructor
  · intro run
    generalize told : labels ++ [label] = all at run
    cases run with
    | nil => exact absurd told (by simp)
    | snoc earlier last =>
        obtain ⟨rfl, same⟩ := List.append_inj' told rfl
        obtain rfl := List.singleton_inj.mp same
        exact ⟨_, earlier, last⟩
  · intro both
    obtain ⟨middle, earlier, last⟩ := both
    exact earlier.snoc last

theorem Run.append {first second : List Label} {middle finish : State}
    (before : Run step start first middle) (after : Run step middle second finish) :
    Run step start (first ++ second) finish := by
  induction after with
  | nil => simpa using before
  | snoc _ last ih =>
      rw [← List.append_assoc]
      exact ih.snoc last

theorem Run.single {label : Label} {finish : State} (move : step start label finish) :
    Run step start [label] finish := by
  simpa using Run.nil.snoc move

theorem Run.mono {wider : State → Label → State → Prop}
    (included : ∀ state label next, step state label next → wider state label next)
    {labels : List Label} {finish : State} (run : Run step start labels finish) :
    Run wider start labels finish := by
  induction run with
  | nil => exact .nil
  | snoc _ last ih => exact ih.snoc (included _ _ _ last)

section Executable

variable (takes : State → Label → Bool) (next : State → Label → State)

def executes : State → List Label → Bool
  | _, [] => true
  | state, label :: rest => takes state label && executes (next state label) rest

variable {takes next}

theorem Run.executed (sound : ∀ state label, takes state label = true →
    step state label (next state label)) (labels : List Label) {state : State}
    (all : executes takes next state labels = true) :
    Run step state labels (labels.foldl next state) := by
  induction labels generalizing state with
  | nil => exact .nil
  | cons label rest ih =>
      obtain ⟨here, later⟩ := Bool.and_eq_true_iff.mp all
      exact (Run.single (sound state label here)).append (ih later)

def replay {Input : Type} (label : State → Input → Label) (next : State → Input → State) :
    State → List Input → List Label
  | _, [] => []
  | state, input :: rest => label state input :: replay label next (next state input) rest

/-- Where inputs are taken only within an invariant, and keep it, a list of them is a run. -/
theorem Run.replayed {Input : Type} {takes : State → Input → Bool}
    {label : State → Input → Label} {next : State → Input → State} (invariant : State → Prop)
    (sound : ∀ state input, invariant state → takes state input = true →
      step state (label state input) (next state input) ∧ invariant (next state input))
    (inputs : List Input) {state : State} (holds : invariant state)
    (all : executes takes next state inputs = true) :
    Run step state (replay label next state inputs) (inputs.foldl next state) := by
  induction inputs generalizing state with
  | nil => exact .nil
  | cons input rest ih =>
      obtain ⟨here, later⟩ := Bool.and_eq_true_iff.mp all
      obtain ⟨move, kept⟩ := sound state input holds here
      exact (Run.single move).append (ih kept later)

theorem replay_self (labels : List Label) (state : State) :
    replay (fun _ label => label) next state labels = labels := by
  induction labels generalizing state with
  | nil => rfl
  | cons label rest ih => rw [replay, ih]

theorem Run.executed_within (invariant : State → Prop)
    (sound : ∀ state label, invariant state → takes state label = true →
      step state label (next state label) ∧ invariant (next state label))
    (labels : List Label) {state : State} (holds : invariant state)
    (all : executes takes next state labels = true) :
    Run step state labels (labels.foldl next state) := by
  have run := Run.replayed invariant sound labels holds all
  rwa [replay_self] at run

end Executable

/-- A run that remembers the state before each of its labels. -/
def Traced (step : State → Label → State → Prop) (state : State) (entry : State × Label)
    (next : State) : Prop :=
  entry.1 = state ∧ step state entry.2 next

theorem Run.told {entries : List (State × Label)} {middle finish : State} {label : Label}
    (run : Run (Traced step) start entries middle) (move : step middle label finish) :
    Run (Traced step) start (entries ++ [(middle, label)]) finish :=
  run.snoc ⟨rfl, move⟩

theorem Run.traced {labels : List Label} {finish : State} (run : Run step start labels finish) :
    ∃ entries, Run (Traced step) start entries finish ∧ entries.map Prod.snd = labels := by
  induction run with
  | nil => exact ⟨[], .nil, rfl⟩
  | @snoc _ middle _ label _ last ih =>
      obtain ⟨entries, earlier, same⟩ := ih
      exact ⟨entries ++ [(middle, label)], earlier.snoc ⟨rfl, last⟩, by simp [same]⟩

theorem Run.untraced {entries : List (State × Label)} {finish : State}
    (run : Run (Traced step) start entries finish) :
    Run step start (entries.map Prod.snd) finish := by
  induction run with
  | nil => exact .nil
  | @snoc entries middle finish entry _ last ih =>
      rw [List.map_append]
      exact ih.snoc (last.1 ▸ last.2)

def trace (next : State → Label → State) : State → List Label → List (State × Label)
  | _, [] => []
  | state, label :: rest => (state, label) :: trace next (next state label) rest

theorem Run.executed_traced {takes : State → Label → Bool} {next : State → Label → State}
    (sound : ∀ state label, takes state label = true → step state label (next state label))
    (labels : List Label) {state : State} (all : executes takes next state labels = true) :
    Run (Traced step) state (trace next state labels) (labels.foldl next state) := by
  induction labels generalizing state with
  | nil => exact .nil
  | cons label rest ih =>
      obtain ⟨here, later⟩ := Bool.and_eq_true_iff.mp all
      have first : Traced step state (state, label) (next state label) :=
        ⟨rfl, sound state label here⟩
      exact (Run.single first).append (ih later)

theorem executes_trace {takes : State → Label → Bool} {next : State → Label → State}
    (labels : List Label) {state : State} (all : executes takes next state labels = true) :
    ∀ entry ∈ trace next state labels, takes entry.1 entry.2 = true := by
  induction labels generalizing state with
  | nil => simp [trace]
  | cons label rest ih =>
      obtain ⟨here, later⟩ := Bool.and_eq_true_iff.mp all
      intro entry member
      rcases List.mem_cons.mp member with rfl | after
      · exact here
      · exact ih later entry after

theorem Run.taken {entries : List (State × Label)} {finish : State}
    (run : Run (Traced step) start entries finish) :
    ∀ entry ∈ entries, ∃ next, step entry.1 entry.2 next := by
  induction run with
  | nil => simp
  | snoc _ last ih =>
      intro entry member
      rcases List.mem_append.mp member with earlier | here
      · exact ih entry earlier
      · rw [List.mem_singleton.mp here]
        exact ⟨_, last.1 ▸ last.2⟩

/-- A property that every step keeps under its condition holds all along a run that meets the
conditions. -/
theorem Run.holds_along (property : State → Prop) (condition : State → Label → Prop)
    (base : property start)
    (keeps : ∀ state label next, property state → condition state label → step state label next →
      property next)
    {entries : List (State × Label)} {finish : State}
    (run : Run (Traced step) start entries finish)
    (all : ∀ entry ∈ entries, condition entry.1 entry.2) :
    (∀ entry ∈ entries, property entry.1) ∧ property finish := by
  have along : (∀ entry ∈ entries, condition entry.1 entry.2) →
      (∀ entry ∈ entries, property entry.1) ∧ property finish := by
    refine run.history (fun entries state => (∀ entry ∈ entries, condition entry.1 entry.2) →
      (∀ entry ∈ entries, property entry.1) ∧ property state) ?_ ?_
    · exact fun _ => ⟨by simp, base⟩
    · rintro labels middle ⟨_, label⟩ finish _ holds ⟨rfl, step⟩ all
      simp only [List.forall_mem_append, List.forall_mem_singleton] at all ⊢
      obtain ⟨before, here⟩ := holds all.1
      exact ⟨⟨before, here⟩, keeps _ _ _ here all.2 step⟩
  exact along all

/-- Where one step is served and keeps `good` exactly when `condition` holds before it, all steps of
a run are served and it stays within `good` exactly when `condition` holds before each of them. -/
theorem Run.served_iff (invariant good : State → Prop) (condition served : State → Label → Prop)
    (base : invariant start) (first : good start)
    (keeps : ∀ state label next, invariant state → good state → step state label next →
      invariant next)
    (exact_step : ∀ state label next, invariant state → good state → step state label next →
      (condition state label ↔ served state label ∧ good next))
    {entries : List (State × Label)} {finish : State}
    (run : Run (Traced step) start entries finish) :
    (∀ entry ∈ entries, condition entry.1 entry.2) ↔
      (∀ entry ∈ entries, good entry.1 ∧ served entry.1 entry.2) ∧ good finish := by
  have both : ((∀ entry ∈ entries, good entry.1) → good finish → invariant finish) ∧
      ((∀ entry ∈ entries, condition entry.1 entry.2) ↔
        (∀ entry ∈ entries, good entry.1 ∧ served entry.1 entry.2) ∧ good finish) := by
    refine run.history (fun entries state =>
      ((∀ entry ∈ entries, good entry.1) → good state → invariant state) ∧
      ((∀ entry ∈ entries, condition entry.1 entry.2) ↔
        (∀ entry ∈ entries, good entry.1 ∧ served entry.1 entry.2) ∧ good state)) ?_ ?_
    · exact ⟨fun _ _ => base, by simp [first]⟩
    · rintro labels middle ⟨_, label⟩ finish _ ⟨holds, equal⟩ ⟨rfl, step⟩
      simp only [List.forall_mem_append, List.forall_mem_singleton]
      refine ⟨fun goods _ => keeps _ _ _ (holds goods.1 goods.2) goods.2 step, ?_⟩
      rw [equal]
      constructor
      · rintro ⟨⟨goods, last⟩, here⟩
        have before := holds (fun entry member => (goods entry member).1) last
        obtain ⟨done, after⟩ := (exact_step _ _ _ before last step).mp here
        exact ⟨⟨goods, last, done⟩, after⟩
      · rintro ⟨⟨goods, last, done⟩, here⟩
        have before := holds (fun entry member => (goods entry member).1) last
        exact ⟨⟨goods, last⟩, (exact_step _ _ _ before last step).mpr ⟨done, here⟩⟩
  exact both.2

theorem Run.traced_iff (invariant good : State → Prop) (condition : State → Label → Prop)
    (base : invariant start) (first : good start)
    (keeps : ∀ state label next, invariant state → good state → step state label next →
      invariant next)
    (exact_step : ∀ state label next, invariant state → good state → step state label next →
      (condition state label ↔ good next))
    {entries : List (State × Label)} {finish : State}
    (run : Run (Traced step) start entries finish) :
    (∀ entry ∈ entries, condition entry.1 entry.2) ↔
      (∀ entry ∈ entries, good entry.1) ∧ good finish := by
  have equal := run.served_iff invariant good condition (fun _ _ => True) base first keeps
    fun state label next invariant good step => by
      rw [exact_step state label next invariant good step, true_and]
  simpa only [and_true] using equal

end LabelledRun
