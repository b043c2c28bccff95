import Floodgate.Library.ShortestPaths

/-! Breadth-first search that measures the path on which it first comes to each node. -/

namespace BreadthFirst

variable {Node Value : Type}

inductive Carries (relay : Node → Bool) (edges : Node → List Node)
    (extend : Node → Node → Value → Value) (source : Node) (first : Value) :
    Nat → Node → Value → Prop
  | source : Carries relay edges extend source first 0 source first
  | edge {n : Nat} {now next : Node} {value : Value}
      (carried : Carries relay edges extend source first n now value)
      (relays : n = 0 ∨ relay now = true) (member : next ∈ edges now) :
      Carries relay edges extend source first (n + 1) next (extend now next value)

theorem Carries.reaches {relay : Node → Bool} {edges : Node → List Node}
    {extend : Node → Node → Value → Value} {source : Node} {first : Value} {n : Nat} {node : Node}
    {value : Value} (carried : Carries relay edges extend source first n node value) :
    Reaches relay edges source n node := by
  induction carried with
  | source => exact .source
  | edge _ relays member ih => exact .edge ih relays member

variable [DecidableEq Node]

structure Measured (Node Value : Type) where
  search : Search Node
  value : Node → Value

section Definitions

variable (relay : Node → Bool) (edges : Node → List Node) (extend : Node → Node → Value → Value)

/-- A node that has not been visited is measured from the node that discovers it. -/
def measureVisit (now : Node) (d : Nat) (s : Measured Node Value) (next : Node) :
    Measured Node Value :=
  { search := visit relay now d s.search next
    value := fun node =>
      if node = next ∧ s.search.distance next = none then extend now next (s.value now)
      else s.value node }

def measureExpand (now : Node) (s : Measured Node Value) : Measured Node Value :=
  (edges now).foldl (measureVisit relay extend now ((s.search.distance now).getD 0)) s

def measure : Nat → Nat → Measured Node Value → Measured Node Value
  | 0, _, s => s
  | rounds + 1, i, s =>
      match s.search.queue[i]? with
      | none => s
      | some now => measure rounds (i + 1) (measureExpand relay edges extend now s)

def measureStart (source : Node) (first rest : Value) : Measured Node Value :=
  ⟨start source, fun node => if node = source then first else rest⟩

end Definitions

section Forget

variable {relay : Node → Bool} {edges : Node → List Node} {extend : Node → Node → Value → Value}

theorem measureExpand_search (now : Node) (s : Measured Node Value) :
    (measureExpand relay edges extend now s).search = expand relay edges now s.search := by
  unfold measureExpand expand
  generalize (s.search.distance now).getD 0 = d
  induction edges now generalizing s with
  | nil => rfl
  | cons next rest ih =>
      rw [List.foldl_cons, List.foldl_cons, ih]
      rfl

/-- Without the values it is the plain search. -/
theorem measure_search (rounds i : Nat) (s : Measured Node Value) :
    (measure relay edges extend rounds i s).search = search relay edges rounds i s.search := by
  induction rounds generalizing i s with
  | zero => rfl
  | succ rounds ih =>
      unfold measure search
      cases s.search.queue[i]? with
      | none => rfl
      | some now =>
          simp only
          rw [ih, measureExpand_search]

end Forget

section Values

variable {relay : Node → Bool} {edges : Node → List Node} {extend : Node → Node → Value → Value}
  {source : Node} {first rest : Value}

structure Values (relay : Node → Bool) (edges : Node → List Node)
    (extend : Node → Node → Value → Value) (source : Node) (first : Value)
    (s : Measured Node Value) : Prop where
  carried : ∀ node d, s.search.distance node = some d →
    Carries relay edges extend source first d node (s.value node)
  queued : ∀ node ∈ s.search.queue, ∃ d, s.search.distance node = some d ∧
    (d = 0 ∨ relay node = true)

theorem discover_distance (d : Nat) (s : Search Node) (next node : Node) :
    (discover relay d s next).distance node =
      if node = next ∧ s.distance next = none then some (d + 1) else s.distance node := by
  unfold discover
  cases visited : s.distance next with
  | none =>
      by_cases here : node = next
      · simp [here]
      · simp [here]
  | some _ => simp

theorem discover_queue (d : Nat) (s : Search Node) (next : Node) :
    (discover relay d s next).queue =
      if s.distance next = none ∧ relay next = true then s.queue ++ [next] else s.queue := by
  unfold discover
  cases visited : s.distance next with
  | none => simp
  | some _ => simp

theorem Values.visit {s : Measured Node Value}
    (values : Values relay edges extend source first s) {now next : Node} {d : Nat}
    (here : s.search.distance now = some d) (relays : d = 0 ∨ relay now = true)
    (member : next ∈ edges now) :
    Values relay edges extend source first (measureVisit relay extend now d s next) ∧
      (measureVisit relay extend now d s next).search.distance now = some d := by
  obtain ⟨queue, distance⟩ := record_queue now next d (discover relay d s.search next)
  have reached := values.carried now d here
  have after : ∀ node, (measureVisit relay extend now d s next).search.distance node =
      if node = next ∧ s.search.distance next = none then some (d + 1)
      else s.search.distance node := by
    intro node
    exact (congrFun distance node).trans (discover_distance d s.search next node)
  have still : (measureVisit relay extend now d s next).search.distance now = some d := by
    rw [after, if_neg, here]
    rintro ⟨rfl, fresh⟩
    rw [here] at fresh
    contradiction
  refine ⟨⟨fun node e found => ?_, fun node inside => ?_⟩, still⟩
  · rw [after] at found
    show Carries relay edges extend source first e node (if _ then _ else _)
    by_cases fresh : node = next ∧ s.search.distance next = none
    · rw [if_pos fresh] at found ⊢
      obtain rfl := Option.some.inj found
      rw [fresh.1]
      exact .edge reached relays member
    · rw [if_neg fresh] at found ⊢
      exact values.carried node e found
  · have queued : (measureVisit relay extend now d s next).search.queue =
        (discover relay d s.search next).queue := queue
    rw [queued, discover_queue] at inside
    have before : node ∈ s.search.queue →
        ∃ e, (measureVisit relay extend now d s next).search.distance node = some e ∧
          (e = 0 ∨ relay node = true) := by
      intro earlier
      obtain ⟨e, found, passes⟩ := values.queued node earlier
      refine ⟨e, ?_, passes⟩
      rw [after, if_neg, found]
      rintro ⟨rfl, fresh⟩
      rw [found] at fresh
      contradiction
    split at inside
    · rename_i fresh
      rcases List.mem_append.mp inside with earlier | last
      · exact before earlier
      · obtain rfl := List.mem_singleton.mp last
        exact ⟨d + 1, by rw [after, if_pos ⟨rfl, fresh.1⟩], .inr fresh.2⟩
    · exact before inside

theorem Values.expand {s : Measured Node Value}
    (values : Values relay edges extend source first s) {now : Node} {d : Nat}
    (here : s.search.distance now = some d) (relays : d = 0 ∨ relay now = true) :
    Values relay edges extend source first (measureExpand relay edges extend now s) := by
  unfold measureExpand
  rw [here, Option.getD_some]
  have along : ∀ (nexts : List Node) (s : Measured Node Value), (∀ next ∈ nexts, next ∈ edges now) →
      Values relay edges extend source first s → s.search.distance now = some d →
      Values relay edges extend source first
        (nexts.foldl (measureVisit relay extend now d) s) := by
    intro nexts
    induction nexts with
    | nil => exact fun _ _ values _ => values
    | cons next others ih =>
        intro s inside values here
        obtain ⟨visited, still⟩ := values.visit here relays (inside next List.mem_cons_self)
        exact ih _ (fun other member => inside other (List.mem_cons_of_mem _ member)) visited still
  exact along _ s (fun _ member => member) values here

theorem Values.measure {s : Measured Node Value}
    (values : Values relay edges extend source first s) (rounds i : Nat) :
    Values relay edges extend source first (measure relay edges extend rounds i s) := by
  induction rounds generalizing i s with
  | zero => exact values
  | succ rounds ih =>
      unfold BreadthFirst.measure
      cases turn : s.search.queue[i]? with
      | none => exact values
      | some now =>
          obtain ⟨d, here, relays⟩ := values.queued now (List.mem_of_getElem? turn)
          exact ih (values.expand here relays) (i + 1)

theorem Values.start (source : Node) (first rest : Value) :
    Values relay edges extend source first (measureStart source first rest) := by
  constructor
  · intro node d found
    have visited : (if node = source then some 0 else none) = some d := found
    split at visited
    · rename_i same
      obtain rfl := Option.some.inj visited
      rw [same]
      have value : (measureStart source first rest).value source = first := if_pos rfl
      rw [value]
      exact .source
    · contradiction
  · intro node inside
    obtain rfl := List.mem_singleton.mp inside
    exact ⟨0, if_pos rfl, .inl rfl⟩

/-- What has been measured of a node is the value of a shortest path to it. -/
theorem measured_shortest (inside : Finset Node)
    (closed : ∀ now next, next ∈ edges now → next ∈ inside) (simple : ∀ now, (edges now).Nodup)
    (known : source ∈ inside) (node : Node) :
    (∀ d, (measure relay edges extend inside.card 0
        (measureStart source first rest)).search.distance node = some d ↔
          Distance relay edges source d node) ∧
      ∀ d, Distance relay edges source d node →
        Carries relay edges extend source first d node
          ((measure relay edges extend inside.card 0 (measureStart source first rest)).value
            node) := by
  have exactly : ∀ d, (measure relay edges extend inside.card 0
      (measureStart source first rest)).search.distance node = some d ↔
        Distance relay edges source d node := by
    intro d
    obtain ⟨all, layers⟩ := search_layers inside closed simple known
    rw [measure_search]
    exact layers.distance_iff d node
  refine ⟨exactly, fun d shortest => ?_⟩
  exact ((Values.start source first rest).measure inside.card 0).carried node d
    ((exactly d).mpr shortest)

end Values

end BreadthFirst
