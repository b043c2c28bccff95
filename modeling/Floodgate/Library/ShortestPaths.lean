import Floodgate.Library.BreadthFirst

/-! The search is exact: its distances are those of shortest paths with relays in between, and the
previous nodes of a node are those that are one edge nearer on such a path. -/

namespace BreadthFirst

variable {Node : Type}

inductive Reaches (relay : Node → Bool) (edges : Node → List Node) (source : Node) :
    Nat → Node → Prop
  | source : Reaches relay edges source 0 source
  | edge {n : Nat} {now next : Node} (reached : Reaches relay edges source n now)
      (relays : n = 0 ∨ relay now = true) (member : next ∈ edges now) :
      Reaches relay edges source (n + 1) next

structure Distance (relay : Node → Bool) (edges : Node → List Node) (source : Node) (d : Nat)
    (node : Node) : Prop where
  reached : Reaches relay edges source d node
  shortest : ∀ n, Reaches relay edges source n node → d ≤ n

namespace Search

/-- The distance found so far, 0 for a node that has not been visited. -/
def level (s : Search Node) (node : Node) : Nat := (s.distance node).getD 0

end Search

section Levels

variable {s : Search Node}

theorem Search.level_eq {node : Node} {d : Nat} (found : s.distance node = some d) :
    s.level node = d := by
  unfold Search.level
  rw [found]
  rfl

theorem Search.distance_level {node : Node} (visited : s.distance node ≠ none) :
    s.distance node = some (s.level node) := by
  obtain ⟨d, found⟩ := Option.ne_none_iff_exists'.mp visited
  rw [Search.level_eq found]
  exact found

end Levels

variable {relay : Node → Bool} {edges : Node → List Node} {source : Node}

theorem Reaches.zero {node : Node} (reached : Reaches relay edges source 0 node) : node = source := by
  cases reached
  rfl

theorem Distance.unique {node : Node} {d d' : Nat} (first : Distance relay edges source d node)
    (second : Distance relay edges source d' node) : d = d' :=
  Nat.le_antisymm (first.shortest d' second.reached) (second.shortest d first.reached)

section Expand

variable [DecidableEq Node] {now : Node} {d : Nat} {s : Search Node} {rest : List Node}

theorem visit_distance (next node : Node) :
    (visit relay now d s next).distance node =
      if node = next ∧ s.distance next = none then some (d + 1) else s.distance node := by
  unfold visit
  rw [(record_queue _ _ _ _).2]
  unfold discover
  cases fresh : s.distance next with
  | some _ => simp
  | none => simp

theorem visit_turns (next : Node) :
    (visit relay now d s next).queue =
      s.queue ++ if relay next && (s.distance next).isNone then [next] else [] := by
  unfold visit
  rw [(record_queue _ _ _ _).1]
  unfold discover
  cases fresh : s.distance next with
  | some _ => simp
  | none =>
      cases relay next with
      | false => simp
      | true => simp

theorem visit_previous (next node : Node) :
    (visit relay now d s next).previous node =
      s.previous node ++
        if node = next ∧ (s.distance next = none ∨ s.distance next = some (d + 1)) then [now]
        else [] := by
  have found : (discover relay d s next).distance next = some (d + 1) ↔
      s.distance next = none ∨ s.distance next = some (d + 1) := by
    unfold discover
    cases fresh : s.distance next with
    | some _ => simp [fresh]
    | none => simp
  unfold visit record
  by_cases near : (discover relay d s next).distance next = some (d + 1)
  · rw [if_pos near, discover_previous]
    by_cases here : node = next
    · simp only [here, if_true, found.mp near, and_self]
    · simp only [here, if_false, false_and, List.append_nil]
  · rw [if_neg near, discover_previous, if_neg fun both => near (found.mpr both.2), List.append_nil]

theorem foldl_distance (distinct : rest.Nodup) (node : Node) :
    (rest.foldl (visit relay now d) s).distance node =
      if node ∈ rest ∧ s.distance node = none then some (d + 1) else s.distance node := by
  induction rest generalizing s with
  | nil => simp
  | cons next rest ih =>
      obtain ⟨absent, distinct⟩ := List.nodup_cons.mp distinct
      rw [List.foldl_cons, ih distinct, visit_distance]
      by_cases here : node = next
      · subst here
        by_cases fresh : s.distance node = none
        · simp [absent, fresh]
        · simp [absent, fresh]
      · simp [here]

theorem foldl_queue (distinct : rest.Nodup) :
    (rest.foldl (visit relay now d) s).queue =
      s.queue ++ rest.filter fun next => relay next && (s.distance next).isNone := by
  induction rest generalizing s with
  | nil => simp
  | cons next rest ih =>
      obtain ⟨absent, distinct⟩ := List.nodup_cons.mp distinct
      have same : ∀ other ∈ rest, (visit relay now d s next).distance other = s.distance other := by
        intro other member
        rw [visit_distance, if_neg]
        rintro ⟨rfl, -⟩
        exact absent member
      rw [List.foldl_cons, ih distinct, visit_turns, List.append_assoc]
      have later : (rest.filter fun other =>
          relay other && ((visit relay now d s next).distance other).isNone) =
          rest.filter fun other => relay other && (s.distance other).isNone :=
        List.filter_congr fun other member => by rw [same other member]
      rw [later, List.filter_cons]
      congr 1
      split
      · rfl
      · rfl

theorem foldl_previous (distinct : rest.Nodup) (node : Node) :
    (rest.foldl (visit relay now d) s).previous node =
      s.previous node ++
        if node ∈ rest ∧ (s.distance node = none ∨ s.distance node = some (d + 1)) then [now]
        else [] := by
  induction rest generalizing s with
  | nil => simp
  | cons next rest ih =>
      obtain ⟨absent, distinct⟩ := List.nodup_cons.mp distinct
      rw [List.foldl_cons, ih distinct, visit_previous, visit_distance]
      by_cases here : node = next
      · subst here
        simp [absent]
      · simp [here]

end Expand

/-- Where the search stands: the nodes of the queue that have had their turn and those that wait for
it, nearest first. -/
structure Layers (relay : Node → Bool) (edges : Node → List Node) (source : Node)
    (processed waiting : List Node) (s : Search Node) : Prop where
  queue : s.queue = processed ++ waiting
  distinct : (processed ++ waiting).Nodup
  turns : ∀ node, node ∈ processed ++ waiting ↔
    s.distance node ≠ none ∧ (node = source ∨ relay node = true)
  origin : s.distance source = some 0
  sound : ∀ node d, s.distance node = some d → Reaches relay edges source d node
  sorted : waiting.Pairwise fun first second => s.level first ≤ s.level second
  near : ∀ node, ∀ other ∈ waiting, s.level node ≤ s.level other + 1
  next : ∀ now ∈ processed, ∀ next ∈ edges now,
    ∃ d, s.distance next = some d ∧ d ≤ s.level now + 1
  previous : ∀ node now, now ∈ s.previous node ↔
    now ∈ processed ∧ node ∈ edges now ∧ s.distance node = some (s.level now + 1)
  once : ∀ node, (s.previous node).Nodup

theorem layers_start [DecidableEq Node] :
    Layers relay edges source [] [source] (start source) := by
  refine ⟨rfl, List.nodup_singleton _, fun node => ?_, by simp [start], fun node d found => ?_,
    List.pairwise_singleton _ _, fun node other _ => ?_, by simp, by simp [start], by simp [start]⟩
  · by_cases here : node = source
    · simp [start, here]
    · simp [start, here]
  · simp only [start] at found
    split at found
    · rename_i here
      rw [here, ← Option.some.inj found]
      exact .source
    · contradiction
  · have zero : (start source).level node = 0 := by
      unfold Search.level start
      simp only
      split
      · rfl
      · rfl
    omega

section Round

variable {now : Node} {processed waiting rest : List Node} {s : Search Node}

theorem Layers.visited (layers : Layers relay edges source processed waiting s) {node : Node}
    (queued : node ∈ processed ++ waiting) : s.distance node = some (s.level node) :=
  Search.distance_level ((layers.turns node).mp queued).1

theorem Layers.relays (layers : Layers relay edges source processed (now :: rest) s) :
    s.level now = 0 ∨ relay now = true := by
  rcases ((layers.turns now).mp (by simp)).2 with rfl | relays
  · exact .inl (Search.level_eq layers.origin)
  · exact .inr relays

section Expand

theorem mem_appended {node : Node} :
    node ∈ (edges now).filter (fun next => relay next && (s.distance next).isNone) ↔
      node ∈ edges now ∧ relay node = true ∧ s.distance node = none := by
  rw [List.mem_filter, Bool.and_eq_true, Option.isNone_iff_eq_none]

theorem Layers.unprocessed (layers : Layers relay edges source processed (now :: rest) s) :
    now ∉ processed := by
  have distinct := (List.nodup_append.mp layers.distinct).2.2
  intro member
  exact distinct now member now (by simp) rfl

theorem Layers.old (layers : Layers relay edges source processed (now :: rest) s) {node : Node}
    (queued : node ∈ processed ++ now :: rest) : s.distance node ≠ none :=
  ((layers.turns node).mp queued).1

theorem Layers.expand_distinct
    (layers : Layers relay edges source processed (now :: rest) s) (simple : (edges now).Nodup) :
    ((processed ++ [now]) ++ (rest ++ (edges now).filter fun next =>
      relay next && (s.distance next).isNone)).Nodup := by
  rw [List.append_assoc, List.singleton_append, ← List.cons_append, ← List.append_assoc,
    List.nodup_append]
  refine ⟨layers.distinct, simple.filter _, ?_⟩
  rintro node queued other new rfl
  exact layers.old queued (mem_appended.mp new).2.2

variable [DecidableEq Node]

theorem expand_distance (simple : (edges now).Nodup) (node : Node) :
    (expand relay edges now s).distance node =
      if node ∈ edges now ∧ s.distance node = none then some (s.level now + 1)
      else s.distance node :=
  foldl_distance simple node

theorem expand_previous (simple : (edges now).Nodup) (node : Node) :
    (expand relay edges now s).previous node = s.previous node ++
      if node ∈ edges now ∧ (s.distance node = none ∨ s.distance node = some (s.level now + 1))
      then [now] else [] :=
  foldl_previous simple node

theorem expand_old (simple : (edges now).Nodup) {node : Node} (visited : s.distance node ≠ none) :
    (expand relay edges now s).distance node = s.distance node := by
  rw [expand_distance simple, if_neg fun both => visited both.2]

theorem expand_old_level (simple : (edges now).Nodup) {node : Node}
    (visited : s.distance node ≠ none) : (expand relay edges now s).level node = s.level node := by
  unfold Search.level
  rw [expand_old simple visited]

theorem expand_new_level (simple : (edges now).Nodup) {node : Node} (edge : node ∈ edges now)
    (unvisited : s.distance node = none) :
    (expand relay edges now s).level node = s.level now + 1 := by
  apply Search.level_eq
  rw [expand_distance simple, if_pos ⟨edge, unvisited⟩]

variable (layers : Layers relay edges source processed (now :: rest) s)

include layers

variable (simple : (edges now).Nodup)

include simple

/-- Nothing is found further away than the neighbours of `now`. -/
theorem Layers.expand_level_le (node : Node) :
    (expand relay edges now s).level node ≤ s.level now + 1 := by
  have old := layers.near node now (by simp)
  unfold Search.level at old ⊢
  rw [expand_distance simple]
  split
  · exact Nat.le_refl _
  · exact old

theorem Layers.le_expand_level {node : Node} (waits : node ∈ rest ++ (edges now).filter
    fun next => relay next && (s.distance next).isNone) :
    s.level now ≤ (expand relay edges now s).level node := by
  rcases List.mem_append.mp waits with old | new
  · rw [expand_old_level simple (layers.old (by simp [old]))]
    exact List.rel_of_pairwise_cons layers.sorted old
  · obtain ⟨edge, -, unvisited⟩ := mem_appended.mp new
    rw [expand_new_level simple edge unvisited]
    exact Nat.le_succ _

theorem Layers.expand_turns (node : Node) : node ∈ (processed ++ [now]) ++ (rest ++
    (edges now).filter fun next => relay next && (s.distance next).isNone) ↔
    (expand relay edges now s).distance node ≠ none ∧ (node = source ∨ relay node = true) := by
  have parts : node ∈ (processed ++ [now]) ++ (rest ++ (edges now).filter fun next =>
      relay next && (s.distance next).isNone) ↔
      node ∈ processed ++ now :: rest ∨
        node ∈ edges now ∧ relay node = true ∧ s.distance node = none := by
    rw [← mem_appended]
    simp only [List.mem_append, List.mem_cons, List.not_mem_nil]
    tauto
  rw [parts, layers.turns, expand_distance simple]
  by_cases unvisited : s.distance node = none
  · have other : node ≠ source := by
      rintro rfl
      rw [layers.origin] at unvisited
      contradiction
    by_cases edge : node ∈ edges now
    · simp [unvisited, edge, other]
    · simp [unvisited, edge]
  · simp [unvisited]

theorem Layers.expand_sound {node : Node} {d : Nat}
    (reached : (expand relay edges now s).distance node = some d) :
    Reaches relay edges source d node := by
  rw [expand_distance simple] at reached
  split at reached
  · rename_i new
    rw [← Option.some.inj reached]
    exact .edge (layers.sound now _ (layers.visited (by simp))) layers.relays new.1
  · exact layers.sound node d reached

theorem Layers.expand_sorted : (rest ++ (edges now).filter fun next =>
    relay next && (s.distance next).isNone).Pairwise fun first second =>
      (expand relay edges now s).level first ≤ (expand relay edges now s).level second := by
  rw [List.pairwise_append]
  refine ⟨?_, ?_, ?_⟩
  · refine (List.pairwise_cons.mp layers.sorted).2.imp_of_mem ?_
    intro first second one two order
    rw [expand_old_level simple (layers.old (by simp [one])),
      expand_old_level simple (layers.old (by simp [two]))]
    exact order
  · refine List.pairwise_iff_forall_sublist.mpr fun {first second} inside => ?_
    have new := mem_appended.mp (inside.subset (by simp) : second ∈ _)
    rw [expand_new_level simple new.1 new.2.2]
    exact layers.expand_level_le simple first
  · intro first _ second new
    have edge := mem_appended.mp new
    rw [expand_new_level simple edge.1 edge.2.2]
    exact layers.expand_level_le simple first

theorem Layers.expand_next {prior next : Node} (turned : prior ∈ processed ++ [now])
    (edge : next ∈ edges prior) : ∃ d, (expand relay edges now s).distance next = some d ∧
      d ≤ (expand relay edges now s).level prior + 1 := by
  rcases List.mem_append.mp turned with old | last
  · obtain ⟨d, reached, order⟩ := layers.next prior old next edge
    refine ⟨d, ?_, ?_⟩
    · rw [expand_old simple (by rw [reached]; exact Option.some_ne_none _)]
      exact reached
    · rw [expand_old_level simple (layers.old (by simp [old]))]
      exact order
  · rw [List.mem_singleton.mp last] at edge ⊢
    rw [expand_old_level simple (layers.old (by simp))]
    have visited : (expand relay edges now s).distance next ≠ none := by
      rw [expand_distance simple]
      split
      · exact Option.some_ne_none _
      · rename_i old
        exact fun unvisited => old ⟨edge, unvisited⟩
    exact ⟨_, Search.distance_level visited, layers.expand_level_le simple next⟩

theorem Layers.mem_expand_previous (node prior : Node) :
    prior ∈ (expand relay edges now s).previous node ↔
      prior ∈ processed ++ [now] ∧ node ∈ edges prior ∧
        (expand relay edges now s).distance node =
          some ((expand relay edges now s).level prior + 1) := by
  have apart := layers.unprocessed
  rw [expand_previous simple, List.mem_append, layers.previous, List.mem_append,
    List.mem_singleton]
  by_cases here : prior = now
  · rw [here, expand_old_level simple (layers.old (by simp)), expand_distance simple]
    simp only [apart, false_and, false_or, or_true, true_and]
    by_cases edge : node ∈ edges now
    · by_cases unvisited : s.distance node = none
      · simp [edge, unvisited]
      · simp [edge, unvisited]
    · simp [edge]
  · have other : prior ∉ if node ∈ edges now ∧
        (s.distance node = none ∨ s.distance node = some (s.level now + 1)) then [now] else [] := by
      split
      · exact fun member => here (List.mem_singleton.mp member)
      · exact List.not_mem_nil
    simp only [other, or_false, here]
    refine and_congr_right fun old => and_congr_right fun edge => ?_
    obtain ⟨d, reached, -⟩ := layers.next prior old node edge
    rw [expand_old_level simple (layers.old (by simp [old])),
      expand_old simple (by rw [reached]; exact Option.some_ne_none _)]

theorem Layers.expand_once (node : Node) : ((expand relay edges now s).previous node).Nodup := by
  rw [expand_previous simple, List.nodup_append]
  refine ⟨layers.once node, ?_, ?_⟩
  · split
    · exact List.nodup_singleton now
    · exact List.nodup_nil
  · rintro first old second new rfl
    split at new
    · rw [List.mem_singleton.mp new] at old
      exact layers.unprocessed ((layers.previous node now).mp old).1
    · exact List.not_mem_nil new

theorem Layers.expand : Layers relay edges source (processed ++ [now])
    (rest ++ (edges now).filter fun next => relay next && (s.distance next).isNone)
    (expand relay edges now s) := by
  constructor
  case queue =>
    have queue : (BreadthFirst.expand relay edges now s).queue = s.queue ++ _ := foldl_queue simple
    rw [queue, layers.queue]
    simp
  case origin =>
    rw [expand_old simple (by rw [layers.origin]; exact Option.some_ne_none _)]
    exact layers.origin
  case near =>
    intro node other member
    have upper := layers.expand_level_le simple node
    have lower := layers.le_expand_level simple member
    omega
  case distinct => exact layers.expand_distinct simple
  case turns => exact layers.expand_turns simple
  case sound => exact fun node d reached => layers.expand_sound simple reached
  case sorted => exact layers.expand_sorted simple
  case next => exact fun prior turned next edge => layers.expand_next simple turned edge
  case previous => exact layers.mem_expand_previous simple
  case once => exact layers.expand_once simple

end Expand

theorem Layers.search [DecidableEq Node] (inside : Finset Node)
    (closed : ∀ now next, next ∈ edges now → next ∈ inside) (simple : ∀ now, (edges now).Nodup)
    (rounds : Nat) (layers : Layers relay edges source processed waiting s)
    (known : ∀ node ∈ processed ++ waiting, node ∈ inside)
    (enough : inside.card ≤ rounds + processed.length) :
    ∃ all, Layers relay edges source all [] (search relay edges rounds processed.length s) := by
  induction rounds generalizing processed waiting s with
  | zero =>
      have bound : (processed ++ waiting).length ≤ inside.card := by
        rw [← List.toFinset_card_of_nodup layers.distinct]
        apply Finset.card_le_card
        intro node member
        exact known node (List.mem_toFinset.mp member)
      rw [List.length_append] at bound
      have none : waiting = [] := List.eq_nil_of_length_eq_zero (by omega)
      rw [none] at layers
      exact ⟨processed, layers⟩
  | succ rounds ih =>
      unfold BreadthFirst.search
      rw [layers.queue, List.getElem?_append_right (Nat.le_refl _), Nat.sub_self]
      cases waiting with
      | nil => exact ⟨processed, layers⟩
      | cons now rest =>
          have after := ih (layers.expand (simple now))
            (fun node member => by
              simp only [List.mem_append, List.mem_filter] at member
              rcases member with (old | turn) | old | new
              · exact known node (by simp [old])
              · exact known node (by simp [List.mem_singleton.mp turn])
              · exact known node (by simp [old])
              · exact closed now node new.1)
            (by
              rw [List.length_append, List.length_singleton]
              omega)
          rw [List.length_append, List.length_singleton] at after
          exact after

end Round

section Finished

variable {all : List Node} {s : Search Node}

/-- Every node that can be reached has been, by a path that is no longer. -/
theorem Layers.complete (layers : Layers relay edges source all [] s) {n : Nat} {node : Node}
    (reached : Reaches relay edges source n node) : ∃ d, s.distance node = some d ∧ d ≤ n := by
  induction reached with
  | source => exact ⟨0, layers.origin, Nat.le_refl _⟩
  | @edge n now next reached relays member ih =>
      obtain ⟨d, found, order⟩ := ih
      have queued : now ∈ all := by
        rw [← List.append_nil all, layers.turns]
        refine ⟨by rw [found]; exact Option.some_ne_none _, ?_⟩
        rcases relays with zero | relays
        · rw [zero] at reached
          exact .inl reached.zero
        · exact .inr relays
      obtain ⟨further, reached, near⟩ := layers.next now queued next member
      rw [Search.level_eq found] at near
      exact ⟨further, reached, by omega⟩

theorem Layers.distance_iff (layers : Layers relay edges source all [] s) (d : Nat) (node : Node) :
    s.distance node = some d ↔ Distance relay edges source d node := by
  have shortest_of : ∀ d, s.distance node = some d → Distance relay edges source d node := by
    intro d found
    refine ⟨layers.sound node d found, fun n reached => ?_⟩
    obtain ⟨d', again, order⟩ := layers.complete reached
    rw [found] at again
    rw [Option.some.inj again]
    exact order
  constructor
  · exact shortest_of d
  · intro shortest
    obtain ⟨d', found, -⟩ := layers.complete shortest.reached
    rw [found, (shortest_of d' found).unique shortest]

theorem Layers.previous_iff (layers : Layers relay edges source all [] s) (node now : Node) :
    now ∈ s.previous node ↔ ∃ d, Distance relay edges source (d + 1) node ∧
      Distance relay edges source d now ∧ (d = 0 ∨ relay now = true) ∧ node ∈ edges now := by
  rw [layers.previous]
  constructor
  · rintro ⟨queued, edge, found⟩
    have turn := (layers.turns now).mp (by simp [queued])
    have distance := Search.distance_level turn.1
    refine ⟨s.level now, (layers.distance_iff _ node).mp found, (layers.distance_iff _ now).mp distance,
      ?_, edge⟩
    rcases turn.2 with rfl | relays
    · exact .inl (Search.level_eq layers.origin)
    · exact .inr relays
  · rintro ⟨d, further, nearer, relays, edge⟩
    have found := (layers.distance_iff _ now).mpr nearer
    refine ⟨?_, edge, ?_⟩
    · rw [← List.append_nil all, layers.turns]
      refine ⟨by rw [found]; exact Option.some_ne_none _, ?_⟩
      rcases relays with rfl | relays
      · exact .inl nearer.reached.zero
      · exact .inr relays
    · rw [Search.level_eq found]
      exact (layers.distance_iff _ node).mpr further

end Finished

theorem search_layers [DecidableEq Node] (inside : Finset Node)
    (closed : ∀ now next, next ∈ edges now → next ∈ inside) (simple : ∀ now, (edges now).Nodup)
    (known : source ∈ inside) :
    ∃ all, Layers relay edges source all [] (search relay edges inside.card 0 (start source)) :=
  layers_start.search inside closed simple inside.card
    (fun node member => by rw [List.mem_singleton.mp member]; exact known) (Nat.le_add_right _ _)

end BreadthFirst
