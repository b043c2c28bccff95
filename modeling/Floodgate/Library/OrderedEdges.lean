import Mathlib.Data.Finset.Basic
import Mathlib.Data.List.Induction
import Mathlib.Logic.Relation

/-! Marks that travel along a sequence of edges, each edge once and in its turn: what a node
collects are the origins of the chains of edges that come in this order. -/

namespace OrderedEdges

variable {Node : Type} [DecidableEq Node]

def visit (origin : Node → Bool) (marks : Node → Finset Node) (edge : Node × Node) :
    Node → Finset Node := fun node =>
  if node = edge.2 then
    if origin edge.1 then insert edge.1 (marks edge.2) else marks edge.2 ∪ marks edge.1
  else marks node

def collected (origin : Node → Bool) (edges : List (Node × Node)) : Node → Finset Node :=
  edges.foldl (visit origin) fun _ => ∅

omit [DecidableEq Node] in
/-- The edges lead one after the other from `a` to `b`. -/
def Chain : Node → List (Node × Node) → Node → Prop
  | a, [], b => a = b
  | a, edge :: rest, b => edge.1 = a ∧ Chain edge.2 rest b

/-- A chain of at least one edge that follows the sequence. -/
def Ordered (edges : List (Node × Node)) (a b : Node) : Prop :=
  ∃ way, way ≠ [] ∧ way.Sublist edges ∧ Chain a way b

/-- The edges lead from `a` to `b` in some order. -/
def Reaches (edges : List (Node × Node)) : Node → Node → Prop :=
  Relation.TransGen fun a b => (a, b) ∈ edges

section Chains

omit [DecidableEq Node]

variable {edges : List (Node × Node)} {a b : Node}

theorem chain_snoc {way : List (Node × Node)} {edge : Node × Node} :
    Chain a (way ++ [edge]) b ↔ Chain a way edge.1 ∧ edge.2 = b := by
  induction way generalizing a with
  | nil =>
      simp only [List.nil_append, Chain]
      constructor
      · rintro ⟨rfl, rfl⟩
        exact ⟨rfl, rfl⟩
      · rintro ⟨rfl, rfl⟩
        exact ⟨rfl, rfl⟩
  | cons first rest ih =>
      simp only [List.cons_append, Chain, ih, and_assoc]

theorem Chain.last {way : List (Node × Node)} (chain : Chain a way b) (some : way ≠ []) :
    ∃ edge ∈ way, edge.2 = b := by
  induction way using List.reverseRecOn with
  | nil => exact absurd rfl some
  | append_singleton rest edge _ =>
      exact ⟨edge, List.mem_append_right _ (List.mem_singleton_self _), (chain_snoc.mp chain).2⟩

theorem Chain.reaches {way : List (Node × Node)} (chain : Chain a way b) (some : way ≠ [])
    (known : ∀ edge ∈ way, edge ∈ edges) : Reaches edges a b := by
  induction way generalizing a with
  | nil => exact absurd rfl some
  | cons edge rest ih =>
      obtain ⟨rfl, later⟩ := chain
      have first : (edge.1, edge.2) ∈ edges := known edge List.mem_cons_self
      cases rest with
      | nil =>
          obtain rfl : edge.2 = b := later
          exact .single first
      | cons next others =>
          exact .head first (ih later (List.cons_ne_nil _ _) fun other member =>
            known other (List.mem_cons_of_mem _ member))

theorem Ordered.reaches (ordered : Ordered edges a b) : Reaches edges a b := by
  obtain ⟨way, some, follows, chain⟩ := ordered
  exact chain.reaches some fun edge member => follows.subset member

theorem ordered_snoc {edge : Node × Node} : Ordered (edges ++ [edge]) a b ↔
    Ordered edges a b ∨ edge.2 = b ∧ (edge.1 = a ∨ Ordered edges a edge.1) := by
  constructor
  · rintro ⟨way, some, follows, chain⟩
    obtain ⟨first, second, rfl, earlier, last⟩ := List.sublist_append_iff.mp follows
    rcases List.sublist_singleton.mp last with rfl | rfl
    · rw [List.append_nil] at some chain
      exact .inl ⟨first, some, earlier, chain⟩
    · obtain ⟨before, here⟩ := chain_snoc.mp chain
      right
      refine ⟨here, ?_⟩
      cases first with
      | nil => exact .inl (Eq.symm before)
      | cons next rest => exact .inr ⟨next :: rest, List.cons_ne_nil _ _, earlier, before⟩
  · rintro (⟨way, some, follows, chain⟩ | ⟨rfl, rfl | ⟨way, some, follows, chain⟩⟩)
    · exact ⟨way, some, follows.trans (List.sublist_append_left _ _), chain⟩
    · exact ⟨[edge], List.cons_ne_nil _ _, List.sublist_append_right _ _, rfl, rfl⟩
    · exact ⟨way ++ [edge], by simp, follows.append_right _, chain_snoc.mpr ⟨chain, rfl⟩⟩

theorem Ordered.target (ordered : Ordered edges a b) : ∃ edge ∈ edges, edge.2 = b := by
  obtain ⟨way, some, follows, chain⟩ := ordered
  obtain ⟨edge, member, last⟩ := chain.last some
  exact ⟨edge, follows.subset member, last⟩

theorem ordered_of_layers (layers : edges.Pairwise fun earlier later => later.2 ≠ earlier.1)
    (noLoop : ∀ edge ∈ edges, edge.2 ≠ edge.1) (reaches : Reaches edges a b) :
    Ordered edges a b := by
  induction reaches with
  | single first =>
      exact ⟨_, List.cons_ne_nil _ _, List.singleton_sublist.mpr first, rfl, rfl⟩
  | @tail b c _ edge ih =>
      obtain ⟨way, some, follows, chain⟩ := ih
      obtain ⟨before, after, rfl⟩ := List.append_of_mem edge
      have outgoing : ∀ other ∈ (b, c) :: after, other.2 ≠ b := by
        intro other member
        rcases List.mem_cons.mp member with rfl | later
        · exact noLoop _ edge
        · have rest := (List.pairwise_append.mp layers).2.1
          exact (List.pairwise_cons.mp rest).1 other later
      obtain ⟨first, second, rfl, early, late⟩ := List.sublist_append_iff.mp follows
      have none : second = [] := by
        by_contra more
        obtain ⟨last, final, rfl⟩ := (List.eq_nil_or_concat second).resolve_left more
        rw [List.concat_eq_append, ← List.append_assoc] at chain
        have target := (chain_snoc.mp chain).2
        exact outgoing final (late.subset (by simp)) target
      rw [none, List.append_nil] at chain
      have longer : (first ++ [(b, c)]).Sublist (before ++ (b, c) :: after) :=
        early.append (List.singleton_sublist.mpr List.mem_cons_self)
      exact ⟨first ++ [(b, c)], by simp, longer, chain_snoc.mpr ⟨chain, rfl⟩⟩

end Chains

section Collecting

variable {origin : Node → Bool} {edges : List (Node × Node)} {a b : Node}

theorem collected_snoc (edge : Node × Node) :
    collected origin (edges ++ [edge]) = visit origin (collected origin edges) edge := by
  rw [collected, List.foldl_append]
  rfl

/-- A node collects the origins from which ordered chains lead to it. No edge leads into an
origin. -/
theorem mem_collected (apart : ∀ edge ∈ edges, origin edge.2 = false) :
    a ∈ collected origin edges b ↔ origin a = true ∧ Ordered edges a b := by
  induction edges using List.reverseRecOn generalizing b with
  | nil =>
      have none : ¬ Ordered [] a b := fun ordered => by
        obtain ⟨edge, member, -⟩ := ordered.target
        exact absurd member List.not_mem_nil
      simp [collected, none]
  | append_singleton rest edge ih =>
      have earlier := fun node => @ih node fun other member =>
        apart other (List.mem_append_left _ member)
      have sunk : origin edge.1 = true → ¬ Ordered rest a edge.1 := by
        intro source ordered
        obtain ⟨other, member, target⟩ := ordered.target
        have inside := apart other (List.mem_append_left _ member)
        rw [target, source] at inside
        contradiction
      rw [collected_snoc, ordered_snoc]
      by_cases here : b = edge.2
      · subst here
        cases source : origin edge.1 with
        | true =>
            have none := sunk source
            simp only [visit, if_true, source, Finset.mem_insert, earlier, true_and, none, or_false]
            constructor
            · rintro (rfl | ⟨known, ordered⟩)
              · exact ⟨source, .inr rfl⟩
              · exact ⟨known, .inl ordered⟩
            · rintro ⟨known, ordered | same⟩
              · exact .inr ⟨known, ordered⟩
              · exact .inl same.symm
        | false =>
            have other : origin a = true → edge.1 ≠ a := by
              rintro known rfl
              rw [source] at known
              contradiction
            simp only [visit, if_true, source, Bool.false_eq_true, if_false, Finset.mem_union,
              earlier, true_and, ← and_or_left]
            refine and_congr_right fun known => ?_
            simp only [other known, false_or]
      · simp only [visit, here, if_false, earlier, Ne.symm here, false_and, or_false]

/-- A node has collected all origins that reach it exactly if ordered chains come from them. -/
theorem collected_complete (apart : ∀ edge ∈ edges, origin edge.2 = false) :
    (∀ a, a ∈ collected origin edges b ↔ origin a = true ∧ Reaches edges a b) ↔
      ∀ a, origin a = true → Reaches edges a b → Ordered edges a b := by
  simp only [mem_collected apart]
  constructor
  · intro all a source reaches
    exact ((all a).mpr ⟨source, reaches⟩).2
  · intro ordered a
    exact ⟨fun both => ⟨both.1, both.2.reaches⟩, fun both => ⟨both.1, ordered a both.1 both.2⟩⟩

end Collecting

end OrderedEdges
