import Mathlib.Data.List.Nodup

/-! Loops over lists whose body may fail. -/

namespace PartialFold

variable {Item State : Type} {body : State → Item → Option State}

/-- Where the body succeeds at an item exactly under the condition of the item, and moves the
invariant on, the loop succeeds exactly when all items meet their conditions. -/
theorem foldlM_from (invariant : List Item → State → Prop) (condition : Item → Prop)
    (succeeds : ∀ done state item, invariant done state → item ∉ done →
      ((∃ next, body state item = some next) ↔ condition item))
    (keeps : ∀ done state item next, invariant done state → item ∉ done →
      body state item = some next → invariant (done ++ [item]) next)
    (done rest : List Item) (state : State) (holds : invariant done state)
    (distinct : (done ++ rest).Nodup) :
    ((∃ finish, rest.foldlM body state = some finish) ↔ ∀ item ∈ rest, condition item) ∧
      ∀ finish, rest.foldlM body state = some finish → invariant (done ++ rest) finish := by
  induction rest generalizing done state with
  | nil =>
      constructor
      · simp
      · intro finish success
        obtain rfl := Option.some.inj success
        simpa using holds
  | cons item rest ih =>
      have new : item ∉ done := by
        intro old
        exact (List.nodup_append.mp distinct).2.2 item old item List.mem_cons_self rfl
      have here := succeeds done state item holds new
      rw [List.forall_mem_cons, ← here]
      simp only [List.foldlM_cons, Option.bind_eq_bind, Option.bind_eq_some_iff]
      rw [List.append_cons] at distinct
      constructor
      · constructor
        · intro success
          obtain ⟨finish, next, step, later⟩ := success
          have moved := keeps done state item next holds new step
          exact ⟨⟨next, step⟩, (ih _ next moved distinct).1.mp ⟨finish, later⟩⟩
        · intro all
          obtain ⟨⟨next, step⟩, later⟩ := all
          have moved := keeps done state item next holds new step
          obtain ⟨finish, success⟩ := (ih _ next moved distinct).1.mpr later
          exact ⟨finish, next, step, success⟩
      · intro finish success
        obtain ⟨next, step, later⟩ := success
        have moved := keeps done state item next holds new step
        rw [List.append_cons]
        exact (ih _ next moved distinct).2 finish later

theorem foldlM_rule (invariant : List Item → State → Prop) (condition : Item → Prop)
    (succeeds : ∀ done state item, invariant done state → item ∉ done →
      ((∃ next, body state item = some next) ↔ condition item))
    (keeps : ∀ done state item next, invariant done state → item ∉ done →
      body state item = some next → invariant (done ++ [item]) next)
    (items : List Item) (state : State) (holds : invariant [] state) (distinct : items.Nodup) :
    ((∃ finish, items.foldlM body state = some finish) ↔ ∀ item ∈ items, condition item) ∧
      ∀ finish, items.foldlM body state = some finish → invariant items finish :=
  foldlM_from invariant condition succeeds keeps [] items state holds distinct

end PartialFold
