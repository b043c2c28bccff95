import Mathlib.Tactic.Common

/-! Postconditions of computations that may stop at a failed assertion. -/

namespace Outcome

variable {Failure First Second State Item : Type}

def Holds (allowed : Failure → Prop) (post : First → Prop) : Except Failure First → Prop
  | .ok value => post value
  | .error failure => allowed failure

variable {allowed : Failure → Prop} {post : First → Prop} {result : Except Failure First}

@[simp] theorem holds_ok (value : First) : Holds allowed post (.ok value) ↔ post value := Iff.rfl

@[simp] theorem holds_error (failure : Failure) :
    Holds allowed post (.error failure) ↔ allowed failure := Iff.rfl

theorem Holds.of_ok (holds : Holds allowed post result) {value : First}
    (success : result = .ok value) : post value := by
  rw [success] at holds
  exact holds

theorem Holds.of_error (holds : Holds allowed post result) {failure : Failure}
    (failed : result = .error failure) : allowed failure := by
  rw [failed] at holds
  exact holds

theorem Holds.mono (holds : Holds allowed post result) {wider : First → Prop}
    (implied : ∀ value, result = .ok value → post value → wider value) :
    Holds allowed wider result := by
  cases result with
  | error failure => exact holds
  | ok value => exact implied value rfl holds

theorem holds_of_success (success : ∀ value, result = .ok value → post value) :
    Holds (fun _ => True) post result := by
  cases result with
  | error failure => trivial
  | ok value => exact success value rfl

theorem holds_any (result : Except Failure First) :
    Holds (fun _ => True) (fun _ => True) result :=
  holds_of_success fun _ _ => trivial

theorem Holds.weaken (holds : Holds allowed post result) {wider : Failure → Prop}
    (implied : ∀ failure, allowed failure → wider failure) : Holds wider post result := by
  cases result with
  | error failure => exact implied failure holds
  | ok value => exact holds

theorem Holds.bind (first : Holds allowed post result) {next : First → Except Failure Second}
    {final : Second → Prop}
    (second : ∀ value, result = .ok value → post value → Holds allowed final (next value)) :
    Holds allowed final (result >>= next) := by
  cases result with
  | error failure => exact first
  | ok value => exact second value rfl first

/-- A property of the state that every item of a loop keeps. -/
theorem Holds.foldlM (invariant : State → Prop) (items : List Item)
    (step : State → Item → Except Failure State) {start : State} (base : invariant start)
    (keeps : ∀ state item, item ∈ items → invariant state →
      Holds allowed invariant (step state item)) :
    Holds allowed invariant (items.foldlM step start) := by
  induction items generalizing start with
  | nil => exact base
  | cons item rest ih =>
      rw [List.foldlM_cons]
      apply (keeps start item (by simp) base).bind
      intro state _ holds
      exact ih holds fun state other member => keeps state other (List.mem_cons_of_mem _ member)

theorem bind_ok {next : First → Except Failure Second} {value : Second} :
    (result >>= next) = .ok value ↔ ∃ middle, result = .ok middle ∧ next middle = .ok value := by
  cases result with
  | error failure => simp [Bind.bind, Except.bind]
  | ok middle => simp [Bind.bind, Except.bind]

@[simp] theorem ok_bind (value : First) (next : First → Except Failure Second) :
    ((.ok value : Except Failure First) >>= next) = next value := rfl

@[simp] theorem error_bind (failure : Failure) (next : First → Except Failure Second) :
    ((.error failure : Except Failure First) >>= next) = .error failure := rfl

end Outcome
