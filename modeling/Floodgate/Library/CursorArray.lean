import Mathlib.Tactic.Common

/-! An array of a fixed capacity with one cursor, which writes and reads move. An access out of range
gives `none`. -/

structure CursorArray (Cell : Type) (capacity : Nat) where
  index : Nat
  cells : List Cell
  length_eq : cells.length = capacity

namespace CursorArray

variable {Cell : Type} {capacity : Nat}

def filled (capacity : Nat) (blank : Cell) : CursorArray Cell capacity :=
  ⟨0, List.replicate capacity blank, List.length_replicate⟩

def push (array : CursorArray Cell capacity) (cell : Cell) : Option (CursorArray Cell capacity) :=
  if array.index < capacity then
    some ⟨array.index + 1, array.cells.set array.index cell, by
      rw [List.length_set, array.length_eq]⟩
  else none

def read (array : CursorArray Cell capacity) (i : Nat) : Option Cell := array.cells[i]?

def next (array : CursorArray Cell capacity) : Option (Cell × CursorArray Cell capacity) :=
  (array.read array.index).map fun cell => (cell, { array with index := array.index + 1 })

def rewind (array : CursorArray Cell capacity) : CursorArray Cell capacity :=
  { array with index := 0 }

structure Written (blank : Cell) (values : List Cell) (array : CursorArray Cell capacity) : Prop where
  index : array.index = values.length
  cells : array.cells = values ++ List.replicate (capacity - values.length) blank

theorem Written.push {blank : Cell} {values : List Cell} {array : CursorArray Cell capacity}
    (written : Written blank values array) (room : values.length < capacity) (cell : Cell) :
    ∃ after, array.push cell = some after ∧ Written blank (values ++ [cell]) after := by
  have inside : array.index < capacity := by
    rw [written.index]
    exact room
  refine ⟨_, if_pos inside, ?_, ?_⟩
  · rw [List.length_append, List.length_singleton]
    exact congrArg (· + 1) written.index
  · obtain ⟨left, more⟩ : ∃ left, capacity - values.length = left + 1 :=
      ⟨capacity - values.length - 1, by omega⟩
    have rest : capacity - (values ++ [cell]).length = left := by
      rw [List.length_append, List.length_singleton]
      omega
    simp only
    rw [rest, written.cells, written.index, more, List.replicate_succ, List.set_append_right _ _
      (Nat.le_refl _), Nat.sub_self, List.set_cons_zero, List.append_assoc, List.singleton_append]

structure Reading (past future : List Cell) (array : CursorArray Cell capacity) : Prop where
  index : array.index = past.length
  cells : array.cells = past ++ future

theorem Written.reading {blank : Cell} {values : List Cell} {array : CursorArray Cell capacity}
    (written : Written blank values array) :
    Reading [] (values ++ List.replicate (capacity - values.length) blank) array.rewind :=
  ⟨rfl, written.cells⟩

theorem Reading.next {past future : List Cell} {cell : Cell} {array : CursorArray Cell capacity}
    (reading : Reading past (cell :: future) array) :
    ∃ after, array.next = some (cell, after) ∧ Reading (past ++ [cell]) future after := by
  refine ⟨{ array with index := array.index + 1 }, ?_, ?_, ?_⟩
  · have here : array.read array.index = some cell := by
      unfold CursorArray.read
      rw [reading.index, reading.cells, List.getElem?_append_right (Nat.le_refl _), Nat.sub_self]
      rfl
    unfold CursorArray.next
    rw [here]
    rfl
  · rw [List.length_append, List.length_singleton]
    exact congrArg (· + 1) reading.index
  · rw [List.append_assoc, List.singleton_append]
    exact reading.cells

end CursorArray
