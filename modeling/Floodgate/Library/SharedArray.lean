import Mathlib.Algebra.GroupWithZero.Nat
import Mathlib.Tactic.Common

/-! Windows of one array: what is read through a window, and the writes that it does not see. -/

namespace SharedArray

variable {α : Type} {lo mid hi at' n : Nat} {piece cells : List α}

def read (lo hi : Nat) (cells : List α) : List α := (cells.take hi).drop lo

def write (lo : Nat) (piece cells : List α) : List α :=
  cells.take lo ++ (piece ++ cells.drop (lo + piece.length))

theorem read_getElem? (i : Nat) :
    (read lo hi cells)[i]? = if lo + i < hi then cells[lo + i]? else none := by
  rw [read, List.getElem?_drop, List.getElem?_take]

theorem write_getElem? (fits : lo + piece.length ≤ cells.length) (i : Nat) :
    (write lo piece cells)[i]? =
      if i < lo then cells[i]?
      else if i < lo + piece.length then piece[i - lo]?
      else cells[i]? := by
  have start : (cells.take lo).length = lo := List.length_take_of_le (by omega)
  rw [write, List.getElem?_append, start]
  split_ifs with before inside
  · rw [List.getElem?_take, if_pos before]
  · rw [List.getElem?_append_left (by omega)]
  · rw [List.getElem?_append_right (by omega), List.getElem?_drop]
    congr 1
    omega

theorem read_length (inside : hi ≤ cells.length) : (read lo hi cells).length = hi - lo := by
  rw [read, List.length_drop, List.length_take_of_le inside]

theorem write_length (fits : lo + piece.length ≤ cells.length) :
    (write lo piece cells).length = cells.length := by
  rw [write, List.length_append, List.length_append, List.length_take_of_le (by omega),
    List.length_drop]
  omega

theorem read_none (order : hi ≤ lo) : read lo hi cells = [] := by
  rw [read, List.drop_eq_nil_iff, List.length_take]
  omega

theorem read_append (first : lo ≤ mid) (second : mid ≤ hi) :
    read lo mid cells ++ read mid hi cells = read lo hi cells := by
  have parts : (cells.take hi).take mid = cells.take mid := by
    rw [List.take_take, Nat.min_eq_left second]
  calc read lo mid cells ++ read mid hi cells
      = ((cells.take hi).take mid).drop lo ++ (cells.take hi).drop mid := by rw [parts, read, read]
    _ = (cells.take hi).drop lo := by
      rw [List.drop_take]
      have moved : (cells.take hi).drop mid = ((cells.take hi).drop lo).drop (mid - lo) := by
        rw [List.drop_drop, Nat.add_sub_cancel' first]
      rw [moved, List.take_append_drop]

theorem read_take : (read lo hi cells).take n = read lo (lo + min (hi - lo) n) cells := by
  apply List.ext_getElem?
  intro i
  rw [List.getElem?_take, read_getElem?, read_getElem?]
  split_ifs <;> first | rfl | omega

theorem write_nil : write lo [] cells = cells := by
  rw [write, List.length_nil, Nat.add_zero, List.nil_append, List.take_append_drop]

theorem write_cons {first : α} (fits : lo + piece.length < cells.length) :
    write (lo + 1) piece (write lo [first] cells) = write lo (first :: piece) cells := by
  have single : lo + [first].length ≤ cells.length := by
    rw [List.length_singleton]
    omega
  have rest : lo + 1 + piece.length ≤ (write lo [first] cells).length := by
    rw [write_length single]
    omega
  apply List.ext_getElem?
  intro i
  rw [write_getElem? rest, write_getElem? single,
    write_getElem? (by rw [List.length_cons]; omega), List.length_singleton, List.length_cons]
  split_ifs with low here before inside <;> first | rfl | omega | skip
  · have place : i - lo = 0 := by omega
    rw [place]
    rfl
  · have place : i - lo = i - (lo + 1) + 1 := by omega
    rw [place, List.getElem?_cons_succ]

theorem read_write_other (fits : at' + piece.length ≤ cells.length)
    (apart : hi ≤ at' ∨ at' + piece.length ≤ lo) :
    read lo hi (write at' piece cells) = read lo hi cells := by
  apply List.ext_getElem?
  intro i
  rw [read_getElem?, read_getElem?, write_getElem? fits]
  split_ifs <;> first | rfl | omega

end SharedArray
