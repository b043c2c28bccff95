import Floodgate.Library.ByteReader

/-! Numbers in place within a byte string, least significant byte first. -/

namespace ByteMemory

open ByteReader

def load (n offset : Nat) (bytes : List UInt8) : Nat := value ((bytes.drop offset).take n)

def store (n offset v : Nat) (bytes : List UInt8) : List UInt8 :=
  bytes.take offset ++ (littleEndian n v ++ bytes.drop (offset + n))

section Pieces

variable {n offset v : Nat} {before piece after : List UInt8}

theorem load_piece (start : before.length = offset) (size : piece.length = n) :
    load n offset (before ++ (piece ++ after)) = value piece := by
  rw [load, List.drop_left' start, List.take_left' size]

theorem store_piece (start : before.length = offset) (size : piece.length = n) :
    store n offset v (before ++ (piece ++ after)) = before ++ (littleEndian n v ++ after) := by
  have whole : (before ++ piece).length = offset + n := by
    rw [List.length_append, start, size]
  rw [store, List.take_left' start, ← List.append_assoc before piece, List.drop_left' whole]

end Pieces

theorem littleEndian_append (m n v : Nat) :
    littleEndian m v ++ littleEndian n (v / 256 ^ m) = littleEndian (m + n) v := by
  induction m generalizing v with
  | zero => simp [littleEndian]
  | succ m rest =>
      have next := rest (v / 256)
      rw [Nat.div_div_eq_div_mul, ← Nat.pow_succ'] at next
      rw [littleEndian, List.cons_append, next, Nat.succ_add, littleEndian]

theorem littleEndian_mod (n v : Nat) : littleEndian n (v % 256 ^ n) = littleEndian n v := by
  induction n generalizing v with
  | zero => rfl
  | succ n rest =>
      have low : UInt8.ofNat (v % 256 ^ (n + 1)) = UInt8.ofNat v := by
        apply UInt8.toNat_inj.mp
        rw [UInt8.toNat_ofNat', UInt8.toNat_ofNat', Nat.pow_succ']
        exact Nat.mod_mul_right_mod v 256 (256 ^ n)
      rw [littleEndian, littleEndian, low, Nat.pow_succ', Nat.mod_mul_right_div_self, rest]

section Slots

/-! Values of one size, written one after another. -/

variable {α : Type} {write : α → List UInt8} {size : Nat}

theorem flatMap_length (sized : ∀ a, (write a).length = size) (values : List α) :
    (values.flatMap write).length = values.length * size := by
  induction values with
  | nil => simp
  | cons a others rest =>
      rw [List.flatMap_cons, List.length_append, sized, rest, List.length_cons, Nat.succ_mul,
        Nat.add_comm]

/-- The bytes around the value in slot `i`. -/
theorem flatMap_slot (values : List α) {i : Nat} (inside : i < values.length) :
    values.flatMap write = (values.take i).flatMap write ++
      (write values[i] ++ (values.drop (i + 1)).flatMap write) := by
  have split : values = values.take i ++ values[i] :: values.drop (i + 1) := by
    rw [List.getElem_cons_drop, List.take_append_drop]
  calc values.flatMap write
      = (values.take i ++ values[i] :: values.drop (i + 1)).flatMap write :=
        congrArg (List.flatMap write) split
    _ = _ := by rw [List.flatMap_append, List.flatMap_cons]

theorem flatMap_set (values : List α) {i : Nat} (inside : i < values.length) (a : α) :
    (values.set i a).flatMap write = (values.take i).flatMap write ++
      (write a ++ (values.drop (i + 1)).flatMap write) := by
  rw [List.set_eq_take_append_cons_drop, if_pos inside, List.flatMap_append, List.flatMap_cons]

end Slots

end ByteMemory
