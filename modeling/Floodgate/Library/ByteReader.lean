import Mathlib.Data.Nat.Digits.Defs
import Mathlib.Data.Vector.Basic

/-! Readers of byte strings. A reader consumes a prefix of the bytes at its iterator, and fails
where there are too few. -/

namespace ByteReader

abbrev Reader (α : Type) := StateT (List UInt8) Option α

def take (n : Nat) : Reader (List UInt8) := fun rest =>
  if n ≤ rest.length then some (rest.take n, rest.drop n) else none

def skip (n : Nat) : Reader Unit := fun rest =>
  if n ≤ rest.length then some ((), rest.drop n) else none

def times {α : Type} (r : Reader α) : (n : Nat) → Reader (List.Vector α n)
  | 0 => pure List.Vector.nil
  | n + 1 => do
      let first ← r
      let others ← times r n
      pure (first ::ᵥ others)

def littleEndian : Nat → Nat → List UInt8
  | 0, _ => []
  | n + 1, v => UInt8.ofNat v :: littleEndian n (v / 256)

def bigEndian (n v : Nat) : List UInt8 := (littleEndian n v).reverse

/-- The number that bytes stand for, least significant first. -/
def value (bytes : List UInt8) : Nat := Nat.ofDigits 256 (bytes.map UInt8.toNat)

def readLittle (n : Nat) : Reader Nat := value <$> take n

def readBig (n : Nat) : Reader Nat := (fun bytes => value bytes.reverse) <$> take n

/-- The reader takes exactly these bytes, whatever follows them, and returns this value. -/
def Reads {α : Type} (r : Reader α) (bytes : List UInt8) (v : α) : Prop :=
  ∀ rest, r (bytes ++ rest) = some (v, rest)

section Rules

variable {α β : Type} {r : Reader α} {f : α → Reader β} {bytes more : List UInt8} {v : α} {w : β}

theorem reads_pure : Reads (pure v) [] v := fun _ => rfl

theorem reads_guard {p : Prop} [Decidable p] (holds : p) : Reads (guard p) [] () := by
  intro rest
  rw [guard, if_pos holds]
  rfl

theorem Reads.bind (first : Reads r bytes v) (next : Reads (f v) more w) :
    Reads (r >>= f) (bytes ++ more) w := by
  intro rest
  show (r (bytes ++ more ++ rest)).bind (fun read => f read.1 read.2) = some (w, rest)
  rw [List.append_assoc, first (more ++ rest)]
  exact next rest

theorem Reads.andThen {s : Reader β} (first : Reads r bytes v) (second : Reads s more w) :
    Reads (r >>= fun _ => s) (bytes ++ more) w := first.bind second

theorem Reads.map (read : Reads r bytes v) (g : α → β) : Reads (g <$> r) bytes (g v) := by
  intro rest
  show (r (bytes ++ rest)).bind (fun read => some (g read.1, read.2)) = some (g v, rest)
  rw [read rest]
  rfl

theorem Reads.last (read : Reads r bytes v) (g : α → β) :
    Reads (r >>= fun found => pure (g found)) bytes (g v) := read.map g

theorem Reads.run (read : Reads r bytes v) : r bytes = some (v, []) := by
  have whole := read []
  rwa [List.append_nil] at whole

theorem reads_take : Reads (take bytes.length) bytes bytes := by
  intro rest
  simp only [take, List.length_append]
  rw [if_pos (by omega), List.take_left, List.drop_left]

theorem reads_skip {n : Nat} (exact_length : bytes.length = n) : Reads (skip n) bytes () := by
  intro rest
  simp only [skip, List.length_append]
  rw [if_pos (by omega), List.drop_left' exact_length]

theorem Reads.skip {n k : Nat} (piece : bytes.length = k)
    (others : Reads (ByteReader.skip n >>= fun _ => r) more v) :
    Reads (ByteReader.skip (n + k) >>= fun _ => r) (bytes ++ more) v := by
  intro rest
  have remaining : (ByteReader.skip n (more ++ rest)).bind (fun passed => r passed.2) =
      some (v, rest) := others rest
  show (ByteReader.skip (n + k) (bytes ++ more ++ rest)).bind (fun passed => r passed.2) =
    some (v, rest)
  rw [List.append_assoc]
  unfold ByteReader.skip at remaining ⊢
  by_cases enough : n ≤ (more ++ rest).length
  · rw [if_pos enough] at remaining
    rw [if_pos (by rw [List.length_append]; omega)]
    have dropped : (bytes ++ (more ++ rest)).drop (n + k) = (more ++ rest).drop n := by
      rw [Nat.add_comm, ← piece, List.drop_length_add_append]
    rw [dropped]
    exact remaining
  · rw [if_neg enough] at remaining
    contradiction

theorem Reads.skip_none (read : Reads r bytes v) :
    Reads (ByteReader.skip 0 >>= fun _ => r) bytes v := by
  intro rest
  exact read rest

theorem reads_times {write : α → List UInt8} (each : ∀ a, Reads r (write a) a) {n : Nat}
    (values : List.Vector α n) : Reads (times r n) (values.toList.flatMap write) values := by
  induction values using List.Vector.inductionOn with
  | nil => exact reads_pure
  | cons ih =>
      rename_i first others
      rw [List.Vector.toList_cons, List.flatMap_cons]
      exact (each first).bind (ih.last (first ::ᵥ ·))

end Rules

section Numbers

@[simp] theorem littleEndian_length (n v : Nat) : (littleEndian n v).length = n := by
  induction n generalizing v with
  | zero => rfl
  | succ n ih => simp only [littleEndian, List.length_cons, ih]

@[simp] theorem bigEndian_length (n v : Nat) : (bigEndian n v).length = n := by
  rw [bigEndian, List.length_reverse, littleEndian_length]

theorem value_littleEndian (n v : Nat) : value (littleEndian n v) = v % 256 ^ n := by
  induction n generalizing v with
  | zero => simp [littleEndian, value, Nat.mod_one]
  | succ n ih =>
      have digits : value (littleEndian (n + 1) v) =
          v % 256 + 256 * value (littleEndian n (v / 256)) := by
        simp [littleEndian, value, Nat.ofDigits_cons]
      rw [digits, ih, Nat.pow_succ', Nat.mod_mul]

theorem reads_little {n v : Nat} (fits : v < 256 ^ n) :
    Reads (readLittle n) (littleEndian n v) v := by
  have read : Reads (take (littleEndian n v).length) (littleEndian n v) (littleEndian n v) :=
    reads_take
  have number := read.map value
  rwa [littleEndian_length, value_littleEndian, Nat.mod_eq_of_lt fits] at number

theorem reads_big {n v : Nat} (fits : v < 256 ^ n) : Reads (readBig n) (bigEndian n v) v := by
  have read : Reads (take (bigEndian n v).length) (bigEndian n v) (bigEndian n v) := reads_take
  have number := read.map fun bytes => value bytes.reverse
  rw [bigEndian_length] at number
  rwa [bigEndian, List.reverse_reverse, value_littleEndian, Nat.mod_eq_of_lt fits] at number

end Numbers

end ByteReader
