/-!
# Byte strings

Contents of files, streams and lines as lists of bytes: bounds-checked slices, little- and big-endian numbers, and
the numbers found at an offset. Every reader gives `none` when the bytes end too early, so no reader has a
precondition.

Main statement: `Bytes.length_slice?` (a slice has the length asked for).
-/

namespace Symbolicate

/-- A byte string: the contents of a file, of a stream or of a line. -/
abbrev Bytes := List UInt8

namespace Bytes

/-! ## Slices -/

/-- The bytes from `start` on; `none` when the string ends before `start`. -/
def from? (b : Bytes) (start : Nat) : Option Bytes :=
  if start ≤ b.length then some (b.drop start) else none

/-- The `len` bytes from `start` on; `none` when the string ends before the last of them. -/
def slice? (b : Bytes) (start len : Nat) : Option Bytes :=
  if start + len ≤ b.length then some ((b.drop start).take len) else none

/-- The bytes before the first NUL, or all of them. -/
def untilNul (b : Bytes) : Bytes := b.takeWhile (· ≠ 0)

theorem length_slice? {b s : Bytes} {start len : Nat} (h : slice? b start len = some s) : s.length = len := by
  unfold slice? at h
  split at h
  · cases h
    simp only [List.length_take, List.length_drop]
    omega
  · cases h

/-! ## Numbers -/

/-- The number written little-endian by the whole string. -/
def le : Bytes → Nat
  | [] => 0
  | b :: rest => b.toNat + 256 * le rest

/-- The number written big-endian by the whole string. -/
def be (b : Bytes) : Nat := b.foldl (fun n x => 256 * n + x.toNat) 0

/-- The `width` low bytes of a number, lowest first. -/
def ofLe : Nat → Nat → Bytes
  | 0, _ => []
  | width + 1, n => UInt8.ofNat n :: ofLe width (n / 256)

/-- The `width` low bytes of a number, highest first. -/
def ofBe (width n : Nat) : Bytes := (ofLe width n).reverse

/-- The one-byte number at `pos`. -/
def u8? (b : Bytes) (pos : Nat) : Option Nat := (slice? b pos 1).map le

/-- The two-byte little-endian number at `pos`. -/
def u16? (b : Bytes) (pos : Nat) : Option Nat := (slice? b pos 2).map le

/-- The four-byte little-endian number at `pos`. -/
def u32? (b : Bytes) (pos : Nat) : Option Nat := (slice? b pos 4).map le

/-- The eight-byte little-endian number at `pos`. -/
def u64? (b : Bytes) (pos : Nat) : Option Nat := (slice? b pos 8).map le

theorem length_ofLe (width n : Nat) : (ofLe width n).length = width := by
  induction width generalizing n with
  | zero => rfl
  | succ width ih => simp [ofLe, ih]

/-! ## Sizes -/

/-- The sum of sizes. -/
def total (sizes : List Nat) : Nat := sizes.foldr (· + ·) 0

@[simp] theorem total_nil : total [] = 0 := rfl

@[simp] theorem total_cons (size : Nat) (sizes : List Nat) : total (size :: sizes) = size + total sizes := rfl

/-! ## Padding -/

/-- The next multiple of four, which is where padded structures continue. -/
def roundUp4 (n : Nat) : Nat := (n + 3) / 4 * 4

/-- The string followed by the zero bytes that bring its length to a multiple of four. -/
def pad4 (b : Bytes) : Bytes := b ++ List.replicate (roundUp4 b.length - b.length) 0

end Bytes

end Symbolicate
