import Symbolicate.Bytes.Basic

/-!
# Compressed numbers

Numbers of ECMA-335, II.23.2: one, two or four bytes, told apart by the leading one bits of the first byte, with 7, 14
or 29 bits of value, highest first. A signed number keeps its sign in the lowest of these bits.
-/

namespace Symbolicate.PortablePdb.Compressed

/-! ## Reading -/

/-- The value bits at the start of `data`, their number, and the bytes behind them. -/
def bits? : Bytes → Option (Nat × Nat × Bytes)
  | [] => none
  | b :: rest =>
    let b := b.toNat
    if b < 0x80 then some (b, 7, rest)
    else if b < 0xC0 then
      match rest with
      | c :: rest => some ((b - 0x80) * 0x100 + c.toNat, 14, rest)
      | _ => none
    else if b < 0xE0 then
      match rest with
      | c :: d :: e :: rest =>
        some ((b - 0xC0) * 0x1000000 + c.toNat * 0x10000 + d.toNat * 0x100 + e.toNat, 29, rest)
      | _ => none
    else none

/-- The number in `width` bits whose lowest bit is the sign and whose other bits are a two's complement without it. -/
def ofRotated (width raw : Nat) : Int :=
  if raw % 2 = 0 then (raw / 2 : Nat) else (raw / 2 : Nat) - (1 <<< (width - 1) : Nat)

/-- The unsigned number at the start of `data`, and the bytes behind it. -/
def unsigned? (data : Bytes) : Option (Nat × Bytes) :=
  (bits? data).map fun (raw, _, rest) => (raw, rest)

/-- The signed number at the start of `data`, and the bytes behind it. -/
def signed? (data : Bytes) : Option (Int × Bytes) :=
  (bits? data).map fun (raw, width, rest) => (ofRotated width raw, rest)

/-! ## Writing -/

/-- The shortest form of an unsigned number below 2^29. -/
def ofUnsigned (n : Nat) : Bytes :=
  if n < 0x80 then [UInt8.ofNat n]
  else if n < 0x4000 then Bytes.ofBe 2 (0x8000 + n)
  else Bytes.ofBe 4 (0xC0000000 + n % 0x40000000)

/-- The low `width - 1` bits of a number, with its sign behind them. -/
def rotated (width : Nat) (n : Int) : Nat :=
  2 * (n % (1 <<< (width - 1) : Nat)).toNat + if n < 0 then 1 else 0

/-- The shortest form of a signed number from -2^28 to 2^28 - 1. -/
def ofSigned (n : Int) : Bytes :=
  if -0x40 ≤ n ∧ n < 0x40 then [UInt8.ofNat (rotated 7 n)]
  else if -0x2000 ≤ n ∧ n < 0x2000 then Bytes.ofBe 2 (0x8000 + rotated 14 n)
  else Bytes.ofBe 4 (0xC0000000 + rotated 29 n)

end Symbolicate.PortablePdb.Compressed
