import Mathlib.Algebra.Group.Int.Defs
import Mathlib.Algebra.Group.Nat.Defs
import Mathlib.Tactic.Common
import Symbolicate.PortablePdb.Compressed
import Symbolicate.Proofs.Text.Utf8

/-!
# Compressed numbers read back

The three forms of a compressed number are told apart by their first byte (`bits?_short`, `bits?_middle`, `bits?_long`),
so a number that was written is read again, and nothing behind it is touched (`unsigned?_ofUnsigned`,
`signed?_ofSigned`).
-/

namespace Symbolicate.PortablePdb.Compressed

open Utf8 (toNat_byte)

/-! ## The three forms -/

theorem ofBe_two (n : Nat) : Bytes.ofBe 2 n = [UInt8.ofNat (n / 256), UInt8.ofNat n] := rfl

theorem ofBe_four (n : Nat) : Bytes.ofBe 4 n =
    [UInt8.ofNat (n / 256 / 256 / 256), UInt8.ofNat (n / 256 / 256), UInt8.ofNat (n / 256), UInt8.ofNat n] := rfl

theorem bits?_short {n : Nat} (h : n < 0x80) (rest : Bytes) : bits? (UInt8.ofNat n :: rest) = some (n, 7, rest) := by
  simp only [bits?, toNat_byte (show n < 256 by omega), if_pos h]

theorem bits?_middle {n : Nat} (h : n < 0x4000) (rest : Bytes) :
    bits? (Bytes.ofBe 2 (0x8000 + n) ++ rest) = some (n, 14, rest) := by
  have hb := toNat_byte (show (0x8000 + n) / 256 < 256 by omega)
  simp only [ofBe_two, List.cons_append, List.nil_append, bits?, hb,
    if_neg (show ¬ (0x8000 + n) / 256 < 0x80 by omega), if_pos (show (0x8000 + n) / 256 < 0xC0 by omega),
    UInt8.toNat_ofNat', Option.some.injEq, Prod.mk.injEq, and_true]
  omega

theorem bits?_long {n : Nat} (h : n < 2 ^ 29) (rest : Bytes) :
    bits? (Bytes.ofBe 4 (0xC0000000 + n) ++ rest) = some (n, 29, rest) := by
  have hb := toNat_byte (show (0xC0000000 + n) / 256 / 256 / 256 < 256 by omega)
  simp only [ofBe_four, List.cons_append, List.nil_append, bits?, hb,
    if_neg (show ¬ (0xC0000000 + n) / 256 / 256 / 256 < 0x80 by omega),
    if_neg (show ¬ (0xC0000000 + n) / 256 / 256 / 256 < 0xC0 by omega),
    if_pos (show (0xC0000000 + n) / 256 / 256 / 256 < 0xE0 by omega),
    UInt8.toNat_ofNat', Option.some.injEq, Prod.mk.injEq, and_true]
  omega

/-! ## Numbers -/

/-- **An unsigned number reads back, whatever follows.** -/
theorem unsigned?_ofUnsigned {n : Nat} (h : n < 2 ^ 29) (rest : Bytes) :
    unsigned? (ofUnsigned n ++ rest) = some (n, rest) := by
  unfold ofUnsigned
  split
  · next h₁ => rw [List.cons_append, unsigned?, List.nil_append, bits?_short h₁]; rfl
  · split
    · next h₂ => rw [unsigned?, bits?_middle h₂]; rfl
    · rw [unsigned?, Nat.mod_eq_of_lt (by omega), bits?_long h]; rfl

theorem rotated_lt {w : Nat} (hw : 0 < w) (n : Int) : rotated w n < 2 ^ w := by
  obtain ⟨w, rfl⟩ : ∃ v, w = v + 1 := ⟨w - 1, by omega⟩
  have hpos : (0 : Int) < (2 ^ w : Nat) := by exact_mod_cast Nat.two_pow_pos w
  have hlt := Int.emod_lt_of_pos n hpos
  have hge := Int.emod_nonneg n (Int.ne_of_gt hpos)
  rw [rotated, Nat.add_sub_cancel, Nat.one_shiftLeft, Nat.pow_succ]
  split <;> omega

/-- Turning the sign out of the lowest bit undoes turning it in. -/
theorem ofRotated_rotated {w : Nat} {n : Int} (hl : -(2 ^ (w - 1) : Nat) ≤ n) (hh : n < (2 ^ (w - 1) : Nat)) :
    ofRotated w (rotated w n) = n := by
  have hpos : (0 : Int) < (2 ^ (w - 1) : Nat) := by exact_mod_cast Nat.two_pow_pos _
  rw [ofRotated, rotated, Nat.one_shiftLeft]
  by_cases hn : n < 0
  · have hmod : n % (2 ^ (w - 1) : Nat) = n + (2 ^ (w - 1) : Nat) := by
      rw [← Int.add_emod_right, Int.emod_eq_of_lt (by omega) (by omega)]
    rw [if_pos hn, hmod, if_neg (by omega)]
    omega
  · rw [if_neg hn, Int.emod_eq_of_lt (by omega) hh, if_pos (by omega)]
    omega

/-- A signed number reads back from value bits that fit it. -/
theorem signed?_of_bits? {data rest : Bytes} {w : Nat} {n : Int} (h : bits? data = some (rotated w n, w, rest))
    (hl : -(2 ^ (w - 1) : Nat) ≤ n) (hh : n < (2 ^ (w - 1) : Nat)) : signed? data = some (n, rest) := by
  simp only [signed?, h, Option.map_some, ofRotated_rotated hl hh]

/-- **A signed number reads back, whatever follows.** -/
theorem signed?_ofSigned {n : Int} (hl : -2 ^ 28 ≤ n) (hh : n < 2 ^ 28) (rest : Bytes) :
    signed? (ofSigned n ++ rest) = some (n, rest) := by
  unfold ofSigned
  split
  · next h => exact signed?_of_bits? (bits?_short (rotated_lt (by omega) n) rest) (by omega) (by omega)
  · split
    · next h => exact signed?_of_bits? (bits?_middle (rotated_lt (by omega) n) rest) (by omega) (by omega)
    · exact signed?_of_bits? (bits?_long (rotated_lt (by omega) n) rest) (by omega) (by omega)

/-! ## First bytes -/

theorem length_ofUnsigned_pos (n : Nat) : 0 < (ofUnsigned n).length := by
  unfold ofUnsigned
  split
  · simp
  · split <;> simp [Bytes.ofBe, Bytes.length_ofLe]

/-- Only zero starts with a zero byte. -/
theorem ofUnsigned_head {n : Nat} (h : n < 2 ^ 29) : ∃ b rest, ofUnsigned n = b :: rest ∧ (b = 0 → n = 0) := by
  have hzero : ∀ {k : Nat}, k < 256 → UInt8.ofNat k = 0 → k = 0 := fun hk h0 => by
    have := congrArg UInt8.toNat h0
    rwa [toNat_byte hk] at this
  unfold ofUnsigned
  split
  · exact ⟨_, _, rfl, fun h0 => hzero (by omega) h0⟩
  · split
    · exact ⟨_, _, ofBe_two _, fun h0 => by have := hzero (by omega) h0; omega⟩
    · exact ⟨_, _, ofBe_four _, fun h0 => by have := hzero (by omega) h0; omega⟩

end Symbolicate.PortablePdb.Compressed
