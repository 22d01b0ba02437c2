import Mathlib.Tactic.Common
import Symbolicate.Proofs.PortablePdb.Machine.Words

/-!
# Forms of compressed numbers

A compressed number has one of three forms (`Form`): the ones in front of its first byte tell how many bytes it takes,
and the low bits of these bytes are its value. Reading accepts just these forms (`bits?_eq_some_iff`), also where a
shorter one would do.

Main statement: a number that is written is read again, whatever follows, and a number that is read takes the bytes of
its form, is in range, and is written in no more bytes (`numbers_faithful`).
-/

namespace Symbolicate.PortablePdb.Compressed

open Machine (leadingOnes leadingOnes_eq)

variable {data front rest : Bytes} {ones size width raw n : Nat} {w : Int}

/-! ## Forms -/

/-- The forms of a compressed number: the ones in front of its first byte, how many bytes it takes, and how many bits its
value has. -/
inductive Form : (ones size width : Nat) → Prop
  | short : Form 0 1 7
  | middle : Form 1 2 14
  | long : Form 2 4 29

/-- The bytes are those of a compressed number whose value has `width` bits. -/
def HasForm (front : Bytes) (width : Nat) : Prop :=
  ∃ first, front.head? = some first ∧ Form (leadingOnes first) front.length width

theorem Form.width_bounds (h : Form ones size width) : 1 ≤ width ∧ width ≤ 29 := by
  cases h <;> omega

theorem HasForm.form (h : HasForm front width) : ∃ ones, Form ones front.length width := by
  obtain ⟨first, -, hform⟩ := h
  exact ⟨_, hform⟩

/-- The ones in front of a byte tell its range. -/
theorem range_of_leadingOnes (b : UInt8) : (leadingOnes b = 0 → b.toNat < 0x80) ∧
    (leadingOnes b = 1 → 0x80 ≤ b.toNat ∧ b.toNat < 0xC0) ∧ (leadingOnes b = 2 → 0xC0 ≤ b.toNat ∧ b.toNat < 0xE0) := by
  obtain ⟨hshort, hmiddle, hlong, hnone⟩ := leadingOnes_eq b
  omega

/-! ## Reading -/

/-- Bytes of one of the forms are read, whatever follows. -/
theorem bits?_of_hasForm (h : HasForm front width) (rest : Bytes) :
    bits? (front ++ rest) = some (Bytes.be front % 2 ^ width, width, rest) := by
  obtain ⟨b, hfirst, hform⟩ := h
  obtain ⟨hshort, hmiddle, hlong⟩ := range_of_leadingOnes b
  generalize leadingOnes b = ones at hform hshort hmiddle hlong
  generalize hsize : front.length = size at hform
  cases hform with
  | short =>
    obtain ⟨x, rfl⟩ := List.length_eq_one_iff.1 hsize
    obtain rfl : x = b := Option.some.inj hfirst
    have hb := hshort rfl
    have hvalue : Bytes.be [x] % 2 ^ 7 = x.toNat := by
      simp only [Bytes.be, List.foldl_cons, List.foldl_nil]
      omega
    rw [hvalue]
    simp [bits?, hb]
  | middle =>
    obtain ⟨x, c, rfl⟩ := List.length_eq_two.1 hsize
    obtain rfl : x = b := Option.some.inj hfirst
    obtain ⟨hl, hh⟩ := hmiddle rfl
    have hc := c.toNat_lt
    have hvalue : Bytes.be [x, c] % 2 ^ 14 = (x.toNat - 0x80) * 0x100 + c.toNat := by
      simp only [Bytes.be, List.foldl_cons, List.foldl_nil]
      omega
    rw [hvalue]
    simp [bits?, Nat.not_lt.2 hl, hh]
  | long =>
    obtain ⟨x, c, d, e, rfl⟩ : ∃ x c d e, front = [x, c, d, e] := by
      rcases front with _ | ⟨x, _ | ⟨c, _ | ⟨d, _ | ⟨e, _ | ⟨_, _⟩⟩⟩⟩⟩ <;> simp_all
    obtain rfl : x = b := Option.some.inj hfirst
    obtain ⟨hl, hh⟩ := hlong rfl
    have hc := c.toNat_lt
    have hd := d.toNat_lt
    have he := e.toNat_lt
    have hvalue : Bytes.be [x, c, d, e] % 2 ^ 29 =
        (x.toNat - 0xC0) * 0x1000000 + c.toNat * 0x10000 + d.toNat * 0x100 + e.toNat := by
      simp only [Bytes.be, List.foldl_cons, List.foldl_nil]
      omega
    rw [hvalue]
    simp [bits?, show ¬ x.toNat < 0x80 by omega, Nat.not_lt.2 hl, hh]

/-- What is read has one of the forms. -/
theorem hasForm_of_bits? (h : bits? data = some (raw, width, rest)) :
    ∃ front, data = front ++ rest ∧ HasForm front width := by
  unfold bits? at h
  split at h
  · cases h
  next b behind =>
    obtain ⟨hshort, hmiddle, hlong, -⟩ := leadingOnes_eq b
    -- the first byte tells the form
    dsimp only at h
    split at h
    · next h₁ =>
      cases h
      exact ⟨[b], rfl, b, rfl, by rw [hshort h₁]; exact .short⟩
    · next h₁ =>
      split at h
      · next h₂ =>
        split at h
        · next c behind =>
          cases h
          exact ⟨[b, c], rfl, b, rfl, by rw [hmiddle (by omega) h₂]; exact .middle⟩
        · cases h
      · next h₂ =>
        split at h
        · next h₃ =>
          split at h
          · next c d e behind =>
            cases h
            exact ⟨[b, c, d, e], rfl, b, rfl, by rw [hlong (by omega) h₃]; exact .long⟩
          · cases h
        · cases h

/-- **Reading accepts the three forms and no others**, and the low bits of the bytes are the value. -/
theorem bits?_eq_some_iff : bits? data = some (raw, width, rest) ↔
    ∃ front, data = front ++ rest ∧ HasForm front width ∧ raw = Bytes.be front % 2 ^ width := by
  constructor
  · intro h
    obtain ⟨front, rfl, hform⟩ := hasForm_of_bits? h
    rw [bits?_of_hasForm hform] at h
    cases h
    exact ⟨front, rfl, hform, rfl⟩
  · rintro ⟨front, rfl, hform, rfl⟩
    exact bits?_of_hasForm hform rest

theorem unsigned?_eq_some_iff : unsigned? data = some (n, rest) ↔
    ∃ front width, data = front ++ rest ∧ HasForm front width ∧ n = Bytes.be front % 2 ^ width := by
  simp only [unsigned?, Option.map_eq_some_iff, Prod.exists, Prod.mk.injEq]
  constructor
  · rintro ⟨raw, width, rest, hbits, rfl, rfl⟩
    obtain ⟨front, hdata, hform, hvalue⟩ := bits?_eq_some_iff.1 hbits
    exact ⟨front, width, hdata, hform, hvalue⟩
  · rintro ⟨front, width, hdata, hform, hvalue⟩
    exact ⟨n, width, rest, bits?_eq_some_iff.2 ⟨front, hdata, hform, hvalue⟩, rfl, rfl⟩

theorem signed?_eq_some_iff : signed? data = some (w, rest) ↔
    ∃ front width, data = front ++ rest ∧ HasForm front width ∧
      w = ofRotated width (Bytes.be front % 2 ^ width) := by
  simp only [signed?, Option.map_eq_some_iff, Prod.exists, Prod.mk.injEq]
  constructor
  · rintro ⟨raw, width, rest, hbits, rfl, rfl⟩
    obtain ⟨front, hdata, hform, rfl⟩ := bits?_eq_some_iff.1 hbits
    exact ⟨front, width, hdata, hform, rfl⟩
  · rintro ⟨front, width, hdata, hform, hvalue⟩
    exact ⟨_, width, rest, bits?_eq_some_iff.2 ⟨front, hdata, hform, rfl⟩, hvalue.symm, rfl⟩

/-! ## Ranges and lengths -/

/-- A number whose sign has been turned out of the lowest of `width` bits is a two's complement of as many bits. -/
theorem bounds_ofRotated (hwidth : 1 ≤ width) (hraw : raw < 2 ^ width) :
    -(2 ^ (width - 1) : Nat) ≤ ofRotated width raw ∧ ofRotated width raw < (2 ^ (width - 1) : Nat) := by
  have hpow : 2 ^ width = 2 * 2 ^ (width - 1) := by
    rw [← Nat.pow_succ', Nat.succ_eq_add_one, Nat.sub_add_cancel hwidth]
  rw [ofRotated, Nat.one_shiftLeft]
  split <;> omega

/-- An unsigned number takes no more bytes than any form with room for it. -/
theorem length_ofUnsigned_le (h : Form ones size width) (hn : n < 2 ^ width) : (ofUnsigned n).length ≤ size := by
  unfold ofUnsigned
  cases h with
  | short => rw [if_pos (show n < 0x80 from hn), List.length_singleton]
  | middle =>
    split
    · exact Nat.le_succ 1
    · rw [if_pos (show n < 0x4000 from hn)]
      exact Nat.le_refl 2
  | long =>
    split
    · simp
    · split <;> simp [ofBe_two, ofBe_four]

/-- A signed number takes no more bytes than any form with room for it. -/
theorem length_ofSigned_le (h : Form ones size width) (hl : -(2 ^ (width - 1) : Nat) ≤ w)
    (hh : w < (2 ^ (width - 1) : Nat)) : (ofSigned w).length ≤ size := by
  unfold ofSigned
  cases h with
  | short => rw [if_pos ⟨hl, hh⟩, List.length_singleton]
  | middle =>
    split
    · exact Nat.le_succ 1
    · rw [if_pos ⟨hl, hh⟩]
      exact Nat.le_refl 2
  | long =>
    split
    · simp
    · split <;> simp [ofBe_two, ofBe_four]

/-- **Compressed numbers are faithful.** A number in range that is written is read again, and nothing behind it is
touched. A number that is read takes one, two or four bytes by the ones in front of the first, is in range, and is
written in no more bytes. -/
theorem numbers_faithful (data rest : Bytes) :
    (∀ n < 2 ^ 29, unsigned? (ofUnsigned n ++ rest) = some (n, rest)) ∧
    (∀ n : Int, -2 ^ 28 ≤ n → n < 2 ^ 28 → signed? (ofSigned n ++ rest) = some (n, rest)) ∧
    (∀ n, unsigned? data = some (n, rest) → ∃ front width, data = front ++ rest ∧ HasForm front width ∧
      n < 2 ^ 29 ∧ (ofUnsigned n).length ≤ front.length) ∧
    (∀ n, signed? data = some (n, rest) → ∃ front width, data = front ++ rest ∧ HasForm front width ∧
      -2 ^ 28 ≤ n ∧ n < 2 ^ 28 ∧ (ofSigned n).length ≤ front.length) := by
  refine ⟨fun n hn => unsigned?_ofUnsigned hn rest, fun n hl hh => signed?_ofSigned hl hh rest, ?_, ?_⟩
  · intro n hread
    obtain ⟨front, width, hdata, hfront, rfl⟩ := unsigned?_eq_some_iff.1 hread
    obtain ⟨ones, hform⟩ := hfront.form
    have hlt : Bytes.be front % 2 ^ width < 2 ^ width := Nat.mod_lt _ (Nat.two_pow_pos width)
    have hle : 2 ^ width ≤ 2 ^ 29 := Nat.pow_le_pow_right (by omega) hform.width_bounds.2
    exact ⟨front, width, hdata, hfront, Nat.lt_of_lt_of_le hlt hle, length_ofUnsigned_le hform hlt⟩
  · intro n hread
    obtain ⟨front, width, hdata, hfront, rfl⟩ := signed?_eq_some_iff.1 hread
    obtain ⟨ones, hform⟩ := hfront.form
    obtain ⟨hone, hwidth⟩ := hform.width_bounds
    obtain ⟨hl, hh⟩ := bounds_ofRotated hone (Nat.mod_lt (Bytes.be front) (Nat.two_pow_pos width))
    have hle : 2 ^ (width - 1) ≤ 2 ^ 28 := Nat.pow_le_pow_right (by omega) (by omega)
    exact ⟨front, width, hdata, hfront, by omega, by omega, length_ofSigned_le hform hl hh⟩

/-- Minus two is also read from four bytes, and is written in one. -/
theorem numbers_faithful_wide : signed? [0xDF, 0xFF, 0xFF, 0xFD, 7] = some (-2, [7]) ∧
    ∃ front width, [0xDF, 0xFF, 0xFF, 0xFD, 7] = front ++ [7] ∧ HasForm front width ∧
      -2 ^ 28 ≤ (-2 : Int) ∧ (-2 : Int) < 2 ^ 28 ∧ (ofSigned (-2)).length ≤ front.length := by
  have hread : signed? [0xDF, 0xFF, 0xFF, 0xFD, 7] = some (-2, [7]) := by decide
  obtain ⟨-, -, -, hsigned⟩ := numbers_faithful [0xDF, 0xFF, 0xFF, 0xFD, 7] [7]
  exact ⟨hread, hsigned (-2) hread⟩

end Symbolicate.PortablePdb.Compressed
