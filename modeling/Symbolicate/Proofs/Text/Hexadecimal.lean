import Mathlib.Tactic.Common
import Symbolicate.Text.Ascii

/-!
# Hexadecimal numbers read back

A number is written with hexadecimal digits (`isHexDigit_of_mem_hexLower`) that spell it again (`ofHex_map_toDigits`),
also with zeros in front (`ofHex_zeroPadded`). Hexadecimal digits are ASCII (`lt_of_isHexDigit`). Decimal digits are the
hexadecimal digits of another number (`hexUpper_ofHex_decimal`), which is the same one below ten
(`ofHex_decimal_eq_self_iff`).
-/

namespace Symbolicate.Text

/-! ## Digits -/

theorem hexValue?_digitChar {d : Nat} (h : d < 16) : hexValue? d.digitChar = some d := by
  have hall : ∀ d < 16, hexValue? (Nat.digitChar d) = some d := by decide
  exact hall d h

theorem hexValue?_toUpper_digitChar {d : Nat} (h : d < 16) : hexValue? (Nat.digitChar d).toUpper = some d := by
  have hall : ∀ d < 16, hexValue? (Nat.digitChar d).toUpper = some d := by decide
  exact hall d h

theorem lt_of_isHexDigit {c : Char} (h : isHexDigit c = true) : c.toNat < 0x80 := by
  have hle : ∀ d : Char, c ≤ d → c.toNat ≤ d.toNat := fun d hd => hd
  unfold isHexDigit hexValue? at h
  split at h
  · next hrange => exact Nat.lt_of_le_of_lt (hle '9' hrange.2) (by decide)
  · split at h
    · next hrange => exact Nat.lt_of_le_of_lt (hle 'f' hrange.2) (by decide)
    · split at h
      · next hrange => exact Nat.lt_of_le_of_lt (hle 'F' hrange.2) (by decide)
      · cases h

/-- The digits of a number are those below sixteen. -/
theorem exists_digit_of_mem_toDigits {n : Nat} {c : Char} (h : c ∈ Nat.toDigits 16 n) :
    ∃ d < 16, c = Nat.digitChar d := by
  induction n using Nat.strongRecOn with
  | ind n ih =>
    rw [Nat.toDigits_eq_if (by omega)] at h
    split at h
    · next hlt => exact ⟨n, hlt, List.mem_singleton.1 h⟩
    · obtain hmem | hmem := List.mem_append.1 h
      · exact ih (n / 16) (by omega) hmem
      · exact ⟨n % 16, by omega, List.mem_singleton.1 hmem⟩

theorem isHexDigit_of_mem_hexLower {n : Nat} {c : Char} (h : c ∈ hexLower n) : isHexDigit c = true := by
  obtain ⟨d, hd, rfl⟩ := exists_digit_of_mem_toDigits h
  rw [isHexDigit, hexValue?_digitChar hd]
  rfl

theorem isHexDigit_of_mem_zeroPadded {width : Nat} {digits : List Char} (hdigits : ∀ c ∈ digits, isHexDigit c = true)
    {c : Char} (h : c ∈ zeroPadded width digits) : isHexDigit c = true := by
  rcases List.mem_append.1 h with hzero | hdigit
  · rw [List.eq_of_mem_replicate hzero]
    decide
  · exact hdigits c hdigit

/-! ## Values -/

theorem ofHex_concat (cs : List Char) (c : Char) : ofHex (cs ++ [c]) = 16 * ofHex cs + (hexValue? c).getD 0 := by
  simp [ofHex]

/-- **Digits of a number spell it**, also in another form that has the same values. -/
theorem ofHex_map_toDigits {f : Char → Char} (hf : ∀ d < 16, hexValue? (f (Nat.digitChar d)) = some d) (n : Nat) :
    ofHex ((Nat.toDigits 16 n).map f) = n := by
  induction n using Nat.strongRecOn with
  | ind n ih =>
    by_cases h : n < 16
    · rw [Nat.toDigits_of_lt_base h]
      simp [ofHex, hf n h]
    · have hquotient := ih (n / 16) (by omega)
      rw [Nat.toDigits_of_base_le (by omega) (by omega), List.map_append, List.map_singleton, ofHex_concat, hquotient,
        hf _ (Nat.mod_lt n (by omega)), Option.getD_some]
      omega

theorem ofHex_hexLower (n : Nat) : ofHex (hexLower n) = n := by
  have hdigits := ofHex_map_toDigits (f := fun c => c) (fun _ => hexValue?_digitChar) n
  rwa [List.map_id'] at hdigits

theorem ofHex_hexUpper (n : Nat) : ofHex (hexUpper n) = n := ofHex_map_toDigits (fun _ => hexValue?_toUpper_digitChar) n

/-- Different numbers are written differently. -/
theorem hexUpper_injective : Function.Injective hexUpper := fun m n h => by
  rw [← ofHex_hexUpper m, h, ofHex_hexUpper]

/-- Zeros in front change nothing. -/
theorem ofHex_zeroPadded (width : Nat) (digits : List Char) : ofHex (zeroPadded width digits) = ofHex digits := by
  unfold zeroPadded
  induction width - digits.length with
  | zero => rfl
  | succ n ih =>
    rw [List.replicate_succ, List.cons_append, ← ih]
    rfl

/-! ## Decimal digits -/

theorem decimal_of_lt {n : Nat} (h : n < 10) : decimal n = [Nat.digitChar n] := Nat.toDigits_of_lt_base h

theorem decimal_of_le {n : Nat} (h : 10 ≤ n) : decimal n = decimal (n / 10) ++ [Nat.digitChar (n % 10)] :=
  Nat.toDigits_of_base_le (by omega) h

theorem hexUpper_of_lt {n : Nat} (h : n < 16) : hexUpper n = [(Nat.digitChar n).toUpper] := by
  rw [hexUpper, Nat.toDigits_of_lt_base h, List.map_singleton]

/-- One more digit behind a number that is not zero. -/
theorem hexUpper_concat {q d : Nat} (hq : 0 < q) (hd : d < 16) :
    hexUpper (16 * q + d) = hexUpper q ++ [(Nat.digitChar d).toUpper] := by
  have hquotient : (16 * q + d) / 16 = q := by omega
  have hrest : (16 * q + d) % 16 = d := by omega
  rw [hexUpper, Nat.toDigits_of_base_le (by omega) (by omega), hquotient, hrest, List.map_append, List.map_singleton,
    hexUpper]

theorem ofHex_decimal_of_lt {n : Nat} (h : n < 10) : ofHex (decimal n) = n := by
  rw [decimal_of_lt h]
  simp [ofHex, hexValue?_digitChar (show n < 16 by omega)]

theorem ofHex_decimal_of_le {n : Nat} (h : 10 ≤ n) : ofHex (decimal n) = 16 * ofHex (decimal (n / 10)) + n % 10 := by
  rw [decimal_of_le h, ofHex_concat, hexValue?_digitChar (by omega), Option.getD_some]

/-- Decimal digits count for no less when they are read as hexadecimal ones. -/
theorem le_ofHex_decimal (n : Nat) : n ≤ ofHex (decimal n) := by
  induction n using Nat.strongRecOn with
  | ind n ih =>
    by_cases h : n < 10
    · exact Nat.le_of_eq (ofHex_decimal_of_lt h).symm
    · have hquotient := ih (n / 10) (by omega)
      rw [ofHex_decimal_of_le (by omega)]
      omega

/-- They count for more as soon as there are two of them. -/
theorem ofHex_decimal_eq_self_iff {n : Nat} : ofHex (decimal n) = n ↔ n < 10 := by
  constructor
  · intro heq
    by_contra h
    have hquotient := le_ofHex_decimal (n / 10)
    rw [ofHex_decimal_of_le (by omega)] at heq
    omega
  · intro h
    exact ofHex_decimal_of_lt h

/-- **Decimal digits are the hexadecimal digits of the number that they spell in hexadecimal.** Neither have zeros in
front, and up to nine the digits are the same. -/
theorem hexUpper_ofHex_decimal (n : Nat) : hexUpper (ofHex (decimal n)) = decimal n := by
  have hsame : ∀ d < 10, (Nat.digitChar d).toUpper = Nat.digitChar d := by decide
  induction n using Nat.strongRecOn with
  | ind n ih =>
    by_cases h : n < 10
    · rw [ofHex_decimal_of_lt h, hexUpper_of_lt (by omega), hsame n h, decimal_of_lt h]
    · have hpos : 0 < ofHex (decimal (n / 10)) := Nat.lt_of_lt_of_le (by omega) (le_ofHex_decimal (n / 10))
      have hdigit : n % 10 < 10 := Nat.mod_lt n (by omega)
      rw [ofHex_decimal_of_le (by omega), hexUpper_concat hpos (by omega), ih (n / 10) (by omega), hsame _ hdigit,
        ← decimal_of_le (by omega)]

theorem decimal_eq_hexUpper_iff {m n : Nat} : decimal m = hexUpper n ↔ ofHex (decimal m) = n := by
  constructor
  · intro h
    rw [h, ofHex_hexUpper]
  · rintro rfl
    exact (hexUpper_ofHex_decimal m).symm

end Symbolicate.Text
