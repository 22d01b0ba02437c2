import Mathlib.Tactic.Common
import Symbolicate.Guid
import Symbolicate.Proofs.Text.Ascii
import Symbolicate.Proofs.Text.Hexadecimal

/-!
# Texts of identifiers

An identifier is spelled by thirty-two hexadecimal digits (`length_digits`, `mem_digits`), two for each byte, and these
digits give its bytes back in either case (`bytesOfDigits?_map`). So the hyphenated text of an identifier is read as that
identifier (`parse?_hyphenated`).
-/

namespace Symbolicate.Guid

variable {c : Char}

theorem eq_of_bytes {g h : Guid} (heq : g.bytes = h.bytes) : g = h := by
  cases g
  cases h
  cases heq
  rfl

/-! ## Digits -/

theorem mem_hexByte {b : UInt8} (h : c ∈ Text.hexByte b) : ∃ d < 16, c = Nat.digitChar d := by
  have hb := b.toNat_lt
  simp only [Text.hexByte, List.mem_cons, List.not_mem_nil, or_false] at h
  rcases h with rfl | rfl
  · exact ⟨b.toNat / 16, by omega, rfl⟩
  · exact ⟨b.toNat % 16, by omega, rfl⟩

theorem mem_digits {g : Guid} (h : c ∈ g.digits) : ∃ d < 16, c = Nat.digitChar d := by
  obtain ⟨b, -, hc⟩ := List.mem_flatMap.1 h
  exact mem_hexByte hc

theorem length_flatMap_hexByte (b : Bytes) : (b.flatMap Text.hexByte).length = 2 * b.length := by
  induction b with
  | nil => rfl
  | cons x b ih =>
    rw [List.flatMap_cons, List.length_append, ih, List.length_cons]
    simp only [Text.hexByte, List.length_cons, List.length_nil]
    omega

theorem length_digits (g : Guid) : g.digits.length = 32 := by
  rw [digits, length_flatMap_hexByte, g.length_eq]

/-- **The digits of bytes give them back**, also in another form that has the same values. -/
theorem bytesOfDigits?_map {f : Char → Char} (hf : ∀ d < 16, Text.hexValue? (f (Nat.digitChar d)) = some d)
    (b : Bytes) : bytesOfDigits? ((b.flatMap Text.hexByte).map f) = some b := by
  induction b with
  | nil => rfl
  | cons x b ih =>
    have hx := x.toNat_lt
    have hhigh := hf (x.toNat / 16) (by omega)
    have hlow := hf (x.toNat % 16) (by omega)
    have hbyte : UInt8.ofNat (16 * (x.toNat / 16) + x.toNat % 16) = x := by
      rw [Nat.div_add_mod, UInt8.ofNat_toNat]
    simp only [List.flatMap_cons, Text.hexByte, List.cons_append, List.nil_append, List.map_cons, bytesOfDigits?, hhigh,
      hlow, ih, hbyte]

/-- The digits of an identifier spell it. -/
theorem ofDigits?_digits (g : Guid) : ofDigits? g.digits = some g := by
  have hbytes := bytesOfDigits?_map (f := fun c => c) (fun _ => Text.hexValue?_digitChar) g.bytes
  rw [List.map_id'] at hbytes
  rw [ofDigits?, digits, hbytes, Option.bind_some, ofBytes?, dif_pos g.length_eq]

/-! ## Hyphenated texts -/

/-- The digits in groups of 8, 4, 4, 4 and 12. -/
def groups (g : Guid) : List (List Char) :=
  [g.digits.take 8, (g.digits.drop 8).take 4, (g.digits.drop 12).take 4, (g.digits.drop 16).take 4, g.digits.drop 20]

theorem flatten_groups (g : Guid) : g.groups.flatten = g.digits := by
  have hfrom : ∀ n, (g.digits.drop n).take 4 ++ g.digits.drop (n + 4) = g.digits.drop n := by
    intro n
    rw [← List.drop_drop, List.take_append_drop]
  simp only [groups, List.flatten_cons, List.flatten_nil, List.append_nil]
  rw [hfrom 16, hfrom 12, hfrom 8, List.take_append_drop]

theorem length_groups (g : Guid) : g.groups.map List.length = [8, 4, 4, 4, 12] := by
  simp [groups, length_digits]

theorem hyphenated_eq (g : Guid) : g.hyphenated = ['-'].intercalate g.groups := by
  simp [hyphenated, groups, List.intercalate]

/-- The text is made of hyphens and digits. -/
theorem mem_hyphenated {g : Guid} (h : c ∈ g.hyphenated) : c = '-' ∨ ∃ d < 16, c = Nat.digitChar d := by
  have hdigits : ∀ {n k : Nat}, c ∈ (g.digits.drop n).take k → ∃ d < 16, c = Nat.digitChar d := fun hc =>
    mem_digits (List.mem_of_mem_drop (List.mem_of_mem_take hc))
  simp only [hyphenated, List.mem_append, List.mem_cons] at h
  rcases h with (((h | rfl | h) | rfl | h) | rfl | h) | rfl | h
  · exact .inr (mem_digits (List.mem_of_mem_take h))
  · exact .inl rfl
  · exact .inr (hdigits h)
  · exact .inl rfl
  · exact .inr (hdigits h)
  · exact .inl rfl
  · exact .inr (hdigits h)
  · exact .inl rfl
  · exact .inr (mem_digits (List.mem_of_mem_drop h))

theorem splitOn_hyphenated (g : Guid) : Text.splitOn '-' g.hyphenated = g.groups := by
  have hdigit : '-' ∉ g.digits := by
    intro hmem
    obtain ⟨d, hd, heq⟩ := mem_digits hmem
    have hall : ∀ d < 16, '-' ≠ Nat.digitChar d := by decide
    exact hall d hd heq
  rw [hyphenated_eq]
  apply Text.splitOn_intercalate
  · intro group hgroup hmem
    exact hdigit (g.flatten_groups ▸ List.mem_flatten.2 ⟨group, hgroup, hmem⟩)
  · exact List.cons_ne_nil _ _

theorem length_hyphenated (g : Guid) : g.hyphenated.length = 36 := by
  simp [hyphenated, length_digits]

/-- **The hyphenated text of an identifier is read as that identifier.** -/
theorem parse?_hyphenated (g : Guid) : parse? g.hyphenated = some g := by
  have hread : ofHyphenated? g.hyphenated = some g := by
    simp only [ofHyphenated?, splitOn_hyphenated, length_groups, if_true, flatten_groups, ofDigits?_digits]
  rw [parse?, length_hyphenated, if_neg (by decide), if_pos rfl, hread]

end Symbolicate.Guid
