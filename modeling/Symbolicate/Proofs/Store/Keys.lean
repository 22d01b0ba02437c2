import Mathlib.Tactic.Common
import Symbolicate.DebugId
import Symbolicate.Proofs.Text.Guid

/-!
# Keys of debug files

All keys start with the digits of a GUID, which are thirty-two and tell which GUID it is (`keyStem_eq_iff`). So two keys
are the same iff they have the same GUID and the same text behind it (`key_eq_iff`), and what is behind it are numbers
written without zeros in front: different numbers have different texts, and a decimal text is also the hexadecimal text
of exactly one number.
-/

namespace Symbolicate.DebugId

variable {id other : DebugId}

/-! ## The digits in front -/

theorem length_keyStem (id : DebugId) : id.keyStem.length = 32 := by
  rw [keyStem, List.length_map, Guid.length_digits]

/-- The digits in front tell which GUID it is. -/
theorem keyStem_eq_iff : id.keyStem = other.keyStem ↔ id.guid = other.guid := by
  constructor
  · intro h
    have hbytes : ∀ g : Guid, Guid.bytesOfDigits? (g.digits.map Char.toUpper) = some g.bytes := fun g =>
      Guid.bytesOfDigits?_map (fun _ => Text.hexValue?_toUpper_digitChar) g.bytes
    have hsome : some id.guid.bytes = some other.guid.bytes := by
      rw [← hbytes, ← hbytes]
      exact congrArg Guid.bytesOfDigits? h
    exact Guid.eq_of_bytes (Option.some.inj hsome)
  · intro h
    rw [keyStem, keyStem, h]

/-- **A key has two parts**, and both count. -/
theorem key_eq_iff {a b : List Char} : String.ofList (id.keyStem ++ a) = String.ofList (other.keyStem ++ b) ↔
    id.guid = other.guid ∧ a = b := by
  rw [String.ofList_inj, ← keyStem_eq_iff]
  constructor
  · intro h
    exact List.append_inj h (by rw [length_keyStem, length_keyStem])
  · rintro ⟨hstem, rfl⟩
    rw [hstem]

/-! ## The numbers behind -/

theorem age_inj {a b : UInt32} : Text.hexUpper a.toNat = Text.hexUpper b.toNat ↔ a = b :=
  Text.hexUpper_injective.eq_iff.trans UInt32.toNat_inj

theorem nativeKey_eq_nativeKey_iff : id.nativeKey = other.nativeKey ↔ id.guid = other.guid ∧ id.age = other.age := by
  rw [nativeKey, nativeKey, key_eq_iff, age_inj]

theorem portableKey_eq_portableKey_iff : id.portableKey = other.portableKey ↔ id.guid = other.guid := by
  rw [portableKey, portableKey, key_eq_iff]
  simp

/-- The portable key is a native one, that of the greatest age. -/
theorem nativeKey_eq_portableKey_iff :
    id.nativeKey = other.portableKey ↔ id.guid = other.guid ∧ id.age = 0xFFFFFFFF := by
  have hsuffix : "FFFFFFFF".toList = Text.hexUpper (0xFFFFFFFF : UInt32).toNat := by decide
  rw [nativeKey, portableKey, key_eq_iff, hsuffix, age_inj]

theorem decimalKey_eq_nativeKey_iff : id.decimalKey = other.nativeKey ↔
    id.guid = other.guid ∧ Text.ofHex (Text.decimal id.age.toNat) = other.age.toNat := by
  rw [decimalKey, nativeKey, key_eq_iff, Text.decimal_eq_hexUpper_iff]

/-- Below ten, the decimal key is the native one. -/
theorem decimalKey_eq_own_nativeKey_iff : id.decimalKey = id.nativeKey ↔ id.age < 10 := by
  rw [decimalKey_eq_nativeKey_iff, Text.ofHex_decimal_eq_self_iff, UInt32.lt_iff_toNat_lt]
  simp

/-- **Keys identify debug files.** Two native keys are the same only for the same GUID and age, and two portable ones
only for the same GUID. Keys of different kinds are the same only where the texts of the ages are. So a search looks
under the native key, the portable key and, from age ten on, the decimal key. -/
theorem keys_identify (id other : DebugId) :
    (id.nativeKey = other.nativeKey ↔ id.guid = other.guid ∧ id.age = other.age) ∧
    (id.decimalKey = id.nativeKey ↔ id.age < 10) ∧
    (id.portableKey = other.portableKey ↔ id.guid = other.guid) ∧
    (id.nativeKey = other.portableKey ↔ id.guid = other.guid ∧ id.age = 0xFFFFFFFF) ∧
    (id.decimalKey = other.nativeKey ↔
      id.guid = other.guid ∧ Text.ofHex (Text.decimal id.age.toNat) = other.age.toNat) ∧
    (id.searchKeys = if id.age < 10 then [id.nativeKey, id.portableKey]
      else [id.nativeKey, id.portableKey, id.decimalKey]) := by
  refine ⟨nativeKey_eq_nativeKey_iff, decimalKey_eq_own_nativeKey_iff, portableKey_eq_portableKey_iff,
    nativeKey_eq_portableKey_iff, decimalKey_eq_nativeKey_iff, ?_⟩
  rw [searchKeys]
  by_cases hage : id.age < 10
  · rw [if_pos (decimalKey_eq_own_nativeKey_iff.2 hage), if_pos hage]
    rfl
  · rw [if_neg (mt decimalKey_eq_own_nativeKey_iff.1 hage), if_neg hage]
    rfl

end Symbolicate.DebugId
