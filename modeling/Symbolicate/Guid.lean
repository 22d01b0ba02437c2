import Symbolicate.Bytes.Basic
import Symbolicate.Text.Ascii

/-!
# Globally unique identifiers

Sixteen bytes, kept in the order in which their digits are written. Files store the first three fields little-endian
(`Guid.ofFile?`, `Guid.toFile`); texts spell the digits in one of four forms (`Guid.parse?`). Main statement:
`Guid.ofFile?_toFile`, the stored form reads back.
-/

namespace Symbolicate

/-- A globally unique identifier: its sixteen bytes in the order of their digits. -/
structure Guid where
  bytes : Bytes
  length_eq : bytes.length = 16
  deriving DecidableEq

namespace Guid

instance : Repr Guid := ⟨fun g _ => repr g.bytes⟩

/-- The identifier with the given bytes, if they are sixteen. -/
def ofBytes? (b : Bytes) : Option Guid :=
  if h : b.length = 16 then some ⟨b, h⟩ else none

/-- The identifier whose digits are all zero. -/
def nil : Guid := ⟨List.replicate 16 0, rfl⟩

/-! ## Stored form -/

/-- Turns the first three fields (of four, two and two bytes) around. -/
def swapFields : Bytes → Bytes
  | a :: b :: c :: d :: e :: f :: g :: h :: rest => d :: c :: b :: a :: f :: e :: h :: g :: rest
  | short => short

/-- Turning the fields around keeps the length. -/
theorem length_swapFields (b : Bytes) : (swapFields b).length = b.length := by
  unfold swapFields
  split <;> simp

/-- Turning the fields around twice gives the bytes back. -/
theorem swapFields_swapFields (b : Bytes) : swapFields (swapFields b) = b := by
  rcases b with _ | ⟨_, _ | ⟨_, _ | ⟨_, _ | ⟨_, _ | ⟨_, _ | ⟨_, _ | ⟨_, _ | ⟨_, _⟩⟩⟩⟩⟩⟩⟩⟩ <;> rfl

/-- The identifier stored in sixteen bytes of a file. -/
def ofFile? (b : Bytes) : Option Guid := ofBytes? (swapFields b)

/-- The sixteen bytes that store the identifier in a file. -/
def toFile (g : Guid) : Bytes := swapFields g.bytes

/-- An identifier reads back from its stored form. -/
theorem ofFile?_toFile (g : Guid) : ofFile? g.toFile = some g := by
  simp only [ofFile?, toFile, swapFields_swapFields, ofBytes?, g.length_eq, dite_true]

/-! ## Texts -/

/-- The thirty-two lower-case digits. -/
def digits (g : Guid) : List Char := g.bytes.flatMap Text.hexByte

/-- The digits in groups of 8, 4, 4, 4 and 12 with hyphens between them. -/
def hyphenated (g : Guid) : List Char :=
  let ds := g.digits
  ds.take 8 ++ '-' :: (ds.drop 8).take 4 ++ '-' :: (ds.drop 12).take 4 ++ '-' :: (ds.drop 16).take 4 ++
    '-' :: ds.drop 20

/-- The bytes that pairs of hexadecimal digits spell; `none` when a character is no digit or has no partner. -/
def bytesOfDigits? : List Char → Option Bytes
  | [] => some []
  | [_] => none
  | hi :: lo :: rest =>
    match Text.hexValue? hi, Text.hexValue? lo, bytesOfDigits? rest with
    | some h, some l, some bytes => some (UInt8.ofNat (16 * h + l) :: bytes)
    | _, _, _ => none

/-- The identifier spelled by thirty-two digits. -/
def ofDigits? (cs : List Char) : Option Guid := (bytesOfDigits? cs).bind ofBytes?

/-- The identifier spelled by digits in hyphenated groups. -/
def ofHyphenated? (cs : List Char) : Option Guid :=
  let groups := Text.splitOn '-' cs
  if groups.map List.length = [8, 4, 4, 4, 12] then ofDigits? groups.flatten else none

/-- Reads an identifier written as bare digits, hyphenated, hyphenated in braces, or hyphenated behind `urn:uuid:`.
Letters may have either case. -/
def parse? (cs : List Char) : Option Guid :=
  if cs.length = 32 then ofDigits? cs
  else if cs.length = 36 then ofHyphenated? cs
  else if cs.length = 38 then
    if cs.head? = some '\x7b' ∧ cs.getLast? = some '\x7d' then ofHyphenated? (cs.drop 1).dropLast else none
  else if Text.eqIgnoringCase (cs.take 9) "urn:uuid:".toList then ofHyphenated? (cs.drop 9)
  else none

end Guid

end Symbolicate
