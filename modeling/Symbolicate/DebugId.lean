import Symbolicate.Guid

/-!
# Debug identities

The pair of GUID and age by which a debug file and the assembly it belongs to are matched, and the keys under which
symbol stores file it. A native debug file is filed under its GUID and age; some tools write the age in decimal; a
portable one, which has no age, is filed under a fixed suffix.
-/

namespace Symbolicate

/-- The identity of a debug file: its GUID, and how often the file has been written since. -/
structure DebugId where
  guid : Guid
  age : UInt32
  deriving DecidableEq, Repr

namespace DebugId

/-- The hyphenated GUID, followed by the age in lower-case hexadecimal unless it is zero. -/
def text (id : DebugId) : String :=
  String.ofList (id.guid.hyphenated ++ if id.age = 0 then [] else '-' :: Text.hexLower id.age.toNat)

/-! ## Keys in symbol stores -/

/-- The GUID as it stands in a key: upper-case digits without hyphens. -/
def keyStem (id : DebugId) : List Char := id.guid.digits.map Char.toUpper

/-- The key of a native debug file: the age in upper-case hexadecimal. -/
def nativeKey (id : DebugId) : String := String.ofList (id.keyStem ++ Text.hexUpper id.age.toNat)

/-- The key some tools use for a native debug file: the age in decimal. -/
def decimalKey (id : DebugId) : String := String.ofList (id.keyStem ++ Text.decimal id.age.toNat)

/-- The key of a portable debug file, whatever its age. -/
def portableKey (id : DebugId) : String := String.ofList (id.keyStem ++ "FFFFFFFF".toList)

/-- The keys to look under, in order: native, portable, and decimal where it is spelled differently from native. -/
def searchKeys (id : DebugId) : List String :=
  [id.nativeKey, id.portableKey] ++ if id.decimalKey = id.nativeKey then [] else [id.decimalKey]

end DebugId

end Symbolicate
