import Symbolicate.Text.CodePage
import Symbolicate.Text.Utf8
import Symbolicate.Zip.Crc32
import Symbolicate.Zip.Signature

/-!
# Directory records

What the directory of a zip archive says of one entry. A record has fixed fields, a name, a comment, and extra fields,
each with a kind and a length. Some kinds are known: they hold wide numbers, the name or the comment in UTF-8, times, or
the cipher of the entry. A known field that breaks a rule makes the record unreadable. Where the bytes end inside a
field, reading stops, and what has been changed so far stays.

Main definition: `Record.at?`, the record at a position.
-/

namespace Symbolicate.Zip

/-- A record of the directory. -/
structure Record where
  /-- The bytes of the name. -/
  rawName : Bytes
  name : String
  comment : String
  isEncrypted : Bool
  /-- Whether the cipher of the entry is named. -/
  hasCipher : Bool
  /-- How the contents are stored. -/
  method : Nat
  /-- The checksum of the contents. -/
  checksum : Nat
  /-- How many bytes the contents have, and how many they take in the archive. -/
  size : Nat
  storedSize : Nat
  /-- Where the header of the entry stands. -/
  header : Nat
  deriving DecidableEq, Repr

/-! ## Reading extra fields -/

/-- Why reading of the extra fields stops. -/
inductive FieldFault where
  /-- The bytes have ended. -/
  | short
  /-- A field breaks a rule. -/
  | invalid
  deriving DecidableEq, Repr

/-- Steps that read extra fields: they change the record and leave the bytes that follow, also when they stop. -/
abbrev FieldReader := ExceptT FieldFault (StateM (Record × Bytes))

namespace FieldReader

/-- The next `n` bytes. -/
def take (n : Nat) : FieldReader Bytes := do
  let (r, b) ← get
  if b.length < n then throw .short
  set (r, b.drop n)
  return b.take n

/-- The number in the next `n` bytes. -/
def number (n : Nat) : FieldReader Nat := return Bytes.le (← take n)

def change (f : Record → Record) : FieldReader Unit := modify fun (r, b) => (f r, b)

/-- Stops unless a rule holds. -/
def require (rule : Bool) : FieldReader Unit := if rule then return () else throw .invalid

/-- The mark of a number that is too large for its place. -/
def mark : Nat := 0xFFFFFFFF

/-- Wide numbers, of those that are marked; a long field has all of them. -/
def wideNumbers (length : Nat) : FieldReader Unit := do
  let stands (n : Nat) : Bool := 24 ≤ length || n == mark
  let (r, _) ← get
  if stands r.size then
    let n ← number 8
    change ({ · with size := n })
  if stands r.storedSize then
    let n ← number 8
    change ({ · with storedSize := n })
  if stands r.header then
    let n ← number 8
    change ({ · with header := n })
  let used := 8 * ([r.size, r.storedSize, r.header].countP stands)
  require (used ≤ length)
  let _ ← take (length - used)

/-- Times in ticks of 100 nanoseconds. -/
def fineTimes (length : Nat) : FieldReader Unit := do
  require (length == 32)
  let _ ← take 4
  require ((← number 2) == 1)
  require ((← number 2) == 24)
  let _ ← take 24

/-- Times in seconds: up to three, for each a flag. A field with one time may have more flags. -/
def coarseTimes (length : Nat) : FieldReader Unit := do
  let flags ← number 1
  require (length == 5 || length == 1 + 4 * ((List.range 8).countP flags.testBit))
  require (flags < 8)
  let _ ← take (length - 1)

/-- The text in UTF-8 that takes the place of another text, whose checksum stands before it. -/
def replacement (length : Nat) (replaced : Record → Bytes) : FieldReader (Bytes × String) := do
  let _ ← take 1
  let checksum ← number 4
  require (5 ≤ length)
  let text ← take (length - 5)
  let (r, _) ← get
  require ((crc32 (replaced r)).toNat == checksum)
  match Utf8.toString? text with
  | some s => return (text, s)
  | none => throw .invalid

def commentText (length : Nat) : FieldReader Unit := do
  let (_, s) ← replacement length fun r => Utf8.ofString r.comment
  change ({ · with comment := s })

def nameText (length : Nat) : FieldReader Unit := do
  let (text, s) ← replacement length (·.rawName)
  change ({ · with rawName := text, name := s })

/-- The cipher of the entry, and the method of the contents under it. -/
def cipher (length : Nat) : FieldReader Unit := do
  require (length == 7)
  let version ← number 2
  let vendor ← number 2
  let strength ← number 1
  let method ← number 2
  require (vendor == 0x4541)
  require (version == 1 || version == 2)
  require (1 ≤ strength && strength ≤ 3)
  change ({ · with hasCipher := true, method := method })

def field : FieldReader Unit := do
  let kind ← number 2
  let length ← number 2
  if kind = 0x0001 then wideNumbers length
  else if kind = 0x000A then fineTimes length
  else if kind = 0x5455 then coarseTimes length
  else if kind = 0x6375 then commentText length
  else if kind = 0x7075 then nameText length
  else if kind = 0x9901 then cipher length
  else
    let _ ← take length

/-- All extra fields, at most `fuel` of them. -/
def fields : Nat → FieldReader Unit
  | 0 => return ()
  | fuel + 1 => do
    if (← get).2.isEmpty then return ()
    field
    fields fuel

end FieldReader

def Record.withFields? (r : Record) (b : Bytes) : Option Record :=
  match (FieldReader.fields b.length).run.run (r, b) with
  | (.error .invalid, _) => none
  | (_, (r, _)) => some r

/-! ## Records -/

/-- The method that stands for a cipher, which an extra field has to name. -/
def cipherMethod : Nat := 99

/-- The record at a position, and where the next one stands. -/
def Record.at? (b : Bytes) (pos : Nat) : Option (Record × Nat) := do
  guard ((← b.slice? pos 4) = directorySignature)
  let flags ← b.u16? (pos + 8)
  let nameLength ← b.u16? (pos + 28)
  let extraLength ← b.u16? (pos + 30)
  let commentLength ← b.u16? (pos + 32)
  let rawName ← b.slice? (pos + 46) nameLength
  let extra ← b.slice? (pos + 46 + nameLength) extraLength
  let rawComment ← b.slice? (pos + 46 + nameLength + extraLength) commentLength
  let text (raw : Bytes) : String :=
    if flags.testBit 11 then String.ofList (Utf8.decodeLossy raw) else Text.ofCodePage raw
  let record : Record := {
    rawName
    name := text rawName
    comment := text rawComment
    isEncrypted := flags.testBit 0
    hasCipher := false
    method := ← b.u16? (pos + 10)
    checksum := ← b.u32? (pos + 16)
    size := ← b.u32? (pos + 24)
    storedSize := ← b.u32? (pos + 20)
    header := ← b.u32? (pos + 42) }
  let record ← record.withFields? extra
  guard (record.method ≠ cipherMethod ∨ record.hasCipher)
  return (record, pos + 46 + nameLength + extraLength + commentLength)

end Symbolicate.Zip
