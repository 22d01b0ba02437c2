import Symbolicate.DebugId
import Symbolicate.PortablePdb.Compressed
import Symbolicate.PortablePdb.TableStream
import Symbolicate.Text.Utf8

/-!
# Portable debug files

The metadata root of a portable debug file (ECMA-335, II.24.2): a header, a version, and a directory of named streams.
Three streams matter: `#Pdb` with the identity of the file and the row counts of the assembly's tables, `#~` with the
tables, and `#Blob` with the heap that sequence points and document names are stored in. Of streams with the same name
the last one counts.

Headers are read in place, so each has to start at a multiple of its alignment, counted from the start of the file.
-/

namespace Symbolicate

/-! ## Parts of the file -/

namespace PortablePdb

/-- The signature at the start of the file, the letters `BSJB`. -/
def signature : Nat := 0x424A5342

/-- The fixed part of the metadata root in front of the version. -/
structure RootHeader where
  signature : Nat
  majorVersion : Nat
  minorVersion : Nat
  reserved : Nat
  versionLength : Nat
  deriving DecidableEq, Repr

/-- The `#Pdb` stream: the identity of the file, and the row counts of the assembly's tables by number. -/
structure IdStream where
  guid : Guid
  referenced : List Nat
  deriving DecidableEq, Repr

/-- The streams found so far: the identity is read when it is met, the tables when the directory has ended. -/
structure Streams where
  id : Option IdStream
  tables : Option (Nat × Bytes)
  blobs : Option Bytes

end PortablePdb

/-- A portable debug file. -/
structure PortablePdb where
  header : PortablePdb.RootHeader
  version : String
  id : Option PortablePdb.IdStream
  tables : Option PortablePdb.TableStream
  blobs : Option Bytes

namespace PortablePdb

/-- Whether a file starts with the signature. -/
def peek (b : Bytes) : Bool := Bytes.u32? b 0 == some signature

/-- The identity of the file. Portable files have no age of their own and count as age one. -/
def debugId? (p : PortablePdb) : Option DebugId := p.id.map fun s => ⟨s.guid, 1⟩

/-! ## Reading -/

/-- The bytes of a structure of `size` bytes that has to start at a multiple of `align`. -/
def aligned? (b : Bytes) (align start size : Nat) : Option Bytes :=
  if start % align = 0 then Bytes.slice? b start size else none

/-- Reads the `#Pdb` stream `b`, which starts at offset `start` of the file. -/
def IdStream.read (b : Bytes) (start : Nat) : Except FormatError IdStream := do
  let header ← require .invalidHeader (if start % 4 = 0 then Bytes.slice? b 0 32 else none)
  let guid ← require .invalidHeader (Guid.ofFile? (header.take 16))
  let (referenced, _) ← require .invalidLength (rowCounts? b (bits64 (Bytes.le (header.drop 24))) 32)
  return ⟨guid, referenced⟩

def Streams.add (s : Streams) (name : List Char) (start : Nat) (contents : Bytes) :
    Except FormatError Streams := do
  if name = "#Pdb".toList then return { s with id := some (← IdStream.read contents start) }
  else if name = "#~".toList then return { s with tables := some (start, contents) }
  else if name = "#Blob".toList then return { s with blobs := some contents }
  else return s

/-- Reads a directory entry at `pos` of the file and gives the stream's name, offset and contents, and where the next
entry starts. A name ends with a NUL, or with its 32nd byte, and is padded to a multiple of four. -/
def directoryEntry (b : Bytes) (pos : Nat) : Except FormatError (List Char × Nat × Bytes × Nat) := do
  let header ← require .invalidStreamHeader (aligned? b 4 pos 8)
  let nameBytes := Bytes.untilNul ((b.drop (pos + 8)).take 32)
  let name ← requireText .invalidStreamName (Utf8.decode? nameBytes)
  let next := pos + 8 + Bytes.roundUp4 (nameBytes.length + 1)
  let _ ← require .invalidLength (Bytes.from? b next)
  let start := Bytes.le (header.take 4)
  let contents ← require .invalidLength (Bytes.slice? b start (Bytes.le (header.drop 4)))
  return (name, start, contents, next)

/-- Reads as many directory entries as told, from `pos` on. -/
def readDirectory (b : Bytes) : Nat → Nat → Streams → Except FormatError Streams
  | 0, _, s => .ok s
  | count + 1, pos, s => do
    let (name, start, contents, next) ← directoryEntry b pos
    let s ← s.add name start contents
    readDirectory b count next s

def read (b : Bytes) : Except FormatError PortablePdb := do
  let head ← require .invalidHeader (Bytes.slice? b 0 16)
  let header : RootHeader := {
    signature := Bytes.le (head.take 4), majorVersion := Bytes.le ((head.drop 4).take 2),
    minorVersion := Bytes.le ((head.drop 6).take 2), reserved := Bytes.le ((head.drop 8).take 4),
    versionLength := Bytes.le (head.drop 12) }
  if header.signature ≠ signature then throw (.plain .invalidSignature)
  let versionBytes ← require .invalidLength (Bytes.slice? b 16 header.versionLength)
  let version ← requireText .invalidVersionString (Utf8.toString? (Bytes.untilNul versionBytes))
  let tail := 16 + header.versionLength
  let counts ← require .invalidHeader (aligned? b 2 tail 4)
  let streams ← readDirectory b (Bytes.le (counts.drop 2)) (tail + 4) ⟨none, none, none⟩
  let referenced := streams.id.elim (List.replicate 64 0) (·.referenced)
  let tables ← streams.tables.mapM fun (start, contents) => TableStream.read contents start referenced
  return ⟨header, version, streams.id, tables, streams.blobs⟩

end PortablePdb

end Symbolicate
