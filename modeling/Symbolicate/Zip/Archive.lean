import Symbolicate.Text.Ascii
import Symbolicate.Zip.EndRecord
import Symbolicate.Zip.Inflate
import Symbolicate.Zip.Record

/-!
# Zip archives

Reading an archive goes from its end: the end record says where the directory is, the directory lists the entries, and
each entry has a header of its own in front of its contents.

Reading happens in three steps that can each fail: the directory (`Archive.read?`), the header of an entry
(`Entry.body?`) and its contents (`Body.contents?`). A header is not read before its entry is needed, so a broken entry
makes only itself unreadable.
-/

namespace Symbolicate.Zip

/-! ## The directory -/

/-- An entry of an archive: its directory record, with the place where its header really stands. -/
abbrev Entry := Record

/-- The entry whose directory record stands at a position, and where the next record stands. Its header has to stand
before the directory. -/
def Directory.entryAt? (d : Directory) (b : Bytes) (pos : Nat) : Option (Entry × Nat) := do
  let (record, next) ← Record.at? b pos
  guard (record.header + d.shift < d.start)
  return ({ record with header := record.header + d.shift }, next)

/-- The entries of `count` directory records from a position on. -/
def Directory.entriesFrom? (d : Directory) (b : Bytes) : Nat → Nat → Option (List Entry)
  | 0, _ => some []
  | count + 1, pos => do
    let (entry, next) ← d.entryAt? b pos
    return entry :: (← d.entriesFrom? b count next)

/-- The entries with one more. Of entries with one name the last counts, in the place of the first. -/
def insertEntry (entries : List Entry) (e : Entry) : List Entry :=
  if entries.any (·.name == e.name) then entries.map fun old => if old.name = e.name then e else old
  else entries ++ [e]

/-- The entries of an archive in the order of its directory. -/
structure Archive where
  entries : List Entry
  deriving DecidableEq, Repr

namespace Archive

/-- The archive that ends with the end record at a position. -/
def endingAt? (b : Bytes) (pos : Nat) : Option Archive := do
  let directory ← (← EndRecord.at? b pos).directory? b
  let entries ← directory.entriesFrom? b directory.count directory.start
  return ⟨entries.foldl insertEntry []⟩

/-- Reads the directory of an archive. The last end record that fits counts. -/
def read? (b : Bytes) : Option Archive := (positions endSignature b).reverse.findSome? (endingAt? b)

end Archive

/-! ## Entries -/

/-- How contents are stored. -/
inductive Method where
  | plain
  | deflated
  deriving DecidableEq, Repr

/-- The contents of an entry as they lie in the archive. -/
structure Body where
  start : Nat
  size : Nat
  method : Method
  checksum : Nat
  deriving DecidableEq, Repr

namespace Entry

def isDirectory (e : Entry) : Bool :=
  match e.name.toList.getLast? with
  | some c => c == '/' || c == '\\'
  | none => false

/-- The name behind the last separator. -/
def fileName (e : Entry) : List Char :=
  (e.name.toList.reverse.takeWhile fun c => c != '/' && c != '\\').reverse

/-- Whether the entry is a file with a name, in whatever directory; case does not matter for ASCII letters. -/
def isFileNamed (e : Entry) (name : String) : Bool := ! e.isDirectory && Text.eqIgnoringCase e.fileName name.toList

/-- The method of the entry, if it is a known one. -/
def method? (e : Entry) : Option Method :=
  if e.method = 0 then some .plain else if e.method = 8 then some .deflated else none

/-- Where the contents of the entry start: behind its header, a name and extra fields. -/
def start? (e : Entry) (b : Bytes) : Option Nat := do
  guard ((← b.slice? e.header 4) = headerSignature)
  return e.header + 30 + (← b.u16? (e.header + 26)) + (← b.u16? (e.header + 28))

/-- Where the contents of the entry lie. Encrypted entries are not read. -/
def body? (e : Entry) (b : Bytes) : Option Body := do
  guard (! e.isEncrypted && ! e.hasCipher)
  return ⟨← e.start? b, e.storedSize, ← e.method?, e.checksum⟩

end Entry

/-- The contents of a body, as far as the archive holds them, unless their checksum is another one. -/
def Body.contents? (body : Body) (b : Bytes) : Option Bytes := do
  let stored := (b.drop body.start).take body.size
  let contents ← match body.method with
    | .plain => some stored
    | .deflated => Inflate.inflate? stored
  guard ((crc32 contents).toNat = body.checksum)
  return contents

end Symbolicate.Zip
