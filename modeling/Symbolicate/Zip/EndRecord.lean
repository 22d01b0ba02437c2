import Symbolicate.Zip.Signature

/-!
# The end of a zip archive

The end record says where the directory is. Its numbers are short; where they do not suffice, they hold a mark, and the
numbers stand in a wide end record, to which a locator leads that lies right in front of the end record. Bytes in front
of the archive move all positions, which shows in the place where the directory or the wide end record really starts.

Main definition: `EndRecord.directory?`, the place of the directory.
-/

namespace Symbolicate.Zip

/-- Where the directory of an archive lies. -/
structure Directory where
  /-- How many bytes stand in front of the archive. -/
  shift : Nat
  /-- Where the first record stands, bytes in front of the archive counted. -/
  start : Nat
  /-- The number of records. -/
  count : Nat
  deriving DecidableEq, Repr

/-! ## The end record -/

/-- What the end record says of the directory. -/
structure EndRecord where
  /-- Where the record stands. -/
  position : Nat
  /-- The number of this file of the archive, and of the one in which the directory starts. -/
  disk : Nat
  directoryDisk : Nat
  /-- The number of entries in this file, and in all files of the archive. -/
  count : Nat
  totalCount : Nat
  /-- Where the directory starts, bytes in front of the archive not counted. -/
  directory : Nat
  deriving DecidableEq, Repr

namespace EndRecord

/-- The end record at a position, unless its comment does not fit into the file. -/
def at? (b : Bytes) (pos : Nat) : Option EndRecord := do
  guard (pos + 22 + (← b.u16? (pos + 20)) ≤ b.length)
  return ⟨pos, ← b.u16? (pos + 4), ← b.u16? (pos + 6), ← b.u16? (pos + 8), ← b.u16? (pos + 10), ← b.u32? (pos + 16)⟩

/-- Whether a number of the record is the mark of one that is too large for it. -/
def isMarked (e : EndRecord) : Bool := e.totalCount == 0xFFFF || e.directory == 0xFFFFFFFF

/-- The place of the directory by the short numbers. An archive with entries has its directory between the place where
it starts without bytes in front, and the end record. -/
def shortDirectory? (e : EndRecord) (b : Bytes) : Option Directory := do
  guard (e.disk = e.directoryDisk)
  let shift ←
    if e.totalCount = 0 then some (e.position - e.directory)
    else ((positions directorySignature (b.take e.position)).find? (e.directory ≤ ·)).map (· - e.directory)
  return ⟨shift, e.directory + shift, e.count⟩

end EndRecord

/-! ## The wide end record -/

/-- What the locator says of the wide end record. -/
structure Locator where
  /-- Where the locator stands. -/
  position : Nat
  /-- The number of the file in which the directory starts. -/
  directoryDisk : Nat
  /-- Where the wide end record stands, bytes in front of the archive not counted. -/
  record : Nat
  /-- The number of files. -/
  disks : Nat
  deriving DecidableEq, Repr

def EndRecord.locator? (e : EndRecord) (b : Bytes) : Option Locator := do
  guard (20 ≤ e.position)
  let pos := e.position - 20
  guard ((← b.slice? pos 4) = locatorSignature)
  return ⟨pos, ← b.u32? (pos + 4), ← b.u64? (pos + 8), ← b.u32? (pos + 16)⟩

/-- What the wide end record says of the directory. -/
structure WideEndRecord where
  /-- Where the record stands. -/
  position : Nat
  /-- The version that made the archive, and the one needed to read it. -/
  madeBy : Nat
  needed : Nat
  /-- The number of this file of the archive, and of the one in which the directory starts. -/
  disk : Nat
  directoryDisk : Nat
  /-- The number of entries in this file, and in all files of the archive. -/
  count : Nat
  totalCount : Nat
  /-- Where the directory starts, bytes in front of the archive not counted. -/
  directory : Nat
  deriving DecidableEq, Repr

/-- The wide end record at a position, if it reaches up to the locator and leaves room for the directory before it. -/
def Locator.recordAt? (l : Locator) (b : Bytes) (pos : Nat) : Option WideEndRecord := do
  let size ← b.u64? (pos + 4)
  let e : WideEndRecord := ⟨pos, ← b.u16? (pos + 12), ← b.u16? (pos + 14), ← b.u32? (pos + 16), ← b.u32? (pos + 20),
    ← b.u64? (pos + 24), ← b.u64? (pos + 32), ← b.u64? (pos + 48)⟩
  guard (44 ≤ size ∧ pos + size + 12 = l.position)
  guard (e.directoryDisk = l.directoryDisk)
  guard (e.directory + 46 * e.totalCount ≤ pos)
  return e

/-- The wide end record: the first that fits, from the place that the locator names on. -/
def Locator.record? (l : Locator) (b : Bytes) : Option WideEndRecord := do
  guard (l.record < l.position ∧ l.disks ≤ 1)
  ((positions wideEndSignature (b.take l.position)).filter (l.record ≤ ·)).findSome? (l.recordAt? b)

/-- The place of the directory by the wide numbers. -/
def Locator.directory? (l : Locator) (b : Bytes) : Option Directory := do
  let e ← l.record? b
  guard (e.count ≤ e.totalCount ∧ e.needed ≤ e.madeBy ∧ e.disk = e.directoryDisk)
  let shift := e.position - l.record
  return ⟨shift, e.directory + shift, e.totalCount⟩

/-- The place of the directory. Where a number is marked and a locator is there, the wide numbers count. -/
def EndRecord.directory? (e : EndRecord) (b : Bytes) : Option Directory :=
  match if e.isMarked then e.locator? b else none with
  | some l => l.directory? b
  | none => e.shortDirectory? b

end Symbolicate.Zip
