import Symbolicate.Bytes.Basic
import Symbolicate.Text.Utf8

/-!
# Paged containers

The container of native debug files: numbered streams, each cut into pages that lie anywhere in the file. A directory,
itself in pages, lists the size and the pages of every stream; the pages of the directory are listed in pages that the
header names. All numbers are little-endian, and nothing beyond the bytes that are asked for has to exist.
-/

namespace Symbolicate.NativePdb

def magic : Bytes := Utf8.ofString "Microsoft C/C++ MSF 7.00\r\n\x1aDS\x00\x00\x00"

/-- Whether a file starts as a container does. -/
def peek (b : Bytes) : Bool := magic.isPrefixOf b

/-- The four-byte numbers that the string is made of. -/
def words : Bytes → List Nat
  | a :: b :: c :: d :: rest => Bytes.le [a, b, c, d] :: words rest
  | _ => []

/-- `count` four-byte numbers from `pos` on. -/
def words? (b : Bytes) (pos count : Nat) : Option (List Nat) := (Bytes.slice? b pos (4 * count)).map words

/-- A container whose header has been read. -/
structure Container where
  bytes : Bytes
  pageSize : Nat
  pagesUsed : Nat
  /-- The directory: the number of streams, their sizes, and their pages. -/
  directory : Bytes

namespace Container

/-! ## Pages -/

/-- The size that the directory gives to a stream that does not exist. -/
def absentSize : Nat := 0xFFFFFFFF

/-- How many pages hold `size` bytes. -/
def pagesFor (pageSize size : Nat) : Nat := (size + pageSize - 1) / pageSize

/-- The `size` bytes that lie in the given pages. Page zero and pages that are not in use hold nothing. -/
def readPages (b : Bytes) (pageSize pagesUsed : Nat) : List Nat → Nat → Option Bytes
  | [], _ => some []
  | page :: pages, size =>
    if page = 0 ∨ page > pagesUsed then none
    else
      match Bytes.slice? b (page * pageSize) (min size pageSize),
          readPages b pageSize pagesUsed pages (size - pageSize) with
      | some contents, some rest => some (contents ++ rest)
      | _, _ => none

/-! ## Opening -/

/-- The size of the part of the file that has to hold the header and everything the header lists. -/
def headerSize : Nat := 4096

/-- The page sizes in use: powers of two from 256 to 8 MiB. -/
def pageSizes : List Nat := (List.range 16).map fun n => 1 <<< (n + 8)

def open? (b : Bytes) : Option Container := do
  let header ← Bytes.slice? b 0 headerSize
  guard (peek b)
  let pageSize ← Bytes.u32? header 32
  guard (pageSize ∈ pageSizes)
  let pagesUsed ← Bytes.u32? header 40
  let directorySize ← Bytes.u32? header 44
  let listSize := 4 * pagesFor pageSize directorySize
  let listPages ← words? header 52 (pagesFor pageSize listSize)
  let list ← readPages b pageSize pagesUsed listPages listSize
  let directory ← readPages b pageSize pagesUsed (words list) directorySize
  return ⟨b, pageSize, pagesUsed, directory⟩

/-! ## Streams -/

/-- The contents of a stream, if it exists. -/
def stream? (c : Container) (number : Nat) : Option Bytes := do
  let count ← Bytes.u32? c.directory 0
  let sizes ← words? c.directory 4 count
  let size ← sizes[number]?
  guard (size ≠ absentSize)
  let pages (size : Nat) : Nat := if size = absentSize then 0 else pagesFor c.pageSize size
  let skipped := Bytes.total ((sizes.take number).map pages)
  let numbers ← words? c.directory (4 + 4 * count + 4 * skipped) (pages size)
  readPages c.bytes c.pageSize c.pagesUsed numbers size

end Container

end Symbolicate.NativePdb
