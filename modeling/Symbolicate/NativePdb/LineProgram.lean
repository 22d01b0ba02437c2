import Symbolicate.NativePdb.LineIndex
import Symbolicate.NativePdb.Streams
import Symbolicate.Quicksort

/-!
# Line programs

The line information of one module: subsections with lines, each for a stretch of code, and one subsection with the
files that the lines refer to. The lines of a procedure are those of the stretch that starts at its address, or last
before it; of stretches that start at one address, the last one in the order of `Quicksort.sort`.
-/

namespace Symbolicate.NativePdb

/-- An address: a segment of the program and an offset in it. -/
structure Address where
  segment : Nat
  offset : Nat
  deriving DecidableEq, Repr

/-- Whether an address is the other one or comes before it. -/
def Address.le (a b : Address) : Bool :=
  a.segment < b.segment || (a.segment == b.segment && a.offset ≤ b.offset)

/-- The lines of a stretch of code, as bytes. -/
structure Stretch where
  start : Address
  codeSize : Nat
  blocks : Bytes

/-- The line information of a module. -/
structure LineProgram where
  stretches : List Stretch
  files : Bytes

namespace LineProgram

/-! ## Reading the subsections -/

def linesKind : Nat := 0xF2

def filesKind : Nat := 0xF4

/-- The kind of a subsection that is to be ignored. -/
def ignoredKind : Nat := 0x80000000

/-- Reads the header of a subsection with lines. -/
def stretch? (b : Bytes) : Option Stretch := do
  let offset ← Bytes.u32? b 0
  let segment ← Bytes.u16? b 4
  let codeSize ← Bytes.u32? b 8
  return ⟨⟨segment, offset⟩, codeSize, b.drop 12⟩

/-- Reads the subsections of `b`, at most `fuel` of them. Of several subsections with files the last one counts. -/
def subsections? : Nat → Bytes → LineProgram → Option LineProgram
  | 0, _, program => some program
  | fuel + 1, b, program =>
    if b.isEmpty then some program
    else do
      let kind ← Bytes.u32? b 0
      let length ← Bytes.u32? b 4
      let contents ← Bytes.slice? b 8 length
      guard (0xF1 ≤ kind ∧ kind ≤ 0xFD ∨ kind = ignoredKind)
      let program ←
        if kind = linesKind then do
          let s ← stretch? contents
          pure { program with stretches := program.stretches ++ [s] }
        else if kind = filesKind then pure { program with files := contents }
        else pure program
      subsections? fuel (b.drop (8 + length)) program

/-- Reads the line information of a module, and puts the stretches in the order of their addresses. -/
def read? (b : Bytes) : Option LineProgram := do
  let program ← subsections? b.length b ⟨[], []⟩
  return { program with stretches := Quicksort.sort (fun s t => ! t.start.le s.start) program.stretches }

/-! ## Lines of a procedure -/

/-- A line as it is stored: where its code starts, its number, and its file. -/
structure Entry where
  offset : Nat
  line : Nat
  file : Nat

/-- Offsets have 32 bits and wrap around. -/
def offsetModulus : Nat := 0x100000000

/-- The distance from one offset on to another, around the end if need be. -/
def distance (start stop : Nat) : Nat := (stop + offsetModulus - start) % offsetModulus

/-- The lines of a block, each eight bytes. -/
def entries (file base : Nat) : Bytes → List Entry
  | a :: b :: c :: d :: e :: f :: g :: _ :: rest =>
    ⟨(base + Bytes.le [a, b, c, d]) % offsetModulus, Bytes.le [e, f, g], file⟩ :: entries file base rest
  | _ => []

/-- The lines of all blocks of a stretch, at most `fuel` blocks. -/
def blockEntries? (base : Nat) : Nat → Bytes → Option (List Entry)
  | 0, _ => some []
  | fuel + 1, b =>
    if b.isEmpty then some []
    else do
      let file ← Bytes.u32? b 0
      let count ← Bytes.u32? b 4
      let size ← Bytes.u32? b 8
      guard (12 + 8 * count ≤ size)
      let block ← Bytes.slice? b 12 (size - 12)
      let rest ← blockEntries? base fuel (b.drop size)
      return entries file base (block.take (8 * count)) ++ rest

/-- The stretch whose lines a procedure at `address` has. -/
def stretchFor? (p : LineProgram) (address : Address) : Option Stretch :=
  let last := p.stretches.foldl (fun best s =>
    if s.start.le address && best.all (fun (t : Stretch) => t.start.le s.start) then some s else best) none
  last.filter (·.start.segment == address.segment)

/-- The name of the file at an offset of the files: an offset into the names, then a checksum of known kind. -/
def file? (p : LineProgram) (names : Option NameTable) (offset : Nat) : Option (Option String) := do
  let name ← Bytes.u32? p.files offset
  let size ← Bytes.u8? p.files (offset + 4)
  guard ((← Bytes.u8? p.files (offset + 5)) ≤ 3)
  let _ ← Bytes.from? p.files (Bytes.roundUp4 (offset + 6 + size))
  match names with
  | none => return none
  | some names => return some (← names.name? name)

/-- The lines with their lengths: each reaches to the next line, the last one to `stop`. -/
def records? (p : LineProgram) (names : Option NameTable) (stop : Nat) : List Entry → Option (List LineRecord)
  | [] => some []
  | e :: rest => do
    let file ← p.file? names e.file
    let next := (rest.head?.map (·.offset)).getD stop
    let records ← p.records? names stop rest
    return ⟨e.offset, some (distance e.offset next), e.line, file⟩ :: records

/-- The lines of the procedure at `address`, by increasing offset; `none` when they cannot be read. Lines that mark
code without a source are left out. -/
def linesAt? (p : LineProgram) (names : Option NameTable) (address : Address) : Option (List LineRecord) :=
  match p.stretchFor? address with
  | none => some []
  | some s => do
    let entries ← blockEntries? s.start.offset s.blocks.length s.blocks
    let kept := entries.filter fun e => ! LineIndex.marksNoSource e.line
    let records ← p.records? names ((s.start.offset + s.codeSize) % offsetModulus) kept
    return records.mergeSort fun a b => a.offset ≤ b.offset

end LineProgram

end Symbolicate.NativePdb
