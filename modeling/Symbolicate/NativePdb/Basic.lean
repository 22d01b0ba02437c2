import Symbolicate.NativePdb.LineIndex
import Symbolicate.NativePdb.LineProgram
import Symbolicate.NativePdb.Streams

/-!
# Native debug files

A native debug file is read in two ways: only for its identity (`NativePdb.identity?`), or with an index of the lines of
its managed methods (`NativePdb.read?`). Anything that ends too early makes the file bad, except for the lines of one
procedure: such a procedure is left out of the index.
-/

namespace Symbolicate

/-- A native debug file: its identity, and the lines of its managed methods. -/
structure NativePdb where
  debugId : DebugId
  index : NativePdb.LineIndex

namespace NativePdb

/-! ## Identity -/

/-- The identity that stream 1 and stream 3 give together. The age in stream 3 is closer to the program, but it may be
missing (zero). -/
def debugIdOf (i : Info) (p : Program) : DebugId := ⟨i.guid, UInt32.ofNat (if p.age = 0 then i.age else p.age)⟩

/-- The identity of a file, read without its lines. -/
def identity? (b : Bytes) : Option DebugId := do
  let c ← Container.open? b
  let i ← Info.read? (← c.stream? 1)
  let p ← Program.read? (← c.stream? 3)
  return debugIdOf i p

/-! ## Procedures -/

/-- A managed procedure: the token of its method, and the address of its code. -/
structure Procedure where
  token : Nat
  address : Address
  deriving DecidableEq, Repr

/-- The kinds of symbols that are managed procedures. -/
def procedureKinds : List Nat := [0x101a, 0x101b, 0x112a, 0x112b]

/-- Reads a procedure from a symbol, which starts with its kind. Other symbols, and procedures that are cut short, give
none. -/
def procedure? (symbol : Bytes) : Option Procedure := do
  guard ((← Bytes.u16? symbol 0) ∈ procedureKinds)
  let token ← Bytes.u32? symbol 26
  let offset ← Bytes.u32? symbol 30
  let segment ← Bytes.u16? symbol 34
  return ⟨token, ⟨segment, offset⟩⟩

/-- The symbols of `b`, each behind its length, at most `fuel` of them. -/
def symbolsFrom? : Nat → Bytes → Option (List Bytes)
  | 0, _ => some []
  | fuel + 1, b =>
    if b.isEmpty then some []
    else do
      let length ← Bytes.u16? b 0
      guard (2 ≤ length)
      let symbol ← Bytes.slice? b 2 length
      return symbol :: (← symbolsFrom? fuel (b.drop (2 + length)))

/-- The symbols of a module's stream: unless there are none, a signature comes first. -/
def symbols? (b : Bytes) (size : Nat) : Option (List Bytes) := do
  let symbols ← Bytes.slice? b 0 size
  if size = 0 then return []
  guard ((← Bytes.u32? symbols 0) = 4)
  symbolsFrom? size (symbols.drop 4)

/-! ## The index -/

/-- Adds a procedure to the index, unless its lines cannot be read. -/
def addProcedure (names : Option NameTable) (program : LineProgram) (i : LineIndex) (p : Procedure) : LineIndex :=
  match program.linesAt? names p.address with
  | some lines => i.insert (UInt32.ofNat p.token) ⟨p.address.offset, lines⟩
  | none => i

/-- Adds the procedures of a module to the index. -/
def addModule (c : Container) (names : Option NameTable) (i : LineIndex) (m : Module) : Option LineIndex := do
  if m.stream = noStream then return i
  let b ← c.stream? m.stream
  guard (m.oldLinesSize = 0)
  let program ← LineProgram.read? (← Bytes.slice? b m.symbolsSize m.linesSize)
  let symbols ← symbols? b m.symbolsSize
  return (symbols.filterMap procedure?).foldl (addProcedure names program) i

/-- Reads a native debug file and indexes its lines. -/
def read? (b : Bytes) : Option NativePdb := do
  let c ← Container.open? b
  let i ← Info.read? (← c.stream? 1)
  let p ← Program.read? (← c.stream? 3)
  let names ← nameTable? c i
  let modules ← p.modules?
  let index ← modules.foldlM (addModule c names) LineIndex.empty
  return ⟨debugIdOf i p, index⟩

end NativePdb

end Symbolicate
