import Symbolicate.DebugId
import Symbolicate.NativePdb.Container
import Symbolicate.Text.Utf8

/-!
# Streams of native debug files

Stream 1 holds the identity of the file and a map from names to streams; the stream named `/names` holds the names of
source files; stream 3 lists the modules that the program was linked from.
-/

namespace Symbolicate.NativePdb

/-- The bytes before the first NUL from `pos` on, and the position behind that NUL. -/
def cstring? (b : Bytes) (pos : Nat) : Option (Bytes × Nat) := do
  let rest ← Bytes.from? b pos
  let text := Bytes.untilNul rest
  guard (text.length < rest.length)
  return (text, pos + text.length + 1)

/-! ## Identity and named streams -/

/-- What stream 1 says about the file. -/
structure Info where
  guid : Guid
  age : Nat
  /-- The size of the names that follow the identity. -/
  namesSize : Nat
  contents : Bytes

namespace Info

/-- Where the names start. -/
def namesStart : Nat := 32

/-- Reads stream 1. -/
def read? (b : Bytes) : Option Info := do
  let age ← Bytes.u32? b 8
  let guid ← (Bytes.slice? b 12 16).bind Guid.ofFile?
  let namesSize ← Bytes.u32? b 28
  return ⟨guid, age, namesSize, b⟩

/-- The entries of the map from `pos` on: names with the numbers of their streams. -/
def entries? (names b : Bytes) : Nat → Nat → Option (List (Bytes × Nat))
  | 0, _ => some []
  | count + 1, pos => do
    let offset ← Bytes.u32? b pos
    let number ← Bytes.u32? b (pos + 4)
    let (name, _) ← cstring? names offset
    let rest ← entries? names b count (pos + 8)
    return (name, number % 0x10000) :: rest

def namedStreams? (i : Info) : Option (List (Bytes × Nat)) := do
  let names ← Bytes.slice? i.contents namesStart i.namesSize
  let pos := namesStart + i.namesSize
  let count ← Bytes.u32? i.contents pos
  let _ ← Bytes.u32? i.contents (pos + 4)
  let presentWords ← Bytes.u32? i.contents (pos + 8)
  let pos := pos + 12 + 4 * presentWords
  let deletedWords ← Bytes.u32? i.contents pos
  let pos := pos + 4 + 4 * deletedWords
  let _ ← Bytes.from? i.contents pos
  entries? names i.contents count pos

end Info

/-! ## Names of source files -/

/-- The number by which a reference says that there is no stream. -/
def noStream : Nat := 0xFFFF

/-- The name of the stream with the names of source files. -/
def nameTableName : Bytes := Utf8.ofString "/names"

/-- The names of source files, each ended by a NUL and known by its offset. -/
structure NameTable where
  names : Bytes

namespace NameTable

/-- Reads the stream of names: a header, the names, and at least twelve bytes of an index by hash. -/
def read? (b : Bytes) : Option NameTable := do
  guard ((← Bytes.u32? b 0) = 0xEFFEEFFE)
  guard ((← Bytes.u32? b 4) ∈ [1, 2])
  let size ← Bytes.u32? b 8
  let names ← Bytes.slice? b 12 size
  guard (24 + size ≤ b.length)
  return ⟨names⟩

/-- The name at an offset, decoded with U+FFFD for what is not UTF-8. -/
def name? (t : NameTable) (offset : Nat) : Option String := do
  let (name, _) ← cstring? t.names offset
  return String.ofList (Utf8.decodeLossy name)

end NameTable

/-- The names of source files, if the container has them. A file may lack them, but they may not be damaged. -/
def nameTable? (c : Container) (i : Info) : Option (Option NameTable) := do
  match (← i.namedStreams?).find? (·.1 == nameTableName) with
  | none => return none
  | some (_, number) =>
    if number = noStream then return none
    else return some (← NameTable.read? (← c.stream? number))

/-! ## Modules -/

/-- A module: its stream, and the sizes of what the stream holds. -/
structure Module where
  stream : Nat
  symbolsSize : Nat
  oldLinesSize : Nat
  linesSize : Nat

/-- What stream 3 says about the program. -/
structure Program where
  age : Nat
  modulesSize : Nat
  contents : Bytes

namespace Program

/-- The size of the header in front of the modules. -/
def headerSize : Nat := 64

/-- Reads the header of stream 3. -/
def read? (b : Bytes) : Option Program := do
  let _ ← Bytes.slice? b 0 headerSize
  guard ((← Bytes.u32? b 0) = 0xFFFFFFFF)
  return ⟨← Bytes.u32? b 8, ← Bytes.u32? b 24, b⟩

/-- The module at `pos` of the list, and where the next one starts: a fixed part, two names, and padding. -/
def moduleAt? (list : Bytes) (pos : Nat) : Option (Module × Nat) := do
  let fixed ← Bytes.slice? list pos 64
  let m : Module := {
    stream := ← Bytes.u16? fixed 34, symbolsSize := ← Bytes.u32? fixed 36, oldLinesSize := ← Bytes.u32? fixed 40,
    linesSize := ← Bytes.u32? fixed 44 }
  let (_, pos) ← cstring? list (pos + 64)
  let (_, pos) ← cstring? list pos
  let next := Bytes.roundUp4 pos
  let _ ← Bytes.from? list next
  return (m, next)

/-- The modules from `pos` of the list on, at most `fuel` of them. -/
def modulesFrom? (list : Bytes) : Nat → Nat → Option (List Module)
  | 0, _ => some []
  | fuel + 1, pos =>
    if pos ≥ list.length then some []
    else do
      let (m, next) ← moduleAt? list pos
      return m :: (← modulesFrom? list fuel next)

def modules? (p : Program) : Option (List Module) := do
  let list ← Bytes.slice? p.contents headerSize p.modulesSize
  modulesFrom? list list.length 0

end Program

end Symbolicate.NativePdb
