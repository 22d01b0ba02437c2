import Symbolicate.Guid
import Symbolicate.PortablePdb.Compressed
import Symbolicate.PortablePdb.TableKind
import Symbolicate.Text.Utf8

/-!
# Writing portable debug files

A minimal portable debug file from its contents: an identity, documents, and methods with their sequence points. The
file has the three streams that look-ups read and no others. Every visible point covers one column of one line.
-/

namespace Symbolicate.PortablePdb

/-! ## Contents -/

/-- A point of a method: the offset it starts at, its line unless it is hidden, and the document it switches to. -/
structure DraftPoint where
  offset : Nat
  line : Option Nat
  document : Option Nat
  deriving DecidableEq, Repr

/-- A method: the document its points start in, and its points. A method without points has no debug information. -/
structure DraftMethod where
  document : Nat
  points : List DraftPoint
  deriving DecidableEq, Repr

/-- The contents of a file to be written. -/
structure Draft where
  guid : Guid
  documents : List String
  methods : List DraftMethod

/-- What a draft refuses. -/
inductive DraftError where
  /-- The offsets of a method's points do not increase. -/
  | unorderedPoints
  deriving DecidableEq, Repr

def DraftError.message : DraftError → String
  | unorderedPoints => "sequence points must be ordered"

namespace Draft

/-- The draft with one more document, and the document's row. -/
def addDocument (d : Draft) (name : String) : Draft × Nat :=
  ({ d with documents := d.documents ++ [name] }, d.documents.length + 1)

/-- Whether each offset is below the next. -/
def increasing : List DraftPoint → Bool
  | p :: q :: rest => p.offset < q.offset && increasing (q :: rest)
  | _ => true

/-- The draft with one more method, and the method's token. -/
def addMethod (d : Draft) (method : DraftMethod) : Except DraftError (Draft × Nat) :=
  if increasing method.points then
    .ok ({ d with methods := d.methods ++ [method] }, 0x06000000 + (d.methods.length + 1))
  else .error .unorderedPoints

/-! ## The blob heap -/

/-- The heap with one more blob, and the blob's offset. -/
def addBlob (heap data : Bytes) : Bytes × Nat :=
  (heap ++ Compressed.ofUnsigned data.length ++ data, heap.length)

/-- Adds the parts of a document name to the heap and gives their offsets in compressed form. An empty part is written
as offset zero. -/
def addParts (heap : Bytes) : List (List Char) → Bytes × Bytes
  | [] => (heap, [])
  | part :: parts =>
    let (heap, offset) := if part.isEmpty then (heap, 0) else addBlob heap (Utf8.encode part)
    let (heap, offsets) := addParts heap parts
    (heap, Compressed.ofUnsigned offset ++ offsets)

/-- Adds a document name to the heap and gives its offset: split at slashes, else at backslashes, else in one part. -/
def addName (heap : Bytes) (name : String) : Bytes × Nat :=
  let cs := name.toList
  if '/' ∈ cs then
    let (heap, offsets) := addParts heap (Text.splitOn '/' cs)
    addBlob heap (UInt8.ofNat '/'.toNat :: offsets)
  else if '\\' ∈ cs then
    let (heap, offsets) := addParts heap (Text.splitOn '\\' cs)
    addBlob heap (UInt8.ofNat '\\'.toNat :: offsets)
  else
    let (heap, offset) := addBlob heap (Utf8.encode cs)
    addBlob heap (0 :: Compressed.ofUnsigned offset)

/-! ## Sequence points -/

/-- The difference of two lines in 32 bits, two's complement. -/
def lineDelta (line before : Nat) : Int := ((line : Int) - before).bmod 0x100000000

/-- What a point appends: its offset, less the offset before, and its range. -/
def encodePoint (offset : Option Nat) (line : Option Nat) (p : DraftPoint) : Bytes :=
  Compressed.ofUnsigned (p.offset - offset.getD 0) ++
    match p.line, line with
    | none, _ => Compressed.ofUnsigned 0 ++ Compressed.ofUnsigned 0
    | some l, none =>
      Compressed.ofUnsigned 0 ++ Compressed.ofUnsigned 1 ++ Compressed.ofUnsigned l ++ Compressed.ofUnsigned 1
    | some l, some before =>
      Compressed.ofUnsigned 0 ++ Compressed.ofUnsigned 1 ++ Compressed.ofSigned (lineDelta l before) ++
        Compressed.ofSigned 0

/-- The records of points behind the point at `offset`, the visible line before and the document in force. A point in
another document is preceded by a record that switches to it, unless it is the first. -/
def encodePoints (offset : Option Nat) (line : Option Nat) (document : Nat) : List DraftPoint → Bytes
  | [] => []
  | p :: rest =>
    let next := if offset.isSome then p.document.getD document else document
    (if next = document then [] else Compressed.ofUnsigned 0 ++ Compressed.ofUnsigned next) ++
      encodePoint offset line p ++ encodePoints (some p.offset) (p.line <|> line) next rest

/-- The document column and the blob of a method. A method that names documents at its points has zero in the column
and its first document in the blob. -/
def encodeMethod (m : DraftMethod) : Nat × Bytes :=
  let switches := m.points.any (·.document.isSome)
  let first := (m.points.head?.bind (·.document)).getD m.document
  let column := if switches then 0 else m.document
  let announced := if switches then Compressed.ofUnsigned first else []
  (column, Compressed.ofUnsigned 0 ++ announced ++ encodePoints none none first m.points)

/-! ## Streams -/

/-- Adds all document names and gives their offsets. -/
def addNames (heap : Bytes) : List String → Bytes × List Nat
  | [] => (heap, [])
  | name :: names =>
    let (heap, offset) := addName heap name
    let (heap, offsets) := addNames heap names
    (heap, offset :: offsets)

/-- Adds the blobs of all methods and gives the cells of their rows: document and blob. -/
def addMethods (heap : Bytes) : List DraftMethod → Bytes × List (Nat × Nat)
  | [] => (heap, [])
  | m :: methods =>
    let (heap, row) :=
      if m.points.isEmpty then (heap, (m.document, 0))
      else
        let (document, blob) := encodeMethod m
        let (heap, offset) := addBlob heap blob
        (heap, (document, offset))
    let (heap, rows) := addMethods heap methods
    (heap, row :: rows)

/-- The `#Pdb` stream: identity, no entry point, and the number of methods as the rows of the assembly's table. -/
def idStream (d : Draft) : Bytes :=
  d.guid.toFile ++ Bytes.ofLe 4 0 ++ Bytes.ofLe 4 0 ++ Bytes.ofLe 8 (1 <<< TableKind.methodDef.number) ++
    Bytes.ofLe 4 d.methods.length

/-- The `#~` stream with the tables `Document` and `MethodDebugInformation`, which are left out when empty. -/
def tableStream (d : Draft) (isWide : Bool) (names : List Nat) (rows : List (Nat × Nat)) : Bytes :=
  let blob := Bytes.ofLe (if isWide then 4 else 2)
  let bit (isPresent : Bool) (k : TableKind) : Nat := if isPresent then 1 <<< k.number else 0
  let count (n : Nat) : Bytes := if n = 0 then [] else Bytes.ofLe 4 n
  Bytes.ofLe 4 0 ++ [2, 0, if isWide then 4 else 0, 1] ++
    Bytes.ofLe 8 (bit (d.documents ≠ []) .document + bit (d.methods ≠ []) .methodDebugInformation) ++
    Bytes.ofLe 8 0 ++ count d.documents.length ++ count d.methods.length ++
    names.flatMap (fun name => blob name ++ Bytes.ofLe 2 0 ++ blob 0 ++ Bytes.ofLe 2 0) ++
    rows.flatMap fun (document, offset) => Bytes.ofLe 2 document ++ blob offset

/-- The directory entries of streams whose contents start at `start` one after the other. -/
def directory (start : Nat) : List (String × Bytes) → Bytes
  | [] => []
  | (name, contents) :: rest =>
    let size := Bytes.roundUp4 contents.length
    Bytes.ofLe 4 start ++ Bytes.ofLe 4 size ++ Bytes.pad4 (Utf8.ofString name ++ [0]) ++
      directory (start + size) rest

/-- The version that the header names, with its padding. -/
def versionBytes : Bytes := Utf8.ofString "PDB v1.0" ++ [0, 0, 0, 0]

def write (d : Draft) : Bytes :=
  let (heap, names) := addNames [0] d.documents
  let (heap, rows) := addMethods heap d.methods
  let streams := [
    ("#Pdb", d.idStream), ("#~", d.tableStream (heap.length > 0xffff) names rows), ("#Blob", heap)]
  let head := Utf8.ofString "BSJB" ++ Bytes.ofLe 2 1 ++ Bytes.ofLe 2 1 ++ Bytes.ofLe 4 0 ++
    Bytes.ofLe 4 versionBytes.length ++ versionBytes ++ Bytes.ofLe 2 0 ++ Bytes.ofLe 2 streams.length
  let start := head.length + (directory 0 streams).length
  head ++ directory start streams ++ streams.flatMap fun (_, contents) => Bytes.pad4 contents

end Draft

end Symbolicate.PortablePdb
