import Symbolicate.PortablePdb.Basic
import Symbolicate.PortablePdb.SequencePoint

/-!
# Line look-ups in portable debug files

From a method token and an offset into the method's code to a document and a line, through the blob heap and the two
tables `MethodDebugInformation` and `Document`.
-/

namespace Symbolicate.PortablePdb

/-- A line of a document. -/
structure LineInfo where
  file : String
  line : Nat
  deriving DecidableEq, Repr

/-! ## Blobs and cells -/

/-- The blob at an offset of the heap: a length, and so many bytes. -/
def blob (p : PortablePdb) (offset : Nat) : Except FormatError Bytes := do
  let heap ← require .noBlobStream p.blobs
  let data ← require .invalidBlobOffset (Bytes.from? heap offset)
  let (length, data) ← SequencePoint.unsigned data
  require .invalidBlobData (Bytes.slice? data 0 length)

/-- The table stream, which look-ups cannot do without. -/
def tableStream (p : PortablePdb) : Except FormatError TableStream :=
  require .noMetadataStream p.tables

def cell (p : PortablePdb) (k : TableKind) (row col : Nat) : Except FormatError Nat := do
  (← p.tableStream).cell k row col

/-! ## Document names -/

/-- The parts of a document name, each the offset of a blob and empty for offset zero, at most `fuel` of them. -/
def nameParts (p : PortablePdb) : Nat → Bytes → Except FormatError (List (List Char))
  | _, [] => .ok []
  | 0, _ :: _ => .ok []
  | fuel + 1, b :: rest => do
    let (offset, data) ← SequencePoint.unsigned (b :: rest)
    let part ← if offset = 0 then pure []
      else do requireText .invalidBlobData (Utf8.decode? (← p.blob offset))
    let parts ← p.nameParts fuel data
    return part :: parts

/-- The document name in the blob at an offset: a separator, and the parts it stands between. -/
def nameAt (p : PortablePdb) (offset : Nat) : Except FormatError (List Char) := do
  match ← p.blob offset with
  | [] => throw (.plain .invalidBlobOffset)
  | sep :: data =>
    let sep ← if sep = 0 then pure [] else requireText .invalidBlobData (Utf8.decode? [sep])
    let parts ← p.nameParts data.length data
    return sep.intercalate parts

/-- The name of the document in a row of the `Document` table. -/
def documentName (p : PortablePdb) (row : Nat) : Except FormatError String := do
  let offset ← p.cell .document row 1
  match p.nameAt offset with
  | .ok name => return String.ofList name
  | .error e => throw (.caused .invalidDocumentName e)

/-! ## Look-ups -/

/-- The sequence points of the method in a row of the `MethodDebugInformation` table. -/
def sequencePoints (p : PortablePdb) (row : Nat) : Except FormatError (List SequencePoint) := do
  let document ← p.cell .methodDebugInformation row 1
  let offset ← p.cell .methodDebugInformation row 2
  if offset = 0 then return []
  SequencePoint.ofBlob document (← p.blob offset)

/-- The document and line of an offset into the code of the method with a token. There is none when the token is no
method of this file, or when no visible sequence point starts at the offset or before. -/
def lookup (p : PortablePdb) (token offset : UInt32) : Except FormatError (Option LineInfo) := do
  if token.toNat / 0x1000000 ≠ TableKind.methodDef.number then return none
  let row := token.toNat % 0x1000000
  let rows := (← p.tableStream).rowsOf .methodDebugInformation
  if row = 0 ∨ row > rows then return none
  match SequencePoint.best? offset.toNat (← p.sequencePoints row) with
  | some ⟨_, document, some span⟩ => return some ⟨← p.documentName document, span.startLine⟩
  | _ => return none

end Symbolicate.PortablePdb
