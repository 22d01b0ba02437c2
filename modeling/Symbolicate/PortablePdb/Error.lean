import Symbolicate.PortablePdb.TableKind
import Symbolicate.Text.Ascii

/-!
# Faults of portable debug files

What can be wrong with a portable debug file. A fault may have a cause: text that is not UTF-8, or, behind a document
name, another fault of the file.
-/

namespace Symbolicate.PortablePdb

/-- The kinds of faults of a portable debug file. -/
inductive FormatErrorKind where
  /-- A header is cut short or does not start at a multiple of its alignment. -/
  | invalidHeader
  /-- The file does not start with the metadata signature. -/
  | invalidSignature
  /-- The file ends before something it announces. -/
  | invalidLength
  /-- The version is not UTF-8. -/
  | invalidVersionString
  /-- A stream header is cut short or not aligned. -/
  | invalidStreamHeader
  /-- The name of a stream is not UTF-8. -/
  | invalidStreamName
  /-- The rows need more bytes than the table stream has left. -/
  | insufficientTableData (required available : Nat)
  /-- A table with rows is not part of the schema. -/
  | unknownTable (number : Nat)
  /-- An offset lies behind the blob heap, or a document name is empty. -/
  | invalidBlobOffset
  /-- A blob is cut short or not the text it has to be. -/
  | invalidBlobData
  /-- The file has no blob heap. -/
  | noBlobStream
  /-- A compressed unsigned number is cut short or has no known form. -/
  | invalidCompressedUnsigned
  /-- A compressed signed number is cut short or has no known form. -/
  | invalidCompressedSigned
  /-- The name of a document cannot be read. -/
  | invalidDocumentName
  /-- A sequence point leaves the limits of the format. -/
  | invalidSequencePoint
  /-- The file has no table stream. -/
  | noMetadataStream
  /-- A table has no such row. -/
  | rowIndexOutOfBounds (table : TableKind) (row : Nat)
  /-- A table has no such column. -/
  | colIndexOutOfBounds (table : TableKind) (col : Nat)
  deriving DecidableEq, Repr

def FormatErrorKind.message : FormatErrorKind → String
  | invalidHeader => "invalid header"
  | invalidSignature => "invalid signature"
  | invalidLength => "invalid length"
  | invalidVersionString => "invalid version string"
  | invalidStreamHeader => "invalid stream header"
  | invalidStreamName => "invalid stream name"
  | insufficientTableData required available =>
    "insufficient table data: " ++ Text.decimalText required ++ " bytes required, but table stream only contains " ++
      Text.decimalText available ++ " bytes"
  | unknownTable n => "unknown table 0x" ++ String.ofList (Text.zeroPadded 2 (Text.hexLower n))
  | invalidBlobOffset => "invalid blob offset"
  | invalidBlobData => "invalid blob data"
  | noBlobStream => "file does not contain a #Blob stream"
  | invalidCompressedUnsigned => "invalid compressed unsigned number"
  | invalidCompressedSigned => "invalid compressed signed number"
  | invalidDocumentName => "invalid document name"
  | invalidSequencePoint => "invalid sequence point"
  | noMetadataStream => "file does not contain a #~ stream"
  | rowIndexOutOfBounds table row =>
    "row index " ++ Text.decimalText row ++ " is out of bounds for table " ++ table.name
  | colIndexOutOfBounds table col =>
    "column index " ++ Text.decimalText col ++ " is out of bounds for table " ++ table.name

/-- A fault of a portable debug file, with its cause. -/
inductive FormatError where
  /-- A fault without a further cause. -/
  | plain (kind : FormatErrorKind)
  /-- A fault caused by text that is not UTF-8. -/
  | badText (kind : FormatErrorKind)
  /-- A fault caused by another one. -/
  | caused (kind : FormatErrorKind) (cause : FormatError)
  deriving DecidableEq, Repr

def FormatError.kind : FormatError → FormatErrorKind
  | plain kind | badText kind | caused kind _ => kind

/-- The message of a fault, which leaves its cause out. -/
def FormatError.message (e : FormatError) : String := e.kind.message

/-- The value, or a fault where there is none. -/
def require {α : Type} (kind : FormatErrorKind) : Option α → Except FormatError α
  | some a => .ok a
  | none => .error (.plain kind)

/-- The value, or a fault caused by bad text where there is none. -/
def requireText {α : Type} (kind : FormatErrorKind) : Option α → Except FormatError α
  | some a => .ok a
  | none => .error (.badText kind)

end Symbolicate.PortablePdb
