import Symbolicate.PortablePdb.Compressed
import Symbolicate.PortablePdb.Error

/-!
# Sequence points

The line information of one method: at which offset of its code which range of source lines begins, and which stretches
are hidden. Offsets, lines and columns are stored as differences to the record before.
-/

namespace Symbolicate.PortablePdb

/-- A range of a source file, end excluded. -/
structure Span where
  startLine : Nat
  startColumn : Nat
  endLine : Nat
  endColumn : Nat
  deriving DecidableEq, Repr

/-- Where code of a method comes from: code from `offset` on belongs to `span` of a document, or is hidden. -/
structure SequencePoint where
  offset : Nat
  document : Nat
  span : Option Span
  deriving DecidableEq, Repr

/-- The line number that marks hidden code; no visible range may start or end there. -/
def hiddenLine : Nat := 0xfeefee

/-- The range with the given ends, if it is within the limits of the format and not empty. -/
def Span.of? (startLine startColumn endLine endColumn : Int) : Option Span :=
  if 0 ≤ startLine ∧ startLine < 0x20000000 ∧ 0 ≤ endLine ∧ endLine < 0x20000000 ∧
      0 ≤ startColumn ∧ startColumn < 0x10000 ∧ 0 ≤ endColumn ∧ endColumn < 0x10000 ∧
      startLine ≠ hiddenLine ∧ endLine ≠ hiddenLine ∧
      (startLine < endLine ∨ startLine = endLine ∧ startColumn < endColumn) then
    some ⟨startLine.toNat, startColumn.toNat, endLine.toNat, endColumn.toNat⟩
  else none

namespace SequencePoint

def isHidden (p : SequencePoint) : Bool := p.span.isNone

/-- An unsigned number at the start of `data`, and the bytes behind it. -/
def unsigned (data : Bytes) : Except FormatError (Nat × Bytes) :=
  require .invalidCompressedUnsigned (Compressed.unsigned? data)

/-- A signed number at the start of `data`, and the bytes behind it. -/
def signed (data : Bytes) : Except FormatError (Int × Bytes) :=
  require .invalidCompressedSigned (Compressed.signed? data)

/-- The start of a range: absolute in the first visible record, else relative to the visible record before. -/
def start (before : Option Span) (data : Bytes) : Except FormatError (Int × Int × Bytes) :=
  match before with
  | none => do
    let (line, data) ← unsigned data
    let (column, data) ← unsigned data
    return (line, column, data)
  | some span => do
    let (line, data) ← signed data
    let (column, data) ← signed data
    return (span.startLine + line, span.startColumn + column, data)

/-- One record: its point, and the bytes behind it. `offset` is that of the record before, `before` the range of the
visible record before. A record that spans no line and no column is hidden. -/
def record (offset : Option Nat) (before : Option Span) (document : Nat) (data : Bytes) :
    Except FormatError (SequencePoint × Bytes) := do
  let (delta, data) ← unsigned data
  let offset := offset.getD 0 + delta
  if offset ≥ 0x100000000 then throw (.plain .invalidSequencePoint)
  let (lines, data) ← unsigned data
  let (columns, data) ← if lines = 0 then
      (unsigned data).map fun (n, data) => ((n : Int), data)
    else signed data
  if lines = 0 ∧ columns = 0 then return (⟨offset, document, none⟩, data)
  let (line, column, data) ← start before data
  let span ← require .invalidSequencePoint (Span.of? line column (line + lines) (column + columns))
  if offset ≥ 0x20000000 then throw (.plain .invalidSequencePoint)
  return (⟨offset, document, some span⟩, data)

/-- The records of `data`, at most `fuel` of them. A record that starts with a zero offset, except the first, switches
to another document. -/
def records : Nat → Option Nat → Option Span → Nat → Bytes → Except FormatError (List SequencePoint)
  | _, _, _, _, [] => .ok []
  | 0, _, _, _, _ :: _ => .ok []
  | fuel + 1, offset, before, document, b :: rest => do
    if offset.isSome ∧ b = 0 then
      let (document, data) ← unsigned rest
      records fuel offset before document data
    else
      let (point, data) ← record offset before document (b :: rest)
      let points ← records fuel (some point.offset) (point.span <|> before) document data
      return point :: points

/-- The points of a blob whose row names `document`, or names none (zero) and leaves that to the blob. -/
def ofBlob (document : Nat) (blob : Bytes) : Except FormatError (List SequencePoint) := do
  let (_localSignature, data) ← unsigned blob
  if document = 0 then
    let (document, data) ← unsigned data
    records data.length none none document data
  else records data.length none none document data

/-- The visible point with the greatest offset that is not above `offset`, the last one if several have it. -/
def best? (offset : Nat) (points : List SequencePoint) : Option SequencePoint :=
  points.foldl (fun best p =>
    if ! p.isHidden && decide (p.offset ≤ offset) && best.all (fun q => q.offset ≤ p.offset) then some p
    else best) none

end SequencePoint

end Symbolicate.PortablePdb
