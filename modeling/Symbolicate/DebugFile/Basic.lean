import Symbolicate.NativePdb.Basic
import Symbolicate.PortablePdb.Lookup

/-!
# Debug files

A debug file of either format, told by the signature at its start and not by its name: its identity, what can be wrong
with it, and source look-ups. Verification reads only the identity (`DebugFileIdentity.read`), look-ups read the whole
file (`DebugFile.read`).
-/

namespace Symbolicate

/-! ## Formats -/

/-- The format of a debug file. -/
inductive FileFormat where
  | unknown
  | native
  | portable
  deriving DecidableEq, Repr

namespace FileFormat

def name : FileFormat → String
  | unknown => "unknown"
  | native => "pdb"
  | portable => "portablepdb"

def parse? (s : String) : Option FileFormat :=
  if s = native.name then some native else if s = portable.name then some portable else none

def unknownNameMessage : String := "unknown file format"

/-- The format that the start of a file shows. -/
def of (b : Bytes) : FileFormat :=
  if NativePdb.peek b then native else if PortablePdb.peek b then portable else unknown

end FileFormat

/-! ## Faults -/

/-- The kinds of faults of debug files. -/
inductive DebugFileErrorKind where
  /-- The file cannot be read. -/
  | io
  /-- The file is of neither format. -/
  | unsupportedFormat
  /-- The native debug file is damaged. -/
  | badNative
  /-- The portable debug file is damaged. -/
  | badPortable
  deriving DecidableEq, Repr

def DebugFileErrorKind.message : DebugFileErrorKind → String
  | io => "failed to read debug file"
  | unsupportedFormat => "unsupported debug file format"
  | badNative => "invalid pdb file"
  | badPortable => "invalid portable pdb file"

/-- What lies behind a fault of a debug file. -/
inductive DebugFileCause where
  | unreadable
  | badNative
  | badPortable (cause : PortablePdb.FormatError)
  deriving DecidableEq, Repr

/-- A fault of a debug file, with its cause if there is one. -/
structure DebugFileError where
  kind : DebugFileErrorKind
  cause : Option DebugFileCause
  deriving DecidableEq, Repr

namespace DebugFileError

/-- The message of a fault, which leaves its cause out. -/
def message (e : DebugFileError) : String := e.kind.message

/-- The file cannot be read. -/
def unreadable : DebugFileError := ⟨.io, some .unreadable⟩

/-- The file is of neither format. -/
def unsupported : DebugFileError := ⟨.unsupportedFormat, none⟩

/-- The native debug file is damaged. -/
def badNative : DebugFileError := ⟨.badNative, some .badNative⟩

/-- The portable debug file is damaged. -/
def badPortable (cause : PortablePdb.FormatError) : DebugFileError := ⟨.badPortable, some (.badPortable cause)⟩

end DebugFileError

/-! ## Identity -/

/-- The identity that a debug file carries. -/
structure DebugFileIdentity where
  format : FileFormat
  debugId : DebugId
  deriving DecidableEq, Repr

namespace DebugFileIdentity

/-- Whether the file is the one asked for. A portable file has no age, so only its GUID is compared. -/
def matchesId (i : DebugFileIdentity) (requested : DebugId) : Bool :=
  match i.format with
  | .portable => i.debugId.guid == requested.guid
  | _ => i.debugId == requested

/-- Reads the identity of a debug file, without the lines of a native one. -/
def read (b : Bytes) : Except DebugFileError DebugFileIdentity :=
  match FileFormat.of b with
  | .native =>
    match NativePdb.identity? b with
    | some id => .ok ⟨.native, id⟩
    | none => .error .badNative
  | .portable =>
    match PortablePdb.read b with
    | .error e => .error (.badPortable e)
    | .ok p =>
      match p.debugId? with
      | some id => .ok ⟨.portable, id⟩
      | none => .error ⟨.badPortable, none⟩
  | .unknown => .error .unsupported

end DebugFileIdentity

/-! ## Files -/

/-- A debug file that has been read. A portable file has to carry an identity. -/
inductive DebugFile where
  | native (file : NativePdb)
  | portable (file : PortablePdb) (debugId : DebugId)

namespace DebugFile

def read (b : Bytes) : Except DebugFileError DebugFile :=
  match FileFormat.of b with
  | .native =>
    match NativePdb.read? b with
    | some file => .ok (.native file)
    | none => .error .badNative
  | .portable =>
    match PortablePdb.read b with
    | .error e => .error (.badPortable e)
    | .ok p =>
      match p.debugId? with
      | some id => .ok (.portable p id)
      | none => .error (.badPortable (.plain .invalidHeader))
  | .unknown => .error .unsupported

def format : DebugFile → FileFormat
  | native _ => .native
  | portable _ _ => .portable

def debugId : DebugFile → DebugId
  | native file => file.debugId
  | portable _ id => id

def identity (f : DebugFile) : DebugFileIdentity := ⟨f.format, f.debugId⟩

/-- The source location of an offset into the method with a token. Faults of the file count as no location. -/
def sourceLocation : DebugFile → SourceLookup
  | native file => file.index.sourceLocation
  | portable file _ => fun token offset =>
    match file.lookup token offset with
    | .ok (some info) => SourceLocation.of? (some info.file) (UInt32.ofNat info.line)
    | _ => none

end DebugFile

end Symbolicate
