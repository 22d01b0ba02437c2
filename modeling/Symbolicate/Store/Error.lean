import Symbolicate.DebugId
import Symbolicate.Files.Path

/-!
# Faults of symbol stores

What can go wrong when a debug file is looked for. Only symbol packages make a search fail: anything else that is
missing, damaged or different is passed over.
-/

namespace Symbolicate

/-- The kinds of faults of a symbol store. -/
inductive SymbolErrorKind where
  /-- A file cannot be read or written. -/
  | io
  /-- A symbol package cannot be read. -/
  | badArchive
  /-- A symbol package holds another debug file than the one its name promises. -/
  | archiveMismatch
  /-- A request to a symbol server failed. -/
  | download
  deriving DecidableEq, Repr

def SymbolErrorKind.message : SymbolErrorKind → String
  | io => "failed to access symbol file"
  | badArchive => "invalid symbol package"
  | archiveMismatch => "debug file in symbol package does not match the requested identity"
  | download => "failed to download symbol file"

/-- A package whose debug file is not the one asked for. -/
structure Mismatch where
  name : String
  package : FilePath
  requested : DebugId
  deriving DecidableEq, Repr

def Mismatch.message (m : Mismatch) : String :=
  m.name ++ " in " ++ m.package.text ++ " does not match " ++ m.requested.text

/-- A fault of a symbol store; a mismatch says which package it is about. -/
structure SymbolError where
  kind : SymbolErrorKind
  mismatch : Option Mismatch
  deriving DecidableEq, Repr

namespace SymbolError

/-- The message of a fault, which leaves its cause out. -/
def message (e : SymbolError) : String := e.kind.message

/-- A file cannot be read or written. -/
def io : SymbolError := ⟨.io, none⟩

/-- A symbol package cannot be read. -/
def badArchive : SymbolError := ⟨.badArchive, none⟩

/-- A symbol package holds another debug file. -/
def archiveMismatch (m : Mismatch) : SymbolError := ⟨.archiveMismatch, some m⟩

end SymbolError

end Symbolicate
