import Symbolicate.DebugFile.Basic
import Symbolicate.Text.Quoted

/-!
# Summaries of debug files

A one-line text that says what a debug file is, for logs: headers, identity, and which streams or how many methods it
has.
-/

namespace Symbolicate

/-- A record with named fields in braces. -/
private def record (name : String) (fields : List (String × String)) : String :=
  name ++ " \x7b " ++ ", ".intercalate (fields.map fun (field, value) => field ++ ": " ++ value) ++ " \x7d"

/-- A truth value in words. -/
private def truth (b : Bool) : String := if b then "true" else "false"

def DebugId.summary (id : DebugId) : String :=
  record "DebugId" [("uuid", Text.quoted (String.ofList id.guid.hyphenated)), ("appendix", Text.decimalText id.age.toNat)]

namespace PortablePdb

def RootHeader.summary (h : RootHeader) : String :=
  record "Header" [
    ("signature", Text.decimalText h.signature), ("major_version", Text.decimalText h.majorVersion),
    ("minor_version", Text.decimalText h.minorVersion), ("_reserved", Text.decimalText h.reserved),
    ("version_length", Text.decimalText h.versionLength)]

def summary (p : PortablePdb) : String :=
  record "PortablePdb" [
    ("header", p.header.summary), ("version_string", Text.quoted p.version),
    ("pdb_guid", p.id.elim "None" fun id => "Some(" ++ String.ofList id.guid.hyphenated ++ ")"),
    ("has_table_stream", truth p.tables.isSome), ("has_blob_stream", truth p.blobs.isSome)]

end PortablePdb

def DebugFile.summary : DebugFile → String
  | native file =>
    "Pdb(" ++ record "NativePdbDebugFile" [
      ("debug_id", file.debugId.summary), ("methods", Text.decimalText file.index.size)] ++ ")"
  | portable file id =>
    "PortablePdb(" ++ record "PortablePdbDebugFile" [
      ("debug_id", id.summary), ("ppdb", file.summary)] ++ ")"

end Symbolicate
