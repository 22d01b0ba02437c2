import Symbolicate.Bytes.Basic
import Symbolicate.CommandLine.Options
import Symbolicate.CommandLine.Run
import Symbolicate.DebugFile.Basic
import Symbolicate.DebugFile.Open
import Symbolicate.DebugFile.Summary
import Symbolicate.DebugId
import Symbolicate.Files.Error
import Symbolicate.Files.FileSystem
import Symbolicate.Files.Path
import Symbolicate.Files.Tree
import Symbolicate.Guid
import Symbolicate.Main
import Symbolicate.NativePdb.Basic
import Symbolicate.NativePdb.Container
import Symbolicate.NativePdb.LineIndex
import Symbolicate.NativePdb.LineProgram
import Symbolicate.NativePdb.Streams
import Symbolicate.PortablePdb.Basic
import Symbolicate.PortablePdb.Compressed
import Symbolicate.PortablePdb.Error
import Symbolicate.PortablePdb.Lookup
import Symbolicate.PortablePdb.SequencePoint
import Symbolicate.PortablePdb.TableKind
import Symbolicate.PortablePdb.TableStream
import Symbolicate.PortablePdb.Writer
import Symbolicate.Proofs.Bytes.Slices
import Symbolicate.Proofs.DebugFile.Identity
import Symbolicate.Proofs.Files.Path
import Symbolicate.Proofs.Files.Runs
import Symbolicate.Proofs.Files.Tree
import Symbolicate.Proofs.Lists.FirstMentions
import Symbolicate.Proofs.NativePdb.LineRecords
import Symbolicate.Proofs.NativePdb.Retries
import Symbolicate.Proofs.PortablePdb.BlobHeap
import Symbolicate.Proofs.PortablePdb.Compressed
import Symbolicate.Proofs.PortablePdb.Layout
import Symbolicate.Proofs.PortablePdb.Machine.Lookup
import Symbolicate.Proofs.PortablePdb.Machine.Points
import Symbolicate.Proofs.PortablePdb.Machine.Read
import Symbolicate.Proofs.PortablePdb.Machine.Tables
import Symbolicate.Proofs.PortablePdb.Machine.Words
import Symbolicate.Proofs.PortablePdb.Parts
import Symbolicate.Proofs.PortablePdb.Records
import Symbolicate.Proofs.PortablePdb.RoundTrip
import Symbolicate.Proofs.PortablePdb.SequencePoints
import Symbolicate.Proofs.PortablePdb.Streams
import Symbolicate.Proofs.PortablePdb.Tables
import Symbolicate.Proofs.PortablePdb.Truncation
import Symbolicate.Proofs.Report.Annotate
import Symbolicate.Proofs.Report.Faults
import Symbolicate.Proofs.Report.FrameGrammar
import Symbolicate.Proofs.Report.Idempotent
import Symbolicate.Proofs.Report.Lines
import Symbolicate.Proofs.Report.Loads
import Symbolicate.Proofs.Report.ModuleTable
import Symbolicate.Proofs.Report.Numbering
import Symbolicate.Proofs.Report.Normalized
import Symbolicate.Proofs.Report.Provenance
import Symbolicate.Proofs.Report.Reference
import Symbolicate.Proofs.Report.Registration
import Symbolicate.Proofs.Report.Splitting
import Symbolicate.Proofs.Store.Candidates
import Symbolicate.Proofs.Store.Changes
import Symbolicate.Proofs.Store.Find
import Symbolicate.Proofs.Store.Layout
import Symbolicate.Proofs.Store.Packages
import Symbolicate.Proofs.Store.Stable
import Symbolicate.Proofs.Store.Symbols
import Symbolicate.Proofs.Store.Verified
import Symbolicate.Proofs.Text.Ascii
import Symbolicate.Proofs.Text.Blank
import Symbolicate.Proofs.Text.Hexadecimal
import Symbolicate.Proofs.Text.Utf8
import Symbolicate.Quicksort
import Symbolicate.Report.Basic
import Symbolicate.Report.Frame
import Symbolicate.Report.ModuleInfo
import Symbolicate.Report.ModuleTable
import Symbolicate.Report.Translate
import Symbolicate.SourceLocation
import Symbolicate.Store.Basic
import Symbolicate.Store.Error
import Symbolicate.Store.Find
import Symbolicate.Store.Package
import Symbolicate.Store.Request
import Symbolicate.Store.SymbolPath
import Symbolicate.Store.Symbols
import Symbolicate.Text.Ascii
import Symbolicate.Text.Blank
import Symbolicate.Text.CaseTable
import Symbolicate.Text.CodePage
import Symbolicate.Text.HiddenTable
import Symbolicate.Text.Lowercase
import Symbolicate.Text.Quoted
import Symbolicate.Text.Ranges
import Symbolicate.Text.Utf8
import Symbolicate.Zip.Archive
import Symbolicate.Zip.Crc32
import Symbolicate.Zip.EndRecord
import Symbolicate.Zip.Huffman
import Symbolicate.Zip.Inflate
import Symbolicate.Zip.Record
import Symbolicate.Zip.Signature
import Symbolicate.Zip.Writer
import Symbolicate.Proofs.PortablePdb.DirectoryOrder
import Symbolicate.Proofs.PortablePdb.Cells
import Symbolicate.Proofs.Files.Interleaving
import Symbolicate.Proofs.Files.Dirs
import Symbolicate.Proofs.Store.Extracting
import Symbolicate.Proofs.Store.Concurrent
import Symbolicate.Proofs.Report.ModuleLines
import Symbolicate.Proofs.Store.PathText
import Symbolicate.Proofs.Store.Opening
import Symbolicate.Proofs.Store.Keys
import Symbolicate.Proofs.NativePdb.LineNumbers
import Symbolicate.Proofs.Store.Revisiting
import Symbolicate.Proofs.DebugFile.Markers
import Symbolicate.Proofs.Report.FooterNames
import Symbolicate.Proofs.PortablePdb.CompressedForms
import Symbolicate.Proofs.Store.Targets
import Symbolicate.Proofs.Store.Blame
