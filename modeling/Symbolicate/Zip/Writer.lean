import Symbolicate.Text.Utf8
import Symbolicate.Zip.Crc32
import Symbolicate.Zip.Signature

/-!
# Writing zip archives

Archives of plain entries: all headers with their contents, the directory, and the end record. Names are in UTF-8.
-/

namespace Symbolicate.Zip

def utf8Flag : Nat := 0x800

/-- The fields that the header and the directory record of an entry share, from the version needed to the length of the
extra field. The date is the first day that can be written. -/
def sharedFields (name contents : Bytes) : Bytes :=
  Bytes.ofLe 2 10 ++ Bytes.ofLe 2 utf8Flag ++ Bytes.ofLe 2 0 ++ Bytes.ofLe 2 0 ++ Bytes.ofLe 2 0x21 ++
    Bytes.ofLe 4 (crc32 contents).toNat ++ Bytes.ofLe 4 contents.length ++ Bytes.ofLe 4 contents.length ++
    Bytes.ofLe 2 name.length ++ Bytes.ofLe 2 0

def writeEntry (name contents : Bytes) : Bytes := headerSignature ++ sharedFields name contents ++ name ++ contents

/-- The directory record of an entry whose header stands at a position. -/
def directoryRecord (name contents : Bytes) (position : Nat) : Bytes :=
  directorySignature ++ Bytes.ofLe 2 10 ++ sharedFields name contents ++ Bytes.ofLe 2 0 ++ Bytes.ofLe 2 0 ++
    Bytes.ofLe 2 0 ++ Bytes.ofLe 4 0 ++ Bytes.ofLe 4 position ++ name

def writeEntries (entries : List (Bytes × Bytes)) : Bytes :=
  entries.flatMap fun (name, contents) => writeEntry name contents

/-- The directory records of entries, the header of the first at a position. -/
def writeDirectory : Nat → List (Bytes × Bytes) → Bytes
  | _, [] => []
  | position, (name, contents) :: rest =>
    directoryRecord name contents position ++ writeDirectory (position + (writeEntry name contents).length) rest

def writeEnd (count directorySize directory : Nat) : Bytes :=
  endSignature ++ Bytes.ofLe 2 0 ++ Bytes.ofLe 2 0 ++ Bytes.ofLe 2 count ++ Bytes.ofLe 2 count ++
    Bytes.ofLe 4 directorySize ++ Bytes.ofLe 4 directory ++ Bytes.ofLe 2 0

/-- An archive with the given entries, each with name and contents. -/
def write (entries : List (String × Bytes)) : Bytes :=
  let entries := entries.map fun (name, contents) => (Utf8.ofString name, contents)
  let body := writeEntries entries
  let directory := writeDirectory 0 entries
  body ++ directory ++ writeEnd entries.length directory.length body.length

end Symbolicate.Zip
