import Symbolicate.Bytes.Basic

/-!
# Signatures of zip archives

Every record of an archive starts with four bytes that tell its kind. A reader finds some records by looking for these
bytes.
-/

namespace Symbolicate.Zip

def endSignature : Bytes := [0x50, 0x4B, 0x05, 0x06]

def wideEndSignature : Bytes := [0x50, 0x4B, 0x06, 0x06]

/-- The signature of the locator of the wide end record. -/
def locatorSignature : Bytes := [0x50, 0x4B, 0x06, 0x07]

def directorySignature : Bytes := [0x50, 0x4B, 0x01, 0x02]

/-- The signature of the header in front of an entry. -/
def headerSignature : Bytes := [0x50, 0x4B, 0x03, 0x04]

/-- The positions at which a signature stands, in order; the first byte has position `pos`. -/
def positionsFrom (signature : Bytes) : Nat → Bytes → List Nat
  | _, [] => []
  | pos, b :: rest =>
    if signature.isPrefixOf (b :: rest) then pos :: positionsFrom signature (pos + 1) rest
    else positionsFrom signature (pos + 1) rest

/-- The positions at which a signature stands, in order. -/
def positions (signature : Bytes) (b : Bytes) : List Nat := positionsFrom signature 0 b

end Symbolicate.Zip
