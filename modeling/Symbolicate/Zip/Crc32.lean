import Symbolicate.Bytes.Basic

/-!
# Checksums

The 32-bit cyclic redundancy check of zip archives: polynomial 0xEDB88320 (bits reversed), started from and finished
with all ones.
-/

namespace Symbolicate.Zip

def crcBit (r : UInt32) : UInt32 := if r &&& 1 = 1 then (r >>> 1) ^^^ 0xEDB88320 else r >>> 1

def crcByte (r : UInt32) (b : UInt8) : UInt32 :=
  let r := r ^^^ b.toUInt32
  crcBit (crcBit (crcBit (crcBit (crcBit (crcBit (crcBit (crcBit r)))))))

/-- The checksum of a byte string. -/
def crc32 (b : Bytes) : UInt32 := b.foldl crcByte 0xFFFFFFFF ^^^ 0xFFFFFFFF

end Symbolicate.Zip
