import Symbolicate.Zip.Huffman

/-!
# Inflating

Decompression of DEFLATE data: blocks of plain bytes or of symbols in a Huffman code, which stand for bytes and for
copies of earlier output. Zeros stand in front of the output, and a copy may reach back to them. Data that breaks a rule
of the format, or ends before its last block has ended, yields nothing.
-/

namespace Symbolicate.Zip.Inflate

/-! ## Symbols -/

/-- The least length of each length symbol, and how many more bits belong to it. -/
def lengthRows : List (Nat × Nat) := [
  (3, 0), (4, 0), (5, 0), (6, 0), (7, 0), (8, 0), (9, 0), (10, 0), (11, 1), (13, 1), (15, 1), (17, 1), (19, 2), (23, 2),
  (27, 2), (31, 2), (35, 3), (43, 3), (51, 3), (59, 3), (67, 4), (83, 4), (99, 4), (115, 4), (131, 5), (163, 5),
  (195, 5), (227, 5), (258, 0)]

/-- The least distance of each distance symbol, and how many more bits belong to it. -/
def distanceRows : List (Nat × Nat) := [
  (1, 0), (2, 0), (3, 0), (4, 0), (5, 1), (7, 1), (9, 2), (13, 2), (17, 3), (25, 3), (33, 4), (49, 4), (65, 5), (97, 5),
  (129, 6), (193, 6), (257, 7), (385, 7), (513, 8), (769, 8), (1025, 9), (1537, 9), (2049, 10), (3073, 10), (4097, 11),
  (6145, 11), (8193, 12), (12289, 12), (16385, 13), (24577, 13)]

/-- The value that a symbol of a table and the bits behind it give. -/
def extended (rows : List (Nat × Nat)) (symbol : Nat) (bits : List Bool) : Option (Nat × List Bool) := do
  let (base, extra) ← rows[symbol]?
  let (more, bits) ← readBits extra bits
  return (base + more, bits)

/-- The byte that stands `distance` before the end of the output. -/
def byteBefore (distance : Nat) (out : Array UInt8) : UInt8 :=
  if distance ≤ out.size then out.getD (out.size - distance) 0 else 0

/-- The output with `length` bytes copied from `distance` before its end, one after the other. -/
def copy (distance : Nat) : Nat → Array UInt8 → Array UInt8
  | 0, out => out
  | length + 1, out => copy distance length (out.push (byteBefore distance out))

/-- The output after a block of symbols, at most `fuel` of them, and the bits behind the block. -/
def symbols (literals distances : Code) : Nat → List Bool → Array UInt8 → Option (Array UInt8 × List Bool)
  | 0, _, _ => none
  | fuel + 1, bits, out => do
    let (s, bits) ← literals.read bits
    if s < 256 then symbols literals distances fuel bits (out.push (UInt8.ofNat s))
    else if s = 256 then return (out, bits)
    else
      let (length, bits) ← extended lengthRows (s - 257) bits
      let (d, bits) ← distances.read bits
      let (distance, bits) ← extended distanceRows d bits
      symbols literals distances fuel bits (copy distance length out)

/-! ## Codes of a block -/

def fixedLiterals : List Nat :=
  List.replicate 144 8 ++ List.replicate 112 9 ++ List.replicate 24 7 ++ List.replicate 8 8

def fixedDistances : List Nat := List.replicate 32 5

def fixedCodes : Option (Code × Code) := do
  return (← Code.ofLengths? true fixedLiterals, ← Code.ofLengths? true fixedDistances)

/-- The order in which the lengths of the code for lengths are stored. -/
def lengthOrder : List Nat := [16, 17, 18, 0, 8, 7, 9, 6, 10, 5, 11, 4, 12, 3, 13, 2, 14, 1, 15]

/-- `count` numbers of three bits. -/
def triples : Nat → List Bool → Option (List Nat × List Bool)
  | 0, bits => some ([], bits)
  | count + 1, bits => do
    let (n, bits) ← readBits 3 bits
    let (rest, bits) ← triples count bits
    return (n :: rest, bits)

/-- `count` code lengths behind those in `before`, at most `fuel` symbols. Three symbols repeat the length before, or
zero. -/
def lengths (code : Code) (count : Nat) : Nat → List Nat → List Bool → Option (List Nat × List Bool)
  | 0, _, _ => none
  | fuel + 1, before, bits =>
    if before.length > count then none
    else if before.length = count then some (before, bits)
    else do
      let (s, bits) ← code.read bits
      if s < 16 then lengths code count fuel (before ++ [s]) bits
      else if s = 16 then
        let last ← before.getLast?
        let (n, bits) ← readBits 2 bits
        lengths code count fuel (before ++ List.replicate (n + 3) last) bits
      else
        let (n, bits) ← readBits (if s = 17 then 3 else 7) bits
        lengths code count fuel (before ++ List.replicate (n + if s = 17 then 3 else 11) 0) bits

/-- The codes that a block brings along, for at most 286 literals and 30 distances. -/
def dynamicCodes (bits : List Bool) : Option ((Code × Code) × List Bool) := do
  let (literalCount, bits) ← readBits 5 bits
  let (distanceCount, bits) ← readBits 5 bits
  let (lengthCount, bits) ← readBits 4 bits
  guard (literalCount + 257 ≤ 286 ∧ distanceCount + 1 ≤ 30)
  let (stored, bits) ← triples (lengthCount + 4) bits
  let code ← Code.ofLengths? false ((List.range 19).map fun s => stored.getD (lengthOrder.idxOf s) 0)
  let (all, bits) ← lengths code (literalCount + 257 + distanceCount + 1) 320 [] bits
  let literals ← Code.ofLengths? true (all.take (literalCount + 257))
  let distances ← Code.ofLengths? true (all.drop (literalCount + 257))
  return ((literals, distances), bits)

/-! ## Blocks -/

/-- The output with the next `count` bytes of bits that start at a byte, and the bits behind them. -/
def plain : Nat → List Bool → Array UInt8 → Option (Array UInt8 × List Bool)
  | 0, bits, out => some (out, bits)
  | count + 1, bits, out => do
    let (b, bits) ← readBits 8 bits
    plain count bits (out.push (UInt8.ofNat b))

/-- The output after one block, and the bits behind it; with the kind of the block in `kind`. -/
def block (kind : Nat) (bits : List Bool) (out : Array UInt8) : Option (Array UInt8 × List Bool) := do
  if kind = 0 then
    let (size, bits) ← readBits 16 (bits.drop (bits.length % 8))
    let (check, bits) ← readBits 16 bits
    guard (size + check = 0xFFFF)
    plain size bits out
  else
    let ((literals, distances), bits) ←
      if kind = 1 then fixedCodes.map (·, bits) else if kind = 2 then dynamicCodes bits else none
    symbols literals distances (bits.length + 1) bits out

/-- The output of all blocks, at most `fuel` of them. -/
def blocks : Nat → List Bool → Array UInt8 → Option (Array UInt8)
  | 0, _, _ => none
  | fuel + 1, bits, out => do
    let (last, bits) ← readBits 1 bits
    let (kind, bits) ← readBits 2 bits
    let (out, bits) ← block kind bits out
    if last = 1 then return out else blocks fuel bits out

/-- The decompressed bytes, unless the data breaks a rule. -/
def inflate? (b : Bytes) : Option Bytes := (blocks (8 * b.length + 1) (bitsOf b) #[]).map Array.toList

end Symbolicate.Zip.Inflate
