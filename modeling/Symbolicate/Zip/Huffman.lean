import Symbolicate.Bytes.Basic

/-!
# Huffman codes

Bits of a byte string, and the codes that give each symbol a run of bits. A code is a tree: a bit leads to one of two
smaller codes, and a leaf is a symbol. It is stored as the lengths of its symbols alone, since shorter symbols come
first, and of symbols with one length the smaller ones.

Main definitions: `Code.ofLengths?`, which refuses lengths that leave bits unused or use some twice, and `Code.read`.
-/

namespace Symbolicate.Zip

/-! ## Bits -/

/-- The bits of a byte string, those of a byte from the lowest on. -/
def bitsOf (b : Bytes) : List Bool := b.flatMap fun x => (List.range 8).map x.toNat.testBit

/-- The number in the next `n` bits, lowest first, and the bits behind them. -/
def readBits : Nat → List Bool → Option (Nat × List Bool)
  | 0, bits => some (0, bits)
  | _ + 1, [] => none
  | n + 1, b :: bits => do
    let (rest, bits) ← readBits n bits
    return (b.toNat + 2 * rest, bits)

/-! ## Codes -/

/-- A code: no symbol, one symbol, or two codes to choose from by a bit. -/
inductive Code where
  | empty
  | leaf (symbol : Nat)
  | node (zero one : Code)
  deriving DecidableEq, Repr

namespace Code

/-- The longest run of bits of a symbol. -/
def maxLength : Nat := 15

/-- The code of the first symbols of a list in order, each with its length, below a run of `depth` bits; and the symbols
that are left over. -/
def build : Nat → Nat → List (Nat × Nat) → Code × List (Nat × Nat)
  | _, _, [] => (empty, [])
  | 0, depth, (length, symbol) :: rest =>
    if length = depth then (leaf symbol, rest) else (empty, (length, symbol) :: rest)
  | fuel + 1, depth, (length, symbol) :: rest =>
    if length = depth then (leaf symbol, rest)
    else
      let (zero, rest) := build fuel (depth + 1) ((length, symbol) :: rest)
      let (one, rest) := build fuel (depth + 1) rest
      (node zero one, rest)

/-- The symbols with their lengths, in the order of the code. A symbol of length zero is not used. -/
def inOrder (lengths : List Nat) : List (Nat × Nat) :=
  (lengths.zipIdx.filter (·.1 ≠ 0)).mergeSort fun a b => a.1 ≤ b.1

/-- Whether the runs of symbols with the given lengths use up all runs of bits, each once. -/
def isComplete (used : List (Nat × Nat)) : Bool :=
  Bytes.total (used.map fun (length, _) => 1 <<< (maxLength - length)) == 1 <<< maxLength

/-- The code in which symbol `i` has the `i`-th length. It has to be complete. If `loneAllowed`, there may also be no
symbol, or one of length one. -/
def ofLengths? (loneAllowed : Bool) (lengths : List Nat) : Option Code :=
  let used := inOrder lengths
  let isLone : Bool := used.length ≤ 1 && used.all (·.1 == 1)
  if isComplete used || (loneAllowed && isLone) then some (build maxLength 0 used).1 else none

/-- The symbol that the next bits stand for, and the bits behind them. -/
def read : Code → List Bool → Option (Nat × List Bool)
  | empty, _ => none
  | leaf s, bits => some (s, bits)
  | node _ _, [] => none
  | node zero one, b :: bits => if b then one.read bits else zero.read bits

end Code

end Symbolicate.Zip
