import Symbolicate.Bytes.Basic

/-!
# UTF-8

A decoder that reads one byte at a time. `Utf8.scan` turns a byte string into characters and faults, one fault for
each longest piece of bytes that begins a character but does not finish it (and for each byte that begins none).
Strict decoding (`decode?`) refuses faults, lossy decoding (`decodeLossy`) shows each as U+FFFD, and `validStart`
keeps the characters before the first one.
-/

namespace Symbolicate.Utf8

/-! ## Encoding -/

/-- The UTF-8 bytes of a list of characters. -/
def encode (cs : List Char) : Bytes := cs.flatMap String.utf8EncodeChar

def ofString (s : String) : Bytes := encode s.toList

/-! ## Decoding -/

/-- Where the decoder stands: between characters, or inside one whose bits so far are `value`, with `owed` bytes to
come of which the next must lie from `low` to `high`. -/
inductive State where
  | start
  | inside (value owed low high : Nat)
  deriving DecidableEq, Repr

/-- A byte that stands between characters: what it completes, and where it leads. -/
def first (b : Nat) : List (Option Char) × State :=
  if b < 0x80 then ([some (Char.ofNat b)], .start)
  else if b < 0xC2 then ([none], .start)
  else if b < 0xE0 then ([], .inside (b - 0xC0) 1 0x80 0xBF)
  else if b < 0xF0 then
    ([], .inside (b - 0xE0) 2 (if b = 0xE0 then 0xA0 else 0x80) (if b = 0xED then 0x9F else 0xBF))
  else if b < 0xF5 then
    ([], .inside (b - 0xF0) 3 (if b = 0xF0 then 0x90 else 0x80) (if b = 0xF4 then 0x8F else 0xBF))
  else ([none], .start)

/-- One byte: what it completes, and where it leads. A byte that cannot continue the open character ends that
character as a fault and stands between characters itself. -/
def step : State → Nat → List (Option Char) × State
  | .start, b => first b
  | .inside value owed low high, b =>
    if low ≤ b ∧ b ≤ high then
      let value := value * 64 + (b - 0x80)
      if owed ≤ 1 then ([some (Char.ofNat value)], .start) else ([], .inside value (owed - 1) 0x80 0xBF)
    else
      let (out, state) := first b
      (none :: out, state)

/-- The characters and faults (`none`) of the bytes that follow a state. -/
def run : State → Bytes → List (Option Char)
  | .start, [] => []
  | .inside .., [] => [none]
  | state, b :: rest =>
    let (out, next) := step state b.toNat
    out ++ run next rest

/-- The characters and faults of a byte string. -/
def scan (b : Bytes) : List (Option Char) := run .start b

/-- The characters of a byte string that is UTF-8 throughout. -/
def decode? (b : Bytes) : Option (List Char) :=
  if (scan b).all Option.isSome then some ((scan b).filterMap id) else none

/-- The text of a byte string that is UTF-8 throughout. -/
def toString? (b : Bytes) : Option String := (decode? b).map String.ofList

/-- The characters of a byte string, with U+FFFD for each fault. -/
def decodeLossy (b : Bytes) : List Char := (scan b).map (·.getD '\uFFFD')

/-- The characters before the first fault. -/
def validStart (b : Bytes) : List Char := ((scan b).takeWhile Option.isSome).filterMap id

end Symbolicate.Utf8
