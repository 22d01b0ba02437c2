/-!
# ASCII letters and digits

Comparison without regard to the case of ASCII letters, upper-casing of ASCII letters, and the text of numbers in
bases ten and sixteen. All other characters stand for themselves.
-/

namespace Symbolicate.Text

/-! ## Case -/

/-- Equality that takes an ASCII letter and its other case as the same character. -/
def eqIgnoringCase (a b : List Char) : Bool := a.map Char.toLower == b.map Char.toLower

/-- The characters behind a fixed text, which may be in either case. -/
def behind? (fixed cs : List Char) : Option (List Char) :=
  if eqIgnoringCase (cs.take fixed.length) fixed then some (cs.drop fixed.length) else none

/-- The text with its ASCII letters in upper case. -/
def asciiUpper (s : String) : String := String.ofList (s.toList.map Char.toUpper)

/-! ## Splitting -/

/-- The pieces between the occurrences of a character: one more than there are occurrences. -/
def splitOn (sep : Char) : List Char → List (List Char)
  | [] => [[]]
  | c :: rest =>
    if c = sep then [] :: splitOn sep rest
    else
      match splitOn sep rest with
      | [] => [[c]]
      | piece :: pieces => (c :: piece) :: pieces

/-! ## Numbers -/

/-- The value of a hexadecimal digit of either case. -/
def hexValue? (c : Char) : Option Nat :=
  if '0' ≤ c ∧ c ≤ '9' then some (c.toNat - 48)
  else if 'a' ≤ c ∧ c ≤ 'f' then some (c.toNat - 87)
  else if 'A' ≤ c ∧ c ≤ 'F' then some (c.toNat - 55)
  else none

/-- Whether a character is a hexadecimal digit of either case. -/
def isHexDigit (c : Char) : Bool := (hexValue? c).isSome

/-- The number that hexadecimal digits spell; other characters count as zero. -/
def ofHex (cs : List Char) : Nat := cs.foldl (fun n c => 16 * n + (hexValue? c).getD 0) 0

/-- The number that decimal digits spell; `none` for anything but one or more digits. -/
def ofDecimal? (cs : List Char) : Option Nat :=
  if cs.isEmpty ∨ cs.any (! ·.isDigit) then none
  else some (cs.foldl (fun n c => 10 * n + (c.toNat - 48)) 0)

/-- A number in decimal, without leading zeros. -/
def decimal (n : Nat) : List Char := Nat.toDigits 10 n

/-- A number in decimal, as a text. -/
def decimalText (n : Nat) : String := String.ofList (decimal n)

/-- A number in lower-case hexadecimal, without leading zeros. -/
def hexLower (n : Nat) : List Char := Nat.toDigits 16 n

/-- A number in upper-case hexadecimal, without leading zeros. -/
def hexUpper (n : Nat) : List Char := (Nat.toDigits 16 n).map Char.toUpper

/-- The digits preceded by as many zeros as bring them to `width`. -/
def zeroPadded (width : Nat) (digits : List Char) : List Char :=
  List.replicate (width - digits.length) '0' ++ digits

/-- The two lower-case hexadecimal digits of a byte. -/
def hexByte (b : UInt8) : List Char := [(b.toNat / 16).digitChar, (b.toNat % 16).digitChar]

end Symbolicate.Text
