import Symbolicate.Text.CaseTable
import Symbolicate.Text.Ranges

/-!
# Lower case

Full lower-casing of a text, as names are compared by: each character by its own lower-case form, a dotted capital I
as two characters, and a capital sigma by its place in the word.
-/

namespace Symbolicate.Text

/-- The lower-case form of a single character, apart from the characters that need more than their code point. -/
def lowerChar (c : Char) : Char :=
  match lowerRows.find? fun r => r.1 ≤ c.toNat && c.toNat ≤ r.2.1 && (c.toNat - r.1) % r.2.2.1 == 0 with
  | some r => Char.ofNat (r.2.2.2 + (c.toNat - r.1))
  | none => c

/-- Whether the first character that is not ignored between letters is a letter with a case. -/
def meetsLetter : List Char → Bool
  | [] => false
  | c :: rest => if inRanges caseIgnorableRanges c.toNat then meetsLetter rest else inRanges casedRanges c.toNat

/-- The lower-case characters of `rest`, where `before` holds what precedes it, nearest first. A capital sigma that
ends a word is written in its final form. -/
def lowerFrom (before : List Char) : List Char → List Char
  | [] => []
  | c :: rest =>
    let lowered :=
      if c = 'Σ' then (if meetsLetter before && !meetsLetter rest then ['ς'] else ['σ'])
      else if c = 'İ' then ['i', '\u0307']
      else [lowerChar c]
    lowered ++ lowerFrom (c :: before) rest

def lowercase (s : String) : String := String.ofList (lowerFrom [] s.toList)

end Symbolicate.Text
