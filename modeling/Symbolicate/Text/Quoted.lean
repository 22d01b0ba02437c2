import Symbolicate.Text.Ascii
import Symbolicate.Text.HiddenTable
import Symbolicate.Text.Ranges

/-!
# Quoted text

A text in double quotes, for reading by people: quotes, backslashes and the usual controls behind a backslash,
characters without a shape of their own by code point, and all others as they are.
-/

namespace Symbolicate.Text

def quotedChar (c : Char) : List Char :=
  if c = '\x00' then ['\\', '0']
  else if c = '\t' then ['\\', 't']
  else if c = '\n' then ['\\', 'n']
  else if c = '\r' then ['\\', 'r']
  else if c = '"' then ['\\', '"']
  else if c = '\\' then ['\\', '\\']
  else if inRanges hiddenRanges c.toNat then ['\\', 'u', '\x7b'] ++ hexLower c.toNat ++ ['\x7d']
  else [c]

def quoted (s : String) : String := String.ofList ('"' :: s.toList.flatMap quotedChar ++ ['"'])

end Symbolicate.Text
