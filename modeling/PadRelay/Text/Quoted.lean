import PadRelay.Text.Combining
import PadRelay.Text.Unprintable

/-!
This module contains quoted text for diagnostics. What can not be told apart on a screen is escaped.
-/

namespace PadRelay.Text

def escapeCodePoint (c : Char) : List Char :=
  ['\\', 'u', '\x7b'] ++ Nat.toDigits 16 c.toNat ++ ['\x7d']

/--
A character as it stands in quoted text. Printable ASCII other than the quote and the backslash
stands for itself.
-/
def escapeChar (c : Char) : List Char :=
  if c = '\x00' then ['\\', '0']
  else if c = '\t' then ['\\', 't']
  else if c = '\n' then ['\\', 'n']
  else if c = '\r' then ['\\', 'r']
  else if c = '"' then ['\\', '"']
  else if c = '\\' then ['\\', '\\']
  else if ' ' ≤ c ∧ c ≤ '~' then [c]
  else if isCombining c || isUnprintable c then escapeCodePoint c
  else [c]

def quote (s : String) : String :=
  String.ofList ('"' :: s.toList.flatMap escapeChar ++ ['"'])

end PadRelay.Text
