import EngineNode.Hex
import EngineNode.Text.Printable

/-!
# Quoted text

Text in quotes as it stands in messages: quotes, backslashes and blanks are escaped, and characters
that cannot be shown are written by their code point.
-/

namespace EngineNode.Text

/-- A code point in braces. -/
def escapeCodePoint (c : Char) : List Char :=
  '\\' :: 'u' :: '\x7b' :: Hex.natDigits c.toNat ++ ['\x7d']

/-- One character between quotes of the given kind. Marks that extend the character before them
are written by their code point. -/
def escapeChar (quote c : Char) : List Char :=
  if c = '\x00' then ['\\', '0']
  else if c = '\t' then ['\\', 't']
  else if c = '\r' then ['\\', 'r']
  else if c = '\n' then ['\\', 'n']
  else if c = quote || c = '\\' then ['\\', c]
  else if isExtending c || !isPrintable c then escapeCodePoint c
  else [c]

/-- A text in double quotes. -/
def quoted (text : String) : String :=
  String.ofList ('"' :: text.toList.flatMap (escapeChar '"') ++ ['"'])

/-- A character in single quotes. -/
def quotedChar (c : Char) : String :=
  String.ofList ('\'' :: escapeChar '\'' c ++ ['\''])

end EngineNode.Text
