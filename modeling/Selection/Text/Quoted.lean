import Selection.Text.Hex
import Selection.Text.Printable

/-! # Quoted text

A text in double quotes, as messages show it: quotes, backslashes and the common controls are
escaped with a letter, other characters that are not printable with their code point.
-/

namespace Selection.Text

def quoteChar (c : Char) : List Char :=
  if c = '\x00' then ['\\', '0']
  else if c = '\t' then ['\\', 't']
  else if c = '\r' then ['\\', 'r']
  else if c = '\n' then ['\\', 'n']
  else if c = '\\' then ['\\', '\\']
  else if c = '"' then ['\\', '"']
  else if isPrintable c then [c]
  else '\\' :: 'u' :: '\x7b' :: Hex.digits c.toNat ++ ['\x7d']

def quoted (s : String) : String :=
  "\"" ++ String.ofList (s.toList.flatMap quoteChar) ++ "\""

end Selection.Text
