import LuaLite.Text.CharClass

/-!
# Quoted texts

A quoted text stands between double quotes on one line. A quote, a backslash and what has no shape
of its own are escaped, and so is a character that would join the quote in front of it.
-/

namespace LuaLite.Text

/-- What a character is written as between quotes. -/
def quotedChar (c : Char) : List Char :=
  if c = '\x00' then ['\\', '0']
  else if c = '\t' then ['\\', 't']
  else if c = '\r' then ['\\', 'r']
  else if c = '\n' then ['\\', 'n']
  else if c = '"' then ['\\', '"']
  else if c = '\\' then ['\\', '\\']
  else if !isExtending c && isPrintable c then [c]
  else '\\' :: 'u' :: '{' :: (Nat.toDigits 16 c.toNat ++ ['}'])

def quoted (s : String) : String :=
  String.ofList ('"' :: (s.toList.flatMap quotedChar ++ ['"']))

end LuaLite.Text
