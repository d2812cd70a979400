import Decommission.Text.Printable

/-!
# Quoted text

Text inside a message stands between double quotes.  A quote, a backslash and
the usual control characters are written with a backslash.  Any other character
that is not shown as it is appears as its number, in lower-case hexadecimal
digits.
-/

namespace Decommission

/-- A character given by its number. -/
def numbered (c : Char) : List Char :=
  '\\' :: 'u' :: '\x7b' :: (Nat.toDigits 16 c.toNat ++ ['\x7d'])

/-- A character inside quotes. -/
def quoteChar (c : Char) : List Char :=
  if c = '\x00' then ['\\', '0']
  else if c = '\t' then ['\\', 't']
  else if c = '\n' then ['\\', 'n']
  else if c = '\r' then ['\\', 'r']
  else if c = '"' then ['\\', '"']
  else if c = '\\' then ['\\', '\\']
  else if isPrintable c then [c]
  else numbered c

/-- A text between quotes. -/
def quoted (s : String) : String :=
  String.ofList ('"' :: (s.toList.flatMap quoteChar ++ ['"']))

/-- Several texts between quotes, in brackets. -/
def quotedList (ss : List String) : String := "[" ++ ", ".intercalate (ss.map quoted) ++ "]"

example : numbered '\x7f' = ['\\', 'u', '\x7b', '7', 'f', '\x7d'] := by decide

end Decommission
