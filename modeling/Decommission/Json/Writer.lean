import Decommission.Datum

/-!
# Writing JSON

Data is written without blanks.  In texts, a quote, a backslash and the control
characters below the blank are escaped, and all else stands as it is.  What has
lost its value, a number that is not whole or a moment, is written as `null`.
-/

namespace Decommission.Json

/-- A hexadecimal digit. -/
def hexDigit (n : Nat) : Char := Nat.digitChar n

/-- A character within a text. -/
def escape (c : Char) : List Char :=
  if c = '"' then ['\\', '"']
  else if c = '\\' then ['\\', '\\']
  else if c.toNat < 0x20 then
    ['\\', 'u', '0', '0', hexDigit (c.toNat / 16), hexDigit (c.toNat % 16)]
  else [c]

/-- A text. -/
def textForm (s : String) : String :=
  String.ofList ('"' :: (s.toList.flatMap escape ++ ['"']))

mutual

/-- A value. -/
def form : Datum → String
  | .null => "null"
  | .bool b => if b then "true" else "false"
  | .whole n => toString n
  | .fractional => "null"
  | .moment => "null"
  | .text s => textForm s
  | .array ds => "[" ++ ",".intercalate (itemForms ds) ++ "]"
  | .table es => "\x7b" ++ ",".intercalate (entryForms es) ++ "\x7d"

/-- Items. -/
def itemForms : List Datum → List String
  | [] => []
  | d :: ds => form d :: itemForms ds

/-- Entries. -/
def entryForms : List (String × Datum) → List String
  | [] => []
  | e :: es => entryForm e :: entryForms es

/-- An entry. -/
def entryForm : String × Datum → String
  | (name, d) => textForm name ++ ":" ++ form d

end

end Decommission.Json
