import Decommission.Text.Reader

/-!
# Blanks, line ends and comments

Between the parts of a settings text there may be blanks, and in some places
line ends and comments too.  A line ends with a line feed, or with a carriage
return and a line feed.  A comment runs from `#` to the end of its line.
-/

namespace Decommission.Toml

/-- A blank within a line. -/
def isSpace (c : Char) : Bool := c == ' ' || c == '\t'

/-- A character that may stand in text and comments: a tab, or anything that is
not a control character. -/
def isTextual (c : Char) : Bool := c == '\t' || (0x20 ≤ c.toNat && c.toNat != 0x7F)

/-- Leave out blanks within a line. -/
def skipSpaces (cs : List Char) : List Char := cs.dropWhile isSpace

/-- The text after a line end, if it begins with one. -/
def lineEnd? : List Char → Option (List Char)
  | '\n' :: r => some r
  | '\r' :: '\n' :: r => some r
  | _ => none

/-- Leave out blanks, line ends and comments.  The flag says whether the text
begins inside a comment. -/
def skipLayout : (inComment : Bool) → List Char → Option (List Char)
  | _, [] => some []
  | _, '\n' :: r => skipLayout false r
  | _, '\r' :: '\n' :: r => skipLayout false r
  | true, c :: r => if isTextual c then skipLayout true r else none
  | false, c :: r =>
      if isSpace c then skipLayout false r
      else if c == '#' then skipLayout true r
      else some (c :: r)

/-- The text after the rest of a line that holds nothing but blanks and maybe a
comment. -/
def restOfLine? (cs : List Char) : Option (List Char) :=
  match skipSpaces cs with
  | [] => some []
  | '#' :: r =>
      match r.dropWhile isTextual with
      | [] => some []
      | r => lineEnd? r
  | r => lineEnd? r

example : skipLayout false [' ', '#', 'x', '\n', 'a'] = some ['a'] := by decide
example : restOfLine? [' ', '#', 'x', '\r'] = none := by decide

end Decommission.Toml
