import Decommission.Toml.Layout

/-!
# Strings

Basic strings stand between double quotes and may hold escapes.  Literal strings
stand between single quotes and hold what is written.  Tripled quotes allow line
ends inside.  There a line end right after the opening quotes is left out, and
up to two quotes may stand before the closing ones.  In a tripled basic string a
backslash at the end of a line leaves out all blanks and line ends up to the
next other character.

Each reader starts after the opening quotes.
-/

namespace Decommission.Toml

/-- What the character after a backslash stands for. -/
inductive Escape
  | char (c : Char)
  /-- A character given by that many hexadecimal digits. -/
  | digits (count : Nat)

/-- The escapes. -/
def escape? : Char → Option Escape
  | 'b' => some (.char '\x08')
  | 't' => some (.char '\t')
  | 'n' => some (.char '\n')
  | 'f' => some (.char '\x0c')
  | 'r' => some (.char '\r')
  | 'e' => some (.char '\x1b')
  | '"' => some (.char '"')
  | '\\' => some (.char '\\')
  | 'x' => some (.digits 2)
  | 'u' => some (.digits 4)
  | 'U' => some (.digits 8)
  | _ => none

/-- The value of a hexadecimal digit. -/
def hexDigit? (c : Char) : Option Nat :=
  if c.isDigit then some (c.toNat - '0'.toNat)
  else if 'a' ≤ c ∧ c ≤ 'f' then some (c.toNat - 'a'.toNat + 10)
  else if 'A' ≤ c ∧ c ≤ 'F' then some (c.toNat - 'A'.toNat + 10)
  else none

/-- The character with a number, if there is one. -/
def scalar? (n : Nat) : Option Char := if n.isValidChar then some (Char.ofNat n) else none

/-- Where a reader of basic strings stands. -/
inductive StringMode
  | plain
  | escape
  /-- Among the digits of a character: how many are to come, and their value so
  far. -/
  | digits (left value : Nat)
  /-- After a backslash at the end of a line, and whether the line has ended. -/
  | folding (ended : Bool)
deriving DecidableEq, Repr

/-- Put a character in front of what is read. -/
def prepend (c : Char) (r : Option (List Char × List Char)) : Option (List Char × List Char) :=
  r.map fun (cs, rest) => (c :: cs, rest)

/-- A basic string on one line. -/
def basicString : StringMode → Reader (List Char)
  | _, [] => none
  | .plain, c :: r =>
      if c == '"' then some ([], r)
      else if c == '\\' then basicString .escape r
      else if isTextual c then prepend c (basicString .plain r)
      else none
  | .escape, c :: r =>
      match escape? c with
      | some (.char x) => prepend x (basicString .plain r)
      | some (.digits n) => basicString (.digits n 0) r
      | none => none
  | .digits left value, c :: r =>
      match hexDigit? c with
      | none => none
      | some d =>
          if left ≤ 1 then
            match scalar? (value * 16 + d) with
            | some x => prepend x (basicString .plain r)
            | none => none
          else basicString (.digits (left - 1) (value * 16 + d)) r
  | .folding _, _ => none

/-- A literal string on one line. -/
def literalString : Reader (List Char)
  | [] => none
  | c :: r =>
      if c == '\'' then some ([], r)
      else if isTextual c then prepend c (literalString r)
      else none

/-- The end of a tripled string: how many quotes belong to the string, and what
follows the closing ones. -/
def closing? (q : Char) : List Char → Option (Nat × List Char)
  | a :: b :: c :: r =>
      if a == q && b == q && c == q then
        match r with
        | d :: e :: r' =>
            if d == q && e == q then some (2, r')
            else if d == q then some (1, e :: r')
            else some (0, r)
        | [d] => if d == q then some (1, []) else some (0, r)
        | [] => some (0, [])
      else none
  | _ => none

/-- A tripled literal string. -/
def literalLines : Reader (List Char)
  | [] => none
  | '\r' :: '\n' :: r => prepend '\n' (literalLines r)
  | c :: r =>
      match closing? '\'' (c :: r) with
      | some (n, rest) => some (List.replicate n '\'', rest)
      | none =>
          if c == '\n' || isTextual c then prepend c (literalLines r) else none

/-- A tripled basic string. -/
def basicLines : StringMode → Reader (List Char)
  | _, [] => none
  | .escape, '\r' :: '\n' :: r => basicLines (.folding true) r
  | .escape, c :: r =>
      if c == '\n' then basicLines (.folding true) r
      else if isSpace c then basicLines (.folding false) r
      else
        match escape? c with
        | some (.char x) => prepend x (basicLines .plain r)
        | some (.digits n) => basicLines (.digits n 0) r
        | none => none
  | .digits left value, c :: r =>
      match hexDigit? c with
      | none => none
      | some d =>
          if left ≤ 1 then
            match scalar? (value * 16 + d) with
            | some x => prepend x (basicLines .plain r)
            | none => none
          else basicLines (.digits (left - 1) (value * 16 + d)) r
  | .folding _, '\r' :: '\n' :: r => basicLines (.folding true) r
  | .plain, '\r' :: '\n' :: r => prepend '\n' (basicLines .plain r)
  | mode, c :: r =>
      match mode, isSpace c, c == '\n' with
      | .folding ended, true, _ => basicLines (.folding ended) r
      | .folding _, false, true => basicLines (.folding true) r
      | .folding false, false, false => none
      | _, _, _ =>
          match closing? '"' (c :: r) with
          | some (n, rest) => some (List.replicate n '"', rest)
          | none =>
              if c == '\\' then basicLines .escape r
              else if c == '\n' || isTextual c then prepend c (basicLines .plain r)
              else none

/-- A line end right after tripled quotes is left out. -/
def dropFirstLineEnd (cs : List Char) : List Char := (lineEnd? cs).getD cs

example :
    basicString .plain ['a', '\\', 'u', '0', '0', 'e', '9', '"', '!'] = some (['a', 'é'], ['!']) := by
  decide
example :
    basicLines .plain ['a', '\\', '\n', ' ', 'b', '"', '"', '"', '"'] = some (['a', 'b', '"'], []) := by
  decide

end Decommission.Toml
