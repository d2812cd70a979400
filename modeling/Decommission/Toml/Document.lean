import Decommission.Toml.Scalars
import Decommission.Toml.Strings
import Decommission.Toml.Tables

/-!
# Settings texts

A settings text is a sequence of lines.  A line is blank, a header, or a key with
its value.  Arrays and inline tables may run over several lines.

Values nest at most `maxDepth` deep.  The readers of values carry fuel, at least
twice the number of characters that are left.  Each call of the reader of a
value, and each round of the readers of items and entries, takes one unit, and
every two calls read at least one character.  So the fuel never runs out before
the text does.
-/

namespace Decommission.Toml

/-- How deep arrays and inline tables may nest. -/
def maxDepth : Nat := 80

/-! ## Keys -/

/-- A character of a bare key. -/
def isBareChar (c : Char) : Bool := c.isAlphanum || c == '_' || c == '-'

/-- One part of a key. -/
def keyPart : Reader String
  | '"' :: r => (basicString .plain r).map fun (cs, rest) => (String.ofList cs, rest)
  | '\'' :: r => (literalString r).map fun (cs, rest) => (String.ofList cs, rest)
  | cs =>
      if (cs.takeWhile isBareChar).isEmpty then none
      else some (String.ofList (cs.takeWhile isBareChar), cs.dropWhile isBareChar)

/-- A key: the parts above its last, and its last part. -/
def key : (fuel : Nat) → Reader (List String × String)
  | 0, _ => none
  | fuel + 1, cs => do
      let (part, rest) ← keyPart (skipSpaces cs)
      match skipSpaces rest with
      | '.' :: rest =>
          let ((path, last), rest) ← key fuel rest
          some ((part :: path, last), rest)
      | rest => some (([], part), rest)

/-! ## Values -/

mutual

/-- A value. -/
def value (depth : Nat) : (fuel : Nat) → Reader Datum
  | 0, _ => none
  | fuel + 1, cs =>
      match cs with
      | '"' :: '"' :: '"' :: r =>
          (basicLines .plain (dropFirstLineEnd r)).map fun (s, rest) =>
            (.text (String.ofList s), rest)
      | '"' :: r => (basicString .plain r).map fun (s, rest) => (.text (String.ofList s), rest)
      | '\'' :: '\'' :: '\'' :: r =>
          (literalLines (dropFirstLineEnd r)).map fun (s, rest) => (.text (String.ofList s), rest)
      | '\'' :: r => (literalString r).map fun (s, rest) => (.text (String.ofList s), rest)
      | '[' :: r =>
          if maxDepth ≤ depth then none
          else (items (depth + 1) fuel r).map fun (ds, rest) => (.array ds, rest)
      | '\x7b' :: r =>
          if maxDepth ≤ depth then none
          else (entries (depth + 1) fuel [] r).map fun (b, rest) => (.table (entriesOf b), rest)
      | _ => scalar cs

/-- The items of an array, up to its closing bracket. -/
def items (depth : Nat) : (fuel : Nat) → Reader (List Datum)
  | 0, _ => none
  | fuel + 1, cs => do
      match ← skipLayout false cs with
      | ']' :: rest => some ([], rest)
      | cs =>
          let (d, rest) ← value depth fuel cs
          match ← skipLayout false rest with
          | ']' :: rest => some ([d], rest)
          | ',' :: rest =>
              let (ds, rest) ← items depth fuel rest
              some (d :: ds, rest)
          | _ => none

/-- The entries of an inline table, up to its closing brace. -/
def entries (depth : Nat) : (fuel : Nat) → Branch → Reader Branch
  | 0, _, _ => none
  | fuel + 1, b, cs => do
      match ← skipLayout false cs with
      | '\x7d' :: rest => some (b, rest)
      | cs =>
          let ((path, last), rest) ← key cs.length cs
          let rest ← after? '=' rest
          let (d, rest) ← value depth fuel (skipSpaces rest)
          let b ← put? path last d b
          match ← skipLayout false rest with
          | '\x7d' :: rest => some (b, rest)
          | ',' :: rest => entries depth fuel b rest
          | _ => none

end

/-! ## Lines -/

/-- The header of a table, after its opening bracket. -/
def tableHeader : Reader (List String × String) := fun cs => do
  let (name, rest) ← key cs.length cs
  some (name, ← restOfLine? (← after? ']' rest))

/-- The header of a table in an array, after its opening brackets. -/
def itemHeader : Reader (List String × String) := fun cs => do
  let (name, rest) ← key cs.length cs
  some (name, ← restOfLine? (← after? ']' (← after? ']' rest)))

/-- A key with its value. -/
def assignment : Reader ((List String × String) × Datum) := fun cs => do
  let (name, rest) ← key cs.length cs
  let rest := skipSpaces (← after? '=' rest)
  let (d, rest) ← value 0 (2 * cs.length + 2) rest
  some ((name, d), ← restOfLine? rest)

/-- Read lines into the table that the last header named. -/
def lines : (fuel : Nat) → (current : List String) → Branch → List Char → Option Branch
  | 0, _, _, _ => none
  | fuel + 1, current, root, cs => do
      match skipSpaces cs with
      | [] => some root
      | '[' :: '[' :: r =>
          let ((path, last), rest) ← itemHeader r
          lines fuel (path ++ [last]) (← push? path last root) rest
      | '[' :: r =>
          let ((path, last), rest) ← tableHeader r
          lines fuel (path ++ [last]) (← open? path last root) rest
      | c :: r =>
          if c == '#' || c == '\n' || c == '\r' then
            lines fuel current root (← restOfLine? (c :: r))
          else
            let (((path, last), d), rest) ← assignment (c :: r)
            lines fuel current (← within? (put? path last d) current root) rest

/-- The data of a settings text.  A mark of the byte order at its front is left
out. -/
def read? (text : String) : Option Datum :=
  let cs := match text.toList with
    | '\ufeff' :: r => r
    | r => r
  (lines (cs.length + 1) [] [] cs).map fun root => .table (entriesOf root)

end Decommission.Toml
