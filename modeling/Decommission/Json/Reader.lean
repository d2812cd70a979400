import Decommission.Datum
import Decommission.Text.Reader

/-!
# Reading JSON

Data exchanged between programs is JSON text.  A number with a fraction or an
exponent is not whole, whatever its value, and neither is a negative zero.

The readers of values carry fuel, at least twice the number of characters that
are left.  Each call of the reader of a value, and each round of the readers of
items and entries, takes one unit, and every two calls read at least one
character.  So the fuel never runs out before the text does.
-/

namespace Decommission.Json

/-- A character between the parts of a text. -/
def isBlank (c : Char) : Bool := c == ' ' || c == '\t' || c == '\n' || c == '\r'

/-- Leave out what stands between the parts of a text. -/
def skipBlanks (cs : List Char) : List Char := cs.dropWhile isBlank

/-! ## Texts -/

/-- The value of a hexadecimal digit. -/
def hexDigit? (c : Char) : Option Nat :=
  if '0' ≤ c && c ≤ '9' then some (c.toNat - '0'.toNat)
  else if 'a' ≤ c && c ≤ 'f' then some (c.toNat - 'a'.toNat + 10)
  else if 'A' ≤ c && c ≤ 'F' then some (c.toNat - 'A'.toNat + 10)
  else none

/-- The value of hexadecimal digits. -/
def hexNumber? (cs : List Char) : Option Nat :=
  cs.foldlM (fun n c => (hexDigit? c).map fun d => 16 * n + d) 0

/-- The character that a letter after a backslash stands for. -/
def escaped? : Char → Option Char
  | '"' => some '"'
  | '\\' => some '\\'
  | '/' => some '/'
  | 'b' => some '\x08'
  | 'f' => some '\x0c'
  | 'n' => some '\n'
  | 'r' => some '\r'
  | 't' => some '\t'
  | _ => none

/-- Whether a unit is the first of a pair. -/
def isLeading (n : Nat) : Bool := 0xD800 ≤ n && n < 0xDC00

/-- Whether a unit is the second of a pair. -/
def isTrailing (n : Nat) : Bool := 0xDC00 ≤ n && n < 0xE000

/-- The character of a pair of units. -/
def paired? (n m : Nat) : Option Char :=
  if isLeading n && isTrailing m then
    some (Char.ofNat (0x10000 + (n - 0xD800) * 0x400 + (m - 0xDC00)))
  else none

/-- The character of a unit that stands alone. -/
def single? (n : Nat) : Option Char :=
  if isLeading n || isTrailing n then none else some (Char.ofNat n)

/-- The characters of a text, up to its closing quote. -/
def textTail : Reader (List Char)
  | '"' :: r => some ([], r)
  | '\\' :: 'u' :: a :: b :: c :: d :: r =>
      match hexNumber? [a, b, c, d] with
      | none => none
      | some n =>
          if isLeading n then
            match r with
            | '\\' :: 'u' :: e :: f :: g :: h :: r => do
                let x ← paired? n (← hexNumber? [e, f, g, h])
                let (xs, rest) ← textTail r
                some (x :: xs, rest)
            | _ => none
          else do
            let x ← single? n
            let (xs, rest) ← textTail r
            some (x :: xs, rest)
  | '\\' :: c :: r => do
      let x ← escaped? c
      let (xs, rest) ← textTail r
      some (x :: xs, rest)
  | c :: r =>
      if c.toNat < 0x20 then none
      else do
        let (xs, rest) ← textTail r
        some (c :: xs, rest)
  | [] => none

/-! ## Numbers -/

/-- One digit or more. -/
def digits : Reader (List Char) := fun cs =>
  if (cs.takeWhile Char.isDigit).isEmpty then none
  else some (cs.takeWhile Char.isDigit, cs.dropWhile Char.isDigit)

/-- A fraction, if there is one, and whether there is. -/
def fraction : Reader Bool
  | '.' :: r => (digits r).map fun (_, rest) => (true, rest)
  | r => some (false, r)

/-- Leave out the sign of an exponent. -/
def skipSign : List Char → List Char
  | '+' :: r => r
  | '-' :: r => r
  | r => r

/-- An exponent, if there is one, and whether there is. -/
def exponent : Reader Bool
  | 'e' :: r => (digits (skipSign r)).map fun (_, rest) => (true, rest)
  | 'E' :: r => (digits (skipSign r)).map fun (_, rest) => (true, rest)
  | r => some (false, r)

/-- The value of decimal digits. -/
def decimal (cs : List Char) : Nat := cs.foldl (fun n c => 10 * n + (c.toNat - '0'.toNat)) 0

/-- A number after its sign. -/
def unsigned (negative : Bool) : Reader Datum := fun cs => do
  let (ds, rest) ← digits cs
  if 1 < ds.length && ds.head? == some '0' then none
  let (hasFraction, rest) ← fraction rest
  let (hasExponent, rest) ← exponent rest
  let n := decimal ds
  if hasFraction || hasExponent || (negative && n == 0) then some (.fractional, rest)
  else some (.whole (if negative then -n else n), rest)

/-- A number. -/
def number : Reader Datum
  | '-' :: r => unsigned true r
  | r => unsigned false r

/-! ## Values -/

mutual

/-- A value. -/
def value : (fuel : Nat) → Reader Datum
  | 0, _ => none
  | fuel + 1, cs =>
      match skipBlanks cs with
      | 'n' :: 'u' :: 'l' :: 'l' :: r => some (.null, r)
      | 't' :: 'r' :: 'u' :: 'e' :: r => some (.bool true, r)
      | 'f' :: 'a' :: 'l' :: 's' :: 'e' :: r => some (.bool false, r)
      | '"' :: r => (textTail r).map fun (s, rest) => (.text (String.ofList s), rest)
      | '[' :: r =>
          match skipBlanks r with
          | ']' :: rest => some (.array [], rest)
          | r => (items fuel r).map fun (ds, rest) => (.array ds, rest)
      | '\x7b' :: r =>
          match skipBlanks r with
          | '\x7d' :: rest => some (.table [], rest)
          | r => (entries fuel r).map fun (es, rest) => (.table es, rest)
      | r => number r

/-- The items of an array that is not empty, up to its closing bracket. -/
def items : (fuel : Nat) → Reader (List Datum)
  | 0, _ => none
  | fuel + 1, cs => do
      let (d, rest) ← value fuel cs
      match skipBlanks rest with
      | ']' :: rest => some ([d], rest)
      | ',' :: rest =>
          let (ds, rest) ← items fuel rest
          some (d :: ds, rest)
      | _ => none

/-- The entries of a table that is not empty, up to its closing brace. -/
def entries : (fuel : Nat) → Reader (List (String × Datum))
  | 0, _ => none
  | fuel + 1, cs => do
      match skipBlanks cs with
      | '"' :: r =>
          let (name, rest) ← textTail r
          match skipBlanks rest with
          | ':' :: rest =>
              let (d, rest) ← value fuel rest
              match skipBlanks rest with
              | '\x7d' :: rest => some ([(String.ofList name, d)], rest)
              | ',' :: rest =>
                  let (es, rest) ← entries fuel rest
                  some ((String.ofList name, d) :: es, rest)
              | _ => none
          | _ => none
      | _ => none

end

/-- The data of a text. -/
def read? (text : String) : Option Datum :=
  let cs := text.toList
  match value (2 * cs.length + 2) cs with
  | some (d, rest) => if (skipBlanks rest).isEmpty then some d else none
  | none => none

end Decommission.Json
