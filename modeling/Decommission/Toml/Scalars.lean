import Decommission.Datum
import Decommission.Toml.Layout

/-!
# Numbers, truth values, dates and times

Whatever value is not quoted and has no parts is one run of characters.  It is a
truth value, a number, or a date or time.

Digits of a number may be separated by single underscores.  Whole numbers are
decimal without leading zeros, or hexadecimal, octal or binary without a sign.
They fit 128 bits.  A date exists in the calendar, and a time on the clock, where
a minute may have a leap second.
-/

namespace Decommission.Toml

/-- The digits of a run in which single underscores may separate digits. -/
def digitRun? (isDigit : Char → Bool) : List Char → Option (List Char)
  | [] => none
  | [c] => if isDigit c then some [c] else none
  | c :: '_' :: r => if isDigit c then (digitRun? isDigit r).map (c :: ·) else none
  | c :: r => if isDigit c then (digitRun? isDigit r).map (c :: ·) else none

/-- The value of a digit, for bases up to sixteen. -/
def digitValue (c : Char) : Nat :=
  if c.isDigit then c.toNat - '0'.toNat else c.toLower.toNat - 'a'.toNat + 10

/-- A digit of a base. -/
def isDigitOf (base : Nat) (c : Char) : Bool :=
  (c.isDigit || ('a' ≤ c.toLower && c.toLower ≤ 'f')) && digitValue c < base

/-- The number written by digits of a base. -/
def number? (base : Nat) (cs : List Char) : Option Nat :=
  (digitRun? (isDigitOf base) cs).map fun ds => ds.foldl (fun n c => n * base + digitValue c) 0

/-- A decimal number without leading zeros. -/
def decimal? (cs : List Char) : Option Nat :=
  match cs with
  | '0' :: _ :: _ => none
  | _ => number? 10 cs

/-- A sign, and what follows it. -/
def sign : List Char → Int × List Char
  | '+' :: r => (1, r)
  | '-' :: r => (-1, r)
  | r => (1, r)

/-- Whether 128 bits can hold a number, with a sign or without. -/
def isHeld (n : Int) : Bool :=
  -170141183460469231731687303715884105728 ≤ n && n < 340282366920938463463374607431768211456

/-- A whole number. -/
def whole? (cs : List Char) : Option Int :=
  let n : Option Int :=
    match cs with
    | '0' :: 'x' :: r => (number? 16 r).map Int.ofNat
    | '0' :: 'o' :: r => (number? 8 r).map Int.ofNat
    | '0' :: 'b' :: r => (number? 2 r).map Int.ofNat
    | _ => (decimal? (sign cs).2).map fun n => (sign cs).1 * n
  n.bind fun n => if isHeld n then some n else none

/-- The exponent of a number. -/
def isExponent (cs : List Char) : Bool := (number? 10 (sign cs).2).isSome

/-- A number with a fraction, an exponent, or both. -/
def isFractional (cs : List Char) : Bool :=
  let cs := (sign cs).2
  let isMark (c : Char) : Bool := c == '.' || c == 'e' || c == 'E'
  let count := cs.takeWhile fun c => !isMark c
  (decimal? count).isSome &&
    match cs.dropWhile fun c => !isMark c with
    | '.' :: r =>
        let digits := r.takeWhile fun c => !isMark c
        (number? 10 digits).isSome &&
          match r.dropWhile fun c => !isMark c with
          | [] => true
          | '.' :: _ => false
          | _ :: r => isExponent r
    | _ :: r => isExponent r
    | [] => false

/-- Numbers beyond all others, and what is no number. -/
def isSpecial (cs : List Char) : Bool :=
  (sign cs).2 == ['i', 'n', 'f'] || (sign cs).2 == ['n', 'a', 'n']

/-! ## Dates and times -/

/-- Two digits. -/
def pair? : Reader Nat
  | a :: b :: r =>
      if a.isDigit && b.isDigit then some (digitValue a * 10 + digitValue b, r) else none
  | _ => none

/-- Days of a month. -/
def daysIn (year month : Nat) : Nat :=
  if month = 2 then
    if year % 4 = 0 ∧ (year % 100 ≠ 0 ∨ year % 400 = 0) then 29 else 28
  else if month = 4 ∨ month = 6 ∨ month = 9 ∨ month = 11 then 30
  else 31

/-- What follows a character. -/
def after? (c : Char) : List Char → Option (List Char)
  | d :: r => if d == c then some r else none
  | [] => none

/-- What follows a date. -/
def afterDate? (cs : List Char) : Option (List Char) := do
  let (century, r) ← pair? cs
  let (year, r) ← pair? r
  let (month, r) ← pair? (← after? '-' r)
  let (day, r) ← pair? (← after? '-' r)
  if 1 ≤ month ∧ month ≤ 12 ∧ 1 ≤ day ∧ day ≤ daysIn (century * 100 + year) month then some r
  else none

/-- What follows the fraction of a second, if there is one. -/
def afterFraction? : List Char → Option (List Char)
  | '.' :: r => if (r.takeWhile Char.isDigit).isEmpty then none else some (r.dropWhile Char.isDigit)
  | r => some r

/-- What follows a time of day.  The seconds may be left out. -/
def afterTime? (cs : List Char) : Option (List Char) := do
  let (hour, r) ← pair? cs
  let (minute, r) ← pair? (← after? ':' r)
  if 23 < hour ∨ 59 < minute then none
  else
    match r with
    | ':' :: r =>
        let (second, r) ← pair? r
        if 60 < second then none else afterFraction? r
    | r => some r

/-- Whether what follows a time is the end, or a distance from universal time. -/
def isOffset : List Char → Bool
  | [] => true
  | [c] => c == 'Z' || c == 'z'
  | c :: r =>
      (c == '+' || c == '-') &&
        match pair? r with
        | some (hour, ':' :: r) =>
            match pair? r with
            | some (minute, []) => hour ≤ 23 && minute ≤ 59
            | _ => false
        | _ => false

/-- A date, a time, or both. -/
def isMoment (cs : List Char) : Bool :=
  match afterDate? cs with
  | some [] => true
  | some (c :: r) =>
      (c == 'T' || c == 't' || c == ' ') && ((afterTime? r).map isOffset).getD false
  | none => afterTime? cs == some []

/-! ## Runs -/

/-- A character of a run. -/
def isRunChar (c : Char) : Bool :=
  c.isAlphanum || c == '+' || c == '-' || c == '_' || c == '.' || c == ':'

/-- Split off a run.  A blank may stand between a date and a time. -/
def run (cs : List Char) : List Char × List Char :=
  let here := cs.takeWhile isRunChar
  let rest := cs.dropWhile isRunChar
  match afterDate? here, rest with
  | some [], ' ' :: c :: r =>
      if c.isDigit then
        (here ++ ' ' :: (c :: r).takeWhile isRunChar, (c :: r).dropWhile isRunChar)
      else (here, rest)
  | _, _ => (here, rest)

/-- The value of a run. -/
def scalarOf? (cs : List Char) : Option Datum :=
  if cs = ['t', 'r', 'u', 'e'] then some (.bool true)
  else if cs = ['f', 'a', 'l', 's', 'e'] then some (.bool false)
  else
    match whole? cs with
    | some n => some (.whole n)
    | none =>
        if isSpecial cs || isFractional cs then some .fractional
        else if isMoment cs then some .moment
        else none

/-- A value without quotes and parts. -/
def scalar : Reader Datum := fun cs =>
  let (here, rest) := run cs
  (scalarOf? here).map fun d => (d, rest)

example : whole? ['0', 'x', 'F', '_', 'f'] = some 255 := by decide
example : whole? ['0', '1'] = none := by decide
example : isFractional ['1', 'e', '3'] = true := by decide
example : isMoment ['2', '0', '2', '3', '-', '0', '2', '-', '2', '9'] = false := by decide

end Decommission.Toml
