import Decommission.Number.Width
import Decommission.Text.Blank
import Decommission.Time.Span

/-!
# Reading spans

A span text is read one character at a time.  `SpanReader.step` takes the reader
and a character to the next reader, or refuses.  `Duration.ofSpan?` folds it
over the text.

Between two counts there may be blanks.  A count is decimal digits, with blanks
allowed among and after them, then maybe a point and a fraction, then the
letters of a unit.  A digit right after the unit starts the next count.  The
text `0` alone is zero, though it has no unit.

Counts, fractions and products are kept in 64 bits.  A count of a unit below
the second is held in nanoseconds, one of any other unit in seconds.  A
fraction must come out whole: in nanoseconds up to the minute, in seconds from
the hour up.  A nanosecond has no fraction.
-/

namespace Decommission

/-- A number that fits 64 bits, or nothing. -/
def fits64 (n : Nat) : Option Nat := if n < range64 then some n else none

/-- A numerator and its denominator, a power of ten. -/
structure Fraction where
  numerator : Nat
  /-- Ten to the number of those digits. -/
  denominator : Nat
deriving DecidableEq, Repr

/-- The nanoseconds of a count of a unit. -/
def SpanUnit.countNanos? (u : SpanUnit) (count : Nat) : Option Nat :=
  (fits64 (count * (u.nanos / u.countGrain))).map (· * u.countGrain)

/-- The nanoseconds of a fraction of a unit, if they are whole. -/
def SpanUnit.fractionNanos? (u : SpanUnit) (f : Fraction) : Option Nat :=
  if u = .nanosecond then none
  else
    (fits64 (f.numerator * (u.nanos / u.fractionGrain))).bind fun p =>
      if p % f.denominator = 0 then some (p / f.denominator * u.fractionGrain) else none

/-- Where the reader stands in the text. -/
inductive SpanMode
  /-- Before a count. -/
  | between
  /-- In the digits of a count. -/
  | count (n : Nat)
  | fraction (n : Nat) (f : Fraction)
  /-- In the letters of a unit, last letter first. -/
  | unit (n : Nat) (f : Option Fraction) (letters : List Char)
deriving DecidableEq, Repr

/-- What has been read so far. -/
structure SpanReader where
  /-- The sum of the spans read, in nanoseconds. -/
  total : Nat := 0
  /-- Whether any span has been read. -/
  any : Bool := false
  mode : SpanMode := .between
deriving DecidableEq, Repr

namespace SpanReader

/-- A letter of a unit. -/
def isLetter (c : Char) : Bool := c.isAlpha || c == 'µ'

/-- One more decimal digit. -/
def shift? (n : Nat) (c : Char) : Option Nat := fits64 (n * 10 + (c.toNat - '0'.toNat))

/-- Add a part to a sum.  A part that is counted in nanoseconds must fit 64 bits
together with what the sum holds below the second, and the sum must be a
duration. -/
def add? (total grain nanos : Nat) : Option Nat :=
  if grain = 1 ∧ range64 ≤ total % nanosPerSecond + nanos then none
  else if total + nanos ≤ longestNanos then some (total + nanos) else none

/-- Close the span at the end of its unit. -/
def close? (total count : Nat) (fraction : Option Fraction) (letters : List Char) :
    Option Nat := do
  let u ← SpanUnit.ofName? letters.reverse
  let total ← add? total u.countGrain (← u.countNanos? count)
  match fraction with
  | none => some total
  | some f => add? total u.fractionGrain (← u.fractionNanos? f)

/-- Take one more character. -/
def step (r : SpanReader) (c : Char) : Option SpanReader :=
  match r.mode with
  | .between =>
      if isBlank c then some r
      else if c.isDigit then (shift? 0 c).map fun n => { r with mode := .count n }
      else none
  | .count n =>
      if c.isDigit then (shift? n c).map fun n => { r with mode := .count n }
      else if isBlank c then some r
      else if isLetter c then some { r with mode := .unit n none [c] }
      else if c == '.' then some { r with mode := .fraction n ⟨0, 1⟩ }
      else none
  | .fraction n f =>
      if c.isDigit then do
        let numerator ← shift? f.numerator c
        let denominator ← fits64 (f.denominator * 10)
        some { r with mode := .fraction n ⟨numerator, denominator⟩ }
      else if isBlank c then some r
      else if isLetter c && f.denominator != 1 then some { r with mode := .unit n (some f) [c] }
      else none
  | .unit n f letters =>
      if isLetter c then some { r with mode := .unit n f (c :: letters) }
      else do
        let total ← close? r.total n f letters
        if c.isDigit then (shift? 0 c).map fun n => ⟨total, true, .count n⟩
        else if isBlank c then some ⟨total, true, .between⟩
        else none

/-- The sum at the end of the text. -/
def finish? (r : SpanReader) : Option Nat :=
  match r.mode with
  | .between => if r.any then some r.total else none
  | .unit n f letters => close? r.total n f letters
  | _ => none

end SpanReader

/-- The duration of a span text, if it is one. -/
def Duration.ofSpan? (text : String) : Option Duration :=
  if text.toList = ['0'] then some .zero
  else (text.toList.foldlM SpanReader.step {}).bind fun r => r.finish?.bind Duration.ofNanos?

end Decommission
