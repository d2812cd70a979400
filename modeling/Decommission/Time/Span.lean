import Decommission.Time.Duration

/-!
# Spans: durations as people write them

A span text is a sum of counted units, such as `1h 30m` or `1.5s`.  This module
holds the units and the writer.  The reader is in `Time.Span.Reader`.

A year has 365.25 days.  A month has 2630016 seconds, so twelve months are a
little longer than a year, and what a year leaves over is never twelve months.
The writer takes the longest unit first, leaves out what is zero, and joins the
rest with one blank.
-/

namespace Decommission

/-- The units of a span. -/
inductive SpanUnit
  | nanosecond | microsecond | millisecond | second | minute | hour | day | week | month | year
deriving DecidableEq, Repr

namespace SpanUnit

/-- Nanoseconds in one unit. -/
def nanos : SpanUnit → Nat
  | nanosecond => 1
  | microsecond => 1000
  | millisecond => 1000000
  | second => nanosPerSecond
  | minute => 60 * nanosPerSecond
  | hour => 3600 * nanosPerSecond
  | day => 86400 * nanosPerSecond
  | week => 604800 * nanosPerSecond
  | month => 2630016 * nanosPerSecond
  | year => 31557600 * nanosPerSecond

/-- Every unit, shortest first. -/
def all : List SpanUnit :=
  [nanosecond, microsecond, millisecond, second, minute, hour, day, week, month, year]

/-- The names under which a unit is read. -/
def names : SpanUnit → List String
  | nanosecond => ["nanos", "nsec", "ns"]
  | microsecond => ["usec", "us", "µs"]
  | millisecond => ["millis", "msec", "ms"]
  | second => ["seconds", "second", "secs", "sec", "s"]
  | minute => ["minutes", "minute", "min", "mins", "m"]
  | hour => ["hours", "hour", "hr", "hrs", "h"]
  | day => ["days", "day", "d"]
  | week => ["weeks", "week", "wk", "wks", "w"]
  | month => ["months", "month", "M"]
  | year => ["years", "year", "yr", "yrs", "y"]

/-- The unit of a name. -/
def ofName? (name : List Char) : Option SpanUnit :=
  all.find? fun u => u.names.any fun n => n.toList == name

/-- Counts of this unit are kept in nanoseconds below the second, and in seconds
from the second up. -/
def countGrain : SpanUnit → Nat
  | nanosecond | microsecond | millisecond => 1
  | _ => nanosPerSecond

/-- Fractions of this unit are kept in nanoseconds up to the minute, and in
seconds from the hour up. -/
def fractionGrain : SpanUnit → Nat
  | nanosecond | microsecond | millisecond | second | minute => 1
  | _ => nanosPerSecond

end SpanUnit

/-! ## The writer -/

/-- One part of a written span: the unit and the text after its count, for one
and for many. -/
structure SpanPart where
  unit : SpanUnit
  /-- The text after a count of one. -/
  one : String
  many : String

/-- The parts of a written span, longest first. -/
def spanParts : List SpanPart :=
  [⟨.year, "year", "years"⟩, ⟨.month, "month", "months"⟩, ⟨.day, "day", "days"⟩,
   ⟨.hour, "h", "h"⟩, ⟨.minute, "m", "m"⟩, ⟨.second, "s", "s"⟩,
   ⟨.millisecond, "ms", "ms"⟩, ⟨.microsecond, "us", "us"⟩, ⟨.nanosecond, "ns", "ns"⟩]

/-- A count with the text of its unit. -/
def SpanPart.text (p : SpanPart) (count : Nat) : String :=
  toString count ++ if count = 1 then p.one else p.many

/-- The texts of the parts that are not zero.  Each part takes what it can of the
nanoseconds and leaves the rest to the next. -/
def spanTexts : List SpanPart → (nanos : Nat) → List String
  | [], _ => []
  | p :: ps, n =>
      let rest := spanTexts ps (n % p.unit.nanos)
      if n / p.unit.nanos = 0 then rest else p.text (n / p.unit.nanos) :: rest

/-- The duration as a span text. -/
def Duration.span (d : Duration) : String :=
  if d.nanos = 0 then "0s" else " ".intercalate (spanTexts spanParts d.nanos)

example : SpanUnit.ofName? ['m', 's'] = some .millisecond := by decide
example : SpanUnit.ofName? ['M'] = some .month := by decide
example : SpanUnit.ofName? [] = none := by decide

end Decommission
