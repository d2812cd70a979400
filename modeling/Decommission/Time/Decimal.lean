import Decommission.Time.Duration

/-!
# Durations as decimal text

Messages print a duration as a decimal number in the largest of the units
second, millisecond, microsecond and nanosecond that is not longer than the
duration: `1500s`, `100ms`, `1.5µs`, `1.000000001s`.  The fraction has no
trailing zeros, and there is no point without a fraction.
-/

namespace Decommission

/-- The number `10 ^ width`. -/
def tenTo (width : Nat) : Nat := Nat.pow 10 width

/-- The digits of the fraction `n / 10 ^ width`, without trailing zeros. -/
def fractionDigits : (width : Nat) → (n : Nat) → List Char
  | 0, _ => []
  | width + 1, n =>
      if n = 0 then []
      else Nat.digitChar (n / tenTo width) :: fractionDigits width (n % tenTo width)

/-- A unit of decimal text: `10 ^ width` nanoseconds, and how it is written. -/
structure DecimalUnit where
  /-- Decimal places from this unit down to the nanosecond. -/
  width : Nat
  symbol : String

/-- The units, longest first. -/
def decimalUnits : List DecimalUnit := [⟨9, "s"⟩, ⟨6, "ms"⟩, ⟨3, "µs"⟩]

/-- The unit below all others. -/
def nanosecondUnit : DecimalUnit := ⟨0, "ns"⟩

/-- The longest unit that is not longer than the duration. -/
def Duration.decimalUnit (d : Duration) : DecimalUnit :=
  (decimalUnits.find? fun u => tenTo u.width ≤ d.nanos).getD nanosecondUnit

/-- The duration as a decimal number with its unit. -/
def Duration.decimal (d : Duration) : String :=
  let u := d.decimalUnit
  let digits := fractionDigits u.width (d.nanos % tenTo u.width)
  let point := if digits.isEmpty then [] else ['.']
  toString (d.nanos / tenTo u.width) ++ String.ofList (point ++ digits) ++ u.symbol

example : fractionDigits 3 500 = ['5'] := by decide
example : fractionDigits 9 1 = ['0', '0', '0', '0', '0', '0', '0', '0', '1'] := by decide

end Decommission
