/-!
# Widths of counters

Counters are kept in 32 or in 64 bits.  The range of a width is the number of
values that it has, so a counter of that width is below it.
-/

namespace Decommission

/-- The number of values of 32 bits. -/
def range32 : Nat := 4294967296

/-- The number of values of 64 bits. -/
def range64 : Nat := 18446744073709551616

example : range32 = 2 ^ 32 := by decide
example : range64 = 2 ^ 64 := by decide

end Decommission
