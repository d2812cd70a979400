/-!
# Durations

A duration is a whole number of nanoseconds.  It is at most `2 ^ 64 - 1` seconds
and 999999999 nanoseconds, the longest span that a 64-bit count of seconds and
a nanosecond part can hold.

All arithmetic stays inside that range.  `d + e` and `d.scale k` stop at the
longest duration, `d - e` stops at zero.  Each operation has one lemma that
says what it does to the number of nanoseconds, and no later proof needs its
definition.
-/

namespace Decommission

/-- Nanoseconds in one second. -/
def nanosPerSecond : Nat := 1000000000

/-- Nanoseconds in one millisecond. -/
def nanosPerMilli : Nat := 1000000

/-- Nanoseconds of the longest duration. -/
def longestNanos : Nat := 18446744073709551615999999999

/-- A span of time in whole nanoseconds. -/
structure Duration where
  nanos : Nat
  /-- No duration is longer than the longest. -/
  nanos_le : nanos ≤ longestNanos
deriving DecidableEq

namespace Duration

/-- A number of nanoseconds, or the longest duration if that is too many. -/
def ofNanos (n : Nat) : Duration := ⟨min n longestNanos, Nat.min_le_right ..⟩

/-- A number of nanoseconds, if a duration can hold it. -/
def ofNanos? (n : Nat) : Option Duration :=
  if h : n ≤ longestNanos then some ⟨n, h⟩ else none

/-- Seconds and nanoseconds, if a duration can hold them. -/
def ofParts? (secs nanos : Nat) : Option Duration := ofNanos? (secs * nanosPerSecond + nanos)

/-- Whole seconds. -/
def ofSecs (n : Nat) : Duration := ofNanos (n * nanosPerSecond)

/-- Whole milliseconds. -/
def ofMillis (n : Nat) : Duration := ofNanos (n * nanosPerMilli)

/-- Where a duration is wanted, a number stands for so many milliseconds. -/
instance : Coe Nat Duration := ⟨ofMillis⟩

/-- No time at all. -/
def zero : Duration := ofNanos 0

/-- The longest duration. -/
def longest : Duration := ⟨longestNanos, Nat.le_refl _⟩

instance : Inhabited Duration := ⟨zero⟩

/-- Whole seconds, the rest dropped. -/
def secs (d : Duration) : Nat := d.nanos / nanosPerSecond

/-- Nanoseconds beyond the whole seconds. -/
def subsecNanos (d : Duration) : Nat := d.nanos % nanosPerSecond

/-- Whole milliseconds, the rest dropped. -/
def millis (d : Duration) : Nat := d.nanos / nanosPerMilli

/-- The sum, or the longest duration if the sum is longer. -/
instance : Add Duration := ⟨fun d e => ofNanos (d.nanos + e.nanos)⟩

/-- The difference, or zero if the second is longer. -/
instance : Sub Duration := ⟨fun d e => ofNanos (d.nanos - e.nanos)⟩

/-- A multiple, or the longest duration if the multiple is longer. -/
def scale (d : Duration) (factor : Nat) : Duration := ofNanos (d.nanos * factor)

instance : LE Duration := ⟨fun d e => d.nanos ≤ e.nanos⟩

instance : LT Duration := ⟨fun d e => d.nanos < e.nanos⟩

instance (d e : Duration) : Decidable (d ≤ e) := inferInstanceAs (Decidable (d.nanos ≤ e.nanos))

instance (d e : Duration) : Decidable (d < e) := inferInstanceAs (Decidable (d.nanos < e.nanos))

instance : Min Duration := ⟨fun d e => if d ≤ e then d else e⟩

/-! ## What each operation does to the nanoseconds -/

@[ext]
theorem ext {d e : Duration} (h : d.nanos = e.nanos) : d = e := by
  cases d; cases e; cases h; rfl

theorem le_iff {d e : Duration} : d ≤ e ↔ d.nanos ≤ e.nanos := Iff.rfl

theorem lt_iff {d e : Duration} : d < e ↔ d.nanos < e.nanos := Iff.rfl

@[simp]
theorem nanos_ofNanos (n : Nat) : (ofNanos n).nanos = min n longestNanos := rfl

@[simp]
theorem nanos_zero : zero.nanos = 0 := rfl

theorem nanos_add (d e : Duration) : (d + e).nanos = min (d.nanos + e.nanos) longestNanos := rfl

theorem nanos_sub (d e : Duration) : (d - e).nanos = d.nanos - e.nanos :=
  Nat.min_eq_left (Nat.le_trans (Nat.sub_le ..) d.nanos_le)

theorem nanos_scale (d : Duration) (k : Nat) :
    (d.scale k).nanos = min (d.nanos * k) longestNanos := rfl

theorem nanos_min (d e : Duration) : (min d e).nanos = min d.nanos e.nanos := by
  show (if d ≤ e then d else e).nanos = _
  by_cases h : d ≤ e
  · rw [if_pos h, Nat.min_eq_left (le_iff.mp h)]
  · rw [if_neg h, Nat.min_eq_right (Nat.le_of_not_le h)]

theorem ofNanos?_nanos (d : Duration) : ofNanos? d.nanos = some d := dif_pos d.nanos_le

/-- The nanosecond part is below one second. -/
theorem subsecNanos_lt (d : Duration) : d.subsecNanos < nanosPerSecond :=
  Nat.mod_lt _ (by decide)

/-- A duration is its seconds and its nanosecond part. -/
theorem secs_mul_add_subsecNanos (d : Duration) :
    d.secs * nanosPerSecond + d.subsecNanos = d.nanos := by
  rw [secs, subsecNanos, Nat.mul_comm]
  exact Nat.div_add_mod ..

example : longestNanos = (2 ^ 64 - 1) * nanosPerSecond + 999999999 := by decide
example : ofParts? (2 ^ 64 - 1) 999999999 = some longest := by decide
example : ofParts? (2 ^ 64) 0 = none := by decide
example : longest + ofNanos 1 = longest := by decide
example : zero - longest = zero := by decide

end Duration

end Decommission
