import Decommission.Time.Duration

/-!
# Clocks, deadlines and timers

An instant is a number of nanoseconds since the origin of a clock.  A clock
counts only so far: an instant is below `clockRange`.  A deadline is an instant
some duration after a start.  Where the sum leaves the range of the clock the
deadline lies `farFuture` after the start instead, thirty years of 365 days.

Timers go off at whole milliseconds.  `timerTick` is the first one that is not
before an instant.  A wait that begins at a whole millisecond therefore ends at
`tickAfter`.

A manual clock stands still until it is advanced.
-/

namespace Decommission

/-- Instants of a clock are below this number of nanoseconds. -/
def clockRange : Nat := 9223372036854775807 * nanosPerSecond

/-- How far ahead a deadline lies that the clock cannot express: thirty years of
365 days. -/
def farFuture : Nat := 946080000 * nanosPerSecond

/-- The instant `after` has passed since `start`, or the far future if the clock
does not count that far.  A start is meant to be at least `farFuture` before the end
of the clock.  There is no deadline if not even the far future can be expressed, and
such starts are left out. -/
def deadline (start : Nat) (after : Duration) : Nat :=
  if start + after.nanos < clockRange then start + after.nanos else start + farFuture

/-- The first whole millisecond that is not before an instant. -/
def timerTick (instant : Nat) : Nat := (instant + (nanosPerMilli - 1)) / nanosPerMilli

/-- The millisecond at which a timer goes off that is set at the millisecond
`now`. -/
def tickAfter (now : Nat) (wait : Duration) : Nat :=
  timerTick (deadline (now * nanosPerMilli) wait)

theorem le_timerTick_mul (instant : Nat) : instant ≤ timerTick instant * nanosPerMilli := by
  unfold timerTick nanosPerMilli
  omega

theorem timerTick_mul_lt (instant : Nat) :
    timerTick instant * nanosPerMilli < instant + nanosPerMilli := by
  unfold timerTick nanosPerMilli
  omega

/-- A timer for a whole millisecond goes off exactly then. -/
theorem timerTick_mul (ms : Nat) : timerTick (ms * nanosPerMilli) = ms := by
  unfold timerTick nanosPerMilli
  omega

theorem timerTick_mono {a b : Nat} (h : a ≤ b) : timerTick a ≤ timerTick b :=
  Nat.div_le_div_right (Nat.add_le_add_right h _)

theorem deadline_of_lt {start : Nat} {d : Duration} (h : start + d.nanos < clockRange) :
    deadline start d = start + d.nanos := if_pos h

/-- A timer for a whole number of milliseconds goes off exactly then. -/
theorem tickAfter_of_millis {now ms : Nat} {d : Duration} (hd : d.nanos = ms * nanosPerMilli)
    (h : now * nanosPerMilli + d.nanos < clockRange) : tickAfter now d = now + ms := by
  rw [tickAfter, deadline_of_lt h, hd, ← Nat.add_mul, timerTick_mul]

/-- The earlier of two times, where there are any. -/
def earlier? : Option Nat → Option Nat → Option Nat
  | none, b => b
  | a, none => a
  | some a, some b => some (min a b)

theorem earlier?_le {a : Option Nat} {b c : Nat} (h : earlier? a (some b) = some c) : c ≤ b := by
  cases a with
  | none => exact Nat.le_of_eq (Option.some.inj h).symm
  | some a => exact Nat.le_trans (Nat.le_of_eq (Option.some.inj h).symm) (Nat.min_le_right ..)

/-! ## Manual clocks -/

/-- A clock that moves only when told to. -/
structure ManualClock where
  reading : Nat := 0
deriving DecidableEq, Inhabited

namespace ManualClock

/-- Move the clock forward, unless that leaves its range. -/
def advance? (c : ManualClock) (d : Duration) : Option ManualClock :=
  if c.reading + d.nanos < clockRange then some ⟨c.reading + d.nanos⟩ else none

/-- Move the clock forward as far as it counts. -/
def advance (c : ManualClock) (d : Duration) : ManualClock := (c.advance? d).getD c

/-- Time passed since an earlier instant, zero if that lies ahead. -/
def since (c : ManualClock) (earlier : Nat) : Duration := .ofNanos (c.reading - earlier)

theorem reading_of_advance? {c c' : ManualClock} {d : Duration} (h : c.advance? d = some c') :
    c'.reading = c.reading + d.nanos := by
  unfold advance? at h
  split at h
  · cases h; rfl
  · cases h

example : (ManualClock.mk 0).advance? .longest = none := by decide
example : tickAfter 0 .longest = 946080000000 := by decide
example : tickAfter 5 (.ofNanos 1) = 6 := by decide

end ManualClock

end Decommission
