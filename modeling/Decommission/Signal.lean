/-!
# Cancellation signals

A signal is fired at most once and stays fired.  A board holds several signals,
numbered in the order in which they were made.  Whoever watches one of them
holds its number, so every watcher sees the same state.
-/

namespace Decommission

/-- Cancellation signals, each with whether it has been fired. -/
structure Signals where
  /-- Whether each signal has been fired, the oldest signal first. -/
  fired : List Bool := []
deriving DecidableEq, Inhabited

namespace Signals

/-- Add a signal that has not been fired.  Its number is the number of signals
there were before. -/
def add (s : Signals) : Signals := ⟨s.fired ++ [false]⟩

/-- The number the next signal will have. -/
def next (s : Signals) : Nat := s.fired.length

/-- Fire a signal.  Firing it again changes nothing. -/
def fire (s : Signals) (i : Nat) : Signals := ⟨s.fired.set i true⟩

/-- Whether a signal has been fired. -/
def isFired (s : Signals) (i : Nat) : Bool := s.fired[i]?.getD false

theorem isFired_fire (s : Signals) (i j : Nat) :
    (s.fire i).isFired j = (s.isFired j || (i == j && decide (j < s.next))) := by
  unfold isFired fire next
  by_cases h : i = j
  · subst h
    by_cases hl : i < s.fired.length
    · simp [hl]
    · simp [List.set_eq_of_length_le (Nat.le_of_not_lt hl), hl]
  · simp [List.getElem?_set_ne h, h]

end Signals

end Decommission
