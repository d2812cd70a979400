import Decommission.Time.Duration

/-!
# Timeout budgets

A budget gives a phase run two spans, counted from its start.  After `cancel`
the engine is asked to wind down.  After `quit` nobody waits for it any longer.
Time that has already gone by shortens both.
-/

namespace Decommission

/-- The time one phase run may take. -/
structure Budget where
  /-- When the engine is asked to wind down. -/
  cancel : Duration
  quit : Duration
deriving DecidableEq, Inhabited

/-- What is left once `elapsed` has gone by.  Each part stops at zero. -/
def Budget.remaining (b : Budget) (elapsed : Duration) : Budget :=
  ⟨b.cancel - elapsed, b.quit - elapsed⟩

/-- What is left after each of several spans, one after the other. -/
def Budget.chain (b : Budget) : List Duration → List Budget
  | [] => []
  | e :: es => b.remaining e :: (b.remaining e).chain es

theorem Budget.cancel_remaining (b : Budget) (e : Duration) :
    (b.remaining e).cancel.nanos = b.cancel.nanos - e.nanos := Duration.nanos_sub ..

theorem Budget.quit_remaining (b : Budget) (e : Duration) :
    (b.remaining e).quit.nanos = b.quit.nanos - e.nanos := Duration.nanos_sub ..

end Decommission
