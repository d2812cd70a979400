import Decommission.Engine.Basic

/-!
# Tallies

What engines and uninstallers have counted is read off the history.  A scripted
engine counts its runs and those in which it noticed the signal.  An uninstaller
counts the removals that began and ended, and the most that were under way at
the same time.  An idle one counts nothing.
-/

namespace Decommission

/-- What an uninstaller has counted. -/
structure RemovalTally where
  /-- The names of the components whose removal began, in order. -/
  started : List String := []
  /-- The names of the components whose removal ended, in order. -/
  finished : List String := []
  /-- The most removals that were under way at the same time. -/
  most : Nat := 0
deriving DecidableEq

/-- What an engine has counted. -/
inductive Tally
  | nothing
  /-- Its runs, and those in which it noticed the signal. -/
  | runs (all cancelled : Nat)
  /-- How many components it has, and what its uninstaller has counted. -/
  | removals (components : Nat) (removals : RemovalTally)
deriving DecidableEq

/-- What the uninstaller has counted. -/
def Uninstaller.tally (u : Uninstaller) (h : History) : RemovalTally :=
  if u.idle then {} else ⟨h.removalsStarted, h.removalsEnded, h.mostRemovals⟩

/-- What an engine has counted in its runs. -/
def Job.tally (j : Job) (runs : History) : Tally :=
  match j with
  | .nothing => .nothing
  | .script _ => .runs (runs.count .runStarted) (runs.count .runCancelled)
  | .pool _ components u => .removals components.length (u.tally runs)

end Decommission
