import Decommission.Component
import Decommission.Phase

/-!
# Progress updates

Whoever asked for the decommissioning is told about each phase run: that it
started, every report that came in, and how it ended.
-/

namespace Decommission

/-- What an update announces. -/
inductive Milestone
  | start
  | running
  | finished
  /-- At least one component failed, or the engine did not start. -/
  | componentFailure
  /-- The engine stopped after it had been asked to wind down. -/
  | timeoutFailure
  /-- Nobody waited any longer for the engine to stop. -/
  | forceQuitFailure
deriving DecidableEq, Repr, Inhabited

/-- Whether the milestone ends a phase run. -/
def Milestone.isTerminal : Milestone → Bool
  | start | running => false
  | _ => true

/-- One notification. -/
structure Update where
  milestone : Milestone
  phase : Phase
  /-- The report, when the milestone is `running`. -/
  report : Option Report := none
  /-- The reason, when the milestone is a failure. -/
  error : Option String := none
deriving DecidableEq, Repr, Inhabited

namespace Update

/-- The update that passes on a report. -/
def ofReport (phase : Phase) (r : Report) : Update := ⟨.running, phase, some r, none⟩

/-- The start and the end of phase runs, without the reports in between. -/
def lifecycle (us : List Update) : List (Phase × Milestone) :=
  (us.filter fun u => u.milestone ≠ .running).map fun u => (u.phase, u.milestone)

/-- The names of the components reported on. -/
def names (us : List Update) : List String := us.filterMap fun u => u.report.map (·.name)

end Update

end Decommission
