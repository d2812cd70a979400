import Decommission.Progress
import Decommission.StatusMap

/-!
# One phase run

A phase run races the reports of an engine against two timers.  It takes one
input at a time and says what is to be done.

* A report is passed on.  It counts as a failure if it is one.
* The soft timer asks the engine to wind down, once.
* The end of the reports ends the run.  It has failed if any report did, or else
  if the soft timer had gone off.
* The hard timer ends the run too.  The engine is asked to wind down if the soft
  timer has not done so.

Nothing counts once the run is over.
-/

namespace Decommission

/-- How a phase run ends. -/
inductive Outcome
  /-- All reports came in and none was a failure. -/
  | finished
  /-- All reports came in and some were failures. -/
  | componentFailure (failed : Nat)
  /-- All reports came in, after the soft timer had gone off. -/
  | timeoutFailure
  /-- The hard timer went off first. -/
  | forceQuitFailure
deriving DecidableEq, Repr

namespace Outcome

/-- Whether the phase is done with. -/
def isSuccess : Outcome → Bool
  | finished => true
  | _ => false

/-- The milestone that announces the outcome. -/
def milestone : Outcome → Milestone
  | finished => .finished
  | componentFailure _ => .componentFailure
  | timeoutFailure => .timeoutFailure
  | forceQuitFailure => .forceQuitFailure

end Outcome

/-- How far a phase run has come. -/
inductive RunState
  | running
  /-- The engine has been asked to wind down. -/
  | softCancelled
  | ended (outcome : Outcome)
deriving DecidableEq, Repr

/-- What a phase run takes. -/
inductive RunInput
  | report (r : Report)
  | closed
  /-- The soft timer went off. -/
  | cancelTimeout
  /-- The hard timer went off. -/
  | quitTimeout
deriving DecidableEq, Repr

/-- What a phase run asks for. -/
inductive RunEffect
  | forward (r : Report)
  | cancel
  | complete (outcome : Outcome)
deriving DecidableEq, Repr

/-- A phase run and what it has seen. -/
structure PhaseRun where
  phase : Phase
  state : RunState := .running
  statuses : StatusMap := .empty
  failed : Nat := 0
deriving DecidableEq

namespace PhaseRun

/-- The outcome of a run that is over. -/
def outcome? (r : PhaseRun) : Option Outcome :=
  match r.state with
  | .ended o => some o
  | _ => none

/-- Whether the run is over. -/
def isOver (r : PhaseRun) : Bool := r.outcome?.isSome

/-- Whether the soft timer still matters. -/
def awaitsCancelTimeout (r : PhaseRun) : Bool := r.state == .running

/-- The outcome once there are no more reports. -/
def closingOutcome (r : PhaseRun) : Outcome :=
  if 0 < r.failed then .componentFailure r.failed
  else if r.state = .softCancelled then .timeoutFailure
  else .finished

/-- End the run. -/
def complete (r : PhaseRun) (o : Outcome) : PhaseRun × List RunEffect :=
  ({ r with state := .ended o }, [.complete o])

/-- Take one input.  The effects are to be carried out in order. -/
def handle (r : PhaseRun) (input : RunInput) : PhaseRun × List RunEffect :=
  match r.state, input with
  | .ended _, _ => (r, [])
  | _, .report c =>
      ({ r with failed := if c.isError then r.failed + 1 else r.failed
                statuses := r.statuses.record c }, [.forward c])
  | _, .closed => r.complete r.closingOutcome
  | .running, .cancelTimeout => ({ r with state := .softCancelled }, [.cancel])
  | .softCancelled, .cancelTimeout => (r, [])
  | .running, .quitTimeout =>
      let (r, effects) := r.complete .forceQuitFailure
      (r, .cancel :: effects)
  | .softCancelled, .quitTimeout => r.complete .forceQuitFailure

/-- Take several inputs, and collect the effects. -/
def handleAll (r : PhaseRun) : List RunInput → PhaseRun × List RunEffect
  | [] => (r, [])
  | i :: is =>
      let (r, effects) := r.handle i
      let (r, more) := r.handleAll is
      (r, effects ++ more)

/-- Taking inputs one after the other. -/
theorem handleAll_append (r : PhaseRun) (is js : List RunInput) :
    r.handleAll (is ++ js) =
      (((r.handleAll is).1.handleAll js).1,
        (r.handleAll is).2 ++ ((r.handleAll is).1.handleAll js).2) := by
  induction is generalizing r with
  | nil => rfl
  | cons i is ih =>
    rw [List.cons_append, handleAll, handleAll]
    simp only [ih, List.append_assoc]

/-- Nothing counts once the run is over. -/
theorem handle_of_isOver {r : PhaseRun} (h : r.isOver) (input : RunInput) :
    r.handle input = (r, []) := by
  unfold isOver outcome? at h
  unfold handle
  cases hs : r.state with
  | ended o => rfl
  | running => rw [hs] at h; cases h
  | softCancelled => rw [hs] at h; cases h

end PhaseRun

end Decommission
