import Decommission.Cluster.Basic
import Decommission.Progress
import Decommission.Uninstaller

/-!
# Events

Everything that happens during a decommissioning is an event: what is told to
the outside, what is asked of collaborators, and what tasks do.  The history of
a run is the list of its events with their times.  Updates, the log, and counts
are read off the history.
-/

namespace Decommission

/-- Something that happens. -/
inductive Event
  | update (u : Update)
  | note (n : Note)
  /-- The namespaces of the installation were looked up. -/
  | lookedUp
  | called (c : Call)
  /-- A new signal was made. -/
  | signalMade
  /-- The signal was fired. -/
  | signalFired
  | launched (engine : Nat)
  /-- An engine answered that it started, or that it did not. -/
  | answered (engine : Nat)
  | received
  | released
  /-- A scripted engine began a run. -/
  | runStarted
  /-- A scripted engine noticed the signal. -/
  | runCancelled
  | removalStarted (position : Nat) (c : Component)
  | removalEnded (position : Nat) (c : Component) (v : Verdict)
deriving DecidableEq

/-- An event with its time. -/
structure Entry where
  /-- The millisecond at which it happened. -/
  time : Nat
  /-- The engine whose run it belongs to, if it belongs to one. -/
  engine : Option Nat
  event : Event
deriving DecidableEq

/-- What happened so far, oldest first. -/
abbrev History := List Entry

namespace History

/-- The updates with their times. -/
def updates (h : History) : List (Nat × Update) :=
  h.filterMap fun e =>
    match e.event with
    | .update u => some (e.time, u)
    | _ => none

/-- The notes. -/
def notes (h : History) : List Note :=
  h.filterMap fun e =>
    match e.event with
    | .note n => some n
    | _ => none

/-- The calls to the cluster with their times. -/
def calls (h : History) : List (Nat × Call) :=
  h.filterMap fun e =>
    match e.event with
    | .called c => some (e.time, c)
    | _ => none

/-- The listings of pods with their times. -/
def listings (h : History) : List (Nat × String) :=
  h.calls.filterMap fun (time, c) =>
    match c with
    | .listPods space => some (time, space)
    | _ => none

/-- How often an event happened. -/
def count (h : History) (event : Event) : Nat := (h.filter fun e => e.event = event).length

/-- What belongs to the runs of one engine. -/
def ofEngine (h : History) (engine : Nat) : History := h.filter fun e => e.engine = some engine

/-- The names of the components whose removal began, in order. -/
def removalsStarted (h : History) : List String :=
  h.filterMap fun e =>
    match e.event with
    | .removalStarted _ c => some c.name
    | _ => none

/-- The names of the components whose removal ended, in order. -/
def removalsEnded (h : History) : List String :=
  h.filterMap fun e =>
    match e.event with
    | .removalEnded _ c _ => some c.name
    | _ => none

/-- Removals under way after an event, and the most there were at any time. -/
def countRemovals (now most : Nat) : History → Nat
  | [] => most
  | e :: es =>
      match e.event with
      | .removalStarted .. => countRemovals (now + 1) (max most (now + 1)) es
      | .removalEnded .. => countRemovals (now - 1) most es
      | _ => countRemovals now most es

/-- The most removals that were under way at the same time. -/
def mostRemovals (h : History) : Nat := countRemovals 0 0 h

end History

end Decommission
