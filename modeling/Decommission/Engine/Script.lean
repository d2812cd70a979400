import Decommission.Engine.Stream
import Decommission.Event
import Decommission.Time.Clock

/-!
# Scripted engines

A scripted engine plays a list of reports, each after a delay.  While it waits
for a delay it notices the signal, unless it is told to ignore it, and then
winds down.  After the last report it closes its stream, or waits for the signal
and then winds down, or does nothing at all.  It stops playing when it wants to
send a report and nobody reads the stream.

`Playback.step` takes an action to the next state, or refuses it.  Which action
comes next is not its business.  `Playback.next?` makes the usual choice: a
delay that has passed comes before the signal.  Each wait is a timer of its own,
so it ends at a whole millisecond.
-/

namespace Decommission

/-- A report and the delay before it. -/
structure Step where
  /-- The time since the report before. -/
  delay : Duration
  report : Report
deriving DecidableEq

/-- What a scripted engine does after its last report. -/
inductive AfterScript
  | close
  /-- Wait for the signal, then wind down. -/
  | untilCancelled
  /-- Keep the stream open for good. -/
  | hang
deriving DecidableEq, Inhabited

/-- What a scripted engine plays. -/
structure Script where
  steps : List Step := []
  after : AfterScript := .close
  /-- Whether the signal goes unnoticed before the last report. -/
  ignoresCancel : Bool := false
  /-- The time it takes to wind down. -/
  closeDelay : Duration := .zero
  /-- Why the engine does not start, if it does not. -/
  startError : Option String := none
deriving DecidableEq, Inhabited

/-- How far a script has been played. -/
inductive Playback.Stage
  /-- Before the delay of the next report. -/
  | between (rest : List Step)
  | delaying (due : Nat) (report : Report) (rest : List Step)
  /-- After the last report, waiting for the signal. -/
  | awaiting
  | winding (due : Nat)
  /-- After the last report, for good. -/
  | hung
  | ended
deriving DecidableEq

/-- A script that is being played. -/
structure Playback where
  script : Script
  stage : Playback.Stage
  stream : Stream
deriving DecidableEq

namespace Playback

/-- A script before its first report. -/
def start (s : Script) : Playback := ⟨s, .between s.steps, .sized s.steps.length⟩

/-- What a playing engine does. -/
inductive Action
  | delay (due : Nat)
  | send
  /-- Notice the signal, and begin to wind down. -/
  | heed (due : Nat)
  | settle
  | finish
deriving DecidableEq

/-- The state after an action, if the action is possible.  `fired` says whether
the signal has been fired. -/
def step (fired : Bool) (p : Playback) : Action → Option Playback
  | .delay due =>
      match p.stage with
      | .between (s :: rest) => some { p with stage := .delaying due s.report rest }
      | _ => none
  | .send =>
      match p.stage with
      | .delaying _ r rest =>
          if !p.stream.listening then some { p with stage := .ended }
          else if p.stream.isReady then
            some { p with stage := .between rest, stream := p.stream.send r }
          else none
      | _ => none
  | .heed due =>
      match p.stage with
      | .delaying .. =>
          if fired && !p.script.ignoresCancel then some { p with stage := .winding due } else none
      | .awaiting => if fired then some { p with stage := .winding due } else none
      | _ => none
  | .settle =>
      match p.stage with
      | .between [] =>
          some { p with
            stage := match p.script.after with
              | .close => .ended
              | .untilCancelled => .awaiting
              | .hang => .hung }
      | _ => none
  | .finish =>
      match p.stage with
      | .winding _ => some { p with stage := .ended }
      | _ => none

/-- What an action shows of itself. -/
def events : Action → List Event
  | .heed _ => [.runCancelled]
  | _ => []

/-- Whether the stream is closed. -/
def isClosed (p : Playback) : Bool := p.stage == .ended

/-- When the engine has to be looked at again, whatever else happens. -/
def alarm? (p : Playback) : Option Nat :=
  match p.stage with
  | .delaying due .. => some due
  | .winding due => some due
  | _ => none

/-- The usual choice of the next action at the millisecond `now`, or nothing while
the engine has to wait. -/
def next? (now : Nat) (fired : Bool) (p : Playback) : Option Action :=
  match p.stage with
  | .between [] => some .settle
  | .between (s :: _) => some (.delay (tickAfter now s.delay))
  | .delaying due .. =>
      if due ≤ now then if p.stream.isReady then some .send else none
      else if fired && !p.script.ignoresCancel then some (.heed (tickAfter now p.script.closeDelay))
      else none
  | .awaiting => if fired then some (.heed (tickAfter now p.script.closeDelay)) else none
  | .winding due => if due ≤ now then some .finish else none
  | .hung => none
  | .ended => none

/-- An upper bound on the actions still to come. -/
def moves (p : Playback) : Nat :=
  match p.stage with
  | .between rest => 2 * rest.length + 4
  | .delaying _ _ rest => 2 * rest.length + 5
  | .awaiting => 2
  | .winding _ => 1
  | .hung => 0
  | .ended => 0

end Playback

end Decommission
