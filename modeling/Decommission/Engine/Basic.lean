import Decommission.Engine.Work
import Decommission.Time.Duration

/-!
# Engines

An engine removes what belongs to one phase.  Asked to start, it takes a while,
or for ever, and then is at work or says why it is not.  `Engine.begin` is that
answer and `Engine.beginEvents` is what can be seen of it.

A start may also move the clock by which the time of a phase is measured.  That
happens as soon as the engine is asked.
-/

namespace Decommission

/-- Why an engine is not at work. -/
inductive EngineError
  | startFailed (reason : String)
deriving DecidableEq, Repr

/-- The error in words. -/
def EngineError.message : EngineError → String
  | startFailed reason => "engine start failed: " ++ reason

/-- What an engine is for. -/
inductive Job
  | nothing
  | script (s : Script)
  | pool (workers : Nat) (components : List Component) (u : Uninstaller)

instance : Inhabited Job := ⟨.script {}⟩

namespace Job

/-- The work with which the job begins, or why it does not. -/
def begin : Job → Except EngineError Work
  | nothing => .ok (.nothing (.sized 0))
  | script s =>
      match s.startError with
      | some reason => .error (.startFailed reason)
      | none => .ok (.script (.start s))
  | pool workers components u =>
      if workers = 0 then .error (.startFailed "worker pool needs at least one worker")
      else .ok (.pool u (.start workers components))

/-- An upper bound on the moves that the job will take. -/
def moves (j : Job) : Nat :=
  match j.begin with
  | .ok w => w.moves
  | .error _ => 0

end Job

/-- An engine. -/
structure Engine where
  job : Job := .script {}
  /-- Whether its starts are noted. -/
  watched : Bool := false
  /-- Milliseconds a start takes. -/
  startDelay : Nat := 0
  /-- Whether a start never ends. -/
  startHangs : Bool := false
  /-- How far a start moves the clock by which time is measured. -/
  clockAdvance : Duration := .zero
deriving Inhabited

namespace Engine

/-- When a start that is asked for at the millisecond `now` ends. -/
def dueFrom (e : Engine) (now : Nat) : Option Nat :=
  if e.startHangs then none else some (now + e.startDelay)

/-- What becomes of a start in the end. -/
def begin (e : Engine) : Except EngineError Work := e.job.begin

/-- What a job shows of its beginning. -/
def jobEvents (e : Engine) : List Event :=
  match e.job with
  | .script _ => [.runStarted]
  | _ => []

/-- What is noted after a start. -/
def startedNote (e : Engine) : Note :=
  match e.begin with
  | .ok _ => .engineStarted
  | .error error => .engineNotStarted error.message

/-- What can be seen of a start when it ends.  `fired` says whether the signal has
been fired by then. -/
def beginEvents (e : Engine) (fired : Bool) : List Event :=
  if e.watched then .note (.engineStarting fired) :: e.jobEvents ++ [.note e.startedNote]
  else e.jobEvents

end Engine

end Decommission
