import Decommission.Course
import Decommission.PhaseError
import Decommission.PhaseRun

/-!
# Supervising a phase run

A supervision starts the engine of a phase and watches its reports within a
budget.  Both timers are set when it begins, so they run while the engine is
starting.  What happens first is fed to a `PhaseRun`, whose effects are carried
out as events.

At every glance the engine comes first: its answer while it is starting, its
stream afterwards.  Then comes the hard timer, and last the soft timer, which is
looked at only while the run waits for it.

`Supervision.look` depends on nothing but the glance.  What holds of it for all
sequences of glances holds for every engine.
-/

namespace Decommission

/-- How far a supervision has come. -/
inductive Supervision.Stage
  | starting
  | watching
  | ended (result : Except PhaseError Unit)

/-- A supervised phase run. -/
structure Supervision where
  run : PhaseRun
  engine : Nat
  /-- The millisecond at which the supervision began. -/
  startedAt : Nat
  budget : Budget
  stage : Supervision.Stage := .starting

namespace Supervision

/-- The phase. -/
def phase (s : Supervision) : Phase := s.run.phase

/-- A supervision at its beginning. -/
def start (phase : Phase) (engine : Nat) (budget : Budget) (now : Nat) : Supervision where
  run := { phase }
  engine
  startedAt := now
  budget

/-- What happens when a supervision begins. -/
def opening (s : Supervision) : List Event :=
  [.update ⟨.start, s.phase, none, none⟩, .note (.phaseStarted s.phase s.budget),
    .launched s.engine]

/-- When the soft timer goes off. -/
def cancelTick (s : Supervision) : Nat := tickAfter s.startedAt s.budget.cancel

/-- When the hard timer goes off. -/
def quitTick (s : Supervision) : Nat := tickAfter s.startedAt s.budget.quit

/-- The result of a phase run with a certain outcome. -/
def resultOf (phase : Phase) : Outcome → Except PhaseError Unit
  | .finished => .ok ()
  | .componentFailure failed => .error (.componentFailure phase failed)
  | .timeoutFailure => .error (.timeout phase)
  | .forceQuitFailure => .error (.forceQuit phase)

/-- The text of the error in a result. -/
def errorText? : Except PhaseError Unit → Option String
  | .ok _ => none
  | .error e => some e.message

/-- What is noted of a result after some milliseconds.  The last status of each
component is noted of a failure. -/
def resultNotes (run : PhaseRun) (elapsed : Nat) : Except PhaseError Unit → List Note
  | .ok _ => [.phaseFinished run.phase elapsed]
  | .error e =>
      .phaseFailed run.phase elapsed e.message
        :: run.statuses.toList.map fun (name, status) => .lastStatus run.phase name status

/-- What happens once the phase run is over. -/
def closing (s : Supervision) (now : Nat) (o : Outcome) : List Event :=
  let result := resultOf s.phase o
  let abandoned := if o = .forceQuitFailure then [.abandoned s.phase] else []
  .released :: (abandoned ++ resultNotes s.run (now - s.startedAt) result).map .note
    ++ [.update ⟨o.milestone, s.phase, none, errorText? result⟩]

/-- What an effect of the phase run lets happen. -/
def effectEvents (phase : Phase) : RunEffect → List Event
  | .forward r => [.note (.reported phase r.name r.status), .update (.ofReport phase r)]
  | .cancel => [.note (.cancelling phase), .signalFired]
  | .complete _ => []

/-- Feed an input to the phase run. -/
def apply (s : Supervision) (now : Nat) (input : RunInput) : List Event × Supervision :=
  let (run, effects) := s.run.handle input
  let s := { s with run }
  let events := effects.flatMap (effectEvents s.phase)
  match run.outcome? with
  | some o => (events ++ s.closing now o, { s with stage := .ended (resultOf s.phase o) })
  | none => (events, s)

/-- End the supervision because the engine did not start. -/
def refuse (s : Supervision) (e : EngineError) : List Event × Supervision :=
  let error := PhaseError.engine s.phase e
  ([.answered s.engine, .note (.engineRefused s.phase error.message),
    .update ⟨.componentFailure, s.phase, none, some error.message⟩, .released],
   { s with stage := .ended (.error error) })

/-- Look at the timers. -/
def lookAtTimers (s : Supervision) (now : Nat) : Option (List Event × Supervision) :=
  if s.quitTick ≤ now then some (s.apply now .quitTimeout)
  else if s.run.awaitsCancelTimeout && s.cancelTick ≤ now then some (s.apply now .cancelTimeout)
  else none

/-- The next step at a glance, unless there is nothing to do but wait. -/
def look (g : Glance) (s : Supervision) : Option (List Event × Supervision) :=
  match s.stage with
  | .starting =>
      match g.answer with
      | some (.ok _) => some ([.answered s.engine], { s with stage := .watching })
      | some (.error e) => some (s.refuse e)
      | none => s.lookAtTimers g.now
  | .watching =>
      match g.head with
      | .report r =>
          let (events, s) := s.apply g.now (.report r)
          some (.received :: events, s)
      | .closed => some (s.apply g.now .closed)
      | .nothing => s.lookAtTimers g.now
  | .ended _ => none

/-- The result, once there is one. -/
def result? (s : Supervision) : Option (Except PhaseError Unit) :=
  match s.stage with
  | .ended result => some result
  | _ => none

/-- When the next timer goes off that still matters. -/
def alarm? (s : Supervision) : Option Nat :=
  match s.stage with
  | .ended _ => none
  | _ =>
      if s.run.awaitsCancelTimeout then some (min s.quitTick s.cancelTick) else some s.quitTick

instance : Director Supervision where
  step? := look
  alarm? := alarm?
  isOver s := s.result?.isSome
  steps _ := 4

/-- Supervise a phase run to its end at a site. -/
def conduct (phase : Phase) (engine : Nat) (budget : Budget) (site : Site) : Course Supervision :=
  let s := start phase engine budget site.now
  Course.run ⟨s, site.performAll s.opening⟩

end Supervision

end Decommission
