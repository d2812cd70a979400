import Decommission.Engine.Basic
import Decommission.Signal
import Decommission.Time.Clock

/-!
# Sites

A site is where a decommissioning takes place.  It holds the engines, their
runs, the signals, the time, and the history of what has happened.

Whoever directs the work looks at the site with `Site.glance?` and answers with
events, which `Site.perform` carries out.  The runs of the engines move by
`Site.work?`.  A run goes on when its stream is no longer read, so there may be
several runs, and the stream of at most one of them is read.

Time stands still while anybody can move.  `Site.alarm?` is the next time at
which somebody can.
-/

namespace Decommission

/-- A run of an engine. -/
structure Run where
  engine : Nat
  /-- The signal it watches. -/
  signal : Nat
  work : Work

/-- An engine that was asked to start and has not answered. -/
structure Launch where
  engine : Nat
  /-- When it will answer, if it ever does. -/
  due : Option Nat
deriving DecidableEq

/-- Where a decommissioning takes place. -/
structure Site where
  engines : List Engine
  /-- The time in milliseconds. -/
  now : Nat := 0
  /-- The clock by which time is measured, if that is not the time itself. -/
  clock : Option ManualClock := none
  /-- The signals.  The latest one is in use. -/
  signals : Signals := {}
  /-- The runs, oldest first. -/
  runs : List Run := []
  launch : Option Launch := none
  reading : Option Nat := none
  history : History := []

/-- What can be seen of a site at a glance. -/
structure Glance where
  /-- The time in milliseconds. -/
  now : Nat
  /-- The instant that the measuring clock shows. -/
  reading : Nat
  /-- The answer of the engine that was asked to start, if it is there. -/
  answer : Option (Except EngineError Unit)
  /-- What is at the front of the stream that is read. -/
  head : Head

namespace Site

/-! ## Looking -/

/-- The signal in use. -/
def signal (s : Site) : Nat := s.signals.next - 1

/-- Whether the signal in use has been fired. -/
def isFired (s : Site) : Bool := s.signals.isFired s.signal

/-- The instant that the measuring clock shows. -/
def clockReading (s : Site) : Nat :=
  match s.clock with
  | some c => c.reading
  | none => s.now * nanosPerMilli

/-- The answer of the engine that was asked to start, if it is due. -/
def answer? (s : Site) : Option (Except EngineError Unit) := do
  let l ← s.launch
  let due ← l.due
  let e ← s.engines[l.engine]?
  if due ≤ s.now then some (e.begin.map fun _ => ()) else none

/-- What is at the front of the stream that is read.  Without a stream there is
nothing to come. -/
def head (s : Site) : Head :=
  match s.reading.bind fun i => s.runs[i]? with
  | some r => r.work.head
  | none => .closed

/-- What can be seen at a glance. -/
def glance (s : Site) : Glance := ⟨s.now, s.clockReading, s.answer?, s.head⟩

/-! ## Events -/

/-- Add events to the history. -/
def record (s : Site) (engine : Option Nat) (events : List Event) : Site :=
  { s with history := s.history ++ events.map fun e => ⟨s.now, engine, e⟩ }

/-- Do something to the work whose stream is read. -/
def onReading (f : Work → Work) (s : Site) : Site :=
  match s.reading with
  | some i => { s with runs := s.runs.modify i fun r => { r with work := f r.work } }
  | none => s

/-- Ask an engine to start. -/
def launchEngine (i : Nat) (s : Site) : Site :=
  match s.engines[i]? with
  | some e =>
      { s with
        clock := s.clock.map fun c => c.advance e.clockAdvance
        launch := some ⟨i, e.dueFrom s.now⟩ }
  | none => s

/-- Take the answer of an engine.  If it is at work, its stream is read from now
on, and no other is. -/
def takeAnswer (i : Nat) (s : Site) : Site :=
  match s.engines[i]? with
  | some e =>
      let s := { s with launch := none }.record (some i) (e.beginEvents s.isFired)
      match e.begin with
      | .ok w =>
          let s := s.onReading Work.hangUp
          { s with runs := s.runs ++ [⟨i, s.signal, w⟩], reading := some s.runs.length }
      | .error _ => s
  | none => s

/-- Read no stream, and wait for no start. -/
def release (s : Site) : Site :=
  { s.onReading Work.hangUp with reading := none, launch := none }

/-- What an event does to the site. -/
def carryOut (s : Site) : Event → Site
  | .signalMade => { s with signals := s.signals.add }
  | .signalFired => { s with signals := s.signals.fire s.signal }
  | .launched i => s.launchEngine i
  | .answered i => s.takeAnswer i
  | .received => s.onReading Work.receive
  | .released => s.release
  | _ => s

/-- Let an event happen. -/
def perform (s : Site) (event : Event) : Site := (s.record none [event]).carryOut event

/-- Let events happen, one after the other. -/
def performAll (s : Site) (events : List Event) : Site := events.foldl perform s

/-! ## Runs -/

/-- The next move of a run. -/
def runTurn? (s : Site) (r : Run) : Option (List Event × Work) :=
  r.work.turn? s.now (s.signals.isFired r.signal)

/-- The next move of the first run that need not wait, runs being numbered from
`i` on. -/
def firstTurn? (s : Site) (i : Nat) : List Run → Option (Nat × Run × List Event × Work)
  | [] => none
  | r :: rs =>
      match s.runTurn? r with
      | some (events, w) => some (i, r, events, w)
      | none => s.firstTurn? (i + 1) rs

/-- Let the first run that need not wait make its next move. -/
def work? (s : Site) : Option Site :=
  match s.firstTurn? 0 s.runs with
  | some (i, r, events, w) =>
      let s := s.record (some r.engine) events
      some { s with runs := s.runs.set i { r with work := w } }
  | none => none

/-- An upper bound on the moves of the runs still to come. -/
def moves (s : Site) : Nat := total (fun r => r.work.moves) s.runs

/-- Let the runs move until all of them have to wait, but not more often than a
bound says. -/
def workUpTo : Nat → Site → Site
  | 0, s => s
  | n + 1, s =>
      match s.work? with
      | some s => workUpTo n s
      | none => s

/-- Let the runs move until all of them have to wait. -/
def workOff (s : Site) : Site := workUpTo s.moves s

/-! ## Time -/

/-- The next time at which a run or a start has to be looked at. -/
def alarm? (s : Site) : Option Nat :=
  s.runs.foldr (fun r next => earlier? r.work.alarm? next) (s.launch.bind Launch.due)

/-- An upper bound on what may still happen here, if each engine is started once
more at most. -/
def effort (s : Site) : Nat :=
  s.moves + total (fun e => e.job.moves) s.engines
    + total (fun r => r.work.stream.waiting.length) s.runs

end Site

end Decommission
