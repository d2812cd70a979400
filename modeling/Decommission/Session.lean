import Decommission.Course

/-!
# Sessions

A session drives an engine by hand.  It asks the engine to start, takes reports
off its stream for a while, and lets time pass.  Each of these is a director of
its own, and each begins at the site as the one before has left it.

A look at the stream comes before a look at the time, and nobody else moves in
between.
-/

namespace Decommission

/-! ## Starting -/

/-- The start of an engine. -/
inductive Starting
  | asking (engine : Nat)
  | waiting (engine : Nat)
  | answered (answer : Except EngineError Unit)

namespace Starting

/-- The next step at a glance. -/
def step? (g : Glance) : Starting → Option (List Event × Starting)
  | asking engine => some ([.launched engine], waiting engine)
  | waiting engine => g.answer.map fun answer => ([.answered engine], answered answer)
  | answered _ => none

/-- The answer, once there is one. -/
def answer? : Starting → Option (Except EngineError Unit)
  | answered answer => some answer
  | _ => none

instance : Director Starting where
  step? := step?
  isOver s := s.answer?.isSome
  steps _ := 2

end Starting

/-! ## Receiving -/

/-- What came of waiting for a report. -/
inductive Receipt
  | report (r : Report)
  | closed
  | timeout
deriving DecidableEq

/-- Waiting for one report. -/
structure Receiving where
  due : Nat
  receipt : Option Receipt := none

namespace Receiving

/-- The next step at a glance. -/
def step? (g : Glance) (r : Receiving) : Option (List Event × Receiving) :=
  match g.head with
  | .report x => some ([.received], { r with receipt := some (.report x) })
  | .closed => some ([], { r with receipt := some .closed })
  | .nothing => if r.due ≤ g.now then some ([], { r with receipt := some .timeout }) else none

instance : Director Receiving where
  step? := step?
  alarm? r := some r.due
  isOver r := r.receipt.isSome
  steps _ := 1

end Receiving

/-- Taking all reports off a stream. -/
structure Draining where
  due : Nat
  /-- The reports, with the times at which they were taken. -/
  reports : List (Nat × Report) := []
  /-- Whether the end of the stream was reached, once that is known. -/
  closed : Option Bool := none

namespace Draining

/-- The next step at a glance. -/
def step? (g : Glance) (d : Draining) : Option (List Event × Draining) :=
  match g.head with
  | .report r => some ([.received], { d with reports := d.reports ++ [(g.now, r)] })
  | .closed => some ([], { d with closed := some true })
  | .nothing => if d.due ≤ g.now then some ([], { d with closed := some false }) else none

instance : Director Draining where
  step? := step?
  alarm? d := some d.due
  isOver d := d.closed.isSome
  steps _ := 1

end Draining

/-! ## Waiting -/

/-- Letting time pass. -/
structure Pause where
  due : Nat
  /-- Whether it has ended. -/
  isOver : Bool := false

namespace Pause

/-- The next step at a glance. -/
def step? (g : Glance) (p : Pause) : Option (List Event × Pause) :=
  if p.due ≤ g.now then some ([], { p with isOver := true }) else none

instance : Director Pause where
  step? := step?
  alarm? p := some p.due
  isOver p := p.isOver
  steps _ := 1

end Pause

/-! ## Sessions -/

namespace Site

/-- Ask an engine to start.  There is no answer if it never comes. -/
def startEngine (engine : Nat) (s : Site) : Option (Except EngineError Unit) × Site :=
  let c := Course.run ⟨Starting.asking engine, s⟩
  (c.director.answer?, c.site)

/-- Wait for one report. -/
def receiveWithin (timeout : Nat) (s : Site) : Receipt × Site :=
  let c := Course.run ⟨({ due := s.now + timeout } : Receiving), s⟩
  (c.director.receipt.getD .timeout, c.site)

/-- Take reports off the stream until it ends or time is up. -/
def drainWithin (timeout : Nat) (s : Site) : List (Nat × Report) × Bool × Site :=
  let c := Course.run ⟨({ due := s.now + timeout } : Draining), s⟩
  (c.director.reports, c.director.closed.getD false, c.site)

/-- Let time pass. -/
def pauseFor (time : Nat) (s : Site) : Site :=
  (Course.run ⟨({ due := s.now + time } : Pause), s⟩).site

end Site

end Decommission
