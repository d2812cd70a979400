import Decommission.Site

/-!
# The course of events

A director decides what happens at a site.  It looks at the site and takes a
step, or waits until there is something new to see or one of its timers goes
off.  It may have helpers, who work on their own.

`Course.turn?` fixes who moves.  The director moves as long as it need not wait.
Then the runs of the site and the helpers move until all of them have to wait,
and the director looks again.  Time passes only when nobody can move.  The
course ends as soon as the director is done, whatever the others are doing.
-/

namespace Decommission

/-- What decides on the events at a site. -/
class Director (σ : Type) where
  /-- The next step at a glance, with the events it lets happen, unless there is
  nothing to do but wait. -/
  step? : Glance → σ → Option (List Event × σ)
  /-- What the helpers do until they are done, if there is anything left for
  them. -/
  assist? : σ → Option (List Event × σ) := fun _ => none
  alarm? : σ → Option Nat := fun _ => none
  /-- Whether everything is decided. -/
  isOver : σ → Bool
  /-- An upper bound on the steps to come, the reports of engines not counted. -/
  steps : σ → Nat

/-- A director and its site. -/
structure Course (σ : Type) where
  director : σ
  site : Site

namespace Course

variable {σ : Type} [Director σ]

/-- The director takes a step. -/
def direct? (c : Course σ) : Option (Course σ) := do
  let (events, d) ← Director.step? c.site.glance c.director
  some ⟨d, c.site.performAll events⟩

/-- The runs of the site move until all of them have to wait. -/
def workOff? (c : Course σ) : Option (Course σ) :=
  if c.site.work?.isSome then some { c with site := c.site.workOff } else none

/-- The helpers work until they are done. -/
def assist? (c : Course σ) : Option (Course σ) := do
  let (events, d) ← Director.assist? c.director
  some ⟨d, c.site.performAll events⟩

/-- The next time at which anybody has to be looked at. -/
def alarm? (c : Course σ) : Option Nat := earlier? c.site.alarm? (Director.alarm? c.director)

/-- Time passes until the next alarm. -/
def elapse? (c : Course σ) : Option (Course σ) := do
  let alarm ← c.alarm?
  if c.site.now < alarm then some { c with site := { c.site with now := alarm } } else none

/-- What happens next, unless the director is done. -/
def turn? (c : Course σ) : Option (Course σ) :=
  if Director.isOver c.director then none
  else
    c.direct? <|>
      match c.workOff? with
      | some c => some (c.assist?.getD c)
      | none => c.assist? <|> c.elapse?

/-- What happens until the director is done, but not more than a bound says. -/
def runUpTo : Nat → Course σ → Course σ
  | 0, c => c
  | n + 1, c =>
      match c.turn? with
      | some c => runUpTo n c
      | none => c

/-- A bound on the turns of a course.  Between two steps of the director or moves
of a run, the others move once and time passes once. -/
def bound (c : Course σ) : Nat := 4 * (c.site.effort + Director.steps c.director) + 16

/-- What happens until the director is done. -/
def run (c : Course σ) : Course σ := runUpTo c.bound c

theorem runUpTo_succ (n : Nat) (c : Course σ) :
    c.runUpTo (n + 1) =
      match c.turn? with
      | some d => d.runUpTo n
      | none => c := rfl

end Course

end Decommission
