import Decommission.Engine.Stream
import Decommission.Event
import Decommission.Number.Total
import Decommission.Time.Clock

/-!
# Worker pools

A pool removes a list of components.  Its dispatcher takes the components in
order.  For each it waits until one of the worker slots is free, and hands the
component to a task of its own, together with the slot.  The task calls the
uninstaller, gives the slot back when the call ends, and sends one report.

The dispatcher looks at the signal before every slot it takes.  Once the signal
has been fired it hands out nothing more.  After the last component, or the
signal, it waits until every task has ended.  The stream closes when neither the
dispatcher nor any task is left.

The dispatcher cannot count more than `slotLimit` slots.  With more workers than
that it dies before it hands out anything.  A task that dies gives its slot back
and sends nothing.

`Pool.step` takes an action to the next state, or refuses it, for any order of
actions of the dispatcher and the tasks.  `Pool.next?` makes the usual choice:
the dispatcher comes first, then the tasks in the order in which they were
begun.
-/

namespace Decommission

/-- The most slots a dispatcher can count. -/
def slotLimit : Nat := 2305843009213693951

namespace Pool

/-- How far the dispatcher has come. -/
inductive Dispatcher
  | dispatching (rest : List Component)
  | draining
  | ended
  | dead
deriving DecidableEq

/-- How far a task has come. -/
inductive Stage
  /-- It holds a slot and has not called the uninstaller. -/
  | ready
  /-- It holds a slot, and the call is under way. -/
  | calling (due : Nat)
  /-- The call has ended, and the slot is given back. -/
  | returned (v : Verdict)
  | reported (v : Verdict)
  | dead
deriving DecidableEq

/-- The task of one component. -/
structure Task where
  component : Component
  stage : Stage := .ready
deriving DecidableEq

/-- Whether the task holds a slot. -/
def Task.holdsSlot (t : Task) : Bool :=
  match t.stage with
  | .ready | .calling _ => true
  | _ => false

/-- Whether nothing more comes of the task. -/
def Task.isOver (t : Task) : Bool :=
  match t.stage with
  | .reported _ | .dead => true
  | _ => false

end Pool

/-- A pool at work. -/
structure Pool where
  /-- The number of worker slots. -/
  workers : Nat
  dispatcher : Pool.Dispatcher
  /-- The tasks, in the order in which they were begun. -/
  tasks : List Pool.Task := []
  stream : Stream
deriving DecidableEq

namespace Pool

/-- A pool before its first action. -/
def start (workers : Nat) (components : List Component) : Pool where
  workers := workers
  dispatcher := .dispatching components
  stream := .sized components.length

/-- The number of slots that are free. -/
def free (p : Pool) : Nat := p.workers - (p.tasks.filter Task.holdsSlot).length

/-- Whether every task is over. -/
def allOver (p : Pool) : Bool := p.tasks.all Task.isOver

/-- Whether the stream is closed: neither the dispatcher nor a task is left. -/
def isClosed (p : Pool) : Bool := (p.dispatcher == .ended || p.dispatcher == .dead) && p.allOver

/-- What the dispatcher and the tasks do. -/
inductive Action
  /-- The dispatcher dies of too many workers. -/
  | collapse
  | dispatch
  /-- The dispatcher notices the signal. -/
  | heed
  /-- The dispatcher has reached the end of the list. -/
  | exhaust
  | close
  /-- A task calls the uninstaller, which will take until a certain time. -/
  | call (task due : Nat)
  | conclude (task : Nat) (v : Verdict)
  | report (task : Nat)
  | die (task : Nat)
deriving DecidableEq

/-- The pool with one task in another stage. -/
def setStage (p : Pool) (task : Nat) (s : Stage) : Pool :=
  { p with tasks := p.tasks.modify task fun t => { t with stage := s } }

/-- The state after an action, if the action is possible.  `fired` says whether
the signal has been fired. -/
def step (fired : Bool) (p : Pool) : Action → Option Pool
  | .collapse =>
      match p.dispatcher with
      | .dispatching _ =>
          if slotLimit < p.workers then some { p with dispatcher := .dead } else none
      | _ => none
  | .dispatch =>
      match p.dispatcher with
      | .dispatching (c :: rest) =>
          if p.workers ≤ slotLimit && !fired && 0 < p.free then
            some { p with
              dispatcher := .dispatching rest
              tasks := p.tasks ++ [{ component := c }] }
          else none
      | _ => none
  | .heed =>
      match p.dispatcher with
      | .dispatching (_ :: _) =>
          if p.workers ≤ slotLimit && fired then some { p with dispatcher := .draining } else none
      | _ => none
  | .exhaust =>
      match p.dispatcher with
      | .dispatching [] =>
          if p.workers ≤ slotLimit then some { p with dispatcher := .draining } else none
      | _ => none
  | .close =>
      match p.dispatcher with
      | .draining => if p.allOver then some { p with dispatcher := .ended } else none
      | _ => none
  | .call task due =>
      match (p.tasks[task]?).map Task.stage with
      | some .ready => some (p.setStage task (.calling due))
      | _ => none
  | .conclude task v =>
      match (p.tasks[task]?).map Task.stage with
      | some (.calling _) => some (p.setStage task (.returned v))
      | _ => none
  | .report task =>
      match p.tasks[task]? with
      | some ⟨c, .returned v⟩ =>
          if p.stream.isReady then
            some { p.setStage task (.reported v) with stream := p.stream.send (v.report c) }
          else none
      | _ => none
  | .die task =>
      match (p.tasks[task]?).map Task.stage with
      | some .ready => some (p.setStage task .dead)
      | some (.calling _) => some (p.setStage task .dead)
      | _ => none

/-- What an action shows of itself. -/
def events (u : Uninstaller) (fired : Bool) (p : Pool) : Action → List Event
  | .heed | .exhaust => if fired then [.note (.draining p.tasks.length)] else []
  | .call task _ =>
      match p.tasks[task]? with
      | some t => (u.startNotes t.component).map .note ++ [.removalStarted task t.component]
      | none => []
  | .conclude task v =>
      match p.tasks[task]? with
      | some t => .removalEnded task t.component v :: (u.endNotes t.component v).map .note
      | none => []
  | _ => []

/-- The usual choice of the dispatcher. -/
def dispatcherNext? (fired : Bool) (p : Pool) : Option Action :=
  match p.dispatcher with
  | .dispatching rest =>
      if slotLimit < p.workers then some .collapse
      else
        match rest with
        | [] => some .exhaust
        | _ :: _ => if fired then some .heed else if 0 < p.free then some .dispatch else none
  | .draining => if p.allOver then some .close else none
  | .ended => none
  | .dead => none

/-- The usual choice of a task. -/
def taskNext? (u : Uninstaller) (now : Nat) (p : Pool) (i : Nat) (t : Task) : Option Action :=
  match t.stage with
  | .ready => some (.call i (now + u.delay i t.component))
  | .calling due =>
      if due ≤ now then some (.conclude i (u.verdict i t.component)) else none
  | .returned _ => if p.stream.isReady then some (.report i) else none
  | .reported _ => none
  | .dead => none

/-- The usual choice of the first task that need not wait, tasks being numbered
from `i` on. -/
def tasksNext? (u : Uninstaller) (now : Nat) (p : Pool) (i : Nat) : List Task → Option Action
  | [] => none
  | t :: ts => (taskNext? u now p i t) <|> tasksNext? u now p (i + 1) ts

/-- The usual choice of the next action at the millisecond `now`, or nothing while
everybody has to wait. -/
def next? (u : Uninstaller) (now : Nat) (fired : Bool) (p : Pool) : Option Action :=
  dispatcherNext? fired p <|> tasksNext? u now p 0 p.tasks

/-- When the next call ends. -/
def alarm? (p : Pool) : Option Nat :=
  p.tasks.foldr (fun t a =>
    match t.stage with
    | .calling due => earlier? (some due) a
    | _ => a) none

/-- An upper bound on the actions of a task still to come. -/
def Task.moves (t : Task) : Nat :=
  match t.stage with
  | .ready => 3
  | .calling _ => 2
  | .returned _ => 1
  | .reported _ => 0
  | .dead => 0

/-- An upper bound on the actions still to come. -/
def moves (p : Pool) : Nat :=
  total Task.moves p.tasks +
    match p.dispatcher with
    | .dispatching rest => 4 * rest.length + 2
    | .draining => 1
    | .ended => 0
    | .dead => 0

end Pool

end Decommission
