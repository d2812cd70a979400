import Decommission.Engine.Pool
import Decommission.Engine.Script

/-!
# The work of an engine

Once an engine has started it is at work, and its reports arrive on a stream.
There are three kinds of work: a script that is played, a pool of workers, and
nothing at all, whose stream is closed from the beginning.

`Work.turn?` makes the next move, if there is one that need not wait.  A reader
takes reports off the stream by `Work.receive` and leaves by `Work.hangUp`.
-/

namespace Decommission

/-- What an engine that has started is doing. -/
inductive Work
  | nothing (stream : Stream)
  | script (p : Playback)
  /-- It removes components with a pool of workers. -/
  | pool (u : Uninstaller) (p : Pool)

namespace Work

/-- The stream of reports. -/
def stream : Work → Stream
  | nothing s => s
  | script p => p.stream
  | pool _ p => p.stream

/-- Whether no more reports are sent. -/
def isClosed : Work → Bool
  | nothing _ => true
  | script p => p.isClosed
  | pool _ p => p.isClosed

/-- What a reader finds at the front of the stream. -/
def head (w : Work) : Head := w.stream.head w.isClosed

/-- The same work with another stream. -/
def onStream (f : Stream → Stream) : Work → Work
  | nothing s => nothing (f s)
  | script p => script { p with stream := f p.stream }
  | pool u p => pool u { p with stream := f p.stream }

/-- Take the front report off the stream. -/
def receive : Work → Work := onStream Stream.receive

/-- Nobody reads the stream any longer. -/
def hangUp : Work → Work := onStream Stream.hangUp

/-- When the work has to be looked at again, whatever else happens. -/
def alarm? : Work → Option Nat
  | nothing _ => none
  | script p => p.alarm?
  | pool _ p => p.alarm?

/-- An upper bound on the moves still to come. -/
def moves : Work → Nat
  | nothing _ => 0
  | script p => p.moves
  | pool _ p => p.moves

/-- The next move at the millisecond `now`, and what it shows, unless the work has
to wait.  `fired` says whether the signal has been fired. -/
def turn? (now : Nat) (fired : Bool) : Work → Option (List Event × Work)
  | nothing _ => none
  | script p => do
      let action ← p.next? now fired
      let after ← p.step fired action
      some (Playback.events action, script after)
  | pool u p => do
      let action ← p.next? u now fired
      let after ← p.step fired action
      some (p.events u fired action, pool u after)

@[simp]
theorem stream_onStream (f : Stream → Stream) (w : Work) : (w.onStream f).stream = f w.stream := by
  cases w <;> rfl

end Work

end Decommission
