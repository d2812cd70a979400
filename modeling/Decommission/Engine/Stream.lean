import Decommission.Component

/-!
# Streams of reports

An engine sends reports, and one reader takes them off in the same order.  The
stream holds a bounded number of reports that have not been taken off.  A sender
has to wait while it is full.  Once the reader is gone, what is sent is lost.
-/

namespace Decommission

/-- A stream of reports. -/
structure Stream where
  capacity : Nat
  /-- The reports that were taken off, oldest first. -/
  taken : List Report := []
  /-- The reports that were not taken off yet, oldest first. -/
  waiting : List Report := []
  /-- Whether there is a reader. -/
  listening : Bool := true
deriving DecidableEq

/-- What a reader finds at the front of a stream. -/
inductive Head
  | nothing
  | report (r : Report)
  | closed
deriving DecidableEq

namespace Stream

/-- A stream that is big enough for a number of reports. -/
def sized (reports : Nat) : Stream := { capacity := max 1 reports }

/-- All reports that were sent while there was a reader. -/
def sent (s : Stream) : List Report := s.taken ++ s.waiting

/-- Whether a sender need not wait. -/
def isReady (s : Stream) : Bool := !s.listening || s.waiting.length < s.capacity

/-- Send a report. -/
def send (s : Stream) (r : Report) : Stream :=
  if s.listening then { s with waiting := s.waiting ++ [r] } else s

/-- Take the front report off. -/
def receive (s : Stream) : Stream :=
  match s.waiting with
  | r :: rest => { s with taken := s.taken ++ [r], waiting := rest }
  | [] => s

/-- The reader goes. -/
def hangUp (s : Stream) : Stream := { s with listening := false }

/-- What is at the front, given whether all senders are gone. -/
def head (s : Stream) (closed : Bool) : Head :=
  match s.waiting with
  | r :: _ => .report r
  | [] => if closed then .closed else .nothing

/-! ## What the operations do to the reports that were sent -/

theorem sent_send (s : Stream) (r : Report) :
    (s.send r).sent = if s.listening then s.sent ++ [r] else s.sent := by
  unfold send sent
  split
  · exact (List.append_assoc ..).symm
  · rfl

@[simp]
theorem sent_receive (s : Stream) : s.receive.sent = s.sent := by
  unfold receive sent
  cases h : s.waiting with
  | nil => rw [h]
  | cons r rest => exact List.append_assoc ..

@[simp]
theorem sent_hangUp (s : Stream) : s.hangUp.sent = s.sent := rfl

end Stream

end Decommission
