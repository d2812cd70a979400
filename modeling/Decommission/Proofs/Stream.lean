import Decommission.Engine.Stream

/-!
# Streams and their readers

What a reader takes off a stream, in terms of what it finds in front.
-/

namespace Decommission

namespace Stream

variable {s : Stream} {closed : Bool}

/-- A report in front is the oldest one that waits. -/
theorem head_eq_report_iff {r : Report} :
    s.head closed = .report r ↔ ∃ rest, s.waiting = r :: rest := by
  rw [head]
  cases hw : s.waiting with
  | nil => cases closed with
    | true => simp
    | false => simp
  | cons x xs => simp

/-- The end of a stream is in front once nothing waits and no sender is left. -/
theorem head_eq_closed_iff : s.head closed = .closed ↔ s.waiting = [] ∧ closed = true := by
  rw [head]
  cases hw : s.waiting with
  | nil => cases closed with
    | true => simp
    | false => simp
  | cons x xs => simp

/-- Nothing is in front while nothing waits and there are senders. -/
theorem head_eq_nothing_iff : s.head closed = .nothing ↔ s.waiting = [] ∧ closed = false := by
  rw [head]
  cases hw : s.waiting with
  | nil => cases closed with
    | true => simp
    | false => simp
  | cons x xs => simp

/-- The report in front is the next one to be taken. -/
theorem taken_receive {r : Report} (h : s.head closed = .report r) :
    s.receive.taken = s.taken ++ [r] := by
  obtain ⟨rest, hw⟩ := head_eq_report_iff.mp h
  rw [receive, hw]

@[simp]
theorem listening_receive (s : Stream) : s.receive.listening = s.listening := by
  rw [receive]
  split
  · rfl
  · rfl

@[simp]
theorem capacity_receive (s : Stream) : s.receive.capacity = s.capacity := by
  rw [receive]
  split
  · rfl
  · rfl

/-- Nothing waits that did not wait before. -/
theorem length_waiting_receive_le (s : Stream) : s.receive.waiting.length ≤ s.waiting.length := by
  rw [receive]
  split
  · rename_i hw
    rw [hw]
    exact Nat.le_succ _
  · exact Nat.le_refl _

@[simp]
theorem capacity_send (s : Stream) (r : Report) : (s.send r).capacity = s.capacity := by
  rw [send]
  split
  · rfl
  · rfl

@[simp]
theorem taken_send (s : Stream) (r : Report) : (s.send r).taken = s.taken := by
  rw [send]
  split
  · rfl
  · rfl

@[simp]
theorem listening_send (s : Stream) (r : Report) : (s.send r).listening = s.listening := by
  rw [send]
  split
  · rfl
  · rfl

end Stream

end Decommission
