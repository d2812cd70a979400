import Decommission.Number.Width
import Decommission.Time.Clock

/-!
# Retrying

A policy says how often an operation is attempted and how long to wait after
each failure.  With exponential backoff the wait doubles from failure to
failure, up to a factor of `2 ^ 32 - 1`, and no wait exceeds `maxDelay`.

`RetryPolicy.next?` is the decision after a failure: how long to wait before the
next attempt, or nothing if there is none.  `RetryPolicy.run` carries an
operation through all its attempts in virtual time.  Only the attempts still
allowed bound the recursion, so it ends for every operation.
-/

namespace Decommission

/-- How waits grow from failure to failure. -/
inductive Backoff
  /-- Every wait is the same. -/
  | fixed
  /-- Every wait is twice the one before. -/
  | exponential
deriving DecidableEq, Repr, Inhabited

/-- How often to attempt an operation, and how long to wait in between. -/
structure RetryPolicy where
  /-- Attempts in all, the first one included. -/
  attempts : Nat := 10
  /-- Attempts are counted in 32 bits. -/
  attempts_lt : attempts < range32 := by decide
  /-- The wait after the first failure. -/
  delay : Duration := .ofMillis 100
  /-- How waits grow. -/
  backoff : Backoff := .exponential
  /-- The longest wait, if there is a limit. -/
  maxDelay : Option Duration := none
deriving DecidableEq

/-- The policy that holds where none is given. -/
def RetryPolicy.standard : RetryPolicy := {}

instance : Inhabited RetryPolicy := ⟨.standard⟩

/-- The multiple of the first wait that follows a number of failures.  The first
failure counts as number one, and zero failures count as one. -/
def Backoff.factor : Backoff → (failed : Nat) → Nat
  | .fixed, _ => 1
  | .exponential, failed => if failed - 1 < 32 then Nat.pow 2 (failed - 1) else range32 - 1

namespace RetryPolicy

/-- The wait after a number of failures. -/
def delayAfter (p : RetryPolicy) (failed : Nat) : Duration :=
  let wait := p.delay.scale (p.backoff.factor failed)
  match p.maxDelay with
  | none => wait
  | some longest => min wait longest

/-- Whether another attempt is allowed after a number of failures. -/
def allows (p : RetryPolicy) (failed : Nat) : Bool := failed < p.attempts

/-- The wait before the next attempt, or nothing if that was the last one. -/
def next? (p : RetryPolicy) (failed : Nat) : Option Duration :=
  if p.allows failed then some (p.delayAfter failed) else none

end RetryPolicy

/-- One attempt of an operation: what it ends with, and the milliseconds it
takes. -/
structure Attempt (ε α : Type) where
  outcome : Except ε α
  takes : Nat := 0

/-- The account of a retried operation. -/
structure Attempts (ε α : Type) where
  outcome : Except ε α
  /-- Number and start of each attempt, in order. -/
  started : List (Nat × Nat)
  ended : Nat

namespace RetryPolicy

/-- Carry on after `failed` failures, at the millisecond `now`. -/
def runFrom {ε α : Type} (p : RetryPolicy) (op : Nat → Attempt ε α) (failed now : Nat) :
    Attempts ε α :=
  let attempt := op (failed + 1)
  let done := now + attempt.takes
  match attempt.outcome with
  | .ok value => ⟨.ok value, [(failed + 1, now)], done⟩
  | .error e =>
      if failed + 1 < p.attempts then
        let rest := p.runFrom op (failed + 1) (tickAfter done (p.delayAfter (failed + 1)))
        { rest with started := (failed + 1, now) :: rest.started }
      else ⟨.error e, [(failed + 1, now)], done⟩
termination_by p.attempts - failed

/-- Attempt an operation, starting at millisecond zero.  The operation is told the
number of the attempt, from one on. -/
def run {ε α : Type} (p : RetryPolicy) (op : Nat → Attempt ε α) : Attempts ε α :=
  p.runFrom op 0 0

theorem next?_eq_some_iff {p : RetryPolicy} {failed : Nat} {wait : Duration} :
    p.next? failed = some wait ↔ failed < p.attempts ∧ wait = p.delayAfter failed := by
  unfold next? allows
  by_cases h : failed < p.attempts
  · simp [h, eq_comm]
  · simp [h]

example : (delayAfter standard 3).millis = 400 := by decide
example : Backoff.exponential.factor 33 = range32 - 1 := by decide

end RetryPolicy

end Decommission
