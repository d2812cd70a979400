import Decommission.Number.Total
import Decommission.Retry

/-!
# What becomes of an operation that is retried

`RetryPolicy.lastAttempt` is the number of the attempt that decides: the first one that
succeeds, or the last one that the policy allows.  `RetryPolicy.Retried` tells the rest.
The attempts before that one are made in order, the wait after a failure lies before the
next attempt and nowhere else, and what the last attempt ends with is the outcome.

`RetryPolicy.loop` is the same as a machine does it, round by round, without knowing how many
rounds there will be and with a counter of 32 bits.  It is over after as many rounds as there
are attempts.  By then the counter has not overflowed, even if the policy allows as many
attempts as it can count.
-/

namespace Decommission

variable {ε α : Type}

/-- Whether an attempt succeeds. -/
def Attempt.succeeds (a : Attempt ε α) : Bool := a.outcome.isOk

/-- The number after, if 32 bits hold it. -/
def next32? (n : UInt32) : Option UInt32 := if n.toNat + 1 < range32 then some (n + 1) else none

theorem exists_next32? {n : UInt32} (h : n.toNat + 1 < range32) :
    ∃ m, next32? n = some m ∧ m.toNat = n.toNat + 1 :=
  ⟨n + 1, if_pos h, (UInt32.toNat_add ..).trans (Nat.mod_eq_of_lt h)⟩

namespace RetryPolicy

variable (p : RetryPolicy) (op : Nat → Attempt ε α) (start : Nat)

/-- The number of attempts if all of them fail.  One is always made. -/
def attemptsAtMost : Nat := max 1 p.attempts

/-- The number of the attempt that decides: the first that succeeds, if the policy allows
so many, and otherwise the last. -/
def lastAttempt : Nat :=
  ((List.range' 1 p.attemptsAtMost).find? fun n => (op n).succeeds).getD p.attemptsAtMost

/-- When an attempt starts: the wait after the attempt before it has passed since that one
ended. -/
def startOf : (number : Nat) → Nat
  | 0 => start
  | 1 => start
  | n + 2 => tickAfter (startOf (n + 1) + (op (n + 1)).takes) (p.delayAfter (n + 1))

/-- The nanoseconds of all waits before an attempt. -/
def waited (number : Nat) : Nat :=
  total (fun n => (p.delayAfter n).nanos) (List.range' 1 (number - 1))

/-- Attempt an operation until it succeeds or the policy stops, with failures counted in 32
bits.  There is no account if that is not over after a number of rounds, or if the counter
overflows. -/
def loop : (rounds : Nat) → (failed : UInt32) → (now : Nat) → Option (Attempts ε α)
  | 0, _, _ => none
  | rounds + 1, failed, now => do
      let number ← next32? failed
      let attempt := op number.toNat
      let done := now + attempt.takes
      match attempt.outcome with
      | .ok value => some ⟨.ok value, [(number.toNat, now)], done⟩
      | .error e =>
          if p.allows number.toNat then do
            let rest ← loop rounds number (tickAfter done (p.delayAfter number.toNat))
            some { rest with started := (number.toNat, now) :: rest.started }
          else some ⟨.error e, [(number.toNat, now)], done⟩

/-- What an account tells about an operation that was retried from a millisecond on. -/
structure Retried (a : Attempts ε α) : Prop where
  /-- Attempts are made in order up to the one that decides, each after its wait. -/
  started : a.started =
    (List.range' 1 (p.lastAttempt op)).map fun n => (n, p.startOf op start n)
  outcome : a.outcome = (op (p.lastAttempt op)).outcome
  /-- After the last attempt there is no wait. -/
  ended : a.ended = p.startOf op start (p.lastAttempt op) + (op (p.lastAttempt op)).takes
  /-- The loop is over after that many rounds, and its counter does not overflow. -/
  looped : p.loop op (p.lastAttempt op) 0 start = some a
  /-- Waits of whole milliseconds add up exactly if nothing else takes time. -/
  exact : (∀ n, (op n).takes = 0) →
    (∀ n, 0 < n → n < p.lastAttempt op → nanosPerMilli ∣ (p.delayAfter n).nanos) →
    start * nanosPerMilli + p.waited (p.lastAttempt op) < clockRange →
    a.ended * nanosPerMilli = start * nanosPerMilli + p.waited (p.lastAttempt op)

/-! ## The attempt that decides -/

variable {p op start}

theorem lastAttempt_pos : 0 < p.lastAttempt op := by
  rw [lastAttempt]
  cases hf : (List.range' 1 p.attemptsAtMost).find? fun n => (op n).succeeds with
  | none =>
      show 0 < max 1 p.attempts
      omega
  | some n =>
      have hn : n ∈ List.range' 1 p.attemptsAtMost := List.mem_of_find?_eq_some hf
      exact (List.mem_range'_1.mp hn).1

theorem lastAttempt_le : p.lastAttempt op ≤ p.attemptsAtMost := by
  rw [lastAttempt]
  cases hf : (List.range' 1 p.attemptsAtMost).find? fun n => (op n).succeeds with
  | none => exact Nat.le_refl _
  | some n =>
      have hn := List.mem_range'_1.mp (List.mem_of_find?_eq_some hf)
      show n ≤ _
      omega

/-- Before the attempt that decides all fail. -/
theorem fails_of_lt_lastAttempt {n : Nat} (hpos : 0 < n) (h : n < p.lastAttempt op) :
    (op n).succeeds = false := by
  have hmem : n ∈ List.range' 1 p.attemptsAtMost := by
    have hle : p.lastAttempt op ≤ p.attemptsAtMost := lastAttempt_le
    exact List.mem_range'_1.mpr ⟨hpos, by omega⟩
  rw [lastAttempt] at h
  cases hf : (List.range' 1 p.attemptsAtMost).find? fun n => (op n).succeeds with
  | none => exact Bool.eq_false_iff.mpr (List.find?_eq_none.mp hf n hmem)
  | some m =>
      rw [hf] at h
      obtain ⟨_, as, bs, hsplit, hbefore⟩ := List.find?_eq_some_iff_append.mp hf
      -- The numbers are in order, so those below the one found stand before it.
      have hsorted : (as ++ m :: bs).Pairwise (· < ·) := hsplit ▸ List.pairwise_lt_range'
      rw [hsplit] at hmem
      rcases List.mem_append.mp hmem with has | hbs
      · exact Bool.eq_false_iff.mpr fun hs => by simpa [hs] using hbefore n has
      · rcases List.mem_cons.mp hbs with rfl | hbs
        · exact absurd h (Nat.lt_irrefl _)
        · have hlt := (List.pairwise_cons.mp (List.pairwise_append.mp hsorted).2.1).1 n hbs
          exact absurd h (Nat.not_lt_of_lt hlt)

/-- The attempt that decides succeeds, unless it is the last that the policy allows. -/
theorem lastAttempt_succeeds (h : p.lastAttempt op < p.attemptsAtMost) :
    (op (p.lastAttempt op)).succeeds := by
  rw [lastAttempt] at h ⊢
  cases hf : (List.range' 1 p.attemptsAtMost).find? fun n => (op n).succeeds with
  | none =>
      rw [hf] at h
      exact absurd h (Nat.lt_irrefl _)
  | some n => exact List.find?_some (p := fun n => (op n).succeeds) hf

theorem lastAttempt_lt_range32 : p.lastAttempt op < range32 := by
  have hle : p.lastAttempt op ≤ max 1 p.attempts := lastAttempt_le
  have hlt := p.attempts_lt
  rw [range32] at hlt ⊢
  omega

/-! ## Round by round -/

/-- A round that is not the last one: the attempt fails, and another one is allowed. -/
theorem outcome_of_lt_lastAttempt {n : Nat} (hpos : 1 ≤ n) (h : n < p.lastAttempt op) :
    (∃ e, (op n).outcome = .error e) ∧ n < p.attempts := by
  have hle : p.lastAttempt op ≤ max 1 p.attempts := lastAttempt_le
  have hfails : (op n).outcome.isOk = false := fails_of_lt_lastAttempt hpos h
  refine ⟨?_, by omega⟩
  cases ho : (op n).outcome with
  | error e => exact ⟨e, rfl⟩
  | ok value =>
      rw [ho] at hfails
      cases hfails

/-- In the last round a failure is final. -/
theorem not_lt_attempts_of_error {e : ε} (h : (op (p.lastAttempt op)).outcome = .error e) :
    ¬ p.lastAttempt op < p.attempts := by
  intro hlt
  have hmost : p.lastAttempt op < max 1 p.attempts := by omega
  have hok : (op (p.lastAttempt op)).outcome.isOk := lastAttempt_succeeds hmost
  rw [h] at hok
  cases hok

theorem runFrom_of_lt {failed now : Nat} (h : failed + 1 < p.lastAttempt op) :
    p.runFrom op failed now =
      let rest := p.runFrom op (failed + 1)
        (tickAfter (now + (op (failed + 1)).takes) (p.delayAfter (failed + 1)))
      { rest with started := (failed + 1, now) :: rest.started } := by
  obtain ⟨⟨e, he⟩, hlt⟩ := outcome_of_lt_lastAttempt (Nat.succ_pos failed) h
  rw [runFrom]
  simp only [he, if_pos hlt]

theorem runFrom_of_eq {failed now : Nat} (h : failed + 1 = p.lastAttempt op) :
    p.runFrom op failed now =
      ⟨(op (failed + 1)).outcome, [(failed + 1, now)], now + (op (failed + 1)).takes⟩ := by
  rw [runFrom]
  cases ho : (op (failed + 1)).outcome with
  | ok value => rfl
  | error e =>
      rw [h] at ho
      have hlast := not_lt_attempts_of_error ho
      rw [← h] at hlast
      simp only [if_neg hlast]

variable (start) in
/-- What comes of the attempts from a certain one on. -/
theorem runFrom_eq {failed left : Nat} (h : failed + (left + 1) = p.lastAttempt op) :
    p.runFrom op failed (p.startOf op start (failed + 1)) =
      ⟨(op (p.lastAttempt op)).outcome,
        (List.range' (failed + 1) (left + 1)).map fun n => (n, p.startOf op start n),
        p.startOf op start (p.lastAttempt op) + (op (p.lastAttempt op)).takes⟩ := by
  induction left generalizing failed with
  | zero =>
      rw [runFrom_of_eq h, ← h]
      rfl
  | succ left ih =>
      rw [runFrom_of_lt (by omega)]
      have hleft : failed + 1 + (left + 1) = p.lastAttempt op := by omega
      have hrest := ih hleft
      rw [startOf] at hrest
      rw [hrest, List.range'_succ (s := failed + 1), List.map_cons]

/-- The loop comes to the same account in as many rounds as there are attempts left. -/
theorem loop_eq {failed : UInt32} {left now : Nat}
    (h : failed.toNat + (left + 1) = p.lastAttempt op) :
    p.loop op (left + 1) failed now = some (p.runFrom op failed.toNat now) := by
  have hlast : p.lastAttempt op < range32 := lastAttempt_lt_range32
  obtain ⟨number, hn, heq⟩ := exists_next32? (n := failed) (by omega)
  induction left generalizing failed number now with
  | zero =>
      rw [runFrom_of_eq h, loop, hn, Option.bind_eq_bind, Option.bind_some, heq]
      dsimp only
      cases ho : (op (failed.toNat + 1)).outcome with
      | ok value => rfl
      | error e =>
          have hlast : ¬ p.allows (failed.toNat + 1) := fun hyes =>
            not_lt_attempts_of_error (h ▸ ho) (h ▸ of_decide_eq_true hyes)
          exact if_neg hlast
  | succ left ih =>
      have hlt : failed.toNat + 1 < p.lastAttempt op := by omega
      obtain ⟨⟨e, he⟩, hallows⟩ := outcome_of_lt_lastAttempt (Nat.le_add_left 1 _) hlt
      obtain ⟨next, hnext, hnextEq⟩ := exists_next32? (n := number) (by omega)
      rw [runFrom_of_lt hlt, loop, hn, Option.bind_eq_bind, Option.bind_some, heq]
      dsimp only
      rw [he]
      refine (if_pos (decide_eq_true hallows)).trans ?_
      rw [ih (by omega) next hnext hnextEq, heq]
      rfl

/-! ## When attempts start -/

theorem waited_succ (p : RetryPolicy) (n : Nat) :
    p.waited (n + 2) = p.waited (n + 1) + (p.delayAfter (n + 1)).nanos := by
  have hlast : List.range' 1 (n + 1) = List.range' 1 n ++ [n + 1] := by
    rw [List.range'_concat, Nat.one_mul, Nat.add_comm]
  show total _ (List.range' 1 (n + 1)) = total _ (List.range' 1 n) + _
  rw [hlast, total_append]
  rfl

theorem waited_mono (p : RetryPolicy) {k n : Nat} (h : k ≤ n) : p.waited k ≤ p.waited n := by
  induction h with
  | refl => exact Nat.le_refl _
  | @step n _ ih =>
      refine Nat.le_trans ih ?_
      cases n with
      | zero => exact Nat.le_refl _
      | succ n =>
          rw [waited_succ]
          exact Nat.le_add_right ..

/-- Whole milliseconds add up to the start of each attempt. -/
theorem startOf_mul (htakes : ∀ n, (op n).takes = 0) {k : Nat}
    (hms : ∀ n, 0 < n → n < k → nanosPerMilli ∣ (p.delayAfter n).nanos)
    (hrange : start * nanosPerMilli + p.waited k < clockRange) :
    p.startOf op start k * nanosPerMilli = start * nanosPerMilli + p.waited k := by
  induction k with
  | zero => exact (Nat.add_zero _).symm
  | succ n ih =>
      cases n with
      | zero => exact (Nat.add_zero _).symm
      | succ n =>
          rw [waited_succ] at hrange ⊢
          obtain ⟨ms, hwait⟩ := hms (n + 1) (Nat.succ_pos n) (Nat.lt_succ_self _)
          rw [Nat.mul_comm] at hwait
          have hbefore : p.startOf op start (n + 1) * nanosPerMilli =
              start * nanosPerMilli + p.waited (n + 1) :=
            ih (fun i hi hlt => hms i hi (by omega)) (by omega)
          rw [startOf, htakes, Nat.add_zero, tickAfter_of_millis hwait (by omega), Nat.add_mul,
            hbefore, hwait, Nat.add_assoc]

/-- An operation is retried until it succeeds or the policy allows no more attempts, from
whatever millisecond on. -/
theorem retried_runFrom (p : RetryPolicy) (op : Nat → Attempt ε α) (start : Nat) :
    p.Retried op start (p.runFrom op 0 start) := by
  have hpos : 0 < p.lastAttempt op := lastAttempt_pos
  obtain ⟨left, hleft⟩ : ∃ left, 0 + (left + 1) = p.lastAttempt op :=
    ⟨p.lastAttempt op - 1, by omega⟩
  have hrun := runFrom_eq start hleft
  rw [Nat.zero_add] at hrun hleft
  have hloop : p.loop op (left + 1) 0 start = some (p.runFrom op 0 start) :=
    loop_eq ((Nat.zero_add _).trans hleft)
  rw [hleft] at hrun hloop
  have hended : (p.runFrom op 0 start).ended =
      p.startOf op start (p.lastAttempt op) + (op (p.lastAttempt op)).takes :=
    congrArg Attempts.ended hrun
  refine ⟨congrArg Attempts.started hrun, congrArg Attempts.outcome hrun, hended, hloop, ?_⟩
  intro htakes hms hrange
  rw [hended, htakes, Nat.add_zero]
  exact startOf_mul htakes hms hrange

end RetryPolicy

end Decommission
