import Decommission.Proofs.Retry.Words

/-!
# How long to wait

A wait is the first wait, multiplied, and cut off where a limit or the longest duration
says.  `RetryPolicy.Exact` says so in numbers of nanoseconds.  The multiple doubles from
failure to failure up to `2 ^ 32 - 1`, and all of it happens within the words a machine
has.

Hence waits never grow beyond the limit, and they grow with the number of failures, with
the first wait and with the limit.
-/

namespace Decommission

/-- The multiple of the first wait that comes after a number of failures.  No failure
counts as one. -/
def Backoff.multiple : Backoff → (failed : Nat) → Nat
  | .fixed, _ => 1
  | .exponential, failed => min (Nat.pow 2 (max failed 1 - 1)) (range32 - 1)

theorem Backoff.factor_eq_multiple (b : Backoff) (failed : Nat) :
    b.factor failed = b.multiple failed := by
  cases b with
  | fixed => rfl
  | exponential =>
      have hfirst : max failed 1 - 1 = failed - 1 := by omega
      rw [factor, multiple, hfirst]
      by_cases hplaces : failed - 1 < 32
      · have hlt : Nat.pow 2 (failed - 1) < range32 := Nat.pow_lt_pow_right (by decide) hplaces
        rw [if_pos hplaces, Nat.min_eq_left (Nat.le_sub_one_of_lt hlt)]
      · have hle : range32 ≤ Nat.pow 2 (failed - 1) :=
          Nat.pow_le_pow_right Nat.two_pos (Nat.le_of_not_lt hplaces)
        rw [if_neg hplaces, Nat.min_eq_right (Nat.le_trans (Nat.sub_le ..) hle)]

/-- The multiples grow. -/
theorem Backoff.multiple_mono (b : Backoff) {failed failed' : Nat} (h : failed ≤ failed') :
    b.multiple failed ≤ b.multiple failed' := by
  cases b with
  | fixed => exact Nat.le_refl 1
  | exponential =>
      have hpow : Nat.pow 2 (max failed 1 - 1) ≤ Nat.pow 2 (max failed' 1 - 1) :=
        Nat.pow_le_pow_right (by decide) (by omega)
      rw [multiple, multiple]
      omega

namespace RetryPolicy

/-- A number of nanoseconds, cut off at a limit if there is one. -/
def cutOff : Option Duration → Nat → Nat
  | none, n => n
  | some longest, n => min longest.nanos n

/-- The second limit allows what the first one does. -/
def Within : Option Duration → Option Duration → Prop
  | _, none => True
  | none, some _ => False
  | some a, some b => a ≤ b

theorem cutOff_mono {a b : Option Duration} (h : Within a b) {m n : Nat} (hmn : m ≤ n) :
    cutOff a m ≤ cutOff b n := by
  cases b with
  | none =>
      cases a with
      | none => exact hmn
      | some a => exact Nat.le_trans (Nat.min_le_right ..) hmn
  | some b =>
      cases a with
      | none => cases h
      | some a =>
          have hab : a.nanos ≤ b.nanos := h
          rw [cutOff, cutOff]
          omega

/-- The waits of a policy, in nanoseconds and in words. -/
structure Exact (p : RetryPolicy) : Prop where
  /-- The first wait is multiplied exactly and then cut off. -/
  nanos : ∀ failed, (p.delayAfter failed).nanos =
    cutOff p.maxDelay (min longestNanos (p.delay.nanos * p.backoff.multiple failed))
  /-- A wait splits into seconds of 64 bits and less than a second of nanoseconds. -/
  parts : ∀ failed, (p.delayAfter failed).secs < range64 ∧
    (p.delayAfter failed).subsecNanos < nanosPerSecond ∧
    (p.delayAfter failed).secs * nanosPerSecond + (p.delayAfter failed).subsecNanos =
      (p.delayAfter failed).nanos
  /-- Computed in words of 32 and 64 bits, with every overflow caught, it is the same. -/
  words : ∀ failed : UInt32, (p.delayAfter failed.toNat).words = p.waitWords failed
  limited : ∀ failed longest, p.maxDelay = some longest → p.delayAfter failed ≤ longest
  /-- More failures, a longer first wait or a higher limit never make a wait shorter. -/
  mono : ∀ (q : RetryPolicy) failed failed', p.backoff = q.backoff → p.delay ≤ q.delay →
    Within p.maxDelay q.maxDelay → failed ≤ failed' → p.delayAfter failed ≤ q.delayAfter failed'

theorem nanos_delayAfter (p : RetryPolicy) (failed : Nat) :
    (p.delayAfter failed).nanos =
      cutOff p.maxDelay (min longestNanos (p.delay.nanos * p.backoff.multiple failed)) := by
  rw [delayAfter, ← Backoff.factor_eq_multiple, Nat.min_comm longestNanos]
  cases p.maxDelay with
  | none => exact Duration.nanos_scale ..
  | some longest => exact (Duration.nanos_min ..).trans (Nat.min_comm ..)

/-- Waits are exact, saturate where a limit or the longest duration says, and grow. -/
theorem exact_delayAfter (p : RetryPolicy) : p.Exact where
  nanos := p.nanos_delayAfter
  parts failed := ⟨(p.delayAfter failed).secs_lt, (p.delayAfter failed).subsecNanos_lt,
    (p.delayAfter failed).secs_mul_add_subsecNanos⟩
  words := p.words_delayAfter
  limited failed longest h := by
    rw [Duration.le_iff, nanos_delayAfter, h]
    exact Nat.min_le_left ..
  mono q failed failed' hb hd hlimit hf := by
    have hmul : p.delay.nanos * p.backoff.multiple failed ≤
        q.delay.nanos * q.backoff.multiple failed' :=
      Nat.mul_le_mul hd (hb ▸ p.backoff.multiple_mono hf)
    rw [Duration.le_iff, nanos_delayAfter, nanos_delayAfter]
    exact cutOff_mono hlimit (by omega)

end RetryPolicy

end Decommission
