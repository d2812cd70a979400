import Decommission.Retry

/-!
# Waits in words

A machine keeps a duration in two words: whole seconds in 64 bits, and the nanoseconds
beyond them in 32.  Counters have 32 bits.  Here the wait after a failure is computed in
such words, with every place checked at which one could overflow: the shift that doubles
the factor, the seconds when they are multiplied, and the carry from the nanoseconds.

The words that come out are those of the wait (`RetryPolicy.words_delayAfter`).  So numbers
of nanoseconds say all there is to say about waits.
-/

namespace Decommission

/-! ## Checked words -/

/-- The product, if 64 bits hold it. -/
def mulChecked (a b : UInt64) : Option UInt64 :=
  if a.toNat * b.toNat < range64 then some (a * b) else none

/-- The sum, if 64 bits hold it. -/
def addChecked (a b : UInt64) : Option UInt64 :=
  if a.toNat + b.toNat < range64 then some (a + b) else none

/-- A one shifted to the left, if 32 bits have that many places. -/
def oneShifted (places : UInt32) : Option UInt32 :=
  if places < 32 then some (1 <<< places) else none

/-- The number before, or zero if there is none. -/
def before32 (n : UInt32) : UInt32 := if n = 0 then 0 else n - 1

theorem toNat_before32 (n : UInt32) : (before32 n).toNat = n.toNat - 1 := by
  rw [before32]
  split
  · rename_i h
    rw [h]
    rfl
  · rename_i h
    have hpos : 1 ≤ n.toNat := Nat.one_le_iff_ne_zero.mpr fun hn => h (UInt32.toNat_inj.mp hn)
    exact UInt32.toNat_sub_of_le n 1 (UInt32.le_iff_toNat_le.mpr hpos)

/-- The shift gives the power of two, as long as it has places. -/
theorem toNat_oneShifted (places : UInt32) :
    ((oneShifted places).getD (UInt32.ofNat (range32 - 1))).toNat =
      if places.toNat < 32 then Nat.pow 2 places.toNat else range32 - 1 := by
  rw [oneShifted]
  by_cases h : places.toNat < 32
  · rw [if_pos h, if_pos (UInt32.lt_iff_toNat_lt.mpr h), Option.getD_some, UInt32.toNat_shiftLeft,
      Nat.mod_eq_of_lt h, UInt32.toNat_one, Nat.one_shiftLeft, Nat.mod_eq_of_lt]
    · rfl
    · exact Nat.pow_lt_pow_right (by decide) h
  · rw [if_neg h, if_neg (fun hlt => h (UInt32.lt_iff_toNat_lt.mp hlt))]
    rfl

/-! ## Durations -/

namespace Duration

/-- A duration in words. -/
structure Words where
  secs : UInt64
  /-- Nanoseconds beyond the whole seconds. -/
  nanos : UInt32
deriving DecidableEq

/-- The words of a duration. -/
def words (d : Duration) : Words := ⟨.ofNat d.secs, .ofNat d.subsecNanos⟩

namespace Words

/-- A multiple, if the seconds do not overflow. -/
def mul? (w : Words) (factor : UInt32) : Option Words := do
  -- Words of 64 bits hold the product of two numbers of 32 bits.
  let product := w.nanos.toUInt64 * factor.toUInt64
  let secs ← mulChecked w.secs factor.toUInt64
  let secs ← addChecked secs (product / 1000000000)
  some ⟨secs, (product % 1000000000).toUInt32⟩

/-- There is a multiple if its seconds fit into 64 bits, the carry included. -/
theorem mul?_eq (w : Words) (k : UInt32) {product : Nat}
    (hproduct : (w.nanos.toUInt64 * k.toUInt64).toNat = product) :
    w.mul? k =
      if w.secs.toNat * k.toNat + product / nanosPerSecond < range64 then
        some ⟨.ofNat (w.secs.toNat * k.toNat + product / nanosPerSecond),
          .ofNat (product % nanosPerSecond)⟩
      else none := by
  rw [mul?]
  generalize w.nanos.toUInt64 * k.toUInt64 = word at hproduct ⊢
  have hcarry : (word / 1000000000).toNat = product / nanosPerSecond :=
    (UInt64.toNat_div ..).trans (congrArg (· / nanosPerSecond) hproduct)
  have hleft : (word % 1000000000).toNat = product % nanosPerSecond :=
    (UInt64.toNat_mod ..).trans (congrArg (· % nanosPerSecond) hproduct)
  rw [mulChecked, UInt32.toNat_toUInt64]
  by_cases hsecs : w.secs.toNat * k.toNat < range64
  · have hmul : (w.secs * k.toUInt64).toNat = w.secs.toNat * k.toNat :=
      (UInt64.toNat_mul ..).trans (Nat.mod_eq_of_lt hsecs)
    rw [if_pos hsecs, Option.bind_eq_bind, Option.bind_some, addChecked, hmul, hcarry]
    by_cases hsum : w.secs.toNat * k.toNat + product / nanosPerSecond < range64
    · rw [if_pos hsum, if_pos hsum, ← hcarry, ← hmul, ← hleft, UInt64.ofNat_add,
        UInt64.ofNat_toNat, UInt64.ofNat_toNat]
      rfl
    · rw [if_neg hsum, if_neg hsum]
      rfl
  · rw [if_neg hsecs, if_neg fun hlt => hsecs (Nat.lt_of_le_of_lt (Nat.le_add_right ..) hlt)]
    rfl

/-- A multiple, or the longest duration if the seconds overflow. -/
def scale (w : Words) (factor : UInt32) : Words := (w.mul? factor).getD longest.words

/-- The shorter one: seconds decide, then nanoseconds. -/
def shorter (v w : Words) : Words :=
  if v.secs < w.secs ∨ v.secs = w.secs ∧ v.nanos ≤ w.nanos then v else w

end Words

theorem secs_lt (d : Duration) : d.secs < range64 := by
  have h := d.nanos_le
  rw [longestNanos] at h
  rw [secs, nanosPerSecond, range64]
  omega

theorem toNat_secs_words (d : Duration) : d.words.secs.toNat = d.secs :=
  UInt64.toNat_ofNat_of_lt' d.secs_lt

theorem toNat_nanos_words (d : Duration) : d.words.nanos.toNat = d.subsecNanos :=
  UInt32.toNat_ofNat_of_lt' (Nat.lt_trans d.subsecNanos_lt (by decide))

/-- How a multiple splits into seconds and nanoseconds. -/
theorem nanos_mul_eq (d : Duration) (k : Nat) :
    d.nanos * k = (d.secs * k + d.subsecNanos * k / nanosPerSecond) * nanosPerSecond +
      d.subsecNanos * k % nanosPerSecond := by
  have hsplit := Nat.div_add_mod (d.subsecNanos * k) nanosPerSecond
  calc d.nanos * k = (d.secs * nanosPerSecond + d.subsecNanos) * k := by
        rw [d.secs_mul_add_subsecNanos]
    _ = d.secs * k * nanosPerSecond + d.subsecNanos * k := by
        rw [Nat.add_mul, Nat.mul_right_comm]
    _ = _ := by
        rw [Nat.add_mul, Nat.add_assoc, Nat.mul_comm (_ / _) nanosPerSecond, hsplit]

/-- The product of the nanoseconds fits into 64 bits. -/
theorem toNat_nanos_mul (d : Duration) (k : UInt32) :
    (d.words.nanos.toUInt64 * k.toUInt64).toNat = d.subsecNanos * k.toNat := by
  have hn : d.subsecNanos < 2 ^ 32 := Nat.lt_trans d.subsecNanos_lt (by decide)
  have hlt : d.subsecNanos * k.toNat < 2 ^ 32 * 2 ^ 32 :=
    Nat.mul_lt_mul'' hn k.toNat_lt
  rw [UInt64.toNat_mul, UInt32.toNat_toUInt64, UInt32.toNat_toUInt64, toNat_nanos_words]
  exact Nat.mod_eq_of_lt hlt

/-- Multiplying words gives the words of the multiple. -/
theorem words_scale (d : Duration) (k : UInt32) :
    (d.scale k.toNat).words = d.words.scale k := by
  have hsplit := d.nanos_mul_eq k.toNat
  have hnanos := nanos_scale d k.toNat
  rw [Words.scale, Words.mul?_eq d.words k (d.toNat_nanos_mul k), toNat_secs_words]
  rw [nanosPerSecond] at hsplit ⊢
  rw [longestNanos] at hnanos
  have hleft : d.subsecNanos * k.toNat % 1000000000 < 1000000000 := Nat.mod_lt _ (by decide)
  by_cases hfits : d.secs * k.toNat + d.subsecNanos * k.toNat / 1000000000 < range64
  · rw [if_pos hfits, Option.getD_some, words, Duration.secs, Duration.subsecNanos]
    rw [range64] at hfits
    have hexact : (d.scale k.toNat).nanos = d.nanos * k.toNat := by omega
    have hsecs : (d.secs * k.toNat + d.subsecNanos * k.toNat / 1000000000) =
        d.nanos * k.toNat / nanosPerSecond := by
      rw [nanosPerSecond]
      omega
    rw [hexact, hsecs, hsplit, nanosPerSecond, Nat.mul_add_mod_of_lt hleft]
  · rw [if_neg hfits, Option.getD_none]
    rw [range64] at hfits
    refine congrArg words (ext ?_)
    show _ = longestNanos
    rw [longestNanos]
    omega

theorem words_le_iff (d e : Duration) :
    d.words.secs < e.words.secs ∨ d.words.secs = e.words.secs ∧ d.words.nanos ≤ e.words.nanos ↔
      d ≤ e := by
  have hd := d.secs_mul_add_subsecNanos
  have he := e.secs_mul_add_subsecNanos
  have hdn := d.subsecNanos_lt
  have hen := e.subsecNanos_lt
  rw [UInt64.lt_iff_toNat_lt, ← UInt64.toNat_inj, UInt32.le_iff_toNat_le, toNat_secs_words,
    toNat_secs_words, toNat_nanos_words, toNat_nanos_words, le_iff]
  rw [nanosPerSecond] at hd he hdn hen
  omega

/-- Words tell which of two durations is the shorter one. -/
theorem words_min (d e : Duration) : (min d e).words = d.words.shorter e.words := by
  show (if d ≤ e then d else e).words = _
  rw [Words.shorter]
  by_cases h : d ≤ e
  · rw [if_pos h, if_pos ((words_le_iff d e).mpr h)]
  · rw [if_neg h, if_neg (mt (words_le_iff d e).mp h)]

end Duration

/-! ## Waits -/

namespace RetryPolicy

/-- The factor after a number of failures, or the greatest there is if the shift has no
place for it. -/
def factorWord (failed : UInt32) : UInt32 :=
  (oneShifted (before32 failed)).getD (.ofNat (range32 - 1))

/-- The words of the wait after a number of failures. -/
def waitWords (p : RetryPolicy) (failed : UInt32) : Duration.Words :=
  let wait := match p.backoff with
    | .fixed => p.delay.words
    | .exponential => p.delay.words.scale (factorWord failed)
  match p.maxDelay with
  | none => wait
  | some longest => wait.shorter longest.words

theorem toNat_factorWord (failed : UInt32) :
    (factorWord failed).toNat = Backoff.exponential.factor failed.toNat := by
  rw [factorWord, toNat_oneShifted, toNat_before32]
  rfl

/-- Nothing overflows unnoticed in the words of a wait. -/
theorem words_delayAfter (p : RetryPolicy) (failed : UInt32) :
    (p.delayAfter failed.toNat).words = p.waitWords failed := by
  have hwait : (p.delay.scale (p.backoff.factor failed.toNat)).words =
      match p.backoff with
      | .fixed => p.delay.words
      | .exponential => p.delay.words.scale (factorWord failed) := by
    cases p.backoff with
    | fixed =>
        refine congrArg Duration.words (Duration.ext ?_)
        rw [Duration.nanos_scale, Backoff.factor, Nat.mul_one, Nat.min_eq_left p.delay.nanos_le]
    | exponential => rw [← toNat_factorWord, Duration.words_scale]
  rw [delayAfter, waitWords]
  cases p.maxDelay with
  | none => exact hwait
  | some longest => exact (Duration.words_min ..).trans (congrArg (·.shorter longest.words) hwait)

end RetryPolicy

end Decommission
