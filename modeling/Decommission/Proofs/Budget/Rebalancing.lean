import Decommission.Budget
import Decommission.Number.Total
import Decommission.Proofs.Retry.Words
import Mathlib.Data.List.Infix

/-!
# Budgets as time goes by

Time that goes by shortens both parts of a budget, and each part stops at zero.  Taking
off one span after the other is the same as taking off all of them together
(`Budget.after_eq`), so time that goes by acts on budgets.  The sum of the spans may be cut
off at the longest duration, since no part of a budget is longer.

`Budget.Rebalanced` says what is left: how many nanoseconds, that the two parts stay in
their order, and up to which point the order is strict and the distance is kept.  A machine
takes a span off in two words, and borrows a second where the nanoseconds do not suffice.
What it gets are the words of what is left (`Duration.words_sub`).
-/

namespace Decommission

/-! ## Differences in words -/

/-- The difference, if it is not below zero. -/
def subChecked (a b : UInt64) : Option UInt64 := if b ≤ a then some (a - b) else none

namespace Duration

namespace Words

/-- The difference, if the second duration is not longer.  A second is borrowed where there
are fewer nanoseconds than are taken off. -/
def sub? (v w : Words) : Option Words := do
  let secs ← subChecked v.secs w.secs
  if w.nanos ≤ v.nanos then some ⟨secs, v.nanos - w.nanos⟩
  else
    let secs ← subChecked secs 1
    some ⟨secs, v.nanos + 1000000000 - w.nanos⟩

/-- The difference, or no time at all if the second duration is longer. -/
def sub (v w : Words) : Words := (v.sub? w).getD zero.words

end Words

end Duration

theorem subChecked_eq (a b : UInt64) :
    subChecked a b =
      if b.toNat ≤ a.toNat then some (.ofNat (a.toNat - b.toNat)) else none := by
  rw [subChecked]
  by_cases h : b.toNat ≤ a.toNat
  · rw [if_pos (UInt64.le_iff_toNat_le.mpr h), if_pos h,
      ← UInt64.toNat_sub_of_le a b (UInt64.le_iff_toNat_le.mpr h), UInt64.ofNat_toNat]
  · rw [if_neg (mt UInt64.le_iff_toNat_le.mp h), if_neg h]

namespace Duration

/-- The words of so many seconds and nanoseconds. -/
theorem words_eq {d : Duration} {secs nanos : Nat} (h : d.nanos = secs * nanosPerSecond + nanos)
    (hn : nanos < nanosPerSecond) : d.words = ⟨.ofNat secs, .ofNat nanos⟩ := by
  have hsplit := d.secs_mul_add_subsecNanos
  have hlt := d.subsecNanos_lt
  rw [nanosPerSecond] at h hn hsplit hlt
  have hsecs : d.secs = secs := by omega
  have hnanos : d.subsecNanos = nanos := by omega
  rw [words, hsecs, hnanos]

/-- The nanoseconds that are left of a second and a part of one. -/
theorem toNat_borrow {m n : UInt32} (hm : m.toNat < nanosPerSecond)
    (hn : n.toNat < nanosPerSecond) :
    m + 1000000000 - n = .ofNat (m.toNat + nanosPerSecond - n.toNat) := by
  have hsecond : (1000000000 : UInt32).toNat = nanosPerSecond := rfl
  rw [nanosPerSecond] at *
  have hsum : (m + 1000000000).toNat = m.toNat + 1000000000 := by
    rw [UInt32.toNat_add, hsecond]
    exact Nat.mod_eq_of_lt (by omega)
  have hle : n ≤ m + 1000000000 := by
    rw [UInt32.le_iff_toNat_le, hsum]
    omega
  rw [← hsum, ← UInt32.toNat_sub_of_le _ _ hle, UInt32.ofNat_toNat]

/-- Taking words off gives the words of the difference. -/
theorem words_sub (d e : Duration) : (d - e).words = d.words.sub e.words := by
  have hd := d.secs_mul_add_subsecNanos
  have he := e.secs_mul_add_subsecNanos
  have hdn := d.subsecNanos_lt
  have hen := e.subsecNanos_lt
  have hsub := nanos_sub d e
  have hle : e.words.nanos ≤ d.words.nanos ↔ e.subsecNanos ≤ d.subsecNanos := by
    rw [UInt32.le_iff_toNat_le, toNat_nanos_words, toNat_nanos_words]
  have hnone : d.nanos ≤ e.nanos → (d - e).words = zero.words := fun hshort =>
    congrArg words (ext (hsub.trans (Nat.sub_eq_zero_of_le hshort)))
  rw [Words.sub, Words.sub?, subChecked_eq, toNat_secs_words, toNat_secs_words]
  rw [nanosPerSecond] at hd he
  by_cases hsecs : e.secs ≤ d.secs
  · rw [if_pos hsecs, Option.bind_eq_bind, Option.bind_some]
    by_cases hnanos : e.subsecNanos ≤ d.subsecNanos
    · have hword : d.words.nanos - e.words.nanos = .ofNat (d.subsecNanos - e.subsecNanos) := by
        rw [← toNat_nanos_words d, ← toNat_nanos_words e,
          ← UInt32.toNat_sub_of_le _ _ (hle.mpr hnanos), UInt32.ofNat_toNat]
      rw [if_pos (hle.mpr hnanos), Option.getD_some, hword]
      refine words_eq ?_ (by omega)
      rw [nanosPerSecond]
      omega
    · have hleft : (UInt64.ofNat (d.secs - e.secs)).toNat = d.secs - e.secs :=
        UInt64.toNat_ofNat_of_lt' (Nat.lt_of_le_of_lt (Nat.sub_le ..) d.secs_lt)
      rw [if_neg (mt hle.mp hnanos), subChecked_eq, hleft, UInt64.toNat_one]
      by_cases hmore : 1 ≤ d.secs - e.secs
      · rw [if_pos hmore, Option.bind_some, Option.getD_some,
          toNat_borrow (toNat_nanos_words d ▸ hdn) (toNat_nanos_words e ▸ hen),
          toNat_nanos_words, toNat_nanos_words]
        rw [nanosPerSecond] at hdn hen ⊢
        refine words_eq ?_ (by rw [nanosPerSecond]; omega)
        rw [nanosPerSecond]
        omega
      · rw [if_neg hmore]
        exact hnone (by omega)
  · rw [if_neg hsecs]
    rw [nanosPerSecond] at hdn hen
    exact hnone (by omega)

end Duration

/-! ## Spans that go by -/

/-- Spans put together, cut off at the longest duration. -/
def Duration.altogether (spans : List Duration) : Duration := spans.foldl (· + ·) .zero

theorem Duration.nanos_foldl_add (spans : List Duration) (d : Duration) :
    (spans.foldl (· + ·) d).nanos = min (d.nanos + total nanos spans) longestNanos := by
  induction spans generalizing d with
  | nil => exact (Nat.min_eq_left d.nanos_le).symm
  | cons e spans ih =>
      rw [List.foldl_cons, ih, nanos_add, total]
      omega

/-- Spans put together are as long as their nanoseconds say, up to the longest duration. -/
theorem Duration.nanos_altogether (spans : List Duration) :
    (altogether spans).nanos = min (total nanos spans) longestNanos := by
  rw [altogether, nanos_foldl_add, nanos_zero, Nat.zero_add]

namespace Budget

/-- What is left of a budget after several spans, one after the other. -/
def after (b : Budget) (spans : List Duration) : Budget := spans.foldl remaining b

theorem nanos_after (b : Budget) (spans : List Duration) :
    (b.after spans).cancel.nanos = b.cancel.nanos - total Duration.nanos spans ∧
      (b.after spans).quit.nanos = b.quit.nanos - total Duration.nanos spans := by
  induction spans generalizing b with
  | nil => exact ⟨rfl, rfl⟩
  | cons e spans ih =>
      obtain ⟨hcancel, hquit⟩ := ih (b.remaining e)
      rw [total, ← Nat.sub_sub, ← Nat.sub_sub, ← cancel_remaining, ← quit_remaining]
      exact ⟨hcancel, hquit⟩

/-- Several spans are as good as one. -/
theorem after_eq (b : Budget) (spans : List Duration) :
    b.after spans = b.remaining (.altogether spans) := by
  obtain ⟨hcancel, hquit⟩ := b.nanos_after spans
  have hsum := Duration.nanos_altogether spans
  have hcancelLe := b.cancel.nanos_le
  have hquitLe := b.quit.nanos_le
  have hc : (b.after spans).cancel = (b.remaining (.altogether spans)).cancel := by
    refine Duration.ext ?_
    rw [hcancel, cancel_remaining]
    omega
  have hq : (b.after spans).quit = (b.remaining (.altogether spans)).quit := by
    refine Duration.ext ?_
    rw [hquit, quit_remaining]
    omega
  rw [Budget.mk.injEq]
  exact ⟨hc, hq⟩

/-- What is left span by span is what is left of the budget after the first spans. -/
theorem chain_eq (b : Budget) (spans : List Duration) :
    b.chain spans = spans.inits.tail.map b.after := by
  induction spans generalizing b with
  | nil => rfl
  | cons e spans ih =>
      have hfirst : spans.inits = [] :: spans.inits.tail := by
        cases spans with
        | _ => rfl
      calc b.remaining e :: (b.remaining e).chain spans
          = ([] :: spans.inits.tail).map (b.remaining e).after := by
            rw [ih]
            rfl
        _ = spans.inits.map (b.remaining e).after := by rw [← hfirst]
        _ = (e :: spans).inits.tail.map b.after := by
            rw [List.inits_cons, List.tail_cons, List.map_map]
            rfl

/-- A machine takes the spans off in words. -/
theorem words_after (b : Budget) (spans : List Duration) :
    (b.after spans).cancel.words = spans.foldl (fun w e => w.sub e.words) b.cancel.words ∧
      (b.after spans).quit.words = spans.foldl (fun w e => w.sub e.words) b.quit.words := by
  induction spans generalizing b with
  | nil => exact ⟨rfl, rfl⟩
  | cons e spans ih =>
      rw [List.foldl_cons, List.foldl_cons, ← Duration.words_sub, ← Duration.words_sub]
      exact ih (b.remaining e)

/-! ## What is left -/

/-- What is left of a budget when several spans have gone by. -/
structure Rebalanced (b : Budget) (spans : List Duration) : Prop where
  /-- The spans are taken off one by one or all at once. -/
  atOnce : b.after spans = b.remaining (.altogether spans)
  /-- Taken off one by one, they leave at each point what the first of them leave. -/
  chain : b.chain spans = spans.inits.tail.map b.after
  altogether : (Duration.altogether spans).nanos = min (total Duration.nanos spans) longestNanos
  /-- Each part is shorter by the spans, and stops at zero. -/
  cancel : (b.after spans).cancel.nanos = b.cancel.nanos - (Duration.altogether spans).nanos
  quit : (b.after spans).quit.nanos = b.quit.nanos - (Duration.altogether spans).nanos
  /-- Each part splits into seconds of 64 bits and less than a second of nanoseconds. -/
  parts : ∀ d ∈ [(b.after spans).cancel, (b.after spans).quit], d.secs < range64 ∧
    d.subsecNanos < nanosPerSecond ∧ d.secs * nanosPerSecond + d.subsecNanos = d.nanos
  /-- Taking the words of the spans off gives the words of what is left. -/
  words : (b.after spans).cancel.words = spans.foldl (fun w e => w.sub e.words) b.cancel.words ∧
    (b.after spans).quit.words = spans.foldl (fun w e => w.sub e.words) b.quit.words
  /-- The two parts stay in their order, at every point. -/
  ordered : b.cancel ≤ b.quit →
    ∀ first, first <+: spans → (b.after first).cancel ≤ (b.after first).quit
  /-- The order is strict until the time is up. -/
  strict : b.cancel < b.quit →
    ((b.after spans).cancel < (b.after spans).quit ↔ Duration.altogether spans < b.quit)
  /-- The distance stays the same until the first part is used up. -/
  distance : b.cancel < b.quit →
    ((b.after spans).quit - (b.after spans).cancel = b.quit - b.cancel ↔
      Duration.altogether spans ≤ b.cancel)

/-- Whatever spans go by: what is left depends on their sum only, and it keeps its order as
long as there is any time left. -/
theorem rebalanced_after (b : Budget) (spans : List Duration) : b.Rebalanced spans := by
  have hatOnce : ∀ first, b.after first = b.remaining (.altogether first) := b.after_eq
  have hcancel : (b.after spans).cancel.nanos =
      b.cancel.nanos - (Duration.altogether spans).nanos := by
    rw [hatOnce, cancel_remaining]
  have hquit : (b.after spans).quit.nanos = b.quit.nanos - (Duration.altogether spans).nanos := by
    rw [hatOnce, quit_remaining]
  refine ⟨b.after_eq spans, b.chain_eq spans, Duration.nanos_altogether spans, hcancel, hquit,
    fun d _ => ⟨d.secs_lt, d.subsecNanos_lt, d.secs_mul_add_subsecNanos⟩, b.words_after spans,
    fun hle first _ => ?_, fun hlt => ?_, fun hlt => ?_⟩
  · rw [hatOnce, Duration.le_iff, cancel_remaining, quit_remaining]
    exact Nat.sub_le_sub_right hle _
  · rw [Duration.lt_iff] at hlt
    rw [Duration.lt_iff, Duration.lt_iff, hcancel, hquit]
    omega
  · rw [Duration.lt_iff] at hlt
    rw [Duration.ext_iff, Duration.nanos_sub, Duration.nanos_sub, Duration.le_iff, hcancel, hquit]
    omega

/-- A second is borrowed, and then both parts have run out. -/
example :
    let b : Budget := ⟨.ofMillis 1500, .ofMillis 3000⟩
    b.chain [.ofMillis 700, .ofMillis 700, .longest] =
      [⟨.ofMillis 800, .ofMillis 2300⟩, ⟨.ofMillis 100, .ofMillis 1600⟩, ⟨.zero, .zero⟩] := by
  decide

end Budget

end Decommission
