import Decommission.Proofs.Supervision.Step

/-!
# What a phase run makes of its inputs

A phase run takes any inputs in any order.  What it does is fixed by the place of
the first input that ends it, the end of the reports or the hard timeout, and by
the place of the first soft timeout before that.

`PhaseRun.unendedEffects` and `PhaseRun.endingEffects` say what the run asks for,
and `PhaseRun.outcomeOf` how it ends, in terms of the list of inputs alone.
`PhaseRun.handleAll_means` says that the run does just that, and that nothing counts
after the input that ends it.
-/

namespace Decommission

namespace RunInput

/-- Whether the input ends a run that is not over. -/
def isEnding : RunInput → Bool
  | closed | quitTimeout => true
  | _ => false

/-- The report, if the input is one. -/
def report? : RunInput → Option Report
  | report r => some r
  | _ => none

end RunInput

namespace PhaseRun

/-- The reports among inputs, passed on. -/
def forwards (is : List RunInput) : List RunEffect :=
  (is.filterMap RunInput.report?).map .forward

/-- The number of failures among inputs. -/
def failuresIn (is : List RunInput) : Nat :=
  (is.filterMap RunInput.report?).countP (·.status == .error)

/-- What a run asks for before its end.  It passes every report on, and at the place
of the first soft timeout it asks the engine to wind down. -/
def unendedEffects (is : List RunInput) : List RunEffect :=
  forwards (is.takeWhile (· ≠ .cancelTimeout)) ++
    (if .cancelTimeout ∈ is then [.cancel] else []) ++
    forwards (is.dropWhile (· ≠ .cancelTimeout))

/-- Where a run is before its end. -/
def unendedState (is : List RunInput) : RunState :=
  if .cancelTimeout ∈ is then .softCancelled else .running

/-- How a run ends with its last input, having taken others before. -/
def outcomeOf (before : List RunInput) (last : RunInput) : Outcome :=
  if last = .quitTimeout then .forceQuitFailure
  else if 0 < failuresIn before then .componentFailure (failuresIn before)
  else if .cancelTimeout ∈ before then .timeoutFailure
  else .finished

/-- What a run asks for at its end.  A hard timeout asks the engine to wind down if no
soft timeout has. -/
def endingEffects (before : List RunInput) (last : RunInput) : List RunEffect :=
  (if last = .quitTimeout ∧ .cancelTimeout ∉ before then [.cancel] else []) ++
    [.complete (outcomeOf before last)]

/-- What has become of a run of a phase that took certain inputs, and what it has
asked for. -/
structure Means (phase : Phase) (is : List RunInput) (r : PhaseRun) (es : List RunEffect) :
    Prop where
  /-- Without an ending input the run is not over, and winds down if a soft timeout
  came in. -/
  unended : is.findIdx? RunInput.isEnding = none →
    r.isOver = false ∧ (r.state = .softCancelled ↔ .cancelTimeout ∈ is) ∧
      es = unendedEffects is
  /-- The first ending input ends the run. -/
  ended : ∀ k last, is.findIdx? RunInput.isEnding = some k → is[k]? = some last →
    r.state = .ended (outcomeOf (is.take k) last) ∧
      es = unendedEffects (is.take k) ++ endingEffects (is.take k) last
  /-- Nothing counts after the first ending input: the run was the same at every
  point behind it, and asks for nothing whatever comes next. -/
  settled : ∀ k n, is.findIdx? RunInput.isEnding = some k → k < n →
    (handleAll { phase } (is.take n)).1 = r ∧ ∀ i, r.handle i = (r, [])

variable {r : PhaseRun} {i : RunInput} {is : List RunInput}

theorem unendedState_eq_softCancelled_iff :
    unendedState is = .softCancelled ↔ .cancelTimeout ∈ is := by
  rw [unendedState]
  split
  · exact iff_of_true rfl ‹_›
  · exact iff_of_false (fun hs => nomatch hs) ‹_›

theorem outcome?_of_unended (h : r.state = unendedState is) : r.outcome? = none := by
  rw [outcome?, h, unendedState]
  by_cases hc : RunInput.cancelTimeout ∈ is
  · rw [if_pos hc]
  · rw [if_neg hc]

theorem isOver_of_ended {o : Outcome} (h : r.state = .ended o) : r.isOver := by
  rw [isOver, outcome?, h]
  rfl

/-! ## Inputs that end nothing -/

theorem failuresIn_report (c : Report) (is : List RunInput) :
    failuresIn (.report c :: is) = [c].countP (·.status == .error) + failuresIn is := by
  rw [failuresIn, failuresIn, ← List.countP_append]
  rfl

theorem unendedEffects_report (c : Report) (is : List RunInput) :
    unendedEffects (.report c :: is) = .forward c :: unendedEffects is := by
  simp [unendedEffects, forwards, RunInput.report?]

theorem unendedEffects_cancelTimeout (is : List RunInput) :
    unendedEffects (.cancelTimeout :: is) = .cancel :: forwards is := by
  simp [unendedEffects, forwards, List.filterMap_cons, RunInput.report?]

/-- A run that winds down ignores soft timeouts. -/
theorem handle_cancelTimeout_again (h : r.state = .softCancelled) :
    r.handle .cancelTimeout = (r, []) := by
  obtain ⟨phase, state, statuses, failed⟩ := r
  cases h
  rfl

/-- A run that winds down only passes reports on. -/
theorem handleAll_of_softCancelled (h : r.state = .softCancelled)
    (his : ∀ i ∈ is, i.isEnding = false) :
    (r.handleAll is).1.state = .softCancelled ∧
      (r.handleAll is).1.failed = r.failed + failuresIn is ∧
      (r.handleAll is).2 = forwards is := by
  induction is generalizing r with
  | nil => exact ⟨h, rfl, rfl⟩
  | cons i is ih =>
      obtain ⟨hi, hrest⟩ := List.forall_mem_cons.mp his
      have hlive : r.outcome? = none := by rw [outcome?, h]
      rw [handleAll]
      cases i with
      | report c =>
          obtain ⟨hstate, hfailed, heffects⟩ := ih (r := r.noting c) h hrest
          rw [handle_report hlive]
          refine ⟨hstate, ?_, ?_⟩
          · rw [failuresIn_report, ← Nat.add_assoc, ← noting_failed]
            exact hfailed
          · show .forward c :: ((r.noting c).handleAll is).2 = _
            rw [heffects]
            rfl
      | cancelTimeout =>
          rw [handle_cancelTimeout_again h]
          exact ih h hrest
      | closed => cases hi
      | quitTimeout => cases hi

/-- Before its end, a run that does not wind down passes reports on until the first
soft timeout, which makes it wind down. -/
theorem handleAll_of_running (h : r.state = .running) (his : ∀ i ∈ is, i.isEnding = false) :
    (r.handleAll is).1.state = unendedState is ∧
      (r.handleAll is).1.failed = r.failed + failuresIn is ∧
      (r.handleAll is).2 = unendedEffects is := by
  induction is generalizing r with
  | nil => exact ⟨h, rfl, rfl⟩
  | cons i is ih =>
      obtain ⟨hi, hrest⟩ := List.forall_mem_cons.mp his
      have hlive : r.outcome? = none := by rw [outcome?, h]
      rw [handleAll]
      cases i with
      | report c =>
          obtain ⟨hstate, hfailed, heffects⟩ := ih (r := r.noting c) h hrest
          rw [handle_report hlive]
          refine ⟨?_, ?_, ?_⟩
          · show ((r.noting c).handleAll is).1.state = _
            rw [hstate]
            simp [unendedState]
          · rw [failuresIn_report, ← Nat.add_assoc, ← noting_failed]
            exact hfailed
          · show .forward c :: ((r.noting c).handleAll is).2 = _
            rw [heffects, unendedEffects_report]
      | cancelTimeout =>
          obtain ⟨hstate, hfailed, heffects⟩ :=
            handleAll_of_softCancelled (r := { r with state := .softCancelled }) rfl hrest
          rw [handle_cancelTimeout h]
          refine ⟨?_, hfailed, ?_⟩
          · rw [unendedState, if_pos (List.mem_cons_self ..)]
            exact hstate
          · show .cancel :: (handleAll { r with state := .softCancelled } is).2 = _
            rw [heffects, unendedEffects_cancelTimeout]
      | closed => cases hi
      | quitTimeout => cases hi

/-! ## The input that ends a run -/

/-- An ending input ends a run in the way that the inputs before it say. -/
theorem handle_ending {before : List RunInput} (hi : i.isEnding)
    (hfailed : r.failed = failuresIn before) (hstate : r.state = unendedState before) :
    (r.handle i).1.state = .ended (outcomeOf before i) ∧
      (r.handle i).2 = endingEffects before i := by
  have hlive := outcome?_of_unended hstate
  cases i with
  | closed =>
      have hout : r.closingOutcome = outcomeOf before .closed := by
        simp only [closingOutcome, outcomeOf, hfailed, hstate, unendedState_eq_softCancelled_iff]
        rfl
      rw [handle_closed hlive, complete, hout]
      refine ⟨rfl, ?_⟩
      rw [endingEffects, if_neg (by simp), List.nil_append]
  | quitTimeout =>
      rw [handle_quitTimeout hlive]
      refine ⟨rfl, ?_⟩
      rw [endingEffects, hstate, unendedState]
      by_cases hc : RunInput.cancelTimeout ∈ before
      · simp [hc, outcomeOf]
      · simp [hc, outcomeOf]
  | report | cancelTimeout => cases hi

theorem handleAll_of_isOver (h : r.isOver) (is : List RunInput) : r.handleAll is = (r, []) := by
  induction is with
  | nil => rfl
  | cons i is ih =>
      rw [handleAll, handle_of_isOver h]
      dsimp only
      rw [ih, List.append_nil]

/-- What comes behind the first ending input does not matter. -/
theorem handleAll_ending (phase : Phase) {before : List RunInput} {last : RunInput}
    (hopen : ∀ i ∈ before, i.isEnding = false) (hlast : last.isEnding) :
    ∃ r : PhaseRun, r.state = .ended (outcomeOf before last) ∧
      ∀ after, handleAll { phase } (before ++ last :: after) =
        (r, unendedEffects before ++ endingEffects before last) := by
  obtain ⟨hstate, hfailed, heffects⟩ := handleAll_of_running (r := { phase }) rfl hopen
  rw [Nat.zero_add] at hfailed
  obtain ⟨hended, hcomplete⟩ := handle_ending hlast hfailed hstate
  refine ⟨_, hended, fun after => ?_⟩
  rw [handleAll_append, handleAll]
  dsimp only
  rw [handleAll_of_isOver (isOver_of_ended hended), heffects, hcomplete, List.append_nil]

/-! ## All inputs -/

/-- Inputs up to a point behind the first ending one are the inputs before that one, that
one, and others. -/
theorem exists_take_eq {k : Nat} (h : is.findIdx? RunInput.isEnding = some k) :
    (∀ i ∈ is.take k, i.isEnding = false) ∧ ∃ last, is[k]? = some last ∧ last.isEnding ∧
      ∀ n, k < n → ∃ after, is.take n = is.take k ++ last :: after := by
  obtain ⟨hk, hend, hbefore⟩ := List.findIdx?_eq_some_iff_getElem.mp h
  refine ⟨?_, is[k], List.getElem?_eq_getElem hk, hend, fun n hn => ?_⟩
  · intro i hi
    obtain ⟨j, hj, rfl⟩ := List.mem_take_iff_getElem.mp hi
    exact Bool.eq_false_iff.mpr (hbefore j (by omega))
  · obtain ⟨m, rfl⟩ := Nat.exists_eq_add_of_lt hn
    refine ⟨(is.drop (k + 1)).take m, ?_⟩
    rw [Nat.add_assoc, List.take_add, List.drop_eq_getElem_cons hk, List.take_succ_cons]

/-- Whatever a phase run takes, and in whatever order: its state, its outcome and all
it asks for are fixed by the places of the first ending input and of the first soft
timeout before it. -/
theorem handleAll_means (phase : Phase) (is : List RunInput) :
    Means phase is (handleAll { phase } is).1 (handleAll { phase } is).2 := by
  -- At every point behind the first ending input the run is the same, and is over.
  have hover : ∀ k, is.findIdx? RunInput.isEnding = some k → ∃ last r, is[k]? = some last ∧
      r.state = .ended (outcomeOf (is.take k) last) ∧
      ∀ n, k < n → handleAll { phase } (is.take n) =
        (r, unendedEffects (is.take k) ++ endingEffects (is.take k) last) := by
    intro k hk
    obtain ⟨hopen, last, hget, hlast, htake⟩ := exists_take_eq hk
    obtain ⟨r, hr, hall⟩ := handleAll_ending phase hopen hlast
    refine ⟨last, r, hget, hr, fun n hn => ?_⟩
    obtain ⟨after, hafter⟩ := htake n hn
    rw [hafter, hall]
  have hwhole : ∀ k, is.findIdx? RunInput.isEnding = some k → k < is.length := fun k hk =>
    (List.findIdx?_eq_some_iff_getElem.mp hk).1
  refine ⟨fun hnone => ?_, fun k last hk hlast => ?_, fun k n hk hn => ?_⟩
  · obtain ⟨hstate, _, heffects⟩ :=
      handleAll_of_running (r := { phase }) rfl (List.findIdx?_eq_none_iff.mp hnone)
    refine ⟨?_, ?_, heffects⟩
    · rw [isOver, outcome?_of_unended hstate]
      rfl
    · rw [hstate]
      exact unendedState_eq_softCancelled_iff
  · obtain ⟨last', r, hlast', hr, hall⟩ := hover k hk
    rw [hlast, Option.some.injEq] at hlast'
    subst hlast'
    have hlen := hall is.length (hwhole k hk)
    rw [List.take_length] at hlen
    rw [hlen]
    exact ⟨hr, rfl⟩
  · obtain ⟨last, r, _, hr, hall⟩ := hover k hk
    have hlen := hall is.length (hwhole k hk)
    rw [List.take_length] at hlen
    rw [hlen, hall n hn]
    exact ⟨rfl, handle_of_isOver (isOver_of_ended hr)⟩

end PhaseRun

end Decommission
