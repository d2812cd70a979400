import Decommission.Proofs.Supervision.Lifecycle

/-!
# Supervisions and their timers

The timers of a supervision are set at its beginning and never again.  If nobody waits
longer than until the next of them, a supervision that is under way has not passed its
hard timer, and has not passed its soft timer while its run goes on
(`Supervision.InTime`).  So it can end without an error only before the soft timer
(`InTime.le_of_ok`).

Apart from taking reports a supervision makes at most two steps before its end
(`Supervision.pending`), and whenever it makes none there is a timer ahead to wait for
(`exists_alarm_of_idle`).  So `Supervision.toGo` bounds how long it goes on.
-/

namespace Decommission

namespace Supervision

variable {g : Glance} {s s' : Supervision} {es : List Event} {cancel quit now : Nat}

/-- A supervision under way whose timers go off at certain milliseconds. -/
structure InTime (s : Supervision) (cancel quit now : Nat) : Prop where
  result? : s.result? = none
  outcome? : s.run.outcome? = none
  cancelTick : s.cancelTick = cancel
  quitTick : s.quitTick = quit
  now_le : now ≤ quit
  running : s.run.state = .running → now ≤ cancel

/-- What is announced at the end is the outcome. -/
theorem milestone_of_mem_closing {u : Update} {o : Outcome} (h : .update u ∈ s.closing now o) :
    u.milestone = o.milestone := by
  have h : u ∈ updatesIn (s.closing now o) := mem_updatesIn.mpr h
  rw [updatesIn_closing, List.mem_singleton] at h
  rw [h]
  exact Update.milestoneOf_resultOf s.phase o

/-- A look does not set the timers anew. -/
theorem timers_look (hl : s.look g = some (es, s')) (h : s.run.outcome? = none) :
    s'.startedAt = s.startedAt ∧ s'.budget = s.budget := by
  cases look_cases hl with
  | answered => exact ⟨rfl, rfl⟩
  | refused => exact ⟨rfl, rfl⟩
  | reported => rw [apply_report h]; exact ⟨rfl, rfl⟩
  | closed => rw [apply_closed h]; exact ⟨rfl, rfl⟩
  | quit => rw [apply_quitTimeout h]; exact ⟨rfl, rfl⟩
  | cancel _ _ hr => rw [apply_cancelTimeout hr]; exact ⟨rfl, rfl⟩

namespace InTime

theorem look (h : s.InTime cancel quit g.now) (hl : s.look g = some (es, s'))
    (hr : s'.result? = none) : s'.InTime cancel quit g.now := by
  obtain ⟨hstart, hbudget⟩ := timers_look hl h.outcome?
  have hcancel : s'.cancelTick = cancel := by
    rw [Supervision.cancelTick, hstart, hbudget]
    exact h.cancelTick
  have hquit : s'.quitTick = quit := by
    rw [Supervision.quitTick, hstart, hbudget]
    exact h.quitTick
  cases look_cases hl with
  | answered => exact ⟨hr, h.outcome?, hcancel, hquit, h.now_le, h.running⟩
  | refused => cases hr
  | reported r =>
      rw [apply_report h.outcome?] at hr hcancel hquit ⊢
      exact ⟨hr, h.outcome?, hcancel, hquit, h.now_le, h.running⟩
  | closed =>
      rw [apply_closed h.outcome?] at hr
      cases hr
  | quit =>
      rw [apply_quitTimeout h.outcome?] at hr
      cases hr
  | cancel _ _ hrun =>
      rw [apply_cancelTimeout hrun] at hr hcancel hquit ⊢
      exact ⟨hr, rfl, hcancel, hquit, h.now_le, fun hs => nomatch hs⟩

theorem alarm?_eq (h : s.InTime cancel quit now) :
    s.alarm? = some (if s.run.awaitsCancelTimeout then min quit cancel else quit) := by
  have hopen := h.result?
  rw [Supervision.result?] at hopen
  rw [Supervision.alarm?, h.cancelTick, h.quitTick]
  cases hs : s.stage with
  | ended r =>
      rw [hs] at hopen
      cases hopen
  | _ => exact (apply_ite some ..).symm

/-- Nobody waits longer than until the next timer. -/
theorem wait (h : s.InTime cancel quit now) {a later : Nat} (ha : s.alarm? = some a)
    (hlater : later ≤ max now a) : s.InTime cancel quit later := by
  rw [h.alarm?_eq, Option.some.injEq] at ha
  have hnow := h.now_le
  refine ⟨h.result?, h.outcome?, h.cancelTick, h.quitTick, ?_, fun hrun => ?_⟩
  · split at ha
    · omega
    · omega
  · have hle := h.running hrun
    have hawaits : s.run.awaitsCancelTimeout := beq_iff_eq.mpr hrun
    rw [if_pos hawaits] at ha
    omega

/-- A look can end a supervision without an error only before the soft timer. -/
theorem le_of_ok (h : s.InTime cancel quit g.now) (hl : s.look g = some (es, s'))
    (hr : s'.result? = some (.ok ())) : g.now ≤ cancel := by
  obtain ⟨_, _, _, hok⟩ := closed_of_ok hl h.outcome? hr
  rcases PhaseRun.state_of_outcome?_eq_none h.outcome? with hs | hs
  · exact h.running hs
  · exact absurd hs (closingOutcome_of_ok hok).2

/-- Only a supervision that ends without an error announces that all went well. -/
theorem result?_of_finished (h : s.InTime cancel quit now) (hl : s.look g = some (es, s'))
    {u : Update} (hu : .update u ∈ es) (hm : u.milestone = .finished) :
    s'.result? = some (.ok ()) := by
  cases look_cases hl with
  | answered => simp at hu
  | refused e =>
      simp [refuse] at hu
      rw [hu] at hm
      cases hm
  | reported r =>
      rw [apply_report h.outcome?] at hu
      simp at hu
      rw [hu] at hm
      cases hm
  | closed =>
      rw [apply_closed h.outcome?] at hu ⊢
      have hm := (milestone_of_mem_closing hu).symm.trans hm
      have ho : s.run.closingOutcome = .finished := by
        cases ho : s.run.closingOutcome with
        | finished => rfl
        | _ => rw [ho] at hm; cases hm
      rw [endedWith, ho]
      rfl
  | quit =>
      rw [apply_quitTimeout h.outcome?, List.mem_append] at hu
      rcases hu with hu | hu
      · have hu : u ∈ updatesIn s.lateCancel := mem_updatesIn.mpr hu
        rw [updatesIn_lateCancel] at hu
        cases hu
      · cases (milestone_of_mem_closing hu).symm.trans hm
  | cancel _ _ hrun =>
      rw [apply_cancelTimeout hrun] at hu
      simp at hu

end InTime

/-! ## Going on -/

/-- The number of steps that a supervision still makes before its end, apart from taking
reports. -/
def pending (s : Supervision) : Nat :=
  (match s.stage with
    | .starting => 1
    | _ => 0) + (if s.run.state = .running then 1 else 0)

/-- A look that leaves a supervision under way takes a report, or one of the steps. -/
theorem pending_look (h : s.InTime cancel quit now) (hl : s.look g = some (es, s'))
    (hr : s'.result? = none) :
    .received ∈ es ∧ s'.pending = s.pending ∨ s'.pending < s.pending := by
  cases look_cases hl with
  | answered hs =>
      refine .inr ?_
      rw [pending, pending, hs]
      dsimp only
      omega
  | refused => cases hr
  | reported r hs hh =>
      rw [apply_report h.outcome?]
      exact .inl ⟨List.mem_cons_self .., rfl⟩
  | closed =>
      rw [apply_closed h.outcome?] at hr
      cases hr
  | quit =>
      rw [apply_quitTimeout h.outcome?] at hr
      cases hr
  | cancel _ _ hrun =>
      refine .inr ?_
      rw [apply_cancelTimeout hrun, pending, pending, if_pos hrun]
      exact Nat.lt_succ_self _

/-- As long as there is nothing to do but wait, a timer is ahead. -/
theorem exists_alarm_of_idle (h : s.InTime cancel quit g.now) (hl : s.look g = none) :
    ∃ a, s.alarm? = some a ∧ g.now < a ∧ a ≤ quit := by
  have htimers : s.lookAtTimers g.now = none := by
    have hopen := h.result?
    rw [Supervision.result?] at hopen
    rw [Supervision.look] at hl
    cases hs : s.stage with
    | starting =>
        rw [hs] at hl
        dsimp only at hl
        cases ha : g.answer with
        | none => rw [ha] at hl; exact hl
        | some r => rw [ha] at hl; cases r with
          | _ => cases hl
    | watching =>
        rw [hs] at hl
        dsimp only at hl
        cases hh : g.head with
        | nothing => rw [hh] at hl; exact hl
        | _ => rw [hh] at hl; cases hl
    | ended r => rw [hs] at hopen; cases hopen
  rw [lookAtTimers, h.quitTick, h.cancelTick] at htimers
  rw [h.alarm?_eq]
  refine ⟨_, rfl, ?_⟩
  split at htimers
  · cases htimers
  · split at htimers
    · cases htimers
    · rename_i hq hc
      rw [Bool.and_eq_true, decide_eq_true_eq, not_and] at hc
      split
      · have hlt := hc ‹_›
        omega
      · omega

/-- A bound on the steps to come, apart from taking reports, and the milliseconds until
the hard timer. -/
def toGo (s : Supervision) (now : Nat) : Nat := s.quitTick - now + s.pending

theorem toGo_start {phase : Phase} {engine : Nat} {budget : Budget}
    (h : (start phase engine budget now).InTime cancel quit now) :
    (start phase engine budget now).toGo now = quit - now + 2 := by
  rw [toGo, h.quitTick]
  rfl

/-- A look that leaves a supervision under way takes a report, or brings its end nearer. -/
theorem toGo_look (h : s.InTime cancel quit g.now) (hl : s.look g = some (es, s'))
    (hr : s'.result? = none) :
    s'.toGo g.now ≤ s.toGo g.now ∧ (.received ∉ es → s'.toGo g.now < s.toGo g.now) := by
  rw [toGo, toGo, (h.look hl hr).quitTick, h.quitTick]
  rcases pending_look h hl hr with ⟨hreport, heq⟩ | hlt
  · exact ⟨by omega, fun hn => absurd hreport hn⟩
  · exact ⟨by omega, fun _ => by omega⟩

/-- As long as there is nothing to do but wait, a wait brings the end nearer. -/
theorem toGo_wait (h : s.InTime cancel quit g.now) (hl : s.look g = none) {a : Nat} (ms : Nat)
    (ha : s.alarm? = some a) :
    s.toGo (min (g.now + (ms + 1)) (max g.now a)) < s.toGo g.now := by
  obtain ⟨a', ha', hlt, hle⟩ := exists_alarm_of_idle h hl
  obtain rfl := Option.some.inj (ha'.symm.trans ha)
  rw [toGo, toGo, h.quitTick]
  omega

end Supervision

end Decommission
