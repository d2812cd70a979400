import Decommission.Proofs.Supervision.Step

/-!
# The lifecycle of a phase run

A supervision announces its start, passes on every report it takes, and announces
its end.  `Underway` says what has come of a supervision that has not ended, and
`Lifecycle` what has come of one that has, in terms of the reports it took and
the events it let happen.

`Underway.look` is the step: a look leaves a supervision under way, or completes
its lifecycle.  The state of the phase run remembers whether the signal was
fired, which is why a run that ends well cannot have fired it.
-/

namespace Decommission

namespace Update

/-- The announcement of a start. -/
def starting (phase : Phase) : Update := ⟨.start, phase, none, none⟩

/-- The milestone that announces a result. -/
def milestoneOf : Except PhaseError Unit → Milestone
  | .ok _ => .finished
  | .error (.componentFailure ..) => .componentFailure
  | .error (.engine ..) => .componentFailure
  | .error (.timeout _) => .timeoutFailure
  | .error (.forceQuit _) => .forceQuitFailure

/-- The announcement of a result, with the error in words. -/
def ending (phase : Phase) (r : Except PhaseError Unit) : Update :=
  ⟨milestoneOf r, phase, none,
    match r with
    | .ok _ => none
    | .error e => some e.message⟩

/-- The announcements of a phase run that has taken certain reports.  Each report is passed
on as it is. -/
def begun (phase : Phase) (taken : List Report) : List Update :=
  .starting phase :: taken.map fun r => ⟨.running, phase, some r, none⟩

/-- All announcements of a phase run that took certain reports and then ended. -/
def complete (phase : Phase) (taken : List Report) (r : Except PhaseError Unit) : List Update :=
  begun phase taken ++ [.ending phase r]

theorem phase_of_mem_begun {phase : Phase} {taken : List Report} {u : Update}
    (h : u ∈ begun phase taken) : u.phase = phase := by
  rcases List.mem_cons.mp h with rfl | hm
  · rfl
  · obtain ⟨r, _, rfl⟩ := List.mem_map.mp hm
    rfl

theorem phase_of_mem_complete {phase : Phase} {taken : List Report}
    {r : Except PhaseError Unit} {u : Update} (h : u ∈ complete phase taken r) :
    u.phase = phase := by
  rcases List.mem_append.mp h with hm | hm
  · exact phase_of_mem_begun hm
  · rw [List.mem_singleton.mp hm]
    rfl

theorem milestoneOf_resultOf (phase : Phase) (o : Outcome) :
    milestoneOf (Supervision.resultOf phase o) = o.milestone := by
  cases o with
  | _ => rfl

/-- Every result is announced by a milestone that ends a phase run. -/
theorem milestoneOf_ne (r : Except PhaseError Unit) :
    milestoneOf r ≠ .start ∧ milestoneOf r ≠ .running := by
  rcases r with e | _
  · cases e with
    | _ => exact ⟨Milestone.noConfusion, Milestone.noConfusion⟩
  · exact ⟨Milestone.noConfusion, Milestone.noConfusion⟩

end Update

/-- What has come of a supervision of a phase that has ended with a result, having
taken certain reports and let certain events happen. -/
structure Lifecycle (phase : Phase) (taken : List Report) (es : List Event)
    (r : Except PhaseError Unit) : Prop where
  /-- A start was announced, every report taken was passed on in order, and then
  the result was announced. -/
  updates : updatesIn es = Update.complete phase taken r
  /-- An error is an error of the phase. -/
  ofPhase : ∀ e, r = .error e → e.phase = phase
  /-- The failed components are those of the reports passed on. -/
  failed : ∀ n, r = .error (.componentFailure phase n) →
    n = taken.countP (·.status == .error) ∧ 0 < n
  /-- Nothing was taken from an engine that did not start. -/
  refused : ∀ e, r = .error (.engine phase e) → taken = []
  /-- If all went well, the signal was not fired and no report was of a failure. -/
  calm : r = .ok () → .signalFired ∉ es ∧ taken.countP (·.status == .error) = 0
  /-- The signal was fired before a timeout. -/
  fired : r = .error (.timeout phase) ∨ r = .error (.forceQuit phase) → .signalFired ∈ es

namespace Supervision

/-- What has come of a supervision that has not ended, having taken certain
reports and let certain events happen. -/
structure Underway (s : Supervision) (taken : List Report) (es : List Event) : Prop where
  result? : s.result? = none
  outcome? : s.run.outcome? = none
  starting : s.stage = .starting → taken = []
  failed : s.run.failed = taken.countP (·.status == .error)
  fired : .signalFired ∈ es ↔ s.run.state = .softCancelled
  updates : updatesIn es = Update.begun s.phase taken

variable {g : Glance} {s s' : Supervision} {es es' : List Event} {taken : List Report}

theorem underway_start (phase : Phase) (engine : Nat) (budget : Budget) (now : Nat) :
    (start phase engine budget now).Underway [] (start phase engine budget now).opening where
  result? := rfl
  outcome? := rfl
  starting _ := rfl
  failed := rfl
  fired := by
    constructor
    · intro h
      simp [opening] at h
    · intro h
      cases h
  updates := rfl

/-! ## The events of an ending -/

theorem updatesIn_closing (s : Supervision) (now : Nat) (o : Outcome) :
    updatesIn (s.closing now o) = [.ending s.phase (resultOf s.phase o)] := by
  unfold closing Update.ending
  rw [Update.milestoneOf_resultOf]
  show updatesIn ([.released] ++ _ ++ _) = _
  rw [updatesIn_append, updatesIn_append, updatesIn_notes]
  rfl

theorem signalFired_notMem_closing (s : Supervision) (now : Nat) (o : Outcome) :
    .signalFired ∉ s.closing now o := by
  rw [closing]
  simp

theorem updatesIn_lateCancel (s : Supervision) : updatesIn s.lateCancel = [] := by
  rw [lateCancel]
  split
  · rfl
  · rfl

/-! ## Looks that leave the supervision under way -/

/-- What happens without anybody being told leaves a supervision under way. -/
theorem Underway.silent (h : s.Underway taken es) (hs : ∀ e ∈ es', e.isSilent) :
    s.Underway taken (es ++ es') where
  result? := h.result?
  outcome? := h.outcome?
  starting := h.starting
  failed := h.failed
  fired := by
    rw [List.mem_append]
    exact (or_iff_left (signalFired_notMem_of_silent hs)).trans h.fired
  updates := by rw [updatesIn_append, updatesIn_of_silent hs, List.append_nil, h.updates]

theorem Underway.preceded (h : s.Underway taken es) (hs : ∀ e ∈ es', e.isSilent) :
    s.Underway taken (es' ++ es) where
  result? := h.result?
  outcome? := h.outcome?
  starting := h.starting
  failed := h.failed
  fired := by
    rw [List.mem_append]
    exact (or_iff_right (signalFired_notMem_of_silent hs)).trans h.fired
  updates := by rw [updatesIn_append, updatesIn_of_silent hs, List.nil_append, h.updates]

theorem Underway.answered (h : s.Underway taken es) :
    Underway { s with stage := .watching } taken (es ++ [.answered s.engine]) :=
  { (h.silent (by simp [Event.isSilent]) : s.Underway taken (es ++ [.answered s.engine])) with
    result? := rfl
    starting := by
      intro hs
      cases hs }

theorem Underway.reported (h : s.Underway taken es) (hs : s.stage = .watching) (now : Nat)
    (r : Report) :
    (s.apply now (.report r)).2.Underway (taken ++ [r])
      (es ++ .received :: (s.apply now (.report r)).1) := by
  rw [apply_report h.outcome?]
  refine ⟨?_, h.outcome?, ?_, ?_, ?_, ?_⟩
  · show Supervision.result? { s with run := s.run.noting r } = none
    rw [Supervision.result?, hs]
  · intro hst
    rw [show s.stage = .starting from hst] at hs
    cases hs
  · show (s.run.noting r).failed = _
    rw [PhaseRun.noting_failed, h.failed, List.countP_append]
  · rw [List.mem_append]
    refine Iff.trans (or_iff_left ?_) h.fired
    simp
  · rw [updatesIn_append, h.updates, Update.begun, Update.begun, List.map_append]
    rfl

theorem Underway.cancel (h : s.Underway taken es) (hr : s.run.state = .running) (now : Nat) :
    (s.apply now .cancelTimeout).2.Underway taken (es ++ (s.apply now .cancelTimeout).1) := by
  rw [apply_cancelTimeout hr]
  refine ⟨h.result?, rfl, h.starting, h.failed, ?_, ?_⟩
  · simp
  · rw [updatesIn_append, h.updates]
    exact List.append_nil _

/-! ## Looks that end the supervision -/

theorem Underway.refuse (h : s.Underway taken es) (hs : s.stage = .starting) (e : EngineError) :
    Lifecycle s.phase taken (es ++ (s.refuse e).1) (.error (.engine s.phase e)) where
  updates := by
    rw [updatesIn_append, h.updates]
    rfl
  ofPhase := by
    intro e' he
    cases he
    rfl
  failed := by
    intro n hn
    cases hn
  refused := by
    intro e' _
    exact h.starting hs
  calm := by
    intro hr
    cases hr
  fired := by
    rintro (hr | hr) <;> cases hr

/-- The lifecycle is complete once the phase run has an outcome that fits the
reports and the signal. -/
theorem Underway.close (h : s.Underway taken es) (pre : List Event) (now : Nat) {o : Outcome}
    (hpre : updatesIn pre = [])
    (hfailed : ∀ n, o = .componentFailure n → n = taken.countP (·.status == .error) ∧ 0 < n)
    (hcalm : o = .finished → .signalFired ∉ es ++ pre ∧ taken.countP (·.status == .error) = 0)
    (hfired : o = .timeoutFailure ∨ o = .forceQuitFailure → .signalFired ∈ es ++ pre) :
    Lifecycle s.phase taken (es ++ (pre ++ (s.endedWith o).closing now o))
      (resultOf s.phase o) where
  updates := by
    rw [updatesIn_append, updatesIn_append, h.updates, hpre, updatesIn_closing]
    rfl
  ofPhase := by
    intro e he
    cases o with
    | finished => cases he
    | componentFailure n => cases he; rfl
    | timeoutFailure => cases he; rfl
    | forceQuitFailure => cases he; rfl
  failed := by
    intro n hn
    cases o with
    | componentFailure m => cases hn; exact hfailed _ rfl
    | _ => cases hn
  refused := by
    intro e he
    cases o with
    | _ => cases he
  calm := by
    intro hr
    cases o with
    | finished =>
        obtain ⟨hq, hf⟩ := hcalm rfl
        refine ⟨?_, hf⟩
        rw [← List.append_assoc, List.mem_append]
        rintro (hm | hm)
        · exact hq hm
        · exact signalFired_notMem_closing _ _ _ hm
    | _ => cases hr
  fired := by
    intro hr
    rw [← List.append_assoc]
    refine List.mem_append_left _ (hfired ?_)
    cases o with
    | finished => rcases hr with hr | hr <;> cases hr
    | componentFailure n => rcases hr with hr | hr <;> cases hr
    | timeoutFailure => exact Or.inl rfl
    | forceQuitFailure => exact Or.inr rfl

theorem Underway.closed (h : s.Underway taken es) (now : Nat) :
    Lifecycle s.phase taken (es ++ (s.apply now .closed).1)
      (resultOf s.phase s.run.closingOutcome) := by
  rw [apply_closed h.outcome?]
  refine h.close [] now rfl ?_ ?_ ?_
  · intro n hn
    rw [PhaseRun.closingOutcome] at hn
    split at hn
    · cases hn
      exact ⟨h.failed, ‹_›⟩
    · split at hn <;> cases hn
  · intro ho
    rw [PhaseRun.closingOutcome] at ho
    split at ho
    · cases ho
    · split at ho
      · cases ho
      · rw [List.append_nil, h.fired, ← h.failed]
        exact ⟨‹_›, by omega⟩
  · intro ho
    rw [List.append_nil, h.fired]
    rw [PhaseRun.closingOutcome] at ho
    split at ho
    · rcases ho with ho | ho <;> cases ho
    · split at ho
      · assumption
      · rcases ho with ho | ho <;> cases ho

theorem Underway.quit (h : s.Underway taken es) (now : Nat) :
    Lifecycle s.phase taken (es ++ (s.apply now .quitTimeout).1) (.error (.forceQuit s.phase)) := by
  rw [apply_quitTimeout h.outcome?]
  refine h.close s.lateCancel now (updatesIn_lateCancel s) ?_ ?_ ?_
  · intro n hn
    cases hn
  · intro ho
    cases ho
  · intro _
    rw [List.mem_append]
    rcases PhaseRun.state_of_outcome?_eq_none h.outcome? with hs | hs
    · refine Or.inr ?_
      rw [lateCancel, if_pos hs]
      simp
    · exact Or.inl (h.fired.mpr hs)

/-! ## Every look -/

/-- A look leaves a supervision under way or completes its lifecycle. -/
theorem Underway.look (h : s.Underway taken es) (hl : s.look g = some (es', s')) :
    s'.Underway (taken ++ s.received g) (es ++ es') ∨
      ∃ r, s'.result? = some r ∧
        Lifecycle s.phase (taken ++ s.received g) (es ++ es') r := by
  cases look_cases hl with
  | answered hs ha =>
      rw [received_eq_nil_of_starting hs, List.append_nil]
      exact Or.inl h.answered
  | refused e hs ha =>
      rw [received_eq_nil_of_starting hs, List.append_nil]
      exact Or.inr ⟨_, rfl, h.refuse hs e⟩
  | reported r hs hh =>
      rw [received_eq_singleton hs hh]
      exact Or.inl (h.reported hs g.now r)
  | closed hs hh =>
      rw [received_eq_nil_of_closed hh, List.append_nil]
      refine Or.inr ⟨_, ?_, h.closed g.now⟩
      rw [apply_closed h.outcome?]
      rfl
  | quit hi hq =>
      rw [received_eq_nil_of_idle hi, List.append_nil]
      refine Or.inr ⟨_, ?_, h.quit g.now⟩
      rw [apply_quitTimeout h.outcome?]
      rfl
  | cancel hi hq hr hc =>
      rw [received_eq_nil_of_idle hi, List.append_nil]
      exact Or.inl (h.cancel hr g.now)

/-- A look changes neither the phase nor the engine. -/
theorem frame_look (hl : s.look g = some (es', s')) (h : s.run.outcome? = none) :
    s'.phase = s.phase ∧ s'.engine = s.engine := by
  cases look_cases hl with
  | answered => exact ⟨rfl, rfl⟩
  | refused => exact ⟨rfl, rfl⟩
  | reported => rw [apply_report h]; exact ⟨rfl, rfl⟩
  | closed => rw [apply_closed h]; exact ⟨rfl, rfl⟩
  | quit => rw [apply_quitTimeout h]; exact ⟨rfl, rfl⟩
  | cancel _ _ hr => rw [apply_cancelTimeout hr]; exact ⟨rfl, rfl⟩

end Supervision

end Decommission
