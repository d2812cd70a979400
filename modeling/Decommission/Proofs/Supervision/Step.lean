import Decommission.Proofs.Events
import Decommission.Supervision

/-!
# What one look of a supervision can do

`Supervision.look_cases` lists everything a look can do, with the condition under
which it does it.  The inputs to the phase run have one equation each, for a run
that is not over.  Later proofs need neither `Supervision.look` nor
`PhaseRun.handle`.
-/

namespace Decommission

namespace PhaseRun

/-! ## Inputs of a run that is not over -/

/-- A run that is not over goes on, or winds down. -/
theorem state_of_outcome?_eq_none {r : PhaseRun} (h : r.outcome? = none) :
    r.state = .running ∨ r.state = .softCancelled := by
  rw [outcome?] at h
  cases hs : r.state with
  | running => exact Or.inl rfl
  | softCancelled => exact Or.inr rfl
  | ended o => rw [hs] at h; cases h

/-- The run after a report. -/
def noting (r : PhaseRun) (c : Report) : PhaseRun :=
  { r with failed := if c.isError then r.failed + 1 else r.failed
           statuses := r.statuses.record c }

theorem noting_failed (r : PhaseRun) (c : Report) :
    (r.noting c).failed = r.failed + [c].countP (·.status == .error) := by
  rw [List.countP_singleton]
  show (if c.status == .error then _ else _) = _
  split
  · rfl
  · rfl

variable {r : PhaseRun}

theorem handle_report (h : r.outcome? = none) (c : Report) :
    r.handle (.report c) = (r.noting c, [.forward c]) := by
  obtain ⟨phase, state, statuses, failed⟩ := r
  cases state with
  | running => rfl
  | softCancelled => rfl
  | ended o => cases h

theorem handle_closed (h : r.outcome? = none) :
    r.handle .closed = r.complete r.closingOutcome := by
  obtain ⟨phase, state, statuses, failed⟩ := r
  cases state with
  | running => rfl
  | softCancelled => rfl
  | ended o => cases h

theorem handle_cancelTimeout (h : r.state = .running) :
    r.handle .cancelTimeout = ({ r with state := .softCancelled }, [.cancel]) := by
  obtain ⟨phase, state, statuses, failed⟩ := r
  cases h
  rfl

/-- The hard timer asks the engine to wind down if the soft timer has not. -/
theorem handle_quitTimeout (h : r.outcome? = none) :
    r.handle .quitTimeout =
      ({ r with state := .ended .forceQuitFailure },
        (if r.state = .running then [.cancel] else []) ++ [.complete .forceQuitFailure]) := by
  obtain ⟨phase, state, statuses, failed⟩ := r
  cases state with
  | running => rfl
  | softCancelled => rfl
  | ended o => cases h

theorem state_of_awaitsCancelTimeout (h : r.awaitsCancelTimeout) : r.state = .running :=
  beq_iff_eq.mp h

end PhaseRun

namespace Supervision

variable {g : Glance} {s s' : Supervision} {es : List Event}

/-! ## Inputs of a supervision whose run is not over -/

/-- The supervision after its end. -/
def endedWith (s : Supervision) (o : Outcome) : Supervision :=
  { s with run := { s.run with state := .ended o }, stage := .ended (resultOf s.phase o) }

theorem apply_report (h : s.run.outcome? = none) (now : Nat) (r : Report) :
    s.apply now (.report r) =
      ([.note (.reported s.phase r.name r.status), .update (.ofReport s.phase r)],
        { s with run := s.run.noting r }) := by
  have hn : (s.run.noting r).outcome? = none := h
  rw [apply, PhaseRun.handle_report h]
  dsimp only
  rw [hn]
  rfl

theorem apply_closed (h : s.run.outcome? = none) (now : Nat) :
    s.apply now .closed =
      ((s.endedWith s.run.closingOutcome).closing now s.run.closingOutcome,
        s.endedWith s.run.closingOutcome) := by
  rw [apply, PhaseRun.handle_closed h]
  rfl

theorem apply_cancelTimeout (h : s.run.state = .running) (now : Nat) :
    s.apply now .cancelTimeout =
      ([.note (.cancelling s.phase), .signalFired],
        { s with run := { s.run with state := .softCancelled } }) := by
  rw [apply, PhaseRun.handle_cancelTimeout h]
  rfl

/-- What is done about the signal when the hard timer goes off. -/
def lateCancel (s : Supervision) : List Event :=
  if s.run.state = .running then [.note (.cancelling s.phase), .signalFired] else []

theorem apply_quitTimeout (h : s.run.outcome? = none) (now : Nat) :
    s.apply now .quitTimeout =
      (s.lateCancel ++ (s.endedWith .forceQuitFailure).closing now .forceQuitFailure,
        s.endedWith .forceQuitFailure) := by
  rw [apply, PhaseRun.handle_quitTimeout h]
  rw [lateCancel]
  rcases PhaseRun.state_of_outcome?_eq_none h with hs | hs
  · rw [hs]; rfl
  · rw [hs]; rfl

/-! ## What a look can do -/

/-- Whether the engine shows nothing new, so that the timers are looked at. -/
def Idle (g : Glance) (s : Supervision) : Prop :=
  s.stage = .starting ∧ g.answer = none ∨ s.stage = .watching ∧ g.head = .nothing

/-- What a look can do: the events, and the supervision afterwards. -/
inductive Looked (g : Glance) (s : Supervision) : List Event → Supervision → Prop
  | answered : s.stage = .starting → g.answer = some (.ok ()) →
      Looked g s [.answered s.engine] { s with stage := .watching }
  | refused (e : EngineError) : s.stage = .starting → g.answer = some (.error e) →
      Looked g s (s.refuse e).1 (s.refuse e).2
  | reported (r : Report) : s.stage = .watching → g.head = .report r →
      Looked g s (.received :: (s.apply g.now (.report r)).1) (s.apply g.now (.report r)).2
  | closed : s.stage = .watching → g.head = .closed →
      Looked g s (s.apply g.now .closed).1 (s.apply g.now .closed).2
  | quit : Idle g s → s.quitTick ≤ g.now →
      Looked g s (s.apply g.now .quitTimeout).1 (s.apply g.now .quitTimeout).2
  | cancel : Idle g s → g.now < s.quitTick → s.run.state = .running → s.cancelTick ≤ g.now →
      Looked g s (s.apply g.now .cancelTimeout).1 (s.apply g.now .cancelTimeout).2

/-- The timers are looked at, the hard one first. -/
theorem looked_of_lookAtTimers (hi : Idle g s) (h : s.lookAtTimers g.now = some (es, s')) :
    Looked g s es s' := by
  rw [lookAtTimers] at h
  by_cases hq : s.quitTick ≤ g.now
  · rw [if_pos hq, Option.some.injEq] at h
    have hl := Looked.quit hi hq
    rw [h] at hl
    exact hl
  · rw [if_neg hq] at h
    by_cases hc : (s.run.awaitsCancelTimeout && decide (s.cancelTick ≤ g.now)) = true
    · rw [if_pos hc, Option.some.injEq] at h
      rw [Bool.and_eq_true, decide_eq_true_iff] at hc
      have hl := Looked.cancel hi (Nat.lt_of_not_le hq)
        (PhaseRun.state_of_awaitsCancelTimeout hc.1) hc.2
      rw [h] at hl
      exact hl
    · rw [if_neg hc] at h
      cases h

/-- A look does one of the things listed. -/
theorem look_cases (h : s.look g = some (es, s')) : Looked g s es s' := by
  rw [look] at h
  cases hs : s.stage with
  | starting =>
      rw [hs] at h
      dsimp only at h
      cases ha : g.answer with
      | none =>
          rw [ha] at h
          exact looked_of_lookAtTimers (Or.inl ⟨hs, ha⟩) h
      | some a =>
          rw [ha] at h
          cases a with
          | ok _ => cases h; exact .answered hs ha
          | error e => cases h; exact .refused e hs ha
  | watching =>
      rw [hs] at h
      dsimp only at h
      cases hh : g.head with
      | report r =>
          rw [hh, Option.some.injEq] at h
          cases h
          exact .reported r hs hh
      | closed =>
          rw [hh] at h
          have hl := Looked.closed hs hh
          rw [Option.some.inj h] at hl
          exact hl
      | nothing =>
          rw [hh] at h
          exact looked_of_lookAtTimers (Or.inr ⟨hs, hh⟩) h
  | ended r => rw [hs] at h; cases h

/-- The report that is taken at a glance, if one is. -/
def received (g : Glance) (s : Supervision) : List Report :=
  match s.stage, g.head with
  | .watching, .report r => [r]
  | _, _ => []

theorem received_eq_nil_of_starting (h : s.stage = .starting) : s.received g = [] := by
  rw [received, h]

theorem received_eq_singleton {r : Report} (h : s.stage = .watching) (hg : g.head = .report r) :
    s.received g = [r] := by
  rw [received, h, hg]

theorem received_eq_nil_of_closed (h : g.head = .closed) : s.received g = [] := by
  rw [received, h]
  cases s.stage with
  | _ => rfl

theorem received_eq_nil_of_idle (h : Idle g s) : s.received g = [] := by
  rcases h with ⟨hs, _⟩ | ⟨hs, hh⟩
  · exact received_eq_nil_of_starting hs
  · rw [received, hs, hh]

theorem received_notMem_closing (s : Supervision) (now : Nat) (o : Outcome) :
    .received ∉ s.closing now o := by
  simp [closing]

/-- A look takes the report it finds, before all else, or takes none. -/
theorem look_received (h : s.look g = some (es, s')) (hr : s.run.outcome? = none) :
    (∃ r rest, g.head = .report r ∧ s.received g = [r] ∧ es = .received :: rest ∧
      .received ∉ rest) ∨ s.received g = [] ∧ .received ∉ es := by
  cases look_cases h with
  | answered hs ha => exact Or.inr ⟨received_eq_nil_of_starting hs, by simp⟩
  | refused e hs ha => exact Or.inr ⟨received_eq_nil_of_starting hs, by simp [refuse]⟩
  | reported r hs hh =>
      refine Or.inl ⟨r, _, hh, received_eq_singleton hs hh, rfl, ?_⟩
      rw [apply_report hr]
      simp
  | closed hs hh =>
      refine Or.inr ⟨received_eq_nil_of_closed hh, ?_⟩
      rw [apply_closed hr]
      exact received_notMem_closing _ _ _
  | quit hi hq =>
      refine Or.inr ⟨received_eq_nil_of_idle hi, ?_⟩
      rw [apply_quitTimeout hr, List.mem_append]
      rintro (hm | hm)
      · rw [lateCancel] at hm
        split at hm <;> simp at hm
      · exact received_notMem_closing _ _ _ hm
  | cancel hi hq hs hc =>
      refine Or.inr ⟨received_eq_nil_of_idle hi, ?_⟩
      rw [apply_cancelTimeout hs]
      simp

/-- A supervision that has ended looks no more. -/
theorem result?_of_look (h : s.look g = some (es, s')) : s.result? = none := by
  rw [result?]
  cases hs : s.stage with
  | ended r => rw [look, hs] at h; cases h
  | _ => rfl

/-- A run that ends well has seen no failure and was not winding down. -/
theorem closingOutcome_of_ok {phase : Phase} {r : PhaseRun}
    (h : resultOf phase r.closingOutcome = .ok ()) :
    r.failed = 0 ∧ r.state ≠ .softCancelled := by
  rw [PhaseRun.closingOutcome] at h
  split at h
  · cases h
  · split at h
    · cases h
    · exact ⟨by omega, ‹_›⟩

/-- Only the end of the stream ends a supervision without an error. -/
theorem closed_of_ok (h : s.look g = some (es, s')) (hu : s.run.outcome? = none)
    (hr : s'.result? = some (.ok ())) :
    s.stage = .watching ∧ g.head = .closed ∧
      es = (s.endedWith s.run.closingOutcome).closing g.now s.run.closingOutcome ∧
      resultOf s.phase s.run.closingOutcome = .ok () := by
  have hnone := result?_of_look h
  cases look_cases h with
  | answered => cases hr
  | refused => cases hr
  | reported r =>
      rw [apply_report hu] at hr
      rw [show s.result? = some (.ok ()) from hr] at hnone
      cases hnone
  | closed hs hh =>
      rw [apply_closed hu] at hr ⊢
      exact ⟨hs, hh, rfl, Option.some.inj hr⟩
  | quit =>
      rw [apply_quitTimeout hu] at hr
      cases hr
  | cancel _ _ hrun =>
      rw [apply_cancelTimeout hrun] at hr
      rw [show s.result? = some (.ok ()) from hr] at hnone
      cases hnone

end Supervision

end Decommission
