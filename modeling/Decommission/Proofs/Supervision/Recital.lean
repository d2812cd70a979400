import Decommission.Proofs.Course.Clocked
import Decommission.Proofs.Supervision.Lifecycle

/-!
# Supervised scripts

How a supervision goes on while its engine plays a script.  A `Recital` is what stays the
same meanwhile, and `Recital.Scene` is how things stand: the time, whether the engine has
been asked to wind down, how far the script has been played, the reports on the stream, and
the reports passed on with their times.

A scene says what the next look of the supervision is (`Scene.sight`), what an action of the
engine is (`Scene.acted`), and until when nobody moves (`Scene.resting`, `Scene.alarm?`).
-/

namespace Decommission

namespace Supervision

/-! ## The end of a phase run at a site -/

theorem calm_of_closing (s : Supervision) (now : Nat) (o : Outcome) {e : Event}
    (he : e ∈ s.closing now o) : e.movesSignals = false ∧ e.isAnswer = false := by
  rw [closing] at he
  rcases List.mem_append.mp he with hm | hm
  · rcases List.mem_cons.mp hm with rfl | hm
    · exact ⟨rfl, rfl⟩
    · obtain ⟨n, _, rfl⟩ := List.mem_map.mp hm
      exact ⟨rfl, rfl⟩
  · rw [List.mem_singleton.mp hm]
    exact ⟨rfl, rfl⟩

/-- The end is announced.  It takes no time and leaves the signal as it is. -/
theorem performAll_closing (site : Site) (s : Supervision) (now : Nat) (o : Outcome) :
    (site.performAll (s.closing now o)).now = site.now ∧
      (site.performAll (s.closing now o)).isFired = site.isFired ∧
      (site.performAll (s.closing now o)).history.updates =
        site.history.updates ++ [(site.now, .ending s.phase (resultOf s.phase o))] := by
  refine ⟨(Site.ground_performAll ..).2, ?_, ?_⟩
  · exact (Site.isFired_of_signals (Site.signals_performAll fun e he =>
      (calm_of_closing s now o he).1)).2
  · rw [Site.updates_performAll fun e he => (calm_of_closing s now o he).2, updatesIn_closing]
    rfl

/-- The engine is asked to wind down. -/
theorem performAll_cancelling {site : Site} (hmade : 0 < site.signals.next) (phase : Phase) :
    0 < (site.performAll [.note (.cancelling phase), .signalFired]).signals.next ∧
      (site.performAll [.note (.cancelling phase), .signalFired]).signal = site.signal ∧
      (site.performAll [.note (.cancelling phase), .signalFired]).isFired ∧
      (site.performAll [.note (.cancelling phase), .signalFired]).history.updates =
        site.history.updates := by
  have hsignals : (site.performAll [.note (.cancelling phase), .signalFired]).signals =
      site.signals.fire site.signal := rfl
  obtain ⟨hmade', hsame, hfired⟩ := Site.isFired_of_fire hmade hsignals
  refine ⟨hmade', hsame, hfired, ?_⟩
  rw [Site.updates_performAll (by simp [Event.isAnswer])]
  exact List.append_nil _

/-- When the hard timer goes off the signal is fired, unless it had been before. -/
theorem performAll_lateCancel {site : Site} {s : Supervision} (hu : s.run.outcome? = none)
    (hmade : 0 < site.signals.next) (hfired : s.run.state = .softCancelled → site.isFired) :
    (site.performAll s.lateCancel).isFired ∧
      (site.performAll s.lateCancel).history.updates = site.history.updates := by
  rw [lateCancel]
  rcases PhaseRun.state_of_outcome?_eq_none hu with hs | hs
  · rw [if_pos hs]
    exact (performAll_cancelling hmade s.phase).2.2
  · rw [hs, if_neg (by decide)]
    exact ⟨hfired hs, rfl⟩

/-! ## Looks of a supervision that is watching -/

variable {g : Glance} {s : Supervision}

theorem look_of_answer (hs : s.stage = .starting) (ha : g.answer = some (.ok ())) :
    s.look g = some ([.answered s.engine], { s with stage := .watching }) := by
  rw [look, hs, ha]

theorem look_of_report (hs : s.stage = .watching) (hu : s.run.outcome? = none) {r : Report}
    (hh : g.head = .report r) :
    s.look g = some ([.received, .note (.reported s.phase r.name r.status),
      .update (.ofReport s.phase r)], { s with run := s.run.noting r }) := by
  obtain ⟨run, engine, startedAt, budget, stage⟩ := s
  cases hs
  rw [look, hh]
  dsimp only
  rw [apply_report hu]

theorem look_of_closed (hs : s.stage = .watching) (hu : s.run.outcome? = none)
    (hh : g.head = .closed) :
    s.look g = some ((s.endedWith s.run.closingOutcome).closing g.now s.run.closingOutcome,
      s.endedWith s.run.closingOutcome) := by
  rw [look, hs, hh]
  dsimp only
  rw [apply_closed hu]

theorem look_of_nothing (hs : s.stage = .watching) (hh : g.head = .nothing) :
    s.look g = s.lookAtTimers g.now := by
  rw [look, hs, hh]

theorem lookAtTimers_of_quit {now : Nat} (hu : s.run.outcome? = none) (hq : s.quitTick ≤ now) :
    s.lookAtTimers now =
      some (s.lateCancel ++ (s.endedWith .forceQuitFailure).closing now .forceQuitFailure,
        s.endedWith .forceQuitFailure) := by
  rw [lookAtTimers, if_pos hq, apply_quitTimeout hu]

theorem lookAtTimers_of_cancel {now : Nat} (hr : s.run.state = .running)
    (hq : now < s.quitTick) (hc : s.cancelTick ≤ now) :
    s.lookAtTimers now = some ([.note (.cancelling s.phase), .signalFired],
      { s with run := { s.run with state := .softCancelled } }) := by
  have hawaits : s.run.awaitsCancelTimeout := beq_iff_eq.mpr hr
  rw [lookAtTimers, if_neg (Nat.not_le.mpr hq), hawaits, Bool.true_and, if_pos (decide_eq_true hc),
    apply_cancelTimeout hr]

theorem lookAtTimers_eq_none {now : Nat} (hq : now < s.quitTick)
    (hc : s.run.state = .running → now < s.cancelTick) : s.lookAtTimers now = none := by
  rw [lookAtTimers, if_neg (Nat.not_le.mpr hq), if_neg]
  rw [Bool.and_eq_true, decide_eq_true_eq, not_and, Nat.not_le]
  exact fun hawaits => hc (PhaseRun.state_of_awaitsCancelTimeout hawaits)

/-- What stays the same while a script is played under supervision. -/
structure Recital where
  phase : Phase
  engine : Nat
  budget : Budget
  start : Nat
  script : Script
  /-- What had been told before the first report. -/
  before : List (Nat × Update)
  /-- When the soft timer goes off. -/
  cancel : Nat
  /-- When the hard timer goes off. -/
  quit : Nat
  cancel_eq : tickAfter start budget.cancel = cancel
  quit_eq : tickAfter start budget.quit = quit

namespace Recital

variable {z : Recital}

/-- The reports passed on, as they are told. -/
def telling (z : Recital) (passed : List (Nat × Report)) : List (Nat × Update) :=
  passed.map fun (time, r) => (time, ⟨.running, z.phase, some r, none⟩)

/-- The number of failures among reports. -/
def failures (reports : List (Nat × Report)) : Nat :=
  reports.countP fun e => e.2.status == .error

/-- The reports that are still to be sent at a stage. -/
def ahead : Playback.Stage → Nat
  | .between rest => rest.length
  | .delaying _ _ rest => rest.length + 1
  | _ => 0

/-- The supervision in a scene. -/
def supervision (z : Recital) (soft : Bool) (statuses : StatusMap) (failed : Nat) :
    Supervision where
  run := { phase := z.phase, state := if soft then .softCancelled else .running, statuses, failed }
  engine := z.engine
  startedAt := z.start
  budget := z.budget
  stage := .watching

/-- What is in front of the stream. -/
def front (stage : Playback.Stage) : List Report → Head
  | r :: _ => .report r
  | [] => if stage = .ended then .closed else .nothing

/-- How things stand while the script is played. -/
structure Scene (z : Recital) (now : Nat) (soft : Bool) (stage : Playback.Stage)
    (waiting : List Report) (passed : List (Nat × Report)) (c : Course Supervision) : Prop where
  director : ∃ statuses, c.director = z.supervision soft statuses (failures passed)
  now : c.site.now = now
  /-- There is room for all reports that are still to be sent. -/
  runs : ∃ capacity taken, waiting.length + ahead stage ≤ capacity ∧
    c.site.runs = [⟨z.engine, c.site.signal,
      .script ⟨z.script, stage, { capacity, taken, waiting }⟩⟩]
  reading : c.site.reading = some 0
  launch : c.site.launch = none
  made : 0 < c.site.signals.next
  fired : c.site.isFired = soft
  told : c.site.history.updates = z.before ++ z.telling passed

/-- How things stand at the end. -/
structure Finale (z : Recital) (now : Nat) (fired : Bool) (passed : List (Nat × Report))
    (r : Except PhaseError Unit) (c : Course Supervision) : Prop where
  result? : c.director.result? = some r
  now : c.site.now = now
  fired : c.site.isFired = fired
  told : c.site.history.updates =
    z.before ++ z.telling passed ++ [(c.site.now, .ending z.phase r)]

variable {now : Nat} {soft : Bool} {stage : Playback.Stage} {waiting : List Report}
  {passed : List (Nat × Report)} {c : Course Supervision}

theorem telling_append (z : Recital) (passed later : List (Nat × Report)) :
    z.telling (passed ++ later) = z.telling passed ++ z.telling later := List.map_append

theorem failures_concat (passed : List (Nat × Report)) (now : Nat) (r : Report) :
    failures (passed ++ [(now, r)]) =
      if r.status == .error then failures passed + 1 else failures passed := by
  rw [failures, List.countP_append, List.countP_singleton]
  dsimp only
  split
  · rfl
  · rfl

theorem outcome?_supervision (z : Recital) (soft : Bool) (statuses : StatusMap) (failed : Nat) :
    (z.supervision soft statuses failed).run.outcome? = none := by
  cases soft with
  | _ => rfl

/-- The parts of a scene. -/
theorem Scene.parts (h : Scene z now soft stage waiting passed c) :
    ∃ statuses capacity taken engines clock signals history,
      waiting.length + ahead stage ≤ capacity ∧
      c = ⟨z.supervision soft statuses (failures passed),
        { engines, now, clock, signals, history
          runs := [⟨z.engine, signals.next - 1,
            .script ⟨z.script, stage, { capacity, taken, waiting }⟩⟩]
          reading := some 0 }⟩ := by
  obtain ⟨director, engines, now', clock, signals, runs, launch, reading, history⟩ := c
  obtain ⟨statuses, hdirector⟩ := h.director
  obtain ⟨capacity, taken, room, hruns⟩ := h.runs
  have hnow := h.now
  have hreading := h.reading
  have hlaunch := h.launch
  dsimp only [Site.signal] at hdirector hnow hruns hreading hlaunch
  subst hdirector hnow hruns hreading hlaunch
  exact ⟨statuses, capacity, taken, engines, clock, signals, history, room, rfl⟩

/-! ## Steps of the supervision -/

theorem Scene.head (h : Scene z now soft stage waiting passed c) :
    c.site.glance.head = front stage waiting := by
  obtain ⟨capacity, taken, _, hruns⟩ := h.runs
  rw [Site.glance, Site.head, h.reading, hruns]
  cases waiting with
  | nil => cases stage with
    | _ => rfl
  | cons r rest => rfl

/-- A report on the stream is passed on before anything else. -/
theorem Scene.take {r : Report} (h : Scene z now soft stage (r :: waiting) passed c) :
    ∃ c', c.direct? = some c' ∧ Scene z now soft stage waiting (passed ++ [(now, r)]) c' := by
  have hhead := h.head
  obtain ⟨statuses, capacity, taken, engines, clock, signals, history, room, rfl⟩ := h.parts
  have hopen := outcome?_supervision z soft statuses (failures passed)
  refine ⟨_, Course.direct?_eq_some_iff.mpr
    ⟨_, _, look_of_report rfl hopen hhead, rfl⟩, ?_⟩
  refine ⟨⟨statuses.record r, ?_⟩, rfl, ⟨capacity, taken ++ [r], ?_, rfl⟩, rfl, rfl, h.made, h.fired, ?_⟩
  · rw [failures_concat]
    rfl
  · exact Nat.le_trans (Nat.add_le_add_right (Nat.le_succ _) _) room
  · rw [telling_append, ← List.append_assoc, ← h.told]
    refine Site.updates_performAll ?_
    simp [Event.isAnswer]

/-- The supervision has nothing to do but wait. -/
theorem Scene.direct? (h : Scene z now soft stage [] passed c) (hopen : stage ≠ .ended)
    (hquit : now < z.quit) (hcancel : soft = false → now < z.cancel) : c.direct? = none := by
  have hhead := h.head
  rw [front, if_neg hopen] at hhead
  obtain ⟨statuses, capacity, taken, engines, clock, signals, history, room, rfl⟩ := h.parts
  rw [← z.quit_eq] at hquit
  rw [← z.cancel_eq] at hcancel
  refine Course.direct?_eq_none_iff.mpr
    ((look_of_nothing rfl hhead).trans (lookAtTimers_eq_none hquit fun hr => ?_))
  cases soft with
  | false => exact hcancel rfl
  | true => cases hr

/-- The soft timer asks the engine to wind down. -/
theorem Scene.cancel (h : Scene z now false stage [] passed c) (hopen : stage ≠ .ended)
    (hquit : now < z.quit) (hcancel : z.cancel ≤ now) :
    ∃ c', c.direct? = some c' ∧ Scene z now true stage [] passed c' := by
  have hhead := h.head
  rw [front, if_neg hopen] at hhead
  have hmade := h.made
  obtain ⟨statuses, capacity, taken, engines, clock, signals, history, room, rfl⟩ := h.parts
  rw [← z.quit_eq] at hquit
  rw [← z.cancel_eq] at hcancel
  have hlook := lookAtTimers_of_cancel (s := z.supervision false statuses (failures passed)) rfl
    hquit hcancel
  refine ⟨_, Course.direct?_eq_some_iff.mpr
    ⟨_, _, (look_of_nothing rfl hhead).trans hlook, rfl⟩, ?_⟩
  obtain ⟨made', same, fired', told'⟩ := performAll_cancelling hmade z.phase
  refine ⟨⟨statuses, rfl⟩, rfl, ⟨capacity, taken, room, ?_⟩, rfl, rfl, made', fired',
    told'.trans h.told⟩
  exact congrArg (fun signal => [(⟨z.engine, signal, _⟩ : Run)]) same.symm

/-- The engine has closed its stream. -/
theorem Scene.closed (h : Scene z now soft .ended [] passed c) :
    ∃ c', c.direct? = some c' ∧ Finale z now soft passed
      (if 0 < failures passed then .error (.componentFailure z.phase (failures passed))
        else if soft then .error (.timeout z.phase) else .ok ()) c' := by
  have hhead := h.head
  obtain ⟨statuses, capacity, taken, engines, clock, signals, history, room, rfl⟩ := h.parts
  have hopen := outcome?_supervision z soft statuses (failures passed)
  have hresult : resultOf z.phase (z.supervision soft statuses (failures passed)).run.closingOutcome =
      if 0 < failures passed then .error (.componentFailure z.phase (failures passed))
        else if soft then .error (.timeout z.phase) else .ok () := by
    rw [PhaseRun.closingOutcome]
    show resultOf z.phase (if 0 < failures passed then _ else _) = _
    split
    · rfl
    · cases soft with
      | _ => rfl
  refine ⟨_, Course.direct?_eq_some_iff.mpr
    ⟨_, _, look_of_closed rfl hopen hhead, rfl⟩, ?_⟩
  obtain ⟨hnow, hfired, htold⟩ := performAll_closing _ _ _ _
  refine ⟨?_, hnow, hfired.trans h.fired, htold.trans ?_⟩
  · rw [← hresult]
    rfl
  · rw [h.told, ← hresult, hnow]
    rfl

/-- The hard timer goes off. -/
theorem Scene.quit (h : Scene z now soft stage [] passed c) (hopen : stage ≠ .ended)
    (hquit : z.quit ≤ now) :
    ∃ c', c.direct? = some c' ∧ Finale z now true passed (.error (.forceQuit z.phase)) c' := by
  have hhead := h.head
  rw [front, if_neg hopen] at hhead
  have hmade := h.made
  have hfired := h.fired
  obtain ⟨statuses, capacity, taken, engines, clock, signals, history, room, rfl⟩ := h.parts
  have hopen := outcome?_supervision z soft statuses (failures passed)
  rw [← z.quit_eq] at hquit
  have hlook := lookAtTimers_of_quit hopen hquit
  refine ⟨_, Course.direct?_eq_some_iff.mpr
    ⟨_, _, (look_of_nothing rfl hhead).trans hlook, rfl⟩, ?_⟩
  rw [Site.performAll_append]
  obtain ⟨hlate, hsame⟩ := performAll_lateCancel hopen hmade fun hs => by
    cases soft with
    | false => cases hs
    | true => exact hfired
  obtain ⟨hnow, hkept, htold⟩ := performAll_closing (Site.performAll _ _) _ _ _
  have hlast : ∀ (s : Site) (es fs : List Event), ((s.performAll es).performAll fs).now = s.now :=
    fun s es fs => (Site.ground_performAll ..).2.trans (Site.ground_performAll ..).2
  refine ⟨rfl, hlast _ _ _, hkept.trans hlate, htold.trans ?_⟩
  rw [hsame, h.told, hnow]
  rfl

/-- What a look comes to in a scene. -/
inductive Sight (z : Recital) (now : Nat) (soft : Bool) (stage : Playback.Stage)
    (waiting : List Report) (passed : List (Nat × Report)) (c : Course Supervision) : Prop
  | report (r : Report) (rest : List Report) (hw : waiting = r :: rest) (c' : Course Supervision)
      (hd : c.direct? = some c') (h : Scene z now soft stage rest (passed ++ [(now, r)]) c')
  | closed (hw : waiting = []) (hs : stage = .ended) (c' : Course Supervision)
      (hd : c.direct? = some c')
      (h : Finale z now soft passed
        (if 0 < failures passed then .error (.componentFailure z.phase (failures passed))
          else if soft then .error (.timeout z.phase) else .ok ()) c')
  | quit (hw : waiting = []) (hs : stage ≠ .ended) (hq : z.quit ≤ now) (c' : Course Supervision)
      (hd : c.direct? = some c') (h : Finale z now true passed (.error (.forceQuit z.phase)) c')
  | cancel (hw : waiting = []) (hs : stage ≠ .ended) (hq : now < z.quit) (hsoft : soft = false)
      (hc : z.cancel ≤ now) (c' : Course Supervision)
      (hd : c.direct? = some c') (h : Scene z now true stage [] passed c')
  /-- There is nothing to do but wait. -/
  | nothing (hw : waiting = []) (hs : stage ≠ .ended) (hq : now < z.quit)
      (hc : soft = false → now < z.cancel) (hd : c.direct? = none)

theorem Scene.sight (h : Scene z now soft stage waiting passed c) :
    Sight z now soft stage waiting passed c := by
  cases waiting with
  | cons r rest =>
      obtain ⟨c', hd, h'⟩ := h.take
      exact .report r rest rfl c' hd h'
  | nil =>
      by_cases hs : stage = .ended
      · subst hs
        obtain ⟨c', hd, h'⟩ := h.closed
        exact .closed rfl rfl c' hd h'
      · rcases Nat.lt_or_ge now z.quit with hq | hq
        · by_cases hc : soft = false ∧ z.cancel ≤ now
          · obtain ⟨rfl, hc⟩ := hc
            obtain ⟨c', hd, h'⟩ := h.cancel hs hq hc
            exact .cancel rfl hs hq rfl hc c' hd h'
          · have hearly : soft = false → now < z.cancel :=
              fun hsoft => Nat.lt_of_not_le fun hle => hc ⟨hsoft, hle⟩
            exact .nothing rfl hs hq hearly (h.direct? hs hq hearly)
        · obtain ⟨c', hd, h'⟩ := h.quit hs hq
          exact .quit rfl hs hq c' hd h'

/-! ## Actions of the engine -/

/-- Whether the engine notices the signal before its last report. -/
def heeds (z : Recital) : Bool := !z.script.ignoresCancel

/-- What the engine does after its last report. -/
def afterLast (z : Recital) : Playback.Stage :=
  match z.script.after with
  | .close => .ended
  | .untilCancelled => .awaiting
  | .hang => .hung

/-- An action of the engine at its time, and what it does to the stage and the reports on
the stream. -/
inductive Moved (z : Recital) (now : Nat) (soft : Bool) :
    Playback.Stage → List Report → Playback.Stage → List Report → Prop
  | delay (s : Step) (rest : List Step) (waiting : List Report) :
      Moved z now soft (.between (s :: rest)) waiting
        (.delaying (tickAfter now s.delay) s.report rest) waiting
  | send {due : Nat} (r : Report) (rest : List Step) (waiting : List Report) (h : due ≤ now) :
      Moved z now soft (.delaying due r rest) waiting (.between rest) (waiting ++ [r])
  | heed (due : Nat) (r : Report) (rest : List Step) (waiting : List Report) (hs : soft)
      (hz : z.heeds) :
      Moved z now soft (.delaying due r rest) waiting
        (.winding (tickAfter now z.script.closeDelay)) waiting
  | settle (waiting : List Report) : Moved z now soft (.between []) waiting z.afterLast waiting
  | wake (waiting : List Report) (hs : soft) :
      Moved z now soft .awaiting waiting (.winding (tickAfter now z.script.closeDelay)) waiting
  | finish {due : Nat} (waiting : List Report) (h : due ≤ now) :
      Moved z now soft (.winding due) waiting .ended waiting

/-- A bound on the actions at a stage. -/
def movesAt (z : Recital) (stage : Playback.Stage) : Nat :=
  Playback.moves ⟨z.script, stage, .sized 0⟩

/-- The next time at which the engine has to be looked at. -/
def alarmAt (z : Recital) (stage : Playback.Stage) : Option Nat :=
  Playback.alarm? ⟨z.script, stage, .sized 0⟩

variable {stage' : Playback.Stage} {waiting' : List Report}

theorem Moved.movesAt_lt (h : Moved z now soft stage waiting stage' waiting') :
    z.movesAt stage' < z.movesAt stage := by
  cases h with
  | delay s rest => simp only [movesAt, Playback.moves, List.length_cons]; omega
  | send r rest => simp only [movesAt, Playback.moves]; omega
  | heed r rest => simp only [movesAt, Playback.moves]; omega
  | settle =>
      rw [afterLast]
      cases z.script.after with
      | _ => simp [movesAt, Playback.moves]
  | wake => simp [movesAt, Playback.moves]
  | finish => simp [movesAt, Playback.moves]

/-- An action sends one report at most. -/
theorem Moved.length_le (h : Moved z now soft stage waiting stage' waiting') :
    waiting'.length ≤ waiting.length + 1 := by
  cases h with
  | send r rest => exact Nat.le_of_eq List.length_append
  | _ => exact Nat.le_succ _

/-- A report that is sent is not ahead any more. -/
theorem Moved.room (h : Moved z now soft stage waiting stage' waiting') :
    waiting'.length + ahead stage' ≤ waiting.length + ahead stage := by
  cases h with
  | send r rest =>
      rw [List.length_append, List.length_singleton, ahead, ahead]
      omega
  | settle =>
      refine Nat.add_le_add_left (Nat.le_of_eq ?_) _
      rw [afterLast]
      cases z.script.after with
      | _ => rfl
  | _ => simp [ahead]

/-- What an action at its time does while there is room on the stream. -/
theorem moved_of_step {capacity : Nat} {taken : List Report} {x : Playback.Action}
    {p : Playback} (room : waiting.length + ahead stage ≤ capacity)
    (hs : Playback.step soft ⟨z.script, stage, { capacity, taken, waiting }⟩ x = some p)
    (ht : x.isTimely now ⟨z.script, stage, { capacity, taken, waiting }⟩) :
    ∃ stage' waiting', Moved z now soft stage waiting stage' waiting' ∧
      p = ⟨z.script, stage', { capacity, taken, waiting := waiting' }⟩ := by
  cases x with
  | delay due =>
      simp only [Playback.step] at hs
      split at hs
      · rename_i s rest
        cases hs
        have hdue : due = tickAfter now s.delay := eq_of_beq ht
        exact ⟨_, _, hdue ▸ .delay s rest waiting, rfl⟩
      · cases hs
  | send =>
      simp only [Playback.step] at hs
      split at hs
      · rename_i due r rest
        have hready : waiting.length < capacity := by
          rw [ahead] at room
          omega
        simp only [Bool.not_true, Bool.false_eq_true, if_false, Stream.isReady, Bool.false_or,
          decide_eq_true hready, if_true] at hs
        cases hs
        exact ⟨_, _, .send r rest waiting (of_decide_eq_true ht), rfl⟩
      · cases hs
  | heed due =>
      have hdue : due = tickAfter now z.script.closeDelay := eq_of_beq ht
      simp only [Playback.step] at hs
      split at hs
      · rename_i due' r rest
        split at hs
        · rename_i hheeds
          rw [Bool.and_eq_true] at hheeds
          cases hs
          exact ⟨_, _, hdue ▸ .heed due' r rest waiting hheeds.1 hheeds.2, rfl⟩
        · cases hs
      · split at hs
        · cases hs
          exact ⟨_, _, hdue ▸ .wake waiting ‹_›, rfl⟩
        · cases hs
      · cases hs
  | settle =>
      simp only [Playback.step] at hs
      split at hs
      · cases hs
        exact ⟨_, _, .settle waiting, rfl⟩
      · cases hs
  | finish =>
      simp only [Playback.step] at hs
      split at hs
      · cases hs
        exact ⟨_, _, .finish waiting (of_decide_eq_true ht), rfl⟩
      · cases hs

/-- An action of the engine at its site. -/
theorem Scene.acted (h : Scene z now soft stage waiting passed c) {i : Nat} {a : Work.Action}
    {site : Site} (ht : c.site.isTimely i a) (ha : c.site.act? i a = some site) :
    ∃ stage' waiting', Moved z now soft stage waiting stage' waiting' ∧
      Scene z now soft stage' waiting' passed { c with site } := by
  obtain ⟨capacity, taken, room, hruns⟩ := h.runs
  obtain ⟨r, es, w, hr, hact, rfl⟩ := Site.act?_eq_some_iff.mp ha
  rw [Site.isTimely, hr] at ht
  rw [hruns] at hr
  obtain ⟨rfl, rfl⟩ : i = 0 ∧ r = _ := by
    cases i with
    | zero => exact ⟨rfl, (Option.some.inj hr).symm⟩
    | succ i => cases hr
  rw [show c.site.signals.isFired c.site.signal = soft from h.fired] at hact
  cases a with
  | pool x => cases hact
  | play x =>
      obtain ⟨p, hp, heq⟩ := Option.map_eq_some_iff.mp hact
      cases heq
      obtain ⟨stage', waiting', hm, rfl⟩ := moved_of_step room hp (h.now ▸ ht)
      refine ⟨stage', waiting', hm, h.director, h.now,
        ⟨capacity, taken, Nat.le_trans hm.room room, ?_⟩, h.reading, h.launch, h.made, h.fired, ?_⟩
      · exact congrArg (List.set · 0 _) hruns
      · show History.updates (c.site.history ++ (Playback.events x).map _) = _
        have hquiet : updatesIn (Playback.events x) = [] := by
          cases x with
          | _ => rfl
        rw [History.updates_append, History.updates_entries, hquiet, List.map_nil, List.append_nil]
        exact h.told

/-! ## Waiting -/

/-- The engine has to wait. -/
inductive Resting (z : Recital) (now : Nat) (soft : Bool) : Playback.Stage → Prop
  | delaying {due : Nat} (r : Report) (rest : List Step) (h : now < due)
      (hs : soft → z.heeds = false) : Resting z now soft (.delaying due r rest)
  | awaiting (hs : soft = false) : Resting z now soft .awaiting
  | winding {due : Nat} (h : now < due) : Resting z now soft (.winding due)
  | hung : Resting z now soft .hung
  | ended : Resting z now soft .ended

/-- An engine that has room on its stream has to wait where there is nothing to choose. -/
theorem resting_of_next? {capacity : Nat} {taken : List Report}
    (room : waiting.length + ahead stage ≤ capacity)
    (hn : Playback.next? now soft ⟨z.script, stage, { capacity, taken, waiting }⟩ = none) :
    Resting z now soft stage := by
  cases stage with
  | between rest =>
      cases rest with
      | _ => cases hn
  | delaying due r rest =>
      have hready : waiting.length < capacity := by
        rw [ahead] at room
        omega
      simp only [Playback.next?, Stream.isReady, decide_eq_true hready, Bool.or_true, if_true] at hn
      split at hn
      · cases hn
      · split at hn
        · cases hn
        · rename_i hdue hheeds
          refine .delaying r rest (Nat.lt_of_not_le hdue) fun hs => ?_
          rw [hs, Bool.true_and] at hheeds
          exact Bool.eq_false_iff.mpr hheeds
  | awaiting =>
      simp only [Playback.next?] at hn
      split at hn
      · cases hn
      · exact .awaiting (Bool.eq_false_iff.mpr ‹_›)
  | winding due =>
      simp only [Playback.next?] at hn
      split at hn
      · cases hn
      · exact .winding (Nat.lt_of_not_le ‹_›)
  | hung => exact .hung
  | ended => exact .ended

theorem Scene.resting (h : Scene z now soft stage waiting passed c) (hw : c.site.work? = none) :
    Resting z now soft stage := by
  obtain ⟨capacity, taken, room, hruns⟩ := h.runs
  have hturn : Work.turn? now soft (.script ⟨z.script, stage, { capacity, taken, waiting }⟩) =
      none := by
    rw [Site.work?, hruns, Site.firstTurn?, Site.runTurn?, h.now,
      show c.site.signals.isFired c.site.signal = soft from h.fired] at hw
    dsimp only at hw
    generalize Work.turn? .. = turn at hw ⊢
    cases turn with
    | none => rfl
    | some l => cases hw
  exact resting_of_next? room (Option.map_eq_none_iff.mp (Work.next?_of_turn?_eq_none hturn))

/-- When the supervision has to look again. -/
def nextTimer (z : Recital) (soft : Bool) : Nat := if soft then z.quit else min z.quit z.cancel

theorem alarm?_supervision (z : Recital) (soft : Bool) (statuses : StatusMap) (failed : Nat) :
    (z.supervision soft statuses failed).alarm? = some (z.nextTimer soft) := by
  have hcancel : (z.supervision soft statuses failed).cancelTick = z.cancel := z.cancel_eq
  have hquit : (z.supervision soft statuses failed).quitTick = z.quit := z.quit_eq
  have hstage : (z.supervision soft statuses failed).stage = .watching := rfl
  have hawaits : (z.supervision soft statuses failed).run.awaitsCancelTimeout = !soft := by
    cases soft with
    | _ => rfl
  rw [Supervision.alarm?, hstage, hawaits, hcancel, hquit, nextTimer]
  cases soft with
  | false => simp only [Bool.not_false, if_true, Bool.false_eq_true, if_false]
  | true => simp only [Bool.not_true, if_true, Bool.false_eq_true, if_false]

theorem Scene.alarm? (h : Scene z now soft stage waiting passed c) :
    c.alarm? = earlier? (z.alarmAt stage) (some (z.nextTimer soft)) := by
  obtain ⟨statuses, hd⟩ := h.director
  obtain ⟨capacity, taken, _, hruns⟩ := h.runs
  have hsite : c.site.alarm? = z.alarmAt stage := by
    rw [Site.alarm?, hruns, h.launch]
    show earlier? (z.alarmAt stage) none = _
    cases z.alarmAt stage with
    | _ => rfl
  have hdirector : Director.alarm? c.director = some (z.nextTimer soft) := by
    rw [hd]
    exact alarm?_supervision z soft _ _
  rw [Course.alarm?, hsite, hdirector]

/-- Time passes. -/
theorem Scene.pass (h : Scene z now soft stage waiting passed c) (later : Nat) :
    Scene z later soft stage waiting passed { c with site := { c.site with now := later } } :=
  ⟨h.director, rfl, h.runs, h.reading, h.launch, h.made, h.fired, h.told⟩

theorem Scene.isOver (h : Scene z now soft stage waiting passed c) :
    Director.isOver c.director = false := by
  obtain ⟨statuses, hd⟩ := h.director
  rw [hd]
  rfl

end Recital

end Supervision

end Decommission
