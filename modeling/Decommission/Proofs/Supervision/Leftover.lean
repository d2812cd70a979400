import Decommission.Proofs.Course.Unread
import Decommission.Proofs.Supervision.Removal

/-!
# What a supervision leaves behind

A supervision over a pool, in a free course.  Once it has ended nobody reads the
stream of the pool, but the dispatcher and the tasks may go on.

A stream is closed only when the dispatcher and all tasks have ended.  So nothing
goes on behind a supervision that has seen the end of the stream.  One that gave up
before has had the signal fired, by the soft timer or in giving up, whatever order
the two timers are in and whether or not the engine had answered.  The pool then
hands out nothing more.

`Overseen` is what every move preserves while the supervision is under way, and
`Left` says how a look that ends it leaves the site.
-/

namespace Decommission

namespace Supervision

/-- A supervision has no helpers. -/
def help? (x : Empty) (_ : Supervision) : Option (List Event × Supervision) := nomatch x

/-- A supervision that begins at a site. -/
def begun (phase : Phase) (engine : Nat) (budget : Budget) (site : Site) : Course Supervision :=
  ⟨start phase engine budget site.now,
    site.performAll (start phase engine budget site.now).opening⟩

/-- The usual course of a supervision is a free one. -/
theorem reaches_conduct (phase : Phase) (engine : Nat) (budget : Budget) (site : Site) :
    Course.Reaches help? (begun phase engine budget site) (conduct phase engine budget site) :=
  Course.Aided.reaches_run (P := fun _ => True) ⟨fun _ _ => trivial, fun _ h => nomatch h⟩ trivial

end Supervision

/-! ## While the supervision is under way -/

/-- A site where all runs are closed and no stream is read, and where an engine removes
components with a pool of some workers. -/
structure Site.Clear (s : Site) (engine workers : Nat) (cs : List Component) : Prop where
  pool : ∃ e u, s.engines[engine]? = some e ∧ e.job = .pool workers cs u
  closed : ∀ r ∈ s.runs, r.IsClosed
  unread : s.reading = none
  /-- There is a signal in use, fired or not. -/
  signalled : 0 < s.signals.next

/-- How a site stands while the supervision over a pool is under way. -/
structure Overseen (engine workers : Nat) (cs : List Component) (idle : List Run)
    (s : Supervision) (site : Site) : Prop where
  ofEngine : s.engine = engine
  underway : s.result? = none
  outcome? : s.run.outcome? = none
  pool : ∃ e u, site.engines[engine]? = some e ∧ e.job = .pool workers cs u
  signalled : 0 < site.signals.next
  fired : s.run.state = .softCancelled → site.isFired
  closed : ∀ r ∈ idle, r.IsClosed
  starting : s.stage = .starting →
    site.runs = idle ∧ site.reading = none ∧ ∀ l ∈ site.launch, l.engine = engine
  watching : s.stage = .watching → ∃ u p, site.Attends engine idle u p ∧
    p.workers = workers ∧ p.unfinished ≤ p.workers

/-- How a supervision over a pool leaves a site when it ends with a certain result. -/
inductive Left (workers : Nat) (site : Site) : Except PhaseError Unit → Prop
  | finished : (∀ r ∈ site.runs, r.IsClosed) → Left workers site (.ok ())
  | componentFailure (phase : Phase) (failed : Nat) : (∀ r ∈ site.runs, r.IsClosed) →
      Left workers site (.error (.componentFailure phase failed))
  | timeout (phase : Phase) : (∀ r ∈ site.runs, r.IsClosed) →
      Left workers site (.error (.timeout phase))
  | forceQuit (phase : Phase) : site.Halted workers → Left workers site (.error (.forceQuit phase))

theorem left_of_closed {workers : Nat} {site : Site} (h : ∀ r ∈ site.runs, r.IsClosed)
    (phase : Phase) (r : PhaseRun) :
    Left workers site (Supervision.resultOf phase r.closingOutcome) := by
  rw [PhaseRun.closingOutcome]
  split
  · exact .componentFailure phase _ h
  · split
    · exact .timeout phase h
    · exact .finished h

namespace Overseen

variable {engine workers : Nat} {cs : List Component} {idle : List Run}
  {s s' : Supervision} {site site' : Site} {es : List Event}

/-- Where a supervision begins. -/
theorem start (h : site.Clear engine workers cs) (phase : Phase) (budget : Budget) :
    Overseen engine workers cs site.runs (.start phase engine budget site.now)
      (Supervision.begun phase engine budget site).site := by
  obtain ⟨e, u, he, hjob⟩ := h.pool
  have hlaunch : ∀ t : Site, t.engines = site.engines → t.launchEngine engine =
      { t with
        clock := t.clock.map fun c => c.advance e.clockAdvance
        launch := some ⟨engine, e.dueFrom t.now⟩ } := by
    intro t ht
    rw [Site.launchEngine, ht, he]
  show Overseen engine workers cs site.runs _ (Site.launchEngine engine _)
  rw [hlaunch]
  · refine ⟨rfl, rfl, rfl, ⟨e, u, he, hjob⟩, h.signalled, fun hs => ?_, h.closed,
      fun _ => ⟨rfl, h.unread, fun l hl => ?_⟩, fun hs => ?_⟩
    · cases hs
    · cases hl
      rfl
    · cases hs
  · rfl

/-- Nothing but the engines, the runs, the reading, the launch and the signals of the
site matters. -/
theorem of_site (h : Overseen engine workers cs idle s site)
    (hengines : site'.engines = site.engines) (hruns : site'.runs = site.runs)
    (hreading : site'.reading = site.reading) (hlaunch : site'.launch = site.launch)
    (hsignals : site'.signals = site.signals) : Overseen engine workers cs idle s site' := by
  obtain ⟨hsignal, hfired⟩ := Site.isFired_of_signals hsignals
  refine ⟨h.ofEngine, h.underway, h.outcome?, hengines ▸ h.pool, hsignals ▸ h.signalled,
    hfired ▸ h.fired, h.closed, ?_, fun hs => ?_⟩
  · rw [hruns, hreading, hlaunch]
    exact h.starting
  · obtain ⟨u, p, hatt, hp⟩ := h.watching hs
    refine ⟨u, p, ⟨?_, hreading.trans hatt.reading, hatt.listening⟩, hp⟩
    rw [hruns, hsignal]
    exact hatt.runs

/-- Only the pool moves, deaths of its tasks included. -/
theorem act (h : Overseen engine workers cs idle s site) {i : Nat} {a : Work.Action}
    (ha : site.act? i a = some site') : Overseen engine workers cs idle s site' := by
  cases hs : s.stage with
  | starting =>
      have hclosed : ∀ r ∈ site.runs, r.IsClosed := (h.starting hs).1 ▸ h.closed
      rw [Site.act?_of_isClosed hclosed] at ha
      cases ha
  | watching =>
      obtain ⟨u, p, hatt, hw, hslots⟩ := h.watching hs
      obtain ⟨x, p', _, hp, hatt', hsignals, _⟩ := hatt.act h.closed ha
      obtain ⟨_, _, _, _, _, rfl⟩ := Site.act?_eq_some_iff.mp ha
      refine ⟨h.ofEngine, h.underway, h.outcome?, h.pool, h.signalled, h.fired, h.closed,
        fun hst => ?_, fun _ => ⟨u, p', hatt', (Pool.frame_step hp).1.trans hw,
          Pool.slots_step hslots hp⟩⟩
      rw [hs] at hst
      cases hst
  | ended r =>
      have hnone := h.underway
      rw [Supervision.result?, hs] at hnone
      cases hnone

/-! ## Looks -/

/-- A pool with workers is never refused. -/
theorem answer_ne_error (h : Overseen engine workers cs idle s site) (hpos : 0 < workers)
    (hs : s.stage = .starting) (e : EngineError) : site.answer? ≠ some (.error e) := by
  intro ha
  obtain ⟨l, hl, ha⟩ := Option.bind_eq_some_iff.mp ha
  obtain ⟨due, _, ha⟩ := Option.bind_eq_some_iff.mp ha
  obtain ⟨e', he', ha⟩ := Option.bind_eq_some_iff.mp ha
  obtain ⟨e'', u, he'', hjob⟩ := h.pool
  rw [(h.starting hs).2.2 l hl, he''] at he'
  cases he'
  rw [Engine.begin, hjob, Job.begin, if_neg (Nat.ne_of_gt hpos)] at ha
  split at ha
  · cases ha
  · cases ha

/-- The engine answers, and its pool is put to work. -/
theorem answered (h : Overseen engine workers cs idle s site) (hpos : 0 < workers)
    (hs : s.stage = .starting) :
    Overseen engine workers cs idle { s with stage := .watching }
      (site.perform (.answered s.engine)) := by
  obtain rfl := h.ofEngine
  obtain ⟨hruns, hreading, _⟩ := h.starting hs
  obtain ⟨e, u, he, hjob⟩ := h.pool
  obtain ⟨hatt, hsignals, _⟩ := Site.attends_answered he hjob (Nat.ne_of_gt hpos) hreading
  have hfired := (Site.isFired_of_signals hsignals).2
  exact ⟨rfl, rfl, h.outcome?, (Site.ground_perform site _).1 ▸ h.pool, hsignals ▸ h.signalled,
    hfired ▸ h.fired, h.closed, fun hst => (nomatch hst),
    fun _ => ⟨u, _, hruns ▸ hatt, rfl, Nat.zero_le _⟩⟩

/-- A report is taken off the stream. -/
theorem reported (h : Overseen engine workers cs idle s site) (hs : s.stage = .watching)
    (now : Nat) (r : Report) :
    Overseen engine workers cs idle (s.apply now (.report r)).2
      (site.performAll (.received :: (s.apply now (.report r)).1)) := by
  obtain ⟨u, p, hatt, hp⟩ := h.watching hs
  obtain ⟨hatt', hsignals⟩ := hatt.received
  have hfired := (Site.isFired_of_signals hsignals).2
  rw [Supervision.apply_report h.outcome?]
  have htaken : Overseen engine workers cs idle { s with run := s.run.noting r }
      (site.perform .received) := by
    refine ⟨h.ofEngine, h.underway, h.outcome?, (Site.ground_perform site _).1 ▸ h.pool,
      hsignals ▸ h.signalled, hfired ▸ h.fired, h.closed, fun hst => ?_,
      fun _ => ⟨u, _, hatt', hp⟩⟩
    rw [show s.stage = .starting from hst] at hs
    cases hs
  exact htaken.of_site rfl rfl rfl rfl rfl

/-- The soft timer goes off. -/
theorem cancelled (h : Overseen engine workers cs idle s site) (hrun : s.run.state = .running)
    (now : Nat) :
    Overseen engine workers cs idle (s.apply now .cancelTimeout).2
      (site.performAll (s.apply now .cancelTimeout).1) := by
  rw [Supervision.apply_cancelTimeout hrun]
  obtain ⟨hnext, hsame, hfired⟩ := Site.isFired_of_fire h.signalled
    (t := site.performAll [.note (.cancelling s.phase), .signalFired]) rfl
  refine ⟨h.ofEngine, h.underway, rfl, h.pool, hnext, fun _ => hfired, h.closed, h.starting,
    fun hs => ?_⟩
  obtain ⟨u, p, hatt, hp⟩ := h.watching hs
  refine ⟨u, p, ⟨?_, hatt.reading, hatt.listening⟩, hp⟩
  rw [hsame]
  exact hatt.runs

/-- The end of the stream is seen, so the pool is closed. -/
theorem closed_left (h : Overseen engine workers cs idle s site) (hs : s.stage = .watching)
    (hh : site.head = .closed) (now : Nat) :
    ∃ r, (s.apply now .closed).2.result? = some r ∧
      Left workers (site.performAll (s.apply now .closed).1) r := by
  obtain ⟨u, p, hatt, _⟩ := h.watching hs
  obtain ⟨_, hclosed⟩ := Stream.head_eq_closed_iff.mp (hatt.head.symm.trans hh)
  obtain ⟨r, hr, hruns, _⟩ := hatt.released hclosed
  rw [Supervision.apply_closed h.outcome?]
  refine ⟨_, rfl, left_of_closed ?_ s.phase s.run⟩
  obtain ⟨rest, hclosing, hrest⟩ := Supervision.closing_eq (s.endedWith s.run.closingOutcome) now
    s.run.closingOutcome
  rw [hclosing, Site.performAll_cons, (Site.runs_performAll fun e he => (hrest e he).1).1, hruns]
  intro r' hr'
  rcases List.mem_append.mp hr' with hm | hm
  · exact h.closed r' hm
  · rw [List.mem_singleton.mp hm]
    exact hr

/-- Nobody gives up before the signal has been fired. -/
theorem late (h : Overseen engine workers cs idle s site) :
    (site.performAll s.lateCancel).isFired ∧
      (site.performAll s.lateCancel).signal = site.signal ∧
      (site.performAll s.lateCancel).runs = site.runs ∧
      (site.performAll s.lateCancel).reading = site.reading := by
  rcases PhaseRun.state_of_outcome?_eq_none h.outcome? with hs | hs
  · rw [Supervision.lateCancel, if_pos hs]
    obtain ⟨_, hsame, hfired⟩ := Site.isFired_of_fire h.signalled
      (t := site.performAll [.note (.cancelling s.phase), .signalFired]) rfl
    exact ⟨hfired, hsame, rfl, rfl⟩
  · rw [Supervision.lateCancel, if_neg (by rw [hs]; exact RunState.noConfusion)]
    exact ⟨h.fired hs, rfl, rfl, rfl⟩

/-- The hard timer goes off, whether or not the engine has answered. -/
theorem quit_left (h : Overseen engine workers cs idle s site) (now : Nat) :
    ∃ r, (s.apply now .quitTimeout).2.result? = some r ∧
      Left workers (site.performAll (s.apply now .quitTimeout).1) r := by
  obtain ⟨hfired, hsignal, hruns, hreading⟩ := h.late
  have hreleased : ((site.performAll s.lateCancel).perform .released).Halted workers := by
    cases hs : s.stage with
    | starting =>
        obtain ⟨hidle, hunread, _⟩ := h.starting hs
        exact Site.halted_of_unread hfired (hruns.trans hidle ▸ h.closed)
          (hreading.trans hunread) workers
    | watching =>
        obtain ⟨u, p, hatt, hw, hslots⟩ := h.watching hs
        have hsame : (site.performAll s.lateCancel).Attends engine idle u p :=
          ⟨by rw [hruns, hsignal]; exact hatt.runs, hreading.trans hatt.reading, hatt.listening⟩
        exact hsame.halted hfired h.closed (hw ▸ hslots)
    | ended r =>
        have hnone := h.underway
        rw [Supervision.result?, hs] at hnone
        cases hnone
  rw [Supervision.apply_quitTimeout h.outcome?]
  refine ⟨_, rfl, .forceQuit s.phase ?_⟩
  obtain ⟨rest, hclosing, hrest⟩ := Supervision.closing_eq (s.endedWith .forceQuitFailure) now
    .forceQuitFailure
  rw [hclosing, Site.performAll_append, Site.performAll_cons]
  exact hreleased.of_site (Site.runs_performAll fun e he => (hrest e he).1).1
    (Site.signals_performAll fun e he => (hrest e he).2.1)

/-- A look leaves the supervision under way, or ends it. -/
theorem look (h : Overseen engine workers cs idle s site) (hpos : 0 < workers)
    (hl : s.look site.glance = some (es, s')) :
    Overseen engine workers cs idle s' (site.performAll es) ∨
      ∃ r, s'.result? = some r ∧ Left workers (site.performAll es) r := by
  cases Supervision.look_cases hl with
  | answered hs => exact .inl (h.answered hpos hs)
  | refused e hs ha => exact absurd ha (h.answer_ne_error hpos hs e)
  | reported r hs => exact .inl (h.reported hs _ r)
  | closed hs hh => exact .inr (h.closed_left hs hh _)
  | quit => exact .inr (h.quit_left _)
  | cancel hi hq hrun => exact .inl (h.cancelled hrun _)

end Overseen

/-! ## Whole courses -/

/-- What can be relied on once a supervision over a pool has ended with a certain
result, `s` being the site at that time and `t` the site at any time from then on. -/
def Leftover (workers : Nat) (s t : Site) : Except PhaseError Unit → Prop
  -- No call is under way, and nothing happens any more.
  | .ok _ | .error (.componentFailure ..) | .error (.timeout _) =>
      t.inProgress = 0 ∧ t.runs = s.runs ∧ t.history = s.history
  -- The signal is fired, and no component is handed out any more.
  | .error (.forceQuit _) => t.isFired ∧ t.handedOut = s.handedOut ∧ t.unfinished ≤ workers
  | .error (.engine ..) => False

section Ended

variable {workers : Nat} {s t t' : Site} {r : Except PhaseError Unit}

theorem Left.leftover (h : Left workers s r) : Leftover workers s s r := by
  cases h with
  | finished h => exact ⟨Site.inProgress_of_isClosed h, rfl, rfl⟩
  | componentFailure _ _ h => exact ⟨Site.inProgress_of_isClosed h, rfl, rfl⟩
  | timeout _ h => exact ⟨Site.inProgress_of_isClosed h, rfl, rfl⟩
  | forceQuit _ h => exact ⟨h.fired, rfl, h.unfinished⟩

/-- What is left over may go on, but not more than that. -/
theorem Left.act (h : Left workers t r) (hk : Leftover workers s t r) {i : Nat}
    {a : Work.Action} (ha : t.act? i a = some t') : Left workers t' r ∧ Leftover workers s t' r := by
  have hopen : ¬ ∀ r ∈ t.runs, r.IsClosed := by
    intro hc
    rw [Site.act?_of_isClosed hc] at ha
    cases ha
  cases h with
  | finished h => exact absurd h hopen
  | componentFailure _ _ h => exact absurd h hopen
  | timeout _ h => exact absurd h hopen
  | forceQuit _ h =>
      obtain ⟨hhalted, hout⟩ := h.act ha
      exact ⟨.forceQuit _ hhalted, hhalted.fired, hout.trans hk.2.1, hhalted.unfinished⟩

theorem Left.pass (h : Left workers t r) (hk : Leftover workers s t r) (now : Nat) :
    Left workers { t with now } r ∧ Leftover workers s { t with now } r := by
  cases h with
  | finished h => exact ⟨.finished h, hk⟩
  | componentFailure _ _ h => exact ⟨.componentFailure _ _ h, hk⟩
  | timeout _ h => exact ⟨.timeout _ h, hk⟩
  | forceQuit _ h => exact ⟨.forceQuit _ (h.of_site rfl rfl), hk⟩

end Ended

namespace Supervision

variable {engine workers : Nat} {cs : List Component} {idle : List Run} {s : Site}
  {c c' : Course Supervision} {r : Except PhaseError Unit} {m : Course.Move Empty}

/-- Behind the end of a supervision only the runs move. -/
theorem leftover_move? (hr : c.director.result? = some r) (h : Left workers c.site r)
    (hk : Leftover workers s c.site r) (hm : Course.move? help? m c = some c') :
    c'.director.result? = some r ∧ Left workers c'.site r ∧ Leftover workers s c'.site r := by
  cases m with
  | look =>
      obtain ⟨es, d, hl, _⟩ := Course.direct?_eq_some_iff.mp hm
      rw [result?_of_look hl] at hr
      cases hr
  | help x => exact nomatch x
  | work i a =>
      obtain ⟨site, ha, rfl⟩ := Option.map_eq_some_iff.mp hm
      exact ⟨hr, h.act hk ha⟩
  | pass ms =>
      cases hm
      exact ⟨hr, h.pass hk _⟩

/-- How a site stands in the course of a supervision over a pool. -/
def Stands (engine workers : Nat) (cs : List Component) (idle : List Run)
    (c : Course Supervision) : Prop :=
  Overseen engine workers cs idle c.director c.site ∨
    ∃ r, c.director.result? = some r ∧ Left workers c.site r

theorem stands_move? (h : Stands engine workers cs idle c) (hpos : 0 < workers)
    (hm : Course.move? help? m c = some c') : Stands engine workers cs idle c' := by
  rcases h with h | ⟨r, hr, h⟩
  · cases m with
    | look =>
        obtain ⟨es, d, hl, rfl⟩ := Course.direct?_eq_some_iff.mp hm
        exact h.look hpos hl
    | help x => exact nomatch x
    | work i a =>
        obtain ⟨site, ha, rfl⟩ := Option.map_eq_some_iff.mp hm
        exact .inl (h.act ha)
    | pass ms =>
        cases hm
        exact .inl (h.of_site rfl rfl rfl rfl rfl)
  · obtain ⟨hr', h', _⟩ := leftover_move? hr h h.leftover hm
    exact .inr ⟨r, hr', h'⟩

/-- Whatever the order of looks, actions of the pool and waits, however long calls take
and however they end, and whatever the budget is: a supervision that ends leaves either
nothing that goes on, or a pool that has been told to stop and hands nothing out. -/
theorem leftover_play {site : Site} (h : site.Clear engine workers cs) (hpos : 0 < workers)
    (phase : Phase) (budget : Budget) (ms ns : List (Course.Move Empty))
    (hr : (play (Course.move? help?) (begun phase engine budget site) ms).director.result? =
      some r) :
    Leftover workers (play (Course.move? help?) (begun phase engine budget site) ms).site
      (play (Course.move? help?) (begun phase engine budget site) (ms ++ ns)).site r := by
  have hstands : Stands engine workers cs site.runs
      (play (Course.move? help?) (begun phase engine budget site) ms) :=
    play_induction (fun m c c' hc hm => stands_move? hc hpos hm) (.inl (.start h phase budget)) ms
  rw [play_append]
  generalize play (Course.move? help?) (begun phase engine budget site) ms = c at hr hstands ⊢
  rcases hstands with hover | ⟨r', hr', hleft⟩
  · rw [hover.underway] at hr
    cases hr
  · rw [hr] at hr'
    cases hr'
    exact (play_induction (P := fun c' => c'.director.result? = some r ∧
      Left workers c'.site r ∧ Leftover workers c.site c'.site r)
      (fun m d d' hd hm => leftover_move? hd.1 hd.2.1 hd.2.2 hm)
      ⟨hr, hleft, hleft.leftover⟩ ns).2.2

/-- Both timers are set to zero, and the supervision looks at them only while the first
call is under way. -/
theorem leftover_exhausted :
    let cs : List Component := [⟨"a", "x"⟩, ⟨"b", "x"⟩]
    let site : Site :=
      { engines := [{ job := .pool 1 cs (.nothing false) }], signals := Signals.add {} }
    let ms : List (Course.Move Empty) := [.look, .work 0 (.pool .dispatch),
      .work 0 (.pool (.call 0 7)), .pass 1, .look]
    let ns : List (Course.Move Empty) := [.work 0 (.pool .dispatch), .work 0 (.pool .heed),
      .work 0 (.pool (.conclude 0 none)), .work 0 (.pool (.report 0)), .work 0 (.pool .close)]
    let c := begun .components 0 ⟨.zero, .zero⟩ site
    let ended := play (Course.move? help?) c ms
    let later := play (Course.move? help?) c (ms ++ ns)
    ended.director.result? = some (.error (.forceQuit .components)) ∧
      ended.site.handedOut = [⟨"a", "x"⟩] ∧ ended.site.unfinished = 1 ∧
      later.site.unfinished = 0 ∧
      Leftover 1 ended.site later.site (.error (.forceQuit .components)) := by
  intro cs site ms ns c ended later
  have hclear : site.Clear 0 1 cs :=
    ⟨⟨_, _, rfl, rfl⟩, fun _ hm => (nomatch hm), rfl, by decide⟩
  have hended : ended.director.result? = some (.error (.forceQuit .components)) := by
    unfold ended c ms site cs
    rfl
  exact ⟨hended, by decide +kernel, by decide +kernel, by decide +kernel,
    leftover_play hclear (by decide) .components ⟨.zero, .zero⟩ ms ns hended⟩

end Supervision

end Decommission
