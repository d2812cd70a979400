import Decommission.Proofs.Course.Attending
import Decommission.Proofs.Supervision.Conducted

/-!
# Removing what belongs to one phase

A supervision over a pool, in a free course.  `Removing` says how the site and the
history of the phase stand while the supervision is under way: nobody but the pool
of the phase moves, its books are kept, and the history holds exactly what has
happened to its tasks.  The runs of the phases before are closed and stay closed.

Looks and actions preserve it (`Removing.look`, `Removing.act`), and time does not
matter to it (`Removing.of_site`).  A look that ends the supervision without an error
leaves a phase in which every component was removed (`Removing.finish`).
-/

namespace Decommission

/-- The events of a history, without their times. -/
def History.events (h : History) : List Event := h.map Entry.event

section Histories

variable {h k : History}

theorem events_append (h k : History) :
    History.events (h ++ k) = h.events ++ k.events := List.map_append

theorem events_entries (now : Nat) (engine : Option Nat) (es : List Event) :
    History.events (es.map fun e => ⟨now, engine, e⟩) = es := by
  rw [History.events, List.map_map]
  exact List.map_id' es

/-- Everything of a certain kind belongs to the runs of one engine. -/
def History.Owned (h : History) (engine : Nat) : Prop :=
  ∀ x ∈ h, x.event.isRemoval → x.engine = some engine

theorem owned_append {engine : Nat} (hh : h.Owned engine) (hk : k.Owned engine) :
    History.Owned (h ++ k) engine := by
  intro x hx
  rcases List.mem_append.mp hx with hm | hm
  · exact hh x hm
  · exact hk x hm

theorem owned_of_not_isRemoval {engine : Nat} (hh : ∀ e ∈ h.events, e.isRemoval = false) :
    h.Owned engine := by
  intro x hx hr
  rw [hh x.event (List.mem_map_of_mem hx)] at hr
  cases hr

theorem owned_entries (now engine : Nat) (es : List Event) :
    History.Owned (es.map fun e => ⟨now, some engine, e⟩) engine := by
  intro x hx _
  obtain ⟨e, _, rfl⟩ := List.mem_map.mp hx
  rfl

end Histories

/-- A phase in which every component was removed once. -/
structure Removed (phase : Phase) (engine : Nat) (cs : List Component) (h : History) : Prop where
  /-- The removal of every component began once and ended well once, by position, and
  nothing else was removed. -/
  removals : ∀ i, h.events.filter (Event.isRemovalAt i) =
    match cs[i]? with
    | some c => [.removalStarted i c, .removalEnded i c none]
    | none => []
  /-- All removals are those of the engine. -/
  owned : h.Owned engine
  /-- A start was announced, then the removal of every component once, in some order,
  and then that all went well. -/
  announced : ∃ taken, updatesIn h.events = Update.complete phase taken (.ok ()) ∧
    taken.Perm (cs.map fun c => ⟨c.name, c.space, .success, none⟩)
  /-- The cluster was not called. -/
  uncalled : callsIn h.events = []

/-! ## What the history of a phase holds -/

/-- The history of a phase in which certain things happened at each position. -/
structure History.Logs (h : History) (engine : Nat) (trace : Nat → List Event) : Prop where
  owned : h.Owned engine
  traced : ∀ i, h.events.filter (Event.isRemovalAt i) = trace i
  uncalled : callsIn h.events = []

namespace History

variable {h k : History} {engine : Nat} {trace trace' : Nat → List Event} {es : List Event}

/-- What removes nothing and does not call the cluster leaves the log as it is. -/
theorem Logs.quiet (hl : h.Logs engine trace) (hr : ∀ e ∈ k.events, e.isRemoval = false)
    (hc : callsIn k.events = []) : Logs (h ++ k) engine trace where
  owned := owned_append hl.owned (owned_of_not_isRemoval hr)
  traced i := by
    rw [events_append, List.filter_append, hl.traced, filter_isRemovalAt_eq_nil hr,
      List.append_nil]
  uncalled := by rw [events_append, callsIn_append, hl.uncalled, hc, List.append_nil]

/-- What the engine does is logged. -/
theorem Logs.own (hl : h.Logs engine trace) (now : Nat)
    (ht : ∀ i, trace' i = trace i ++ es.filter (Event.isRemovalAt i)) (hc : callsIn es = []) :
    Logs (h ++ es.map (⟨now, some engine, ·⟩)) engine trace' where
  owned := owned_append hl.owned (owned_entries now engine es)
  traced i := by rw [events_append, List.filter_append, hl.traced, events_entries, ← ht i]
  uncalled := by rw [events_append, events_entries, callsIn_append, hl.uncalled, hc]; rfl

end History

/-! ## While the phase is under way -/

/-- How the site and the history of a phase stand while its supervision is under way
and has taken certain reports, the runs before being idle. -/
structure Removing (phase : Phase) (engine : Nat) (cs : List Component) (idle : List Run)
    (s : Supervision) (taken : List Report) (site : Site) (h : History) : Prop where
  ofPhase : s.phase = phase
  ofEngine : s.engine = engine
  underway : s.Underway taken h.events
  signalled : 0 < site.signals.next
  fired : site.isFired ↔ s.run.state = .softCancelled
  closed : ∀ r ∈ idle, r.IsClosed
  starting : s.stage = .starting →
    site.runs = idle ∧ site.reading = none ∧ h.Logs engine fun _ => []
  watching : s.stage = .watching → ∃ u p, site.Attends engine idle u p ∧
    p.Books cs site.isFired ∧ p.stream.taken = taken ∧ h.Logs engine p.traceAt

/-- At the end the reader leaves, and the rest is only recorded. -/
theorem Supervision.closing_eq (s : Supervision) (now : Nat) (o : Outcome) :
    ∃ rest, s.closing now o = .released :: rest ∧
      ∀ e ∈ rest, e.movesRuns = false ∧ e.movesSignals = false ∧ e.isAnswer = false := by
  refine ⟨_, rfl, ?_⟩
  intro e he
  rcases List.mem_append.mp he with hm | hm
  · obtain ⟨n, _, rfl⟩ := List.mem_map.mp hm
    exact ⟨rfl, rfl, rfl⟩
  · rw [List.mem_singleton.mp hm]
    exact ⟨rfl, rfl, rfl⟩

namespace Removing

variable {phase : Phase} {engine : Nat} {cs : List Component} {idle : List Run}
  {s s' : Supervision} {taken : List Report} {site site' : Site} {h : History}
  {es : List Event}

theorem outcome? (hR : Removing phase engine cs idle s taken site h) :
    s.run.outcome? = none := hR.underway.outcome?

/-- What can be seen while the supervision is watching is the front of the stream of
the pool. -/
theorem head (hR : Removing phase engine cs idle s taken site h) (hs : s.stage = .watching) :
    ∃ u p, site.Attends engine idle u p ∧ p.Books cs site.isFired ∧ p.stream.taken = taken ∧
      h.Logs engine p.traceAt ∧ site.glance.head = p.stream.head p.isClosed := by
  obtain ⟨u, p, hatt, hbooks, htaken, hlogs⟩ := hR.watching hs
  exact ⟨u, p, hatt, hbooks, htaken, hlogs, hatt.head⟩

/-! ## Beginning -/

/-- The opening of a supervision begins a phase, at a site where all runs are idle and
the signal in use was not fired.  Some quiet events may have come before. -/
theorem start (phase : Phase) (engine : Nat) (cs : List Component) (budget : Budget) (now : Nat)
    (site : Site) {pre : List Event}
    (hpre : ∀ e ∈ pre, e.isSilent ∧ e.isRemoval = false ∧ e.reachesOut = false)
    (hidle : ∀ r ∈ site.runs, r.IsClosed) (hreading : site.reading = none)
    (hsignal : 0 < site.signals.next) (hfired : site.isFired = false) :
    Removing phase engine cs site.runs (.start phase engine budget now) []
      (site.performAll (Supervision.start phase engine budget now).opening)
      ((pre ++ (Supervision.start phase engine budget now).opening).map (⟨now, none, ·⟩)) := by
  have hopening : ∀ e ∈ (Supervision.start phase engine budget now).opening,
      e.movesRuns = false ∧ e.movesSignals = false ∧ e.isRemoval = false := by
    intro e he
    simp only [Supervision.opening, List.mem_cons, List.not_mem_nil, or_false] at he
    rcases he with rfl | rfl | rfl
    · exact ⟨rfl, rfl, rfl⟩
    · exact ⟨rfl, rfl, rfl⟩
    · exact ⟨rfl, rfl, rfl⟩
  obtain ⟨hruns, hread⟩ := Site.runs_performAll (s := site) fun e he => (hopening e he).1
  have hsignals := Site.signals_performAll (s := site) fun e he => (hopening e he).2.1
  refine ⟨rfl, rfl, ?_, ?_, ?_, hidle, fun _ => ⟨hruns, hread.trans hreading, ?_⟩,
    fun hs => ?_⟩
  · rw [events_entries]
    exact (Supervision.underway_start phase engine budget now).preceded fun e he => (hpre e he).1
  · rw [hsignals]
    exact hsignal
  · rw [(Site.isFired_of_signals hsignals).2, hfired]
    refine iff_of_false Bool.false_ne_true fun hs => ?_
    cases hs
  · refine .mk (owned_of_not_isRemoval ?_) (fun i => ?_) ?_
    · rw [events_entries]
      intro e he
      rcases List.mem_append.mp he with hm | hm
      · exact (hpre e hm).2.1
      · exact (hopening e hm).2.2
    · rw [events_entries, List.filter_append,
        filter_isRemovalAt_eq_nil fun e he => (hpre e he).2.1,
        filter_isRemovalAt_eq_nil fun e he => (hopening e he).2.2]
      rfl
    · rw [events_entries, callsIn_append, callsIn_of_not_reachesOut fun e he => (hpre e he).2.2]
      rfl
  · cases hs

/-! ## Moves of the pool -/

/-- Nothing but the runs, the reading and the signals of the site matters. -/
theorem of_site (hR : Removing phase engine cs idle s taken site h)
    (hruns : site'.runs = site.runs) (hreading : site'.reading = site.reading)
    (hsignals : site'.signals = site.signals) :
    Removing phase engine cs idle s taken site' h := by
  obtain ⟨hsignal, hfired⟩ := Site.isFired_of_signals hsignals
  refine ⟨hR.ofPhase, hR.ofEngine, hR.underway, hsignals ▸ hR.signalled, hfired ▸ hR.fired,
    hR.closed, ?_, ?_⟩
  · rw [hruns, hreading]
    exact hR.starting
  · intro hs
    obtain ⟨u, p, hatt, hbooks, htaken, hlogs⟩ := hR.watching hs
    refine ⟨u, p, ⟨?_, hreading.trans hatt.reading, hatt.listening⟩, hfired ▸ hbooks, htaken,
      hlogs⟩
    rw [hruns, hsignal]
    exact hatt.runs

/-- Only the pool of the phase moves. -/
theorem act (hR : Removing phase engine cs idle s taken site h) {i : Nat} {a : Work.Action}
    (ha : site.act? i a = some site') (hdeath : ¬ a.isDeath) :
    ∃ k, Removing phase engine cs idle s taken site' (h ++ k) ∧
      site'.history = site.history ++ k := by
  cases hs : s.stage with
  | starting =>
      obtain ⟨r, _, _, hr, _, _⟩ := Site.act?_eq_some_iff.mp ha
      have hopen := Site.not_isClosed_of_act? hr ha
      rw [(hR.starting hs).1] at hr
      exact absurd (hR.closed r (List.mem_of_getElem? hr)) hopen
  | watching =>
      obtain ⟨u, p, hatt, hbooks, htaken, hlogs⟩ := hR.watching hs
      obtain ⟨x, p', rfl, hp, hatt', hsignals, hhist⟩ := hatt.act hR.closed ha
      have hfired := (Site.isFired_of_signals hsignals).2
      have hquiet : ∀ e ∈ p.events u site.isFired x, e.isSilent ∧ e.reachesOut = false :=
        fun e he => Pool.quiet_events u he
      refine ⟨_, ⟨hR.ofPhase, hR.ofEngine, ?_, hsignals ▸ hR.signalled, hfired ▸ hR.fired,
        hR.closed, fun hst => ?_, fun _ => ⟨u, p', hatt', hfired ▸ hbooks.step hp hdeath,
          (Pool.stream_step hp).1.trans htaken, ?_⟩⟩, hhist⟩
      · rw [events_append, events_entries]
        exact hR.underway.silent fun e he => (hquiet e he).1
      · rw [hs] at hst
        cases hst
      · exact hlogs.own site.now (Pool.traceAt_step u hp hdeath)
          (callsIn_of_not_reachesOut fun e he => (hquiet e he).2)
  | ended r' =>
      have hnone := hR.underway.result?
      rw [Supervision.result?, hs] at hnone
      cases hnone

/-! ## Looks -/

/-- What a look lets happen is recorded, and logged as nothing. -/
theorem recorded (hR : Removing phase engine cs idle s taken site h)
    (hl : s.look site.glance = some (es, s')) {trace : Nat → List Event}
    (hlogs : h.Logs engine trace) :
    History.Logs (h ++ es.map (⟨site.now, none, ·⟩)) engine trace := by
  have hkind := fun e he => Supervision.isOfSupervision_of_look hR.outcome? hl (e := e) he
  refine hlogs.quiet ?_ ?_
  · rw [events_entries]
    exact fun e he => Event.isRemoval_of_isOfSupervision (hkind e he)
  · rw [events_entries]
    exact callsIn_of_not_reachesOut fun e he =>
      Event.reachesOut_of_isOfSupervision (hkind e he)

/-- The engine answers, and its pool is put to work. -/
theorem answered (hR : Removing phase engine cs idle s taken site h)
    (hpool : site.HasPool engine cs) (hs : s.stage = .starting) :
    ∃ k, Removing phase engine cs idle { s with stage := .watching } taken
      (site.perform (.answered s.engine)) (h ++ k) ∧
      (site.perform (.answered s.engine)).history = site.history ++ k := by
  obtain rfl := hR.ofEngine
  obtain ⟨hruns, hreading, hlogs⟩ := hR.starting hs
  have htaken := hR.underway.starting hs
  obtain ⟨u, workers, notes, hw, hatt, hsignals, hhist⟩ := hpool.answered hreading
  have hfired := (Site.isFired_of_signals hsignals).2
  have hnotes : ∀ e ∈ notes.map Event.note,
      e.isSilent ∧ e.isRemoval = false ∧ e.reachesOut = false := by
    intro e he
    obtain ⟨n, _, rfl⟩ := List.mem_map.mp he
    exact ⟨rfl, rfl, rfl⟩
  refine ⟨_, ⟨hR.ofPhase, rfl, ?_, hsignals ▸ hR.signalled, hfired ▸ hR.fired, hR.closed,
    fun hst => ?_, fun _ => ⟨u, _, hruns ▸ hatt, Pool.books_start hw cs _,
      htaken.symm, ?_⟩⟩, hhist⟩
  · rw [← List.append_assoc, events_append, events_entries, events_append, events_entries]
    exact hR.underway.answered.silent fun e he => (hnotes e he).1
  · cases hst
  · refine hlogs.quiet ?_ ?_
    · rw [events_append, events_entries, events_entries]
      intro e he
      rcases List.mem_append.mp he with hm | hm
      · rw [List.mem_singleton.mp hm]
        rfl
      · exact (hnotes e hm).2.1
    · rw [events_append, events_entries, events_entries, callsIn_append]
      exact callsIn_notes notes

/-- What is only told or noted leaves the site as it is. -/
theorem told (hR : Removing phase engine cs idle s taken site h)
    (hes : ∀ e ∈ es, e.movesRuns = false ∧ e.movesSignals = false) :
    Removing phase engine cs idle s taken (site.performAll es) h :=
  hR.of_site (Site.runs_performAll fun e he => (hes e he).1).1
    (Site.runs_performAll fun e he => (hes e he).1).2
    (Site.signals_performAll fun e he => (hes e he).2)

/-- A report is taken off the stream. -/
theorem reported (hR : Removing phase engine cs idle s taken site h) {r : Report}
    (hs : s.stage = .watching) (hh : site.glance.head = .report r)
    (hl : s.look site.glance = some (.received :: (s.apply site.now (.report r)).1,
      (s.apply site.now (.report r)).2)) :
    Removing phase engine cs idle (s.apply site.now (.report r)).2 (taken ++ [r])
      (site.performAll (.received :: (s.apply site.now (.report r)).1))
      (h ++ (.received :: (s.apply site.now (.report r)).1).map (⟨site.now, none, ·⟩)) := by
  obtain ⟨u, p, hatt, hbooks, htaken, hlogs, hhead⟩ := hR.head hs
  obtain ⟨hatt', hsignals⟩ := hatt.received
  have hfired := (Site.isFired_of_signals hsignals).2
  have hu := hR.underway.reported hs site.now r
  have hrec := hR.recorded hl hlogs
  rw [Supervision.apply_report hR.outcome?] at hu hrec ⊢
  rw [Site.performAll_cons]
  refine told ⟨hR.ofPhase, hR.ofEngine, ?_, hsignals ▸ hR.signalled, hfired ▸ hR.fired,
    hR.closed, fun hst => ?_, fun _ => ⟨u, _, hatt', ?_, ?_, hrec⟩⟩ ?_
  · rw [events_append, events_entries]
    exact hu
  · rw [show s.stage = .starting from hst] at hs
    cases hs
  · rw [hfired]
    exact hbooks.onStream (Stream.sent_receive _) fun hlis => by
      rw [Stream.listening_receive] at hlis
      exact hlis
  · rw [← htaken]
    exact Stream.taken_receive (hhead.symm.trans hh)
  · intro e he
    simp only [List.mem_cons, List.not_mem_nil, or_false] at he
    rcases he with rfl | rfl
    · exact ⟨rfl, rfl⟩
    · exact ⟨rfl, rfl⟩

/-- The soft timer goes off. -/
theorem cancelled (hR : Removing phase engine cs idle s taken site h)
    (hrun : s.run.state = .running)
    (hl : s.look site.glance = some (s.apply site.now .cancelTimeout)) :
    Removing phase engine cs idle (s.apply site.now .cancelTimeout).2 taken
      (site.performAll (s.apply site.now .cancelTimeout).1)
      (h ++ (s.apply site.now .cancelTimeout).1.map (⟨site.now, none, ·⟩)) := by
  have hu := hR.underway.cancel hrun site.now
  have hrec : ∀ {trace}, h.Logs engine trace →
      History.Logs (h ++ (s.apply site.now .cancelTimeout).1.map (⟨site.now, none, ·⟩))
        engine trace := fun hlogs => hR.recorded hl hlogs
  rw [Supervision.apply_cancelTimeout hrun] at hu hrec ⊢
  obtain ⟨hnext, hsame, hfired⟩ := Site.isFired_of_fire hR.signalled
    (t := site.performAll [.note (.cancelling s.phase), .signalFired]) rfl
  refine ⟨hR.ofPhase, hR.ofEngine, ?_, hnext, ?_, hR.closed, ?_, ?_⟩
  · rw [events_append, events_entries]
    exact hu
  · exact iff_of_true hfired rfl
  · intro hst
    obtain ⟨hruns, hreading, hlogs⟩ := hR.starting hst
    exact ⟨hruns, hreading, hrec hlogs⟩
  · intro hst
    obtain ⟨u, p, hatt, hbooks, htaken, hlogs⟩ := hR.watching hst
    refine ⟨u, p, ⟨?_, hatt.reading, hatt.listening⟩, ?_, htaken, hrec hlogs⟩
    · rw [hsame]
      exact hatt.runs
    · rw [hfired]
      exact hbooks.fire

/-- A look that leaves the supervision under way leaves the phase under way. -/
theorem look (hR : Removing phase engine cs idle s taken site h)
    (hpool : site.HasPool engine cs) (hl : s.look site.glance = some (es, s'))
    (hr : s'.result? = none) :
    ∃ taken' k, Removing phase engine cs idle s' taken' (site.performAll es) (h ++ k) ∧
      (site.performAll es).history = site.history ++ k := by
  cases Supervision.look_cases hl with
  | answered hs ha =>
      obtain ⟨k, hR', hk⟩ := hR.answered hpool hs
      exact ⟨taken, k, hR', hk⟩
  | refused e hs ha => cases hr
  | reported r hs hh =>
      refine ⟨_, _, hR.reported hs hh hl, Site.history_performAll ?_⟩
      rw [Supervision.apply_report hR.outcome?]
      simp [Event.isAnswer]
  | closed hs hh =>
      rw [Supervision.apply_closed hR.outcome?] at hr
      cases hr
  | quit hi hq =>
      rw [Supervision.apply_quitTimeout hR.outcome?] at hr
      cases hr
  | cancel hi hq hrun hc =>
      refine ⟨_, _, hR.cancelled hrun hl, Site.history_performAll ?_⟩
      rw [Supervision.apply_cancelTimeout hrun]
      simp [Event.isAnswer]

/-! ## The end -/

/-- When a look ends the supervision without an error, every component was removed,
and the pool is left behind as a closed run. -/
theorem finish (hR : Removing phase engine cs idle s taken site h)
    (hl : s.look site.glance = some (es, s')) (hr : s'.result? = some (.ok ())) :
    ∃ r, Run.IsClosed r ∧ Removed phase engine cs (h ++ es.map (⟨site.now, none, ·⟩)) ∧
      (site.performAll es).runs = idle ++ [r] ∧ (site.performAll es).reading = none ∧
      (site.performAll es).signals = site.signals ∧ site.isFired = false ∧
      (site.performAll es).history = site.history ++ es.map (⟨site.now, none, ·⟩) := by
  have hlife := hR.underway.look hl
  obtain ⟨hs, hh, rfl, hok⟩ := Supervision.closed_of_ok hl hR.outcome? hr
  obtain ⟨u, p, hatt, hbooks, htaken, hlogs, hhead⟩ := hR.head hs
  obtain ⟨hwaiting, hclosed⟩ := Stream.head_eq_closed_iff.mp (hhead.symm.trans hh)
  have hlogs' := hR.recorded hl hlogs
  -- Nothing failed and the signal was not fired, so every report is of a removal.
  obtain ⟨hfailed, hstate⟩ := Supervision.closingOutcome_of_ok hok
  have hfired : site.isFired = false := by
    cases hf : site.isFired with
    | false => rfl
    | true => exact absurd (hR.fired.mp hf) hstate
  rw [hfired] at hbooks
  have hcount : p.stream.taken.countP (·.status == .error) = 0 := by
    rw [htaken, ← hR.underway.failed, hfailed]
  obtain ⟨htasks, hperm⟩ := hbooks.removed hclosed hatt.listening hwaiting hcount
  have hupdates : updatesIn (h.events ++ (s.endedWith s.run.closingOutcome).closing
      site.glance.now s.run.closingOutcome) = Update.complete phase taken (.ok ()) := by
    rw [Supervision.received_eq_nil_of_closed hh, List.append_nil, hR.ofPhase] at hlife
    rcases hlife with hu | ⟨r, hr', hlife⟩
    · have hended := hu.result?
      rw [hr] at hended
      cases hended
    · rw [hr] at hr'
      cases hr'
      exact hlife.updates
  obtain ⟨r, hrclosed, hruns, hreading, hsignals⟩ := hatt.released hclosed
  obtain ⟨rest, hclosing, hrest⟩ := Supervision.closing_eq (s.endedWith s.run.closingOutcome)
    site.glance.now s.run.closingOutcome
  rw [hclosing] at hlogs' hupdates ⊢
  refine ⟨r, hrclosed, ⟨?_, hlogs'.owned, ⟨taken, ?_, htaken ▸ hperm⟩, hlogs'.uncalled⟩, ?_, ?_, ?_,
    hfired, ?_⟩
  · exact fun i => (hlogs'.traced i).trans (Pool.traceAt_of_removed htasks i)
  · rw [events_append, events_entries]
    exact hupdates
  · rw [Site.performAll_cons]
    exact (Site.runs_performAll fun e he => (hrest e he).1).1.trans hruns
  · rw [Site.performAll_cons]
    exact (Site.runs_performAll fun e he => (hrest e he).1).2.trans hreading
  · rw [Site.performAll_cons]
    exact (Site.signals_performAll fun e he => (hrest e he).2.1).trans hsignals
  · refine Site.history_performAll ?_
    intro e he
    rcases List.mem_cons.mp he with rfl | hm
    · rfl
    · exact (hrest e hm).2.2

end Removing

end Decommission
