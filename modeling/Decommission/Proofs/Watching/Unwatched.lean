import Decommission.Proofs.Course.Turns

/-!
# Sites without watchers

Engines, uninstallers and clusters may be watched.  What that adds to the history are
notes, which `Note.isOfWatcher` tells from all others.  `Site.unwatched` is a site with
nothing watched, and without the notes there have been.

Whatever happens at a site, it does not matter whether the watchers are removed before or
after.  One lemma for each operation says so, down to the turns of a pool.
-/

namespace Decommission

/-! ## Notes of watchers -/

/-- Whether a note is taken by something that is watched. -/
def Note.isOfWatcher : Note → Bool
  | engineStarting .. | engineStarted | engineNotStarted .. | uninstalling .. | uninstalled ..
  | notUninstalled .. => true
  | n => n.isOfCluster

/-- Whether the event is a note of a watcher. -/
def Event.isOfWatcher : Event → Bool
  | note n => n.isOfWatcher
  | _ => false

/-- The events but for the notes of watchers. -/
def unwatchedIn (es : List Event) : List Event := es.filter fun e => !e.isOfWatcher

@[simp]
theorem unwatchedIn_nil : unwatchedIn [] = [] := rfl

@[simp]
theorem unwatchedIn_append (es fs : List Event) :
    unwatchedIn (es ++ fs) = unwatchedIn es ++ unwatchedIn fs := List.filter_append ..

theorem unwatchedIn_cons (e : Event) (es : List Event) :
    unwatchedIn (e :: es) = unwatchedIn [e] ++ unwatchedIn es := unwatchedIn_append [e] es

theorem unwatchedIn_singleton {e : Event} (h : e.isOfWatcher = false) : unwatchedIn [e] = [e] :=
  List.filter_cons_of_pos (by rw [h]; rfl)

/-- Notes of watchers are left out. -/
theorem unwatchedIn_eq_nil {es : List Event} (h : ∀ e ∈ es, e.isOfWatcher) :
    unwatchedIn es = [] := by
  rw [unwatchedIn, List.filter_eq_nil_iff]
  intro e he
  rw [h e he]
  exact Bool.false_ne_true

namespace History

/-- The history but for the notes of watchers. -/
def unwatched (h : History) : History := h.filter fun x => !x.event.isOfWatcher

theorem unwatched_append (h k : History) : unwatched (h ++ k) = h.unwatched ++ k.unwatched :=
  List.filter_append ..

theorem unwatched_entries (now : Nat) (engine : Option Nat) (es : List Event) :
    unwatched (es.map (⟨now, engine, ·⟩)) = (unwatchedIn es).map (⟨now, engine, ·⟩) :=
  List.filter_map

/-- What is not read off notes of watchers can be read off a history without them. -/
theorem filterMap_unwatched {α : Type} {f : Entry → Option α}
    (hf : ∀ x : Entry, x.event.isOfWatcher → f x = none) (h : History) :
    h.unwatched.filterMap f = h.filterMap f := by
  rw [unwatched, List.filterMap_filter]
  refine congrArg (List.filterMap · h) (funext fun x => ?_)
  cases hx : x.event.isOfWatcher with
  | false => rfl
  | true => exact (hf x hx).symm

theorem updates_unwatched (h : History) : h.unwatched.updates = h.updates := by
  refine filterMap_unwatched (fun x hx => ?_) h
  obtain ⟨time, engine, event⟩ := x
  cases event with
  | update u => cases hx
  | _ => rfl

theorem calls_unwatched (h : History) : h.unwatched.calls = h.calls := by
  refine filterMap_unwatched (fun x hx => ?_) h
  obtain ⟨time, engine, event⟩ := x
  cases event with
  | called c => cases hx
  | _ => rfl

end History

/-! ## Engines -/

/-- The uninstaller, not watched. -/
def Uninstaller.unwatched (u : Uninstaller) : Uninstaller := { u with watched := false }

theorem Uninstaller.startNotes_unwatched (u : Uninstaller) (c : Component) :
    unwatchedIn ((u.startNotes c).map .note) = [] := by
  rw [startNotes]
  split
  · rfl
  · rfl

theorem Uninstaller.endNotes_unwatched (u : Uninstaller) (c : Component) (v : Verdict) :
    unwatchedIn ((u.endNotes c v).map .note) = [] := by
  unfold endNotes
  split
  · cases v with
    | none => rfl
    | some e => rfl
  · rfl

namespace Pool

variable {u : Uninstaller} {now : Nat} {fired : Bool} {p : Pool}

/-- What an action of a pool shows but for the notes of watchers. -/
theorem events_unwatched (u : Uninstaller) (fired : Bool) (p : Pool) (a : Action) :
    unwatchedIn (p.events u fired a) = p.events u.unwatched fired a := by
  cases a with
  | heed | exhaust =>
      simp only [events]
      split
      · rfl
      · rfl
  | call i due =>
      simp only [events]
      cases p.tasks[i]? with
      | none => rfl
      | some t =>
          simp only
          rw [unwatchedIn_append, u.startNotes_unwatched]
          rfl
  | conclude i v =>
      simp only [events]
      cases p.tasks[i]? with
      | none => rfl
      | some t =>
          simp only
          rw [unwatchedIn_cons, u.endNotes_unwatched]
          rfl
  | _ => rfl

theorem tasksNext?_unwatched (i : Nat) (ts : List Task) :
    tasksNext? u.unwatched now p i ts = tasksNext? u now p i ts := by
  induction ts generalizing i with
  | nil => rfl
  | cons t ts ih =>
      rw [tasksNext?, tasksNext?, ih]
      rfl

/-- The usual choice does not depend on whether removals are noted. -/
theorem next?_unwatched : p.next? u.unwatched now fired = p.next? u now fired := by
  rw [next?, next?, tasksNext?_unwatched]

end Pool

namespace Work

/-- The work, its uninstaller not watched. -/
def unwatched : Work → Work
  | pool u p => pool u.unwatched p
  | w => w

variable {w : Work}

@[simp]
theorem stream_unwatched (w : Work) : w.unwatched.stream = w.stream := by cases w <;> rfl

@[simp]
theorem head_unwatched (w : Work) : w.unwatched.head = w.head := by cases w <;> rfl

@[simp]
theorem alarm?_unwatched (w : Work) : w.unwatched.alarm? = w.alarm? := by cases w <;> rfl

@[simp]
theorem moves_unwatched (w : Work) : w.unwatched.moves = w.moves := by cases w <;> rfl

theorem unwatched_onStream (f : Stream → Stream) (w : Work) :
    (w.onStream f).unwatched = w.unwatched.onStream f := by cases w <;> rfl

/-- A move of work but for watchers. -/
def bare (m : List Event × Work) : List Event × Work := (unwatchedIn m.1, m.2.unwatched)

theorem bare_play (a : Playback.Action) (p : Playback) :
    bare (Playback.events a, .script p) = (Playback.events a, .script p) := by
  cases a with
  | _ => rfl

theorem act?_unwatched (fired : Bool) (a : Action) (w : Work) :
    w.unwatched.act? fired a = (w.act? fired a).map bare := by
  cases w with
  | nothing s =>
      cases a with
      | play a => rfl
      | pool a => rfl
  | script p =>
      cases a with
      | play a =>
          simp only [unwatched, act?, Option.map_map]
          exact congrArg (Option.map · _) (funext fun p' => (bare_play a p').symm)
      | pool a => rfl
  | pool u p =>
      cases a with
      | play a => rfl
      | pool a =>
          simp only [unwatched, act?, Option.map_map]
          refine congrArg (Option.map · _) (funext fun p' => ?_)
          exact Prod.ext (Pool.events_unwatched u fired p a).symm rfl

theorem turn?_unwatched (now : Nat) (fired : Bool) (w : Work) :
    w.unwatched.turn? now fired = (w.turn? now fired).map bare := by
  cases w with
  | nothing s => rfl
  | script p =>
      simp only [unwatched, turn?, Option.bind_eq_bind]
      cases p.next? now fired with
      | none => rfl
      | some a =>
          simp only [Option.bind_some]
          cases p.step fired a with
          | none => rfl
          | some p' => exact congrArg some (bare_play a p').symm
  | pool u p =>
      simp only [unwatched, turn?, Option.bind_eq_bind, Pool.next?_unwatched]
      cases p.next? u now fired with
      | none => rfl
      | some a =>
          simp only [Option.bind_some]
          cases p.step fired a with
          | none => rfl
          | some p' => exact congrArg some (Prod.ext (Pool.events_unwatched u fired p a).symm rfl)

end Work

/-- The job, its uninstaller not watched. -/
def Job.unwatched : Job → Job
  | pool workers components u => pool workers components u.unwatched
  | j => j

theorem Job.begin_unwatched (j : Job) : j.unwatched.begin = j.begin.map Work.unwatched := by
  cases j with
  | nothing => rfl
  | script s =>
      simp only [unwatched, begin]
      cases s.startError with
      | none => rfl
      | some reason => rfl
  | pool workers components u =>
      simp only [unwatched, begin]
      split
      · rfl
      · rfl

theorem Job.moves_unwatched (j : Job) : j.unwatched.moves = j.moves := by
  rw [moves, moves, begin_unwatched]
  cases j.begin with
  | error e => rfl
  | ok w => exact w.moves_unwatched

namespace Engine

/-- The engine, neither it nor its uninstaller watched. -/
def unwatched (e : Engine) : Engine := { e with job := e.job.unwatched, watched := false }

theorem begin_unwatched (e : Engine) : e.unwatched.begin = e.begin.map Work.unwatched :=
  e.job.begin_unwatched

theorem jobEvents_unwatched (e : Engine) : e.unwatched.jobEvents = e.jobEvents := by
  rw [jobEvents, jobEvents, unwatched]
  cases e.job with
  | _ => rfl

theorem unwatchedIn_jobEvents (e : Engine) : unwatchedIn e.jobEvents = e.jobEvents := by
  rw [jobEvents]
  split
  · rfl
  · rfl

/-- What can be seen of a start but for the notes of watchers. -/
theorem beginEvents_unwatched (e : Engine) (fired : Bool) :
    unwatchedIn (e.beginEvents fired) = e.unwatched.beginEvents fired := by
  have hstarted : unwatchedIn [.note e.startedNote] = [] := by
    rw [startedNote]
    split
    · rfl
    · rfl
  show _ = e.unwatched.jobEvents
  rw [beginEvents, jobEvents_unwatched]
  split
  · rw [List.cons_append, unwatchedIn_cons, unwatchedIn_append, hstarted, e.unwatchedIn_jobEvents,
      List.append_nil]
    rfl
  · exact e.unwatchedIn_jobEvents

end Engine

/-! ## Sites -/

/-- The run, its uninstaller not watched. -/
def Run.unwatched (r : Run) : Run := { r with work := r.work.unwatched }

theorem total_map {α β : Type} (f : β → Nat) (g : α → β) (xs : List α) :
    total f (xs.map g) = total (fun x => f (g x)) xs := by
  induction xs with
  | nil => rfl
  | cons x xs ih => exact congrArg (f (g x) + ·) ih

namespace Site

/-- The site with nothing watched, and without the notes of watchers. -/
def unwatched (s : Site) : Site :=
  { s with
    engines := s.engines.map Engine.unwatched
    runs := s.runs.map Run.unwatched
    history := s.history.unwatched }

variable {s : Site}

/-! ### Looking -/

theorem answer?_unwatched (s : Site) : s.unwatched.answer? = s.answer? := by
  have hbegin : ∀ e : Engine, (e.unwatched.begin.map fun _ => ()) = e.begin.map fun _ => () := by
    intro e
    rw [e.begin_unwatched]
    cases e.begin with
    | error _ => rfl
    | ok _ => rfl
  simp only [answer?, unwatched, Option.bind_eq_bind, List.getElem?_map]
  cases s.launch with
  | none => rfl
  | some l =>
      simp only [Option.bind_some]
      cases l.due with
      | none => rfl
      | some due =>
          simp only [Option.bind_some]
          cases s.engines[l.engine]? with
          | none => rfl
          | some e =>
              show (if due ≤ s.now then some (e.unwatched.begin.map fun _ => ()) else none) =
                if due ≤ s.now then some (e.begin.map fun _ => ()) else none
              rw [hbegin]

theorem head_unwatched (s : Site) : s.unwatched.head = s.head := by
  have hread : (s.unwatched.reading.bind fun i => s.unwatched.runs[i]?) =
      (s.reading.bind fun i => s.runs[i]?).map Run.unwatched := by
    show (s.reading.bind fun i => (s.runs.map Run.unwatched)[i]?) = _
    rw [Option.map_bind]
    exact congrArg (Option.bind s.reading) (funext fun i => List.getElem?_map ..)
  rw [head, head, hread]
  cases s.reading.bind fun i => s.runs[i]? with
  | none => rfl
  | some r => exact r.work.head_unwatched

/-- Watchers do not change what can be seen. -/
theorem glance_unwatched (s : Site) : s.unwatched.glance = s.glance := by
  rw [glance, glance, s.answer?_unwatched, s.head_unwatched]
  rfl

/-! ### Events -/

theorem unwatched_record (s : Site) (engine : Option Nat) (es : List Event) :
    (s.record engine es).unwatched = s.unwatched.record engine (unwatchedIn es) := by
  simp only [record, unwatched, History.unwatched_append, History.unwatched_entries]

theorem unwatched_onReading {f : Work → Work} (hf : ∀ w, (f w).unwatched = f w.unwatched)
    (s : Site) : (s.onReading f).unwatched = s.unwatched.onReading f := by
  have hruns : ∀ i, (s.runs.modify i fun r => { r with work := f r.work }).map Run.unwatched =
      (s.runs.map Run.unwatched).modify i fun r => { r with work := f r.work } := by
    intro i
    refine List.ext_getElem? fun j => ?_
    simp only [List.getElem?_map, List.getElem?_modify]
    cases s.runs[j]? with
    | none => split <;> rfl
    | some r =>
        split
        · exact congrArg some (congrArg (Run.mk r.engine r.signal) (hf r.work))
        · rfl
  have hreading : s.unwatched.reading = s.reading := rfl
  rw [onReading, onReading, hreading]
  cases s.reading with
  | none => rfl
  | some i => simp only [unwatched, hruns]

theorem unwatched_launchEngine (i : Nat) (s : Site) :
    (s.launchEngine i).unwatched = s.unwatched.launchEngine i := by
  have hengine : s.unwatched.engines[i]? = (s.engines[i]?).map Engine.unwatched :=
    List.getElem?_map ..
  rw [launchEngine, launchEngine, hengine]
  cases s.engines[i]? with
  | none => rfl
  | some e => rfl

/-- The site with one more run, whose stream is read. -/
def begun (i : Nat) (w : Work) (s : Site) : Site :=
  { s with runs := s.runs ++ [⟨i, s.signal, w⟩], reading := some s.runs.length }

theorem unwatched_begun (i : Nat) (w : Work) (s : Site) :
    (s.begun i w).unwatched = s.unwatched.begun i w.unwatched := by
  simp only [begun, unwatched, List.map_append, List.length_map]
  rfl

theorem unwatched_takeAnswer (i : Nat) (s : Site) :
    (s.takeAnswer i).unwatched = s.unwatched.takeAnswer i := by
  have hengine : s.unwatched.engines[i]? = (s.engines[i]?).map Engine.unwatched :=
    List.getElem?_map ..
  rw [takeAnswer, takeAnswer, hengine]
  cases s.engines[i]? with
  | none => rfl
  | some e =>
      have hrecord :
          (record { s with launch := none } (some i) (e.beginEvents s.isFired)).unwatched =
            record { s.unwatched with launch := none } (some i)
              (e.unwatched.beginEvents s.isFired) := by
        rw [unwatched_record, e.beginEvents_unwatched]
        rfl
      simp only [Option.map_some, e.begin_unwatched]
      cases e.begin with
      | error _ => exact hrecord
      | ok w =>
          have hhung := unwatched_onReading (f := Work.hangUp) (Work.unwatched_onStream _)
            (record { s with launch := none } (some i) (e.beginEvents s.isFired))
          rw [hrecord] at hhung
          exact (unwatched_begun i w _).trans (congrArg (begun i w.unwatched) hhung)

theorem unwatched_release (s : Site) : s.release.unwatched = s.unwatched.release := by
  have hhung := unwatched_onReading (f := Work.hangUp) (Work.unwatched_onStream _) s
  rw [release, release, ← hhung]
  rfl

/-- Watchers do not change what an event does. -/
theorem unwatched_carryOut (s : Site) (e : Event) :
    (s.carryOut e).unwatched = s.unwatched.carryOut e := by
  cases e with
  | launched i => exact unwatched_launchEngine i s
  | answered i => exact unwatched_takeAnswer i s
  | received => exact unwatched_onReading (Work.unwatched_onStream _) s
  | released => exact unwatched_release s
  | _ => rfl

/-- It does not matter whether watchers are removed before or after an event. -/
theorem unwatched_perform (s : Site) (e : Event) :
    (s.perform e).unwatched = s.unwatched.performAll (unwatchedIn [e]) := by
  rw [perform, unwatched_carryOut, unwatched_record]
  cases hw : e.isOfWatcher with
  | false =>
      rw [unwatchedIn_singleton hw]
      rfl
  | true =>
      rw [unwatchedIn_eq_nil fun f hf => List.mem_singleton.mp hf ▸ hw]
      cases e with
      | note n =>
          show s.unwatched.record none [] = s.unwatched
          rw [record, List.map_nil, List.append_nil]
      | _ => cases hw

theorem unwatched_performAll (s : Site) (es : List Event) :
    (s.performAll es).unwatched = s.unwatched.performAll (unwatchedIn es) := by
  induction es generalizing s with
  | nil => rfl
  | cons e es ih =>
      rw [performAll_cons, ih, unwatched_perform, unwatchedIn_cons e es, performAll_append]

/-! ### Runs -/

theorem unwatched_setRun (s : Site) (i : Nat) (r : Run) (engine : Option Nat)
    (m : List Event × Work) :
    ({ s.record engine m.1 with runs := s.runs.set i { r with work := m.2 } } : Site).unwatched =
      { s.unwatched.record engine (Work.bare m).1 with
        runs := s.unwatched.runs.set i { r.unwatched with work := (Work.bare m).2 } } := by
  have hrecord := unwatched_record s engine m.1
  have hset : (s.runs.set i { r with work := m.2 }).map Run.unwatched =
      (s.runs.map Run.unwatched).set i { r.unwatched with work := m.2.unwatched } := List.map_set
  show { (s.record engine m.1).unwatched with
    runs := (s.runs.set i { r with work := m.2 }).map Run.unwatched } = _
  rw [hrecord, hset]
  rfl

/-- It does not matter whether watchers are removed before or after an action of a run. -/
theorem act?_unwatched (i : Nat) (a : Work.Action) (s : Site) :
    s.unwatched.act? i a = (s.act? i a).map unwatched := by
  have hrun : s.unwatched.runs[i]? = (s.runs[i]?).map Run.unwatched := List.getElem?_map ..
  rw [act?, act?, hrun]
  cases s.runs[i]? with
  | none => rfl
  | some r =>
      have hact := r.work.act?_unwatched (s.signals.isFired r.signal) a
      simp only [Option.map_some, Option.bind_eq_bind, Option.bind_some]
      show ((r.work.unwatched.act? (s.signals.isFired r.signal) a).bind fun _ => _) = _
      rw [hact]
      cases r.work.act? (s.signals.isFired r.signal) a with
      | none => rfl
      | some m => exact congrArg some (unwatched_setRun s i r (some r.engine) m).symm

theorem runTurn?_unwatched (s : Site) (r : Run) :
    s.unwatched.runTurn? r.unwatched = (s.runTurn? r).map Work.bare :=
  r.work.turn?_unwatched s.now (s.signals.isFired r.signal)

theorem firstTurn?_unwatched (s : Site) (i : Nat) (rs : List Run) :
    s.unwatched.firstTurn? i (rs.map Run.unwatched) =
      (s.firstTurn? i rs).map fun x => (x.1, x.2.1.unwatched, Work.bare x.2.2) := by
  induction rs generalizing i with
  | nil => rfl
  | cons r rs ih =>
      rw [List.map_cons, firstTurn?, firstTurn?, runTurn?_unwatched]
      cases s.runTurn? r with
      | none => exact ih (i + 1)
      | some m => rfl

/-- It does not matter whether watchers are removed before or after a move of the runs. -/
theorem work?_unwatched (s : Site) : s.unwatched.work? = s.work?.map unwatched := by
  have hfirst : s.unwatched.firstTurn? 0 s.unwatched.runs =
      (s.firstTurn? 0 s.runs).map fun x => (x.1, x.2.1.unwatched, Work.bare x.2.2) :=
    s.firstTurn?_unwatched 0 s.runs
  rw [work?, work?, hfirst]
  cases s.firstTurn? 0 s.runs with
  | none => rfl
  | some x => exact congrArg some (unwatched_setRun s x.1 x.2.1 (some x.2.1.engine) x.2.2).symm

theorem unwatched_workUpTo (n : Nat) (s : Site) :
    (s.workUpTo n).unwatched = s.unwatched.workUpTo n := by
  induction n generalizing s with
  | zero => rfl
  | succ n ih =>
      rw [workUpTo, workUpTo, work?_unwatched]
      cases s.work? with
      | none => rfl
      | some t => exact ih t

theorem moves_unwatched (s : Site) : s.unwatched.moves = s.moves := by
  show total _ (s.runs.map Run.unwatched) = _
  rw [total_map]
  exact congrArg (total · s.runs) (funext fun r => r.work.moves_unwatched)

theorem unwatched_workOff (s : Site) : s.workOff.unwatched = s.unwatched.workOff := by
  rw [workOff, workOff, moves_unwatched, unwatched_workUpTo]

/-! ### Time -/

theorem alarm?_unwatched (s : Site) : s.unwatched.alarm? = s.alarm? := by
  show (s.runs.map Run.unwatched).foldr _ _ = _
  rw [List.foldr_map]
  refine congrArg (List.foldr · _ s.runs) (funext fun r => funext fun next => ?_)
  exact congrArg (earlier? · next) r.work.alarm?_unwatched

theorem effort_unwatched (s : Site) : s.unwatched.effort = s.effort := by
  have hengines : total (fun e => e.job.moves) (s.engines.map Engine.unwatched) =
      total (fun e => e.job.moves) s.engines := by
    rw [total_map]
    exact congrArg (total · s.engines) (funext fun e => e.job.moves_unwatched)
  have hruns : total (fun r : Run => r.work.stream.waiting.length) (s.runs.map Run.unwatched) =
      total (fun r : Run => r.work.stream.waiting.length) s.runs := by
    rw [total_map]
    refine congrArg (total · s.runs) (funext fun r => ?_)
    exact congrArg (fun x : Stream => x.waiting.length) r.work.stream_unwatched
  rw [effort, effort, moves_unwatched]
  show s.moves + total _ (s.engines.map Engine.unwatched) + total _ (s.runs.map Run.unwatched) = _
  rw [hengines, hruns]

end Site

/-! ## Watching -/

/-- Which engines and which uninstallers are watched, engines being counted. -/
structure Watching where
  engines : Nat → Bool
  uninstallers : Nat → Bool

/-- The job with an uninstaller that is watched or not. -/
def Job.watchedIf (watched : Bool) : Job → Job
  | pool workers components u => pool workers components { u with watched }
  | j => j

/-- The site with some of its engines and of their uninstallers watched. -/
def Site.watchedBy (w : Watching) (s : Site) : Site :=
  { s with
    engines := s.engines.mapIdx fun i e =>
      { e with job := e.job.watchedIf (w.uninstallers i), watched := w.engines i } }

/-- Without its watchers the site is what it would be without watchers. -/
theorem Site.unwatched_watchedBy (w : Watching) (s : Site) :
    (s.watchedBy w).unwatched = s.unwatched := by
  have hjob : ∀ (b : Bool) (j : Job), (j.watchedIf b).unwatched = j.unwatched := by
    intro b j
    cases j with
    | _ => rfl
  have hengines : (s.watchedBy w).engines.map Engine.unwatched =
      s.engines.map Engine.unwatched := by
    refine List.ext_getElem? fun i => ?_
    rw [watchedBy, List.getElem?_map, List.getElem?_map, List.getElem?_mapIdx, Option.map_map]
    refine congrArg (Option.map · _) (funext fun e => ?_)
    show ({ e with job := (e.job.watchedIf _).unwatched, watched := false } : Engine) = _
    rw [hjob]
    rfl
  rw [unwatched, hengines]
  rfl

end Decommission
