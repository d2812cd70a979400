import Decommission.Proofs.Course.Attending
import Decommission.Proofs.Course.Turns
import Decommission.Proofs.Pool.Conserving
import Decommission.Session

/-!
# Draining a pool

A reader that drains the stream of a pool takes every report off when the roster of the
pool says, and the stream ends when the last removal does (`Site.drained`).  At the
site the pool makes the usual choice (`Attends.work?_eq`), and time passes to the next
alarm, which is the first end of a call under way (`Site.Follows.elapse`).  Every turn
leaves less to do (`Draining.Drains.turn`).

So the greedy list schedule is what a pool keeps to in any order of moves, in the usual
course, and when its stream is drained (`Roster.conserving`).
-/

namespace Decommission

open Pool (Paced OnSchedule)

/-- The beginning or the end of a removal by an action, as it is found in a history. -/
def Roster.removal? (z : Roster) (engine : Nat) : Nat × Pool.Action → Option Entry
  | (time, .call i _) =>
      (z.components[i]?).map fun c => ⟨time, some engine, .removalStarted i c⟩
  | (time, .conclude i v) =>
      (z.components[i]?).map fun c => ⟨time, some engine, .removalEnded i c v⟩
  | _ => none

namespace Pool

variable {z : Roster} {now engine : Nat} {log : List (Nat × Action)} {p p' : Pool} {a : Action}

/-- What an action shows of removals. -/
theorem Paced.removals_act (h : Paced z now log p) (hs : p.step false a = some p') :
    ((p.events z.uninstaller false a).map (Entry.mk now (some engine))).filter
        (·.event.isRemoval) = (z.removal? engine (now, a)).toList := by
  have hquiet : ∀ ns : List Note, ((ns.map Event.note).map (Entry.mk now (some engine))).filter
      (·.event.isRemoval) = [] := by
    intro ns
    rw [List.map_map, List.filter_eq_nil_iff]
    intro e he
    obtain ⟨n, _, rfl⟩ := List.mem_map.mp he
    exact Bool.false_ne_true
  cases step_cases hs with
  | call before after c due ht =>
      have hcomp := h.component (t := ⟨c, .ready⟩) (ht ▸ getElem?_split)
      rw [events, ht, getElem?_split]
      dsimp only
      rw [List.map_append, List.filter_append, hquiet, Roster.removal?, hcomp]
      rfl
  | conclude before after c due v ht =>
      have hcomp := h.component (t := ⟨c, .calling due⟩) (ht ▸ getElem?_split)
      rw [events, ht, getElem?_split]
      dsimp only
      rw [List.map_cons, List.filter_cons_of_pos rfl, hquiet, Roster.removal?, hcomp]
      rfl
  | collapse | dispatch | heed | exhaust | close | report | die => rfl

/-- What waits on the stream after an action is what waited before and what arrives. -/
theorem Paced.waiting_act (h : Paced z now log p) (hs : p.step false a = some p')
    (ha : a.isTimely z.uninstaller now p) :
    p'.stream.waiting = p.stream.waiting ++ (z.arrival? (now, a)).toList.map Prod.snd := by
  have hsent := h.sent_act hs ha
  rw [List.filterMap_append, List.map_append, ← h.sent, Stream.sent, Stream.sent,
    (stream_step hs).1, List.append_assoc] at hsent
  exact List.append_cancel_left hsent

/-! ## Alarms -/

/-- When the call of a task ends, if one is under way. -/
def Task.due? (t : Task) : Option Nat :=
  match t.stage with
  | .calling due => some due
  | _ => none

/-- The next alarm is the first end of a call under way. -/
theorem alarm?_eq (p : Pool) : p.alarm? = (p.tasks.filterMap Task.due?).min? := by
  obtain ⟨workers, dispatcher, tasks, stream⟩ := p
  induction tasks with
  | nil => rfl
  | cons t ts ih =>
      change _ = (ts.filterMap Task.due?).min? at ih
      obtain ⟨c, stage⟩ := t
      cases stage with
      | calling due =>
          show earlier? (some due) (alarm? ⟨workers, dispatcher, ts, stream⟩) =
            (due :: ts.filterMap Task.due?).min?
          rw [ih, List.min?_cons]
          cases (ts.filterMap Task.due?).min? with
          | none => rfl
          | some a => rfl
      | ready | returned | reported | dead => exact ih

/-- While a call is under way there is an alarm. -/
theorem alarm?_of_calling {t : Task} {due : Nat} (hm : t ∈ p.tasks)
    (hst : t.stage = .calling due) : ∃ alarm, p.alarm? = some alarm := by
  rw [alarm?_eq]
  have hdue : due ∈ p.tasks.filterMap Task.due? :=
    List.mem_filterMap.mpr ⟨t, hm, by rw [Task.due?, hst]⟩
  exact Option.isSome_iff_exists.mp (List.isSome_min?_of_mem hdue)

theorem alarm?_eq_some {alarm : Nat} (h : p.alarm? = some alarm) :
    (∃ t ∈ p.tasks, t.stage = .calling alarm) ∧
      ∀ t ∈ p.tasks, ∀ due, t.stage = .calling due → alarm ≤ due := by
  rw [alarm?_eq, List.min?_eq_some_iff] at h
  refine ⟨?_, fun t hm due hst => ?_⟩
  · obtain ⟨t, hm, hdue⟩ := List.mem_filterMap.mp h.1
    refine ⟨t, hm, ?_⟩
    rw [Task.due?] at hdue
    split at hdue
    · cases hdue
      assumption
    · cases hdue
  · exact h.2 due (List.mem_filterMap.mpr ⟨t, hm, by rw [Task.due?, hst]⟩)

end Pool

namespace Site

variable {s s' : Site} {engine : Nat} {u : Uninstaller} {p : Pool}

/-- The only run of a site is the one that is read. -/
theorem Attends.runs_alone (h : s.Attends engine [] u p) :
    s.runs = [⟨engine, s.signal, .pool u p⟩] := h.runs

/-- The only run of a site makes the usual choice. -/
theorem Attends.work?_eq (h : s.Attends engine [] u p) :
    s.work? = (p.next? u s.now s.isFired).bind fun a => (p.step s.isFired a).map fun p' =>
      { s.record (some engine) (p.events u s.isFired a) with
        runs := [⟨engine, s.signal, .pool u p'⟩] } := by
  have hturn : s.runTurn? ⟨engine, s.signal, .pool u p⟩ =
      (Work.pool u p).turn? s.now s.isFired := rfl
  rw [work?, h.runs_alone, firstTurn?, hturn, Work.turn?]
  cases p.next? u s.now s.isFired with
  | none => rfl
  | some a =>
      rw [Option.bind_eq_bind, Option.bind_some, Option.bind_some]
      cases p.step s.isFired a with
      | none => rfl
      | some p' =>
          simp [record, h.runs_alone]

/-- A site whose only run is a pool that keeps to a roster, which is read.  `before` is
what had happened when it began. -/
structure Follows (z : Roster) (engine : Nat) (before : History) (log : List (Nat × Pool.Action))
    (p : Pool) (s : Site) : Prop where
  attends : s.Attends engine [] z.uninstaller p
  idle : s.launch = none
  unfired : s.isFired = false
  paced : Paced z s.now log p
  /-- Nobody lets time pass when the stream is closed. -/
  ended : p.isClosed → s.now = z.latest
  history : ∃ later, s.history = before ++ later ∧
    later.filter (·.event.isRemoval) = log.filterMap (z.removal? engine)

variable {z : Roster} {before : History} {log : List (Nat × Pool.Action)}

theorem Follows.worked (h : s.Follows z engine before log p) (hs : s.work? = some s') :
    ∃ a p', p.step false a = some p' ∧ a.isTimely z.uninstaller s.now p ∧ s'.now = s.now ∧
      s'.Follows z engine before (log ++ [(s.now, a)]) p' := by
  rw [h.attends.work?_eq, h.unfired] at hs
  obtain ⟨a, hnext, hs⟩ := Option.bind_eq_some_iff.mp hs
  obtain ⟨p', hp, rfl⟩ := Option.map_eq_some_iff.mp hs
  have htimely := (Pool.next?_possible hnext).1
  have hpaced := h.paced.act hp htimely
  refine ⟨a, p', hp, htimely, rfl, ⟨rfl, h.attends.reading, hpaced.listening⟩, h.idle, h.unfired,
    hpaced, fun hc => ?_, ?_⟩
  · have hopen : p.isClosed = false := Bool.eq_false_iff.mpr fun hc => by
      rw [Pool.step_of_isClosed hc] at hp
      cases hp
    exact Nat.le_antisymm (h.paced.le_latest hopen) (hpaced.latest_le hc)
  · obtain ⟨later, hhistory, hlater⟩ := h.history
    refine ⟨later ++ (p.events z.uninstaller false a).map (⟨s.now, some engine, ·⟩), ?_, ?_⟩
    · show s.history ++ _ = _
      rw [hhistory, List.append_assoc]
    · rw [List.filter_append, hlater, h.paced.removals_act hp, List.filterMap_append]
      cases hr : z.removal? engine (s.now, a) with
      | none => rw [List.filterMap_cons_none hr]; rfl
      | some e => rw [List.filterMap_cons_some hr]; rfl

/-- The reader takes a report off. -/
theorem Follows.received (h : s.Follows z engine before log p) :
    (s.perform .received).Follows z engine before log { p with stream := p.stream.receive } := by
  obtain ⟨hattends, hsignals⟩ := h.attends.received
  have hnow := (ground_perform s .received).2
  have hidle : (s.perform .received).launch = none := by
    obtain ⟨runs, hs⟩ := onReading_eq Work.receive (s.record none [.received])
    rw [perform, carryOut, hs]
    exact h.idle
  refine ⟨hattends, hidle, (isFired_of_signals hsignals).2.trans h.unfired, ?_, ?_, ?_⟩
  · rw [hnow]
    exact h.paced.receive
  · rw [hnow]
    exact h.ended
  · obtain ⟨later, hhistory, hlater⟩ := h.history
    refine ⟨later ++ [⟨s.now, none, .received⟩], ?_, ?_⟩
    · rw [history_perform rfl, hhistory, List.append_assoc]
    · rw [List.filter_append, hlater]
      exact List.append_nil _

/-- Everybody at the site waits for the pool's calls. -/
theorem Follows.resting (h : s.Follows z engine before log p)
    (hs : s.work? = none) : p.next? z.uninstaller s.now false = none := by
  rw [h.attends.work?_eq, h.unfired] at hs
  cases hnext : p.next? z.uninstaller s.now false with
  | none => rfl
  | some a =>
      obtain ⟨p', hp⟩ := Option.isSome_iff_exists.mp (Pool.next?_possible hnext).2
      rw [hnext, Option.bind_some, hp] at hs
      cases hs

/-- While everybody waits for a call, time passes until the first one ends, and then its
task goes on. -/
theorem Follows.elapse (h : s.Follows z engine before log p) (hpos : 0 < z.workers)
    (hs : s.work? = none) (hopen : p.isClosed = false) :
    ∃ alarm, s.alarm? = some alarm ∧ s.now < alarm ∧ alarm ≤ z.latest ∧
      Follows z engine before log p { s with now := alarm } ∧
      (({ s with now := alarm } : Site).work?).isSome := by
  have hrest := h.paced.resting hpos (h.resting hs)
  have hnot : p.dispatcher ≠ .ended := fun hd => by
    rw [h.paced.isClosed_iff.mpr hd] at hopen
    cases hopen
  obtain ⟨i, t, ht, hbusy⟩ := hrest.busy.resolve_left hnot
  obtain ⟨due, hst, hdue⟩ := hrest.calling i t ht hbusy
  obtain ⟨alarm, halarm⟩ := Pool.alarm?_of_calling (List.mem_of_getElem? ht) hst
  obtain ⟨⟨t', hm', hst'⟩, hfirst⟩ := Pool.alarm?_eq_some halarm
  obtain ⟨i', ht'⟩ := List.mem_iff_getElem?.mp hm'
  have hbusy' : t'.isOver = false := by rw [Pool.Task.isOver, hst']
  obtain ⟨due', hst'', hlt⟩ := hrest.calling i' t' ht' hbusy'
  rw [hst'] at hst''
  cases hst''
  have hsite : s.alarm? = some alarm := by
    rw [alarm?, h.attends.runs_alone, h.idle]
    show earlier? p.alarm? none = _
    rw [halarm]
    rfl
  have hpaced : Paced z alarm log p := h.paced.pass hrest (Nat.le_of_lt hlt)
    fun i t due ht hst => hfirst t (List.mem_of_getElem? ht) due hst
  have hfollows : Follows z engine before log p { s with now := alarm } :=
    ⟨⟨h.attends.runs, h.attends.reading, h.attends.listening⟩, h.idle, h.unfired, hpaced,
      fun hc => absurd hc (by rw [hopen]; exact Bool.false_ne_true), h.history⟩
  refine ⟨alarm, hsite, hlt, hpaced.le_latest hopen, hfollows, ?_⟩
  cases hw : ({ s with now := alarm } : Site).work? with
  | some _ => rfl
  | none =>
      have hwait := (Pool.next?_eq_none_iff.mp (hfollows.resting hw)).2 i' t' ht'
      rw [Pool.taskNext?, hst'] at hwait
      dsimp only at hwait
      rw [if_pos (Nat.le_refl _)] at hwait
      cases hwait

/-! ## What is left to do -/

/-- A bound on the actions and the reads that are left. -/
def load (s : Site) : Nat :=
  2 * s.moves + total (fun r => r.work.stream.waiting.length) s.runs

theorem Follows.moves_eq (h : s.Follows z engine before log p) : s.moves = p.moves := by
  rw [moves, h.attends.runs_alone]
  rfl

theorem Follows.load_eq (h : s.Follows z engine before log p) :
    s.load = 2 * p.moves + p.stream.waiting.length := by
  rw [load, h.moves_eq, h.attends.runs_alone]
  rfl

/-- What has arrived was taken off before, or waits on the stream since just now. -/
def Shows (z : Roster) (reports : List (Nat × Report)) (log : List (Nat × Pool.Action)) (p : Pool)
    (now : Nat) : Prop :=
  log.filterMap z.arrival? = reports ++ p.stream.waiting.map (now, ·)

variable {reports : List (Nat × Report)}

theorem Follows.worked_shows (h : s.Follows z engine before log p)
    (ht : Shows z reports log p s.now) (hs : s.work? = some s') :
    ∃ log' p', s'.Follows z engine before log' p' ∧ Shows z reports log' p' s'.now ∧
      s'.load < s.load := by
  obtain ⟨a, p', hp, htimely, hnow, h'⟩ := h.worked hs
  refine ⟨_, p', h', ?_, ?_⟩
  · have htime : ((z.arrival? (s.now, a)).toList.map Prod.snd).map (s.now, ·) =
        (z.arrival? (s.now, a)).toList := by
      cases hr : z.arrival? (s.now, a) with
      | none => rfl
      | some x =>
          have hx : x.1 = s.now := Pool.arrival?_time hr
          rw [Option.toList_some, List.map_singleton, List.map_singleton, ← hx]
    rw [Shows, hnow, List.filterMap_append, ht, h.paced.waiting_act hp htimely, List.map_append,
      htime, List.append_assoc]
    cases hr : z.arrival? (s.now, a) with
    | none => rw [List.filterMap_cons_none hr]; rfl
    | some x => rw [List.filterMap_cons_some hr]; rfl
  · have hless := Pool.moves_step hp
    have hwaiting := congrArg List.length (h.paced.waiting_act hp htimely)
    rw [List.length_append, List.length_map] at hwaiting
    have hone : (z.arrival? (s.now, a)).toList.length ≤ 1 := by
      cases z.arrival? (s.now, a) with
      | none => exact Nat.zero_le _
      | some x => exact Nat.le_refl _
    rw [h'.load_eq, h.load_eq]
    omega

theorem Follows.workUpTo (h : s.Follows z engine before log p)
    (ht : Shows z reports log p s.now) (n : Nat) :
    ∃ log' p', (s.workUpTo n).Follows z engine before log' p' ∧
      Shows z reports log' p' (s.workUpTo n).now ∧ (s.workUpTo n).load ≤ s.load := by
  induction n generalizing s log p with
  | zero => exact ⟨log, p, h, ht, Nat.le_refl _⟩
  | succ n ih =>
      rw [Site.workUpTo]
      cases hs : s.work? with
      | none => exact ⟨log, p, h, ht, Nat.le_refl _⟩
      | some s' =>
          obtain ⟨log', p', h', ht', hless⟩ := h.worked_shows ht hs
          obtain ⟨log'', p'', h'', ht'', hle⟩ := ih h' ht'
          exact ⟨log'', p'', h'', ht'', Nat.le_trans hle (Nat.le_of_lt hless)⟩

/-- Runs that can move have less to do afterwards. -/
theorem Follows.workOff (h : s.Follows z engine before log p)
    (ht : Shows z reports log p s.now) (hs : s.work?.isSome) :
    ∃ log' p', s.workOff.Follows z engine before log' p' ∧
      Shows z reports log' p' s.workOff.now ∧ s.workOff.load < s.load := by
  obtain ⟨s', hs⟩ := Option.isSome_iff_exists.mp hs
  obtain ⟨log', p', h', ht', hless⟩ := h.worked_shows ht hs
  have hmoves : s.moves = s.moves - 1 + 1 := by
    obtain ⟨a, _, hp, _⟩ := h.worked hs
    have hlt := Pool.moves_step hp
    rw [h.moves_eq]
    omega
  obtain ⟨log'', p'', h'', ht'', hle⟩ := h'.workUpTo ht' (s.moves - 1)
  have hoff : s.workOff = s'.workUpTo (s.moves - 1) := by
    rw [Site.workOff, hmoves, Site.workUpTo, hs]
    rfl
  rw [hoff]
  exact ⟨log'', p'', h'', ht'', Nat.lt_of_le_of_lt hle hless⟩

end Site

/-! ## Draining -/

namespace Draining

open Site (Follows Shows)

/-- A stream is being drained, whose pool keeps to a roster. -/
structure Drains (z : Roster) (engine : Nat) (before : History) (due : Nat)
    (log : List (Nat × Pool.Action)) (p : Pool) (c : Course Draining) : Prop where
  follows : c.site.Follows z engine before log p
  due : c.director.due = due
  shows : Shows z c.director.reports log p c.site.now
  /-- The end of the stream is reached only when all reports have been taken. -/
  closed : c.director.closed = none ∨
    c.director.closed = some true ∧ p.isClosed ∧ p.stream.waiting = []

/-- A bound on the turns that are left. -/
def toGo (c : Course Draining) : Nat :=
  2 * c.site.load + (if c.site.work?.isSome then 0 else 1) +
    if c.director.closed.isSome then 0 else 2

variable {z : Roster} {engine due : Nat} {before : History} {log : List (Nat × Pool.Action)}
  {p : Pool} {c : Course Draining}

/-- There is a next turn, which leaves less to do. -/
def Descends (z : Roster) (engine : Nat) (before : History) (due : Nat)
    (c : Course Draining) : Prop :=
  ∃ c' log p, c.turn? = some c' ∧ Drains z engine before due log p c' ∧ toGo c' < toGo c

theorem isOver_eq (d : Draining) : Director.isOver d = d.closed.isSome := rfl

theorem Drains.head (h : Drains z engine before due log p c) :
    c.site.glance.head = p.stream.head p.isClosed := h.follows.attends.head

/-- A report that waits is taken off. -/
theorem Drains.takes (h : Drains z engine before due log p c) (hopen : c.director.closed = none)
    {r : Report} (hfront : p.stream.head p.isClosed = .report r) :
    Descends z engine before due c := by
  obtain ⟨rest, hwaiting⟩ := Stream.head_eq_report_iff.mp hfront
  have hstep : Director.step? c.site.glance c.director = some ([.received],
      { c.director with reports := c.director.reports ++ [(c.site.now, r)] }) := by
    show step? _ _ = _
    rw [step?, h.head, hfront]
    rfl
  have hreceived := h.follows.received
  have hrest : p.stream.receive.waiting = rest := by rw [Stream.receive, hwaiting]
  refine ⟨_, log, _, Course.turn?_eq_direct (by rw [isOver_eq, hopen]; rfl)
    (Course.direct?_eq_some_iff.mpr ⟨_, _, hstep, rfl⟩), ⟨hreceived, h.due, ?_, .inl hopen⟩, ?_⟩
  · have hshows := h.shows
    rw [Shows, hwaiting] at hshows
    show log.filterMap z.arrival? = _ ++ p.stream.receive.waiting.map _
    rw [hshows, hrest, (Site.ground_performAll c.site [.received]).2, List.append_assoc]
    rfl
  · show 2 * (c.site.perform .received).load +
      (if (c.site.perform .received).work?.isSome then 0 else 1) +
        (if c.director.closed.isSome then 0 else 2) < _
    have hload := hreceived.load_eq
    rw [hrest] at hload
    rw [toGo, hload, h.follows.load_eq, hwaiting, List.length_cons]
    show 2 * (2 * p.moves + rest.length) + _ + _ < _
    split
    · omega
    · omega

/-- The end of the stream ends the draining. -/
theorem Drains.finishes (h : Drains z engine before due log p c) (hopen : c.director.closed = none)
    (hfront : p.stream.head p.isClosed = .closed) : Descends z engine before due c := by
  obtain ⟨hwaiting, hc⟩ := Stream.head_eq_closed_iff.mp hfront
  have hstep : Director.step? c.site.glance c.director =
      some ([], { c.director with closed := some true }) := by
    show step? _ _ = _
    rw [step?, h.head, hfront]
  refine ⟨_, log, p, Course.turn?_eq_direct (by rw [isOver_eq, hopen]; rfl)
    (Course.direct?_eq_some_iff.mpr ⟨_, _, hstep, rfl⟩),
    ⟨h.follows, h.due, h.shows, .inr ⟨rfl, hc, hwaiting⟩⟩, ?_⟩
  show 2 * c.site.load + (if c.site.work?.isSome then 0 else 1) + 0 < _
  rw [toGo, hopen]
  exact Nat.lt_add_of_pos_right Nat.zero_lt_two

/-- While nothing is on the stream, whoever drains it waits. -/
theorem Drains.direct?_eq_none (h : Drains z engine before due log p c) (hlate : z.latest < due)
    (hfront : p.stream.head p.isClosed = .nothing) : c.direct? = none := by
  have hearly : ¬ c.director.due ≤ c.site.now := by
    have hlatest := h.follows.paced.le_latest (Stream.head_eq_nothing_iff.mp hfront).2
    rw [h.due]
    omega
  rw [Course.direct?_eq_none_iff]
  show step? _ _ = _
  rw [step?, h.head, hfront]
  exact if_neg hearly

/-- Meanwhile the pool works as long as it can. -/
theorem Drains.works (h : Drains z engine before due log p c) (hopen : c.director.closed = none)
    (hdirect : c.direct? = none) (hsome : c.site.work?.isSome) :
    Descends z engine before due c := by
  obtain ⟨log', p', h', hshows, hless⟩ := h.follows.workOff h.shows hsome
  refine ⟨_, log', p', Course.turn?_eq_workOff (by rw [isOver_eq, hopen]; rfl) hdirect rfl hsome,
    ⟨h', h.due, hshows, .inl hopen⟩, ?_⟩
  show 2 * c.site.workOff.load + (if c.site.workOff.work?.isSome then 0 else 1) +
    (if c.director.closed.isSome then 0 else 2) < _
  rw [toGo, if_pos hsome]
  split
  · omega
  · omega

/-- If it cannot, time passes until the next removal ends. -/
theorem Drains.elapses (h : Drains z engine before due log p c) (hpos : 0 < z.workers)
    (hlate : z.latest < due) (hopen : c.director.closed = none)
    (hfront : p.stream.head p.isClosed = .nothing) (hw : c.site.work? = none) :
    Descends z engine before due c := by
  obtain ⟨hwaiting, hnot⟩ := Stream.head_eq_nothing_iff.mp hfront
  obtain ⟨alarm, halarm, hlt, hle, h', hsome⟩ := h.follows.elapse hpos hw hnot
  have hnext : c.alarm? = some alarm := by
    rw [Course.alarm?, halarm]
    show some (min alarm c.director.due) = _
    rw [h.due, Nat.min_eq_left (by omega)]
  refine ⟨_, log, p, (Course.turn?_eq_elapse (by rw [isOver_eq, hopen]; rfl)
      (h.direct?_eq_none hlate hfront) rfl hw).trans
    (Course.elapse?_eq_some_iff.mpr ⟨alarm, hnext, hlt, rfl⟩),
    ⟨h', h.due, ?_, .inl hopen⟩, ?_⟩
  · have hshows := h.shows
    rw [Shows, hwaiting] at hshows ⊢
    exact hshows
  · show 2 * c.site.load +
      (if (({ c.site with now := alarm } : Site).work?).isSome then 0 else 1) +
        (if c.director.closed.isSome then 0 else 2) < _
    rw [toGo, if_pos hsome, hw]
    exact Nat.add_lt_add_right (Nat.lt_succ_self _) _

/-- Until the end of the stream is reached, somebody moves or time passes. -/
theorem Drains.turn (h : Drains z engine before due log p c) (hpos : 0 < z.workers)
    (hlate : z.latest < due) (hopen : c.director.closed = none) :
    Descends z engine before due c := by
  cases hfront : p.stream.head p.isClosed with
  | report r => exact h.takes hopen hfront
  | closed => exact h.finishes hopen hfront
  | nothing =>
      cases hw : c.site.work? with
      | some s =>
          exact h.works hopen (h.direct?_eq_none hlate hfront) (by rw [hw]; rfl)
      | none => exact h.elapses hpos hlate hopen hfront hw

/-- Draining ends at the end of the stream. -/
theorem Drains.run (h : Drains z engine before due log p c) (hpos : 0 < z.workers)
    (hlate : z.latest < due) (hopen : c.director.closed = none) :
    ∃ log' p', Drains z engine before due log' p' c.run ∧
      c.run.director.closed = some true ∧ p'.isClosed ∧ p'.stream.waiting = [] := by
  have hover : ∀ {c : Course Draining}, c.director.closed ≠ none → c.turn? = none := by
    intro c hc
    rw [Course.turn?, isOver_eq, Option.isSome_iff_ne_none.mpr hc]
    rfl
  have hbound : toGo c ≤ c.bound := by
    rw [toGo, Course.bound, Site.effort, Site.load, hopen]
    show 2 * _ + _ + 2 ≤ 4 * (_ + 1) + 16
    split
    · omega
    · omega
  obtain ⟨⟨log', p', h'⟩, hend⟩ :=
    Course.run_of_descent (P := fun c => ∃ log p, Drains z engine before due log p c) (μ := toGo)
      (fun c c' hc ht => by
        obtain ⟨log, p, hc⟩ := hc
        cases hopen : c.director.closed with
        | some b =>
            rw [hover (by rw [hopen]; exact Option.some_ne_none b)] at ht
            cases ht
        | none =>
            obtain ⟨c₁, log', p', ht', h', hless⟩ := hc.turn hpos hlate hopen
            rw [ht'] at ht
            cases ht
            exact ⟨⟨log', p', h'⟩, hless⟩) ⟨log, p, h⟩ hbound
  rcases h'.closed with hopen | hclosed
  · obtain ⟨_, _, _, ht, _⟩ := h'.turn hpos hlate hopen
    rw [hend] at ht
    cases ht
  · exact ⟨log', p', h', hclosed⟩

end Draining

/-- What has come of draining the pool of a roster: the reports with their times, whether
the stream ended, and the site.  `before` is what had happened until then. -/
structure Roster.Drained (z : Roster) (engine : Nat) (before : History)
    (reports : List (Nat × Report)) (closed : Bool) (s : Site) : Prop where
  /-- Every component is reported when its removal ends. -/
  arrivals : reports.Perm (z.components.mapIdx fun i c => (z.endsAt i, z.reportOn i c))
  ordered : reports.Pairwise fun a b => a.1 ≤ b.1
  /-- The stream has ended, and this is when the last removal has. -/
  closed : closed = true
  now : s.now = z.latest
  /-- Every removal has started and ended on schedule. -/
  removals : ∃ later, s.history = before ++ later ∧ ∀ i c, z.components[i]? = some c →
    later.filter (·.event.isRemovalAt i) =
      [⟨z.startsAt i, some engine, .removalStarted i c⟩,
        ⟨z.endsAt i, some engine, .removalEnded i c (z.uninstaller.verdict i c)⟩]

/-- What a history shows of the removal of a component is what its task has done. -/
theorem removalsAt_eq {z : Roster} {engine i : Nat} {later : History}
    {log : List (Nat × Pool.Action)}
    (h : later.filter (·.event.isRemoval) = log.filterMap (z.removal? engine)) :
    later.filter (·.event.isRemovalAt i) =
      (log.filter fun e => e.2.isOf i).filterMap (z.removal? engine) := by
  have hat : later.filter (·.event.isRemovalAt i) =
      (later.filter (·.event.isRemoval)).filter (·.event.isRemovalAt i) := by
    rw [List.filter_filter]
    refine List.filter_congr fun e _ => ?_
    cases hr : e.event.isRemovalAt i with
    | false => rfl
    | true => rw [Event.isRemoval_of_isRemovalAt hr]; rfl
  rw [hat, h, List.filter_filterMap, List.filterMap_filter]
  refine List.filterMap_congr fun e _ => ?_
  obtain ⟨time, a⟩ := e
  cases a with
  | call j due | conclude j v =>
      show Option.filter _ ((z.components[j]?).map _) =
        if (j == i) = true then (z.components[j]?).map _ else none
      cases z.components[j]? with
      | none => exact (ite_self (c := (j == i) = true) none).symm
      | some c => rfl
  | report j | die j => exact (ite_self _).symm
  | _ => rfl

/-- Draining the stream of a pool that has just begun takes its reports off when the
roster says, until the stream ends. -/
theorem Site.drained {z : Roster} {s : Site} {engine timeout : Nat} (hpos : 0 < z.workers)
    (hw : z.workers ≤ slotLimit) (hattends : s.Attends engine [] z.uninstaller z.pool)
    (hidle : s.launch = none) (hfired : s.isFired = false) (hnow : s.now = z.start)
    (hlate : z.latest < s.now + timeout) :
    z.Drained engine s.history (s.drainWithin timeout).1 (s.drainWithin timeout).2.1
      (s.drainWithin timeout).2.2 := by
  have hstart : Draining.Drains z engine s.history (s.now + timeout) [] z.pool
      ⟨{ due := s.now + timeout }, s⟩ := by
    refine ⟨⟨hattends, hidle, hfired, ?_, fun hc => ?_, [], ?_, rfl⟩, rfl, rfl, .inl rfl⟩
    · rw [hnow]
      exact Pool.paced_start hw
    · cases hc
    · exact (List.append_nil _).symm
  obtain ⟨log, p, h, hclosed, hc, hwaiting⟩ := hstart.run hpos hlate rfl
  have hschedule := h.follows.paced.onSchedule hc
  have hshows := h.shows
  rw [Site.Shows, hwaiting, List.map_nil, List.append_nil] at hshows
  have harrivals := hschedule.arrivals
  have hordered := hschedule.ordered
  rw [hshows] at harrivals hordered
  obtain ⟨later, hhistory, hlater⟩ := h.follows.history
  refine ⟨harrivals, hordered, ?_, h.follows.ended hc, later, hhistory, fun i c hi => ?_⟩
  · rw [drainWithin, hclosed]
    rfl
  · rw [removalsAt_eq hlater, hschedule.removals i c hi, Roster.taskOf,
      List.filterMap_cons_some (by rw [Roster.removal?, hi]; rfl),
      List.filterMap_cons_some (by rw [Roster.removal?, hi]; rfl),
      List.filterMap_cons_none rfl]
    rfl

/-- What can be relied on for the pool of a roster whose signal is never fired. -/
structure Roster.Conserving (z : Roster) : Prop where
  /-- Whoever moves first, and however the reader reads, the pool is on schedule. -/
  anyOrder : ∀ ms, Work.Shift.Scheduled z (play Work.Shift.clocked? (.ofRoster z) ms)
  /-- So it is in the usual course, which closes the stream after so many turns of the
  engine. -/
  usual : ∀ ts, Work.Shift.Scheduled z (Work.Shift.course Work.Shift.never (.ofRoster z) ts) ∧
    (4 * z.components.length + 2 + (z.latest - z.start) ≤ ts.count .engine →
      (Work.Shift.course Work.Shift.never (.ofRoster z) ts).work.isClosed)
  /-- Whoever drains the stream from the beginning, and does not give up before the last
  removal ends, takes the reports off on schedule. -/
  drained : ∀ (s : Site) (engine timeout : Nat),
    s.Attends engine [] z.uninstaller z.pool → s.launch = none → s.isFired = false →
    s.now = z.start → z.latest < s.now + timeout →
    z.Drained engine s.history (s.drainWithin timeout).1 (s.drainWithin timeout).2.1
      (s.drainWithin timeout).2.2

/-- A pool never leaves a slot idle while a component waits for one: it keeps to the
greedy list schedule. -/
theorem Roster.conserving (z : Roster) (hpos : 0 < z.workers) (hw : z.workers ≤ slotLimit) :
    z.Conserving where
  anyOrder ms := by
    obtain ⟨_, h⟩ := Work.Shift.keeps_play hpos hw ms
    exact h.scheduled
  usual ts := by
    obtain ⟨p, h, hclosed⟩ := (Work.Shift.keeps_start hw).course hpos ts
    refine ⟨h.scheduled, fun hturns => ?_⟩
    rw [h.work]
    refine hclosed (.inr ?_)
    have hmoves : z.pool.moves = 4 * z.components.length + 2 := Nat.zero_add _
    rw [hmoves]
    exact hturns
  drained _ _ _ hattends hidle hfired hnow hlate :=
    Site.drained hpos hw hattends hidle hfired hnow hlate

/-- Two workers, of three components.  The third one takes the slot of the second, and
is removed at the same time as the first. -/
theorem Roster.conserving_two :
    let cs : List Component := [⟨"a", "x"⟩, ⟨"b", "x"⟩, ⟨"c", "x"⟩]
    let u : Uninstaller := .byName false 10 [("a", 30), ("c", 20)] []
    let z : Roster := ⟨2, cs, u, 0⟩
    let s : Site :=
      { engines := [{ job := .pool 2 cs u }]
        runs := [⟨0, 0, .pool u z.pool⟩]
        reading := some 0 }
    ((List.range 3).map fun i => (z.startsAt i, z.endsAt i)) = [(0, 30), (0, 10), (10, 30)] ∧
      (s.drainWithin 100).1 =
        [(10, .removed "b" "x"), (30, .removed "a" "x"), (30, .removed "c" "x")] ∧
      z.Conserving ∧
      z.Drained 0 [] (s.drainWithin 100).1 (s.drainWithin 100).2.1 (s.drainWithin 100).2.2 := by
  intro cs u z s
  have hconserving := Roster.conserving z (by decide) (by decide)
  exact ⟨by decide +kernel, by decide +kernel, hconserving,
    hconserving.drained s 0 100 ⟨rfl, rfl, rfl⟩ rfl rfl rfl (by decide +kernel)⟩

end Decommission
