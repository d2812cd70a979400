import Decommission.Proofs.Course.Free
import Decommission.Proofs.Pool.Books

/-!
# Sites with pools

What a site looks like while the stream of one pool is read (`Site.Attends`), and
what becomes of it: the answer of an engine puts its pool to work, a reader takes
reports off the stream and leaves, and a closed pool does nothing any more.
-/

namespace Decommission

/-! ## Closed runs -/

/-- The pool of the run is closed. -/
def Run.IsClosed (r : Run) : Prop := ∃ u p, r.work = .pool u p ∧ p.isClosed

namespace Site

variable {s s' : Site}

theorem not_isClosed_of_act? {i : Nat} {a : Work.Action} {r : Run} (hr : s.runs[i]? = some r)
    (h : s.act? i a = some s') : ¬ r.IsClosed := by
  rintro ⟨u, p, hw, hc⟩
  obtain ⟨r', events, w, hr', hact, _⟩ := act?_eq_some_iff.mp h
  rw [hr] at hr'
  cases hr'
  rw [hw] at hact
  cases a with
  | play a => cases hact
  | pool a =>
      rw [Work.act?, Pool.step_of_isClosed hc] at hact
      cases hact

/-- The engine removes the components with a pool that can count its workers. -/
def HasPool (s : Site) (engine : Nat) (cs : List Component) : Prop :=
  ∃ e workers u, s.engines[engine]? = some e ∧ e.job = .pool workers cs u ∧
    workers ≠ 0 ∧ workers ≤ slotLimit

/-- The stream of the last run is read, which is that of a pool. -/
structure Attends (s : Site) (engine : Nat) (idle : List Run) (u : Uninstaller) (p : Pool) :
    Prop where
  runs : s.runs = idle ++ [⟨engine, s.signal, .pool u p⟩]
  reading : s.reading = some idle.length
  listening : p.stream.listening

theorem modify_concat {α : Type} (xs : List α) (x : α) (f : α → α) :
    (xs ++ [x]).modify xs.length f = xs ++ [f x] := by
  induction xs with
  | nil => rfl
  | cons y ys ih => exact congrArg (y :: ·) ih

variable {engine : Nat} {idle : List Run} {u : Uninstaller} {p : Pool}

theorem Attends.head (h : s.Attends engine idle u p) : s.head = p.stream.head p.isClosed := by
  rw [Site.head, h.reading, Option.bind_some, h.runs, List.getElem?_concat_length]
  rfl

theorem Attends.onReading (h : s.Attends engine idle u p) (f : Stream → Stream) :
    s.onReading (Work.onStream f) =
      { s with runs := idle ++ [⟨engine, s.signal, .pool u { p with stream := f p.stream }⟩] } := by
  rw [Site.onReading, h.reading]
  dsimp only
  rw [h.runs, modify_concat]
  rfl

/-- A reader takes the front report. -/
theorem Attends.received (h : s.Attends engine idle u p) :
    (s.perform .received).Attends engine idle u { p with stream := p.stream.receive } ∧
      (s.perform .received).signals = s.signals := by
  have hrec : (s.record none [.received]).Attends engine idle u p :=
    ⟨h.runs, h.reading, h.listening⟩
  rw [perform, carryOut, Work.receive, hrec.onReading]
  exact ⟨⟨rfl, h.reading, by rw [Stream.listening_receive]; exact h.listening⟩, rfl⟩

/-- A reader leaves, and the pool is left behind. -/
theorem Attends.left (h : s.Attends engine idle u p) :
    (s.perform .released).runs =
        idle ++ [⟨engine, s.signal, .pool u { p with stream := p.stream.hangUp }⟩] ∧
      (s.perform .released).reading = none ∧ (s.perform .released).signals = s.signals := by
  have hrec : (s.record none [.released]).Attends engine idle u p :=
    ⟨h.runs, h.reading, h.listening⟩
  rw [perform, carryOut, release, Work.hangUp, hrec.onReading]
  exact ⟨rfl, rfl, rfl⟩

/-- A reader leaves, and a closed pool is left behind as a closed run. -/
theorem Attends.released (h : s.Attends engine idle u p) (hc : p.isClosed) :
    ∃ r, r.IsClosed ∧ (s.perform .released).runs = idle ++ [r] ∧
      (s.perform .released).reading = none ∧ (s.perform .released).signals = s.signals :=
  ⟨_, ⟨u, { p with stream := p.stream.hangUp }, rfl, hc⟩, h.left⟩

/-- While the runs before are closed, only the pool whose stream is read moves. -/
theorem Attends.act (h : s.Attends engine idle u p) (hidle : ∀ r ∈ idle, r.IsClosed) {i : Nat}
    {a : Work.Action} (ha : s.act? i a = some s') :
    ∃ x p', a = .pool x ∧ p.step s.isFired x = some p' ∧ s'.Attends engine idle u p' ∧
      s'.signals = s.signals ∧
      s'.history = s.history ++ (p.events u s.isFired x).map (⟨s.now, some engine, ·⟩) := by
  obtain ⟨r, events, w, hr, hw, rfl⟩ := act?_eq_some_iff.mp ha
  have hbusy : r ∉ idle := fun hm => not_isClosed_of_act? hr ha (hidle r hm)
  rw [h.runs] at hr
  have hi : i = idle.length := by
    rcases Nat.lt_trichotomy i idle.length with hlt | heq | hgt
    · rw [List.getElem?_append_left hlt] at hr
      exact absurd (List.mem_of_getElem? hr) hbusy
    · exact heq
    · rw [List.getElem?_eq_none] at hr
      · cases hr
      · rw [List.length_append, List.length_singleton]
        exact hgt
  subst hi
  rw [List.getElem?_concat_length] at hr
  cases hr
  cases a with
  | play x => cases hw
  | pool x =>
      obtain ⟨p', hp, heq⟩ := Option.map_eq_some_iff.mp hw
      cases heq
      refine ⟨x, p', rfl, hp, ⟨?_, h.reading, ?_⟩, rfl, rfl⟩
      · show s.runs.set idle.length _ = _
        rw [h.runs, List.set_append_right _ _ (Nat.le_refl _), Nat.sub_self]
        rfl
      · rw [(Pool.stream_step hp).2]
        exact h.listening

/-- What can be seen of the start of a pool is notes. -/
theorem beginEvents_eq_notes {e : Engine} {workers : Nat} {cs : List Component}
    {u : Uninstaller} (h : e.job = .pool workers cs u) (fired : Bool) :
    ∃ notes : List Note, e.beginEvents fired = notes.map .note := by
  rw [Engine.beginEvents, Engine.jobEvents, h]
  split
  · exact ⟨[.engineStarting fired, e.startedNote], rfl⟩
  · exact ⟨[], rfl⟩

theorem takeAnswer_of_begin {i : Nat} {e : Engine} {w : Work} (he : s.engines[i]? = some e)
    (hb : e.begin = .ok w) (hr : s.reading = none) :
    s.takeAnswer i =
      { s.record (some i) (e.beginEvents s.isFired) with
        launch := none
        runs := s.runs ++ [⟨i, s.signal, w⟩]
        reading := some s.runs.length } := by
  simp only [takeAnswer, he, hb, record, onReading, hr]
  rfl

/-- The answer of an engine puts its pool to work. -/
theorem attends_answered {e : Engine} {workers : Nat} {cs : List Component}
    (he : s.engines[engine]? = some e) (hjob : e.job = .pool workers cs u) (hpos : workers ≠ 0)
    (hreading : s.reading = none) :
    (s.perform (.answered engine)).Attends engine s.runs u (.start workers cs) ∧
      (s.perform (.answered engine)).signals = s.signals ∧
      (s.perform (.answered engine)).history = s.history ++
        ([Event.answered engine].map (⟨s.now, none, ·⟩) ++
          (e.beginEvents s.isFired).map (⟨s.now, some engine, ·⟩)) := by
  have hbegin : e.begin = .ok (.pool u (.start workers cs)) := by
    rw [Engine.begin, hjob, Job.begin, if_neg hpos]
  have hsite : s.perform (.answered engine) = _ :=
    takeAnswer_of_begin (s := s.record none [.answered engine]) he hbegin hreading
  rw [hsite]
  exact ⟨⟨rfl, rfl, rfl⟩, rfl, List.append_assoc ..⟩

theorem HasPool.answered {cs : List Component} (h : s.HasPool engine cs)
    (hreading : s.reading = none) :
    ∃ (u : Uninstaller) (workers : Nat) (notes : List Note), workers ≤ slotLimit ∧
      (s.perform (.answered engine)).Attends engine s.runs u (.start workers cs) ∧
      (s.perform (.answered engine)).signals = s.signals ∧
      (s.perform (.answered engine)).history = s.history ++
        ([Event.answered engine].map (⟨s.now, none, ·⟩) ++
          (notes.map Event.note).map (⟨s.now, some engine, ·⟩)) := by
  obtain ⟨e, workers, u, he, hjob, hpos, hw⟩ := h
  obtain ⟨notes, hnotes⟩ := beginEvents_eq_notes hjob s.isFired
  exact ⟨u, workers, notes, hw, hnotes ▸ attends_answered he hjob hpos hreading⟩

end Site

end Decommission
