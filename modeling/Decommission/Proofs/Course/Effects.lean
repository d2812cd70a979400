import Decommission.Proofs.Events
import Decommission.Site

/-!
# What events do to a site

Most events are only recorded.  The others leave most of the site as it is: one
lemma for each operation says which parts it may change.  No event takes time,
and the history only grows.
-/

namespace Decommission

namespace Event

/-- Whether the event changes the runs or which stream is read. -/
def movesRuns : Event → Bool
  | answered _ | received | released => true
  | _ => false

/-- Whether the event makes or fires a signal. -/
def movesSignals : Event → Bool
  | signalMade | signalFired => true
  | _ => false

/-- Whether the event is the answer of an engine. -/
def isAnswer : Event → Bool
  | answered _ => true
  | _ => false

end Event

namespace Site

variable {s : Site} {e : Event} {es : List Event}

/-! ## Operations -/

theorem onReading_eq (f : Work → Work) (s : Site) :
    ∃ runs, s.onReading f = { s with runs } := by
  rw [onReading]
  split
  · exact ⟨_, rfl⟩
  · exact ⟨s.runs, rfl⟩

theorem launchEngine_eq (i : Nat) (s : Site) :
    ∃ clock launch, s.launchEngine i = { s with clock, launch } := by
  rw [launchEngine]
  split
  · exact ⟨_, _, rfl⟩
  · exact ⟨s.clock, s.launch, rfl⟩

theorem launch_launchEngine {s : Site} {i : Nat} {e : Engine} (h : s.engines[i]? = some e) :
    (s.launchEngine i).launch = some ⟨i, e.dueFrom s.now⟩ := by
  rw [launchEngine, h]

theorem release_eq (s : Site) :
    ∃ runs, s.release = { s with runs, reading := none, launch := none } := by
  obtain ⟨runs, h⟩ := onReading_eq Work.hangUp s
  exact ⟨runs, by rw [release, h]⟩

/-- What can be seen of an engine that answers is recorded as its own. -/
theorem takeAnswer_eq (i : Nat) (s : Site) :
    ∃ runs reading launch events,
      s.takeAnswer i = { s.record (some i) events with runs, reading, launch } := by
  rw [takeAnswer]
  split
  · rename_i engine _
    split
    · obtain ⟨runs, h⟩ := onReading_eq Work.hangUp
        (record { s with launch := none } (some i) (engine.beginEvents s.isFired))
      dsimp only
      rw [h]
      exact ⟨_, _, _, engine.beginEvents s.isFired, rfl⟩
    · exact ⟨s.runs, s.reading, none, engine.beginEvents s.isFired, rfl⟩
  · refine ⟨s.runs, s.reading, s.launch, [], ?_⟩
    rw [record, List.map_nil, List.append_nil]

/-! ## What stays as it is -/

theorem performAll_cons (s : Site) (e : Event) (es : List Event) :
    s.performAll (e :: es) = (s.perform e).performAll es := rfl

theorem performAll_append (s : Site) (es fs : List Event) :
    s.performAll (es ++ fs) = (s.performAll es).performAll fs := List.foldl_append ..

/-- What holds of a site and is preserved by each of the events holds after all of
them. -/
theorem performAll_induction {P : Site → Prop} (h : P s)
    (preserved : ∀ s, ∀ e ∈ es, P s → P (s.perform e)) : P (s.performAll es) := by
  induction es generalizing s with
  | nil => exact h
  | cons e es ih =>
      exact ih (preserved s e (List.mem_cons_self ..) h)
        fun s f hf => preserved s f (List.mem_cons_of_mem _ hf)

theorem ground_perform (s : Site) (e : Event) :
    (s.perform e).engines = s.engines ∧ (s.perform e).now = s.now := by
  rw [perform]
  cases e with
  | launched i =>
      obtain ⟨clock, launch, h⟩ := launchEngine_eq i (s.record none [.launched i])
      rw [carryOut, h]
      exact ⟨rfl, rfl⟩
  | answered i =>
      obtain ⟨runs, reading, launch, events, h⟩ := takeAnswer_eq i (s.record none [.answered i])
      rw [carryOut, h]
      exact ⟨rfl, rfl⟩
  | received =>
      obtain ⟨runs, h⟩ := onReading_eq Work.receive (s.record none [.received])
      rw [carryOut, h]
      exact ⟨rfl, rfl⟩
  | released =>
      obtain ⟨runs, h⟩ := release_eq (s.record none [.released])
      rw [carryOut, h]
      exact ⟨rfl, rfl⟩
  | _ => exact ⟨rfl, rfl⟩

/-- The engines stay the same, and no time passes. -/
theorem ground_performAll (s : Site) (es : List Event) :
    (s.performAll es).engines = s.engines ∧ (s.performAll es).now = s.now :=
  performAll_induction (P := fun t => t.engines = s.engines ∧ t.now = s.now) ⟨rfl, rfl⟩
    fun t e _ h => ⟨(ground_perform t e).1.trans h.1, (ground_perform t e).2.trans h.2⟩

/-- A site without a measuring clock of its own gets none. -/
theorem clock_performAll (hc : s.clock = none) (es : List Event) :
    (s.performAll es).clock = none := by
  refine performAll_induction (P := fun t => t.clock = none) hc fun t e _ ht => ?_
  rw [perform]
  cases e with
  | launched i =>
      show (launchEngine i (t.record none [.launched i])).clock = none
      rw [launchEngine]
      split
      · show t.clock.map _ = none
        rw [ht]
        rfl
      · exact ht
  | answered i =>
      obtain ⟨runs, reading, launch, events, h⟩ := takeAnswer_eq i (t.record none [.answered i])
      rw [carryOut, h]
      exact ht
  | received =>
      obtain ⟨runs, h⟩ := onReading_eq Work.receive (t.record none [.received])
      rw [carryOut, h]
      exact ht
  | released =>
      obtain ⟨runs, h⟩ := release_eq (t.record none [.released])
      rw [carryOut, h]
      exact ht
  | _ => exact ht

theorem runs_perform (h : e.movesRuns = false) :
    (s.perform e).runs = s.runs ∧ (s.perform e).reading = s.reading := by
  rw [perform]
  cases e with
  | launched i =>
      obtain ⟨clock, launch, h⟩ := launchEngine_eq i (s.record none [.launched i])
      rw [carryOut, h]
      exact ⟨rfl, rfl⟩
  | answered | received | released => cases h
  | _ => exact ⟨rfl, rfl⟩

theorem runs_performAll (h : ∀ e ∈ es, e.movesRuns = false) :
    (s.performAll es).runs = s.runs ∧ (s.performAll es).reading = s.reading :=
  performAll_induction (P := fun t => t.runs = s.runs ∧ t.reading = s.reading) ⟨rfl, rfl⟩
    fun _ e he ht => ⟨(runs_perform (h e he)).1.trans ht.1, (runs_perform (h e he)).2.trans ht.2⟩

theorem signals_perform (h : e.movesSignals = false) : (s.perform e).signals = s.signals := by
  rw [perform]
  cases e with
  | launched i =>
      obtain ⟨clock, launch, h⟩ := launchEngine_eq i (s.record none [.launched i])
      rw [carryOut, h]
      rfl
  | answered i =>
      obtain ⟨runs, reading, launch, events, h⟩ := takeAnswer_eq i (s.record none [.answered i])
      rw [carryOut, h]
      rfl
  | received =>
      obtain ⟨runs, h⟩ := onReading_eq Work.receive (s.record none [.received])
      rw [carryOut, h]
      rfl
  | released =>
      obtain ⟨runs, h⟩ := release_eq (s.record none [.released])
      rw [carryOut, h]
      rfl
  | signalMade | signalFired => cases h
  | _ => rfl

theorem signals_performAll (h : ∀ e ∈ es, e.movesSignals = false) :
    (s.performAll es).signals = s.signals :=
  performAll_induction (P := fun t => t.signals = s.signals) rfl
    fun _ e he ht => (signals_perform (h e he)).trans ht

/-! ## The signal in use -/

theorem isFired_of_signals {t : Site} (h : t.signals = s.signals) :
    t.signal = s.signal ∧ t.isFired = s.isFired := by
  rw [isFired, isFired, signal, signal, h]
  exact ⟨rfl, rfl⟩

theorem isFired_of_fire {t : Site} (hn : 0 < s.signals.next)
    (h : t.signals = s.signals.fire s.signal) :
    0 < t.signals.next ∧ t.signal = s.signal ∧ t.isFired := by
  have hnext : t.signals.next = s.signals.next := by
    rw [h, Signals.next, Signals.fire, List.length_set]
    rfl
  have hsame : t.signal = s.signal := by rw [signal, signal, hnext]
  refine ⟨hnext ▸ hn, hsame, ?_⟩
  rw [isFired, hsame, h, Signals.isFired_fire, beq_self_eq_true, Bool.true_and, Bool.or_eq_true,
    decide_eq_true_eq]
  exact Or.inr (Nat.sub_lt hn Nat.one_pos)

/-- A signal that was just made has not been fired. -/
theorem isFired_of_add {t : Site} (h : t.signals = s.signals.add) :
    0 < t.signals.next ∧ t.isFired = false := by
  have hnext : t.signals.next = s.signals.next + 1 := by
    rw [h, Signals.next, Signals.add, List.length_append, List.length_singleton]
    rfl
  refine ⟨hnext ▸ Nat.succ_pos _, ?_⟩
  rw [isFired, signal, hnext, h, Nat.add_sub_cancel, Signals.isFired, Signals.add]
  show ((s.signals.fired ++ [false])[s.signals.fired.length]?).getD false = false
  rw [List.getElem?_concat_length]
  rfl

/-! ## History -/

theorem history_perform (h : e.isAnswer = false) :
    (s.perform e).history = s.history ++ [⟨s.now, none, e⟩] := by
  rw [perform]
  cases e with
  | launched i =>
      obtain ⟨clock, launch, h⟩ := launchEngine_eq i (s.record none [.launched i])
      rw [carryOut, h]
      rfl
  | answered i => cases h
  | received =>
      obtain ⟨runs, h⟩ := onReading_eq Work.receive (s.record none [.received])
      rw [carryOut, h]
      rfl
  | released =>
      obtain ⟨runs, h⟩ := release_eq (s.record none [.released])
      rw [carryOut, h]
      rfl
  | _ => rfl

/-- Events without answers of engines are recorded one after the other. -/
theorem history_performAll (h : ∀ e ∈ es, e.isAnswer = false) :
    (s.performAll es).history = s.history ++ es.map fun e => ⟨s.now, none, e⟩ := by
  induction es generalizing s with
  | nil => exact (List.append_nil _).symm
  | cons e es ih =>
      rw [performAll_cons, ih fun f hf => h f (List.mem_cons_of_mem _ hf),
        history_perform (h e (List.mem_cons_self ..)), (ground_perform s e).2, List.append_assoc]
      rfl

end Site

/-- What the director let happen. -/
def History.directed (h : History) : List Event :=
  h.filterMap fun x => if x.engine = none then some x.event else none

/-- What the director let happen, and when. -/
def History.ofDirector (h : History) : History := h.filter fun x => x.engine.isNone

namespace Site

variable {s : Site}

theorem directed_append (h k : History) :
    History.directed (h ++ k) = h.directed ++ k.directed := List.filterMap_append

theorem directed_ofEngine (now i : Nat) (es : List Event) :
    History.directed (es.map fun e => ⟨now, some i, e⟩) = [] := by
  rw [History.directed, List.filterMap_eq_nil_iff]
  intro x hx
  obtain ⟨e, _, rfl⟩ := List.mem_map.mp hx
  rfl

theorem directed_eq (h : History) : h.directed = h.ofDirector.map Entry.event := by
  induction h with
  | nil => rfl
  | cons x h ih =>
      obtain ⟨time, engine, event⟩ := x
      cases engine with
      | none => exact congrArg (event :: ·) ih
      | some i => exact ih

theorem ofDirector_append (h k : History) :
    History.ofDirector (h ++ k) = h.ofDirector ++ k.ofDirector := List.filter_append ..

theorem ofDirector_ofEngine (now i : Nat) (es : List Event) :
    History.ofDirector (es.map fun e => ⟨now, some i, e⟩) = [] := by
  rw [History.ofDirector, List.filter_eq_nil_iff]
  intro x hx
  obtain ⟨e, _, rfl⟩ := List.mem_map.mp hx
  exact Bool.false_ne_true

/-- The history keeps what the director let happen, and when. -/
theorem ofDirector_performAll (s : Site) (es : List Event) :
    (s.performAll es).history.ofDirector =
      s.history.ofDirector ++ es.map fun e => ⟨s.now, none, e⟩ := by
  have hone : ∀ (s : Site) (e : Event),
      (s.perform e).history.ofDirector = s.history.ofDirector ++ [⟨s.now, none, e⟩] := by
    intro s e
    cases ha : e.isAnswer with
    | false => rw [history_perform ha, ofDirector_append]; rfl
    | true =>
        cases e with
        | answered i =>
            obtain ⟨runs, reading, launch, events, h⟩ :=
              takeAnswer_eq i (s.record none [.answered i])
            rw [perform, carryOut, h]
            show History.ofDirector (((s.history ++ [⟨s.now, none, .answered i⟩]) ++ _)) = _
            rw [ofDirector_append, ofDirector_append, ofDirector_ofEngine, List.append_nil]
            rfl
        | _ => cases ha
  induction es generalizing s with
  | nil => exact (List.append_nil _).symm
  | cons e es ih =>
      rw [performAll_cons, ih, hone, (ground_perform s e).2, List.append_assoc]
      rfl

/-- The history keeps what the director let happen. -/
theorem directed_performAll (s : Site) (es : List Event) :
    (s.performAll es).history.directed = s.history.directed ++ es := by
  rw [directed_eq, ofDirector_performAll, List.map_append, ← directed_eq, List.map_map]
  exact congrArg _ (List.map_id' es)

end Site

end Decommission
