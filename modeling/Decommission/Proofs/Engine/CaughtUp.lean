import Decommission.Proofs.Course.Clocked
import Decommission.Proofs.Engine.Room

/-!
# Readers that have caught up

Streams that differ only in how much was taken off are the same when their readers
have caught up (`Stream.caughtUp`).  What an engine does next, and what that does,
depends on the stream only if a report waits for room.  As none ever does, it can be
told from the stream whose reader has caught up (`Work.next?_caughtUp`,
`Work.act?_caughtUp`).
-/

namespace Decommission

/-! ## Streams -/

namespace Stream

/-- The stream when its reader has caught up. -/
def caughtUp (s : Stream) : Stream := { s with taken := s.sent, waiting := [] }

theorem caughtUp_receive (s : Stream) : s.receive.caughtUp = s.caughtUp := by
  rw [caughtUp, caughtUp, sent_receive, receive]
  split
  · rfl
  · rfl

theorem caughtUp_caughtUp (s : Stream) : s.caughtUp.caughtUp = s.caughtUp := by
  simp [caughtUp, sent]

theorem caughtUp_send {s : Stream} (h : s.listening) (r : Report) :
    (s.caughtUp.send r).caughtUp = (s.send r).caughtUp := by
  have h' : s.caughtUp.listening := h
  rw [send, send, if_pos h, if_pos h']
  simp [caughtUp, sent]

theorem isReady_caughtUp {s : Stream} (h : s.waiting.length < s.capacity) :
    s.caughtUp.isReady = s.isReady := by
  have h' : (0 : Nat) < s.capacity := Nat.zero_lt_of_lt h
  simp [isReady, caughtUp, h, h']

end Stream

/-! ## Pools and scripts -/

namespace Pool

variable {u : Uninstaller} {now : Nat} {fired : Bool} {p : Pool}

/-- The same pool with another stream. -/
def onStream (f : Stream → Stream) (p : Pool) : Pool := { p with stream := f p.stream }

/-- The usual choice depends on the stream only if a report is to be sent. -/
theorem next?_onStream {f : Stream → Stream}
    (h : ∀ c v, ⟨c, .returned v⟩ ∈ p.tasks → (f p.stream).isReady = p.stream.isReady) :
    (p.onStream f).next? u now fired = p.next? u now fired := by
  have htask : ∀ i, ∀ t ∈ p.tasks,
      taskNext? u now (p.onStream f) i t = taskNext? u now p i t := by
    intro i t ht
    obtain ⟨c, stage⟩ := t
    cases stage with
    | returned v =>
        show (if (f p.stream).isReady then _ else _) = if p.stream.isReady then _ else _
        rw [h c v ht]
    | ready | calling | reported | dead => rfl
  have htasks : ∀ ts, (∀ t ∈ ts, t ∈ p.tasks) → ∀ i,
      tasksNext? u now (p.onStream f) i ts = tasksNext? u now p i ts := by
    intro ts
    induction ts with
    | nil => exact fun _ _ => rfl
    | cons t ts ih =>
        intro hts i
        rw [tasksNext?, tasksNext?, htask i t (hts t (List.mem_cons_self ..)),
          ih (fun t' ht' => hts t' (List.mem_cons_of_mem _ ht'))]
  show (dispatcherNext? fired p <|> tasksNext? u now (p.onStream f) 0 p.tasks) = _
  rw [htasks p.tasks (fun _ ht => ht)]
  rfl

/-- Only a report that is sent concerns the stream. -/
theorem step_onStream (f : Stream → Stream) {a : Action} (h : ∀ i, a ≠ .report i) :
    (p.onStream f).step fired a = (p.step fired a).map (onStream f) := by
  have hguard : ∀ (c : Prop) [Decidable c] (q : Pool),
      (if c then some (q.onStream f) else none) =
        Option.map (onStream f) (if c then some q else none) :=
    fun _ _ _ => Option.map_if.symm
  obtain ⟨workers, dispatcher, tasks, stream⟩ := p
  cases a with
  | collapse =>
      cases dispatcher with
      | dispatching rest =>
          exact hguard (slotLimit < workers) ⟨workers, .dead, tasks, stream⟩
      | _ => rfl
  | dispatch =>
      cases dispatcher with
      | dispatching rest =>
          cases rest with
          | nil => rfl
          | cons c rest =>
              exact hguard (workers ≤ slotLimit && !fired &&
                0 < workers - (tasks.filter Task.holdsSlot).length)
                ⟨workers, .dispatching rest, tasks ++ [⟨c, .ready⟩], stream⟩
      | _ => rfl
  | heed =>
      cases dispatcher with
      | dispatching rest =>
          cases rest with
          | nil => rfl
          | cons c rest =>
              exact hguard (workers ≤ slotLimit && fired) ⟨workers, .draining, tasks, stream⟩
      | _ => rfl
  | exhaust =>
      cases dispatcher with
      | dispatching rest =>
          cases rest with
          | nil => exact hguard (workers ≤ slotLimit) ⟨workers, .draining, tasks, stream⟩
          | cons c rest => rfl
      | _ => rfl
  | close =>
      cases dispatcher with
      | draining => exact hguard (tasks.all Task.isOver) ⟨workers, .ended, tasks, stream⟩
      | _ => rfl
  | call i due | conclude i v =>
      simp only [step, onStream]
      split
      · rfl
      · rfl
  | die i =>
      simp only [step, onStream]
      split
      · rfl
      · rfl
      · rfl
  | report i => exact absurd rfl (h i)

theorem onStream_caughtUp (p : Pool) :
    (p.onStream Stream.caughtUp).onStream Stream.caughtUp = p.onStream Stream.caughtUp :=
  congrArg (fun s => { p with stream := s }) (Stream.caughtUp_caughtUp p.stream)

/-- What an action does does not depend on how much was read. -/
theorem step_caughtUp (fired : Bool) (a : Action) (hl : p.stream.listening)
    (h : ∀ (i : Nat) c v, p.tasks[i]? = some (Task.mk c (.returned v)) →
      p.stream.caughtUp.isReady = p.stream.isReady) :
    ((p.onStream Stream.caughtUp).step fired a).map (onStream Stream.caughtUp) =
      (p.step fired a).map (onStream Stream.caughtUp) := by
  by_cases ha : ∃ i, a = .report i
  · obtain ⟨i, rfl⟩ := ha
    cases ht : p.tasks[i]? with
    | none => simp only [step, onStream, ht]
    | some t =>
        obtain ⟨c, stage⟩ := t
        cases stage with
        | returned v =>
            simp only [step, onStream, ht, h i c v ht]
            cases p.stream.isReady with
            | true =>
                exact congrArg (fun s => some { p.setStage i (.reported v) with stream := s })
                  (Stream.caughtUp_send hl _)
            | false => rfl
        | ready | calling | reported | dead => simp only [step, onStream, ht]
  · rw [step_onStream _ fun i hi => ha ⟨i, hi⟩, Option.map_map]
    exact congrArg (Option.map · _) (funext onStream_caughtUp)

end Pool

namespace Playback

variable {now : Nat} {fired : Bool} {p : Playback}

/-- The same script with another stream. -/
def onStream (f : Stream → Stream) (p : Playback) : Playback := { p with stream := f p.stream }

/-- The usual choice depends on the stream only if a report is to be sent. -/
theorem next?_onStream {f : Stream → Stream}
    (h : ∀ due r rest, p.stage = .delaying due r rest →
      (f p.stream).isReady = p.stream.isReady) :
    (p.onStream f).next? now fired = p.next? now fired := by
  obtain ⟨script, stage, stream⟩ := p
  cases stage with
  | delaying due r rest =>
      show (if due ≤ now then if (f stream).isReady then _ else _ else _) =
        if due ≤ now then if stream.isReady then _ else _ else _
      rw [h due r rest rfl]
      rfl
  | between rest => cases rest <;> rfl
  | awaiting | winding | hung | ended => rfl

/-- Only a report that is sent concerns the stream. -/
theorem step_onStream (f : Stream → Stream) {a : Action} (h : a ≠ .send) :
    (p.onStream f).step fired a = (p.step fired a).map (onStream f) := by
  have hguard : ∀ (c : Prop) [Decidable c] (q : Playback),
      (if c then some (q.onStream f) else none) =
        Option.map (onStream f) (if c then some q else none) :=
    fun _ _ _ => Option.map_if.symm
  obtain ⟨script, stage, stream⟩ := p
  cases a with
  | heed due =>
      cases stage with
      | delaying due' r rest =>
          exact hguard (fired && !script.ignoresCancel) ⟨script, .winding due, stream⟩
      | awaiting => exact hguard fired ⟨script, .winding due, stream⟩
      | _ => rfl
  | delay due | settle =>
      cases stage with
      | between rest => cases rest <;> rfl
      | _ => rfl
  | finish => cases stage <;> rfl
  | send => exact absurd rfl h

theorem onStream_caughtUp (p : Playback) :
    (p.onStream Stream.caughtUp).onStream Stream.caughtUp = p.onStream Stream.caughtUp :=
  congrArg (fun s => { p with stream := s }) (Stream.caughtUp_caughtUp p.stream)

/-- What an action does does not depend on how much was read. -/
theorem step_caughtUp (fired : Bool) (a : Action) (hl : p.stream.listening)
    (h : ∀ due r rest, p.stage = .delaying due r rest →
      p.stream.caughtUp.isReady = p.stream.isReady) :
    ((p.onStream Stream.caughtUp).step fired a).map (onStream Stream.caughtUp) =
      (p.step fired a).map (onStream Stream.caughtUp) := by
  by_cases ha : a = .send
  · subst ha
    cases hst : p.stage with
    | delaying due r rest =>
        have hl' : p.stream.caughtUp.listening = true := hl
        simp only [step, onStream, hst, hl, hl', h due r rest hst, Bool.not_true,
          Bool.false_eq_true, if_false]
        cases p.stream.isReady with
        | true =>
            exact congrArg (fun s => some { p with stage := .between rest, stream := s })
              (Stream.caughtUp_send hl _)
        | false => rfl
    | _ => simp only [step, onStream, hst]
  · rw [step_onStream _ ha, Option.map_map]
    exact congrArg (Option.map · _) (funext onStream_caughtUp)

end Playback

/-! ## Work -/

namespace Work

variable {now : Nat} {fired : Bool} {w : Work} {a : Action}

/-- Every report that is to be sent finds room. -/
def HasRoom (w : Work) : Prop :=
  ∀ a, Sending a w → w.stream.waiting.length < w.stream.capacity

/-- The work when the reader of its stream has caught up. -/
def caughtUp (w : Work) : Work := w.onStream Stream.caughtUp

theorem caughtUp_caughtUp (w : Work) : w.caughtUp.caughtUp = w.caughtUp := by
  cases w with
  | nothing s => exact congrArg nothing (Stream.caughtUp_caughtUp s)
  | script p => exact congrArg script (Playback.onStream_caughtUp p)
  | pool u p => exact congrArg (pool u) (Pool.onStream_caughtUp p)

theorem caughtUp_receive (w : Work) : w.receive.caughtUp = w.caughtUp := by
  cases w with
  | nothing s => exact congrArg nothing (Stream.caughtUp_receive s)
  | script p => exact congrArg (fun s => script { p with stream := s }) (Stream.caughtUp_receive _)
  | pool u p => exact congrArg (fun s => pool u { p with stream := s }) (Stream.caughtUp_receive _)

theorem isClosed_caughtUp (w : Work) : w.caughtUp.isClosed = w.isClosed := by
  cases w <;> rfl

/-- What comes next does not depend on how much was read. -/
theorem next?_caughtUp (h : w.HasRoom) : w.caughtUp.next? now fired = w.next? now fired := by
  cases w with
  | nothing s => rfl
  | script p =>
      refine congrArg (Option.map Action.play) (Playback.next?_onStream fun due r rest hst => ?_)
      exact Stream.isReady_caughtUp (h _ (.play p due r rest hst))
  | pool u p =>
      refine congrArg (Option.map Action.pool) (Pool.next?_onStream fun c v ht => ?_)
      obtain ⟨i, hi⟩ := List.mem_iff_getElem?.mp ht
      exact Stream.isReady_caughtUp (h _ (.pool u p i c v hi))

/-- What an action does does not depend on how much was read, and neither does what can
be seen of it. -/
theorem act?_caughtUp (fired : Bool) (a : Action) (hl : w.stream.listening) (h : w.HasRoom) :
    (w.caughtUp.act? fired a).map (fun m => (m.1, m.2.caughtUp)) =
      (w.act? fired a).map (fun m => (m.1, m.2.caughtUp)) := by
  cases w with
  | nothing s => cases a <;> rfl
  | script p =>
      cases a with
      | pool a => rfl
      | play a =>
          have hstep := Playback.step_caughtUp fired a hl fun due r rest hst =>
            Stream.isReady_caughtUp (h _ (.play p due r rest hst))
          have hmap := congrArg (Option.map fun p => (Playback.events a, script p)) hstep
          rw [Option.map_map, Option.map_map] at hmap
          show Option.map _ (Option.map _ _) = Option.map _ (Option.map _ _)
          rw [Option.map_map, Option.map_map]
          exact hmap
  | pool u p =>
      cases a with
      | play a => rfl
      | pool a =>
          have hstep := Pool.step_caughtUp fired a hl fun i c v ht =>
            Stream.isReady_caughtUp (h _ (.pool u p i c v ht))
          have hmap := congrArg (Option.map fun q => (p.events u fired a, pool u q)) hstep
          have hevents : (p.onStream Stream.caughtUp).events u fired a = p.events u fired a := by
            cases a <;> rfl
          rw [Option.map_map, Option.map_map] at hmap
          show Option.map _ (Option.map (fun q => (_, pool u q)) _) = Option.map _ (Option.map _ _)
          rw [Option.map_map, Option.map_map]
          exact hmap

/-- Once its stream is closed, an engine does nothing any more. -/
theorem act?_of_isClosed (h : w.isClosed) : w.act? fired a = none := by
  cases w with
  | nothing s => cases a <;> rfl
  | script p =>
      cases a with
      | pool a => rfl
      | play a =>
          have hst : p.stage = .ended := eq_of_beq h
          rw [act?, Option.map_eq_none_iff]
          cases a <;> simp only [Playback.step, hst]
  | pool u p =>
      cases a with
      | play a => rfl
      | pool a => rw [act?, Pool.step_of_isClosed h, Option.map_none]

end Work

end Decommission
