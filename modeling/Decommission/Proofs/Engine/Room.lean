import Decommission.Proofs.Course.Free
import Decommission.Proofs.Pool.Schedule

/-!
# Room on the stream

The stream of an engine has room for all the reports its job can send.  So a report
that is to be sent never waits, whoever reads the stream, or nobody.

What is left to send (`Work.toSend`) is read off the stage of the work.  An action
sends at most one report, and then one less is left (`Work.act?_cases`).  What was
sent and what is left are therefore never more than the reports of the job
(`Work.Shift.Fits`), whatever the engine, its signal and its reader do.
-/

namespace Decommission

/-- The number of reports a job can send. -/
def Job.reports : Job → Nat
  | nothing => 0
  | script s => s.steps.length
  | pool _ components _ => components.length

/-! ## Reports left to send -/

namespace Playback

/-- The number of reports left to send. -/
def toSend (p : Playback) : Nat :=
  match p.stage with
  | .between rest => rest.length
  | .delaying _ _ rest => rest.length + 1
  | _ => 0

/-- What an action can do. -/
inductive Acted (p : Playback) : Action → Playback → Prop
  | delay (due : Nat) (s : Step) (rest : List Step) : p.stage = .between (s :: rest) →
      Acted p (.delay due) { p with stage := .delaying due s.report rest }
  | send (due : Nat) (r : Report) (rest : List Step) : p.stage = .delaying due r rest →
      p.stream.isReady →
      Acted p .send { p with stage := .between rest, stream := p.stream.send r }
  /-- Nobody reads the stream. -/
  | lose (due : Nat) (r : Report) (rest : List Step) : p.stage = .delaying due r rest →
      p.stream.listening = false → Acted p .send { p with stage := .ended }
  | heed (due : Nat) : Acted p (.heed due) { p with stage := .winding due }
  | settle (stage : Stage) : (∀ rest, stage ≠ .between rest) →
      (∀ due r rest, stage ≠ .delaying due r rest) →
      Acted p .settle { p with stage := stage }
  | finish : Acted p .finish { p with stage := .ended }

/-- An action does one of the things listed. -/
theorem step_cases {fired : Bool} {p p' : Playback} {a : Action}
    (h : p.step fired a = some p') : Acted p a p' := by
  cases a with
  | delay due =>
      simp only [step] at h
      split at h
      · cases h
        exact .delay due _ _ ‹_›
      · cases h
  | send =>
      simp only [step] at h
      split at h
      · split at h
        · rename_i hl
          cases h
          exact .lose _ _ _ ‹_› (Bool.not_eq_true' _ ▸ hl)
        · split at h
          · cases h
            exact .send _ _ _ ‹_› ‹_›
          · cases h
      · cases h
  | heed due =>
      simp only [step] at h
      split at h
      · split at h
        · cases h
          exact .heed due
        · cases h
      · split at h
        · cases h
          exact .heed due
        · cases h
      · cases h
  | settle =>
      simp only [step] at h
      split at h
      · cases h
        refine .settle _ ?_ ?_
        · intro rest hs
          split at hs
          · cases hs
          · cases hs
          · cases hs
        · intro due r rest hs
          split at hs
          · cases hs
          · cases hs
          · cases hs
      · cases h
  | finish =>
      simp only [step] at h
      split at h
      · cases h
        exact .finish
      · cases h

end Playback

namespace Pool

/-- The number of reports that a task has left to send. -/
def Task.toSend (t : Task) : Nat :=
  match t.stage with
  | .ready | .calling _ | .returned _ => 1
  | .reported _ | .dead => 0

/-- The number of reports left to send. -/
def toSend (p : Pool) : Nat :=
  total Task.toSend p.tasks +
    match p.dispatcher with
    | .dispatching rest => rest.length
    | _ => 0

end Pool

namespace Work

/-- The number of reports left to send. -/
def toSend : Work → Nat
  | nothing _ => 0
  | script p => p.toSend
  | pool _ p => p.toSend

/-- Whether the action is one that sends a report. -/
def Action.isSend : Action → Bool
  | play .send | pool (.report _) => true
  | _ => false

/-- A report is to be sent by an action. -/
inductive Sending : Action → Work → Prop
  | play (p : Playback) (due : Nat) (r : Report) (rest : List Step) :
      p.stage = .delaying due r rest → Sending (.play .send) (.script p)
  | pool (u : Uninstaller) (p : Pool) (i : Nat) (c : Component) (v : Verdict) :
      p.tasks[i]? = some ⟨c, .returned v⟩ → Sending (.pool (.report i)) (.pool u p)

variable {fired : Bool} {w w' : Work} {a : Action} {es : List Event}

theorem toSend_begin {j : Job} (h : j.begin = .ok w) : w.toSend = j.reports := by
  cases j with
  | nothing =>
      cases h
      rfl
  | script s =>
      rw [Job.begin] at h
      split at h
      · cases h
      · cases h
        rfl
  | pool workers cs u =>
      rw [Job.begin] at h
      split at h
      · cases h
      · cases h
        exact Nat.zero_add _

theorem stream_begin {j : Job} (h : j.begin = .ok w) : w.stream = .sized j.reports := by
  cases j with
  | nothing =>
      cases h
      rfl
  | script s =>
      rw [Job.begin] at h
      split at h
      · cases h
      · cases h
        rfl
  | pool workers cs u =>
      rw [Job.begin] at h
      split at h
      · cases h
      · cases h
        rfl

/-- What an action does to the stream and to what is left to send. -/
inductive Spent (w : Work) (a : Action) (w' : Work) : Prop
  | quiet : a.isSend = false → w'.stream = w.stream → w'.toSend ≤ w.toSend → Spent w a w'
  | sent (r : Report) : a.isSend → w'.stream = w.stream.send r → w'.toSend < w.toSend →
      Spent w a w'

theorem spent_play {p p' : Playback} {a : Playback.Action} (h : p.step fired a = some p') :
    Spent (.script p) (.play a) (.script p') := by
  cases Playback.step_cases h with
  | delay due s rest hst =>
      refine .quiet rfl rfl ?_
      simp only [toSend, Playback.toSend, hst, List.length_cons]
      exact Nat.le_refl _
  | send due r rest hst =>
      refine .sent r rfl rfl ?_
      simp only [toSend, Playback.toSend, hst]
      exact Nat.lt_succ_self _
  | lose due r rest hst hl =>
      refine .sent r rfl ?_ ?_
      · show p.stream = p.stream.send r
        rw [Stream.send, hl]
        rfl
      · simp only [toSend, Playback.toSend, hst]
        exact Nat.zero_lt_succ _
  | heed due => exact .quiet rfl rfl (Nat.zero_le _)
  | settle stage hbetween hdelaying =>
      refine .quiet rfl rfl (Nat.le_trans (Nat.le_of_eq ?_) (Nat.zero_le _))
      rw [toSend, Playback.toSend]
      split
      · exact absurd ‹_› (hbetween _)
      · exact absurd ‹_› (hdelaying _ _ _)
      · rfl
  | finish => exact .quiet rfl rfl (Nat.zero_le _)

theorem spent_pool {u : Uninstaller} {p p' : Pool} {a : Pool.Action}
    (h : p.step fired a = some p') : Spent (.pool u p) (.pool a) (.pool u p') := by
  cases Pool.step_cases h with
  | collapse rest hd | heed c rest hd | exhaust hd | close hd =>
      refine .quiet rfl rfl ?_
      simp only [toSend, Pool.toSend, hd]
      omega
  | dispatch c rest hd =>
      refine .quiet rfl rfl ?_
      simp only [toSend, Pool.toSend, hd, total_append, total, Pool.Task.toSend, List.length_cons]
      omega
  | call before after c due ht | conclude before after c due v ht =>
      refine .quiet rfl rfl ?_
      simp only [toSend, Pool.toSend, ht, total_append, total, Pool.Task.toSend]
      exact Nat.le_refl _
  | report before after c v ht =>
      refine .sent (v.report c) rfl rfl ?_
      simp only [toSend, Pool.toSend, ht, total_append, total, Pool.Task.toSend]
      omega
  | die before after t ht =>
      refine .quiet rfl rfl ?_
      simp only [toSend, Pool.toSend, ht, total_append, total]
      show _ + (0 + _) + _ ≤ _
      omega

/-- An action sends no report, or one, and then one less is left to send. -/
theorem spent_act? (h : w.act? fired a = some (es, w')) : Spent w a w' := by
  cases w with
  | nothing s => cases a <;> cases h
  | script p =>
      cases a with
      | play a =>
          obtain ⟨p', hp, heq⟩ := Option.map_eq_some_iff.mp h
          cases heq
          exact spent_play hp
      | pool a => cases h
  | pool u p =>
      cases a with
      | play a => cases h
      | pool a =>
          obtain ⟨p', hp, heq⟩ := Option.map_eq_some_iff.mp h
          cases heq
          exact spent_pool hp

/-- A report that is to be sent is left to send. -/
theorem Sending.toSend_pos (h : Sending a w) : 0 < w.toSend := by
  cases h with
  | play p due r rest hst =>
      simp only [toSend, Playback.toSend, hst]
      exact Nat.zero_lt_succ _
  | pool u p i c v ht =>
      obtain ⟨before, after, _, hsplit, _⟩ := Pool.setStage_eq ht (.reported v)
      simp only [toSend, Pool.toSend, hsplit, total_append, total, Pool.Task.toSend]
      omega

/-- A report that finds room is sent. -/
theorem Sending.possible (h : Sending a w) (hready : w.stream.isReady) :
    (w.act? fired a).isSome := by
  cases h with
  | play p due r rest hst =>
      change p.stream.isReady at hready
      rw [act?, Option.isSome_map]
      simp only [Playback.step, hst]
      split
      · rfl
      · rfl
  | pool u p i c v ht =>
      change p.stream.isReady at hready
      rw [act?, Option.isSome_map]
      simp only [Pool.step, ht]
      rw [if_pos hready]
      rfl

/-! ## Shifts -/

/-- What an engine has done. -/
structure Entry where
  time : Nat
  action : Action
  /-- What could be seen of it. -/
  shown : List Event
  /-- Whether the stream is closed since. -/
  closed : Bool

/-- An engine at work, its signal, the time in milliseconds, and what the engine has
done, oldest first. -/
structure Shift where
  work : Work
  now : Nat := 0
  fired : Bool := false
  log : List Entry := []

namespace Shift

/-- What can happen in a shift. -/
inductive Move
  /-- The engine does something. -/
  | act (a : Action)
  | fire
  | pass
  | receive
  | hangUp

/-- Whether it is the reader who moves, and stays. -/
def Move.isReceive : Move → Bool
  | receive => true
  | _ => false

/-- Whether the reader leaves. -/
def Move.isHangUp : Move → Bool
  | hangUp => true
  | _ => false

/-- The same shift with another stream. -/
def onStream (f : Stream → Stream) (s : Shift) : Shift := { s with work := s.work.onStream f }

/-- The engine does something, if it is possible. -/
def act? (a : Action) (s : Shift) : Option Shift :=
  (s.work.act? s.fired a).map fun (es, w) =>
    { s with work := w, log := s.log ++ [⟨s.now, a, es, w.isClosed⟩] }

/-- A move, if it is possible. -/
def move? : Move → Shift → Option Shift
  | .act a, s => s.act? a
  | .fire, s => some { s with fired := true }
  | .pass, s => some { s with now := s.now + 1 }
  | .receive, s => some (s.onStream Stream.receive)
  | .hangUp, s => some (s.onStream Stream.hangUp)

/-- The number of reports that were sent. -/
def sends (s : Shift) : Nat := s.log.countP fun e => e.action.isSend

variable {reports : Nat} {s s' : Shift} {m : Move}

/-- What was sent and what is left to send fit on the stream. -/
structure Fits (reports : Nat) (s : Shift) : Prop where
  capacity : s.work.stream.capacity = max 1 reports
  sends : s.sends + s.work.toSend ≤ reports
  waiting : s.work.stream.waiting.length ≤ s.sends

theorem fits_begin {j : Job} {w : Work} (h : j.begin = .ok w) (now : Nat) :
    Fits j.reports { work := w, now := now } where
  capacity := congrArg Stream.capacity (stream_begin h)
  sends := by
    show 0 + w.toSend ≤ _
    exact Nat.le_of_eq ((Nat.zero_add _).trans (toSend_begin h))
  waiting := by
    show w.stream.waiting.length ≤ 0
    exact Nat.le_of_eq (congrArg (fun s => s.waiting.length) (stream_begin h))

/-- What the reader does leaves the engine as it is. -/
theorem toSend_onStream (f : Stream → Stream) (w : Work) : (w.onStream f).toSend = w.toSend := by
  cases w <;> rfl

theorem Fits.onStream (h : Fits reports s) {f : Stream → Stream}
    (hcapacity : (f s.work.stream).capacity = s.work.stream.capacity)
    (hwaiting : (f s.work.stream).waiting.length ≤ s.work.stream.waiting.length) :
    Fits reports (s.onStream f) where
  capacity := by
    show (s.work.onStream f).stream.capacity = _
    rw [stream_onStream, hcapacity, h.capacity]
  sends := by
    show s.sends + (s.work.onStream f).toSend ≤ reports
    rw [toSend_onStream]
    exact h.sends
  waiting := by
    show (s.work.onStream f).stream.waiting.length ≤ s.sends
    rw [stream_onStream]
    exact Nat.le_trans hwaiting h.waiting

theorem Fits.receive (h : Fits reports s) : Fits reports (s.onStream Stream.receive) :=
  h.onStream (Stream.capacity_receive _) (Stream.length_waiting_receive_le _)

theorem Fits.act (h : Fits reports s) {a : Action} (ha : s.act? a = some s') :
    Fits reports s' := by
  obtain ⟨⟨es, w⟩, hw, rfl⟩ := Option.map_eq_some_iff.mp ha
  have hcount : ∀ e : Entry, (s.log ++ [e]).countP (fun e => e.action.isSend) =
      s.sends + if e.action.isSend then 1 else 0 := by
    intro e
    rw [List.countP_append, List.countP_singleton]
    rfl
  have hsends := h.sends
  have hwaiting := h.waiting
  cases spent_act? hw with
  | quiet hquiet hstream hleft =>
      refine ⟨hstream ▸ h.capacity, ?_, ?_⟩
      · show (s.log ++ [_]).countP _ + w.toSend ≤ reports
        rw [hcount, hquiet]
        exact Nat.le_trans (Nat.add_le_add_left hleft _) hsends
      · show w.stream.waiting.length ≤ (s.log ++ [_]).countP _
        rw [hcount, hstream, hquiet]
        exact hwaiting
  | sent r hsend hstream hleft =>
      refine ⟨?_, ?_, ?_⟩
      · show w.stream.capacity = _
        rw [hstream, Stream.capacity_send]
        exact h.capacity
      · show (s.log ++ [_]).countP _ + w.toSend ≤ reports
        rw [hcount, if_pos hsend]
        omega
      · show w.stream.waiting.length ≤ (s.log ++ [_]).countP _
        rw [hcount, if_pos hsend, hstream, Stream.send]
        split
        · rw [List.length_append, List.length_singleton]
          exact Nat.succ_le_succ hwaiting
        · exact Nat.le_succ_of_le hwaiting

theorem Fits.move (h : Fits reports s) (hm : s.move? m = some s') : Fits reports s' := by
  cases m with
  | act a => exact h.act hm
  | fire =>
      cases hm
      exact ⟨h.capacity, h.sends, h.waiting⟩
  | pass =>
      cases hm
      exact ⟨h.capacity, h.sends, h.waiting⟩
  | receive =>
      cases hm
      exact h.receive
  | hangUp =>
      cases hm
      exact h.onStream rfl (Nat.le_refl _)

theorem Fits.play (h : Fits reports s) (ms : List Move) : Fits reports (play move? s ms) :=
  play_induction (fun _ _ _ ht hm => ht.move hm) h ms

/-- As long as a report is left to send, there is room on the stream. -/
theorem Fits.hasRoom (h : Fits reports s) (hleft : 0 < s.work.toSend) :
    s.work.stream.waiting.length < s.work.stream.capacity := by
  have hcapacity := h.capacity
  have hsends := h.sends
  have hwaiting := h.waiting
  omega

theorem Fits.isReady (h : Fits reports s) (hleft : 0 < s.work.toSend) :
    s.work.stream.isReady := by
  rw [Stream.isReady, decide_eq_true (h.hasRoom hleft), Bool.or_true]

/-- What can be relied on in a shift of an engine that has so many reports to send. -/
structure Unhindered (reports : Nat) (s : Shift) : Prop where
  capacity : s.work.stream.capacity = max 1 reports
  /-- There was room for all reports that were sent, had none of them been taken. -/
  sent : s.sends ≤ s.work.stream.capacity
  /-- There are no more reports on the stream than were sent. -/
  buffered : s.work.stream.waiting.length ≤ s.sends
  /-- Whoever has a report to send can send it. -/
  prompt : ∀ a, Sending a s.work → (s.act? a).isSome

theorem Fits.unhindered (h : Fits reports s) : Unhindered reports s where
  capacity := h.capacity
  sent := by
    have hsends := h.sends
    rw [h.capacity]
    omega
  buffered := h.waiting
  prompt a ha := by
    rw [act?, Option.isSome_map]
    exact ha.possible (h.isReady ha.toSend_pos)

end Shift

end Work

end Decommission
