import Decommission.Proofs.Engine.CaughtUp
import Mathlib.Logic.Function.Iterate

/-!
# The pace of the reader

What an engine does, and when, does not depend on how its reader reads, as long as
the reader stays.  Two states that are the same once their readers have caught up
remain so with every move of the engine, so reads can be left out of any play
(`Work.Shift.Attended.caughtUp_play`).

The usual course of an engine on the clock is `Work.Shift.proceed`: the engine makes
its next move as long as it need not wait, and then a millisecond passes.  The signal
is fired at a moment that is fixed by the time and by the number of moves the engine
has made.  Whatever two readers do then, one course is the continuation of the other
(`Work.Shift.Onward`), so both agree on everything that both have reached.
-/

namespace Decommission

namespace Work

variable {fired : Bool} {w : Work} {a : Action}

/-! ## Shifts whose readers have caught up -/

theorem listening_act? {w' : Work} {es : List Event} (h : w.act? fired a = some (es, w')) :
    w'.stream.listening = w.stream.listening := by
  cases spent_act? h with
  | quiet _ hstream => rw [hstream]
  | sent r _ hstream => rw [hstream, Stream.listening_send]

namespace Shift

variable {reports : Nat} {s s' t : Shift} {due : Nat → Nat → Bool}

/-- The shift when the reader has caught up. -/
def caughtUp (s : Shift) : Shift := { s with work := s.work.caughtUp }

/-- What was sent and what is left to send fit on the stream, and there is a reader. -/
structure Attended (reports : Nat) (s : Shift) : Prop where
  fits : s.Fits reports
  listening : s.work.stream.listening

theorem attended_begin {j : Job} {w : Work} (h : j.begin = .ok w) (now : Nat) :
    Attended j.reports { work := w, now := now } where
  fits := fits_begin h now
  listening := congrArg Stream.listening (stream_begin h)

theorem Attended.hasRoom (h : Attended reports s) : s.work.HasRoom :=
  fun _ ha => h.fits.hasRoom ha.toSend_pos

theorem Attended.receive (h : Attended reports s) :
    Attended reports (s.onStream Stream.receive) where
  fits := h.fits.receive
  listening := by
    show (s.work.onStream Stream.receive).stream.listening
    rw [stream_onStream, Stream.listening_receive]
    exact h.listening

theorem Attended.act {a : Action} (h : Attended reports s) (ha : s.act? a = some s') :
    Attended reports s' := by
  refine ⟨h.fits.act ha, ?_⟩
  obtain ⟨⟨es, w⟩, hw, rfl⟩ := Option.map_eq_some_iff.mp ha
  exact (listening_act? hw).trans h.listening

theorem caughtUp_caughtUp (s : Shift) : s.caughtUp.caughtUp = s.caughtUp :=
  congrArg (fun w => { s with work := w }) (Work.caughtUp_caughtUp s.work)

theorem caughtUp_receive (s : Shift) : (s.onStream Stream.receive).caughtUp = s.caughtUp :=
  congrArg (fun w => { s with work := w }) (Work.caughtUp_receive s.work)

/-- What the engine does does not depend on how much was read. -/
theorem Attended.act?_caughtUp (h : Attended reports s) (a : Action) :
    (s.caughtUp.act? a).map caughtUp = (s.act? a).map caughtUp := by
  have hact := Work.act?_caughtUp s.fired a h.listening h.hasRoom
  -- Whether the stream is closed can be seen of the work whose reader has caught up.
  have hmap := congrArg (Option.map fun m : List Event × Work =>
    ({ s with work := m.2, log := s.log ++ [⟨s.now, a, m.1, m.2.isClosed⟩] } : Shift)) hact
  rw [Option.map_map, Option.map_map] at hmap
  have hclosed : (fun m : List Event × Work =>
      ({ s with
        work := m.2.caughtUp
        log := s.log ++ [⟨s.now, a, m.1, m.2.caughtUp.isClosed⟩] } : Shift)) =
      fun m => { s with
        work := m.2.caughtUp
        log := s.log ++ [⟨s.now, a, m.1, m.2.isClosed⟩] } :=
    funext fun m => by rw [isClosed_caughtUp]
  show Option.map _ (Option.map _ (s.work.caughtUp.act? s.fired a)) = _
  rw [act?, Option.map_map, Option.map_map]
  exact (congrArg (Option.map · _) hclosed.symm).trans
    (hmap.trans (congrArg (Option.map · _) hclosed))

/-! ## Plays without reads -/

theorem Attended.move {m : Move} (h : Attended reports s) (hm : ¬ m.isHangUp) :
    Attended reports ((s.move? m).getD s) := by
  cases m with
  | act a =>
      cases ha : s.act? a with
      | none =>
          rw [move?, ha]
          exact h
      | some s' =>
          rw [move?, ha]
          exact h.act ha
  | fire => exact ⟨⟨h.fits.capacity, h.fits.sends, h.fits.waiting⟩, h.listening⟩
  | pass => exact ⟨⟨h.fits.capacity, h.fits.sends, h.fits.waiting⟩, h.listening⟩
  | receive => exact h.receive
  | hangUp => exact absurd rfl hm

/-- A move that is not the reader's does not depend on how much was read. -/
theorem Attended.move_caughtUp {m : Move} (h : Attended reports s) (hm : ¬ m.isHangUp)
    (hread : ¬ m.isReceive) :
    ((s.caughtUp.move? m).getD s.caughtUp).caughtUp = ((s.move? m).getD s).caughtUp := by
  cases m with
  | act a =>
      rw [move?, move?, ← Option.getD_map caughtUp, ← Option.getD_map caughtUp,
        h.act?_caughtUp a, caughtUp_caughtUp]
  | fire => exact caughtUp_caughtUp { s with fired := true }
  | pass => exact caughtUp_caughtUp { s with now := s.now + 1 }
  | receive => exact absurd rfl hread
  | hangUp => exact absurd rfl hm

/-- Reads can be left out of any play. -/
theorem Attended.caughtUp_play {ms : List Move} (hs : Attended reports s)
    (ht : Attended reports t) (heq : s.caughtUp = t.caughtUp)
    (hms : ∀ m ∈ ms, ¬ m.isHangUp) :
    (play move? s ms).caughtUp =
      (play move? t (ms.filter fun m => !m.isReceive)).caughtUp := by
  induction ms generalizing s t with
  | nil => exact heq
  | cons m ms ih =>
      have hm := hms m (List.mem_cons_self ..)
      have hrest : ∀ n ∈ ms, ¬ n.isHangUp := fun n hn => hms n (List.mem_cons_of_mem _ hn)
      by_cases hread : m.isReceive
      · rw [List.filter_cons_of_neg (by rw [hread]; exact Bool.false_ne_true)]
        cases m with
        | receive => exact ih hs.receive ht ((caughtUp_receive s).trans heq) hrest
        | _ => cases hread
      · rw [List.filter_cons_of_pos (by simpa using hread)]
        refine ih (hs.move hm) (ht.move hm) ?_ hrest
        rw [← hs.move_caughtUp hm hread, ← ht.move_caughtUp hm hread, heq]

/-! ## The usual course on the clock -/

/-- The engine's turn.  A signal that is due is fired first.  Otherwise the engine makes
its next move, or a millisecond passes if it has to wait.  Whether the signal is due
depends on the time and on the number of moves that the engine has made. -/
def proceed (due : Nat → Nat → Bool) (s : Shift) : Shift :=
  if !s.fired && due s.now s.log.length then { s with fired := true }
  else ((s.work.next? s.now s.fired).bind fun a => s.act? a).getD { s with now := s.now + 1 }

/-- Who has a turn. -/
inductive Turn
  | engine
  /-- The reader takes a report off the stream, if one is waiting. -/
  | reader
deriving DecidableEq

/-- A turn. -/
def turn (due : Nat → Nat → Bool) (s : Shift) : Turn → Shift
  | .engine => s.proceed due
  | .reader => s.onStream Stream.receive

/-- Turns one after the other. -/
def course (due : Nat → Nat → Bool) (s : Shift) (ts : List Turn) : Shift := ts.foldl (turn due) s

/-- What the engine's turn can be. -/
inductive Proceeded (s : Shift) : Shift → Prop
  | fire : Proceeded s { s with fired := true }
  | act (a : Action) (s' : Shift) : s.act? a = some s' → Proceeded s s'
  | pass : Proceeded s { s with now := s.now + 1 }

theorem proceeded (due : Nat → Nat → Bool) (s : Shift) : Proceeded s (s.proceed due) := by
  rw [proceed]
  split
  · exact .fire
  · cases ha : (s.work.next? s.now s.fired).bind fun a => s.act? a with
    | none => exact .pass
    | some s' =>
        obtain ⟨a, _, ha⟩ := Option.bind_eq_some_iff.mp ha
        exact .act a s' ha

theorem Attended.proceed (h : Attended reports s) : Attended reports (s.proceed due) := by
  have hp := proceeded due s
  generalize s.proceed due = s' at hp
  cases hp with
  | fire => exact ⟨⟨h.fits.capacity, h.fits.sends, h.fits.waiting⟩, h.listening⟩
  | act a _ ha => exact h.act ha
  | pass => exact ⟨⟨h.fits.capacity, h.fits.sends, h.fits.waiting⟩, h.listening⟩

/-- The engine's turn does not depend on how much was read. -/
theorem Attended.proceed_caughtUp (h : Attended reports s) :
    (s.caughtUp.proceed due).caughtUp = (s.proceed due).caughtUp := by
  have hnext : s.caughtUp.work.next? s.caughtUp.now s.caughtUp.fired =
      s.work.next? s.now s.fired := Work.next?_caughtUp h.hasRoom
  rw [Shift.proceed, Shift.proceed, hnext]
  show (if !s.fired && due s.now s.log.length then _ else _ : Shift).caughtUp = _
  split
  · exact caughtUp_caughtUp { s with fired := true }
  · cases s.work.next? s.now s.fired with
    | none => exact caughtUp_caughtUp { s with now := s.now + 1 }
    | some a =>
        rw [Option.bind_some, Option.bind_some, ← Option.getD_map caughtUp,
          ← Option.getD_map caughtUp, h.act?_caughtUp a]
        congr 1
        exact caughtUp_caughtUp { s with now := s.now + 1 }

theorem Attended.proceed_alike (hs : Attended reports s) (ht : Attended reports t)
    (heq : s.caughtUp = t.caughtUp) (n : Nat) :
    ((Shift.proceed due)^[n] s).caughtUp = ((Shift.proceed due)^[n] t).caughtUp := by
  induction n generalizing s t with
  | zero => exact heq
  | succ n ih =>
      refine ih hs.proceed ht.proceed ?_
      rw [← hs.proceed_caughtUp, ← ht.proceed_caughtUp, heq]

/-- What has come about depends on the number of the engine's turns alone. -/
theorem Attended.caughtUp_course (h : Attended reports s) (ts : List Turn) :
    (course due s ts).caughtUp = ((Shift.proceed due)^[ts.count .engine] s).caughtUp := by
  induction ts generalizing s with
  | nil => rfl
  | cons t ts ih =>
      cases t with
      | engine =>
          rw [List.count_cons_self, Function.iterate_succ_apply]
          exact ih h.proceed
      | reader =>
          rw [List.count_cons_of_ne (by decide)]
          exact (ih h.receive).trans (h.receive.proceed_alike h (caughtUp_receive s) _)

/-! ## Continued courses -/

/-- A course goes on from a state to another. -/
structure Onward (s t : Shift) : Prop where
  clock : s.now ≤ t.now
  log : ∃ later, t.log = s.log ++ later ∧ ∀ e ∈ later, s.now ≤ e.time
  closed : s.work.isClosed → t.log = s.log ∧ t.work.isClosed

theorem Onward.refl (s : Shift) : Onward s s :=
  ⟨Nat.le_refl _, ⟨[], (List.append_nil _).symm, nofun⟩, fun hc => ⟨rfl, hc⟩⟩

theorem Onward.trans {u : Shift} (h : Onward s t) (h' : Onward t u) : Onward s u := by
  refine ⟨Nat.le_trans h.clock h'.clock, ?_, fun hc => ?_⟩
  · obtain ⟨es, hes, htimes⟩ := h.log
    obtain ⟨fs, hfs, htimes'⟩ := h'.log
    refine ⟨es ++ fs, by rw [hfs, hes, List.append_assoc], fun e he => ?_⟩
    rcases List.mem_append.mp he with he | he
    · exact htimes e he
    · exact Nat.le_trans h.clock (htimes' e he)
  · obtain ⟨hlog, hc⟩ := h.closed hc
    obtain ⟨hlog', hc⟩ := h'.closed hc
    exact ⟨hlog'.trans hlog, hc⟩

theorem onward_proceed (due : Nat → Nat → Bool) (s : Shift) : Onward s (s.proceed due) := by
  have hp := proceeded due s
  generalize s.proceed due = t at hp
  cases hp with
  | fire => exact ⟨Nat.le_refl _, ⟨[], (List.append_nil _).symm, nofun⟩, fun hc => ⟨rfl, hc⟩⟩
  | act a _ ha =>
      obtain ⟨⟨es, w⟩, hw, rfl⟩ := Option.map_eq_some_iff.mp ha
      refine ⟨Nat.le_refl _, ⟨_, rfl, fun e he => ?_⟩, fun hc => ?_⟩
      · cases List.mem_singleton.mp he
        exact Nat.le_refl _
      · rw [act?_of_isClosed hc] at hw
        cases hw
  | pass =>
      exact ⟨Nat.le_succ _, ⟨[], (List.append_nil _).symm, nofun⟩, fun hc => ⟨rfl, hc⟩⟩

theorem onward_iterate (due : Nat → Nat → Bool) (s : Shift) (n : Nat) :
    Onward s ((Shift.proceed due)^[n] s) := by
  induction n generalizing s with
  | zero => exact .refl s
  | succ n ih => exact (onward_proceed due s).trans (ih _)

/-- Whether a course goes on from a state does not depend on how much was read. -/
theorem Onward.congr {s₁ t₁ : Shift} (hs : s₁.caughtUp = s.caughtUp)
    (ht : t₁.caughtUp = t.caughtUp) (h : Onward s t) : Onward s₁ t₁ := by
  have hlog : s₁.log = s.log := (congrArg Shift.log hs :)
  have hlog' : t₁.log = t.log := (congrArg Shift.log ht :)
  have hnow : s₁.now = s.now := (congrArg Shift.now hs :)
  have hnow' : t₁.now = t.now := (congrArg Shift.now ht :)
  have hclosed : ∀ {x y : Shift}, x.caughtUp = y.caughtUp → x.work.isClosed = y.work.isClosed := by
    intro x y h
    rw [← isClosed_caughtUp x.work, ← isClosed_caughtUp y.work]
    exact congrArg (fun z : Shift => z.work.isClosed) h
  refine ⟨?_, ?_, ?_⟩
  · rw [hnow, hnow']
    exact h.clock
  · rw [hnow, hlog, hlog']
    exact h.log
  · rw [hclosed hs, hclosed ht, hlog, hlog']
    exact h.closed

/-- Two courses agree on everything that both have reached. -/
structure Agree (s t : Shift) : Prop where
  /-- Up to a time that both have reached, the engine has done the same, and at the same
  times. -/
  before : ∀ time, time ≤ s.now → time ≤ t.now →
    s.log.filter (·.time < time) = t.log.filter (·.time < time)
  /-- What was done in one course is the beginning of what was done in the other. -/
  nested : s.log <+: t.log ∨ t.log <+: s.log
  /-- Where the stream is closed in one course, it is closed in the other as soon as that
  has come further, and at the same time. -/
  ended : s.work.isClosed → s.now < t.now ∨ t.work.isClosed →
    t.log = s.log ∧ t.work.isClosed

theorem Onward.before (h : Onward s t) {time : Nat} (htime : time ≤ s.now) :
    s.log.filter (·.time < time) = t.log.filter (·.time < time) := by
  obtain ⟨later, hlog, hlater⟩ := h.log
  have hnone : later.filter (·.time < time) = [] := by
    rw [List.filter_eq_nil_iff]
    intro e he hlt
    exact absurd (of_decide_eq_true hlt)
      (Nat.not_lt.mpr (Nat.le_trans htime (hlater e he)))
  rw [hlog, List.filter_append, hnone, List.append_nil]

theorem Onward.nested (h : Onward s t) : s.log <+: t.log := by
  obtain ⟨later, hlog, _⟩ := h.log
  exact ⟨later, hlog.symm⟩

theorem Onward.agree (h : Onward s t) : Agree s t where
  before _ htime _ := h.before htime
  nested := .inl h.nested
  ended hc _ := h.closed hc

theorem Onward.agree_back (h : Onward t s) : Agree s t where
  before _ _ htime := (h.before htime).symm
  nested := .inr h.nested
  ended _ ht := by
    rcases ht with hlt | ht
    · exact absurd hlt (Nat.not_lt.mpr h.clock)
    · exact ⟨(h.closed ht).1.symm, ht⟩

/-- However two readers read, the courses agree. -/
theorem Attended.agree (h : Attended reports s) (due : Nat → Nat → Bool) (ts ts' : List Turn) :
    Agree (course due s ts) (course due s ts') := by
  have honward : ∀ {m n : Nat}, m ≤ n →
      Onward ((Shift.proceed due)^[m] s) ((Shift.proceed due)^[n] s) := by
    intro m n hmn
    obtain ⟨k, rfl⟩ := Nat.exists_eq_add_of_le' hmn
    rw [Function.iterate_add_apply]
    exact onward_iterate due _ k
  rcases Nat.le_total (ts.count .engine) (ts'.count .engine) with hle | hle
  · exact ((honward hle).congr (h.caughtUp_course ts) (h.caughtUp_course ts')).agree
  · exact ((honward hle).congr (h.caughtUp_course ts') (h.caughtUp_course ts)).agree_back

/-! ## What can be relied on -/

/-- What can be relied on from a state on in which an engine has so many reports to
send. -/
structure Unheeded (reports : Nat) (s : Shift) : Prop where
  /-- In any order of moves, and even if the reader leaves, no report has to wait. -/
  unhindered : ∀ ms, Unhindered reports (play move? s ms)
  /-- As long as the reader stays, reads can be left out of any order of moves. -/
  unread : ∀ ms : List Move, (∀ m ∈ ms, ¬ m.isHangUp) →
    (play move? s ms).caughtUp = (play move? s (ms.filter fun m => !m.isReceive)).caughtUp
  /-- In the usual course, whenever the signal is fired, the engine does the same at the
  same times however its reader reads. -/
  timely : ∀ due ts ts', Agree (course due s ts) (course due s ts')

/-- No engine that has started ever waits for its reader, and none takes notice of
it. -/
theorem unheeded_begin (j : Job) (w : Work) (now : Nat) (h : j.begin = .ok w) :
    Unheeded j.reports { work := w, now := now } where
  unhindered ms := ((fits_begin h now).play ms).unhindered
  unread _ hms := (attended_begin h now).caughtUp_play (attended_begin h now) rfl hms
  timely due ts ts' := (attended_begin h now).agree due ts ts'

/-- Two workers, of three components, whose signal is fired after three milliseconds.
Nobody reads the stream, and all of it is used. -/
theorem unheeded_full :
    let cs : List Component := [⟨"a", "x"⟩, ⟨"b", "x"⟩, ⟨"c", "x"⟩]
    let u : Uninstaller := .byName false 2 [("a", 5)] []
    let s : Shift := { work := .pool u (.start 2 cs) }
    let unread := course (fun now _ => 3 ≤ now) s (List.replicate 20 .engine)
    (unread.work.isClosed ∧
        unread.log.map Entry.time = [0, 0, 0, 0, 2, 2, 2, 2, 2, 4, 4, 5, 5, 5] ∧
        unread.work.stream.waiting.length = 3 ∧ unread.work.stream.capacity = 3) ∧
      Unheeded 3 s := by
  intro cs u s unread
  exact ⟨by decide +kernel, unheeded_begin (.pool 2 cs u) (.pool u (.start 2 cs)) 0 rfl⟩

end Shift

end Work

end Decommission
