import Decommission.Proofs.Supervision.Forewarning
import Decommission.Proofs.Supervision.Recital

/-!
# Scripts in closed form

What comes of a script that is played under supervision, as a formula: which reports the
engine sends (`Script.emitted`), when it closes its stream if ever (`Script.closes`), when
the supervision ends (`ending`), and with what (`verdict`).

The formula knows nothing of looks, streams and moves.  What connects it with them is one
invariant (`Recital.Keeps`): at every stage of the script, what has been sent and what is
still ahead make up the formula.  Passing a report on, an action of the engine and a wait
keep it, the soft timer does as well, and the supervision can only end as the formula says
(`Recital.Keeps.closed`, `Recital.Keeps.quit`).
-/

namespace Decommission

namespace Script

/-- Reports with the times at which they are sent, if the first delay begins at a certain
time and nothing interrupts them.  `wait` says when a wait ends that begins at a certain
time. -/
def emissions (wait : Nat → Duration → Nat) : Nat → List Step → List (Nat × Report)
  | _, [] => []
  | time, s :: rest => (wait time s.delay, s.report) :: emissions wait (wait time s.delay) rest

/-- The time of the last report, or the beginning if there is none. -/
def lastTime (wait : Nat → Duration → Nat) : Nat → List Step → Nat
  | time, [] => time
  | time, s :: rest => lastTime wait (wait time s.delay) rest

/-- Whether the engine winds down before its last report. -/
def interrupted (s : Script) (cancel last : Nat) : Bool :=
  !s.ignoresCancel && decide (cancel < last)

/-- The reports that are sent, of those that the script has. -/
def emitted (s : Script) (cancel last : Nat) (es : List (Nat × Report)) : List (Nat × Report) :=
  if s.interrupted cancel last then es.filter (·.1 < cancel) else es

/-- When the engine closes its stream, if it ever does. -/
def closes (s : Script) (wait : Nat → Duration → Nat) (cancel last : Nat) : Option Nat :=
  if s.interrupted cancel last then some (wait cancel s.closeDelay)
  else match s.after with
    | .close => some last
    | .untilCancelled => some (wait (max last cancel) s.closeDelay)
    | .hang => none

end Script

namespace Supervision

/-- When a supervision ends, given when the engine closes its stream. -/
def ending (closes : Option Nat) (quit : Nat) : Nat :=
  match closes with
  | some time => min time quit
  | none => quit

/-- With what a supervision ends. -/
def verdict (phase : Phase) (closes : Option Nat) (cancel quit failed : Nat) :
    Except PhaseError Unit :=
  if closes.all (quit < ·) then .error (.forceQuit phase)
  else if 0 < failed then .error (.componentFailure phase failed)
  else if closes.all (cancel ≤ ·) then .error (.timeout phase)
  else .ok ()

namespace Recital

open Script

/-- The reports of the script with their times, if nothing interrupts them. -/
def reports (z : Recital) : List (Nat × Report) := emissions tickAfter z.start z.script.steps

/-- The time of the last of them. -/
def last (z : Recital) : Nat := lastTime tickAfter z.start z.script.steps

/-- The reports that are sent. -/
def emitted (z : Recital) : List (Nat × Report) := z.script.emitted z.cancel z.last z.reports

/-- When the engine closes its stream. -/
def closes (z : Recital) : Option Nat := z.script.closes tickAfter z.cancel z.last

/-- Whether the engine winds down before its last report. -/
def interrupted (z : Recital) : Bool := z.script.interrupted z.cancel z.last

/-- The timers come in their order, and no report and no end of the stream comes just when
one of them goes off. -/
structure Untied (z : Recital) : Prop where
  start_le : z.start ≤ z.cancel
  cancel_le : z.cancel ≤ z.quit
  start_lt : z.start < z.quit
  reports : ∀ e ∈ z.reports, e.1 ≠ z.cancel ∧ e.1 ≠ z.quit
  closes : z.closes ≠ some z.quit

variable {z : Recital} {now later due i : Nat} {soft : Bool} {stage stage' : Playback.Stage}
  {waiting waiting' : List Report} {sent passed : List (Nat × Report)} {rest : List Step}
  {r : Report} {c c' : Course Supervision}

/-! ## Times of reports -/

theorem le_of_mem_emissions {e : Nat × Report} (h : e ∈ emissions tickAfter now rest) :
    now ≤ e.1 := by
  induction rest generalizing now with
  | nil => cases h
  | cons s rest ih =>
      rcases List.mem_cons.mp h with rfl | h
      · exact le_tickAfter ..
      · exact Nat.le_trans (le_tickAfter ..) (ih h)

theorem le_of_mem_cons_emissions {e : Nat × Report}
    (h : e ∈ (due, r) :: emissions tickAfter due rest) : due ≤ e.1 := by
  rcases List.mem_cons.mp h with rfl | h
  · exact Nat.le_refl _
  · exact le_of_mem_emissions h

theorem le_lastTime (now : Nat) (rest : List Step) : now ≤ lastTime tickAfter now rest := by
  induction rest generalizing now with
  | nil => exact Nat.le_refl now
  | cons s rest ih => exact Nat.le_trans (le_tickAfter ..) (ih _)

theorem interrupted_iff : z.interrupted ↔ z.heeds ∧ z.cancel < z.last := by
  rw [interrupted, Script.interrupted, Bool.and_eq_true, decide_eq_true_eq]
  rfl

/-- Without being interrupted the engine sends all its reports. -/
theorem emitted_eq_reports (h : ¬ z.interrupted) : z.emitted = z.reports := if_neg h

theorem closes_of_interrupted (h : z.interrupted) :
    z.closes = some (tickAfter z.cancel z.script.closeDelay) := if_pos h

theorem closes_of_close (h : ¬ z.interrupted) (ha : z.script.after = .close) :
    z.closes = some z.last :=
  (if_neg h).trans (by rw [ha])

theorem closes_of_untilCancelled (h : ¬ z.interrupted) (ha : z.script.after = .untilCancelled) :
    z.closes = some (tickAfter (max z.last z.cancel) z.script.closeDelay) :=
  (if_neg h).trans (by rw [ha])

theorem closes_of_hang (h : ¬ z.interrupted) (ha : z.script.after = .hang) : z.closes = none :=
  (if_neg h).trans (by rw [ha])

/-- An engine that is interrupted sends what comes before the interruption. -/
theorem emitted_of_split {ahead : List (Nat × Report)} (hi : z.interrupted)
    (hs : sent ++ ahead = z.reports) (hbefore : ∀ e ∈ sent, e.1 < z.cancel)
    (hahead : ∀ e ∈ ahead, z.cancel ≤ e.1) : z.emitted = sent := by
  have hnone : ahead.filter (·.1 < z.cancel) = [] := by
    rw [List.filter_eq_nil_iff]
    intro e he
    rw [decide_eq_true_eq, Nat.not_lt]
    exact hahead e he
  have hemitted : z.emitted = z.reports.filter (·.1 < z.cancel) := if_pos hi
  rw [hemitted, ← hs, List.filter_append, hnone, List.append_nil, List.filter_eq_self]
  exact fun e he => decide_eq_true (hbefore e he)

/-! ## The invariant -/

/-- How far a script has come at a stage: the reports that have been sent, and those ahead. -/
inductive Reached (z : Recital) (now : Nat) (soft : Bool) (sent : List (Nat × Report)) :
    Playback.Stage → Prop
  /-- The soft timer can go off just now only before the first delay. -/
  | between (rest : List Step) (hsent : sent ++ emissions tickAfter now rest = z.reports)
      (hlast : lastTime tickAfter now rest = z.last) (hheeds : z.heeds → now ≤ z.cancel)
      (hquit : now < z.quit) (hfirst : now = z.cancel → z.script.steps = rest) :
      Reached z now soft sent (.between rest)
  | delaying (due : Nat) (r : Report) (rest : List Step)
      (hsent : sent ++ (due, r) :: emissions tickAfter due rest = z.reports)
      (hlast : lastTime tickAfter due rest = z.last) (hheeds : z.heeds → now ≤ z.cancel)
      (hdue : now ≤ due) : Reached z now soft sent (.delaying due r rest)
  | awaiting (hsent : sent = z.reports) (hi : ¬ z.interrupted)
      (hafter : z.script.after = .untilCancelled) (hlast : z.last ≤ now)
      (hnow : now ≤ max z.last z.cancel) : Reached z now soft sent .awaiting
  | winding (due : Nat) (hsent : sent = z.emitted) (hcloses : z.closes = some due)
      (hs : soft) (hdue : now ≤ due) : Reached z now soft sent (.winding due)
  | hung (hsent : sent = z.reports) (hi : ¬ z.interrupted) (hafter : z.script.after = .hang) :
      Reached z now soft sent .hung
  | ended (hsent : sent = z.emitted) (hcloses : z.closes = some now)
      (hsoft : soft = decide (z.cancel ≤ now)) : Reached z now soft sent .ended

/-- What is so far keeps to the formula. -/
structure Keeps (z : Recital) (now : Nat) (soft : Bool) (stage : Playback.Stage)
    (waiting : List Report) (passed : List (Nat × Report)) : Prop where
  passed_le : ∀ e ∈ passed, e.1 ≤ now
  now_le : now ≤ z.quit
  late : soft → z.cancel ≤ now
  early : soft = false → now ≤ z.cancel
  /-- What waits on the stream has been sent just now. -/
  reached : z.Reached now soft (passed ++ waiting.map (now, ·)) stage

theorem keeps_start (hu : z.Untied) : Keeps z z.start false (.between z.script.steps) [] [] where
  passed_le _ he := nomatch he
  now_le := Nat.le_of_lt hu.start_lt
  late hs := nomatch hs
  early _ := hu.start_le
  reached := .between _ rfl rfl (fun _ => hu.start_le) hu.start_lt fun _ => rfl

theorem Keeps.sent_le (h : Keeps z now soft stage waiting passed) {e : Nat × Report}
    (he : e ∈ passed ++ waiting.map (now, ·)) : e.1 ≤ now := by
  rcases List.mem_append.mp he with he | he
  · exact h.passed_le e he
  · obtain ⟨r, _, rfl⟩ := List.mem_map.mp he
    exact Nat.le_refl now

/-- A report that is passed on has been sent before. -/
theorem Keeps.take (h : Keeps z now soft stage (r :: waiting) passed) :
    Keeps z now soft stage waiting (passed ++ [(now, r)]) where
  passed_le e he := by
    rcases List.mem_append.mp he with he | he
    · exact h.passed_le e he
    · cases List.mem_singleton.mp he
      exact Nat.le_refl now
  now_le := h.now_le
  late := h.late
  early := h.early
  reached := by
    rw [List.append_assoc]
    exact h.reached

/-- The soft timer goes off while the stream is open. -/
theorem Keeps.cancel (h : Keeps z now false stage waiting passed) (hs : stage ≠ .ended)
    (hc : z.cancel ≤ now) : Keeps z now true stage waiting passed := by
  refine ⟨h.passed_le, h.now_le, fun _ => hc, fun hs => (nomatch hs), ?_⟩
  cases h.reached with
  | between rest hsent hlast hheeds hquit hfirst => exact .between rest hsent hlast hheeds hquit hfirst
  | delaying due r rest hsent hlast hheeds hdue => exact .delaying due r rest hsent hlast hheeds hdue
  | awaiting hsent hi hafter hlast hnow => exact .awaiting hsent hi hafter hlast hnow
  | winding _ _ _ hsoft => cases hsoft
  | hung hsent hi hafter => exact .hung hsent hi hafter
  | ended => exact absurd rfl hs

/-! ## Actions of the engine -/

/-- A report is sent just when its delay ends. -/
theorem Keeps.send (hu : z.Untied) (h : Keeps z now soft (.delaying due r rest) waiting passed)
    (hdue : due ≤ now) : z.Reached now soft (passed ++ (waiting ++ [r]).map (now, ·))
      (.between rest) := by
  cases h.reached with
  | delaying _ _ _ hsent hlast hheeds hle =>
      obtain rfl : due = now := Nat.le_antisymm hdue hle
      have htie := hu.reports (due, r) (hsent ▸ List.mem_append_right _ (List.mem_cons_self ..))
      refine .between rest ?_ hlast hheeds (Nat.lt_of_le_of_ne h.now_le htie.2)
        fun hc => absurd hc htie.1
      rw [← hsent, List.map_append, List.append_assoc, List.append_assoc, List.append_assoc]
      rfl

/-- An engine that notices the signal does so when the soft timer goes off. -/
theorem Keeps.heed (hu : z.Untied) (h : Keeps z now soft (.delaying due r rest) waiting passed)
    (hs : soft) (hz : z.heeds) : z.Reached now soft (passed ++ waiting.map (now, ·))
      (.winding (tickAfter now z.script.closeDelay)) := by
  cases h.reached with
  | delaying _ _ _ hsent hlast hheeds hle =>
      obtain rfl : now = z.cancel := Nat.le_antisymm (hheeds hz) (h.late hs)
      have htie : ∀ e ∈ passed ++ waiting.map (z.cancel, ·), e.1 < z.cancel := fun e he =>
        Nat.lt_of_le_of_ne (h.sent_le he) (hu.reports e (hsent ▸ List.mem_append_left _ he)).1
      have hdue : z.cancel < due := Nat.lt_of_le_of_ne hle
        (hu.reports (due, r) (hsent ▸ List.mem_append_right _ (List.mem_cons_self ..))).1.symm
      have hi : z.interrupted :=
        interrupted_iff.mpr ⟨hz, Nat.lt_of_lt_of_le hdue (hlast ▸ le_lastTime due rest)⟩
      refine .winding _ (emitted_of_split hi hsent htie fun e he => ?_).symm
        (closes_of_interrupted hi) hs (le_tickAfter ..)
      exact Nat.le_trans hle (le_of_mem_cons_emissions he)

/-- After the last report the engine closes its stream or waits, unless the soft timer is
about to go off. -/
theorem Keeps.settle (h : Keeps z now soft (.between []) waiting passed)
    (hclear : z.script.after = .close → soft = false → now ≠ z.cancel) :
    z.Reached now soft (passed ++ waiting.map (now, ·)) z.afterLast := by
  cases h.reached with
  | between _ hsent hlast hheeds hquit hfirst =>
      have hlast : now = z.last := hlast
      have hsent : passed ++ waiting.map (now, ·) = z.reports := (List.append_nil _).symm.trans hsent
      have hi : ¬ z.interrupted := by
        rw [interrupted_iff]
        rintro ⟨hz, hlt⟩
        exact absurd (hheeds hz) (Nat.not_le.mpr (hlast ▸ hlt))
      rw [afterLast]
      cases hafter : z.script.after with
      | close =>
          refine .ended (hsent.trans (emitted_eq_reports hi).symm)
            ((closes_of_close hi hafter).trans (congrArg some hlast.symm)) ?_
          cases soft with
          | true => exact (decide_eq_true (h.late rfl)).symm
          | false =>
              have hlt := Nat.lt_of_le_of_ne (h.early rfl) (hclear hafter rfl)
              exact (decide_eq_false (Nat.not_le.mpr hlt)).symm
      | untilCancelled =>
          exact .awaiting hsent hi hafter (Nat.le_of_eq hlast.symm)
            (Nat.le_trans (Nat.le_of_eq hlast) (Nat.le_max_left ..))
      | hang => exact .hung hsent hi hafter

/-- An engine that waits for the signal notices it at once. -/
theorem Keeps.wake (h : Keeps z now soft .awaiting waiting passed) (hs : soft) :
    z.Reached now soft (passed ++ waiting.map (now, ·))
      (.winding (tickAfter now z.script.closeDelay)) := by
  cases h.reached with
  | awaiting hsent hi hafter hlast hnow =>
      have hmax : max z.last z.cancel = now :=
        Nat.le_antisymm (Nat.max_le.mpr ⟨hlast, h.late hs⟩) hnow
      exact .winding _ (hsent.trans (emitted_eq_reports hi).symm)
        (hmax ▸ closes_of_untilCancelled hi hafter) hs (le_tickAfter ..)

theorem Keeps.finish (h : Keeps z now soft (.winding due) waiting passed) (hdue : due ≤ now) :
    z.Reached now soft (passed ++ waiting.map (now, ·)) .ended := by
  cases h.reached with
  | winding _ hsent hcloses hs hle =>
      obtain rfl : due = now := Nat.le_antisymm hdue hle
      exact .ended hsent hcloses (hs.trans (decide_eq_true (h.late hs)).symm)

/-- What the engine does keeps to the formula. -/
theorem Keeps.move (hu : z.Untied) (h : Keeps z now soft stage waiting passed)
    (hm : Moved z now soft stage waiting stage' waiting')
    (hclear : stage = .between [] → z.script.after = .close → soft = false → now ≠ z.cancel) :
    Keeps z now soft stage' waiting' passed := by
  refine ⟨h.passed_le, h.now_le, h.late, h.early, ?_⟩
  cases hm with
  | delay s rest =>
      cases h.reached with
      | between _ hsent hlast hheeds =>
          exact .delaying _ _ _ hsent hlast hheeds (le_tickAfter ..)
  | send r rest _ hdue => exact h.send hu hdue
  | heed due r rest _ hs hz => exact h.heed hu hs hz
  | settle => exact h.settle (hclear rfl)
  | wake _ hs => exact h.wake hs
  | finish _ hdue => exact h.finish hdue

/-! ## Time -/

/-- Time passes until something is to be done. -/
theorem Keeps.pass (h : Keeps z now soft stage [] passed) (hr : Resting z now soft stage)
    (hs : stage ≠ .ended) (hle : now ≤ later) (halarm : ∀ a, z.alarmAt stage = some a → later ≤ a)
    (htimer : later ≤ z.nextTimer soft) : Keeps z later soft stage [] passed := by
  have hearly : soft = false → later ≤ z.cancel := by
    intro hsoft
    rw [nextTimer, hsoft, if_neg Bool.false_ne_true] at htimer
    exact Nat.le_trans htimer (Nat.min_le_right ..)
  refine ⟨fun e he => Nat.le_trans (h.passed_le e he) hle, ?_,
    fun hs => Nat.le_trans (h.late hs) hle, hearly, ?_⟩
  · rw [nextTimer] at htimer
    split at htimer
    · exact htimer
    · exact Nat.le_trans htimer (Nat.min_le_left ..)
  · cases h.reached with
    | between => cases hr
    | delaying due r rest hsent hlast hheeds hdue =>
        refine .delaying due r rest hsent hlast (fun hz => hearly ?_) (halarm due rfl)
        cases hr with
        | delaying _ _ _ hignores =>
            cases soft with
            | false => rfl
            | true => exact hz.symm.trans (hignores rfl)
    | awaiting hsent hi hafter hlast hnow =>
        cases hr with
        | awaiting hsoft =>
            exact .awaiting hsent hi hafter (Nat.le_trans hlast hle)
              (Nat.le_trans (hearly hsoft) (Nat.le_max_right ..))
    | winding due hsent hcloses hsoft hdue => exact .winding due hsent hcloses hsoft (halarm due rfl)
    | hung hsent hi hafter => exact .hung hsent hi hafter
    | ended => exact absurd rfl hs

/-! ## The end -/

/-- The supervision has ended as the formula says. -/
def Concluded (z : Recital) (c : Course Supervision) : Prop :=
  Finale z (ending z.closes z.quit) (z.closes.all (z.cancel ≤ ·))
    (z.emitted.filter (·.1 ≤ ending z.closes z.quit))
    (verdict z.phase z.closes z.cancel z.quit (failures z.emitted)) c

/-- The stream is closed when all that was sent has been passed on. -/
theorem Keeps.closed (h : Keeps z now soft .ended [] passed)
    (hc : Finale z now soft passed
      (if 0 < failures passed then .error (.componentFailure z.phase (failures passed))
        else if soft then .error (.timeout z.phase) else .ok ()) c) : z.Concluded c := by
  cases h.reached with
  | ended hsent hcloses hsoft =>
      have hsent : passed = z.emitted := (List.append_nil _).symm.trans hsent
      have hending : ending z.closes z.quit = now := by
        rw [hcloses]
        exact Nat.min_eq_left h.now_le
      have hfired : z.closes.all (z.cancel ≤ ·) = soft := by
        rw [hcloses, hsoft]
        rfl
      have hintime : ¬ z.closes.all (z.quit < ·) := by
        rw [hcloses, Option.all_some, decide_eq_true_eq, Nat.not_lt]
        exact h.now_le
      have hall : z.emitted.filter (·.1 ≤ now) = passed := by
        rw [← hsent, List.filter_eq_self]
        exact fun e he => decide_eq_true (h.passed_le e he)
      rw [Concluded, hending, hfired, hall, verdict, if_neg hintime, hfired, ← hsent]
      exact hc

/-- When the hard timer goes off, the stream is not about to be closed, and what has been
passed on is all that has been sent in time. -/
theorem Keeps.overdue (hu : z.Untied) (h : Keeps z z.quit soft stage [] passed)
    (hs : stage ≠ .ended) :
    (∀ time, z.closes = some time → z.quit < time) ∧
      ∃ ahead, z.emitted = passed ++ ahead ∧ ∀ e ∈ ahead, z.quit < e.1 := by
  have hlt : ∀ {time}, z.closes = some time → z.quit ≤ time → z.quit < time := fun ht hle =>
    Nat.lt_of_le_of_ne hle fun heq => hu.closes (heq ▸ ht)
  have hwhole : passed ++ [].map (z.quit, ·) = passed := List.append_nil passed
  cases h.reached with
  | between _ _ _ _ hquit => exact absurd hquit (Nat.lt_irrefl _)
  | ended => exact absurd rfl hs
  | delaying due r rest hsent hlast hheeds hdue =>
      rw [hwhole] at hsent
      have hdue : z.quit < due := Nat.lt_of_le_of_ne hdue
        (hu.reports (due, r) (hsent ▸ List.mem_append_right _ (List.mem_cons_self ..))).2.symm
      have hafter : z.quit < z.last := Nat.lt_of_lt_of_le hdue (hlast ▸ le_lastTime due rest)
      have hahead : ∀ e ∈ (due, r) :: emissions tickAfter due rest, z.quit < e.1 := fun e he =>
        Nat.lt_of_lt_of_le hdue (le_of_mem_cons_emissions he)
      by_cases hi : z.interrupted
      · -- Both timers go off at the same time.
        have heq : z.cancel = z.quit :=
          Nat.le_antisymm hu.cancel_le (hheeds (interrupted_iff.mp hi).1)
        refine ⟨fun time ht => hlt ht ?_, [], ?_, fun e he => (nomatch he)⟩
        · rw [closes_of_interrupted hi] at ht
          cases ht
          exact heq ▸ le_tickAfter ..
        · rw [List.append_nil]
          refine emitted_of_split hi hsent (fun e he => ?_) fun e he =>
            heq ▸ Nat.le_of_lt (hahead e he)
          exact Nat.lt_of_le_of_ne (heq ▸ h.passed_le e he)
            (hu.reports e (hsent ▸ List.mem_append_left _ he)).1
      · refine ⟨fun time ht => ?_, _, (emitted_eq_reports hi).trans hsent.symm, hahead⟩
        cases ha : z.script.after with
        | close =>
            rw [closes_of_close hi ha] at ht
            cases ht
            exact hafter
        | untilCancelled =>
            rw [closes_of_untilCancelled hi ha] at ht
            cases ht
            exact Nat.lt_of_lt_of_le hafter
              (Nat.le_trans (Nat.le_max_left ..) (le_tickAfter ..))
        | hang =>
            rw [closes_of_hang hi ha] at ht
            cases ht
  | awaiting hsent hi ha hlast hnow =>
      refine ⟨fun time ht => hlt ht ?_, [], ?_, fun e he => (nomatch he)⟩
      · rw [closes_of_untilCancelled hi ha] at ht
        cases ht
        exact Nat.le_trans hnow (le_tickAfter ..)
      · rw [emitted_eq_reports hi, ← hsent, hwhole, List.append_nil]
  | winding due hsent hcloses _ hdue =>
      refine ⟨fun time ht => hlt ht ?_, [], ?_, fun e he => (nomatch he)⟩
      · rw [hcloses] at ht
        cases ht
        exact hdue
      · rw [← hsent, hwhole, List.append_nil]
  | hung hsent hi ha =>
      refine ⟨fun time ht => ?_, [], ?_, fun e he => (nomatch he)⟩
      · rw [closes_of_hang hi ha] at ht
        cases ht
      · rw [emitted_eq_reports hi, ← hsent, hwhole, List.append_nil]

theorem Keeps.quit (hu : z.Untied) (h : Keeps z now soft stage [] passed) (hs : stage ≠ .ended)
    (hq : z.quit ≤ now) (hc : Finale z now true passed (.error (.forceQuit z.phase)) c) :
    z.Concluded c := by
  obtain rfl : now = z.quit := Nat.le_antisymm h.now_le hq
  obtain ⟨hlate, ahead, hemitted, hahead⟩ := h.overdue hu hs
  have hover : z.closes.all (z.quit < ·) :=
    (Option.all_eq_true ..).mpr fun time ht => decide_eq_true (hlate time ht)
  have hfired : z.closes.all (z.cancel ≤ ·) :=
    (Option.all_eq_true ..).mpr fun time ht =>
      decide_eq_true (Nat.le_trans hu.cancel_le (Nat.le_of_lt (hlate time ht)))
  have hending : ending z.closes z.quit = z.quit := by
    cases ht : z.closes with
    | none => rfl
    | some time => exact Nat.min_eq_right (Nat.le_of_lt (hlate time ht))
  have hpassed : passed.filter (·.1 ≤ z.quit) = passed :=
    List.filter_eq_self.mpr fun e he => decide_eq_true (h.passed_le e he)
  have hnone : ahead.filter (·.1 ≤ z.quit) = [] := by
    rw [List.filter_eq_nil_iff]
    intro e he
    rw [decide_eq_true_eq, Nat.not_le]
    exact hahead e he
  rw [Concluded, hending, hfired, verdict, if_pos hover, hemitted, List.filter_append, hpassed,
    hnone, List.append_nil]
  exact hc

end Recital

end Supervision

end Decommission
