import Decommission.Config
import Decommission.Proofs.Rounds
import Decommission.Proofs.Supervision.Lifecycle
import Decommission.Proofs.Supervision.Timed

/-!
# The soft timer comes first

A budget whose soft part is shorter has its soft deadline first, as long as the clock can
tell (`Budget.InOrder`).  A hard deadline that the clock cannot express lies in the far
future, so it comes after every soft deadline that is nearer than that.

Timers go off at whole milliseconds.  If the two deadlines of a supervision fall on
different ones, nobody is given up without having been asked to wind down, and not in the
same millisecond (`Timed.Forewarned`).  An engine that never closes its stream is given
up in the end.

`Timed.Standing` is what every move preserves.
-/

namespace Decommission

/-! ## The order of deadlines -/

/-- The clock can tell the soft deadline from the hard one: it can express the latter, or
else the former, which is nearer than the far future. -/
def Budget.InOrder (b : Budget) (instant : Nat) : Prop :=
  instant + b.quit.nanos < clockRange ∨
    instant + b.cancel.nanos < clockRange ∧ b.cancel.nanos < farFuture

theorem Budget.InOrder.deadline_lt {b : Budget} {instant : Nat} (h : b.InOrder instant)
    (hlt : b.cancel < b.quit) : deadline instant b.cancel < deadline instant b.quit := by
  rw [Duration.lt_iff] at hlt
  rcases h with hquit | ⟨hcancel, hnear⟩
  · rw [deadline_of_lt hquit, deadline_of_lt (by omega)]
    omega
  · rw [deadline_of_lt hcancel, deadline]
    split
    · omega
    · omega

/-- A longer duration gives a later deadline, unless only the shorter one can be expressed
and it reaches beyond the far future. -/
theorem deadline_mono {instant : Nat} {d e : Duration} (h : d ≤ e)
    (hnear : instant + e.nanos < clockRange ∨ clockRange ≤ instant + d.nanos ∨
      d.nanos ≤ farFuture) : deadline instant d ≤ deadline instant e := by
  rw [Duration.le_iff] at h
  rw [deadline, deadline]
  split
  · split
    · omega
    · omega
  · split
    · omega
    · omega

/-- A timer does not go off early. -/
theorem deadline_le_tickAfter (now : Nat) (wait : Duration) :
    deadline (now * nanosPerMilli) wait ≤ tickAfter now wait * nanosPerMilli :=
  le_timerTick_mul _

theorem le_deadline (instant : Nat) (wait : Duration) : instant ≤ deadline instant wait := by
  rw [deadline]
  split
  · exact Nat.le_add_right ..
  · exact Nat.le_add_right ..

theorem le_tickAfter (now : Nat) (wait : Duration) : now ≤ tickAfter now wait :=
  Nat.le_of_mul_le_mul_right
    (Nat.le_trans (le_deadline ..) (deadline_le_tickAfter ..)) (by decide : 0 < nanosPerMilli)

namespace Supervision

variable {g : Glance} {s s' : Supervision} {es : List Event} {cancel quit : Nat}

/-! ## Giving up -/

theorem inTime_opened (phase : Phase) (engine : Nat) (budget : Budget) (now : Nat) :
    (start phase engine budget now).InTime (tickAfter now budget.cancel)
      (tickAfter now budget.quit) now :=
  ⟨rfl, rfl, rfl, rfl, le_tickAfter .., fun _ => le_tickAfter ..⟩

/-- The end of the stream is not taken for the hard timer. -/
theorem milestone_closingOutcome_ne (r : PhaseRun) :
    r.closingOutcome.milestone ≠ .forceQuitFailure := by
  rw [PhaseRun.closingOutcome]
  split
  · rintro ⟨⟩
  · split
    · rintro ⟨⟩
    · rintro ⟨⟩

theorem milestone_of_resultOf {phase phase' : Phase} {o : Outcome}
    (h : resultOf phase o = .error (.forceQuit phase')) : o.milestone = .forceQuitFailure := by
  cases o with
  | forceQuitFailure => rfl
  | _ => cases h

namespace InTime

/-- The phase is given up when the hard timer goes off, and only then. -/
theorem eq_quit_of_forceQuit (h : s.InTime cancel quit g.now) (hl : s.look g = some (es, s'))
    {u : Update} (hu : .update u ∈ es) (hm : u.milestone = .forceQuitFailure) : g.now = quit := by
  cases look_cases hl with
  | answered => simp at hu
  | refused e =>
      simp [refuse] at hu
      rw [hu] at hm
      cases hm
  | reported r =>
      rw [apply_report h.outcome?] at hu
      simp at hu
      rw [hu] at hm
      cases hm
  | closed =>
      rw [apply_closed h.outcome?] at hu
      have ho := (milestone_of_mem_closing hu).symm.trans hm
      exact absurd ho (milestone_closingOutcome_ne _)
  | quit _ hq => exact Nat.le_antisymm h.now_le (h.quitTick ▸ hq)
  | cancel _ _ hrun =>
      rw [apply_cancelTimeout hrun] at hu
      simp at hu

/-- What a look has done that ends a supervision by its hard timer. -/
theorem quit_of_result? (h : s.InTime cancel quit g.now) (hl : s.look g = some (es, s'))
    {phase : Phase} (hr : s'.result? = some (.error (.forceQuit phase))) :
    g.now = quit ∧ .update (.ending s.phase (.error (.forceQuit s.phase))) ∈ es ∧
      (s.run.state = .running → .signalFired ∈ es) := by
  cases look_cases hl with
  | answered => cases hr
  | refused => cases hr
  | reported r =>
      rw [apply_report h.outcome?] at hr
      exact nomatch h.result?.symm.trans hr
  | closed =>
      rw [apply_closed h.outcome?] at hr
      exact absurd (milestone_of_resultOf (Option.some.inj hr)) (milestone_closingOutcome_ne _)
  | quit _ hq =>
      rw [apply_quitTimeout h.outcome?]
      refine ⟨Nat.le_antisymm h.now_le (h.quitTick ▸ hq), List.mem_append_right _ ?_,
        fun hrun => List.mem_append_left _ ?_⟩
      · simp [closing]
        rfl
      · simp [lateCancel, hrun]
  | cancel _ _ hrun =>
      rw [apply_cancelTimeout hrun] at hr
      exact nomatch h.result?.symm.trans hr

/-- A look asks the engine to wind down when the soft timer goes off, and only then. -/
theorem cancel_of_softCancelled (h : s.InTime cancel quit g.now)
    (hl : s.look g = some (es, s')) (hs : s'.run.state = .softCancelled) :
    s.run.state = .softCancelled ∨ g.now = cancel ∧ .signalFired ∈ es := by
  cases look_cases hl with
  | answered => exact .inl hs
  | refused => exact .inl hs
  | reported r =>
      rw [apply_report h.outcome?] at hs
      exact .inl hs
  | closed =>
      rw [apply_closed h.outcome?] at hs
      cases hs
  | quit =>
      rw [apply_quitTimeout h.outcome?] at hs
      cases hs
  | cancel _ _ hrun hc =>
      rw [apply_cancelTimeout hrun]
      exact .inr ⟨Nat.le_antisymm (h.running hrun) (h.cancelTick ▸ hc), by simp⟩

end InTime

/-- An engine that started, or did not answer, and has not closed its stream can be given
up and nothing else. -/
theorem forceQuit_of_result? (hu : s.run.outcome? = none) (hl : s.look g = some (es, s'))
    (hanswer : ∀ e, g.answer ≠ some (.error e)) (hhead : g.head ≠ .closed)
    {r : Except PhaseError Unit} (hr : s'.result? = some r) :
    r = .error (.forceQuit s.phase) := by
  have hopen := result?_of_look hl
  cases look_cases hl with
  | answered => cases hr
  | refused e _ ha => exact absurd ha (hanswer e)
  | reported r =>
      rw [apply_report hu] at hr
      exact nomatch hopen.symm.trans hr
  | closed _ hh => exact absurd hh hhead
  | quit =>
      rw [apply_quitTimeout hu] at hr
      exact (Option.some.inj hr).symm
  | cancel _ _ hrun =>
      rw [apply_cancelTimeout hrun] at hr
      exact nomatch hopen.symm.trans hr

namespace Timed

variable {s₀ : Supervision} {ms ks : List Move} {m : Move} {later k : History}

/-! ## What a whole run keeps -/

theorem after_concat (s₀ : Supervision) (ms : List Move) (m : Move) :
    after s₀ (ms ++ [m]) = (recorded move? m (after s₀ ms)).getD (after s₀ ms) :=
  play_append ..

/-- Among certain moves there are first ones after which the supervision has been asked to
wind down, just when the soft timer went off.  What has happened since is told apart. -/
structure Warned (s₀ : Supervision) (ms ks : List Move) (later : History) : Prop where
  earlier : ks <+: ms
  now : (after s₀ ks).2.now = s₀.cancelTick
  state : (after s₀ ks).2.supervision.run.state = .softCancelled
  fired : ⟨s₀.cancelTick, none, .signalFired⟩ ∈ (after s₀ ks).1
  history : (after s₀ ms).1 = (after s₀ ks).1 ++ later

/-- The phase was given up when the hard timer went off, and the supervision had been
asked to wind down before. -/
structure Forewarned (s₀ : Supervision) (ms ks : List Move) (later : History) : Prop
    extends Warned s₀ ms ks later where
  givenUp : ⟨s₀.quitTick, none, .update (.ending s₀.phase (.error (.forceQuit s₀.phase)))⟩ ∈
    later

/-- The signal was fired when one of the timers went off. -/
def FiredIn (s₀ : Supervision) (h : History) : Prop :=
  ∃ time, (time = s₀.cancelTick ∨ time = s₀.quitTick) ∧ ⟨time, none, .signalFired⟩ ∈ h

theorem FiredIn.append {h : History} (hf : FiredIn s₀ h) (k : History) : FiredIn s₀ (h ++ k) := by
  obtain ⟨time, htime, hmem⟩ := hf
  exact ⟨time, htime, List.mem_append_left _ hmem⟩

theorem Warned.firedIn (h : Warned s₀ ms ks later) : FiredIn s₀ (after s₀ ms).1 := by
  rw [h.history]
  exact FiredIn.append ⟨_, .inl rfl, h.fired⟩ later

theorem Warned.concat (h : Warned s₀ ms ks later)
    (hk : (after s₀ (ms ++ [m])).1 = (after s₀ ms).1 ++ k) :
    Warned s₀ (ms ++ [m]) ks (later ++ k) :=
  ⟨h.earlier.trans (List.prefix_append ..), h.now, h.state, h.fired,
    by rw [hk, h.history, List.append_assoc]⟩

theorem Forewarned.concat (h : Forewarned s₀ ms ks later)
    (hk : (after s₀ (ms ++ [m])).1 = (after s₀ ms).1 ++ k) :
    Forewarned s₀ (ms ++ [m]) ks (later ++ k) :=
  ⟨h.toWarned.concat hk, List.mem_append_left _ h.givenUp⟩

/-- How a supervision stands after certain moves: it is under way and in time, or it has
ended.  If it was asked to wind down, there was a time for that, and nobody is given up
without the signal being fired. -/
inductive Progress (s₀ : Supervision) (ms : List Move) (t : Timed) : Prop
  | underway (inTime : t.supervision.InTime s₀.cancelTick s₀.quitTick t.now)
      (warned : t.supervision.run.state = .softCancelled → ∃ ks later, Warned s₀ ms ks later)
  | ended (r : Except PhaseError Unit) (result? : t.supervision.result? = some r)
      (forewarned : r = .error (.forceQuit s₀.phase) → s₀.cancelTick < s₀.quitTick →
        ∃ ks later, Forewarned s₀ ms ks later)
      (fired : r = .error (.forceQuit s₀.phase) → FiredIn s₀ (after s₀ ms).1)

/-- What every move preserves. -/
structure Standing (s₀ : Supervision) (ms : List Move) : Prop where
  phase : (after s₀ ms).2.supervision.phase = s₀.phase
  givenUp : ∀ x ∈ (after s₀ ms).1, ∀ u, x.event = .update u →
    u.milestone = .forceQuitFailure → x.time = s₀.quitTick
  progress : Progress s₀ ms (after s₀ ms).2

theorem standing_start (phase : Phase) (engine : Nat) (budget : Budget) (now : Nat) :
    Standing (start phase engine budget now) [] where
  phase := rfl
  givenUp x hx u hu hm := by
    obtain ⟨e, he, rfl⟩ := List.mem_map.mp hx
    subst hu
    simp [opening] at he
    rw [he] at hm
    cases hm
  progress := .underway (inTime_opened ..) fun h => nomatch h

/-- Time passes, or something else is shown. -/
theorem Standing.idle (h : Standing s₀ ms) (now : Nat) (answer : Option (Except EngineError Unit))
    (head : Head)
    (hafter : after s₀ (ms ++ [m]) =
      ((after s₀ ms).1, ⟨(after s₀ ms).2.supervision, now, answer, head⟩))
    (hnow : (after s₀ ms).2.supervision.InTime s₀.cancelTick s₀.quitTick (after s₀ ms).2.now →
      (after s₀ ms).2.supervision.InTime s₀.cancelTick s₀.quitTick now) :
    Standing s₀ (ms ++ [m]) := by
  have hsame : (after s₀ (ms ++ [m])).1 = (after s₀ ms).1 ++ [] := by
    rw [hafter, List.append_nil]
  refine ⟨by rw [hafter]; exact h.phase, by rw [hafter]; exact h.givenUp, ?_⟩
  rw [hafter]
  cases h.progress with
  | underway hs hw =>
      refine .underway (hnow hs) fun hstate => ?_
      obtain ⟨ks, later, hwarned⟩ := hw hstate
      exact ⟨ks, _, hwarned.concat hsame⟩
  | ended r hr hf hfired =>
      refine .ended r hr (fun hquit hlt => ?_) fun hquit => hsame ▸ (hfired hquit).append []
      obtain ⟨ks, later, hforewarned⟩ := hf hquit hlt
      exact ⟨ks, _, hforewarned.concat hsame⟩

theorem Standing.look (h : Standing s₀ ms) {es : List Event} {s : Supervision}
    (hl : (after s₀ ms).2.supervision.look (after s₀ ms).2.glance = some (es, s)) :
    Standing s₀ (ms ++ [.look]) := by
  have hafter : after s₀ (ms ++ [.look]) =
      ((after s₀ ms).1 ++ es.map (⟨(after s₀ ms).2.now, none, ·⟩),
        { (after s₀ ms).2 with supervision := s }) := by
    rw [after_concat, recorded, move?, hl]
    rfl
  cases h.progress with
  | ended r hr => cases hr.symm.trans (result?_of_look hl)
  | underway hs hw =>
      have hs : (after s₀ ms).2.supervision.InTime s₀.cancelTick s₀.quitTick
        (after s₀ ms).2.glance.now := hs
      refine ⟨?_, ?_, ?_⟩
      · rw [hafter]
        exact (frame_look hl hs.outcome?).1.trans h.phase
      · rw [hafter]
        intro x hx u hu hm
        rcases List.mem_append.mp hx with hx | hx
        · exact h.givenUp x hx u hu hm
        · obtain ⟨e, he, rfl⟩ := List.mem_map.mp hx
          exact hs.eq_quit_of_forceQuit hl (hu ▸ he) hm
      · cases hr : s.result? with
        | none =>
            refine .underway (by rw [hafter]; exact hs.look hl hr) fun hstate => ?_
            rw [hafter] at hstate
            rcases hs.cancel_of_softCancelled hl hstate with hbefore | ⟨hnow, hfired⟩
            · obtain ⟨ks, later, hwarned⟩ := hw hbefore
              exact ⟨ks, _, hwarned.concat (congrArg Prod.fst hafter)⟩
            · refine ⟨ms ++ [.look], [], List.prefix_rfl, ?_, ?_, ?_, (List.append_nil _).symm⟩
              · rw [hafter]
                exact hnow
              · rw [hafter]
                exact hstate
              · rw [hafter, ← hnow]
                exact List.mem_append_right _ (List.mem_map.mpr ⟨_, hfired, rfl⟩)
        | some r =>
            refine .ended r (by rw [hafter]; exact hr) (fun hquit hlt => ?_) fun hquit => ?_
            · subst hquit
              obtain ⟨hnow, hgiven, _⟩ := hs.quit_of_result? hl hr
              -- Before the soft timer the run could not have come this far.
              rcases PhaseRun.state_of_outcome?_eq_none hs.outcome? with hrun | hsoft
              · exact absurd (hnow ▸ hs.running hrun) (Nat.not_le.mpr hlt)
              · obtain ⟨ks, later, hwarned⟩ := hw hsoft
                refine ⟨ks, _, hwarned.concat (congrArg Prod.fst hafter),
                  List.mem_append_right _ (List.mem_map.mpr ⟨_, hgiven, ?_⟩)⟩
                rw [h.phase, ← hnow]
                rfl
            · subst hquit
              obtain ⟨hnow, _, hlate⟩ := hs.quit_of_result? hl hr
              rw [hafter]
              rcases PhaseRun.state_of_outcome?_eq_none hs.outcome? with hrun | hsoft
              · exact ⟨_, .inr hnow,
                  List.mem_append_right _ (List.mem_map.mpr ⟨_, hlate hrun, rfl⟩)⟩
              · obtain ⟨ks, later, hwarned⟩ := hw hsoft
                exact hwarned.firedIn.append _

theorem Standing.concat (h : Standing s₀ ms) (m : Move) : Standing s₀ (ms ++ [m]) := by
  cases m with
  | shown answer head =>
      refine h.idle (after s₀ ms).2.now answer head ?_ id
      rw [after_concat]
      exact Prod.ext (List.append_nil _) rfl
  | wait ms' =>
      cases hl : (after s₀ ms).2.supervision.look (after s₀ ms).2.glance with
      | none =>
          refine h.idle ((after s₀ ms).2.waitEnd ms') (after s₀ ms).2.answer (after s₀ ms).2.head ?_
            fun hs => ?_
          · rw [after_concat, recorded, move?, hl]
            exact Prod.ext (List.append_nil _) rfl
          · refine hs.wait hs.alarm?_eq ?_
            rw [waitEnd, hs.alarm?_eq]
            exact Nat.min_le_right ..
      | some l =>
          refine h.idle (after s₀ ms).2.now (after s₀ ms).2.answer (after s₀ ms).2.head ?_ id
          rw [after_concat, recorded, move?, hl]
          rfl
  | look =>
      cases hl : (after s₀ ms).2.supervision.look (after s₀ ms).2.glance with
      | some l => exact h.look hl
      | none =>
          refine h.idle (after s₀ ms).2.now (after s₀ ms).2.answer (after s₀ ms).2.head ?_ id
          rw [after_concat, recorded, move?, hl]
          rfl

theorem standing_after (phase : Phase) (engine : Nat) (budget : Budget) (now : Nat)
    (ms : List Move) : Standing (start phase engine budget now) ms := by
  have hall : ∀ (ns ms : List Move), Standing (start phase engine budget now) ms →
      Standing (start phase engine budget now) (ms ++ ns) := by
    intro ns
    induction ns with
    | nil => exact fun ms h => (List.append_nil ms).symm ▸ h
    | cons n ns ih => exact fun ms h => List.append_cons ms n ns ▸ ih _ (h.concat n)
  exact hall ms [] (standing_start phase engine budget now)

/-! ## Engines that keep their stream open -/

/-- The engine shows something, the supervision looks, and some time passes. -/
structure Round where
  answer : Option (Except EngineError Unit)
  head : Head
  patience : Nat

def Round.moves (r : Round) : List Move :=
  [.shown r.answer r.head, .look, .wait (r.patience + 1)]

/-- The engine neither refuses to start nor closes its stream. -/
structure Round.KeepsOpen (r : Round) : Prop where
  answer : ∀ e, r.answer ≠ some (.error e)
  head : r.head ≠ .closed

/-- A bound on the looks to come, other than to take a report, and the milliseconds to
come. -/
def effort (t : Timed) : Nat :=
  match t.supervision.result? with
  | none => t.supervision.toGo t.now + 1
  | some _ => 0

/-- A supervision that is under way and in time, or has been given up. -/
inductive Held (phase : Phase) (cancel quit : Nat) (t : Timed) : Prop
  | underway (phase : t.supervision.phase = phase) (inTime : t.supervision.InTime cancel quit t.now)
  | givenUp (result? : t.supervision.result? = some (.error (.forceQuit phase)))

variable {phase : Phase} {cancel quit : Nat} {h : History} {t : Timed}

theorem effort_of_inTime {s : Supervision} {now : Nat} (hs : s.InTime cancel quit now)
    (answer : Option (Except EngineError Unit)) (head : Head) :
    effort ⟨s, now, answer, head⟩ = s.toGo now + 1 := by
  rw [effort, hs.result?]

/-- A wait does no harm, and if there is nothing else to do it brings the end nearer. -/
theorem Held.play_wait (hh : Held phase cancel quit t) (h : History) (ms : Nat) :
    ∃ t', play (recorded move?) (h, t) [.wait (ms + 1)] = (h, t') ∧ Held phase cancel quit t' ∧
      t'.effort ≤ t.effort ∧ (t.supervision.look t.glance = none → t'.effort ≤ t.effort - 1) := by
  cases hl : t.supervision.look t.glance with
  | none =>
      have hwait : recorded move? (.wait (ms + 1)) (h, t) =
          some (h ++ [], { t with now := t.waitEnd (ms + 1) }) := by
        rw [recorded, move?, hl]
        rfl
      refine ⟨{ t with now := t.waitEnd (ms + 1) }, ?_, ?_⟩
      · rw [play_cons_of_eq_some hwait, List.append_nil, play_nil]
      · cases hh with
        | underway hphase hs =>
            have hlater : t.supervision.InTime cancel quit (t.waitEnd (ms + 1)) := by
              refine hs.wait hs.alarm?_eq ?_
              rw [waitEnd, hs.alarm?_eq]
              exact Nat.min_le_right ..
            have hless : t.supervision.toGo (t.waitEnd (ms + 1)) < t.supervision.toGo t.now := by
              have hlt := toGo_wait (g := t.glance) hs hl ms hs.alarm?_eq
              rw [waitEnd, hs.alarm?_eq]
              exact hlt
            rw [effort_of_inTime hlater, show t.effort = _ from effort_of_inTime hs _ _]
            exact ⟨.underway hphase hlater, by omega, fun _ => by omega⟩
        | givenUp hr =>
            have hzero : effort { t with now := t.waitEnd (ms + 1) } = 0 := by
              rw [effort, hr]
            rw [hzero]
            exact ⟨.givenUp hr, Nat.zero_le _, fun _ => Nat.zero_le _⟩
  | some l =>
      have hwait : recorded move? (.wait (ms + 1)) (h, t) = none := by
        rw [recorded, move?, hl]
        rfl
      exact ⟨t, by rw [play_cons_of_eq_none hwait, play_nil], hh, Nat.le_refl _,
        fun hnone => absurd hnone (Option.some_ne_none l)⟩

/-- A look takes a report, or brings the end nearer. -/
theorem Held.look (hh : Held phase cancel quit t) (hanswer : ∀ e, t.answer ≠ some (.error e))
    (hhead : t.head ≠ .closed) {es : List Event} {s : Supervision}
    (hl : t.supervision.look t.glance = some (es, s)) :
    Held phase cancel quit { t with supervision := s } ∧
      effort { t with supervision := s } ≤ t.effort ∧
      (.received ∉ es → effort { t with supervision := s } ≤ t.effort - 1) := by
  cases hh with
  | givenUp hr => exact nomatch hr.symm.trans (result?_of_look hl)
  | underway hphase hs =>
      have hs : t.supervision.InTime cancel quit t.glance.now := hs
      rw [show t.effort = t.supervision.toGo t.now + 1 from effort_of_inTime hs _ _]
      cases hr : s.result? with
      | none =>
          obtain ⟨hle, hlt⟩ := toGo_look hs hl hr
          have hle : s.toGo t.now ≤ t.supervision.toGo t.now := hle
          have hlt : .received ∉ es → s.toGo t.now < t.supervision.toGo t.now := hlt
          have hnext : s.InTime cancel quit t.now := hs.look hl hr
          rw [effort_of_inTime hnext]
          exact ⟨.underway ((frame_look hl hs.outcome?).1.trans hphase) (hs.look hl hr),
            by omega, fun hn => by have := hlt hn; omega⟩
      | some r =>
          have hquit := forceQuit_of_result? hs.outcome? hl hanswer hhead hr
          have hzero : effort { t with supervision := s } = 0 := by
            rw [effort, hr]
          rw [hzero]
          exact ⟨.givenUp (by rw [hr, hquit, hphase]), Nat.zero_le _, fun _ => Nat.zero_le _⟩

/-- A round in which no report is taken brings the end nearer. -/
theorem Held.play_round (hh : Held phase cancel quit t) {r : Round} (hr : r.KeepsOpen)
    (h : History) :
    ∃ k t', play (recorded move?) (h, t) r.moves = (h ++ k, t') ∧ Held phase cancel quit t' ∧
      t'.effort ≤ t.effort ∧ (k.receipts = 0 → t'.effort ≤ t.effort - 1) := by
  obtain ⟨s, now, answer, head⟩ := t
  have hshown : recorded move? (.shown r.answer r.head) (h, ⟨s, now, answer, head⟩) =
      some (h ++ [], ⟨s, now, r.answer, r.head⟩) := rfl
  have hh₁ : Held phase cancel quit ⟨s, now, r.answer, r.head⟩ := by
    cases hh with
    | underway hphase hs => exact .underway hphase hs
    | givenUp hr => exact .givenUp hr
  have heffort : effort ⟨s, now, answer, head⟩ = effort ⟨s, now, r.answer, r.head⟩ := rfl
  rw [Round.moves, play_cons_of_eq_some hshown, List.append_nil, heffort]
  cases hl : s.look (glance ⟨s, now, r.answer, r.head⟩) with
  | none =>
      have hlook : recorded move? .look (h, ⟨s, now, r.answer, r.head⟩) = none := by
        rw [recorded, move?, hl]
        rfl
      obtain ⟨t', hplay, hh', hle, hlt⟩ := hh₁.play_wait h r.patience
      rw [play_cons_of_eq_none hlook, hplay]
      exact ⟨[], t', by rw [List.append_nil], hh', hle, fun _ => hlt hl⟩
  | some l =>
      obtain ⟨es, s'⟩ := l
      have hlook : recorded move? .look (h, ⟨s, now, r.answer, r.head⟩) =
          some (h ++ es.map (⟨now, none, ·⟩), ⟨s', now, r.answer, r.head⟩) := by
        rw [recorded, move?, hl]
        rfl
      obtain ⟨hh₂, hle, hlt⟩ := hh₁.look hr.answer hr.head hl
      obtain ⟨t', hplay, hh', hle', _⟩ :=
        hh₂.play_wait (h ++ es.map (⟨now, none, ·⟩)) r.patience
      rw [play_cons_of_eq_some hlook, hplay]
      exact ⟨_, t', rfl, hh', Nat.le_trans hle' hle, fun hnone =>
        Nat.le_trans hle' (hlt (History.received_notMem hnone))⟩

/-- An engine that keeps its stream open is given up after a bounded number of rounds in
which no report is taken. -/
theorem forceQuit_of_keepsOpen (phase : Phase) (engine : Nat) (budget : Budget) (now : Nat)
    {rs : List Round} (hrs : ∀ r ∈ rs, r.KeepsOpen)
    (hlength : (start phase engine budget now).quitTick - now + 3 +
        (after (start phase engine budget now) (rs.flatMap Round.moves)).1.receipts ≤ rs.length) :
    (after (start phase engine budget now) (rs.flatMap Round.moves)).2.supervision.result? =
      some (.error (.forceQuit phase)) := by
  have hopened := inTime_opened phase engine budget now
  obtain ⟨k, t, hplay, hheld, hle⟩ := play_rounds
    (P := fun _ => Held phase (tickAfter now budget.cancel) (tickAfter now budget.quit))
    (fun r hr h t hh => hh.play_round (hrs r hr) h)
    (h := (opened (start phase engine budget now)).1)
    (s := (opened (start phase engine budget now)).2) (.underway rfl hopened)
  have hafter : after (start phase engine budget now) (rs.flatMap Round.moves) =
      ((opened (start phase engine budget now)).1 ++ k, t) := hplay
  have hreceipts : (opened (start phase engine budget now)).1.receipts = 0 := rfl
  have hstart : effort (opened (start phase engine budget now)).2 =
      (start phase engine budget now).quitTick - now + 2 + 1 := by
    refine (effort_of_inTime hopened none .nothing).trans ?_
    exact congrArg (· + 1) (toGo_start hopened)
  rw [hafter, History.receipts_append, hreceipts] at hlength
  have hle : t.effort ≤ (start phase engine budget now).quitTick - now + 2 + 1 -
    (rs.length - k.receipts) := hstart ▸ hle
  rw [hafter]
  cases hheld with
  | givenUp hr => exact hr
  | underway _ hs =>
      rw [show t.effort = _ from effort_of_inTime hs _ _] at hle
      omega

/-! ## The theorem -/

theorem not_early {now : Nat} {budget : Budget} (hlt : budget.cancel < budget.quit) :
    (now * nanosPerMilli + budget.quit.nanos < clockRange →
        now * nanosPerMilli + budget.quit.nanos ≤ tickAfter now budget.quit * nanosPerMilli) ∧
      (budget.InOrder (now * nanosPerMilli) →
        now * nanosPerMilli + budget.cancel.nanos < tickAfter now budget.quit * nanosPerMilli) := by
  have hle := deadline_le_tickAfter now budget.quit
  refine ⟨fun hrange => ?_, fun horder => ?_⟩
  · rw [deadline_of_lt hrange] at hle
    exact hle
  · have hdeadline := horder.deadline_lt hlt
    have hcancel : now * nanosPerMilli + budget.cancel.nanos < clockRange := by
      rw [Duration.lt_iff] at hlt
      rcases horder with hquit | ⟨hcancel, _⟩
      · omega
      · exact hcancel
    rw [deadline_of_lt hcancel] at hdeadline
    omega

/-- For settings that pass their check, whose deadlines the clock can tell apart: the soft
one comes first.  Whatever the engine shows, nobody is given up early, or without the signal
being fired by one of the timers, and if these fall on different milliseconds, not without
having been asked to wind down in the earlier one.  An engine that keeps its stream open is
given up in the end. -/
theorem forewarned_play (config : Config) (hconfig : config.validate = .ok ()) :
    (∀ instant, config.budget.InOrder instant →
      deadline instant config.budget.cancel < deadline instant config.budget.quit) ∧
    (∀ instant (d e : Duration), d ≤ e →
      instant + e.nanos < clockRange ∨ clockRange ≤ instant + d.nanos ∨ d.nanos ≤ farFuture →
        deadline instant d ≤ deadline instant e) ∧
    ∀ phase engine now,
      (∀ site : Site, site.now = now → ∃ ms, Matches site.history.ofDirector
        (conduct phase engine config.budget site) (after (start phase engine config.budget now) ms)) ∧
      (deadline (now * nanosPerMilli) config.budget.cancel + nanosPerMilli ≤
          deadline (now * nanosPerMilli) config.budget.quit →
        tickAfter now config.budget.cancel < tickAfter now config.budget.quit) ∧
      (∀ ms, (after (start phase engine config.budget now) ms).2.supervision.result? =
          some (.error (.forceQuit phase)) →
        tickAfter now config.budget.cancel < tickAfter now config.budget.quit →
          ∃ ks later, Forewarned (start phase engine config.budget now) ms ks later) ∧
      (∀ ms, (after (start phase engine config.budget now) ms).2.supervision.result? =
          some (.error (.forceQuit phase)) →
        ∃ time, (time = tickAfter now config.budget.cancel ∨
            time = tickAfter now config.budget.quit) ∧
          ⟨time, none, .signalFired⟩ ∈ (after (start phase engine config.budget now) ms).1) ∧
      (∀ ms, ∀ x ∈ (after (start phase engine config.budget now) ms).1, ∀ u,
        x.event = .update u → u.milestone = .forceQuitFailure →
          (now * nanosPerMilli + config.budget.quit.nanos < clockRange →
            now * nanosPerMilli + config.budget.quit.nanos ≤ x.time * nanosPerMilli) ∧
          (config.budget.InOrder (now * nanosPerMilli) →
            now * nanosPerMilli + config.budget.cancel.nanos < x.time * nanosPerMilli)) ∧
      ∀ rs : List Round, (∀ r ∈ rs, r.KeepsOpen) →
        tickAfter now config.budget.quit - now + 3 +
            (after (start phase engine config.budget now) (rs.flatMap Round.moves)).1.receipts
          ≤ rs.length →
        (after (start phase engine config.budget now) (rs.flatMap Round.moves)).2.supervision.result? =
          some (.error (.forceQuit phase)) := by
  have hlt : config.budget.cancel < config.budget.quit := (Config.validate_eq_ok_iff.mp hconfig).1
  refine ⟨fun instant horder => horder.deadline_lt hlt,
    fun instant d e hle hnear => deadline_mono hle hnear, fun phase engine now => ?_⟩
  have hstanding := standing_after phase engine config.budget now
  refine ⟨?_, fun hapart => ?_, fun ms hr hticks => ?_, fun ms hr => ?_, fun ms x hx u hu hm => ?_,
    fun rs hrs hlength => forceQuit_of_keepsOpen phase engine config.budget now hrs hlength⟩
  · rintro site rfl
    exact matches_conduct phase engine config.budget site
  · have hearly := timerTick_mul_lt (deadline (now * nanosPerMilli) config.budget.cancel)
    have hlate := deadline_le_tickAfter now config.budget.quit
    exact Nat.lt_of_mul_lt_mul_right (Nat.lt_of_lt_of_le hearly (Nat.le_trans hapart hlate))
  · cases (hstanding ms).progress with
    | underway hs => exact nomatch hs.result?.symm.trans hr
    | ended r hr' hforewarned =>
        exact hforewarned (Option.some.inj (hr'.symm.trans hr)) hticks
  · cases (hstanding ms).progress with
    | underway hs => exact nomatch hs.result?.symm.trans hr
    | ended r hr' _ hfired => exact hfired (Option.some.inj (hr'.symm.trans hr))
  · have htime : x.time = tickAfter now config.budget.quit := (hstanding ms).givenUp x hx u hu hm
    rw [htime]
    exact not_early hlt

/-- Settings with a soft timeout of two milliseconds and a hard one of five. -/
def brief : Config :=
  { Config.standard with cancelTimeout := .ofMillis 2, quitTimeout := .ofMillis 5 }

/-- The engine starts, reports once, and says no more. -/
def mute : List Round :=
  [⟨none, .nothing, 0⟩, ⟨some (.ok ()), .nothing, 0⟩, ⟨none, .report (.removed "a" "x"), 0⟩]
    ++ List.replicate 6 ⟨none, .nothing, 0⟩

theorem forewarned_mute :
    brief.validate = .ok () ∧ brief.budget.InOrder (7 * nanosPerMilli) ∧
      deadline (7 * nanosPerMilli) brief.budget.cancel <
        deadline (7 * nanosPerMilli) brief.budget.quit ∧
      tickAfter 7 brief.budget.cancel = 9 ∧ tickAfter 7 brief.budget.quit = 12 ∧
      (∀ r ∈ mute, r.KeepsOpen) ∧
      (after (.start .components 0 brief.budget 7) (mute.flatMap Round.moves)).2.supervision.result? =
        some (.error (.forceQuit .components)) ∧
      ∃ ks later, Forewarned (.start .components 0 brief.budget 7) (mute.flatMap Round.moves)
        ks later := by
  have hconfig : brief.validate = .ok () := Config.validate_eq_ok_iff.mpr (by decide +kernel)
  have horder : brief.budget.InOrder (7 * nanosPerMilli) := .inl (by decide +kernel)
  obtain ⟨hdeadlines, _, hruns⟩ := forewarned_play brief hconfig
  obtain ⟨_, hticks, hwarned, _, _, hends⟩ := hruns .components 0 7
  have hkeeps : ∀ r ∈ mute, r.KeepsOpen := by
    intro r hr
    simp [mute] at hr
    rcases hr with rfl | rfl | rfl | rfl <;>
      exact ⟨fun _ h => (nomatch h), fun h => (nomatch h)⟩
  have hresult := hends mute hkeeps (by decide +kernel)
  exact ⟨hconfig, horder, hdeadlines _ horder, by decide +kernel, by decide +kernel, hkeeps,
    hresult, hwarned _ hresult (hticks (by decide +kernel))⟩

/-- Settings whose hard timeout is longer than the clock counts, and whose soft timeout of
forty years reaches beyond the far future. -/
def distant : Config :=
  { Config.standard with
    cancelTimeout := .ofSecs 1262304000, quitTimeout := .ofSecs 18446744073709551615 }

/-- Settings with both deadlines in the same millisecond. -/
def hasty : Config :=
  { Config.standard with cancelTimeout := .ofNanos 1, quitTimeout := .ofNanos 2 }

/-- A site whose engine keeps its stream open until it is asked to wind down, and takes
some time for that. -/
def patientSite : Site where
  engines := [{ job := .script { after := .untilCancelled, closeDelay := .ofMillis 1000000 } }]
  signals := ⟨[false]⟩

/-- What was told, and when the signal was fired. -/
def told (h : History) : List (Nat × Milestone) × List Nat :=
  (h.updates.map fun (time, u) => (time, u.milestone),
    (h.filter fun x => x.event = .signalFired).map Entry.time)

/-- Both settings pass their check.  With the former the hard deadline comes first.  With
either, the phase is given up as soon as the signal is fired. -/
theorem unwarned :
    distant.validate = .ok () ∧ hasty.validate = .ok () ∧
      distant.budget.cancel ≤ distant.budget.quit ∧
      deadline 0 distant.budget.quit < deadline 0 distant.budget.cancel ∧
      told (conduct .components 0 distant.budget patientSite).site.history =
        ([(0, .start), (946080000000, .forceQuitFailure)], [946080000000]) ∧
      told (conduct .components 0 hasty.budget patientSite).site.history =
        ([(0, .start), (1, .forceQuitFailure)], [1]) :=
  ⟨Config.validate_eq_ok_iff.mpr (by decide +kernel),
    Config.validate_eq_ok_iff.mpr (by decide +kernel),
    by decide +kernel, by decide +kernel, by decide +kernel, by decide +kernel⟩

end Timed

end Supervision

end Decommission
