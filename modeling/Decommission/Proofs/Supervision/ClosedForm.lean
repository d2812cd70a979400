import Decommission.Proofs.Supervision.Formula
import Decommission.Proofs.Supervision.Leftover

/-!
# Supervised scripts in closed form

A supervised script comes to what the formula says (`played_conduct`), in its usual course
and in every order of moves that the clock allows.  Every look, every action of the engine
and every wait leads from a scene that keeps to the formula to another one, or ends the
supervision (`Recital.Standing`).  In the usual course fewer turns are left after each of
them (`Recital.toGo`).
-/

namespace Decommission

namespace Supervision

namespace Recital

variable {z : Recital} {now later i : Nat} {soft : Bool} {stage : Playback.Stage}
  {waiting : List Report} {passed : List (Nat × Report)} {c c' : Course Supervision}

/-! ## Looks, actions and waits -/

/-- What is left to do in a scene, waits apart. -/
def load (z : Recital) (soft : Bool) (stage : Playback.Stage) (waiting : List Report) : Nat :=
  4 * z.movesAt stage + 2 * waiting.length + if soft then 0 else 2

/-- A look leads to another scene, or ends the supervision as the formula says. -/
theorem Keeps.look (hu : z.Untied) (hk : Keeps z now soft stage waiting passed)
    (h : Scene z now soft stage waiting passed c) (hd : c.direct? = some c') :
    z.Concluded c' ∨ ∃ soft' waiting' passed', Scene z now soft' stage waiting' passed' c' ∧
      Keeps z now soft' stage waiting' passed' ∧
        z.load soft' stage waiting' + 2 ≤ z.load soft stage waiting := by
  cases h.sight with
  | report r rest hw c₁ hd₁ h₁ =>
      cases hd.symm.trans hd₁
      subst hw
      refine .inr ⟨soft, rest, _, h₁, hk.take, ?_⟩
      rw [load, load, List.length_cons]
      omega
  | closed hw hs c₁ hd₁ h₁ =>
      cases hd.symm.trans hd₁
      subst hw hs
      exact .inl (hk.closed h₁)
  | quit hw hs hq c₁ hd₁ h₁ =>
      cases hd.symm.trans hd₁
      subst hw
      exact .inl (hk.quit hu hs hq h₁)
  | cancel hw hs hq hsoft hc c₁ hd₁ h₁ =>
      cases hd.symm.trans hd₁
      subst hw hsoft
      exact .inr ⟨true, [], passed, h₁, hk.cancel hs hc, Nat.le_refl _⟩
  | nothing _ _ _ _ hnone => cases hd.symm.trans hnone

/-- An action of the engine at its time leads to another scene. -/
theorem Keeps.act (hu : z.Untied) (hk : Keeps z now soft stage waiting passed)
    (h : Scene z now soft stage waiting passed c)
    (hclear : stage = .between [] → z.script.after = .close → soft = false → now ≠ z.cancel)
    {a : Work.Action} {site : Site} (ht : c.site.isTimely i a) (ha : c.site.act? i a = some site) :
    ∃ stage' waiting', Scene z now soft stage' waiting' passed { c with site } ∧
      Keeps z now soft stage' waiting' passed ∧
        z.load soft stage' waiting' + 2 ≤ z.load soft stage waiting := by
  obtain ⟨stage', waiting', hm, h'⟩ := h.acted ht ha
  refine ⟨stage', waiting', h', hk.move hu hm hclear, ?_⟩
  have hmoves := hm.movesAt_lt
  have hlength := hm.length_le
  rw [load, load]
  omega

/-- The supervision waits. -/
theorem Scene.waits (h : Scene z now soft stage waiting passed c) (hd : c.direct? = none) :
    waiting = [] ∧ stage ≠ .ended ∧ now < z.quit ∧ (soft = false → now < z.cancel) := by
  cases h.sight with
  | nothing hnil hs hq hc => exact ⟨hnil, hs, hq, hc⟩
  | report _ _ _ _ hd' | closed _ _ _ hd' | quit _ _ _ _ hd' | cancel _ _ _ _ _ _ hd' =>
      cases hd.symm.trans hd'

/-- Nobody can move. -/
theorem Scene.idle (h : Scene z now soft stage waiting passed c) (hd : c.direct? = none)
    (hw : c.site.work? = none) :
    waiting = [] ∧ stage ≠ .ended ∧ Resting z now soft stage ∧ now < z.nextTimer soft := by
  obtain ⟨hnil, hs, hq, hc⟩ := h.waits hd
  refine ⟨hnil, hs, h.resting hw, ?_⟩
  rw [nextTimer]
  cases soft with
  | true => exact hq
  | false =>
      rw [if_neg Bool.false_ne_true]
      exact Nat.lt_min.mpr ⟨hq, hc rfl⟩

theorem Resting.lt_alarmAt (hr : Resting z now soft stage) {a : Nat}
    (ha : z.alarmAt stage = some a) : now < a := by
  cases hr with
  | delaying r rest h =>
      cases ha
      exact h
  | winding h =>
      cases ha
      exact h
  | awaiting | hung | ended => cases ha

/-- The next alarm is that of the engine or of the supervision, whichever is earlier. -/
theorem Scene.exists_alarm (h : Scene z now soft stage waiting passed c) :
    ∃ a, c.alarm? = some a ∧
      ∀ t, t ≤ a ↔ (∀ b, z.alarmAt stage = some b → t ≤ b) ∧ t ≤ z.nextTimer soft := by
  rw [h.alarm?]
  cases z.alarmAt stage with
  | none => exact ⟨_, rfl, fun t => ⟨fun ht => ⟨fun _ hb => (nomatch hb), ht⟩, And.right⟩⟩
  | some b =>
      refine ⟨_, rfl, fun t => Nat.le_min.trans ⟨fun ht => ⟨fun _ hb => ?_, ht.2⟩,
        fun ht => ⟨ht.1 b rfl, ht.2⟩⟩⟩
      cases hb
      exact ht.1

/-- Time passes while nobody can move, until the next alarm at the latest. -/
theorem Keeps.wait (hk : Keeps z now soft stage waiting passed)
    (h : Scene z now soft stage waiting passed c) (hd : c.direct? = none)
    (hw : c.site.work? = none) (hle : now ≤ later) (ha : ∀ a, c.alarm? = some a → later ≤ a) :
    Scene z later soft stage waiting passed { c with site := { c.site with now := later } } ∧
      Keeps z later soft stage waiting passed := by
  obtain ⟨rfl, hs, hr, _⟩ := h.idle hd hw
  obtain ⟨a, halarm, hiff⟩ := h.exists_alarm
  obtain ⟨hengine, htimer⟩ := (hiff later).mp (ha a halarm)
  exact ⟨h.pass later, hk.pass hr hs hle hengine htimer⟩

/-- While nobody can move, the next alarm is ahead.  When it is there, somebody can. -/
theorem Scene.awakened (h : Scene z now soft stage waiting passed c) (hd : c.direct? = none)
    (hw : c.site.work? = none) :
    ∃ a, c.alarm? = some a ∧ now < a ∧
      ¬ Course.isIdle { c with site := { c.site with now := a } } := by
  obtain ⟨a, halarm, hiff⟩ := h.exists_alarm
  have hlt : ∀ {t c₁}, Scene z t soft stage waiting passed c₁ → c₁.direct? = none →
      c₁.site.work? = none → t < a := by
    intro t c₁ h₁ hd₁ hw₁
    obtain ⟨_, _, hr, htimer⟩ := h₁.idle hd₁ hw₁
    exact (hiff (t + 1)).mpr ⟨fun b hb => hr.lt_alarmAt hb, htimer⟩
  refine ⟨a, halarm, hlt h hd hw, fun hidle => ?_⟩
  obtain ⟨hd', _, hw'⟩ := Course.isIdle_iff.mp hidle
  exact Nat.lt_irrefl a (hlt (h.pass a) hd' hw')

/-! ## In any order -/

/-- A supervised script under way, or ended as the formula says. -/
inductive Standing (z : Recital) (c : Course Supervision) : Prop
  | playing (now : Nat) (soft : Bool) (stage : Playback.Stage) (waiting : List Report)
      (passed : List (Nat × Report)) (h : Scene z now soft stage waiting passed c)
      (hk : Keeps z now soft stage waiting passed)
  | concluded (h : z.Concluded c)

theorem Concluded.isOver (h : z.Concluded c) : Director.isOver c.director := by
  show c.director.result?.isSome
  rw [h.result?]
  rfl

/-- Unless the soft timer goes off at the very beginning, it is not about to go off when the
engine closes its stream. -/
theorem Keeps.clear (hk : Keeps z now soft stage waiting passed)
    (hfree : z.script.steps = [] → z.script.after = .close → z.start ≠ z.cancel) :
    stage = .between [] → z.script.after = .close → soft = false → now ≠ z.cancel := by
  rintro rfl hafter _ hc
  cases hk.reached with
  | between _ _ hlast _ _ hfirst =>
      have hsteps := hfirst hc
      have hnow : now = z.start := by
        have hlast : now = z.last := hlast
        rw [hlast, last, hsteps]
        rfl
      exact hfree hsteps hafter (hnow ▸ hc)

/-- Every move on the clock keeps to the formula. -/
theorem Standing.clocked (hu : z.Untied)
    (hfree : z.script.steps = [] → z.script.after = .close → z.start ≠ z.cancel)
    (hs : Standing z c) {m : Course.Move Empty} (hm : Course.clocked? help? m c = some c') :
    Standing z c' := by
  obtain ⟨hopen, htimely, hm⟩ := Course.clocked?_eq_some_iff.mp hm
  cases hs with
  | concluded h => cases hopen.symm.trans h.isOver
  | playing now soft stage waiting passed h hk =>
      cases m with
      | help x => cases x
      | look =>
          rcases hk.look hu h hm with hover | ⟨_, _, _, h', hk', _⟩
          · exact .concluded hover
          · exact .playing _ _ _ _ _ h' hk'
      | work i a =>
          obtain ⟨site, ha, rfl⟩ := Option.map_eq_some_iff.mp hm
          obtain ⟨_, _, h', hk', _⟩ := hk.act hu h (hk.clear hfree) htimely ha
          exact .playing _ _ _ _ _ h' hk'
      | pass ms =>
          cases hm
          rw [Course.Move.isTimely, Bool.and_eq_true] at htimely
          obtain ⟨hd, _, hw⟩ := Course.isIdle_iff.mp htimely.1
          have hle : now ≤ c.site.now + ms := h.now ▸ Nat.le_add_right ..
          obtain ⟨h', hk'⟩ := hk.wait h hd hw hle fun a ha =>
            of_decide_eq_true ((Option.all_eq_true ..).mp htimely.2 a ha)
          exact .playing _ _ _ _ _ h' hk'

/-! ## In the usual course -/

/-- A bound on the turns that are left. -/
def toGo (c : Course Supervision) : Nat :=
  if Director.isOver c.director then 0
  else 4 * c.site.moves + 2 * total (fun r => r.work.stream.waiting.length) c.site.runs +
    (if c.site.isFired then 0 else 2) + (if c.isIdle then 1 else 0) + 1

theorem Scene.toGo_eq (h : Scene z now soft stage waiting passed c) :
    toGo c = z.load soft stage waiting + (if c.isIdle then 1 else 0) + 1 := by
  obtain ⟨capacity, taken, _, hruns⟩ := h.runs
  have hmoves : c.site.moves = z.movesAt stage := by
    rw [Site.moves, hruns]
    rfl
  have hwaiting : total (fun r => r.work.stream.waiting.length) c.site.runs = waiting.length := by
    rw [hruns]
    rfl
  rw [toGo, if_neg (Bool.eq_false_iff.mp h.isOver), hmoves, hwaiting, h.fired, load]

theorem Scene.toGo_le (h : Scene z now soft stage waiting passed c) :
    toGo c ≤ z.load soft stage waiting + 2 := by
  rw [h.toGo_eq]
  split
  · exact Nat.le_refl _
  · exact Nat.le_succ _

theorem Scene.load_lt (h : Scene z now soft stage waiting passed c) :
    z.load soft stage waiting < toGo c := by
  rw [h.toGo_eq]
  exact Nat.lt_succ_of_le (Nat.le_add_right ..)

/-- The engine moves until it has to wait, while the soft timer is not about to go off. -/
theorem Keeps.workUpTo (hu : z.Untied) (hearly : soft = false → now < z.cancel) (n : Nat)
    (hk : Keeps z now soft stage waiting passed) (h : Scene z now soft stage waiting passed c) :
    ∃ stage' waiting',
      Scene z now soft stage' waiting' passed { c with site := c.site.workUpTo n } ∧
      Keeps z now soft stage' waiting' passed ∧
        z.load soft stage' waiting' ≤ z.load soft stage waiting := by
  induction n generalizing stage waiting c with
  | zero => exact ⟨stage, waiting, h, hk, Nat.le_refl _⟩
  | succ n ih =>
      rw [Site.workUpTo]
      cases hw : c.site.work? with
      | none => exact ⟨stage, waiting, h, hk, Nat.le_refl _⟩
      | some site =>
          obtain ⟨i, a, ht, ha⟩ := Site.timely_of_work? hw
          obtain ⟨_, _, h₁, hk₁, hless⟩ :=
            hk.act hu h (fun _ _ hs => Nat.ne_of_lt (hearly hs)) ht ha
          obtain ⟨stage', waiting', h', hk', hle⟩ := ih hk₁ h₁
          exact ⟨stage', waiting', h', hk', by omega⟩

theorem Keeps.workOff (hu : z.Untied) (hearly : soft = false → now < z.cancel)
    (hk : Keeps z now soft stage waiting passed) (h : Scene z now soft stage waiting passed c)
    {site : Site} (hw : c.site.work? = some site) :
    ∃ stage' waiting',
      Scene z now soft stage' waiting' passed { c with site := c.site.workOff } ∧
      Keeps z now soft stage' waiting' passed ∧
        z.load soft stage' waiting' + 2 ≤ z.load soft stage waiting := by
  obtain ⟨i, a, ht, ha⟩ := Site.timely_of_work? hw
  obtain ⟨_, _, hm, _⟩ := h.acted ht ha
  obtain ⟨_, _, h₁, hk₁, hless⟩ := hk.act hu h (fun _ _ hs => Nat.ne_of_lt (hearly hs)) ht ha
  obtain ⟨capacity, taken, _, hruns⟩ := h.runs
  obtain ⟨n, hn⟩ : ∃ n, c.site.moves = n + 1 := by
    refine ⟨z.movesAt stage - 1, ?_⟩
    rw [Site.moves, hruns]
    exact (Nat.sub_add_cancel (Nat.lt_of_le_of_lt (Nat.zero_le _) hm.movesAt_lt)).symm
  have hoff : c.site.workOff = site.workUpTo n := by
    rw [Site.workOff, hn, Site.workUpTo, hw]
  rw [hoff]
  obtain ⟨stage', waiting', h', hk', hle⟩ := hk₁.workUpTo hu hearly n h₁
  exact ⟨stage', waiting', h', hk', by omega⟩

/-- Every turn of the usual course keeps to the formula, and fewer are left. -/
theorem Standing.turn (hu : z.Untied) (hs : Standing z c) (ht : c.turn? = some c') :
    Standing z c' ∧ toGo c' < toGo c := by
  cases hs with
  | concluded h =>
      rw [Course.turn?, h.isOver] at ht
      cases ht
  | playing now soft stage waiting passed h hk =>
      have hload := h.load_lt
      cases hd : c.direct? with
      | some c₁ =>
          rw [Course.turn?_eq_direct h.isOver hd] at ht
          cases ht
          rcases hk.look hu h hd with hover | ⟨_, _, _, h', hk', hless⟩
          · refine ⟨.concluded hover, ?_⟩
            rw [toGo, if_pos hover.isOver]
            omega
          · have hle := h'.toGo_le
            exact ⟨.playing _ _ _ _ _ h' hk', by omega⟩
      | none =>
          cases hw : c.site.work? with
          | some site =>
              rw [Course.turn?_eq_workOff h.isOver hd rfl (by rw [hw]; rfl)] at ht
              cases ht
              obtain ⟨_, _, _, hearly⟩ := h.waits hd
              obtain ⟨_, _, h', hk', hless⟩ := hk.workOff hu hearly h hw
              have hle := h'.toGo_le
              exact ⟨.playing _ _ _ _ _ h' hk', by omega⟩
          | none =>
              rw [Course.turn?_eq_elapse h.isOver hd rfl hw] at ht
              obtain ⟨a, ha, hlt, rfl⟩ := Course.elapse?_eq_some_iff.mp ht
              obtain ⟨a', ha', _, hbusy⟩ := h.awakened hd hw
              cases ha.symm.trans ha'
              obtain ⟨h', hk'⟩ := hk.wait h hd hw (h.now ▸ Nat.le_of_lt hlt) fun b hb =>
                Nat.le_of_eq (Option.some.inj (ha.symm.trans hb))
              refine ⟨.playing _ _ _ _ _ h' hk', ?_⟩
              rw [h.toGo_eq, h'.toGo_eq, if_neg hbusy,
                if_pos (Course.isIdle_iff.mpr ⟨hd, rfl, hw⟩)]
              exact Nat.lt_succ_self _

/-- A supervised script goes on until it is over. -/
theorem Standing.of_turn?_eq_none (hs : Standing z c) (ht : c.turn? = none) : z.Concluded c := by
  cases hs with
  | concluded h => exact h
  | playing now soft stage waiting passed h hk =>
      cases hd : c.direct? with
      | some c₁ => cases ht.symm.trans (Course.turn?_eq_direct h.isOver hd)
      | none =>
          cases hw : c.site.work? with
          | some site =>
              cases ht.symm.trans (Course.turn?_eq_workOff h.isOver hd rfl (by rw [hw]; rfl))
          | none =>
              obtain ⟨a, ha, hlt, _⟩ := h.awakened hd hw
              have helapse := Course.elapse?_eq_some_iff.mpr ⟨a, ha, h.now ▸ hlt, rfl⟩
              cases ht.symm.trans ((Course.turn?_eq_elapse h.isOver hd rfl hw).trans helapse)

end Recital

/-! ## From the beginning -/

variable {site : Site} {i : Nat} {e : Engine} {s : Script} {budget : Budget}

theorem updatesIn_beginEvents (e : Engine) (fired : Bool) :
    updatesIn (e.beginEvents fired) = [] := by
  have hjob : updatesIn e.jobEvents = [] := by
    rw [Engine.jobEvents]
    split
    · rfl
    · rfl
  rw [Engine.beginEvents]
  split
  · show updatesIn ([.note _] ++ e.jobEvents ++ [.note _]) = []
    rw [updatesIn_append, updatesIn_append, hjob]
    rfl
  · exact hjob

/-- A script that can be played as soon as it is asked for, at a site where nothing else is
going on and whose signal has not been fired. -/
structure Ready (site : Site) (i : Nat) (e : Engine) (s : Script) : Prop where
  engine : site.engines[i]? = some e
  job : e.job = .script s
  starts : s.startError = none
  atOnce : e.startDelay = 0
  answers : e.startHangs = false
  runs : site.runs = []
  reading : site.reading = none
  made : 0 < site.signals.next
  fired : site.isFired = false

theorem Ready.begin (h : Ready site i e s) : e.begin = .ok (.script (.start s)) := by
  rw [Engine.begin, h.job, Job.begin, h.starts]

/-- The engine is asked to start, and answers at once. -/
theorem Ready.opened (h : Ready site i e s) (phase : Phase) (budget : Budget) :
    (site.performAll (start phase i budget site.now).opening).engines[i]? = some e ∧
      (site.performAll (start phase i budget site.now).opening).now = site.now ∧
      (site.performAll (start phase i budget site.now).opening).launch =
        some ⟨i, some site.now⟩ := by
  obtain ⟨hengines, hnow⟩ := Site.ground_performAll site (start phase i budget site.now).opening
  refine ⟨hengines ▸ h.engine, hnow, ?_⟩
  show (Site.launchEngine i _).launch = _
  refine (Site.launch_launchEngine (e := e) ?_).trans ?_
  · exact h.engine
  · rw [Engine.dueFrom, h.answers, h.atOnce]
    rfl

/-- What stays the same while a script is played under supervision from a site on. -/
def Recital.of (phase : Phase) (i : Nat) (budget : Budget) (s : Script) (site : Site) : Recital where
  phase
  engine := i
  budget
  start := site.now
  script := s
  before := site.history.updates ++ [(site.now, .starting phase)]
  cancel := tickAfter site.now budget.cancel
  quit := tickAfter site.now budget.quit
  cancel_eq := rfl
  quit_eq := rfl

theorem Ready.runs_begun (h : Ready site i e s) (phase : Phase) (budget : Budget) :
    (begun phase i budget site).site.runs = [] :=
  (Site.runs_performAll (by simp [opening, Event.movesRuns])).1.trans h.runs

/-- The first look takes the answer. -/
theorem Ready.scene (h : Ready site i e s) (phase : Phase) (budget : Budget) :
    ∃ c, (begun phase i budget site).direct? = some c ∧
      (Recital.of phase i budget s site).Scene site.now false (.between s.steps) [] [] c := by
  obtain ⟨hengine, hnow, hlaunch⟩ := h.opened phase budget
  have hruns := @Site.runs_performAll site (start phase i budget site.now).opening
    (by simp [opening, Event.movesRuns])
  have hsignals := @Site.signals_performAll site (start phase i budget site.now).opening
    (by simp [opening, Event.movesSignals])
  have hupdates := @Site.updates_performAll site (start phase i budget site.now).opening
    (by simp [opening, Event.isAnswer])
  rw [begun]
  generalize site.performAll (start phase i budget site.now).opening = opened at *
  have hanswer : opened.answer? = some (.ok ()) := by
    rw [Site.answer?, hlaunch]
    simp [hengine, hnow, h.begin, Except.map]
  have hlook := look_of_answer (s := start phase i budget site.now) (g := opened.glance)
    rfl hanswer
  refine ⟨_, Course.direct?_eq_some_iff.mpr ⟨_, _, hlook, rfl⟩, ?_⟩
  have htaken : opened.perform (.answered i) = _ :=
    Site.takeAnswer_of_begin (s := opened.record none [.answered i]) hengine h.begin
      (hruns.2.trans h.reading)
  show (Recital.of phase i budget s site).Scene site.now false (.between s.steps) [] []
    ⟨_, opened.perform (.answered i)⟩
  have hnone : opened.runs = [] := hruns.1.trans h.runs
  have hfired : opened.isFired = false := (Site.isFired_of_signals hsignals).2.trans h.fired
  rw [htaken]
  refine ⟨⟨.empty, rfl⟩, hnow, ⟨max 1 s.steps.length, [], ?_, ?_⟩, ?_, rfl,
    hsignals ▸ h.made, hfired, ?_⟩
  · rw [List.length_nil, Nat.zero_add]
    exact Nat.le_max_right ..
  · show opened.runs ++ _ = _
    rw [hnone]
    rfl
  · show some opened.runs.length = some 0
    rw [hnone]
    rfl
  · show History.updates (opened.history ++ [⟨opened.now, none, .answered i⟩] ++
      (e.beginEvents _).map (⟨opened.now, some i, ·⟩)) = _
    rw [History.updates_append, History.updates_append, History.updates_entries,
      updatesIn_beginEvents, hupdates]
    exact (List.append_nil _).trans (List.append_nil _) |>.trans (List.append_nil _).symm

/-! ## The theorem -/

/-- The bound on the turns of a course leaves enough of them for a script. -/
theorem Ready.le_bound (h : Ready site i e s) (phase : Phase) (budget : Budget) :
    8 * s.steps.length + 21 ≤ (begun phase i budget site).bound := by
  have hengine := (h.opened phase budget).1
  have hmoves : e.job.moves = 2 * s.steps.length + 4 := by
    have hbegin : e.job.begin = .ok (.script (.start s)) := h.begin
    rw [Job.moves, hbegin]
    rfl
  have hle := le_total_of_getElem? (fun e : Engine => e.job.moves) hengine
  rw [begun, Course.bound, Site.effort]
  dsimp only at hle ⊢
  omega

/-- A supervised script has come to what the formula says. -/
structure Played (phase : Phase) (s : Script) (site : Site) (cancel quit : Nat)
    (c : Course Supervision) : Prop where
  now : c.site.now =
    ending (s.closes tickAfter cancel (Script.lastTime tickAfter site.now s.steps)) quit
  /-- The reports that are sent in time are passed on as they are, when they are sent. -/
  updates : c.site.history.updates = site.history.updates ++ [(site.now, .starting phase)] ++
    ((s.emitted cancel (Script.lastTime tickAfter site.now s.steps)
      (Script.emissions tickAfter site.now s.steps)).filter (·.1 ≤ ending
        (s.closes tickAfter cancel (Script.lastTime tickAfter site.now s.steps)) quit)).map
          (fun (time, r) => (time, ⟨.running, phase, some r, none⟩)) ++
    [(ending (s.closes tickAfter cancel (Script.lastTime tickAfter site.now s.steps)) quit,
      .ending phase (verdict phase
        (s.closes tickAfter cancel (Script.lastTime tickAfter site.now s.steps)) cancel quit
        (Recital.failures (s.emitted cancel (Script.lastTime tickAfter site.now s.steps)
          (Script.emissions tickAfter site.now s.steps)))))]
  fired : c.site.isFired =
    (s.closes tickAfter cancel (Script.lastTime tickAfter site.now s.steps)).all (cancel ≤ ·)
  result? : c.director.result? = some
    (verdict phase (s.closes tickAfter cancel (Script.lastTime tickAfter site.now s.steps))
      cancel quit
      (Recital.failures (s.emitted cancel (Script.lastTime tickAfter site.now s.steps)
        (Script.emissions tickAfter site.now s.steps))))

theorem Recital.Concluded.played {phase : Phase} {c : Course Supervision}
    (h : (Recital.of phase i budget s site).Concluded c) :
    Played phase s site (tickAfter site.now budget.cancel) (tickAfter site.now budget.quit) c := by
  have htold := h.told
  rw [h.now] at htold
  exact ⟨h.now, htold, h.fired, h.result?⟩

/-- In its usual course a supervised script comes to what the formula says. -/
theorem Ready.played (h : Ready site i e s) (phase : Phase)
    (hu : (Recital.of phase i budget s site).Untied) :
    (Recital.of phase i budget s site).Concluded (conduct phase i budget site) := by
  obtain ⟨c, hd, hscene⟩ := h.scene phase budget
  have hbound := h.le_bound phase budget
  obtain ⟨n, hn⟩ : ∃ n, (begun phase i budget site).bound = n + 1 :=
    ⟨_, (Nat.sub_add_cancel (by omega)).symm⟩
  have hrun : conduct phase i budget site = c.runUpTo n := by
    show (begun phase i budget site).run = _
    rw [Course.run, hn, Course.runUpTo_succ, Course.turn?_eq_direct rfl hd]
  have hleft : Recital.toGo c ≤ n := by
    have hle := hscene.toGo_le
    have hload : (Recital.of phase i budget s site).load false (.between s.steps) [] =
        4 * (2 * s.steps.length + 4) + 2 := rfl
    omega
  obtain ⟨hstanding, hend⟩ := Course.runUpTo_of_descent (μ := Recital.toGo)
    (fun c c' hs ht => Recital.Standing.turn hu hs ht)
    (.playing _ _ _ _ _ hscene (Recital.keeps_start hu)) hleft
  rw [hrun]
  exact hstanding.of_turn?_eq_none hend

/-- In every order of moves that the clock allows, a supervised script comes to what the
formula says, if it comes to a result. -/
theorem Ready.played_play (h : Ready site i e s) (phase : Phase)
    (hu : (Recital.of phase i budget s site).Untied)
    (hfree : s.steps = [] → s.after = .close → site.now ≠ tickAfter site.now budget.cancel)
    (ms : List (Course.Move Empty))
    (hr : (play (Course.clocked? help?) (begun phase i budget site) ms).director.result?.isSome) :
    (Recital.of phase i budget s site).Concluded
      (play (Course.clocked? help?) (begun phase i budget site) ms) := by
  obtain ⟨c, hd, hscene⟩ := h.scene phase budget
  have hstands : play (Course.clocked? help?) (begun phase i budget site) ms =
      begun phase i budget site ∨ (Recital.of phase i budget s site).Standing
        (play (Course.clocked? help?) (begun phase i budget site) ms) := by
    refine play_induction (P := fun c => c = begun phase i budget site ∨
      (Recital.of phase i budget s site).Standing c) ?_ (.inl rfl) ms
    rintro m c₁ c₂ (rfl | hs) hm
    · -- Nothing is possible but to take the answer.
      obtain ⟨_, htimely, hm⟩ := Course.clocked?_eq_some_iff.mp hm
      cases m with
      | help x => cases x
      | look =>
          cases hd.symm.trans hm
          exact .inr (.playing _ _ _ _ _ hscene (Recital.keeps_start hu))
      | work j a =>
          obtain ⟨_, ha, rfl⟩ := Option.map_eq_some_iff.mp hm
          obtain ⟨r, _, _, hj, _⟩ := Site.act?_eq_some_iff.mp ha
          rw [h.runs_begun phase budget] at hj
          cases hj
      | pass ms =>
          rw [Course.Move.isTimely, Bool.and_eq_true] at htimely
          cases hd.symm.trans (Course.isIdle_iff.mp htimely.1).1
    · exact .inr (hs.clocked hu hfree hm)
  rcases hstands with heq | hs
  · rw [heq] at hr
    cases hr
  · cases hs with
    | concluded h => exact h
    | playing _ _ _ _ _ h _ =>
        have hopen := h.isOver
        cases hr.symm.trans hopen

/-- A timer that the clock can express goes off after its wait, rounded up to whole
milliseconds. -/
theorem tickAfter_eq_add {now : Nat} {wait : Duration}
    (h : now * nanosPerMilli + wait.nanos < clockRange) :
    tickAfter now wait = now + timerTick wait.nanos := by
  rw [tickAfter, deadline_of_lt h]
  unfold timerTick nanosPerMilli
  omega

/-- A supervision of a script that starts at once comes to what the formula says, if the
clock can express the budget, and no report and no end of the stream comes just when a
timer goes off.  It does so in its usual course, and in every order of moves that the clock
allows, of which the usual course is one.  For the latter the soft timer must not go off as
soon as the stream is opened if it is closed then.  The timers go off after the parts of the
budget, rounded up to whole milliseconds. -/
theorem played_conduct (phase : Phase) {site : Site} {i : Nat} {e : Engine} {s : Script}
    (h : Ready site i e s) {budget : Budget} (hlt : budget.cancel < budget.quit)
    (hrange : site.now * nanosPerMilli + budget.quit.nanos < clockRange)
    (hties : ∀ x ∈ Script.emissions tickAfter site.now s.steps,
      x.1 ≠ tickAfter site.now budget.cancel ∧ x.1 ≠ tickAfter site.now budget.quit)
    (hcloses : s.closes tickAfter (tickAfter site.now budget.cancel)
      (Script.lastTime tickAfter site.now s.steps) ≠ some (tickAfter site.now budget.quit)) :
    Played phase s site (tickAfter site.now budget.cancel) (tickAfter site.now budget.quit)
        (conduct phase i budget site) ∧
      (∃ ms, play (Course.clocked? help?) (begun phase i budget site) ms =
        conduct phase i budget site) ∧
      ((s.steps = [] → s.after = .close → site.now ≠ tickAfter site.now budget.cancel) →
        ∀ ms, (play (Course.clocked? help?) (begun phase i budget site) ms).director.result?.isSome →
          Played phase s site (tickAfter site.now budget.cancel) (tickAfter site.now budget.quit)
            (play (Course.clocked? help?) (begun phase i budget site) ms)) ∧
      tickAfter site.now budget.cancel = site.now + timerTick budget.cancel.nanos ∧
      tickAfter site.now budget.quit = site.now + timerTick budget.quit.nanos := by
  have horder : budget.InOrder (site.now * nanosPerMilli) := .inl hrange
  have hcancel : site.now * nanosPerMilli + budget.cancel.nanos < clockRange := by
    rw [Duration.lt_iff] at hlt
    omega
  have hearly : site.now * nanosPerMilli + budget.cancel.nanos <
      tickAfter site.now budget.quit * nanosPerMilli := (Timed.not_early hlt).2 horder
  have hu : (Recital.of phase i budget s site).Untied :=
    { start_le := le_tickAfter ..
      cancel_le := timerTick_mono (Nat.le_of_lt (horder.deadline_lt hlt))
      start_lt := Nat.lt_of_mul_lt_mul_right (Nat.lt_of_le_of_lt (Nat.le_add_right ..) hearly)
      reports := hties
      closes := hcloses }
  refine ⟨(h.played phase hu).played, Course.exists_clocked_run (fun _ => rfl) _,
    fun hfree ms hr => (h.played_play phase hu hfree ms hr).played, tickAfter_eq_add hcancel,
    tickAfter_eq_add hrange⟩

/-- A script of three reports, the first after a tenth of a millisecond, which closes its
stream some time after it has been asked to wind down. -/
def lengthy : Script where
  steps := [⟨.ofNanos 100000, .removed "dex" "kyma-system"⟩,
    ⟨.ofMillis 3, .failed "istio" "istio-system" "stuck"⟩,
    ⟨.ofMillis 10, .removed "redis" "kyma-system"⟩]
  after := .untilCancelled
  closeDelay := .ofNanos 1500000

/-- A site at which it is played. -/
def lengthySite : Site where
  engines := [{ job := .script lengthy }]
  now := 5
  signals := ⟨[false]⟩

/-- The engine is asked to wind down before the last report, and a failure was passed on.
Each of its waits ends at a whole millisecond. -/
theorem played_lengthy :
    Ready lengthySite 0 { job := .script lengthy } lengthy ∧
      (Script.emissions tickAfter 5 lengthy.steps).map Prod.fst = [6, 9, 19] ∧
      (lengthy.closes tickAfter (tickAfter 5 (.ofMillis 6))
          (Script.lastTime tickAfter 5 lengthy.steps) = some 13 ∧
        tickAfter 5 (.ofMillis 6) = 11 ∧ tickAfter 5 (.ofMillis 20) = 25) ∧
      Played .components lengthy lengthySite (tickAfter 5 (.ofMillis 6)) (tickAfter 5 (.ofMillis 20))
        (conduct .components 0 ⟨.ofMillis 6, .ofMillis 20⟩ lengthySite) ∧
      (conduct .components 0 ⟨.ofMillis 6, .ofMillis 20⟩ lengthySite).director.result? =
        some (.error (.componentFailure .components 1)) := by
  have hready : Ready lengthySite 0 { job := .script lengthy } lengthy :=
    ⟨rfl, rfl, rfl, rfl, rfl, rfl, rfl, by decide, by decide⟩
  have hlt : (⟨.ofMillis 6, .ofMillis 20⟩ : Budget).cancel < .ofMillis 20 := by decide +kernel
  have hplayed := (played_conduct .components hready hlt (by decide +kernel) (by decide +kernel)
    (by decide +kernel)).1
  exact ⟨hready, by decide +kernel, by decide +kernel, hplayed, hplayed.result?⟩

/-- A budget of which both parts end in the first millisecond. -/
def fleeting : Budget := ⟨.ofNanos 400000, .ofNanos 800000⟩

/-- A script without reports that closes its stream as soon as it is asked to wind down. -/
def obedient : Script := { after := .untilCancelled }

/-- A script of four reports, one and a half milliseconds apart. -/
def hurried : Script where
  steps := .replicate 4 ⟨.ofNanos 1500000, .removed "dex" "kyma-system"⟩

/-- The end of a wait on a clock that counts nanoseconds. -/
def exactly (time : Nat) (wait : Duration) : Nat := time + wait.nanos

/-- What is told of a script that is played from the beginning of the clock on. -/
def toldOf (s : Script) (budget : Budget) : List (Nat × Milestone) × List Nat :=
  Timed.told (conduct .components 0 budget
    { engines := [{ job := .script s }], signals := ⟨[false]⟩ }).site.history

/-- By the nanoseconds of the former budget the engine would close its stream in time, but
the hard timer goes off first.  By the nanoseconds of its delays the latter script would end
well after six milliseconds, but its last report is still to come when the soft timer goes
off after seven. -/
theorem outrun_fleeting :
    (fleeting.cancel < fleeting.quit ∧
      obedient.closes exactly fleeting.cancel.nanos
        (Script.lastTime exactly 0 obedient.steps) = some 400000 ∧
      ending (some 400000) fleeting.quit.nanos = 400000 ∧
      verdict .components (some 400000) fleeting.cancel.nanos fleeting.quit.nanos 0 =
        .error (.timeout .components) ∧
      toldOf obedient fleeting = ([(0, .start), (1, .forceQuitFailure)], [1])) ∧
    hurried.closes exactly 7000000 (Script.lastTime exactly 0 hurried.steps) = some 6000000 ∧
      verdict .components (some 6000000) 7000000 20000000 0 = .ok () ∧
      toldOf hurried ⟨.ofMillis 7, .ofMillis 20⟩ =
        ([(0, .start), (2, .running), (4, .running), (6, .running), (7, .timeoutFailure)], [7]) :=
  ⟨⟨by decide +kernel, by decide +kernel, by decide +kernel,
    (if_neg (by decide +kernel)).trans
      ((if_neg (by decide +kernel)).trans (if_pos (by decide +kernel))),
    by decide +kernel⟩, by decide +kernel,
    (if_neg (by decide +kernel)).trans
      ((if_neg (by decide +kernel)).trans (if_neg (by decide +kernel))),
    by decide +kernel⟩

end Supervision

end Decommission
