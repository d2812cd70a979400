import Decommission.Proofs.Deletion.Timed
import Decommission.Proofs.Supervision.Timing

/-!
# The deadlines of both phases

Both phases of a deletion have the same two deadlines, counted from the beginning of the
first phase.  What is left for the second phase is exactly what the first one has not
used (`Budget.Continues`), because the first phase can end without an error only before
its soft timer.

`Timed.Standing` says for each stage where its timers stand, and every move preserves
it.  Since nobody waits past a timer, neither phase is under way after the hard deadline
(`Timed.punctual_play`).  `Timed.effort` bounds how often the deletion can still look,
other than to take a report, and how long it can wait, so it does leave both phases
behind.
-/

namespace Decommission

/-- What is left of a whole budget that began at a start, after the time that has gone by
until now.  Nothing is cut off, and the deadlines stay where they are. -/
structure Budget.Continues (whole : Budget) (start now : Nat) (elapsed : Duration)
    (left : Budget) : Prop where
  start_le : start ≤ now
  elapsed_eq : elapsed.nanos = (now - start) * nanosPerMilli
  elapsed_le : elapsed ≤ whole.cancel
  cancel_add : left.cancel.nanos + elapsed.nanos = whole.cancel.nanos
  quit_add : left.quit.nanos + elapsed.nanos = whole.quit.nanos
  cancel_lt : left.cancel < left.quit
  cancelDeadline : deadline (now * nanosPerMilli) left.cancel =
    deadline (start * nanosPerMilli) whole.cancel
  quitDeadline : deadline (now * nanosPerMilli) left.quit =
    deadline (start * nanosPerMilli) whole.quit

/-- A budget of whole milliseconds, within the range of the clock from a start on. -/
structure Budget.Fits (whole : Budget) (start cancel quit : Nat) : Prop where
  cancel_eq : whole.cancel.nanos = cancel * nanosPerMilli
  quit_eq : whole.quit.nanos = quit * nanosPerMilli
  cancel_lt : cancel < quit
  inRange : start * nanosPerMilli + whole.quit.nanos < clockRange

namespace Budget

variable {whole : Budget} {start cancel quit now : Nat}

theorem Fits.nanos_lt (h : whole.Fits start cancel quit) :
    whole.cancel.nanos < whole.quit.nanos := by
  rw [h.cancel_eq, h.quit_eq]
  exact Nat.mul_lt_mul_of_pos_right h.cancel_lt (by decide)

theorem continues_start (hlt : whole.cancel < whole.quit) (start : Nat) :
    whole.Continues start start .zero whole where
  start_le := Nat.le_refl _
  elapsed_eq := by rw [Nat.sub_self, Nat.zero_mul, Duration.nanos_zero]
  elapsed_le := by rw [Duration.le_iff, Duration.nanos_zero]; exact Nat.zero_le _
  cancel_add := by rw [Duration.nanos_zero, Nat.add_zero]
  quit_add := by rw [Duration.nanos_zero, Nat.add_zero]
  cancel_lt := hlt
  cancelDeadline := rfl
  quitDeadline := rfl

/-- As long as the soft deadline is ahead, what is left continues the budget. -/
theorem Fits.continues (h : whole.Fits start cancel quit) (hstart : start ≤ now)
    (hnow : now ≤ start + cancel) :
    whole.Continues start now (.ofNanos (now * nanosPerMilli - start * nanosPerMilli))
      (whole.remaining (.ofNanos (now * nanosPerMilli - start * nanosPerMilli))) := by
  have hlt := h.nanos_lt
  have hcancel := h.cancel_eq
  have hrange := h.inRange
  have hlongest := whole.cancel.nanos_le
  have hused : (now - start) * nanosPerMilli ≤ cancel * nanosPerMilli :=
    Nat.mul_le_mul_right _ (by omega)
  have hnanos : now * nanosPerMilli = start * nanosPerMilli + (now - start) * nanosPerMilli := by
    rw [← Nat.add_mul, Nat.add_sub_cancel' hstart]
  have helapsed : (Duration.ofNanos (now * nanosPerMilli - start * nanosPerMilli)).nanos =
      (now - start) * nanosPerMilli := by
    rw [Duration.nanos_ofNanos, hnanos, Nat.add_sub_cancel_left]
    exact Nat.min_eq_left (Nat.le_trans hused (hcancel ▸ hlongest))
  generalize Duration.ofNanos (now * nanosPerMilli - start * nanosPerMilli) = elapsed at helapsed ⊢
  have hc := whole.cancel_remaining elapsed
  have hq := whole.quit_remaining elapsed
  refine ⟨hstart, helapsed, ?_, ?_, ?_, ?_, ?_, ?_⟩
  · rw [Duration.le_iff]
    omega
  · omega
  · omega
  · rw [Duration.lt_iff]
    omega
  · rw [deadline_of_lt (by omega), deadline_of_lt (by omega)]
    omega
  · rw [deadline_of_lt (by omega), deadline_of_lt (by omega)]
    omega

end Budget

namespace Supervision

variable {whole : Budget} {start cancel quit now : Nat}

/-- A supervision with what is left of a budget has the timers of the whole budget. -/
theorem inTime_start (hf : whole.Fits start cancel quit) {elapsed : Duration} {left : Budget}
    (hc : whole.Continues start now elapsed left) (hnow : now ≤ start + cancel) (phase : Phase)
    (engine : Nat) :
    (Supervision.start phase engine left now).InTime (start + cancel) (start + quit) now := by
  have hlt := hf.cancel_lt
  have hnanos := hf.nanos_lt
  have hrange := hf.inRange
  refine ⟨rfl, rfl, ?_, ?_, by omega, fun _ => hnow⟩
  · show timerTick (deadline (now * nanosPerMilli) left.cancel) = _
    rw [hc.cancelDeadline]
    exact tickAfter_of_millis hf.cancel_eq (by omega)
  · show timerTick (deadline (now * nanosPerMilli) left.quit) = _
    rw [hc.quitDeadline]
    exact tickAfter_of_millis hf.quit_eq hrange

end Supervision

/-- An update that is neither early nor late: a phase is under way between the start of
a budget and its hard deadline, and goes well before its soft deadline. -/
def Entry.Timely (x : Entry) (whole : Budget) (start : Nat) : Prop :=
  ∀ u, x.event = .update u → start ≤ x.time ∧
    x.time * nanosPerMilli ≤ start * nanosPerMilli + whole.quit.nanos ∧
    (u.milestone = .finished →
      x.time * nanosPerMilli ≤ start * nanosPerMilli + whole.cancel.nanos)

namespace Deletion

variable {κ : Type}

/-- Whether both phases are left behind. -/
def isPast (d : Deletion κ) : Bool :=
  match d.stage with
  | .tearing _ | .ended _ => true
  | _ => false

namespace Timed

/-- How the deletion keeps to the deadlines of its settings, counted from a start. -/
structure Punctual (config : Config) (start : Nat) (h : History) (t : Timed κ) : Prop where
  /-- No phase is under way after the hard deadline. -/
  inTime : t.deletion.isPast = false →
    t.now * nanosPerMilli ≤ start * nanosPerMilli + config.quitTimeout.nanos
  timely : ∀ x ∈ h, x.Timely config.budget start
  /-- The first phase has the whole budget. -/
  components : ∀ spaces since s, t.deletion.stage = .components spaces since s →
    s.startedAt = start ∧ s.budget = config.budget
  /-- If the first phase ends without an error, what is left continues its budget. -/
  completed : ∀ spaces since s es s', t.deletion.stage = .components spaces since s →
    s.look t.glance = some (es, s') → s'.result? = some (.ok ()) →
    config.budget.Continues start t.now (t.deletion.rebalance t.glance since).1
      (t.deletion.rebalance t.glance since).2
  /-- The second phase has what was left, and its timers go off at the deadlines of the
  whole budget. -/
  prerequisites : ∀ spaces s, t.deletion.stage = .prerequisites spaces s →
    (∃ elapsed, ⟨s.startedAt, none, .note (.rebalanced elapsed s.budget)⟩ ∈ h ∧
      config.budget.Continues start s.startedAt elapsed s.budget) ∧
    s.cancelTick * nanosPerMilli = start * nanosPerMilli + config.cancelTimeout.nanos ∧
    s.quitTick * nanosPerMilli = start * nanosPerMilli + config.quitTimeout.nanos

variable {config : Config} {start cancel quit now : Nat} {h k : History} {t : Timed κ}
  {g : Glance} {s s' : Supervision} {es : List Event} {d : Deletion κ}

/-! ## What every move preserves -/

/-- How the timers stand at each stage of a deletion. -/
inductive Standing (config : Config) (start cancel quit now : Nat) (h : History) :
    Stage κ → Prop
  | looking : now = start → Standing config start cancel quit now h .looking
  | components (spaces : List String) (s : Supervision) : s.startedAt = start →
      s.budget = config.budget → s.InTime (start + cancel) (start + quit) now →
      Standing config start cancel quit now h
        (.components spaces (start * nanosPerMilli) s)
  | prerequisites (spaces : List String) (s : Supervision) (elapsed : Duration) :
      ⟨s.startedAt, none, .note (.rebalanced elapsed s.budget)⟩ ∈ h →
      config.budget.Continues start s.startedAt elapsed s.budget →
      s.InTime (start + cancel) (start + quit) now →
      Standing config start cancel quit now h (.prerequisites spaces s)
  | tearing (t : Teardown κ) : Standing config start cancel quit now h (.tearing t)
  | ended (r : Except DeletionError Unit) : Standing config start cancel quit now h (.ended r)

/-- What every move preserves. -/
structure Kept (config : Config) (start cancel quit : Nat) (h : History) (t : Timed κ) :
    Prop where
  settings : t.deletion.config = config
  start_le : start ≤ t.now
  timely : ∀ x ∈ h, x.Timely config.budget start
  standing : Standing config start cancel quit t.now h t.deletion.stage

/-- What happens between the start and the hard deadline is timely, if no phase goes well
after the soft deadline. -/
theorem timely_entries (hf : config.budget.Fits start cancel quit) (hstart : start ≤ now)
    (hnow : now ≤ start + quit)
    (hgood : ∀ u, .update u ∈ es → u.milestone = .finished → now ≤ start + cancel) :
    ∀ x ∈ es.map (⟨now, none, ·⟩ : Event → Entry), x.Timely config.budget start := by
  intro x hx u hu
  obtain ⟨e, he, rfl⟩ := List.mem_map.mp hx
  cases hu
  refine ⟨hstart, ?_, fun hm => ?_⟩
  · rw [hf.quit_eq, ← Nat.add_mul]
    exact Nat.mul_le_mul_right _ hnow
  · rw [hf.cancel_eq, ← Nat.add_mul]
    exact Nat.mul_le_mul_right _ (hgood u he hm)

/-- What is told to nobody is timely. -/
theorem timely_silent (hes : ∀ e ∈ es, e.isSilent) (whole : Budget) :
    ∀ x ∈ es.map (⟨now, none, ·⟩ : Event → Entry), x.Timely whole start := by
  intro x hx u hu
  obtain ⟨e, he, rfl⟩ := List.mem_map.mp hx
  cases hu
  cases hes _ he

/-- What happens when the timers are looked at is timely. -/
theorem timely_look (hf : config.budget.Fits start cancel quit) (hstart : start ≤ g.now)
    (hs : s.InTime (start + cancel) (start + quit) g.now) (hl : s.look g = some (es, s')) :
    ∀ x ∈ es.map (⟨g.now, none, ·⟩ : Event → Entry), x.Timely config.budget start :=
  timely_entries hf hstart hs.now_le fun _ hu hm =>
    hs.le_of_ok hl (hs.result?_of_finished hl hu hm)

/-- The timers are set anew for what is left of the budget. -/
theorem inTime_begin (hf : config.budget.Fits start cancel quit) (hstart : start ≤ now)
    (hnow : now ≤ start + cancel) (phase : Phase) (engine : Nat) :
    (Supervision.start phase engine
      (config.budget.remaining (.ofNanos (now * nanosPerMilli - start * nanosPerMilli)))
        now).InTime (start + cancel) (start + quit) now :=
  Supervision.inTime_start hf (hf.continues hstart hnow) hnow phase engine

theorem Kept.append (hk : Kept config start cancel quit h t) (hd : d.config = config)
    (ht : ∀ x ∈ k, x.Timely config.budget start)
    (hs : Standing config start cancel quit t.now (h ++ k) d.stage) :
    Kept config start cancel quit (h ++ k) { t with deletion := d } :=
  ⟨hd, hk.start_le, fun x hx => (List.mem_append.mp hx).elim (hk.timely x) (ht x), hs⟩

/-- The first phase begins at the start. -/
theorem Kept.lookUp (hf : config.budget.Fits start cancel quit)
    (hk : Kept config start cancel quit h t) (hnow : t.now = start) :
    Kept config start cancel quit (h ++ (t.deletion.lookUp t.glance).1.map (⟨t.now, none, ·⟩))
      { t with deletion := (t.deletion.lookUp t.glance).2 } := by
  obtain rfl := hk.settings
  obtain rfl := hnow
  have hlooked : ∀ e ∈ t.deletion.lookedUp, e.isSilent := by
    intro e he
    rw [lookedUp] at he
    split at he
    · rw [List.mem_singleton.mp he]
      rfl
    · cases he
  rw [Deletion.lookUp]
  dsimp only
  cases t.deletion.metadata.answer with
  | error reason => exact hk.append rfl (timely_silent hlooked _) (.ended _)
  | ok found =>
      refine hk.append rfl (timely_entries hf (Nat.le_refl _) (by omega) fun u _ _ => by omega) ?_
      refine .components _ _ rfl rfl ?_
      exact Supervision.inTime_start hf (Budget.continues_start hf.nanos_lt _) (by omega) _ _

/-- Both phases are left behind. -/
theorem Kept.teardown (hk : Kept config start cancel quit h t) (hd : d.config = config)
    (ht : ∀ x ∈ k, x.Timely config.budget start) (tear : Teardown κ) :
    Kept config start cancel quit (h ++ k) { t with deletion := d.withTeardown tear } := by
  refine hk.append ?_ ht ?_
  · rw [withTeardown]
    split
    · exact hd
    · exact hd
    · exact hd
  · rw [withTeardown]
    split
    · exact .ended _
    · exact .ended _
    · exact .tearing _

/-! ## What follows at any time -/

/-- The timers of a supervision whose standing is known go off at the deadlines. -/
theorem ticks_of_inTime (hf : config.budget.Fits start cancel quit)
    (hs : s.InTime (start + cancel) (start + quit) now) :
    s.cancelTick * nanosPerMilli = start * nanosPerMilli + config.cancelTimeout.nanos ∧
      s.quitTick * nanosPerMilli = start * nanosPerMilli + config.quitTimeout.nanos := by
  have hcancel : config.cancelTimeout.nanos = cancel * nanosPerMilli := hf.cancel_eq
  have hquit : config.quitTimeout.nanos = quit * nanosPerMilli := hf.quit_eq
  rw [hs.cancelTick, hs.quitTick, hcancel, hquit, Nat.add_mul, Nat.add_mul]
  exact ⟨rfl, rfl⟩

theorem Kept.punctual (hf : config.budget.Fits start cancel quit)
    (hk : Kept config start cancel quit h t) : Punctual config start h t := by
  have hquit : config.quitTimeout.nanos = quit * nanosPerMilli := hf.quit_eq
  have hle : ∀ {now}, now ≤ start + quit →
      now * nanosPerMilli ≤ start * nanosPerMilli + config.quitTimeout.nanos := by
    intro now hnow
    rw [hquit, ← Nat.add_mul]
    exact Nat.mul_le_mul_right _ hnow
  have hstanding := hk.standing
  refine ⟨fun hpast => ?_, hk.timely, ?_, ?_, ?_⟩
  · rw [isPast] at hpast
    refine hle ?_
    generalize t.deletion.stage = stage at hstanding hpast
    cases hstanding with
    | looking hnow => omega
    | components spaces s _ _ hs => exact hs.now_le
    | prerequisites spaces s _ _ _ hs => exact hs.now_le
    | tearing => cases hpast
    | ended => cases hpast
  · intro spaces since s hstage
    rw [hstage] at hstanding
    cases hstanding with
    | components _ _ hstart hbudget => exact ⟨hstart, hbudget⟩
  · intro spaces since s es s' hstage hl hr
    rw [hstage] at hstanding
    cases hstanding with
    | components _ _ _ _ hs =>
        rw [rebalance, hk.settings]
        exact hf.continues hk.start_le (hs.le_of_ok hl hr)
  · intro spaces s hstage
    rw [hstage] at hstanding
    cases hstanding with
    | prerequisites _ _ elapsed hmem hcont hs =>
        exact ⟨⟨elapsed, hmem, hcont⟩, ticks_of_inTime hf hs⟩

/-! ## Moves -/

variable [Cluster κ]

/-- A look keeps the timers where they stand, and hands what is left over from the first
phase to the second. -/
theorem Kept.look (hf : config.budget.Fits start cancel quit)
    (hk : Kept config start cancel quit h t) (hm : t.deletion.step? t.glance = some (es, d)) :
    Kept config start cancel quit (h ++ es.map (⟨t.now, none, ·⟩)) { t with deletion := d } := by
  obtain ⟨⟨config', metadata, cluster, stage⟩, now, answer, head⟩ := t
  obtain rfl := hk.settings
  cases hk.standing with
  | looking hnow =>
      have hnext := hk.lookUp hf hnow
      rw [step?, Option.some.injEq] at hm
      rw [hm] at hnext
      exact hnext
  | components spaces s hstart hbudget hs =>
      cases phased_components rfl hm with
      | onward es s' hl hr =>
          obtain ⟨hstart', hbudget'⟩ := Supervision.timers_look hl hs.outcome?
          exact hk.append rfl (timely_look hf hk.start_le hs hl)
            (.components spaces s' (hstart'.trans hstart) (hbudget'.trans hbudget) (hs.look hl hr))
      | failed es s' e hl hr => exact hk.append rfl (timely_look hf hk.start_le hs hl) (.ended _)
      | completed es s' hl hr =>
          have hnow := hs.le_of_ok hl hr
          refine hk.append rfl (timely_entries hf hk.start_le hs.now_le fun _ _ _ => hnow) ?_
          refine .prerequisites spaces _ _ ?_ (hf.continues hk.start_le hnow)
            (inTime_begin hf hk.start_le hnow _ _)
          refine List.mem_append_right _ (List.mem_map.mpr ⟨_, List.mem_append_right _ ?_, rfl⟩)
          exact List.mem_cons_self ..
  | prerequisites spaces s elapsed hmem hcont hs =>
      cases phased_prerequisites rfl hm with
      | onward es s' hl hr =>
          obtain ⟨hstart', hbudget'⟩ := Supervision.timers_look hl hs.outcome?
          refine hk.append rfl (timely_look hf hk.start_le hs hl)
            (.prerequisites spaces s' elapsed ?_ ?_ (hs.look hl hr))
          · rw [hstart', hbudget']
            exact List.mem_append_left _ hmem
          · rw [hstart', hbudget']
            exact hcont
      | failed es s' e hl hr => exact hk.append rfl (timely_look hf hk.start_le hs hl) (.ended _)
      | completed es s' hl hr =>
          exact hk.teardown rfl
            (timely_entries hf hk.start_le hs.now_le fun _ _ _ => hs.le_of_ok hl hr)
            (.start config'.retry config'.systemNamespace stuckTargets spaces cluster)
  | tearing tear =>
      have hmove : Deletion.move? (.look ⟨now, _, answer, head⟩)
          ⟨config', metadata, cluster, .tearing tear⟩ = some (es, d) := hm
      obtain ⟨m', tear', hm', rfl⟩ := move?_of_tearing rfl hmove
      refine hk.teardown rfl (timely_silent (fun e he => ?_) _) _
      exact Event.isSilent_of_isOfTeardown (Teardown.isOfTeardown_of_move? hm' he)
  | ended r => cases hm

theorem Kept.errand (hk : Kept config start cancel quit h t) {i : Nat}
    (hm : t.deletion.errand? i = some (es, d)) :
    Kept config start cancel quit (h ++ es.map (⟨t.now, none, ·⟩)) { t with deletion := d } := by
  rw [errand?] at hm
  split at hm
  · rename_i tear hstage
    have hmove : t.deletion.move? (.errand i) = some (es, d) := by
      rw [Deletion.move?, errand?, hstage]
      exact hm
    obtain ⟨m', tear', hm', rfl⟩ := move?_of_tearing hstage hmove
    refine hk.teardown hk.settings (timely_silent (fun e he => ?_) _) _
    exact Event.isSilent_of_isOfTeardown (Teardown.isOfTeardown_of_move? hm' he)
  · cases hm

/-- Nobody waits past a timer. -/
theorem Kept.wait (hk : Kept config start cancel quit h t)
    (hidle : t.deletion.step? t.glance = none) (ms : Nat) :
    Kept config start cancel quit h { t with now := t.waitEnd ms } := by
  have hle : t.now ≤ t.waitEnd ms := by
    rw [waitEnd]
    split
    · omega
    · omega
  refine ⟨hk.settings, Nat.le_trans hk.start_le hle, hk.timely, ?_⟩
  obtain ⟨⟨config', metadata, cluster, stage⟩, now, answer, head⟩ := t
  have hwait : ∀ {s : Supervision}, s.InTime (start + cancel) (start + quit) now →
      ∀ {a}, s.alarm? = some a →
        s.InTime (start + cancel) (start + quit) (min (now + ms) (max now a)) := by
    intro s hs a ha
    exact hs.wait ha (Nat.min_le_right ..)
  cases hk.standing with
  | looking => cases hidle
  | components spaces s hstart hbudget hs =>
      refine .components spaces s hstart hbudget ?_
      simp only [waitEnd, Deletion.alarm?, hs.alarm?_eq]
      exact hwait hs hs.alarm?_eq
  | prerequisites spaces s elapsed hmem hcont hs =>
      refine .prerequisites spaces s elapsed hmem hcont ?_
      simp only [waitEnd, Deletion.alarm?, hs.alarm?_eq]
      exact hwait hs hs.alarm?_eq
  | tearing tear => exact .tearing tear
  | ended r => exact .ended r

theorem Kept.move? (hf : config.budget.Fits start cancel quit)
    (hk : Kept config start cancel quit h t) {m : Move} {t' : Timed κ}
    (hm : t.move? m = some (k, t')) : Kept config start cancel quit (h ++ k) t' := by
  cases m with
  | shown answer head =>
      cases hm
      rw [List.append_nil]
      exact ⟨hk.settings, hk.start_le, hk.timely, hk.standing⟩
  | look =>
      obtain ⟨⟨es, d⟩, hs, heq⟩ := Option.map_eq_some_iff.mp hm
      cases heq
      exact hk.look hf hs
  | errand i =>
      obtain ⟨⟨es, d⟩, hs, heq⟩ := Option.map_eq_some_iff.mp hm
      cases heq
      exact hk.errand hs
  | wait ms =>
      rw [Timed.move?] at hm
      split at hm
      · cases hm
      · rename_i hidle
        cases hm
        rw [List.append_nil]
        exact hk.wait (Option.not_isSome_iff_eq_none.mp hidle) ms

theorem kept_after (hf : config.budget.Fits start cancel quit) (metadata : Metadata)
    (cluster : κ) (ms : List Move) :
    Kept config start cancel quit (after { config, metadata, cluster } start ms).1
      (after { config, metadata, cluster } start ms).2 := by
  refine play_induction (P := fun j : History × Timed κ => Kept config start cancel quit j.1 j.2)
    ?_ ⟨rfl, Nat.le_refl _, (fun _ hx => absurd hx List.not_mem_nil), .looking rfl⟩ ms
  intro m j k hj hm
  obtain ⟨es, hm, hes⟩ := recorded_eq_some_iff.mp hm
  rw [hes]
  exact hj.move? hf hm

/-- In the usual course of a deletion nobody is told anything too late either. -/
theorem timely_conduct {site : Site} (hf : config.budget.Fits site.now cancel quit)
    (hclock : site.clock = none) (hhistory : site.history = []) (metadata : Metadata)
    (cluster : κ) :
    ∀ x ∈ (Deletion.conduct { config, metadata, cluster } site).site.history.ofDirector,
      x.Timely config.budget site.now := by
  obtain ⟨ms, hmatches⟩ := matches_conduct (d := { config, metadata, cluster }) rfl site hclock
  rw [hmatches.history, hhistory]
  exact (kept_after hf metadata cluster ms).timely

end Timed

end Deletion

end Decommission
