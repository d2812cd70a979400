import Decommission.Config
import Decommission.Proofs.Pool.Schedule
import Decommission.Proofs.Supervision.Meaning
import Decommission.Supervision

/-!
# What a closed stream says

A phase run that finds the stream of its engine closed and has seen no failure takes
the phase for finished.  A pool whose dispatcher cannot count its workers, or a task of
which has died, closes its stream just like a pool that has done its work.

`Shift.closing_play` says what a closed stream is worth as long as the signal is not
fired: every component has been reported only if the workers could be counted and
nobody died, and a finished phase removed every component only under the same
conditions.  Settings that pass their check may have more workers than can be counted
(`Shift.finished_uncounted`).
-/

namespace Decommission

namespace Pool

namespace Shift

variable {workers : Nat} {cs : List Component} {log : List Action} {s : Shift}

/-- How a phase run ends that takes all that was sent, and then finds the stream
closed. -/
def closingState (phase : Phase) (s : Stream) : RunState :=
  (PhaseRun.handleAll { phase } (s.sent.map .report ++ [.closed])).1.state

/-- What the closed stream of a pool that removes certain components says. -/
structure Closing (workers : Nat) (cs : List Component) (log : List Action) (s : Shift) :
    Prop where
  /-- Every component has been reported just if the workers could be counted, or there
  was nothing to remove, and nobody died. -/
  reported : (∀ (i : Nat) (c : Component), cs[i]? = some c →
      ∃ v, s.pool.tasks[i]? = some (⟨c, .reported v⟩ : Task)) ↔
    (workers ≤ slotLimit ∨ cs = []) ∧ ∀ a ∈ log, ¬ a.isDeath
  /-- For a phase run the phase is finished just if no task has reported a failure. -/
  finished : s.pool.stream.listening → ∀ phase,
    closingState phase s.pool.stream = .ended .finished ↔
      ∀ t ∈ s.pool.tasks, ∀ e, t.stage ≠ .reported (some e)
  /-- Every component was removed just if the phase is finished and, besides, the workers
  could be counted, or there was nothing to remove, and nobody died. -/
  removed : s.pool.stream.listening → ∀ phase,
    (∀ (i : Nat) (c : Component), cs[i]? = some c →
        s.pool.tasks[i]? = some (⟨c, .reported none⟩ : Task)) ↔
      closingState phase s.pool.stream = .ended .finished ∧
        (workers ≤ slotLimit ∨ cs = []) ∧ ∀ a ∈ log, ¬ a.isDeath

/-! ## Dying -/

/-- A task that died is dead. -/
theorem Kept.exists_dead (h : Kept workers cs log s) {a : Action} (ha : a ∈ log)
    (hdeath : a.isDeath) : ∃ (i : Nat) (c : Component), s.pool.tasks[i]? = some ⟨c, .dead⟩ := by
  cases a with
  | die i =>
      have hmem : Action.die i ∈ log.filter (Action.isOf i) :=
        List.mem_filter.mpr ⟨ha, beq_self_eq_true i⟩
      have hdid := h.did i
      refine ⟨i, ?_⟩
      generalize log.filter (Action.isOf i) = as at hdid hmem
      generalize s.pool.tasks[i]? = t at hdid ⊢
      cases hdid with
      | diedReady c => exact ⟨c, rfl⟩
      | diedCalling c => exact ⟨c, rfl⟩
      | _ => simp at hmem
  | _ => cases hdeath

/-- Unless somebody dies, a pool that can count its workers keeps its books. -/
theorem died_or_books (hw : workers ≤ slotLimit) (cs : List Component) {ms : List Move}
    (hms : .fire ∉ ms) :
    (∃ a ∈ (after workers cs ms).1, a.isDeath) ∨
      (after workers cs ms).2.pool.Books cs false := by
  refine (play_induction_mem (P := fun j : List Action × Shift => j.2.fired = false ∧
    ((∃ a ∈ j.1, a.isDeath) ∨ j.2.pool.Books cs false)) ?_ ⟨rfl, .inr (books_start hw cs false)⟩).2
  rintro m hm j k ⟨hfired, hj⟩ hk
  obtain ⟨as, hk, hlog⟩ := recorded_eq_some_iff.mp hk
  have hsame : k.2.fired = j.2.fired := by
    cases m with
    | act a =>
        obtain ⟨p, _, heq⟩ := Option.map_eq_some_iff.mp hk
        rw [← (Prod.mk.inj heq).2]
    | fire => exact absurd hm hms
    | receive | hangUp =>
        rw [← (Prod.mk.inj (Option.some.inj hk)).2]
        rfl
  refine ⟨hsame.trans hfired, ?_⟩
  rcases hj with ⟨a, ha, hdeath⟩ | hbooks
  · exact .inl ⟨a, hlog ▸ List.mem_append_left _ ha, hdeath⟩
  · by_cases hdeath : m.isDeath
    · cases m with
      | act a =>
          obtain ⟨p, _, heq⟩ := Option.map_eq_some_iff.mp hk
          refine .inl ⟨a, ?_, hdeath⟩
          rw [hlog, ← (Prod.mk.inj heq).1]
          exact List.mem_append_right _ (List.mem_singleton_self a)
      | _ => cases hdeath
    · have hnext := books_move? (hfired ▸ hbooks) hk hdeath
      rw [hsame, hfired] at hnext
      exact .inr hnext

/-- With more workers than can be counted nothing is handed out. -/
theorem tasks_of_uncounted (hw : slotLimit < workers) (cs : List Component) (ms : List Move) :
    (after workers cs ms).2.pool.tasks = [] := by
  refine (play_induction (P := fun j : List Action × Shift =>
    slotLimit < j.2.pool.workers ∧ j.2.pool.tasks = []) ?_ ⟨hw, rfl⟩ ms).2
  rintro m j k ⟨hw, hj⟩ hk
  obtain ⟨as, hk, _⟩ := recorded_eq_some_iff.mp hk
  cases m with
  | act a =>
      obtain ⟨p, hp, heq⟩ := Option.map_eq_some_iff.mp hk
      rw [← (Prod.mk.inj heq).2]
      refine ⟨(frame_step hp).1.symm ▸ hw, ?_⟩
      have hnone : ∀ {before after : List Task} {t : Task},
          j.2.pool.tasks ≠ before ++ t :: after := by
        intro before after t ht
        rw [hj] at ht
        simp at ht
      cases step_cases hp with
      | collapse | heed | exhaust | close => exact hj
      | dispatch c rest hd hcount => omega
      | call _ _ _ _ ht | conclude _ _ _ _ _ ht | report _ _ _ _ ht | die _ _ _ ht =>
          exact absurd ht hnone
  | fire | receive | hangUp =>
      rw [← (Prod.mk.inj (Option.some.inj hk)).2]
      exact ⟨hw, hj⟩

/-! ## Reading the stream to its end -/

theorem closingState_eq_finished_iff {phase : Phase} {st : Stream} :
    closingState phase st = .ended .finished ↔ st.sent.countP (·.status == .error) = 0 := by
  have hopen : ∀ i ∈ st.sent.map RunInput.report, i.isEnding = false := by
    intro i hi
    obtain ⟨c, _, rfl⟩ := List.mem_map.mp hi
    rfl
  have hlast : RunInput.isEnding .closed := rfl
  have hquit : RunInput.closed ≠ .quitTimeout := RunInput.noConfusion
  obtain ⟨r, hr, hall⟩ := PhaseRun.handleAll_ending phase hopen hlast
  have hfailures : PhaseRun.failuresIn (st.sent.map .report) = st.sent.countP (·.status == .error) := by
    rw [PhaseRun.failuresIn, List.filterMap_map]
    exact congrArg _ List.filterMap_some
  have hquiet : RunInput.cancelTimeout ∉ st.sent.map .report := by
    intro hm
    obtain ⟨c, _, hc⟩ := List.mem_map.mp hm
    cases hc
  rw [closingState, hall, hr, PhaseRun.outcomeOf, if_neg hquit, hfailures, if_neg hquiet]
  constructor
  · intro h
    split at h
    · cases h
    · omega
  · intro h
    rw [if_neg (by omega)]

theorem Kept.finished_iff (h : Kept workers cs log s) (hl : s.pool.stream.listening)
    (phase : Phase) :
    closingState phase s.pool.stream = .ended .finished ↔
      ∀ t ∈ s.pool.tasks, ∀ e, t.stage ≠ .reported (some e) := by
  rw [closingState_eq_finished_iff, (h.sent hl).countP_eq, List.countP_eq_zero]
  constructor
  · intro hgood t ht e he
    have hmem : Verdict.report t.component (some e) ∈ s.pool.tasks.filterMap Task.report? :=
      List.mem_filterMap.mpr ⟨t, ht, Task.report?_eq he⟩
    exact hgood _ hmem rfl
  · intro hgood r hr hbad
    obtain ⟨t, ht, hreport⟩ := List.mem_filterMap.mp hr
    obtain ⟨c, stage⟩ := t
    cases stage with
    | reported v =>
        rw [Task.report?_eq rfl] at hreport
        cases hreport
        cases v with
        | none => cases hbad
        | some e => exact hgood _ ht e rfl
    | _ => cases hreport

/-! ## Both together -/

theorem Kept.closing (h : Kept workers cs log s)
    (hreported : (∀ (i : Nat) (c : Component), cs[i]? = some c →
        ∃ v, s.pool.tasks[i]? = some (⟨c, .reported v⟩ : Task)) ↔
      (workers ≤ slotLimit ∨ cs = []) ∧ ∀ a ∈ log, ¬ a.isDeath) :
    Closing workers cs log s := by
  refine ⟨hreported, h.finished_iff, fun hl phase => ?_⟩
  rw [h.finished_iff hl, ← hreported]
  constructor
  · intro hgood
    refine ⟨fun t ht e he => ?_, fun i c hc => ⟨none, hgood i c hc⟩⟩
    obtain ⟨i, hi⟩ := List.mem_iff_getElem?.mp ht
    have hlt := (List.getElem?_eq_some_iff.mp hi).1
    have hc := hgood i _ (List.getElem?_eq_getElem (Nat.lt_of_lt_of_le hlt h.length_le))
    rw [hi] at hc
    cases hc
    cases he
  · rintro ⟨hgood, hall⟩ i c hc
    obtain ⟨v, hv⟩ := hall i c hc
    cases v with
    | none => exact hv
    | some e => exact absurd rfl (hgood _ (List.mem_of_getElem? hv) e)

/-- For all settings that pass their check, and as long as the signal is not fired: a
pool starts, and what its closed stream says depends on whether its workers could be
counted and on whether somebody died. -/
theorem closing_play (config : Config) (hconfig : config.validate = .ok ())
    (cs : List Component) (ms : List Move) (hms : .fire ∉ ms)
    (hc : (after config.workers cs ms).2.pool.isClosed) :
    (∀ u, (Job.pool config.workers cs u).begin = .ok (.pool u (.start config.workers cs))) ∧
      Closing config.workers cs (after config.workers cs ms).1
        (after config.workers cs ms).2 := by
  have hkept := kept_after config.workers cs ms
  refine ⟨fun u => ?_, hkept.closing ⟨fun hall => ⟨?_, fun a ha hdeath => ?_⟩, ?_⟩⟩
  · rw [Job.begin, if_neg (Nat.ne_of_gt (Config.validate_eq_ok_iff.mp hconfig).2.1)]
  · rcases Nat.lt_or_ge slotLimit config.workers with hw | hw
    · refine .inr (List.eq_nil_iff_forall_not_mem.mpr fun c hm => ?_)
      obtain ⟨i, hi⟩ := List.mem_iff_getElem?.mp hm
      obtain ⟨v, hv⟩ := hall i c hi
      rw [tasks_of_uncounted hw] at hv
      cases hv
    · exact .inl hw
  · obtain ⟨i, c, hi⟩ := hkept.exists_dead ha hdeath
    have hlt := (List.getElem?_eq_some_iff.mp hi).1
    obtain ⟨v, hv⟩ := hall i _ (List.getElem?_eq_getElem (Nat.lt_of_lt_of_le hlt hkept.length_le))
    rw [hi] at hv
    cases hv
  · rintro ⟨hw | rfl, hlive⟩ i c hi
    · rcases died_or_books hw cs hms with ⟨a, ha, hdeath⟩ | hbooks
      · exact absurd hdeath (hlive a ha)
      · obtain ⟨hcs, hall⟩ := hbooks.reported hc
        rw [← hcs, List.getElem?_map] at hi
        obtain ⟨⟨c', stage⟩, ht, rfl⟩ := Option.map_eq_some_iff.mp hi
        obtain ⟨v, rfl⟩ := hall _ (List.mem_of_getElem? ht)
        exact ⟨v, ht⟩
    · cases hi

/-- A task dies in its call.  The phase run takes no notice. -/
theorem closing_oneDeath :
    let cs : List Component := [⟨"a", "x"⟩]
    let ms : List Move :=
      [.act .dispatch, .act (.call 0 7), .act .exhaust, .act (.die 0), .act .close]
    let s := (after 4 cs ms).2
    s.pool.isClosed ∧ closingState .components s.pool.stream = .ended .finished ∧
      s.pool.tasks = [⟨⟨"a", "x"⟩, .dead⟩] ∧ Closing 4 cs (after 4 cs ms).1 s := by
  intro cs ms s
  have hc : s.pool.isClosed := by decide +kernel
  exact ⟨hc, by decide +kernel, by decide +kernel,
    (closing_play .standard rfl cs ms (by simp [ms]) hc).2⟩

/-- Settings with one worker more than can be counted. -/
def uncounted : Config :=
  { Config.standard with workers := slotLimit + 1, workers_lt := by decide }

/-- Settings may pass their check although their workers cannot be counted.  Then the
stream is closed without a report, and a supervised run ends without an error and
without the removal of anything. -/
theorem finished_uncounted :
    let cs : List Component := [⟨"a", "x"⟩]
    let s := (after uncounted.workers cs [.act .collapse]).2
    let site : Site := { engines := [{ job := .pool uncounted.workers cs (.nothing false) }] }
    let c := Supervision.conduct .components 0 uncounted.budget site
    uncounted.validate = .ok () ∧ s.fired = false ∧ s.pool.isClosed ∧ s.pool.tasks = [] ∧
      s.pool.stream.sent = [] ∧ c.director.result? = some (.ok ()) ∧
      ∀ x ∈ c.site.history, ¬ x.event.isRemoval := by
  intro cs s site c
  refine ⟨rfl, rfl, by decide +kernel, by decide +kernel, by decide +kernel, ?_, ?_⟩
  · unfold c site cs
    rfl
  · unfold c site cs
    decide +kernel

end Shift

end Pool

end Decommission
