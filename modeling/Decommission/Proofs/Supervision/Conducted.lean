import Decommission.Proofs.Play
import Decommission.Proofs.Supervision.Lifecycle

/-!
# Supervisions under any glances

`Supervision.Conducted` says that a supervision has come from its beginning by
looks, whatever was to be seen at each of them.  Its events are accounted for by
the reports it took.
-/

namespace Decommission

namespace Supervision

/-- What has happened in a supervision that has come from its beginning by looks. -/
def Conducted (phase : Phase) (engine : Nat) (budget : Budget) (es : List Event)
    (s : Supervision) : Prop :=
  ∃ now gs, play (recorded look)
    ((start phase engine budget now).opening, start phase engine budget now) gs = (es, s)

variable {phase : Phase} {engine : Nat} {budget : Budget} {es es' : List Event}
  {s s' : Supervision} {g : Glance}

theorem conducted_start (phase : Phase) (engine : Nat) (budget : Budget) (now : Nat) :
    Conducted phase engine budget (start phase engine budget now).opening
      (start phase engine budget now) := ⟨now, [], rfl⟩

theorem Conducted.look (h : Conducted phase engine budget es s)
    (hl : s.look g = some (es', s')) : Conducted phase engine budget (es ++ es') s' := by
  obtain ⟨now, gs, hgs⟩ := h
  refine ⟨now, gs ++ [g], play_concat ?_⟩
  rw [hgs]
  exact recorded_eq_some_iff.mpr ⟨es', hl, rfl⟩

/-- What holds at the beginning and is preserved by every look holds of a
supervision that has come from its beginning by looks. -/
theorem Conducted.induction {P : List Event → Supervision → Prop}
    (h : Conducted phase engine budget es s)
    (opening : ∀ now, P (start phase engine budget now).opening (start phase engine budget now))
    (look : ∀ g es s es' s', P es s → s.look g = some (es', s') → P (es ++ es') s') : P es s := by
  obtain ⟨now, gs, hgs⟩ := h
  have hp : P (play (recorded Supervision.look)
        ((start phase engine budget now).opening, start phase engine budget now) gs).1
      (play (recorded Supervision.look)
        ((start phase engine budget now).opening, start phase engine budget now) gs).2 := by
    refine play_induction (P := fun j : List Event × Supervision => P j.1 j.2) ?_
      (opening now) gs
    intro g j k hj hk
    obtain ⟨es', hl, hes⟩ := recorded_eq_some_iff.mp hk
    rw [hes]
    exact look g j.1 j.2 es' k.2 hj hl
  rw [hgs] at hp
  exact hp

/-- The events of a supervision are accounted for by the reports it took. -/
theorem Conducted.accounted (h : Conducted phase engine budget es s) :
    s.phase = phase ∧ ∃ taken, s.Underway taken es ∨
      ∃ r, s.result? = some r ∧ Lifecycle phase taken es r := by
  refine h.induction (P := fun es s => s.phase = phase ∧ ∃ taken, s.Underway taken es ∨
    ∃ r, s.result? = some r ∧ Lifecycle phase taken es r) ?_ ?_
  · exact fun now => ⟨rfl, [], Or.inl (underway_start phase engine budget now)⟩
  · rintro g es s es' s' ⟨hphase, taken, hu | ⟨r, hr, _⟩⟩ hl
    · refine ⟨(frame_look hl hu.outcome?).1.trans hphase, taken ++ s.received g, ?_⟩
      rw [← hphase]
      exact hu.look hl
    · rw [result?_of_look hl] at hr
      cases hr

theorem Conducted.lifecycle (h : Conducted phase engine budget es s)
    {r : Except PhaseError Unit} (hr : s.result? = some r) :
    ∃ taken, Lifecycle phase taken es r := by
  obtain ⟨_, taken, hu | ⟨r', hr', hlife⟩⟩ := h.accounted
  · rw [hu.result?] at hr
    cases hr
  · rw [hr', Option.some.injEq] at hr
    rw [hr] at hlife
    exact ⟨taken, hlife⟩

theorem Conducted.underway (h : Conducted phase engine budget es s) (hr : s.result? = none) :
    s.phase = phase ∧ ∃ taken, s.Underway taken es := by
  obtain ⟨hphase, taken, hu | ⟨r', hr', _⟩⟩ := h.accounted
  · exact ⟨hphase, taken, hu⟩
  · rw [hr'] at hr
    cases hr

/-! ## Engines and clusters -/

theorem isOfSupervision_of_closing (s : Supervision) (now : Nat) (o : Outcome) {e : Event}
    (he : e ∈ s.closing now o) : e.isOfSupervision := by
  rw [closing] at he
  rcases List.mem_append.mp he with hm | hm
  · rcases List.mem_cons.mp hm with rfl | hm
    · rfl
    · obtain ⟨n, _, rfl⟩ := List.mem_map.mp hm
      rfl
  · rw [List.mem_singleton.mp hm]
    rfl

/-- A look starts no engine, calls no cluster and removes nothing. -/
theorem isOfSupervision_of_look (hu : s.run.outcome? = none) (hl : s.look g = some (es, s'))
    {e : Event} (he : e ∈ es) : e.isOfSupervision := by
  have hpair : ∀ a b : Event, a.isOfSupervision → b.isOfSupervision →
      e ∈ [a, b] → e.isOfSupervision := by
    intro a b ha hb hm
    rcases List.mem_cons.mp hm with rfl | hm
    · exact ha
    · rw [List.mem_singleton.mp hm]
      exact hb
  cases look_cases hl with
  | answered =>
      rw [List.mem_singleton.mp he]
      rfl
  | refused e' =>
      rw [refuse] at he
      simp only [List.mem_cons, List.not_mem_nil, or_false] at he
      rcases he with rfl | rfl | rfl | rfl <;> rfl
  | reported r =>
      rw [apply_report hu] at he
      rcases List.mem_cons.mp he with rfl | hm
      · rfl
      · exact hpair _ _ rfl rfl hm
  | closed =>
      rw [apply_closed hu] at he
      exact isOfSupervision_of_closing _ _ _ he
  | quit =>
      rw [apply_quitTimeout hu] at he
      rcases List.mem_append.mp he with hm | hm
      · rw [lateCancel] at hm
        split at hm
        · exact hpair _ _ rfl rfl hm
        · cases hm
      · exact isOfSupervision_of_closing _ _ _ hm
  | cancel _ _ hr =>
      rw [apply_cancelTimeout hr] at he
      exact hpair _ _ rfl rfl he

/-- A supervision starts its engine, right after the announcement, and does not
reach out afterwards. -/
theorem Conducted.reachesOut (h : Conducted phase engine budget es s) :
    ∃ rest, es = .update (.starting phase) :: .note (.phaseStarted phase budget) ::
      .launched engine :: rest ∧ ∀ e ∈ rest, e.reachesOut = false := by
  refine (h.induction (P := fun es s => (s.run.outcome? = none ∨ s.result?.isSome) ∧
    ∃ rest, es = .update (.starting phase) :: .note (.phaseStarted phase budget) ::
      .launched engine :: rest ∧ ∀ e ∈ rest, e.reachesOut = false) ?_ ?_).2
  · intro now
    exact ⟨Or.inl rfl, [], rfl, fun e he => nomatch he⟩
  · rintro g es s es' s' ⟨hlive, rest, rfl, hrest⟩ hl
    rw [result?_of_look hl] at hlive
    have hu : s.run.outcome? = none := hlive.elim id fun h => nomatch h
    refine ⟨?_, rest ++ es', rfl, ?_⟩
    · cases look_cases hl with
      | answered => exact Or.inl hu
      | refused => exact Or.inr rfl
      | reported => rw [apply_report hu]; exact Or.inl hu
      | closed => rw [apply_closed hu]; exact Or.inr rfl
      | quit => rw [apply_quitTimeout hu]; exact Or.inr rfl
      | cancel _ _ hr => rw [apply_cancelTimeout hr]; exact Or.inl rfl
    · intro e he
      exact (List.mem_append.mp he).elim (hrest e) fun hm =>
        Event.reachesOut_of_isOfSupervision (isOfSupervision_of_look hu hl hm)

theorem Conducted.callsIn (h : Conducted phase engine budget es s) : callsIn es = [] := by
  obtain ⟨rest, rfl, hrest⟩ := h.reachesOut
  show Decommission.callsIn rest = []
  exact callsIn_of_not_reachesOut hrest

theorem Conducted.launched (h : Conducted phase engine budget es s) {i : Nat}
    (hi : .launched i ∈ es) : i = engine := by
  obtain ⟨rest, rfl, hrest⟩ := h.reachesOut
  simp only [List.mem_cons, reduceCtorEq, Event.launched.injEq, false_or] at hi
  rcases hi with hi | hi
  · exact hi
  · cases hrest _ hi

end Supervision

end Decommission
