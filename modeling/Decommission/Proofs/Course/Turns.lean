import Decommission.Proofs.Course.Free

/-!
# Turns of a course

Who moves at a turn.  `Course.turn_cases` lists what a turn can be.  For a director
without helpers each kind of turn has an equation, and the three exclude each other
(`Course.turn?_eq_direct`, `Course.turn?_eq_workOff`, `Course.turn?_eq_elapse`).
-/

namespace Decommission

namespace History

theorem updates_append (h k : History) : updates (h ++ k) = h.updates ++ k.updates :=
  List.filterMap_append

/-- The updates among events that happen at one time. -/
theorem updates_entries (now : Nat) (engine : Option Nat) (es : List Event) :
    updates (es.map (⟨now, engine, ·⟩)) = (updatesIn es).map (now, ·) := by
  rw [updates, List.filterMap_map, updatesIn, List.map_filterMap]
  refine congrArg (List.filterMap · es) (funext fun e => ?_)
  cases e with
  | _ => rfl

end History

namespace Site

variable {s s' : Site}

theorem updates_performAll {es : List Event} (h : ∀ e ∈ es, e.isAnswer = false) :
    (s.performAll es).history.updates = s.history.updates ++ (updatesIn es).map (s.now, ·) := by
  rw [history_performAll h, History.updates_append, History.updates_entries]

/-- What the runs do takes no time and is nothing the director lets happen. -/
theorem frame_work? (h : s.work? = some s') : s'.engines = s.engines ∧ s'.now = s.now ∧
    s'.clock = s.clock ∧ s'.history.ofDirector = s.history.ofDirector := by
  rw [work?] at h
  split at h
  · cases h
    refine ⟨rfl, rfl, rfl, ?_⟩
    show History.ofDirector (s.history ++ _) = _
    rw [ofDirector_append, ofDirector_ofEngine, List.append_nil]
  · cases h

theorem frame_workUpTo (n : Nat) (s : Site) : (s.workUpTo n).engines = s.engines ∧
    (s.workUpTo n).now = s.now ∧ (s.workUpTo n).clock = s.clock ∧
    (s.workUpTo n).history.ofDirector = s.history.ofDirector := by
  induction n generalizing s with
  | zero => exact ⟨rfl, rfl, rfl, rfl⟩
  | succ n ih =>
      rw [workUpTo]
      split
      · rename_i s₁ h
        obtain ⟨hengines, hnow, hclock, hhistory⟩ := frame_work? h
        obtain ⟨hengines', hnow', hclock', hhistory'⟩ := ih s₁
        exact ⟨hengines'.trans hengines, hnow'.trans hnow, hclock'.trans hclock,
          hhistory'.trans hhistory⟩
      · exact ⟨rfl, rfl, rfl, rfl⟩

end Site

namespace Course

variable {σ : Type} [Director σ] {c c' : Course σ}

/-- The director does nothing if it has nothing to do but wait. -/
theorem direct?_eq_none_iff :
    c.direct? = none ↔ Director.step? c.site.glance c.director = none := by
  constructor
  · intro h
    cases hs : Director.step? c.site.glance c.director with
    | none => rfl
    | some l => exact nomatch h.symm.trans (direct?_eq_some_iff.mpr ⟨l.1, l.2, hs, rfl⟩)
  · intro h
    rw [direct?, h]
    rfl

theorem elapse?_eq_some_iff : c.elapse? = some c' ↔
    ∃ alarm, c.alarm? = some alarm ∧ c.site.now < alarm ∧
      c' = { c with site := { c.site with now := alarm } } := by
  rw [elapse?]
  constructor
  · intro h
    obtain ⟨alarm, ha, h⟩ := Option.bind_eq_some_iff.mp h
    split at h
    · cases h
      exact ⟨alarm, ha, ‹_›, rfl⟩
    · cases h
  · rintro ⟨alarm, ha, hlt, rfl⟩
    rw [ha]
    exact if_pos hlt

/-- What a turn can be.  Nobody else moves as long as the director does. -/
inductive Turned (c c' : Course σ) : Prop
  | directed (h : c.direct? = some c')
  | worked (hd : c.direct? = none) (h : c' = { c with site := c.site.workOff })
  /-- The helpers go on after the runs. -/
  | joined (hd : c.direct? = none) (h : assist? { c with site := c.site.workOff } = some c')
  | assisted (hd : c.direct? = none) (h : c.assist? = some c')
  | elapsed (hd : c.direct? = none) (h : c.elapse? = some c')

theorem turn_cases (h : c.turn? = some c') : Turned c c' := by
  rw [turn?] at h
  split at h
  · cases h
  · cases hd : c.direct? with
    | some c₁ =>
        rw [hd] at h
        cases h
        exact .directed hd
    | none =>
        rcases of_orElse_eq_some h with hs | h
        · rw [hd] at hs
          cases hs
        · split at h
          · rename_i c₁ hw
            rw [workOff?] at hw
            split at hw
            · cases hw
              cases hs : assist? { c with site := c.site.workOff } with
              | none =>
                  rw [hs] at h
                  exact .worked hd (Option.some.inj h).symm
              | some c₂ =>
                  rw [hs, Option.getD_some] at h
                  exact .joined hd (hs.trans h)
            · cases hw
          · rcases of_orElse_eq_some h with hs | he
            · exact .assisted hd hs
            · exact .elapsed hd he

/-- If every turn brings a course nearer to its end, it comes to its end after enough of
them.  What every turn preserves holds there. -/
theorem runUpTo_of_descent {P : Course σ → Prop} {μ : Course σ → Nat}
    (step : ∀ c c', P c → c.turn? = some c' → P c' ∧ μ c' < μ c) {n : Nat} (hc : P c)
    (hn : μ c ≤ n) : P (c.runUpTo n) ∧ (c.runUpTo n).turn? = none := by
  induction n generalizing c with
  | zero =>
      refine ⟨hc, ?_⟩
      cases ht : c.turn? with
      | none => exact ht
      | some c' =>
          have hlt := (step c c' hc ht).2
          omega
  | succ n ih =>
      rw [runUpTo_succ]
      cases ht : c.turn? with
      | none => exact ⟨hc, ht⟩
      | some c' =>
          obtain ⟨hc', hlt⟩ := step c c' hc ht
          exact ih hc' (by omega)

/-- If moreover the bound allows for that, the course comes to its end. -/
theorem run_of_descent {P : Course σ → Prop} {μ : Course σ → Nat}
    (step : ∀ c c', P c → c.turn? = some c' → P c' ∧ μ c' < μ c) (hc : P c)
    (hbound : μ c ≤ c.bound) : P c.run ∧ c.run.turn? = none :=
  runUpTo_of_descent step hc hbound

/-! ## Directors without helpers -/

theorem turn?_eq_direct (ho : Director.isOver c.director = false)
    (hd : c.direct? = some c') : c.turn? = some c' := by
  rw [turn?, ho, hd]
  rfl

theorem turn?_eq_workOff (ho : Director.isOver c.director = false) (hd : c.direct? = none)
    (ha : Director.assist? c.director = none) (hw : c.site.work?.isSome) :
    c.turn? = some { c with site := c.site.workOff } := by
  have hassist : assist? { c with site := c.site.workOff } = none := by
    rw [assist?, ha]
    rfl
  rw [turn?, ho, hd, workOff?, if_pos hw]
  dsimp only
  rw [hassist]
  rfl

theorem turn?_eq_elapse (ho : Director.isOver c.director = false) (hd : c.direct? = none)
    (ha : Director.assist? c.director = none) (hw : c.site.work? = none) :
    c.turn? = c.elapse? := by
  have hassist : c.assist? = none := by
    rw [assist?, ha]
    rfl
  rw [turn?, ho, hd, workOff?, hw, hassist]
  rfl

end Course

end Decommission
