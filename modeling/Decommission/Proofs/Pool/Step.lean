import Decommission.Engine.Pool

/-!
# What one action of a pool can do

`Pool.step_cases` lists the actions with their conditions.  An action of a task
replaces it in its place, so the list of tasks is given as what comes before and
after it.  A pool whose stream is closed does nothing any more.
-/

namespace Decommission

namespace Pool

/-- Whether the action is the death of a task. -/
def Action.isDeath : Action → Bool
  | die _ => true
  | _ => false

variable {fired : Bool} {p p' : Pool} {a : Action}

/-- A task that gets into another stage stays in its place. -/
theorem setStage_eq {i : Nat} {t : Task} (h : p.tasks[i]? = some t) (s : Stage) :
    ∃ before after, i = before.length ∧ p.tasks = before ++ t :: after ∧
      p.setStage i s = { p with tasks := before ++ ⟨t.component, s⟩ :: after } := by
  obtain ⟨hlt, ht⟩ := List.getElem?_eq_some_iff.mp h
  refine ⟨p.tasks.take i, p.tasks.drop (i + 1), ?_, ?_, ?_⟩
  · rw [List.length_take, Nat.min_eq_left (Nat.le_of_lt hlt)]
  · rw [← ht, List.getElem_cons_drop, List.take_append_drop]
  · rw [setStage, List.modify_eq_take_cons_drop hlt, ht]

/-- What an action can do. -/
inductive Acted (fired : Bool) (p : Pool) : Action → Pool → Prop
  | collapse (rest : List Component) : p.dispatcher = .dispatching rest →
      slotLimit < p.workers → Acted fired p .collapse { p with dispatcher := .dead }
  | dispatch (c : Component) (rest : List Component) :
      p.dispatcher = .dispatching (c :: rest) → p.workers ≤ slotLimit → fired = false →
      0 < p.free →
      Acted fired p .dispatch
        { p with dispatcher := .dispatching rest, tasks := p.tasks ++ [⟨c, .ready⟩] }
  | heed (c : Component) (rest : List Component) :
      p.dispatcher = .dispatching (c :: rest) → fired = true →
      Acted fired p .heed { p with dispatcher := .draining }
  | exhaust : p.dispatcher = .dispatching [] →
      Acted fired p .exhaust { p with dispatcher := .draining }
  | close : p.dispatcher = .draining → p.allOver →
      Acted fired p .close { p with dispatcher := .ended }
  | call (before after : List Task) (c : Component) (due : Nat) :
      p.tasks = before ++ ⟨c, .ready⟩ :: after →
      Acted fired p (.call before.length due)
        { p with tasks := before ++ ⟨c, .calling due⟩ :: after }
  | conclude (before after : List Task) (c : Component) (due : Nat) (v : Verdict) :
      p.tasks = before ++ ⟨c, .calling due⟩ :: after →
      Acted fired p (.conclude before.length v)
        { p with tasks := before ++ ⟨c, .returned v⟩ :: after }
  | report (before after : List Task) (c : Component) (v : Verdict) :
      p.tasks = before ++ ⟨c, .returned v⟩ :: after → p.stream.isReady →
      Acted fired p (.report before.length)
        { p with
          tasks := before ++ ⟨c, .reported v⟩ :: after
          stream := p.stream.send (v.report c) }
  | die (before after : List Task) (t : Task) : p.tasks = before ++ t :: after → t.holdsSlot →
      Acted fired p (.die before.length)
        { p with tasks := before ++ ⟨t.component, .dead⟩ :: after }

/-- An action does one of the things listed. -/
theorem step_cases (h : p.step fired a = some p') : Acted fired p a p' := by
  cases a with
  | collapse =>
      simp only [step] at h
      split at h
      · split at h
        · cases h
          exact .collapse _ ‹_› ‹_›
        · cases h
      · cases h
  | dispatch =>
      simp only [step] at h
      split at h
      · split at h
        · rename_i hc
          simp only [Bool.and_eq_true, decide_eq_true_eq, Bool.not_eq_true'] at hc
          cases h
          exact .dispatch _ _ ‹_› hc.1.1 hc.1.2 hc.2
        · cases h
      · cases h
  | heed =>
      simp only [step] at h
      split at h
      · split at h
        · rename_i hc
          cases h
          exact .heed _ _ ‹_› (Bool.and_eq_true_iff.mp hc).2
        · cases h
      · cases h
  | exhaust =>
      simp only [step] at h
      split at h
      · split at h
        · cases h
          exact .exhaust ‹_›
        · cases h
      · cases h
  | close =>
      simp only [step] at h
      split at h
      · split at h
        · cases h
          exact .close ‹_› ‹_›
        · cases h
      · cases h
  | call i due =>
      simp only [step] at h
      split at h
      · rename_i hs
        obtain ⟨⟨c, stage⟩, ht, rfl⟩ := Option.map_eq_some_iff.mp hs
        obtain ⟨before, after, rfl, hsplit, hset⟩ := setStage_eq ht (.calling due)
        cases h
        rw [hset]
        exact .call before after c due hsplit
      · cases h
  | conclude i v =>
      simp only [step] at h
      split at h
      · rename_i due hs
        obtain ⟨⟨c, stage⟩, ht, hst⟩ := Option.map_eq_some_iff.mp hs
        obtain ⟨before, after, rfl, hsplit, hset⟩ := setStage_eq ht (.returned v)
        cases h
        cases hst
        rw [hset]
        exact .conclude before after c due v hsplit
      · cases h
  | report i =>
      simp only [step] at h
      split at h
      · rename_i c v ht
        split at h
        · obtain ⟨before, after, rfl, hsplit, hset⟩ := setStage_eq ht (.reported v)
          cases h
          rw [hset]
          exact .report before after c v hsplit ‹_›
        · cases h
      · cases h
  | die i =>
      simp only [step] at h
      have hdie : ∀ t, p.tasks[i]? = some t → t.holdsSlot →
          Acted fired p (.die i) (p.setStage i .dead) := by
        intro t ht hslot
        obtain ⟨before, after, rfl, hsplit, hset⟩ := setStage_eq ht .dead
        rw [hset]
        exact .die before after t hsplit hslot
      split at h
      · rename_i hs
        obtain ⟨t, ht, hst⟩ := Option.map_eq_some_iff.mp hs
        cases h
        exact hdie t ht (by rw [Task.holdsSlot, hst])
      · rename_i due hs
        obtain ⟨t, ht, hst⟩ := Option.map_eq_some_iff.mp hs
        cases h
        exact hdie t ht (by rw [Task.holdsSlot, hst])
      · cases h

/-- A pool whose stream is closed does nothing any more. -/
theorem step_of_isClosed (h : p.isClosed) (a : Action) : p.step fired a = none := by
  rw [isClosed, Bool.and_eq_true, Bool.or_eq_true, beq_iff_eq, beq_iff_eq, allOver,
    List.all_eq_true] at h
  obtain ⟨hdisp, hover⟩ := h
  cases hs : p.step fired a with
  | none => rfl
  | some p' =>
      have hbusy : ∀ {rest}, p.dispatcher ≠ .dispatching rest := by
        intro rest hd
        rw [hd] at hdisp
        rcases hdisp with hd | hd <;> cases hd
      have htask : ∀ {before after : List Task} {t : Task}, p.tasks = before ++ t :: after →
          t.isOver := by
        intro before after t ht
        exact hover t (ht ▸ List.mem_append_right _ (List.mem_cons_self ..))
      cases step_cases hs with
      | collapse rest hd => exact absurd hd hbusy
      | dispatch c rest hd => exact absurd hd hbusy
      | heed c rest hd => exact absurd hd hbusy
      | exhaust hd => exact absurd hd hbusy
      | close hd =>
          rw [hd] at hdisp
          rcases hdisp with hd | hd <;> cases hd
      | call before after c due ht => cases htask ht
      | conclude before after c due v ht => cases htask ht
      | report before after c v ht => cases htask ht
      | die before after t ht hslot =>
          have hdone := htask ht
          obtain ⟨c, stage⟩ := t
          cases stage with
          | ready => cases hdone
          | calling due => cases hdone
          | _ => cases hslot

end Pool

end Decommission
