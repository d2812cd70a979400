import Decommission.Proofs.Course.Free

/-!
# The usual choice of a pool

On the clock a call of the uninstaller takes as long as the uninstaller says, and ends
as it says (`Action.isTimely`).  The usual choice is always possible, and at its time
(`Pool.next?_possible`).  It is missing only while everybody has to wait
(`Pool.Resting`).
-/

namespace Decommission

namespace Pool

/-- Whether an action is at its time. -/
def Action.isTimely (u : Uninstaller) (now : Nat) (p : Pool) : Action → Bool
  | call i due =>
      match p.tasks[i]? with
      | some t => due == now + u.delay i t.component
      | none => false
  | conclude i v =>
      match p.tasks[i]? with
      | some ⟨c, .calling due⟩ => due ≤ now && v == u.verdict i c
      | _ => false
  | die _ => false
  | _ => true

variable {u : Uninstaller} {now : Nat} {fired : Bool} {p : Pool} {a : Action}

theorem tasksNext?_eq_none_iff {i : Nat} {ts : List Task} :
    tasksNext? u now p i ts = none ↔
      ∀ n t, ts[n]? = some t → taskNext? u now p (i + n) t = none := by
  induction ts generalizing i with
  | nil => exact ⟨fun _ _ _ ht => (nomatch ht), fun _ => rfl⟩
  | cons t ts ih =>
      rw [tasksNext?, orElse_eq_none_iff, ih]
      constructor
      · rintro ⟨hfirst, hrest⟩ n t' ht
        cases n with
        | zero =>
            cases ht
            exact hfirst
        | succ n =>
            rw [show i + (n + 1) = i + 1 + n by omega]
            exact hrest n t' ht
      · intro h
        refine ⟨h 0 t rfl, fun n t' ht => ?_⟩
        rw [show i + 1 + n = i + (n + 1) by omega]
        exact h (n + 1) t' ht

/-- Everybody has to wait if the dispatcher and every task has to. -/
theorem next?_eq_none_iff :
    p.next? u now fired = none ↔ dispatcherNext? fired p = none ∧
      ∀ i t, p.tasks[i]? = some t → taskNext? u now p i t = none := by
  rw [next?, orElse_eq_none_iff, tasksNext?_eq_none_iff]
  simp only [Nat.zero_add]

theorem tasksNext?_eq_some {i : Nat} {ts : List Task} (h : tasksNext? u now p i ts = some a) :
    ∃ n t, ts[n]? = some t ∧ taskNext? u now p (i + n) t = some a := by
  induction ts generalizing i with
  | nil => cases h
  | cons t ts ih =>
      rw [tasksNext?] at h
      rcases of_orElse_eq_some h with ht | ht
      · exact ⟨0, t, rfl, ht⟩
      · obtain ⟨n, t', ht', hnext⟩ := ih ht
        refine ⟨n + 1, t', ht', ?_⟩
        rwa [show i + (n + 1) = i + 1 + n by omega]

theorem dispatcherNext?_possible (h : p.dispatcherNext? fired = some a) :
    a.isTimely u now p ∧ (p.step fired a).isSome := by
  rw [dispatcherNext?] at h
  split at h
  · rename_i rest hd
    split at h
    · rename_i hlt
      cases h
      simp only [step, hd]
      rw [if_pos hlt]
      exact ⟨rfl, rfl⟩
    · rename_i hw
      have hcount := Nat.not_lt.mp hw
      split at h
      · cases h
        simp only [step, hd]
        rw [if_pos hcount]
        exact ⟨rfl, rfl⟩
      · split at h
        · rename_i hfired
          cases h
          simp only [step, hd]
          rw [if_pos (by simp [hcount, hfired])]
          exact ⟨rfl, rfl⟩
        · split at h
          · rename_i hfired hfree
            cases h
            simp only [step, hd]
            rw [if_pos (by simp [hcount, hfired, hfree])]
            exact ⟨rfl, rfl⟩
          · cases h
  · rename_i hd
    split at h
    · rename_i hover
      cases h
      simp only [step, hd]
      rw [if_pos hover]
      exact ⟨rfl, rfl⟩
    · cases h
  · cases h
  · cases h

theorem taskNext?_possible {i : Nat} {t : Task} (ht : p.tasks[i]? = some t)
    (h : taskNext? u now p i t = some a) : a.isTimely u now p ∧ (p.step fired a).isSome := by
  obtain ⟨c, stage⟩ := t
  cases stage with
  | ready =>
      cases h
      simp [Action.isTimely, step, ht]
  | calling due =>
      rw [taskNext?] at h
      dsimp only at h
      split at h
      · rename_i hdue
        cases h
        simp [Action.isTimely, step, ht, hdue]
      · cases h
  | returned v =>
      rw [taskNext?] at h
      dsimp only at h
      split at h
      · rename_i hready
        cases h
        simp [Action.isTimely, step, ht, hready]
      · cases h
  | reported | dead => cases h

/-- The usual choice is possible, and at its time. -/
theorem next?_possible (h : p.next? u now fired = some a) :
    a.isTimely u now p ∧ (p.step fired a).isSome := by
  rw [next?] at h
  rcases of_orElse_eq_some h with h | h
  · exact dispatcherNext?_possible h
  · obtain ⟨i, t, ht, hnext⟩ := tasksNext?_eq_some h
    rw [Nat.zero_add] at hnext
    exact taskNext?_possible ht hnext

end Pool

end Decommission
