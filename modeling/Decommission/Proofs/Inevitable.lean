import Mathlib.Order.WellFounded
import Decommission.Proofs.Play

/-!
# What comes in the end

A state is inevitable when no order of moves avoids it.  As long as it has not come,
some move is possible, and possible moves cannot go on for ever (`Inevitable.of_run`).
A move that is not possible changes nothing, so moves of that kind are left out.

`inevitable_of_wellFounded` is how it is shown: every possible move descends.
-/

namespace Decommission

variable {σ μ : Type} {step? : μ → σ → Option σ} {P Q : σ → Prop} {s : σ}

/-- Whatever possible moves are made one after the other, they come to a state with a
certain property. -/
inductive Inevitable (step? : μ → σ → Option σ) (P : σ → Prop) : σ → Prop
  | here {s : σ} : P s → Inevitable step? P s
  | onward {s : σ} : (∃ m t, step? m s = some t) →
      (∀ m t, step? m s = some t → Inevitable step? P t) → Inevitable step? P s

theorem Inevitable.mono (h : Inevitable step? P s) (hPQ : ∀ s, P s → Q s) :
    Inevitable step? Q s := by
  induction h with
  | here hp => exact .here (hPQ _ hp)
  | onward hex _ ih => exact .onward hex ih

/-- Possible moves that are made for ever come to such a state too. -/
theorem Inevitable.of_run (h : Inevitable step? P s) {u : Nat → σ} (hstart : u 0 = s)
    (hrun : ∀ n, ∃ m, step? m (u n) = some (u (n + 1))) : ∃ n, P (u n) := by
  induction h generalizing u with
  | here hp => exact ⟨0, hstart ▸ hp⟩
  | onward _ _ ih =>
      obtain ⟨m, hm⟩ := hrun 0
      rw [hstart] at hm
      obtain ⟨n, hn⟩ := ih m _ hm (u := fun n => u (n + 1)) rfl fun n => hrun (n + 1)
      exact ⟨n + 1, hn⟩

/-- Some moves lead there. -/
theorem Inevitable.exists_play (h : Inevitable step? P s) : ∃ ms, P (play step? s ms) := by
  induction h with
  | here hp => exact ⟨[], hp⟩
  | onward hex _ ih =>
      obtain ⟨m, t, hm⟩ := hex
      obtain ⟨ms, hms⟩ := ih m t hm
      refine ⟨m :: ms, ?_⟩
      rw [play_cons_of_eq_some hm]
      exact hms

/-- What cannot be avoided: moves descend, they preserve something, and where that
holds some move is possible until the end has come. -/
theorem inevitable_of_wellFounded {r : σ → σ → Prop} (hr : WellFounded r)
    (descends : ∀ m s t, step? m s = some t → r t s)
    (preserved : ∀ m s t, Q s → step? m s = some t → Q t)
    (onward : ∀ s, Q s → ¬ P s → ∃ m t, step? m s = some t) (h : Q s) :
    Inevitable step? (fun s => P s ∧ Q s) s := by
  induction s using hr.induction with
  | _ s ih =>
      by_cases hp : P s
      · exact .here ⟨hp, h⟩
      · exact .onward (onward s h hp) fun m t hm =>
          ih t (descends m s t hm) (preserved m s t h hm)

end Decommission
