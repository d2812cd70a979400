import Decommission.Engine.Pool
import Mathlib.Data.List.Basic

/-!
# List schedules

A list schedule hands jobs out in the order of a list.  Each takes the slot that is
free first, and occupies it from then on for as long as the job takes.

A roster says with how many slots which components are removed by which uninstaller,
and when.  By its list schedule the removal of each component has a time to start
(`Roster.startsAt`) and a time to end (`Roster.endsAt`).
-/

namespace Decommission

/-- The time at which the first of the slots is free. -/
def earliest (slots : List Nat) : Nat := slots.min?.getD 0

/-- The times at which the slots are free after the first of them has been occupied for
a while. -/
def occupy (slots : List Nat) (time : Nat) : List Nat :=
  (earliest slots + time) :: slots.erase (earliest slots)

section Schedule

variable {slots busy : List Nat} {now n : Nat}

theorem earliest_of_perm (h : slots.Perm (busy ++ List.replicate (n + 1) now))
    (hbusy : ∀ time ∈ busy, now ≤ time) : earliest slots = now := by
  have hmin : slots.min? = some now := by
    rw [List.min?_eq_some_iff]
    refine ⟨h.mem_iff.mpr (by simp), fun time ht => ?_⟩
    rcases List.mem_append.mp (h.mem_iff.mp ht) with ht | ht
    · exact hbusy time ht
    · exact Nat.le_of_eq (List.eq_of_mem_replicate ht).symm
  rw [earliest, hmin]
  rfl

/-- A slot that is free now is free again when the time has passed. -/
theorem occupy_perm (h : slots.Perm (busy ++ List.replicate (n + 1) now))
    (hbusy : ∀ time ∈ busy, now ≤ time) (time : Nat) :
    (occupy slots time).Perm (busy ++ [now + time] ++ List.replicate n now) := by
  have hrest : (slots.erase now).Perm (busy ++ List.replicate n now) := by
    have herase := (h.trans List.perm_middle).erase now
    rwa [List.erase_cons_head] at herase
  rw [occupy, earliest_of_perm h hbusy, List.append_assoc, List.singleton_append]
  exact (hrest.cons _).trans List.perm_middle.symm

end Schedule

/-- Components to be removed with a number of slots that are free from a certain time
on. -/
structure Roster where
  workers : Nat
  components : List Component
  uninstaller : Uninstaller
  start : Nat

namespace Roster

variable {z : Roster} {i : Nat} {c : Component}

/-- How long the removals take. -/
def delays (z : Roster) : List Nat := z.components.mapIdx z.uninstaller.delay

/-- When the slots are free once the components before a position have been handed
out. -/
def slotsBefore (z : Roster) (i : Nat) : List Nat :=
  (z.delays.take i).foldl occupy (List.replicate z.workers z.start)

/-- When the removal of the component at a position starts. -/
def startsAt (z : Roster) (i : Nat) : Nat := earliest (z.slotsBefore i)

/-- When the removal of the component at a position ends. -/
def endsAt (z : Roster) (i : Nat) : Nat := z.startsAt i + (z.delays[i]?).getD 0

/-- When the last removal ends.  That is at once if there is nothing to remove. -/
def latest (z : Roster) : Nat :=
  ((List.range z.components.length).map z.endsAt).foldl max z.start

theorem endsAt_eq (h : z.components[i]? = some c) :
    z.endsAt i = z.startsAt i + z.uninstaller.delay i c := by
  rw [endsAt, delays, List.getElem?_mapIdx, h]
  rfl

theorem startsAt_le_endsAt (z : Roster) (i : Nat) : z.startsAt i ≤ z.endsAt i := Nat.le_add_right ..

/-- A component occupies the slot that is free first. -/
theorem slotsBefore_succ (h : z.components[i]? = some c) :
    z.slotsBefore (i + 1) = occupy (z.slotsBefore i) (z.uninstaller.delay i c) := by
  have hdelay : z.delays[i]? = some (z.uninstaller.delay i c) := by
    rw [delays, List.getElem?_mapIdx, h]
    rfl
  rw [slotsBefore, slotsBefore, List.take_add_one, hdelay, List.foldl_append]
  rfl

theorem foldl_max_le_iff {xs : List Nat} {a b : Nat} :
    xs.foldl max a ≤ b ↔ a ≤ b ∧ ∀ x ∈ xs, x ≤ b := by
  induction xs generalizing a with
  | nil => simp
  | cons x xs ih =>
      rw [List.foldl_cons, ih, Nat.max_le, List.forall_mem_cons, and_assoc]

/-- The last removal ends by a time if all of them do. -/
theorem latest_le_iff {time : Nat} :
    z.latest ≤ time ↔ z.start ≤ time ∧ ∀ i < z.components.length, z.endsAt i ≤ time := by
  rw [latest, foldl_max_le_iff]
  simp

theorem start_le_latest (z : Roster) : z.start ≤ z.latest := (latest_le_iff.mp (Nat.le_refl _)).1

theorem endsAt_le_latest (h : i < z.components.length) : z.endsAt i ≤ z.latest :=
  (latest_le_iff.mp (Nat.le_refl _)).2 i h

end Roster

end Decommission
