import Decommission.Proofs.Course.Turns
import Decommission.Proofs.Pool.Choice

/-!
# Courses on the clock

The moves of a free course, restricted by the clock (`Course.clocked?`).  Runs act at
their times (`Work.isTimely`): a wait ends when its time has come, and a new one is as long
as the engine says.  Time passes only while nobody can move, and not past the next alarm.
Apart from that it is still open who moves next.

The usual moves of the runs are at their times (`Site.timely_of_work?`), so the usual course
of a director without helpers is one of those on the clock (`Course.exists_clocked_run`).
-/

namespace Decommission

namespace Playback

/-- Whether an action is at its time. -/
def Action.isTimely (now : Nat) (p : Playback) : Action → Bool
  | delay due =>
      match p.stage with
      | .between (s :: _) => due == tickAfter now s.delay
      | _ => false
  | send =>
      match p.stage with
      | .delaying due .. => due ≤ now
      | _ => false
  | heed due => due == tickAfter now p.script.closeDelay
  | settle => true
  | finish =>
      match p.stage with
      | .winding due => due ≤ now
      | _ => false

variable {now : Nat} {fired : Bool} {p : Playback} {a : Action}

/-- The usual choice is possible, and at its time. -/
theorem next?_possible (h : p.next? now fired = some a) :
    a.isTimely now p ∧ (p.step fired a).isSome := by
  obtain ⟨script, stage, stream⟩ := p
  cases stage with
  | between rest =>
      cases rest with
      | nil =>
          cases h
          exact ⟨rfl, rfl⟩
      | cons s rest =>
          cases h
          exact ⟨beq_self_eq_true _, rfl⟩
  | delaying due r rest =>
      simp only [next?] at h
      split at h
      · rename_i hdue
        split at h
        · rename_i hready
          cases h
          refine ⟨decide_eq_true hdue, ?_⟩
          simp only [step, if_pos hready]
          split
          · rfl
          · rfl
        · cases h
      · split at h
        · rename_i hheeds
          cases h
          refine ⟨beq_self_eq_true _, ?_⟩
          simp only [step, if_pos hheeds]
          rfl
        · cases h
  | awaiting =>
      simp only [next?] at h
      split at h
      · rename_i hfired
        cases h
        refine ⟨beq_self_eq_true _, ?_⟩
        simp only [step, if_pos hfired]
        rfl
      · cases h
  | winding due =>
      simp only [next?] at h
      split at h
      · rename_i hdue
        cases h
        exact ⟨decide_eq_true hdue, rfl⟩
      · cases h
  | hung | ended => cases h

end Playback

namespace Work

/-- Whether an action is at its time. -/
def isTimely (now : Nat) : Work → Action → Bool
  | .script p, .play a => a.isTimely now p
  | .pool u p, .pool a => a.isTimely u now p
  | _, _ => false

/-- The usual choice of the next action. -/
def next? (now : Nat) (fired : Bool) : Work → Option Action
  | nothing _ => none
  | script p => (p.next? now fired).map .play
  | pool u p => (p.next? u now fired).map .pool

variable {now : Nat} {fired : Bool} {w w' : Work} {es : List Event} {a : Action}

/-- The next move is the action chosen, if it is possible. -/
theorem turn?_eq (w : Work) :
    w.turn? now fired = (w.next? now fired).bind fun a => w.act? fired a := by
  cases w with
  | nothing s => rfl
  | script p =>
      rw [turn?, next?, Option.bind_map]
      cases p.next? now fired with
      | none => rfl
      | some a => exact (Option.map_eq_bind ..).symm
  | pool u p =>
      rw [turn?, next?, Option.bind_map]
      cases p.next? u now fired with
      | none => rfl
      | some a => exact (Option.map_eq_bind ..).symm

/-- The usual choice is possible, and at its time. -/
theorem next?_possible (h : w.next? now fired = some a) :
    w.isTimely now a ∧ (w.act? fired a).isSome := by
  cases w with
  | nothing s => cases h
  | script p =>
      obtain ⟨x, hx, rfl⟩ := Option.map_eq_some_iff.mp h
      rw [act?, Option.isSome_map]
      exact Playback.next?_possible hx
  | pool u p =>
      obtain ⟨x, hx, rfl⟩ := Option.map_eq_some_iff.mp h
      rw [act?, Option.isSome_map]
      exact Pool.next?_possible hx

/-- The usual move is an action at its time. -/
theorem timely_of_turn? (h : w.turn? now fired = some (es, w')) :
    ∃ a, w.isTimely now a ∧ w.act? fired a = some (es, w') := by
  rw [turn?_eq] at h
  obtain ⟨a, ha, hact⟩ := Option.bind_eq_some_iff.mp h
  exact ⟨a, (next?_possible ha).1, hact⟩

/-- Work that makes no move has nothing to choose. -/
theorem next?_of_turn?_eq_none (h : w.turn? now fired = none) : w.next? now fired = none := by
  cases hn : w.next? now fired with
  | none => rfl
  | some a =>
      rw [turn?_eq, hn, Option.bind_some] at h
      exact absurd (next?_possible hn).2 (by rw [h]; exact Bool.false_ne_true)

end Work

namespace Site

variable {s s' : Site}

/-- Whether an action of the run at a position is at its time. -/
def isTimely (s : Site) (i : Nat) (a : Work.Action) : Bool :=
  s.runs[i]?.any fun r => r.work.isTimely s.now a

/-- The usual move of the runs is an action of one of them, at its time. -/
theorem timely_of_work? (h : s.work? = some s') :
    ∃ i a, s.isTimely i a ∧ s.act? i a = some s' := by
  rw [work?] at h
  split at h
  · rename_i i r es w hf
    obtain ⟨n, rfl, hr, ht⟩ := firstTurn?_eq_some hf
    obtain ⟨a, ha, hw⟩ := Work.timely_of_turn? ht
    rw [Nat.zero_add] at h
    refine ⟨n, a, ?_, act?_eq_some_iff.mpr ⟨r, es, w, hr, hw, (Option.some.inj h).symm⟩⟩
    rw [isTimely, hr]
    exact ha
  · cases h

end Site

namespace Course

variable {σ η : Type} [Director σ] {help? : η → σ → Option (List Event × σ)} {c c' : Course σ}

/-- Whether nobody can move. -/
def isIdle (c : Course σ) : Bool := c.direct?.isNone && c.assist?.isNone && c.site.work?.isNone

/-- Whether the clock allows a move. -/
def Move.isTimely (c : Course σ) : Move η → Bool
  | work i a => c.site.isTimely i a
  | pass ms => c.isIdle && c.alarm?.all (c.site.now + ms ≤ ·)
  | _ => true

/-- A move on the clock, if it is possible and the director is not done. -/
def clocked? (help? : η → σ → Option (List Event × σ)) (m : Move η) (c : Course σ) :
    Option (Course σ) :=
  if !Director.isOver c.director && m.isTimely c then move? help? m c else none

theorem clocked?_eq_some_iff {m : Move η} : clocked? help? m c = some c' ↔
    Director.isOver c.director = false ∧ m.isTimely c ∧ move? help? m c = some c' := by
  rw [clocked?]
  constructor
  · intro h
    split at h
    · rename_i hb
      rw [Bool.and_eq_true, Bool.not_eq_true'] at hb
      exact ⟨hb.1, hb.2, h⟩
    · cases h
  · rintro ⟨ho, ht, hm⟩
    rw [ho, ht]
    exact hm

/-! ## The usual course -/

theorem isIdle_iff : c.isIdle ↔ c.direct? = none ∧ c.assist? = none ∧ c.site.work? = none := by
  rw [isIdle, Bool.and_eq_true, Bool.and_eq_true, Option.isNone_iff_eq_none,
    Option.isNone_iff_eq_none, Option.isNone_iff_eq_none, and_assoc]

/-- The runs move at their times until all of them have to wait. -/
theorem exists_clocked_workUpTo (ho : Director.isOver c.director = false) (n : Nat) :
    ∃ ms, play (clocked? help?) c ms = { c with site := c.site.workUpTo n } := by
  induction n generalizing c with
  | zero => exact ⟨[], rfl⟩
  | succ n ih =>
      rw [Site.workUpTo]
      cases hw : c.site.work? with
      | none => exact ⟨[], rfl⟩
      | some s =>
          obtain ⟨i, a, ht, ha⟩ := Site.timely_of_work? hw
          have hmove : clocked? help? (.work i a) c = some { c with site := s } :=
            clocked?_eq_some_iff.mpr ⟨ho, ht, by rw [move?, ha]; rfl⟩
          obtain ⟨ms, hms⟩ := ih (c := { c with site := s }) ho
          exact ⟨.work i a :: ms, by rw [play_cons_of_eq_some hmove, hms]⟩

variable (halone : ∀ d : σ, Director.assist? d = none)
include halone

theorem exists_clocked_turn (ht : c.turn? = some c') :
    ∃ ms, play (clocked? help?) c ms = c' := by
  cases ho : Director.isOver c.director with
  | true =>
      rw [turn?, ho] at ht
      cases ht
  | false =>
      cases hd : c.direct? with
      | some d =>
          rw [turn?_eq_direct ho hd] at ht
          cases ht
          have hmove : clocked? help? .look c = some c' := clocked?_eq_some_iff.mpr ⟨ho, rfl, hd⟩
          exact ⟨[.look], by rw [play_cons_of_eq_some hmove, play_nil]⟩
      | none =>
          cases hw : c.site.work? with
          | some s =>
              rw [turn?_eq_workOff ho hd (halone _) (by rw [hw]; rfl)] at ht
              cases ht
              exact exists_clocked_workUpTo ho _
          | none =>
              rw [turn?_eq_elapse ho hd (halone _) hw] at ht
              obtain ⟨alarm, ha, hlt, rfl⟩ := elapse?_eq_some_iff.mp ht
              have hassist : c.assist? = none := by
                rw [assist?, halone]
                rfl
              have hend : c.site.now + (alarm - c.site.now) = alarm :=
                Nat.add_sub_cancel' (Nat.le_of_lt hlt)
              have htimely : Move.isTimely c (.pass (alarm - c.site.now) : Move η) := by
                rw [Move.isTimely, isIdle_iff.mpr ⟨hd, hassist, hw⟩, ha, hend]
                exact decide_eq_true (Nat.le_refl alarm)
              have hmove : clocked? help? (.pass (alarm - c.site.now)) c =
                  some { c with site := { c.site with now := alarm } } :=
                clocked?_eq_some_iff.mpr ⟨ho, htimely, by rw [move?, hend]⟩
              exact ⟨[_], by rw [play_cons_of_eq_some hmove, play_nil]⟩

/-- The usual course of a director without helpers is one on the clock. -/
theorem exists_clocked_run (c : Course σ) : ∃ ms, play (clocked? help?) c ms = c.run := by
  have hrun : ∀ n (c : Course σ), ∃ ms, play (clocked? help?) c ms = c.runUpTo n := by
    intro n
    induction n with
    | zero => exact fun c => ⟨[], rfl⟩
    | succ n ih =>
        intro c
        rw [runUpTo_succ]
        cases ht : c.turn? with
        | none => exact ⟨[], rfl⟩
        | some c' =>
            have hturn : ∃ ms, play (clocked? help?) c ms = c' := exists_clocked_turn halone ht
            obtain ⟨ms, hms⟩ := hturn
            obtain ⟨ns, hns⟩ := ih c'
            exact ⟨ms ++ ns, by rw [play_append, hms, hns]⟩
  exact hrun c.bound c

end Course

end Decommission
