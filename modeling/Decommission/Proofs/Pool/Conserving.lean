import Decommission.Proofs.Course.Clocked
import Decommission.Proofs.Engine.Pace
import Decommission.Proofs.Pool.Paced

/-!
# Pools on the clock

A pool at work on the clock keeps to the list schedule of its roster, whoever moves first
and however its reader reads, as long as its signal is not fired (`Shift.Scheduled`).
This is so in any order of moves that the clock allows (`Shift.keeps_play`), and in the
usual course, which closes the stream after so many turns of the engine
(`Shift.Keeps.course`).
-/

namespace Decommission

open Pool (Paced OnSchedule)

namespace Work

/-- What a pool has done by an entry, and when. -/
def Entry.ofPool? (e : Entry) : Option (Nat × Pool.Action) :=
  match e.action with
  | .pool a => some (e.time, a)
  | .play _ => none

namespace Shift

/-- What the pool has done, and when. -/
def poolLog (s : Shift) : List (Nat × Pool.Action) := s.log.filterMap Entry.ofPool?

/-- A move on the clock, if it is possible, while the signal is not fired and the reader
stays.  Actions are made at their times, and a millisecond passes only when everybody in
the engine has to wait. -/
def clocked? : Move → Shift → Option Shift
  | .act a, s => if s.work.isTimely s.now a then s.act? a else none
  | .pass, s => if (s.work.next? s.now s.fired).isNone then s.move? .pass else none
  | .receive, s => s.move? .receive
  | .fire, _ => none
  | .hangUp, _ => none

variable {z : Roster} {s s' : Shift}

/-- The pool of a shift keeps to a roster. -/
structure Keeps (z : Roster) (p : Pool) (s : Shift) : Prop where
  work : s.work = .pool z.uninstaller p
  unfired : s.fired = false
  paced : Paced z s.now s.poolLog p
  brief : s.log.length + p.moves ≤ z.pool.moves
  /-- The stream is closed by closing it. -/
  closings : (s.log.filter Entry.closed).map Entry.time =
    (s.poolLog.filter fun e => e.2 = .close).map Prod.fst

variable {p : Pool}

/-- The shift in which the pool of the roster has not done anything yet. -/
def ofRoster (z : Roster) : Shift := { work := .pool z.uninstaller z.pool, now := z.start }

theorem keeps_start (hw : z.workers ≤ slotLimit) : Keeps z z.pool (ofRoster z) where
  work := rfl
  unfired := rfl
  paced := Pool.paced_start hw
  brief := Nat.le_of_eq (Nat.zero_add _)
  closings := rfl

theorem Keeps.receive (h : Keeps z p s) :
    Keeps z { p with stream := p.stream.receive } (s.onStream Stream.receive) where
  work := by
    rw [onStream, h.work]
    rfl
  unfired := h.unfired
  paced := h.paced.receive
  brief := h.brief
  closings := h.closings

theorem Keeps.act {a : Action} (h : Keeps z p s) (ha : s.act? a = some s')
    (htimely : s.work.isTimely s.now a) :
    ∃ x p', a = .pool x ∧ p.step false x = some p' ∧ Keeps z p' s' := by
  obtain ⟨⟨es, w⟩, hact, rfl⟩ := Option.map_eq_some_iff.mp ha
  rw [h.work, h.unfired] at hact
  rw [h.work] at htimely
  cases a with
  | play a => cases hact
  | pool x =>
      obtain ⟨p', hp, heq⟩ := Option.map_eq_some_iff.mp hact
      cases heq
      have hpaced := h.paced.act hp htimely
      have hlog : ∀ shown closed, (s.log ++ [Entry.mk s.now (.pool x) shown closed]).filterMap
          Entry.ofPool? = s.poolLog ++ [(s.now, x)] := fun _ _ => List.filterMap_append
      refine ⟨x, p', rfl, hp, rfl, h.unfired, ?_, ?_, ?_⟩
      · rw [poolLog, hlog]
        exact hpaced
      · have hless := Pool.moves_step hp
        have hbrief := h.brief
        rw [List.length_append, List.length_singleton]
        omega
      · rw [poolLog, hlog, List.filter_append, List.filter_append, List.map_append,
          List.map_append, h.closings]
        congr 1
        have hiff : p'.isClosed ↔ x = .close :=
          hpaced.isClosed_iff.trans (h.paced.ended_iff hp)
        by_cases hx : x = .close
        · have hc : (Work.pool z.uninstaller p').isClosed = true := hiff.mpr hx
          simp [hc, hx]
        · have hc : (Work.pool z.uninstaller p').isClosed = false :=
            Bool.eq_false_iff.mpr fun hc => hx (hiff.mp hc)
          simp [hc, hx]

/-- Time passes while everybody waits. -/
theorem Keeps.pass (h : Keeps z p s) (hpos : 0 < z.workers)
    (hnext : s.work.next? s.now s.fired = none) :
    Keeps z p { s with now := s.now + 1 } := by
  rw [h.work, h.unfired] at hnext
  have hrest := h.paced.resting hpos (Option.map_eq_none_iff.mp hnext)
  refine ⟨h.work, h.unfired, h.paced.pass hrest (Nat.le_succ _) ?_, h.brief, h.closings⟩
  intro i t due ht hst
  have hbusy : t.isOver = false := by rw [Pool.Task.isOver, hst]
  obtain ⟨due', hst', hlt⟩ := hrest.calling i t ht hbusy
  rw [hst] at hst'
  cases hst'
  exact hlt

theorem Keeps.clocked {m : Move} (h : Keeps z p s) (hpos : 0 < z.workers)
    (hm : clocked? m s = some s') : ∃ p', Keeps z p' s' := by
  cases m with
  | act a =>
      rw [clocked?] at hm
      split at hm
      · obtain ⟨_, p', _, _, h'⟩ := h.act hm ‹_›
        exact ⟨p', h'⟩
      · cases hm
  | pass =>
      rw [clocked?] at hm
      split at hm
      · rename_i hnone
        cases hm
        exact ⟨p, h.pass hpos (Option.isNone_iff_eq_none.mp hnone)⟩
      · cases hm
  | receive =>
      cases hm
      exact ⟨_, h.receive⟩
  | fire => cases hm
  | hangUp => cases hm

/-! ## In any order -/

/-- The usual choice of the pool is one that the clock allows. -/
theorem Keeps.act_of_next? (h : Keeps z p s) {x : Pool.Action}
    (hx : p.next? z.uninstaller s.now false = some x) :
    s.work.isTimely s.now (.pool x) ∧ ∃ s', s.act? (.pool x) = some s' := by
  obtain ⟨htimely, hp⟩ := Pool.next?_possible hx
  refine ⟨by rw [h.work]; exact htimely, Option.isSome_iff_exists.mp ?_⟩
  rw [act?, Option.isSome_map, h.work, h.unfired, Work.act?, Option.isSome_map]
  exact hp

/-- As long as the stream is open, an action is possible, or time can pass. -/
theorem Keeps.onward (h : Keeps z p s) :
    ∃ m : Move, m.isReceive = false ∧ (clocked? m s).isSome := by
  cases hx : p.next? z.uninstaller s.now false with
  | none =>
      refine ⟨.pass, rfl, ?_⟩
      rw [clocked?, h.work, h.unfired, Work.next?, hx]
      rfl
  | some x =>
      obtain ⟨htimely, s', hs'⟩ := h.act_of_next? hx
      refine ⟨.act (.pool x), rfl, ?_⟩
      rw [clocked?, if_pos htimely, hs']
      rfl

/-- What is on the schedule of a roster in a shift. -/
structure Scheduled (z : Roster) (s : Shift) : Prop where
  /-- What was done about a component is the beginning of what its task does by the
  roster. -/
  begins : ∀ i c, z.components[i]? = some c →
    (s.poolLog.filter fun e => e.2.isOf i) <+: z.taskOf i c
  /-- The stream is not open any longer than the last removal takes. -/
  lasting : s.work.isClosed = false → s.now ≤ z.latest
  /-- The pool closes its stream after so many actions at most. -/
  brief : s.log.length ≤ 4 * z.components.length + 2
  /-- Until then it can do something, or time can pass. -/
  onward : s.work.isClosed = false → ∃ m : Move, m.isReceive = false ∧ (clocked? m s).isSome
  /-- Where the stream is closed, everything was done on schedule. -/
  onSchedule : s.work.isClosed → OnSchedule z s.poolLog
  /-- What was sent are the reports that arrived, in the same order. -/
  sent : s.work.stream.sent = (s.poolLog.filterMap z.arrival?).map Prod.snd
  /-- The stream has closed when the last removal ended. -/
  closed : s.work.isClosed → (s.log.filter Entry.closed).map Entry.time = [z.latest]

theorem Keeps.scheduled (h : Keeps z p s) : Scheduled z s where
  begins _ _ hi := h.paced.begins hi
  lasting hopen := by
    rw [h.work] at hopen
    exact h.paced.le_latest hopen
  brief := by
    have hmoves : z.pool.moves = 4 * z.components.length + 2 := Nat.zero_add _
    have hbrief := h.brief
    omega
  onward _ := h.onward
  onSchedule hc := by
    rw [h.work] at hc
    exact h.paced.onSchedule hc
  sent := by
    rw [h.work]
    exact h.paced.sent
  closed hc := by
    rw [h.work] at hc
    rw [h.closings, (h.paced.onSchedule hc).closed]
    rfl

theorem keeps_play (hpos : 0 < z.workers) (hw : z.workers ≤ slotLimit) (ms : List Move) :
    ∃ p, Keeps z p (play clocked? (ofRoster z) ms) :=
  play_induction (P := fun s => ∃ p, Keeps z p s)
    (fun _ _ _ ⟨_, h⟩ hm => h.clocked hpos hm) ⟨_, keeps_start hw⟩ ms

/-! ## In the usual course -/

/-- The signal is never fired. -/
def never (_ _ : Nat) : Bool := false

/-- The engine's turn is an action of the pool, or a millisecond that passes. -/
theorem Keeps.proceed (h : Keeps z p s) (hpos : 0 < z.workers) :
    ∃ p', Keeps z p' (s.proceed never) ∧ (p.isClosed → p'.isClosed) ∧
      (p'.isClosed = false → p'.moves + (z.latest - (s.proceed never).now) <
        p.moves + (z.latest - s.now)) := by
  have hproceed : s.proceed never =
      ((s.work.next? s.now s.fired).bind fun a => s.act? a).getD { s with now := s.now + 1 } := by
    rw [Shift.proceed, never, Bool.and_false]
    rfl
  rw [hproceed]
  cases hx : p.next? z.uninstaller s.now false with
  | some x =>
      obtain ⟨htimely, s', hs'⟩ := h.act_of_next? hx
      have hnext : s.work.next? s.now s.fired = some (.pool x) := by
        rw [h.work, h.unfired, Work.next?, hx]
        rfl
      rw [hnext, Option.bind_some, hs', Option.getD_some]
      obtain ⟨_, p', heq, hp, h'⟩ := h.act hs' htimely
      cases heq
      have hnow : s'.now = s.now := by
        obtain ⟨_, _, rfl⟩ := Option.map_eq_some_iff.mp hs'
        rfl
      have hless := Pool.moves_step hp
      refine ⟨p', h', fun hc => ?_, fun _ => ?_⟩
      · rw [Pool.step_of_isClosed hc] at hp
        cases hp
      · rw [hnow]
        omega
  | none =>
      have hnext : s.work.next? s.now s.fired = none := by
        rw [h.work, h.unfired, Work.next?, hx]
        rfl
      rw [hnext]
      have h' := h.pass hpos hnext
      refine ⟨p, h', id, fun hopen => ?_⟩
      have hlasting := h'.paced.le_latest hopen
      show p.moves + (z.latest - (s.now + 1)) < _
      dsimp only at hlasting
      omega

/-- After enough turns of the engine the stream is closed. -/
theorem Keeps.course (h : Keeps z p s) (hpos : 0 < z.workers) (ts : List Turn) :
    ∃ p', Keeps z p' (Shift.course never s ts) ∧
      (p.isClosed ∨ p.moves + (z.latest - s.now) ≤ ts.count .engine → p'.isClosed) := by
  induction ts generalizing p s with
  | nil =>
      refine ⟨p, h, fun hc => ?_⟩
      cases hopen : p.isClosed with
      | true => rfl
      | false =>
          have hpos := h.paced.moves_pos hopen
          rcases hc with hc | hnone
          · rw [hopen] at hc
            cases hc
          · exact absurd hnone (by rw [List.count_nil]; omega)
  | cons t ts ih =>
      cases t with
      | reader =>
          obtain ⟨p', h', hc⟩ := ih h.receive
          rw [List.count_cons_of_ne (by decide)]
          exact ⟨p', h', hc⟩
      | engine =>
          obtain ⟨p₁, h₁, hstay, hless⟩ := h.proceed hpos
          obtain ⟨p', h', hc⟩ := ih h₁
          refine ⟨p', h', fun hor => hc ?_⟩
          rw [List.count_cons_self] at hor
          cases hopen : p₁.isClosed with
          | true => exact .inl rfl
          | false =>
              rcases hor with hc | hle
              · rw [hstay hc] at hopen
                cases hopen
              · have hlt := hless hopen
                exact .inr (by omega)

end Shift

end Work

end Decommission
