import Decommission.Proofs.Course.Turns
import Decommission.Proofs.Supervision.Timing

/-!
# Supervisions in time

A supervision on the clock that drives its timers.  Its engine shows whatever it likes,
whenever it likes.  Time passes only while the supervision has nothing to do but wait,
and never past the next of its timers.

Every supervision at a site takes such a course (`Timed.matches_conduct`).
-/

namespace Decommission

namespace Supervision

/-- A supervision at a certain millisecond, and what its engine shows. -/
structure Timed where
  supervision : Supervision
  now : Nat
  answer : Option (Except EngineError Unit) := none
  head : Head := .nothing

namespace Timed

/-- What is to be seen. -/
def glance (t : Timed) : Glance := ⟨t.now, t.now * nanosPerMilli, t.answer, t.head⟩

/-- The millisecond at which a wait ends. -/
def waitEnd (t : Timed) (ms : Nat) : Nat :=
  match t.supervision.alarm? with
  | some a => min (t.now + ms) (max t.now a)
  | none => t.now + ms

inductive Move
  /-- The engine shows something else. -/
  | shown (answer : Option (Except EngineError Unit)) (head : Head)
  | look
  /-- Some milliseconds pass, or as many as there are until the next timer goes off. -/
  | wait (ms : Nat)

/-- A move, if it is possible: what the supervision lets happen, and how things stand
afterwards. -/
def move? : Move → Timed → Option (History × Timed)
  | .shown answer head, t => some ([], { t with answer, head })
  | .look, t => (t.supervision.look t.glance).map fun (es, s) =>
      (es.map (⟨t.now, none, ·⟩), { t with supervision := s })
  | .wait ms, t =>
      if (t.supervision.look t.glance).isSome then none else some ([], { t with now := t.waitEnd ms })

/-- A supervision that has just begun, and what has happened then. -/
def opened (s : Supervision) : History × Timed :=
  (s.opening.map (⟨s.startedAt, none, ·⟩), { supervision := s, now := s.startedAt })

/-- What a supervision that has just begun lets happen until it has made certain moves, and
how things stand then. -/
def after (s : Supervision) (ms : List Move) : History × Timed :=
  play (recorded move?) (opened s) ms

/-! ## The usual course -/

variable {s : Supervision} {h₀ : History} {c c' : Course Supervision} {j : History × Timed}

/-- A supervision in time stands as the one of a course, which has let the same happen
since a certain history. -/
structure Matches (h₀ : History) (c : Course Supervision) (j : History × Timed) : Prop where
  director : c.director = j.2.supervision
  now : c.site.now = j.2.now
  history : c.site.history.ofDirector = h₀ ++ j.1

/-- The supervision is shown what is to be seen at the site.  It does not look at the
measuring clock. -/
theorem play_shown (h : Matches h₀ c j) (ms : List Move) :
    play (recorded move?) j (.shown c.site.answer? c.site.head :: ms) =
        play (recorded move?) (j.1, ⟨c.director, j.2.now, c.site.answer?, c.site.head⟩) ms ∧
      c.director.look (glance ⟨c.director, j.2.now, c.site.answer?, c.site.head⟩) =
        c.director.look c.site.glance := by
  have hshown : recorded move? (.shown c.site.answer? c.site.head) j =
      some (j.1 ++ [], ⟨j.2.supervision, j.2.now, c.site.answer?, c.site.head⟩) := rfl
  refine ⟨?_, ?_⟩
  · rw [play_cons_of_eq_some hshown, List.append_nil, h.director]
  · rw [glance, ← h.now]
    rfl

theorem Matches.look (h : Matches h₀ c j) (hd : c.direct? = some c') :
    ∃ ms, Matches h₀ c' (play (recorded move?) j ms) := by
  obtain ⟨es, s, hs, rfl⟩ := Course.direct?_eq_some_iff.mp hd
  obtain ⟨hshown, hglance⟩ := play_shown h [.look]
  have hlook : recorded move? .look (j.1, ⟨c.director, j.2.now, c.site.answer?, c.site.head⟩) =
      some (j.1 ++ es.map (⟨j.2.now, none, ·⟩),
        ⟨s, j.2.now, c.site.answer?, c.site.head⟩) := by
    have hs : c.director.look c.site.glance = some (es, s) := hs
    rw [recorded, move?, hglance, hs]
    rfl
  refine ⟨[.shown c.site.answer? c.site.head, .look], ?_⟩
  rw [hshown, play_cons_of_eq_some hlook, play_nil]
  exact ⟨rfl, (Site.ground_performAll c.site es).2.trans h.now,
    by rw [Site.ofDirector_performAll, h.history, h.now, List.append_assoc]⟩

/-- Time passes until the next alarm. -/
theorem Matches.elapse (h : Matches h₀ c j) (hd : c.direct? = none)
    (he : c.elapse? = some c') : ∃ ms, Matches h₀ c' (play (recorded move?) j ms) := by
  obtain ⟨alarm, halarm, hlt, rfl⟩ := Course.elapse?_eq_some_iff.mp he
  obtain ⟨hshown, hglance⟩ := play_shown h [.wait (alarm - c.site.now)]
  have hidle : c.director.look c.site.glance = none := Course.direct?_eq_none_iff.mp hd
  -- The alarm of the site may come first, but that of the supervision is not passed.
  have hend : waitEnd ⟨c.director, j.2.now, c.site.answer?, c.site.head⟩
      (alarm - c.site.now) = alarm := by
    have halarm : earlier? c.site.alarm? c.director.alarm? = some alarm := halarm
    rw [h.now] at hlt ⊢
    simp only [waitEnd]
    cases ha : c.director.alarm? with
    | none => exact Nat.add_sub_cancel' (Nat.le_of_lt hlt)
    | some a =>
        rw [ha] at halarm
        have hle : alarm ≤ a := earlier?_le halarm
        simp only
        omega
  have hwait : recorded move? (.wait (alarm - c.site.now))
      (j.1, ⟨c.director, j.2.now, c.site.answer?, c.site.head⟩) =
        some (j.1 ++ [], ⟨c.director, alarm, c.site.answer?, c.site.head⟩) := by
    rw [recorded, move?, hglance, hidle]
    show some (j.1 ++ [], (⟨c.director, waitEnd _ _, _, _⟩ : Timed)) = _
    rw [hend]
  refine ⟨[.shown c.site.answer? c.site.head, .wait (alarm - c.site.now)], ?_⟩
  rw [hshown, play_cons_of_eq_some hwait, play_nil, List.append_nil]
  exact ⟨rfl, rfl, h.history⟩

/-- A turn of a course is a few moves. -/
theorem Matches.turn (h : Matches h₀ c j) (ht : c.turn? = some c') :
    ∃ ms, Matches h₀ c' (play (recorded move?) j ms) := by
  cases Course.turn_cases ht with
  | directed hd => exact h.look hd
  | worked _ hw =>
      obtain ⟨_, hnow, _, hhistory⟩ := Site.frame_workUpTo c.site.moves c.site
      subst hw
      exact ⟨[], h.director, hnow.trans h.now, hhistory.trans h.history⟩
  | joined _ ha => cases ha
  | assisted _ ha => cases ha
  | elapsed hd he => exact h.elapse hd he

theorem Matches.runUpTo (h : Matches h₀ c j) (n : Nat) :
    ∃ ms, Matches h₀ (c.runUpTo n) (play (recorded move?) j ms) := by
  induction n generalizing c j with
  | zero => exact ⟨[], h⟩
  | succ n ih =>
      rw [Course.runUpTo_succ]
      split
      · obtain ⟨ms, h₁⟩ := h.turn ‹_›
        obtain ⟨ns, h₂⟩ := ih h₁
        exact ⟨ms ++ ns, by rw [play_append]; exact h₂⟩
      · exact ⟨[], h⟩

/-- The usual course of a supervision at a site is one in time. -/
theorem matches_conduct (phase : Phase) (engine : Nat) (budget : Budget) (site : Site) :
    ∃ ms, Matches site.history.ofDirector (conduct phase engine budget site)
      (after (start phase engine budget site.now) ms) := by
  have hstart : Matches site.history.ofDirector
      ⟨start phase engine budget site.now,
        site.performAll (start phase engine budget site.now).opening⟩
      (opened (start phase engine budget site.now)) :=
    ⟨rfl, (Site.ground_performAll ..).2, Site.ofDirector_performAll ..⟩
  exact hstart.runUpTo _

end Timed

end Supervision

end Decommission
