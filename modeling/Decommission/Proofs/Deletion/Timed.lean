import Decommission.Proofs.Course.Turns
import Decommission.Proofs.Deletion.Conduct

/-!
# Deletions in time

A deletion on the clock that drives its timers.  Its engines show whatever they like,
whenever they like.  Time passes only while the deletion has nothing to do but wait, and
never past the next of its timers.

Every deletion at a site takes such a course, unless the site has a measuring clock of
its own (`Timed.matches_conduct`).
-/

namespace Decommission

namespace Deletion

variable {κ : Type}

/-- A deletion at a certain millisecond, and what its engines show. -/
structure Timed (κ : Type) where
  deletion : Deletion κ
  now : Nat
  answer : Option (Except EngineError Unit) := none
  head : Head := .nothing

namespace Timed

/-- What is to be seen. -/
def glance (t : Timed κ) : Glance := ⟨t.now, t.now * nanosPerMilli, t.answer, t.head⟩

/-- The millisecond at which a wait ends. -/
def waitEnd (t : Timed κ) (ms : Nat) : Nat :=
  match t.deletion.alarm? with
  | some a => min (t.now + ms) (max t.now a)
  | none => t.now + ms

inductive Move
  /-- The engines show something else. -/
  | shown (answer : Option (Except EngineError Unit)) (head : Head)
  | look
  | errand (i : Nat)
  /-- Some milliseconds pass, or as many as there are until the next timer goes off. -/
  | wait (ms : Nat)

variable [Cluster κ]

/-- A move, if it is possible: what the deletion lets happen, and how things stand
afterwards. -/
def move? : Move → Timed κ → Option (History × Timed κ)
  | .shown answer head, t => some ([], { t with answer, head })
  | .look, t => (t.deletion.step? t.glance).map fun (es, d) =>
      (es.map (⟨t.now, none, ·⟩), { t with deletion := d })
  | .errand i, t => (t.deletion.errand? i).map fun (es, d) =>
      (es.map (⟨t.now, none, ·⟩), { t with deletion := d })
  | .wait ms, t =>
      if (t.deletion.step? t.glance).isSome then none else some ([], { t with now := t.waitEnd ms })

/-- What a deletion that begins at a certain millisecond has let happen after certain
moves, and how things stand. -/
def after (d : Deletion κ) (start : Nat) (ms : List Move) : History × Timed κ :=
  play (recorded move?) ([], { deletion := d, now := start }) ms

/-! ## The usual course -/

variable {d d₀ : Deletion κ} {h₀ : History} {c c' : Course (Deletion κ)}
  {j : History × Timed κ} {es : List Event}

/-- A deletion in time stands as the one of a course, which has let the same happen since
a certain history. -/
structure Matches (h₀ : History) (c : Course (Deletion κ)) (j : History × Timed κ) : Prop where
  director : c.director = j.2.deletion
  now : c.site.now = j.2.now
  clock : c.site.clock = none
  history : c.site.history.ofDirector = h₀ ++ j.1

omit [Cluster κ] in
/-- What the director lets happen at a site. -/
theorem Matches.perform (h : Matches h₀ c j) (d : Deletion κ) (es : List Event)
    (answer : Option (Except EngineError Unit)) (head : Head) :
    Matches h₀ ⟨d, c.site.performAll es⟩
      (j.1 ++ es.map (⟨j.2.now, none, ·⟩), ⟨d, j.2.now, answer, head⟩) where
  director := rfl
  now := (Site.ground_performAll c.site es).2.trans h.now
  clock := Site.clock_performAll h.clock es
  history := by rw [Site.ofDirector_performAll, h.history, h.now, List.append_assoc]

/-- The deletion is shown what is to be seen at the site. -/
theorem play_shown (h : Matches h₀ c j) (ms : List Move) :
    play (recorded move?) j (.shown c.site.answer? c.site.head :: ms) =
        play (recorded move?) (j.1, ⟨c.director, j.2.now, c.site.answer?, c.site.head⟩) ms ∧
      glance ⟨c.director, j.2.now, c.site.answer?, c.site.head⟩ = c.site.glance := by
  have hshown : recorded move? (.shown c.site.answer? c.site.head) j =
      some (j.1 ++ [], ⟨j.2.deletion, j.2.now, c.site.answer?, c.site.head⟩) := rfl
  refine ⟨?_, ?_⟩
  · rw [play_cons_of_eq_some hshown, List.append_nil, h.director]
  · rw [glance, Site.glance, Site.clockReading, h.clock, h.now]

theorem Matches.look (h : Matches h₀ c j) (hd : c.direct? = some c') :
    ∃ ms, Matches h₀ c' (play (recorded move?) j ms) := by
  obtain ⟨es, d, hs, rfl⟩ := Course.direct?_eq_some_iff.mp hd
  obtain ⟨hshown, hglance⟩ := play_shown h [.look]
  have hlook : recorded move? .look (j.1, ⟨c.director, j.2.now, c.site.answer?, c.site.head⟩) =
      some (j.1 ++ es.map (⟨j.2.now, none, ·⟩),
        ⟨d, j.2.now, c.site.answer?, c.site.head⟩) := by
    have hs : step? c.site.glance c.director = some (es, d) := hs
    rw [recorded, move?, hglance, hs]
    rfl
  refine ⟨[.shown c.site.answer? c.site.head, .look], ?_⟩
  rw [hshown, play_cons_of_eq_some hlook, play_nil]
  exact h.perform d es _ _

/-- The workers of the teardown do their errands one after the other. -/
theorem Matches.assist (h : Matches h₀ c j) (hco : c.director.Coherent)
    (ha : c.assist? = some c') : ∃ ms, Matches h₀ c' (play (recorded move?) j ms) := by
  obtain ⟨es, d, hs, rfl⟩ := Course.assist?_eq_some_iff.mp ha
  obtain ⟨xs, hxs⟩ := exists_play_assist? hco hs
  let f : List Event × Deletion κ → History × Timed κ := fun i =>
    (j.1 ++ i.1.map (⟨j.2.now, none, ·⟩), ⟨i.2, j.2.now, j.2.answer, j.2.head⟩)
  have hone : ∀ x i, (recorded errand? x i).map f = recorded move? (.errand x) (f i) := by
    intro x i
    rw [recorded, recorded, move?, Option.map_map, Option.map_map]
    refine congrArg (Option.map · _) (funext fun y => ?_)
    exact Prod.ext (by simp [f]) rfl
  have hplay := play_map (f := f) (g := fun x => recorded move? (.errand x)) hone
    ([], c.director) xs
  refine ⟨xs.map .errand, ?_⟩
  have hj : f ([], c.director) = j := by
    rw [h.director]
    exact Prod.ext (List.append_nil _) rfl
  rw [hxs, hj] at hplay
  rw [play, List.foldl_map]
  show Matches h₀ _ (play (fun x => recorded move? (.errand x)) j xs)
  rw [← hplay]
  exact h.perform d es _ _

omit [Cluster κ] in
/-- What the runs of the site do is not the director's. -/
theorem Matches.workOff (h : Matches h₀ c j) :
    Matches h₀ { c with site := c.site.workOff } j := by
  obtain ⟨_, hnow, hclock, hhistory⟩ := Site.frame_workUpTo c.site.moves c.site
  exact ⟨h.director, hnow.trans h.now, hclock.trans h.clock, hhistory.trans h.history⟩

/-- Time passes until the next alarm. -/
theorem Matches.elapse (h : Matches h₀ c j) (hd : c.direct? = none)
    (he : c.elapse? = some c') : ∃ ms, Matches h₀ c' (play (recorded move?) j ms) := by
  obtain ⟨alarm, halarm, hlt, rfl⟩ := Course.elapse?_eq_some_iff.mp he
  obtain ⟨hshown, hglance⟩ := play_shown h [.wait (alarm - c.site.now)]
  have hidle : step? c.site.glance c.director = none := Course.direct?_eq_none_iff.mp hd
  -- The alarm of the site may come first, but that of the deletion is not passed.
  have hend : waitEnd ⟨c.director, j.2.now, c.site.answer?, c.site.head⟩
      (alarm - c.site.now) = alarm := by
    have halarm : earlier? c.site.alarm? c.director.alarm? = some alarm := halarm
    rw [h.now] at hlt ⊢
    simp only [waitEnd]
    cases ha : c.director.alarm? with
    | none => exact Nat.add_sub_cancel' (Nat.le_of_lt hlt)
    | some a =>
        rw [ha] at halarm
        have hle : alarm ≤ a := earlier?_le halarm
        simp only
        omega
  have hwait : recorded move? (.wait (alarm - c.site.now))
      (j.1, ⟨c.director, j.2.now, c.site.answer?, c.site.head⟩) =
        some (j.1 ++ [], ⟨c.director, alarm, c.site.answer?, c.site.head⟩) := by
    rw [recorded, move?, hglance, hidle]
    show some (j.1 ++ [], (⟨c.director, waitEnd _ _, _, _⟩ : Timed κ)) = _
    rw [hend]
  refine ⟨[.shown c.site.answer? c.site.head, .wait (alarm - c.site.now)], ?_⟩
  rw [hshown, play_cons_of_eq_some hwait, play_nil, List.append_nil]
  exact ⟨rfl, rfl, h.clock, h.history⟩

/-- A turn of a course is a few moves. -/
theorem Matches.turn (h : Matches h₀ c j) (hco : c.director.Coherent)
    (ht : c.turn? = some c') : ∃ ms, Matches h₀ c' (play (recorded move?) j ms) := by
  cases Course.turn_cases ht with
  | directed hd => exact h.look hd
  | worked _ hw => exact ⟨[], hw ▸ h.workOff⟩
  | joined _ ha => exact h.workOff.assist hco ha
  | assisted _ ha => exact h.assist hco ha
  | elapsed hd he => exact h.elapse hd he

theorem Matches.runUpTo (hfresh : d₀.stage = .looking) (h : Matches h₀ c j)
    (hc : ∃ es, Chronicle d₀ es c.director) (n : Nat) :
    ∃ ms, Matches h₀ (c.runUpTo n) (play (recorded move?) j ms) := by
  induction n generalizing c j with
  | zero => exact ⟨[], h⟩
  | succ n ih =>
      rw [Course.runUpTo_succ]
      split
      · rename_i c₁ ht
        obtain ⟨es, hes⟩ := hc
        obtain ⟨ms, h₁⟩ := h.turn (hes.coherent hfresh) ht
        obtain ⟨ns, h₂⟩ := ih h₁ ((aided hfresh).reaches_turn ⟨es, hes⟩ ht).2
        exact ⟨ms ++ ns, by rw [play_append]; exact h₂⟩
      · exact ⟨[], h⟩

/-- The usual course of a deletion at a site is one in time, unless the site has a
measuring clock of its own. -/
theorem matches_conduct (hfresh : d.stage = .looking) (site : Site) (hclock : site.clock = none) :
    ∃ ms, Matches site.history.ofDirector (d.conduct site) (after d site.now ms) := by
  have hstart : Matches site.history.ofDirector ⟨d, site⟩
      ([], { deletion := d, now := site.now }) :=
    ⟨rfl, rfl, hclock, (List.append_nil _).symm⟩
  exact hstart.runUpTo hfresh ⟨[], .looking⟩ _

end Timed

end Deletion

end Decommission
