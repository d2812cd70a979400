import Decommission.Course
import Decommission.Proofs.Course.Effects
import Decommission.Proofs.Play
import Decommission.Proofs.Pool.Step

/-!
# Courses in which anybody may move

`Course.turn?` fixes who moves.  In a free course it is open who moves next, and
what: the director looks, one of its helpers does something, a run takes an
action, or time passes.  Actions of a run need not be the usual choice, so calls
of an uninstaller may take any time and end in any way.

The course that `Course.run` takes is one of them, and nobody dies in it
(`Course.Aided.reaches_run`).  What a director lets happen in a free course is what it
lets happen by its own moves, whatever it gets to see (`Course.directed_play`).
-/

namespace Decommission

theorem of_orElse_eq_some {α : Type} {a b : Option α} {x : α} (h : (a <|> b) = some x) :
    a = some x ∨ b = some x := by
  cases a with
  | none => exact Or.inr h
  | some _ => exact Or.inl h

theorem orElse_eq_none_iff {α : Type} {a b : Option α} :
    (a <|> b) = none ↔ a = none ∧ b = none := by
  cases a with
  | none => exact ⟨fun h => ⟨rfl, h⟩, fun h => h.2⟩
  | some x => exact ⟨fun h => (nomatch h), fun h => (nomatch h.1)⟩

/-! ## Actions of runs -/

/-- An action of the work of an engine. -/
inductive Work.Action
  | play (a : Playback.Action)
  | pool (a : Pool.Action)

/-- Whether the action is the death of a task. -/
def Work.Action.isDeath : Work.Action → Bool
  | play _ => false
  | pool a => a.isDeath

namespace Work

variable {now : Nat} {fired : Bool} {w w' : Work} {es : List Event}

/-- An action, if it is possible. -/
def act? (fired : Bool) : Action → Work → Option (List Event × Work)
  | .play a, .script p => (p.step fired a).map fun p' => (Playback.events a, .script p')
  | .pool a, .pool u p => (p.step fired a).map fun p' => (p.events u fired a, .pool u p')
  | _, _ => none

theorem not_isDeath_of_taskNext? {u : Uninstaller} {p : Pool} {i : Nat} {t : Pool.Task}
    {a : Pool.Action} (h : Pool.taskNext? u now p i t = some a) : ¬ a.isDeath := by
  rw [Pool.taskNext?] at h
  split at h
  · cases h
    exact Bool.false_ne_true
  · split at h
    · cases h
      exact Bool.false_ne_true
    · cases h
  · split at h
    · cases h
      exact Bool.false_ne_true
    · cases h
  · cases h
  · cases h

theorem not_isDeath_of_tasksNext? {u : Uninstaller} {p : Pool} {i : Nat} {ts : List Pool.Task}
    {a : Pool.Action} (h : Pool.tasksNext? u now p i ts = some a) : ¬ a.isDeath := by
  induction ts generalizing i with
  | nil => cases h
  | cons t ts ih =>
      rw [Pool.tasksNext?] at h
      rcases of_orElse_eq_some h with ht | ht
      · exact not_isDeath_of_taskNext? ht
      · exact ih ht

theorem not_isDeath_of_dispatcherNext? {p : Pool} {a : Pool.Action}
    (h : p.dispatcherNext? fired = some a) : ¬ a.isDeath := by
  rw [Pool.dispatcherNext?] at h
  split at h
  · split at h
    · cases h
      exact Bool.false_ne_true
    · split at h
      · cases h
        exact Bool.false_ne_true
      · split at h
        · cases h
          exact Bool.false_ne_true
        · split at h
          · cases h
            exact Bool.false_ne_true
          · cases h
  · split at h
    · cases h
      exact Bool.false_ne_true
    · cases h
  · cases h
  · cases h

/-- The usual choice of a pool is nobody's death. -/
theorem not_isDeath_of_next? {u : Uninstaller} {p : Pool} {a : Pool.Action}
    (h : p.next? u now fired = some a) : ¬ a.isDeath := by
  rw [Pool.next?] at h
  rcases of_orElse_eq_some h with hd | ht
  · exact not_isDeath_of_dispatcherNext? hd
  · exact not_isDeath_of_tasksNext? ht

/-- The usual move is an action. -/
theorem act?_of_turn? (h : w.turn? now fired = some (es, w')) :
    ∃ a : Action, ¬ a.isDeath ∧ w.act? fired a = some (es, w') := by
  cases w with
  | nothing s => cases h
  | script p =>
      obtain ⟨a, ha, h⟩ := Option.bind_eq_some_iff.mp h
      obtain ⟨p', hp, h⟩ := Option.bind_eq_some_iff.mp h
      refine ⟨.play a, Bool.false_ne_true, ?_⟩
      rw [act?, hp]
      exact h
  | pool u p =>
      obtain ⟨a, ha, h⟩ := Option.bind_eq_some_iff.mp h
      obtain ⟨p', hp, h⟩ := Option.bind_eq_some_iff.mp h
      refine ⟨.pool a, not_isDeath_of_next? ha, ?_⟩
      rw [act?, hp]
      exact h

end Work

namespace Site

variable {s s' : Site}

/-- An action of the run at a position, if it is possible. -/
def act? (i : Nat) (a : Work.Action) (s : Site) : Option Site := do
  let r ← s.runs[i]?
  let (events, w) ← r.work.act? (s.signals.isFired r.signal) a
  some { s.record (some r.engine) events with runs := s.runs.set i { r with work := w } }

theorem act?_eq_some_iff {i : Nat} {a : Work.Action} :
    s.act? i a = some s' ↔ ∃ r events w, s.runs[i]? = some r ∧
      r.work.act? (s.signals.isFired r.signal) a = some (events, w) ∧
      s' = { s.record (some r.engine) events with runs := s.runs.set i { r with work := w } } := by
  rw [act?]
  constructor
  · intro h
    obtain ⟨r, hr, h⟩ := Option.bind_eq_some_iff.mp h
    obtain ⟨⟨events, w⟩, hw, h⟩ := Option.bind_eq_some_iff.mp h
    exact ⟨r, events, w, hr, hw, (Option.some.inj h).symm⟩
  · rintro ⟨r, events, w, hr, hw, rfl⟩
    rw [hr, Option.bind_eq_bind, Option.bind_some, hw]
    rfl

theorem firstTurn?_eq_some {i j : Nat} {r : Run} {rs : List Run} {es : List Event} {w : Work}
    (h : s.firstTurn? i rs = some (j, r, es, w)) :
    ∃ n, j = i + n ∧ rs[n]? = some r ∧ s.runTurn? r = some (es, w) := by
  induction rs generalizing i with
  | nil => cases h
  | cons r' rs ih =>
      rw [firstTurn?] at h
      split at h
      · cases h
        exact ⟨0, rfl, rfl, ‹_›⟩
      · obtain ⟨n, rfl, hn, ht⟩ := ih h
        exact ⟨n + 1, by omega, hn, ht⟩

/-- The usual move of the runs is an action of one of them. -/
theorem act?_of_work? (h : s.work? = some s') :
    ∃ i a, ¬ Work.Action.isDeath a ∧ s.act? i a = some s' := by
  rw [work?] at h
  split at h
  · rename_i i r es w hf
    obtain ⟨n, rfl, hr, ht⟩ := firstTurn?_eq_some hf
    obtain ⟨a, ha, hw⟩ := Work.act?_of_turn? ht
    refine ⟨n, a, ha, act?_eq_some_iff.mpr ⟨r, es, w, hr, hw, ?_⟩⟩
    rw [Nat.zero_add] at h
    exact (Option.some.inj h).symm
  · cases h

end Site

/-! ## Free courses -/

namespace Course

variable {σ η : Type} [Director σ]

/-- A move in a free course, helpers doing things of type `η`. -/
inductive Move (η : Type)
  | look
  | help (x : η)
  | work (i : Nat) (a : Work.Action)
  | pass (ms : Nat)

/-- Whether the move is the death of a task. -/
def Move.isDeath : Move η → Bool
  | work _ a => a.isDeath
  | _ => false

/-- A move, if it is possible. -/
def move? (help? : η → σ → Option (List Event × σ)) : Move η → Course σ → Option (Course σ)
  | .look, c => c.direct?
  | .help x, c => (help? x c.director).map fun (es, d) => ⟨d, c.site.performAll es⟩
  | .work i a, c => (c.site.act? i a).map fun s => { c with site := s }
  | .pass ms, c => some { c with site := { c.site with now := c.site.now + ms } }

variable {help? : η → σ → Option (List Event × σ)} {c c' : Course σ}

theorem direct?_eq_some_iff :
    c.direct? = some c' ↔ ∃ es d, Director.step? c.site.glance c.director = some (es, d) ∧
      c' = ⟨d, c.site.performAll es⟩ := by
  rw [direct?]
  constructor
  · intro h
    obtain ⟨⟨es, d⟩, hs, h⟩ := Option.bind_eq_some_iff.mp h
    exact ⟨es, d, hs, (Option.some.inj h).symm⟩
  · rintro ⟨es, d, hs, rfl⟩
    rw [hs]
    rfl

theorem assist?_eq_some_iff :
    c.assist? = some c' ↔ ∃ es d, Director.assist? c.director = some (es, d) ∧
      c' = ⟨d, c.site.performAll es⟩ := by
  rw [assist?]
  constructor
  · intro h
    obtain ⟨⟨es, d⟩, hs, h⟩ := Option.bind_eq_some_iff.mp h
    exact ⟨es, d, hs, (Option.some.inj h).symm⟩
  · rintro ⟨es, d, hs, rfl⟩
    rw [hs]
    rfl

/-! ## The usual course is free -/

/-- A course is reached by moves of which none is a death. -/
def Reaches (help? : η → σ → Option (List Event × σ)) (c c' : Course σ) : Prop :=
  ∃ ms, (∀ m ∈ ms, ¬ Move.isDeath m) ∧ play (move? help?) c ms = c'

theorem Reaches.refl (c : Course σ) : Reaches help? c c :=
  ⟨[], (fun _ hm => nomatch hm), rfl⟩

theorem Reaches.trans {c'' : Course σ} (h : Reaches help? c c') (h' : Reaches help? c' c'') :
    Reaches help? c c'' := by
  obtain ⟨ms, hms, rfl⟩ := h
  obtain ⟨ns, hns, rfl⟩ := h'
  refine ⟨ms ++ ns, ?_, play_append ..⟩
  intro m hm
  rcases List.mem_append.mp hm with hm | hm
  · exact hms m hm
  · exact hns m hm

theorem Reaches.move {m : Move η} (hm : ¬ m.isDeath) (h : move? help? m c = some c') :
    Reaches help? c c' := by
  refine ⟨[m], fun n hn => List.mem_singleton.mp hn ▸ hm, ?_⟩
  show (move? help? m c).getD c = c'
  rw [h]
  rfl

theorem reaches_workUpTo (n : Nat) (d : σ) (s : Site) :
    Reaches help? ⟨d, s⟩ ⟨d, s.workUpTo n⟩ := by
  induction n generalizing s with
  | zero => exact .refl _
  | succ n ih =>
      rw [Site.workUpTo]
      split
      · obtain ⟨i, a, ha, hs⟩ := Site.act?_of_work? ‹_›
        refine .trans (.move (m := .work i a) ha ?_) (ih _)
        rw [move?, hs]
        rfl
      · exact .refl _

theorem reaches_helps {xs : List η} {d d' : σ} {es : List Event} (s : Site)
    (h : play (recorded help?) ([], d) xs = (es, d')) :
    Reaches help? ⟨d, s⟩ ⟨d', s.performAll es⟩ := by
  refine ⟨xs.map .help, ?_, ?_⟩
  · intro m hm
    obtain ⟨x, _, rfl⟩ := List.mem_map.mp hm
    exact Bool.false_ne_true
  · have hone : ∀ x (j : List Event × σ),
        (recorded help? x j).map (fun j => (⟨j.2, s.performAll j.1⟩ : Course σ)) =
          move? help? (.help x) ⟨j.2, s.performAll j.1⟩ := by
      intro x j
      rw [recorded, move?, Option.map_map]
      congr 1
      funext y
      exact congrArg (Course.mk y.2) (Site.performAll_append ..)
    have hmap := play_map (f := fun j : List Event × σ => (⟨j.2, s.performAll j.1⟩ : Course σ))
      (g := fun x => move? help? (.help x)) hone ([], d) xs
    rw [h] at hmap
    rw [play, List.foldl_map]
    exact hmap.symm

/-- What the helpers of a director do until they are done is what they do one after
the other.  That may depend on something the director preserves. -/
structure Aided (help? : η → σ → Option (List Event × σ)) (P : σ → Prop) : Prop where
  step : ∀ {g d es d'}, P d → Director.step? g d = some (es, d') → P d'
  /-- The helpers preserve it, and do one thing after the other. -/
  assist : ∀ {d es d'}, P d → Director.assist? d = some (es, d') →
    P d' ∧ ∃ xs, play (recorded help?) ([], d) xs = (es, d')

namespace Aided

variable {P : σ → Prop}

theorem reaches_assist (ha : Aided help? P) (hc : P c.director) (h : c.assist? = some c') :
    Reaches help? c c' ∧ P c'.director := by
  obtain ⟨es, d, hs, rfl⟩ := assist?_eq_some_iff.mp h
  obtain ⟨hd, xs, hxs⟩ := ha.assist hc hs
  exact ⟨reaches_helps c.site hxs, hd⟩

theorem reaches_turn (ha : Aided help? P) (hc : P c.director) (h : c.turn? = some c') :
    Reaches help? c c' ∧ P c'.director := by
  rw [turn?] at h
  split at h
  · cases h
  · rcases of_orElse_eq_some h with hd | h
    · obtain ⟨es, d, hs, rfl⟩ := direct?_eq_some_iff.mp hd
      exact ⟨.move (m := .look) Bool.false_ne_true hd, ha.step hc hs⟩
    · split at h
      · rename_i c₁ hw
        rw [workOff?] at hw
        split at hw
        · cases hw
          have hreach : Reaches help? c { c with site := c.site.workOff } :=
            reaches_workUpTo _ c.director c.site
          cases hs : assist? { c with site := c.site.workOff } with
          | none =>
              rw [hs] at h
              cases h
              exact ⟨hreach, hc⟩
          | some c₂ =>
              rw [hs] at h
              cases h
              obtain ⟨h₂, hd⟩ := ha.reaches_assist (c := { c with site := c.site.workOff }) hc hs
              exact ⟨hreach.trans h₂, hd⟩
        · cases hw
      · rcases of_orElse_eq_some h with hs | he
        · exact ha.reaches_assist hc hs
        · obtain ⟨alarm, _, he⟩ := Option.bind_eq_some_iff.mp he
          split at he
          · cases he
            refine ⟨.move (m := .pass (alarm - c.site.now)) Bool.false_ne_true ?_, hc⟩
            rw [move?, Nat.add_sub_cancel' (Nat.le_of_lt ‹_›)]
          · cases he

theorem reaches_runUpTo (ha : Aided help? P) (hc : P c.director) (n : Nat) :
    Reaches help? c (c.runUpTo n) := by
  induction n generalizing c with
  | zero => exact .refl c
  | succ n ih =>
      rw [runUpTo_succ]
      split
      · obtain ⟨h, hd⟩ := ha.reaches_turn hc ‹_›
        exact h.trans (ih hd)
      · exact .refl c

/-- The usual course is a free one. -/
theorem reaches_run (ha : Aided help? P) (hc : P c.director) : Reaches help? c c.run :=
  ha.reaches_runUpTo hc _

end Aided

/-! ## What the director lets happen -/

/-- In a free course the director moves as it does by itself, at some glances, and
what it lets happen is recorded. -/
theorem directed_play {μ : Type} {own? : μ → σ → Option (List Event × σ)}
    (stepped : ∀ g d, ∃ m, own? m d = Director.step? g d)
    (helped : ∀ x d, ∃ m, own? m d = help? x d) (ms : List (Move η)) :
    ∃ ns, (play (move? help?) c ms).director = (play (recorded own?) ([], c.director) ns).2 ∧
      (play (move? help?) c ms).site.history.directed =
        c.site.history.directed ++ (play (recorded own?) ([], c.director) ns).1 := by
  refine play_induction (P := fun c' : Course σ => ∃ ns,
    c'.director = (play (recorded own?) ([], c.director) ns).2 ∧
      c'.site.history.directed =
        c.site.history.directed ++ (play (recorded own?) ([], c.director) ns).1) ?_
    ⟨[], rfl, (List.append_nil _).symm⟩ ms
  rintro m c₁ c₂ ⟨ns, hd, hh⟩ hm
  have hown : ∀ es d, (∃ n, own? n c₁.director = some (es, d)) →
      ∃ ns, d = (play (recorded own?) ([], c.director) ns).2 ∧
        (c₁.site.performAll es).history.directed =
          c.site.history.directed ++ (play (recorded own?) ([], c.director) ns).1 := by
    rintro es d ⟨n, hn⟩
    have hstep : recorded own? n (play (recorded own?) ([], c.director) ns) =
        some ((play (recorded own?) ([], c.director) ns).1 ++ es, d) :=
      recorded_eq_some_iff.mpr ⟨es, hd ▸ hn, rfl⟩
    refine ⟨ns ++ [n], ?_, ?_⟩
    · rw [play_concat hstep]
    · rw [play_concat hstep, Site.directed_performAll, hh, List.append_assoc]
  cases m with
  | look =>
      obtain ⟨es, d, hs, rfl⟩ := direct?_eq_some_iff.mp hm
      obtain ⟨n, hn⟩ := stepped c₁.site.glance c₁.director
      exact hown es d ⟨n, hn.trans hs⟩
  | help x =>
      obtain ⟨⟨es, d⟩, hx, rfl⟩ := Option.map_eq_some_iff.mp hm
      obtain ⟨n, hn⟩ := helped x c₁.director
      exact hown es d ⟨n, hn.trans hx⟩
  | work i a =>
      obtain ⟨s, hs, rfl⟩ := Option.map_eq_some_iff.mp hm
      obtain ⟨r, events, w, hr, hw, rfl⟩ := Site.act?_eq_some_iff.mp hs
      refine ⟨ns, hd, ?_⟩
      show History.directed (c₁.site.history ++ _) = _
      rw [Site.directed_append, Site.directed_ofEngine, List.append_nil, hh]
  | pass ms =>
      cases hm
      exact ⟨ns, hd, hh⟩

end Course

end Decommission
