import Decommission.Proofs.Watching.Unwatched

/-!
# Directors that do the same but for watchers

A director may be a picture of another: at every glance it takes the step of the other, and
lets the same happen but for the notes of watchers (`Retells`).  Two courses that such
directors take at sites which are the same without watchers stay together, move by move
(`InStep.move?`) and turn by turn (`InStep.turn?`).  So they do to the end (`InStep.play`,
`InStep.run`).

The picture may be good only as long as the director has a certain property, which its steps
preserve.
-/

namespace Decommission

theorem rel_orElse {α β : Type} {r : α → β → Prop} {a b : Option α} {a' b' : Option β}
    (ha : Option.Rel r a a') (hb : Option.Rel r b b') : Option.Rel r (a <|> b) (a' <|> b') := by
  cases ha with
  | none => exact hb
  | some h => exact .some h

theorem rel_bind {α β γ δ : Type} {r : α → β → Prop} {q : γ → δ → Prop} {a : Option α}
    {b : Option β} {f : α → Option γ} {g : β → Option δ} (h : Option.Rel r a b)
    (hq : ∀ x y, a = some x → r x y → Option.Rel q (f x) (g y)) :
    Option.Rel q (a.bind f) (b.bind g) := by
  cases h with
  | none => exact .none
  | some h => exact hq _ _ rfl h

theorem rel_map {α β γ δ : Type} {r : α → β → Prop} {q : γ → δ → Prop} {a : Option α}
    {b : Option β} {f : α → γ} {g : β → δ} (h : Option.Rel r a b)
    (hq : ∀ x y, a = some x → r x y → q (f x) (g y)) : Option.Rel q (a.map f) (b.map g) := by
  cases h with
  | none => exact .none
  | some h => exact .some (hq _ _ rfl h)

variable {σ τ : Type} {f : σ → τ} {P : σ → Prop}

/-- Two steps let the same happen but for the notes of watchers, and the one director
afterwards is a picture of the other. -/
structure Told (f : σ → τ) (x : List Event × σ) (y : List Event × τ) : Prop where
  events : unwatchedIn x.1 = unwatchedIn y.1
  director : y.2 = f x.2

/-- The pictures of directors with a certain property do what the directors do, and the
directors keep the property. -/
structure Retells [Director σ] [Director τ] (f : σ → τ) (P : σ → Prop) : Prop where
  step : ∀ g d, P d → Option.Rel (Told f) (Director.step? g d) (Director.step? g (f d))
  assist : ∀ d, P d → Option.Rel (Told f) (Director.assist? d) (Director.assist? (f d))
  step_kept : ∀ g d x, P d → Director.step? g d = some x → P x.2
  assist_kept : ∀ d x, P d → Director.assist? d = some x → P x.2
  alarm : ∀ d, Director.alarm? (f d) = Director.alarm? d
  isOver : ∀ d, Director.isOver (f d) = Director.isOver d
  steps : ∀ d, Director.steps (f d) = Director.steps d

/-- The director of a course is a picture of that of another, and without watchers the sites
are the same. -/
structure InStep (f : σ → τ) (P : σ → Prop) (c : Course σ) (c' : Course τ) : Prop where
  director : c'.director = f c.director
  kept : P c.director
  site : c.site.unwatched = c'.site.unwatched

namespace InStep

variable {c : Course σ} {c' : Course τ}

theorem glance (h : InStep f P c c') : c.site.glance = c'.site.glance := by
  rw [← c.site.glance_unwatched, h.site, c'.site.glance_unwatched]

theorem now (h : InStep f P c c') : c.site.now = c'.site.now := by
  show c.site.unwatched.now = c'.site.unwatched.now
  rw [h.site]

theorem history (h : InStep f P c c') : c.site.history.unwatched = c'.site.history.unwatched := by
  show c.site.unwatched.history = c'.site.unwatched.history
  rw [h.site]

/-- Steps that let the same happen. -/
theorem perform (h : InStep f P c c') {x : List Event × σ} {y : List Event × τ}
    (hx : P x.2) (hxy : Told f x y) :
    InStep f P ⟨x.2, c.site.performAll x.1⟩ ⟨y.2, c'.site.performAll y.1⟩ where
  director := hxy.director
  kept := hx
  site := by rw [Site.unwatched_performAll, Site.unwatched_performAll, h.site, hxy.events]

/-- Sites that stay the same without watchers. -/
theorem withSite (h : InStep f P c c') {s s' : Site} (hs : s.unwatched = s'.unwatched) :
    InStep f P { c with site := s } { c' with site := s' } := ⟨h.director, h.kept, hs⟩

theorem withNow (h : InStep f P c c') (now : Nat) :
    InStep f P { c with site := { c.site with now } } { c' with site := { c'.site with now } } := by
  refine h.withSite ?_
  show ({ c.site.unwatched with now } : Site) = { c'.site.unwatched with now }
  rw [h.site]

theorem workOff (h : InStep f P c c') :
    InStep f P { c with site := c.site.workOff } { c' with site := c'.site.workOff } := by
  refine h.withSite ?_
  rw [Site.unwatched_workOff, h.site, Site.unwatched_workOff]

/-- One site works if the other does. -/
theorem work? (h : InStep f P c c') : c.site.work?.isSome = c'.site.work?.isSome := by
  have heq := c.site.work?_unwatched
  rw [h.site, c'.site.work?_unwatched] at heq
  have hsome := congrArg Option.isSome heq
  rw [Option.isSome_map, Option.isSome_map] at hsome
  exact hsome.symm

/-- One site can take an action of a run if the other can, and they stay the same without
watchers. -/
theorem act? (h : InStep f P c c') (i : Nat) (a : Work.Action) :
    Option.Rel (InStep f P) ((c.site.act? i a).map fun s => { c with site := s })
      ((c'.site.act? i a).map fun s => { c' with site := s }) := by
  have heq := c.site.act?_unwatched i a
  rw [h.site, c'.site.act?_unwatched] at heq
  cases hs : c.site.act? i a with
  | none =>
      rw [hs] at heq
      rw [Option.map_eq_none_iff.mp heq]
      exact .none
  | some s =>
      rw [hs] at heq
      obtain ⟨s', hs', hsame⟩ := Option.map_eq_some_iff.mp heq
      rw [hs']
      exact .some (h.withSite hsame.symm)

theorem workOff? (h : InStep f P c c') : Option.Rel (InStep f P) c.workOff? c'.workOff? := by
  rw [Course.workOff?, Course.workOff?, h.work?]
  split
  · exact .some h.workOff
  · exact .none

variable [Director σ] [Director τ]

/-! ## Turns -/

theorem direct? (hf : Retells f P) (h : InStep f P c c') :
    Option.Rel (InStep f P) c.direct? c'.direct? := by
  have hstep := hf.step c.site.glance c.director h.kept
  rw [Course.direct?, Course.direct?, h.director, ← h.glance]
  exact rel_bind hstep fun x _ hx hxy =>
    .some (h.perform (hf.step_kept _ _ x h.kept hx) hxy)

theorem assist? (hf : Retells f P) (h : InStep f P c c') :
    Option.Rel (InStep f P) c.assist? c'.assist? := by
  have hassist := hf.assist c.director h.kept
  rw [Course.assist?, Course.assist?, h.director]
  exact rel_bind hassist fun x _ hx hxy =>
    .some (h.perform (hf.assist_kept _ x h.kept hx) hxy)

theorem alarm? (hf : Retells f P) (h : InStep f P c c') : c.alarm? = c'.alarm? := by
  rw [Course.alarm?, Course.alarm?, h.director, hf.alarm, ← c.site.alarm?_unwatched, h.site,
    c'.site.alarm?_unwatched]

theorem elapse? (hf : Retells f P) (h : InStep f P c c') :
    Option.Rel (InStep f P) c.elapse? c'.elapse? := by
  rw [Course.elapse?, Course.elapse?, ← h.alarm? hf, ← h.now]
  cases c.alarm? with
  | none => exact .none
  | some alarm =>
      simp only [Option.bind_eq_bind, Option.bind_some]
      split
      · exact .some (h.withNow alarm)
      · exact .none

/-- Courses in step take the same turn. -/
theorem turn? (hf : Retells f P) (h : InStep f P c c') :
    Option.Rel (InStep f P) c.turn? c'.turn? := by
  rw [Course.turn?, Course.turn?, h.director, hf.isOver]
  split
  · exact .none
  · refine rel_orElse (h.direct? hf) ?_
    generalize c.workOff? = w, c'.workOff? = w', h.workOff? = hw
    cases hw with
    | none => exact rel_orElse (h.assist? hf) (h.elapse? hf)
    | some hw =>
        rename_i b b'
        refine .some ?_
        generalize b.assist? = a, b'.assist? = a', hw.assist? hf = ha
        cases ha with
        | none => exact hw
        | some ha => exact ha

theorem runUpTo (hf : Retells f P) (h : InStep f P c c') (n : Nat) :
    InStep f P (c.runUpTo n) (c'.runUpTo n) := by
  induction n generalizing c c' with
  | zero => exact h
  | succ n ih =>
      rw [Course.runUpTo_succ, Course.runUpTo_succ]
      generalize c.turn? = t, c'.turn? = t', h.turn? hf = ht
      cases ht with
      | none => exact h
      | some ht => exact ih ht

theorem bound (hf : Retells f P) (h : InStep f P c c') : c.bound = c'.bound := by
  rw [Course.bound, Course.bound, h.director, hf.steps, ← c.site.effort_unwatched, h.site,
    c'.site.effort_unwatched]

/-- Courses in step stay so to the end. -/
theorem run (hf : Retells f P) (h : InStep f P c c') : InStep f P c.run c'.run := by
  rw [Course.run, Course.run, ← h.bound hf]
  exact h.runUpTo hf _

/-! ## Free courses -/

variable {η : Type} {help? : η → σ → Option (List Event × σ)}
  {help'? : η → τ → Option (List Event × τ)}

/-- Courses in step make the same moves, whoever moves. -/
theorem move? (hf : Retells f P)
    (hhelp : ∀ x d, P d → Option.Rel (Told f) (help? x d) (help'? x (f d)))
    (hkept : ∀ x d y, P d → help? x d = some y → P y.2)
    (h : InStep f P c c') (m : Course.Move η) :
    Option.Rel (InStep f P) (Course.move? help? m c) (Course.move? help'? m c') := by
  cases m with
  | look => exact h.direct? hf
  | help x =>
      have hx := hhelp x c.director h.kept
      rw [Course.move?, Course.move?, h.director]
      exact rel_map hx fun y _ hy => h.perform (hkept x _ y h.kept hy)
  | work i a => exact h.act? i a
  | pass ms =>
      have hpass := h.withNow (c.site.now + ms)
      rw [Course.move?, Course.move?, ← h.now]
      exact .some hpass

/-- So they stay in step, whatever moves there are. -/
theorem play (hf : Retells f P)
    (hhelp : ∀ x d, P d → Option.Rel (Told f) (help? x d) (help'? x (f d)))
    (hkept : ∀ x d y, P d → help? x d = some y → P y.2)
    (h : InStep f P c c') (ms : List (Course.Move η)) :
    InStep f P (play (Course.move? help?) c ms) (play (Course.move? help'?) c' ms) := by
  induction ms generalizing c c' with
  | nil => exact h
  | cons m ms ih =>
      show InStep f P (Decommission.play _ ((Course.move? help? m c).getD c) ms)
        (Decommission.play _ ((Course.move? help'? m c').getD c') ms)
      refine ih ?_
      generalize Course.move? help? m c = x, Course.move? help'? m c' = y, h.move? hf hhelp hkept m = hm
      cases hm with
      | none => exact h
      | some hm => exact hm

end InStep

end Decommission
