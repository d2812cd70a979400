/-!
# Moves in a row

Whatever takes steps can be played: moves are made one after the other, in any
order somebody likes.  A move that is not possible at its turn changes nothing.
What holds of all plays therefore holds of every schedule and of every behaviour
of the surroundings.

The state of a play may carry what has happened so far (`recorded`).
`play_induction_mem` is the one induction on plays; it asks what a single possible
move preserves.
-/

namespace Decommission

variable {σ μ ε : Type}

/-- Moves one after the other.  A move that is not possible changes nothing. -/
def play (step? : μ → σ → Option σ) (s : σ) (ms : List μ) : σ :=
  ms.foldl (fun s m => (step? m s).getD s) s

/-- A step that also adds what happens to what has happened before. -/
def recorded (step? : μ → σ → Option (List ε × σ)) (m : μ) (j : List ε × σ) :
    Option (List ε × σ) :=
  (step? m j.2).map fun (es, s) => (j.1 ++ es, s)

@[simp]
theorem play_nil (step? : μ → σ → Option σ) (s : σ) : play step? s [] = s := rfl

theorem play_cons_of_eq_some {step? : μ → σ → Option σ} {s t : σ} {m : μ}
    (h : step? m s = some t) (ms : List μ) : play step? s (m :: ms) = play step? t ms := by
  show play step? ((step? m s).getD s) ms = _
  rw [h]
  rfl

theorem play_cons_of_eq_none {step? : μ → σ → Option σ} {s : σ} {m : μ}
    (h : step? m s = none) (ms : List μ) : play step? s (m :: ms) = play step? s ms := by
  show play step? ((step? m s).getD s) ms = _
  rw [h]
  rfl

theorem play_append (step? : μ → σ → Option σ) (s : σ) (ms ns : List μ) :
    play step? s (ms ++ ns) = play step? (play step? s ms) ns := List.foldl_append ..

/-- A play goes on with a possible move. -/
theorem play_concat {step? : μ → σ → Option σ} {s t : σ} {ms : List μ} {m : μ}
    (h : step? m (play step? s ms) = some t) : play step? s (ms ++ [m]) = t := by
  rw [play_append]
  show (step? m (play step? s ms)).getD _ = t
  rw [h]
  rfl

/-- What holds at the beginning and is preserved by every possible move holds
after all moves. -/
theorem play_induction_mem {step? : μ → σ → Option σ} {P : σ → Prop} {ms : List μ}
    (preserved : ∀ m ∈ ms, ∀ s t, P s → step? m s = some t → P t) {s : σ} (h : P s) :
    P (play step? s ms) := by
  induction ms generalizing s with
  | nil => exact h
  | cons m ms ih =>
      have hrest : ∀ n ∈ ms, ∀ s t, P s → step? n s = some t → P t :=
        fun n hn => preserved n (List.mem_cons_of_mem _ hn)
      cases hm : step? m s with
      | none =>
          rw [play_cons_of_eq_none hm]
          exact ih hrest h
      | some t =>
          rw [play_cons_of_eq_some hm]
          exact ih hrest (preserved m (List.mem_cons_self ..) s t h hm)

theorem play_induction {step? : μ → σ → Option σ} {P : σ → Prop}
    (preserved : ∀ m s t, P s → step? m s = some t → P t) {s : σ} (h : P s) (ms : List μ) :
    P (play step? s ms) := play_induction_mem (fun m _ => preserved m) h

/-- A play that can be watched step by step can be watched as a whole. -/
theorem play_map {τ : Type} {step? : μ → σ → Option σ} {g : μ → τ → Option τ} {f : σ → τ}
    (h : ∀ m s, (step? m s).map f = g m (f s)) (s : σ) (ms : List μ) :
    f (play step? s ms) = play g (f s) ms := by
  induction ms generalizing s with
  | nil => rfl
  | cons m ms ih =>
      show f (play step? ((step? m s).getD s) ms) = play g ((g m (f s)).getD (f s)) ms
      rw [← h m s, Option.getD_map]
      exact ih _

/-- A recorded step is a step, and what it adds. -/
theorem recorded_eq_some_iff {step? : μ → σ → Option (List ε × σ)} {m : μ}
    {j k : List ε × σ} :
    recorded step? m j = some k ↔
      ∃ es, step? m j.2 = some (es, k.2) ∧ k.1 = j.1 ++ es := by
  rw [recorded]
  constructor
  · intro h
    obtain ⟨⟨es, s⟩, hs, rfl⟩ := Option.map_eq_some_iff.mp h
    exact ⟨es, hs, rfl⟩
  · rintro ⟨es, hs, hk⟩
    rw [hs]
    exact congrArg some (Prod.ext hk.symm rfl)

/-- What is recorded goes behind what was recorded before. -/
theorem play_recorded (step? : μ → σ → Option (List ε × σ)) (es : List ε) (s : σ) (ms : List μ) :
    play (recorded step?) (es, s) ms =
      (es ++ (play (recorded step?) ([], s) ms).1, (play (recorded step?) ([], s) ms).2) := by
  have h : ∀ m (j : List ε × σ),
      (recorded step? m j).map (fun j => (es ++ j.1, j.2)) =
        recorded step? m (es ++ j.1, j.2) := by
    intro m j
    rw [recorded, recorded, Option.map_map]
    congr 1
    funext x
    exact Prod.ext (List.append_assoc ..).symm rfl
  rw [play_map h, List.append_nil]

/-- Plays of recorded moves follow each other. -/
theorem play_recorded_append {step? : μ → σ → Option (List ε × σ)} {es fs : List ε} {s t u : σ}
    {ms ns : List μ} (h : play (recorded step?) ([], s) ms = (es, t))
    (h' : play (recorded step?) ([], t) ns = (fs, u)) :
    play (recorded step?) ([], s) (ms ++ ns) = (es ++ fs, u) := by
  rw [play_append, h, play_recorded, h']

end Decommission
