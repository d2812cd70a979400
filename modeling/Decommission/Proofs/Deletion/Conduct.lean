import Decommission.Proofs.Deletion.Chronicle
import Decommission.Proofs.Teardown.Errands

/-!
# The usual course of a deletion

The usual course of a deletion is a free one, in which the workers of the teardown
do their errands one after the other, and nobody dies (`Deletion.reaches_conduct`).
So what holds for every free course, or for every play of moves of a deletion, holds
of `Deletion.conduct`.
-/

namespace Decommission

namespace Deletion

variable {κ : Type} {d d' : Deletion κ} {es : List Event}

/-- A teardown that is under way has not ended, and works on the cluster of the
deletion. -/
def Coherent (d : Deletion κ) : Prop :=
  ∀ t, d.stage = .tearing t → t.result? = none ∧ d.cluster = t.cluster

theorem coherent_withTeardown (d : Deletion κ) (t : Teardown κ) :
    (d.withTeardown t).Coherent := by
  intro t' ht
  rw [withTeardown] at ht ⊢
  cases hr : t.result? with
  | none =>
      rw [hr] at ht
      cases ht
      exact ⟨hr, rfl⟩
  | some r =>
      rw [hr] at ht
      cases r with
      | error e => cases ht
      | ok _ => cases ht

theorem Coherent.withTeardown_eq (h : d.Coherent) {t : Teardown κ} (ht : d.stage = .tearing t) :
    d.withTeardown t = d := by
  obtain ⟨hr, hk⟩ := h t ht
  rw [withTeardown_of_result?_eq_none hr, ← hk, ← ht]

variable [Cluster κ]

theorem Chronicle.coherent {d₀ : Deletion κ} (hfresh : d₀.stage = .looking)
    (h : Chronicle d₀ es d) : d.Coherent := by
  cases h with
  | looking =>
      intro t ht
      rw [hfresh] at ht
      cases ht
  | tearing found es t _ => exact coherent_withTeardown d₀ t
  | _ => exact fun _ ht => nomatch ht

/-! ## Errands of the teardown -/

/-- An errand leaves the coordinator of a teardown where it is. -/
theorem result?_of_errand? {t t' : Teardown κ} {i : Nat} (h : t.errand? i = some (es, t')) :
    t'.result? = t.result? := by
  obtain ⟨w, turn, _, _, _, rfl⟩ := Teardown.workerStep?_eq_some_iff.mp h
  rfl

/-- Errands of a teardown that has not ended are errands of the deletion. -/
theorem play_errand? (d : Deletion κ) {t : Teardown κ} (hr : t.result? = none) (es : List Event)
    (xs : List Nat) :
    play (recorded errand?) (es, d.withTeardown t) xs =
      ((play (recorded Teardown.errand?) (es, t) xs).1,
        d.withTeardown (play (recorded Teardown.errand?) (es, t) xs).2) := by
  induction xs generalizing es t with
  | nil => rfl
  | cons x xs ih =>
      have hstep : recorded errand? x (es, d.withTeardown t) =
          (recorded Teardown.errand? x (es, t)).map fun j => (j.1, d.withTeardown j.2) := by
        rw [recorded, recorded, withTeardown_of_result?_eq_none hr, errand?, Option.map_map,
          Option.map_map]
        rfl
      show play _ ((recorded errand? x (es, d.withTeardown t)).getD (es, d.withTeardown t)) xs =
        ((play _ ((recorded Teardown.errand? x (es, t)).getD (es, t)) xs).1,
          d.withTeardown (play _ ((recorded Teardown.errand? x (es, t)).getD (es, t)) xs).2)
      rw [hstep]
      cases hx : recorded Teardown.errand? x (es, t) with
      | none => exact ih hr es
      | some j =>
          obtain ⟨es', ht, _⟩ := recorded_eq_some_iff.mp hx
          exact ih ((result?_of_errand? ht).trans hr) j.1

/-- What the workers do until they are done, they do one after the other. -/
theorem exists_play_assist? (h : d.Coherent) (ha : d.assist? = some (es, d')) :
    ∃ xs, play (recorded errand?) ([], d) xs = (es, d') := by
  rw [assist?] at ha
  split at ha
  · rename_i t hs
    obtain ⟨⟨es, t'⟩, ht, heq⟩ := Option.map_eq_some_iff.mp ha
    cases heq
    obtain ⟨xs, hxs⟩ := Teardown.exists_play_assist? ht
    refine ⟨xs, ?_⟩
    have hplay := play_errand? d (h t hs).1 [] xs
    rw [h.withTeardown_eq hs, hxs] at hplay
    exact hplay
  · cases ha

theorem aided {d₀ : Deletion κ} (hfresh : d₀.stage = .looking) :
    Course.Aided errand? fun d => ∃ es, Chronicle d₀ es d where
  step := by
    rintro g d es' d' ⟨es, h⟩ hs
    exact ⟨_, chronicle_move? (m := .look g) hfresh h hs⟩
  assist := by
    rintro d es' d' ⟨es, h⟩ hs
    obtain ⟨xs, hxs⟩ := exists_play_assist? (h.coherent hfresh) hs
    refine ⟨?_, xs, hxs⟩
    have hall : ∃ es, Chronicle d₀ es (play (recorded errand?) ([], d) xs).2 := by
      refine play_induction (P := fun j : List Event × Deletion κ => ∃ es, Chronicle d₀ es j.2)
        ?_ ⟨es, h⟩ xs
      rintro i j k ⟨es, hj⟩ hk
      obtain ⟨more, hm, _⟩ := recorded_eq_some_iff.mp hk
      exact ⟨_, chronicle_move? (m := .errand i) hfresh hj hm⟩
    rw [hxs] at hall
    exact hall

/-- The usual course of a deletion is a free one, in which nobody dies. -/
theorem reaches_conduct (hfresh : d.stage = .looking) (site : Site) :
    Course.Reaches errand? ⟨d, site⟩ (d.conduct site) :=
  (aided hfresh).reaches_run ⟨[], .looking⟩

/-- What a deletion does at a site is what it does by looks, whatever there is to be
seen, and by errands of the workers. -/
theorem conduct_eq_play (hfresh : d.stage = .looking) (site : Site) :
    ∃ ms, (d.conduct site).director = (play (recorded move?) ([], d) ms).2 ∧
      (d.conduct site).site.history.directed =
        site.history.directed ++ (play (recorded move?) ([], d) ms).1 := by
  obtain ⟨ns, _, hns⟩ := reaches_conduct hfresh site
  rw [← hns]
  refine Course.directed_play (c := ⟨d, site⟩) ?_ ?_ ns
  · exact fun g _ => ⟨.look g, rfl⟩
  · exact fun i _ => ⟨.errand i, rfl⟩

end Deletion

end Decommission
