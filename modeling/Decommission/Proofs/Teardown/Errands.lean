import Decommission.Proofs.Course.Free
import Decommission.Proofs.Teardown.Step

/-!
# Errands one after the other

When the coordinator has to wait, the workers do all that is left for them, one
worker after the other.  That is one of the orders in which they may do their
errands, so whatever holds for every order holds of the usual course of a
teardown (`Teardown.conduct_eq_play`).
-/

namespace Decommission

namespace Worker

variable {κ : Type} [Cluster κ] {w : Worker} {k : κ} {turn : WorkerTurn κ}

theorem run_of_step?_eq_none (h : w.step? k = none) : w.run k = ⟨w, k, [], []⟩ := by
  rw [run]
  split
  · rfl
  · rename_i t ht
    rw [h] at ht
    cases ht

theorem run_of_step?_eq_some (h : w.step? k = some turn) :
    w.run k = { turn.worker.run turn.cluster with
      events := turn.events ++ (turn.worker.run turn.cluster).events
      failures := turn.failures ++ (turn.worker.run turn.cluster).failures } := by
  rw [run]
  split
  · rename_i hn
    rw [h] at hn
    cases hn
  · rename_i t ht
    rw [h] at ht
    cases ht
    rfl

end Worker

namespace Teardown

variable {κ : Type} [Cluster κ]

/-- The worker at a position does its next errand, the position coming first. -/
def errand? (i : Nat) (t : Teardown κ) : Option (List Event × Teardown κ) := t.workerStep? i

/-- The teardown after work that changed the workers. -/
def worked (t : Teardown κ) (ws : List Worker) (k : κ) (fs : List TeardownFailure) :
    Teardown κ :=
  { t with workers := ws, cluster := k, failures := t.failures ++ fs }

/-- A worker does all its errands, one after the other. -/
theorem exists_play_run (w : Worker) (k : κ) {t : Teardown κ} {i : Nat}
    (hw : t.workers[i]? = some w) (hk : t.cluster = k) :
    ∃ xs, play (recorded errand?) ([], t) xs = ((w.run k).events,
      t.worked (t.workers.set i (w.run k).worker) (w.run k).cluster (w.run k).failures) := by
  induction w, k using Worker.run.induct generalizing t with
  | case1 w k hstep =>
      rw [Worker.run_of_step?_eq_none hstep]
      refine ⟨[], ?_⟩
      have hset : t.workers.set i w = t.workers := by
        obtain ⟨hlt, hget⟩ := List.getElem?_eq_some_iff.mp hw
        rw [← hget, List.set_getElem_self]
      rw [play_nil, worked, hset, ← hk, List.append_nil]
  | case2 w k turn hstep ih =>
      subst hk
      have hfirst : play (recorded errand?) ([], t) [i] = (turn.events,
          t.worked (t.workers.set i turn.worker) turn.cluster turn.failures) := by
        show play _ _ ([] ++ [i]) = _
        exact play_concat (recorded_eq_some_iff.mpr ⟨turn.events,
          workerStep?_eq_some_iff.mpr ⟨w, turn, hw, hstep, rfl, rfl⟩, rfl⟩)
      have hlt := (List.getElem?_eq_some_iff.mp hw).1
      obtain ⟨xs, hxs⟩ := @ih
        (t.worked (t.workers.set i turn.worker) turn.cluster turn.failures)
        (List.getElem?_set_self hlt) rfl
      refine ⟨[i] ++ xs, (play_recorded_append hfirst hxs).trans ?_⟩
      rw [Worker.run_of_step?_eq_some hstep]
      simp only [worked, List.set_set, List.append_assoc]

/-- The workers from a certain one on do all their errands. -/
theorem exists_play_runAll (ws : List Worker) {t : Teardown κ} {pre : List Worker}
    (hws : t.workers = pre ++ ws) :
    ∃ xs, play (recorded errand?) ([], t) xs = ((runAll t.cluster ws).events,
      t.worked (pre ++ (runAll t.cluster ws).workers) (runAll t.cluster ws).cluster
        (runAll t.cluster ws).failures) := by
  induction ws generalizing t pre with
  | nil =>
      refine ⟨[], ?_⟩
      rw [play_nil, worked]
      simp only [runAll, List.append_nil]
      rw [← List.append_nil pre, ← hws]
  | cons w ws ih =>
      have hw : t.workers[pre.length]? = some w := by
        rw [hws, List.getElem?_append_right (Nat.le_refl _), Nat.sub_self, List.getElem?_cons_zero]
      obtain ⟨xs, hxs⟩ := exists_play_run w t.cluster hw rfl
      have hrest : (t.worked (t.workers.set pre.length (w.run t.cluster).worker)
          (w.run t.cluster).cluster (w.run t.cluster).failures).workers =
            (pre ++ [(w.run t.cluster).worker]) ++ ws := by
        show t.workers.set pre.length _ = _
        rw [hws, List.set_append_right _ _ (Nat.le_refl _), Nat.sub_self, List.set_cons_zero,
          List.append_assoc, List.singleton_append]
      obtain ⟨ys, hys⟩ := ih hrest
      refine ⟨xs ++ ys, (play_recorded_append hxs hys).trans ?_⟩
      simp only [runAll, worked, List.append_assoc, List.singleton_append]

theorem exists_play_assist? {t t' : Teardown κ} {es : List Event} (h : t.assist? = some (es, t')) :
    ∃ xs, play (recorded errand?) ([], t) xs = (es, t') := by
  rw [assist?] at h
  split at h
  · cases h
  · cases h
    exact exists_play_runAll t.workers (List.nil_append _).symm

theorem aided : Course.Aided (σ := Teardown κ) errand? fun _ => True where
  step _ _ := trivial
  assist _ h := ⟨trivial, exists_play_assist? h⟩

/-- What a teardown does at a site is what it does by moves of the coordinator and of
the workers in some order. -/
theorem conduct_eq_play (t : Teardown κ) (site : Site) :
    ∃ ms, (t.conduct site).director = (play (recorded move?) ([], t) ms).2 ∧
      (t.conduct site).site.history.directed =
        site.history.directed ++ (play (recorded move?) ([], t) ms).1 := by
  obtain ⟨ns, _, hns⟩ := aided.reaches_run (c := ⟨t, site⟩) trivial
  rw [conduct, ← hns]
  refine Course.directed_play (c := ⟨t, site⟩) ?_ ?_ ns
  · exact fun g _ => ⟨.coordinate g.now, rfl⟩
  · exact fun i _ => ⟨.errand i, rfl⟩

end Teardown

end Decommission
