import Decommission.Number.Total
import Decommission.Proofs.Inevitable
import Decommission.Proofs.Teardown.Step

/-!
# Teardowns come to an end

Whatever the cluster answers, and in whatever order the coordinator and the workers
move, a teardown comes to a result (`Teardown.inevitable_result`).  There is no bound
on the moves, since nobody knows how many resources a cluster will show.  But every
move of the coordinator brings it nearer to its end, and an errand leaves the
coordinator alone and fewer fetches or fewer errands to do.
-/

namespace Decommission

namespace Teardown

variable {κ : Type}

/-- A bound on the moves of the coordinator still to come.  For each namespace it may
look and wait as often as the policy says, and there may be one more worker to wait
for. -/
def coordination (t : Teardown κ) : Nat :=
  match t.stage with
  | .checking failed rest =>
      rest.length * (2 * t.policy.attempts + 2) + 2 * (t.policy.attempts - failed)
        + t.workers.length + 3
  | .pausing _ failed rest =>
      rest.length * (2 * t.policy.attempts + 2) + 2 * (t.policy.attempts - failed)
        + t.workers.length + 4
  | .joining next => t.workers.length - next + 1
  | .ended _ => 0

/-- What is left to do: for the coordinator, then fetches, then errands. -/
def toGo (t : Teardown κ) : Nat × Nat × Nat :=
  (t.coordination, total Worker.fetches t.workers,
    total (fun w => w.errands.length) t.workers)

/-- The order in which a teardown descends. -/
def Descends : Nat × Nat × Nat → Nat × Nat × Nat → Prop :=
  Prod.Lex (· < ·) (Prod.Lex (· < ·) (· < ·))

theorem wellFounded_descends : WellFounded Descends :=
  (Prod.lex ⟨(· < ·), Nat.lt_wfRel.wf⟩
    (Prod.lex ⟨(· < ·), Nat.lt_wfRel.wf⟩ ⟨(· < ·), Nat.lt_wfRel.wf⟩)).wf

variable [Cluster κ] {t t' : Teardown κ} {now : Nat} {es : List Event}

/-- Where the coordinator waits, its policy allows another look. -/
theorem lt_attempts_of_check {n : Nat} {space : String} {rest : List String} {due failed : Nat}
    {rest' : List String} (h : (t.check now n space rest).2.stage = .pausing due failed rest') :
    failed < t.policy.attempts := by
  rw [check_snd] at h
  split at h
  · cases h
  · split at h
    · rename_i wait hn
      cases h
      exact (RetryPolicy.next?_eq_some_iff.mp hn).1
    · cases h

/-- The coordinator comes nearer to its end. -/
theorem coordination_step? (h : t.step? now = some (es, t')) :
    t'.coordination < t.coordination := by
  -- What a namespace costs is paid for when it is left behind.
  have hcost : ∀ n c, (n + 1) * c = n * c + c := fun n c => Nat.succ_mul n c
  cases step?_cases h with
  | drained failed hs =>
      simp only [coordination, hs, List.length_nil]
      omega
  | handed failed space rest hs =>
      simp only [coordination, hs, handOver, listed, List.length_append, List.length_cons,
        List.length_nil, hcost]
      omega
  | paused failed due space rest notes hs =>
      rw [step?, hs] at h
      have hlt : failed + 1 < t.policy.attempts :=
        lt_attempts_of_check (congrArg (fun x => x.2.stage) (Option.some.inj h))
      simp only [coordination, hs, listed, List.length_cons]
      omega
  | skipped failed space rest pods notes hs =>
      simp only [coordination, hs, listed, List.length_cons, hcost]
      omega
  | unreachable failed space rest e hs =>
      simp only [coordination, hs, listed, List.length_cons, hcost]
      omega
  | resumed due failed rest hs =>
      simp only [coordination, hs]
      omega
  | joined next w hs hw =>
      have hlt := (List.getElem?_eq_some_iff.mp hw).1
      simp only [coordination, hs]
      omega
  | buried next w hs hw =>
      have hlt := (List.getElem?_eq_some_iff.mp hw).1
      simp only [coordination, hs]
      omega
  | concluded next hs =>
      rw [conclude]
      split
      · simp only [coordination, hs]
        omega
      · simp only [coordination, hs]
        omega

/-- Every move descends. -/
theorem descends_move? {m : Move} (h : t.move? m = some (es, t')) :
    Descends t'.toGo t.toGo := by
  cases m with
  | coordinate now => exact .left _ _ (coordination_step? h)
  | errand i =>
      obtain ⟨w, turn, hw, hstep, _, rfl⟩ := workerStep?_eq_some_iff.mp h
      have hsame : coordination { t with
          workers := t.workers.set i turn.worker
          cluster := turn.cluster
          failures := t.failures ++ turn.failures } = t.coordination := by
        simp only [coordination, List.length_set]
      have hfetches := total_set Worker.fetches hw turn.worker
      have herrands := total_set (fun w : Worker => w.errands.length) hw turn.worker
      rw [toGo, toGo, hsame]
      refine .right _ ?_
      rcases Worker.step?_decreases hstep with hlt | ⟨heq, hlt⟩
      · exact .left _ _ (by dsimp only; omega)
      · rw [show total Worker.fetches (t.workers.set i turn.worker) =
          total Worker.fetches t.workers by omega]
        exact .right _ (by dsimp only at herrands ⊢; omega)

/-- A teardown comes to a result, and what its moves preserve holds then.  Somebody may
be watching it. -/
theorem inevitable_result {σ : Type} {step? : Move → σ → Option σ} {f : σ → Teardown κ}
    (watched : ∀ m s, (step? m s).map f = ((f s).move? m).map Prod.snd) {Q : σ → Prop}
    (preserved : ∀ m s s', Q s → step? m s = some s' → Q s') {s : σ} (h : Q s) :
    Inevitable step? (fun s => (∃ r, (f s).result? = some r) ∧ Q s) s := by
  refine inevitable_of_wellFounded (InvImage.wf (fun s => (f s).toGo) wellFounded_descends)
    ?_ preserved ?_ h
  · intro m s s' hs
    have hw := watched m s
    rw [hs] at hw
    obtain ⟨⟨es, t⟩, hm, ht⟩ := Option.map_eq_some_iff.mp hw.symm
    cases ht
    exact descends_move? hm
  · intro s _ hs
    have hnone : (f s).result? = none := by
      cases hr : (f s).result? with
      | none => rfl
      | some r => exact absurd ⟨r, hr⟩ hs
    obtain ⟨m, es, t, hm⟩ := exists_move? hnone
    have hw := watched m s
    rw [hm] at hw
    obtain ⟨s', hs', _⟩ := Option.map_eq_some_iff.mp hw
    exact ⟨m, s', hs'⟩

theorem recorded_watched (m : Move) (j : List Event × Teardown κ) :
    (recorded move? m j).map Prod.snd = (j.2.move? m).map Prod.snd := by
  rw [recorded, Option.map_map]
  rfl

end Teardown

end Decommission
