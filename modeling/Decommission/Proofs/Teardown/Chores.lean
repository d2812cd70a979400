import Mathlib.Data.List.Perm.Basic
import Decommission.Proofs.Teardown.Ending
import Decommission.Proofs.Teardown.Ledger

/-!
# The chores of a teardown

What a teardown still has to do for a namespace is a chore: to look at it again, or to
let its worker go on.  A chore knows nothing of the other chores.  What comes of its next
turn depends on the plan and on the cluster only (`Chore.turn`).

A move of a teardown is one turn of one of its chores, or nothing but a change of place
of the coordinator (`Teardown.orderly_move?`).  So a teardown can be seen as a bag of chores
that share a cluster and add to the same failures.  What every turn preserves holds in the
end, when no chore is left (`Teardown.inevitable_of_turns`).
-/

namespace Decommission

/-- What the chores of a teardown have in common. -/
structure Plan where
  policy : RetryPolicy
  systemSpace : String
  targets : List Target

/-- The targets of a namespace. -/
def Plan.targetsOf (plan : Plan) (space : String) : List Target :=
  if space = plan.systemSpace then plan.targets else []

/-- What is left to do for a namespace. -/
inductive Chore
  /-- To look whether pods are running in it. -/
  | look (space : String) (failed : Nat)
  | work (w : Worker)

namespace Chore

def space : Chore → String
  | look space _ => space
  | work w => w.space

/-- What comes of a turn of a chore. -/
structure Turn (κ : Type) where
  /-- What is left of the chore. -/
  rest : Option Chore
  cluster : κ
  failures : List TeardownFailure

/-- What fails of a worker in the end. -/
def epitaph (w : Worker) : List TeardownFailure :=
  if w.died then [⟨w.space, .worker, Teardown.deathReason⟩] else []

theorem epitaph_eq_nil {w : Worker} (h : w.died = false) : epitaph w = [] := by
  rw [epitaph, h]
  rfl

variable {κ : Type} [Cluster κ]

/-- The next turn of a chore. -/
def turn (plan : Plan) : Chore → κ → Turn κ
  | look space failed, k =>
      let r := Cluster.listPods space k
      if Teardown.isFree r.answer then
        ⟨some (work (.start space (plan.targetsOf space))), r.cluster, []⟩
      else if failed + 1 < plan.policy.attempts then ⟨some (look space (failed + 1)), r.cluster, []⟩
      else ⟨none, r.cluster, Teardown.givenUp space r.answer⟩
  | work w, k =>
      match w.step? k with
      | some turn => ⟨some (work turn.worker), turn.cluster, turn.failures⟩
      | none => ⟨none, k, epitaph w⟩

section Turns

variable {plan : Plan} {space : String} {failed : Nat} {w : Worker} {k : κ}

theorem turn_of_isFree (h : Teardown.isFree (Cluster.listPods space k).answer) :
    (look space failed).turn plan k = ⟨some (work (.start space (plan.targetsOf space))),
      (Cluster.listPods space k).cluster, []⟩ := if_pos h

theorem turn_of_lt_attempts (h : ¬ Teardown.isFree (Cluster.listPods space k).answer)
    (hlt : failed + 1 < plan.policy.attempts) : (look space failed).turn plan k =
      ⟨some (look space (failed + 1)), (Cluster.listPods space k).cluster, []⟩ :=
  (if_neg h).trans (if_pos hlt)

theorem turn_of_not_lt_attempts (h : ¬ Teardown.isFree (Cluster.listPods space k).answer)
    (hlt : ¬ failed + 1 < plan.policy.attempts) : (look space failed).turn plan k =
      ⟨none, (Cluster.listPods space k).cluster,
        Teardown.givenUp space (Cluster.listPods space k).answer⟩ :=
  (if_neg h).trans (if_neg hlt)

theorem cluster_turn_look : ((look space failed).turn plan k).cluster =
    (Cluster.listPods space k).cluster := by
  rw [Chore.turn]
  split
  · rfl
  · split
    · rfl
    · rfl

theorem turn_of_step?_eq_some {turn : WorkerTurn κ} (h : w.step? k = some turn) :
    (work w).turn plan k = ⟨some (work turn.worker), turn.cluster, turn.failures⟩ := by
  rw [Chore.turn, h]

theorem turn_of_isOver (h : w.isOver) : (work w).turn plan k = ⟨none, k, epitaph w⟩ := by
  rw [Chore.turn, Worker.step?, List.isEmpty_iff.mp h]

/-- The turn of a worker whose next errand is a deed. -/
def workTurn (w : Worker) (d : Deed) (k : κ) : Turn κ :=
  ⟨some (work (w.after d)), k, d.failures w.space⟩

theorem turn_of_did {turn : WorkerTurn κ} {d : Deed} (h : w.step? k = some turn)
    (hdid : w.Did d turn) : (work w).turn plan k = workTurn w d turn.cluster := by
  rw [turn_of_step?_eq_some h, hdid.worker, hdid.failures, workTurn]

theorem turn_fetch {t : Target} {rest : List Errand} (he : w.errands = .fetch t :: rest) :
    (work w).turn plan k =
      workTurn w (.fetched t (w.fetchFrom t k).answer) (w.fetchFrom t k).cluster := by
  have hcluster : (w.doFetch t rest k).cluster = (w.fetchFrom t k).cluster := by
    rw [Worker.doFetch]
    split
    · rfl
    · rfl
  rw [turn_of_did (by rw [Worker.step?, he]) (Worker.did_doFetch he), hcluster]

theorem turn_clear {kind : Kind} {r : Resource} {rest : List Errand}
    (he : w.errands = .clear kind r :: rest) :
    (work w).turn plan k = workTurn w (.cleared kind r (Cluster.updateResource kind r k).answer)
      (Cluster.updateResource kind r k).cluster := by
  have hcluster : (w.doClear kind r rest k).cluster =
      (Cluster.updateResource kind r k).cluster := by
    rw [Worker.doClear]
    split
    · rfl
    · rfl
  rw [turn_of_did (by rw [Worker.step?, he]) (Worker.did_doClear he), hcluster]

theorem turn_delete {rest : List Errand} (he : w.errands = .delete :: rest) :
    (work w).turn plan k = workTurn w (.deleted (Cluster.deleteSpace w.space k).answer)
      (Cluster.deleteSpace w.space k).cluster := by
  have hcluster : (w.doDelete rest k).cluster = (Cluster.deleteSpace w.space k).cluster := by
    rw [Worker.doDelete]
    dsimp only
    split
    · rfl
    · rfl
    · rfl
    · rfl
  rw [turn_of_did (by rw [Worker.step?, he]) (Worker.did_doDelete he), hcluster]

end Turns

end Chore

namespace Teardown

variable {κ : Type} {t t' : Teardown κ} {now : Nat} {es : List Event}

def plan (t : Teardown κ) : Plan := ⟨t.policy, t.systemSpace, t.targets⟩

/-- Looks at namespaces, the first of which could not be handed over a number of times. -/
def looks (failed : Nat) : List String → List Chore
  | [] => []
  | space :: rest => .look space failed :: rest.map (.look · 0)

/-- The namespaces that are still to be looked at. -/
def unlooked (t : Teardown κ) : List Chore :=
  match t.stage with
  | .checking failed rest => looks failed rest
  | .pausing _ failed rest => looks failed rest
  | _ => []

/-- The workers the coordinator has not waited for. -/
def awaited (t : Teardown κ) : List Worker :=
  match t.stage with
  | .joining next => t.workers.drop next
  | .ended _ => []
  | _ => t.workers

/-- The workers the coordinator has waited for. -/
def awaitedBefore (t : Teardown κ) : List Worker :=
  match t.stage with
  | .joining next => t.workers.take next
  | .ended _ => t.workers
  | _ => []

/-- What is left to do. -/
def agenda (t : Teardown κ) : List Chore := t.unlooked ++ t.awaited.map .work

/-- The result that failures make. -/
def verdict (fs : List TeardownFailure) : Except TeardownError Unit :=
  if fs.isEmpty then .ok () else .error (.ofFailures fs)

/-- Who has been waited for is over, and the result is that of the failures. -/
structure Orderly (t : Teardown κ) : Prop where
  finished : ∀ w ∈ t.awaitedBefore, w.isOver
  verdict : ∀ r, t.result? = some r → r = verdict t.failures

theorem looks_zero (rest : List String) : looks 0 rest = rest.map (.look · 0) := by
  cases rest with
  | nil => rfl
  | cons space rest => rfl

theorem agenda_eq_nil_of_result? {r : Except TeardownError Unit} (h : t.result? = some r) :
    t.agenda = [] := by
  rw [result?] at h
  split at h
  · rename_i hs
    rw [agenda, unlooked, awaited, hs]
    rfl
  · cases h

theorem orderly_start (policy : RetryPolicy) (systemSpace : String) (targets : List Target)
    (spaces : List String) (k : κ) : (start policy systemSpace targets spaces k).Orderly :=
  ⟨fun _ h => absurd h List.not_mem_nil, fun _ h => by cases h⟩

theorem agenda_start (policy : RetryPolicy) (systemSpace : String) (targets : List Target)
    (spaces : List String) (k : κ) :
    (start policy systemSpace targets spaces k).agenda = spaces.map (.look · 0) :=
  (List.append_nil _).trans (looks_zero spaces)

/-- A worker is waited for only when it is over. -/
theorem of_join_eq_some {next : Nat} {w : Worker} (h : t.join next w = some (es, t')) :
    w.isOver ∧ t' = { t with
      stage := .joining (next + 1)
      failures := t.failures ++ Chore.epitaph w } := by
  rw [join] at h
  split at h
  · rename_i hover
    refine ⟨hover, ?_⟩
    rw [Chore.epitaph]
    cases hd : w.died with
    | true =>
        rw [hd] at h
        cases h
        rfl
    | false =>
        rw [hd] at h
        cases h
        rw [if_neg Bool.false_ne_true, List.append_nil]
  · cases h

theorem conclude_snd : t.conclude.2 = { t with stage := .ended (verdict t.failures) } := by
  rw [conclude, verdict]
  split
  · rfl
  · rfl

variable [Cluster κ]

/-- What a move does to the chores. -/
inductive Moved (t t' : Teardown κ) : Prop
  | inPlace : t'.agenda = t.agenda → t'.failures = t.failures → t'.cluster = t.cluster → Moved t t'
  | turn (chore : Chore) (others : List Chore) : t.agenda.Perm (chore :: others) →
      t'.agenda.Perm ((chore.turn t.plan t.cluster).rest.toList ++ others) →
      t'.failures = t.failures ++ (chore.turn t.plan t.cluster).failures →
      t'.cluster = (chore.turn t.plan t.cluster).cluster → Moved t t'

theorem moved_check {failed : Nat} {space : String} {rest : List String}
    (hs : t.stage = .checking failed (space :: rest)) :
    Moved t (t.check now failed space rest).2 := by
  have hagenda : t.agenda = .look space failed :: (rest.map (.look · 0) ++ t.workers.map .work) := by
    rw [agenda, unlooked, awaited, hs]
    rfl
  rw [check_snd]
  by_cases hfree : isFree (t.listing space).answer
  · rw [if_pos hfree]
    have hturn : (Chore.look space failed).turn t.plan t.cluster = _ := Chore.turn_of_isFree hfree
    refine .turn _ _ (.of_eq hagenda) ?_ ?_ ?_
    · rw [hturn, agenda, unlooked, awaited]
      dsimp only [handOver]
      rw [looks_zero, List.map_append, ← List.append_assoc]
      exact List.perm_append_comm
    · rw [hturn]
      exact (List.append_nil _).symm
    · rw [hturn]
      rfl
  rw [if_neg hfree]
  by_cases hlt : failed + 1 < t.plan.policy.attempts
  · have hsome : t.policy.next? (failed + 1) = some (t.policy.delayAfter (failed + 1)) :=
      RetryPolicy.next?_eq_some_iff.mpr ⟨hlt, rfl⟩
    rw [hsome]
    have hturn : (Chore.look space failed).turn t.plan t.cluster = _ :=
      Chore.turn_of_lt_attempts hfree hlt
    refine .turn _ _ (.of_eq hagenda) ?_ ?_ ?_
    · rw [hturn]
      exact .refl _
    · rw [hturn]
      exact (List.append_nil _).symm
    · rw [hturn]
      rfl
  · have hnone : t.policy.next? (failed + 1) = none := by
      refine Option.eq_none_iff_forall_ne_some.mpr fun wait hn => hlt ?_
      exact (RetryPolicy.next?_eq_some_iff.mp hn).1
    rw [hnone]
    have hturn : (Chore.look space failed).turn t.plan t.cluster = _ :=
      Chore.turn_of_not_lt_attempts hfree hlt
    refine .turn _ _ (.of_eq hagenda) ?_ ?_ ?_
    · rw [hturn, agenda, unlooked, awaited]
      dsimp only
      rw [looks_zero]
      exact .refl _
    · rw [hturn]
      rfl
    · rw [hturn]
      rfl

/-- A look at a namespace leaves the plan alone, and nobody has been waited for. -/
theorem plan_check (now failed : Nat) (space : String) (rest : List String) :
    (t.check now failed space rest).2.plan = t.plan ∧
      (t.check now failed space rest).2.awaitedBefore = [] ∧
      (t.check now failed space rest).2.result? = none := by
  rw [check_snd]
  split
  · exact ⟨rfl, rfl, rfl⟩
  · split
    · exact ⟨rfl, rfl, rfl⟩
    · exact ⟨rfl, rfl, rfl⟩

/-- The end of a worker that is waited for. -/
theorem moved_join {next : Nat} {w : Worker} (hs : t.stage = .joining next)
    (hw : t.workers[next]? = some w) (hover : w.isOver) :
    Moved t { t with
      stage := .joining (next + 1)
      failures := t.failures ++ Chore.epitaph w } := by
  obtain ⟨hlt, hget⟩ := List.getElem?_eq_some_iff.mp hw
  have hturn : (Chore.work w).turn t.plan t.cluster = _ := Chore.turn_of_isOver hover
  refine .turn (.work w) ((t.workers.drop (next + 1)).map .work) ?_ ?_ ?_ ?_
  · rw [agenda, unlooked, awaited, hs]
    dsimp only
    rw [List.drop_eq_getElem_cons hlt, hget]
    exact .refl _
  · rw [hturn]
    exact .refl _
  · rw [hturn]
  · rw [hturn]

theorem moved_of_awaited {i : Nat} {w : Worker} {turn : WorkerTurn κ}
    (hstep : w.step? t.cluster = some turn) (hw : t.awaited[i]? = some w)
    (hunlooked : t'.unlooked = t.unlooked) (hawaited : t'.awaited = t.awaited.set i turn.worker)
    (hfailures : t'.failures = t.failures ++ turn.failures) (hcluster : t'.cluster = turn.cluster) :
    Moved t t' := by
  have hturn : (Chore.work w).turn t.plan t.cluster = _ := Chore.turn_of_step?_eq_some hstep
  obtain ⟨hlt, rfl⟩ := List.getElem?_eq_some_iff.mp hw
  have hbefore := (List.getElem_cons_eraseIdx_perm hlt).symm
  have hafter := List.set_perm_cons_eraseIdx hlt turn.worker
  refine .turn (.work t.awaited[i]) (t.unlooked ++ (t.awaited.eraseIdx i).map .work) ?_ ?_ ?_ ?_
  · exact ((hbefore.map _).append_left _).trans List.perm_middle
  · rw [hturn, agenda, hunlooked, hawaited]
    exact ((hafter.map _).append_left _).trans List.perm_middle
  · rw [hturn, hfailures]
  · rw [hturn, hcluster]

/-- An errand is one of a worker that has not been waited for. -/
theorem moved_workerStep? (ht : t.Orderly) {i : Nat} (h : t.workerStep? i = some (es, t')) :
    t'.plan = t.plan ∧ t'.Orderly ∧ Moved t t' := by
  obtain ⟨w, turn, hw, hstep, _, rfl⟩ := workerStep?_eq_some_iff.mp h
  have hbusy : ¬ w.isOver := by
    intro hover
    rw [Worker.step?, List.isEmpty_iff.mp hover] at hstep
    cases hstep
  cases hs : t.stage with
  | checking | pausing =>
      have hawaited : t.awaited = t.workers := by rw [awaited, hs]
      refine ⟨rfl, ⟨fun _ hm => absurd hm List.not_mem_nil, fun r hr => by cases hr⟩,
        moved_of_awaited (i := i) hstep (hawaited ▸ hw) ?_ ?_ rfl rfl⟩
      · rw [unlooked, unlooked, hs]
      · rw [hawaited, awaited]
  | joining next =>
      have hbefore : t.awaitedBefore = t.workers.take next := by rw [awaitedBefore, hs]
      have hawaited : t.awaited = t.workers.drop next := by rw [awaited, hs]
      have hle : next ≤ i := by
        refine Nat.le_of_not_lt fun hlt => hbusy (ht.finished w ?_)
        rw [hbefore]
        exact List.mem_of_getElem? ((List.getElem?_take_of_lt hlt).trans hw)
      refine ⟨rfl, ⟨fun x hx => ht.finished x ?_, fun r hr => by cases hr⟩,
        moved_of_awaited (i := i - next) hstep ?_ ?_ ?_ rfl rfl⟩
      · rw [awaitedBefore] at hx
        dsimp only at hx
        rw [List.take_set_of_le hle] at hx
        rwa [hbefore]
      · rw [hawaited, List.getElem?_drop, Nat.add_sub_cancel' hle]
        exact hw
      · rw [unlooked, unlooked, hs]
      · rw [hawaited, awaited]
        exact List.drop_set.trans (if_neg (Nat.not_lt.mpr hle))
  | ended r =>
      refine absurd (ht.finished w ?_) hbusy
      rw [awaitedBefore, hs]
      exact List.mem_of_getElem? hw

/-- A move is a turn of a chore, or one in place. -/
theorem orderly_move? (ht : t.Orderly) {m : Move} (h : t.move? m = some (es, t')) :
    t'.plan = t.plan ∧ t'.Orderly ∧ Moved t t' := by
  cases m with
  | errand i => exact moved_workerStep? ht h
  | coordinate now =>
      rw [move?, step?] at h
      split at h
      · rename_i failed hs
        cases h
        refine ⟨rfl, ⟨fun w hw => ?_, fun r hr => by cases hr⟩, .inPlace ?_ rfl rfl⟩
        · cases hw
        · rw [agenda, unlooked, awaited, agenda, unlooked, awaited, hs]
          rfl
      · rename_i failed space rest hs
        obtain rfl : t' = (t.check now failed space rest).2 := by rw [Option.some.inj h]
        obtain ⟨hplan, hbefore, hresult⟩ := t.plan_check now failed space rest
        refine ⟨hplan, ⟨fun w hw => ?_, fun r hr => ?_⟩, moved_check hs⟩
        · rw [hbefore] at hw
          cases hw
        · rw [hresult] at hr
          cases hr
      · rename_i due failed rest hs
        split at h
        · cases h
          refine ⟨rfl, ⟨fun w hw => ?_, fun r hr => by cases hr⟩, .inPlace ?_ rfl rfl⟩
          · cases hw
          · rw [agenda, unlooked, awaited, agenda, unlooked, awaited, hs]
        · cases h
      · rename_i next hs
        split at h
        · rename_i w hw
          obtain ⟨hover, rfl⟩ := of_join_eq_some h
          refine ⟨rfl, ⟨fun x hx => ?_, fun r hr => by cases hr⟩, moved_join hs hw hover⟩
          rw [awaitedBefore] at hx
          dsimp only at hx
          rw [List.take_add_one, hw] at hx
          rcases List.mem_append.mp hx with hm | hm
          · exact ht.finished x (by rwa [awaitedBefore, hs])
          · rw [List.mem_singleton.mp hm]
            exact hover
        · rename_i hw
          have hlength := List.getElem?_eq_none_iff.mp hw
          obtain rfl : t' = { t with stage := .ended (verdict t.failures) } := by
            rw [← conclude_snd, Option.some.inj h]
          refine ⟨rfl, ⟨fun x hx => ht.finished x ?_, fun r hr => ?_⟩, .inPlace ?_ rfl rfl⟩
          · rw [awaitedBefore, hs]
            dsimp only
            rw [List.take_of_length_le hlength]
            exact hx
          · cases hr
            rfl
          · rw [agenda, unlooked, awaited, agenda, unlooked, awaited, hs]
            dsimp only
            rw [List.drop_of_length_le hlength]
      · cases h

/-- A teardown comes to the result that its failures make.  What holds of the chores, the
failures and the cluster at the beginning, and is preserved by every turn of a chore, holds
then, and no chore is left. -/
theorem inevitable_of_turns {F : List Chore → List TeardownFailure → κ → Prop}
    {policy : RetryPolicy} {systemSpace : String} {targets : List Target} {spaces : List String}
    {k : κ} (perm : ∀ {cs cs' fs k}, F cs fs k → cs.Perm cs' → F cs' fs k)
    (turn : ∀ {c : Chore} {cs fs k}, F (c :: cs) fs k →
      F ((c.turn ⟨policy, systemSpace, targets⟩ k).rest.toList ++ cs)
        (fs ++ (c.turn ⟨policy, systemSpace, targets⟩ k).failures)
        (c.turn ⟨policy, systemSpace, targets⟩ k).cluster)
    (h : F (spaces.map (.look · 0)) [] k) :
    Inevitable (recorded move?) (fun j => j.2.result? = some (Teardown.verdict j.2.failures) ∧
      F [] j.2.failures j.2.cluster)
      (([] : List Event), start policy systemSpace targets spaces k) := by
  have hend := inevitable_result (f := Prod.snd) recorded_watched
    (Q := fun j : List Event × Teardown κ => j.2.Orderly ∧
      j.2.plan = ⟨policy, systemSpace, targets⟩ ∧ F j.2.agenda j.2.failures j.2.cluster) ?_
    (s := ([], start policy systemSpace targets spaces k))
    ⟨orderly_start .., rfl, (agenda_start policy systemSpace targets spaces k).symm ▸ h⟩
  · refine hend.mono ?_
    rintro j ⟨⟨r, hr⟩, horderly, _, hf⟩
    rw [agenda_eq_nil_of_result? hr] at hf
    exact ⟨horderly.verdict r hr ▸ hr, hf⟩
  · rintro m j j' ⟨horderly, hplan, hf⟩ hm
    obtain ⟨es, hm, _⟩ := recorded_eq_some_iff.mp hm
    obtain ⟨hsame, horderly', hmoved⟩ := orderly_move? horderly hm
    refine ⟨horderly', hsame.trans hplan, ?_⟩
    cases hmoved with
    | inPlace hagenda hfailures hcluster =>
        rw [hagenda, hfailures, hcluster]
        exact hf
    | turn c cs hbefore hafter hfailures hcluster =>
        rw [hplan] at hafter hfailures hcluster
        rw [hfailures, hcluster]
        exact perm (turn (perm hf hbefore)) hafter.symm

end Teardown

end Decommission
