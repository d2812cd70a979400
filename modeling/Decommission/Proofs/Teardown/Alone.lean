import Decommission.Proofs.Teardown.Chores
import Decommission.Proofs.Teardown.Errands

/-!
# A chore left alone

`Chore.Alone` carries a chore through all its turns while nobody else touches the
cluster.  It comes to an end (`Chore.exists_alone`).  What fails on the way is of its
namespace, and fails in the order of the steps (`Chore.Alone.inStepOrder`): the targets
one after the other, then the deletion or the death of the worker.
-/

namespace Decommission

namespace Chore

variable {κ : Type} [Cluster κ] {plan : Plan} {c : Chore} {w : Worker} {k k' : κ}
  {fs : List TeardownFailure} {space : String}

/-- What fails and what is left when a chore has all its turns one after the other. -/
inductive Alone (plan : Plan) : Option Chore → κ → List TeardownFailure → κ → Prop
  | done {k : κ} : Alone plan none k [] k
  | turn {c : Chore} {k k' : κ} {fs : List TeardownFailure} :
      Alone plan (c.turn plan k).rest (c.turn plan k).cluster fs k' →
      Alone plan (some c) k ((c.turn plan k).failures ++ fs) k'

/-! ## It comes to an end -/

/-- Whether a chore comes to an end when it is left alone. -/
def Ends (plan : Plan) (c : Option Chore) (k : κ) : Prop := ∃ fs k', Alone plan c k fs k'

theorem ends_of_turn (h : Ends plan (c.turn plan k).rest (c.turn plan k).cluster) :
    Ends plan (some c) k := by
  obtain ⟨fs, k', h⟩ := h
  exact ⟨_, k', .turn h⟩

theorem ends_work (plan : Plan) (w : Worker) (k : κ) : Ends plan (some (work w)) k := by
  induction w, k using Worker.run.induct with
  | case1 w k hstep =>
      refine ends_of_turn ?_
      rw [Chore.turn, hstep]
      exact ⟨[], k, .done⟩
  | case2 w k turn hstep ih =>
      refine ends_of_turn ?_
      rw [turn_of_step?_eq_some hstep]
      exact ih

theorem ends_look (plan : Plan) (space : String) (failed : Nat) (k : κ) :
    Ends plan (some (look space failed)) k := by
  induction hn : plan.policy.attempts - failed using Nat.strongRecOn generalizing failed k with
  | _ n ih =>
      refine ends_of_turn ?_
      by_cases hfree : Teardown.isFree (Cluster.listPods space k).answer
      · rw [turn_of_isFree hfree]
        exact ends_work ..
      · by_cases hlt : failed + 1 < plan.policy.attempts
        · rw [turn_of_lt_attempts hfree hlt]
          exact ih _ (by omega) _ _ rfl
        · rw [turn_of_not_lt_attempts hfree hlt]
          exact ⟨[], _, .done⟩

theorem exists_alone (plan : Plan) (c : Option Chore) (k : κ) :
    ∃ fs k', Alone plan c k fs k' := by
  cases c with
  | none => exact ⟨[], k, .done⟩
  | some c =>
      cases c with
      | look space failed => exact ends_look ..
      | work w => exact ends_work ..

/-! ## What fails is of its namespace -/

theorem space_of_mem_epitaph {f : TeardownFailure} (h : f ∈ epitaph w) : f.space = w.space := by
  rw [epitaph] at h
  split at h
  · rw [List.mem_singleton.mp h]
  · cases h

theorem space_of_mem_givenUp {answer : Except ClusterError (List Pod)} {f : TeardownFailure}
    (h : f ∈ Teardown.givenUp space answer) : f.space = space := by
  cases answer with
  | ok pods => cases h
  | error e => rw [List.mem_singleton.mp h]

/-- An error makes at most one failure, which tells the step. -/
theorem eq_of_mem_failuresOf {step : TeardownStep} {e : ClusterError} {f : TeardownFailure}
    (h : f ∈ w.failuresOf step e) : f = ⟨w.space, step, e.message⟩ := by
  rw [Worker.failuresOf] at h
  split at h
  · cases h
  · exact List.mem_singleton.mp h

theorem space_of_mem_failures {d : Deed} {f : TeardownFailure} (h : f ∈ d.failures space) :
    f.space = space := by
  cases d with
  | listed answer => cases h
  | fetched target answer =>
      cases answer with
      | ok rs => cases h
      | error e => rw [eq_of_mem_failuresOf h]; rfl
  | cleared kind r answer =>
      cases answer with
      | ok rs => cases h
      | error e => rw [eq_of_mem_failuresOf h]; rfl
  | deleted answer =>
      cases answer with
      | failed e => rw [eq_of_mem_failuresOf h]; rfl
      | done | fatal => cases h
  | joined died =>
      cases died with
      | true => rw [List.mem_singleton.mp h]
      | false => cases h

theorem space_after (w : Worker) (d : Deed) : (w.after d).space = w.space := by
  unfold Worker.after
  split
  · rfl
  · rfl
  · rfl

/-- A turn stays within the namespace of the chore. -/
theorem space_turn (plan : Plan) (c : Chore) (k : κ) :
    (∀ c' ∈ (c.turn plan k).rest, c'.space = c.space) ∧
      ∀ f ∈ (c.turn plan k).failures, f.space = c.space := by
  cases c with
  | look space failed =>
      by_cases hfree : Teardown.isFree (Cluster.listPods space k).answer
      · rw [turn_of_isFree hfree]
        exact ⟨fun c hc => (by cases hc; rfl), fun f hf => (by cases hf)⟩
      · by_cases hlt : failed + 1 < plan.policy.attempts
        · rw [turn_of_lt_attempts hfree hlt]
          exact ⟨fun c hc => (by cases hc; rfl), fun f hf => (by cases hf)⟩
        · rw [turn_of_not_lt_attempts hfree hlt]
          exact ⟨fun c hc => (by cases hc), fun f hf => space_of_mem_givenUp hf⟩
  | work w =>
      cases hstep : w.step? k with
      | none =>
          rw [Chore.turn, hstep]
          exact ⟨fun c hc => (by cases hc), fun f hf => space_of_mem_epitaph hf⟩
      | some turn =>
          obtain ⟨e, rest, d, _, _, hdid⟩ := Worker.step?_spec hstep
          rw [turn_of_step?_eq_some hstep]
          refine ⟨fun c hc => ?_, fun f hf => ?_⟩
          · cases hc
            exact (congrArg Worker.space hdid.worker).trans (space_after w d)
          · exact space_of_mem_failures (hdid.failures ▸ hf)

/-! ## What fails first -/

/-- The last step of a worker, as far as it fails. -/
inductive LastStep : List TeardownStep → Prop
  | well : LastStep []
  | deletion : LastStep [.deleteSpace]
  | death : LastStep [.worker]

/-- Steps that fail while finalizers of a kind are cleared. -/
def Clearing (kind : Kind) (steps : List TeardownStep) : Prop :=
  ∀ s ∈ steps, s = .clearFinalizers kind

/-- What fails of a namespace, in the order of its steps. -/
inductive InStepOrder (targets : List Target) : List TeardownStep → Prop
  | quiet : InStepOrder targets []
  | precheck : InStepOrder targets [.precheck]
  | work (cleared : List (List TeardownStep)) (last : List TeardownStep) :
      List.Forall₂ (fun t steps => Clearing t.kind steps) targets cleared → LastStep last →
      InStepOrder targets (cleared.flatten ++ last)

/-- What fails of a worker that has resources of a kind to clear, and targets left. -/
def FailsInOrder (kind : Kind) (rs : List Resource) (ts : List Target)
    (steps : List TeardownStep) : Prop :=
  ∃ now cleared last, steps = now ++ (List.flatten cleared ++ last) ∧ (rs = [] → now = []) ∧
    Clearing kind now ∧ List.Forall₂ (fun t steps => Clearing t.kind steps) ts cleared ∧
    LastStep last

/-- What is left to a worker: resources of a kind to clear, targets, and the deletion. -/
structure Ahead (w : Worker) (kind : Kind) (rs : List Resource) (ts : List Target) : Prop where
  errands : w.errands = rs.map (.clear kind) ++ (ts.map .fetch ++ [.delete])
  alive : w.died = false

theorem alone_of_isOver (hover : w.isOver) (h : Alone plan (some (work w)) k fs k') :
    fs = epitaph w ∧ k' = k := by
  cases h with
  | turn h =>
      rw [turn_of_isOver hover] at h ⊢
      cases h
      exact ⟨List.append_nil _, rfl⟩

theorem FailsInOrder.clear {kind : Kind} {r : Resource} {rs : List Resource} {ts : List Target}
    {now steps : List TeardownStep} (hnow : Clearing kind now) (h : FailsInOrder kind rs ts steps) :
    FailsInOrder kind (r :: rs) ts (now ++ steps) := by
  obtain ⟨now', cleared, last, rfl, _, hnow', hts, hlast⟩ := h
  refine ⟨now ++ now', cleared, last, (List.append_assoc ..).symm, fun h => ?_, fun s hs => ?_, hts,
    hlast⟩
  · cases h
  · exact (List.mem_append.mp hs).elim (hnow s) (hnow' s)

/-- A target is fetched when nothing of the kind before it is left. -/
theorem FailsInOrder.fetch {kind : Kind} {rs : List Resource} {t : Target} {ts : List Target}
    {now steps : List TeardownStep} (hnow : Clearing t.kind now)
    (h : FailsInOrder t.kind rs ts steps) : FailsInOrder kind [] (t :: ts) (now ++ steps) := by
  obtain ⟨now', cleared, last, rfl, _, hnow', hts, hlast⟩ := h
  refine ⟨[], (now ++ now') :: cleared, last, ?_, fun _ => rfl, fun s hs => absurd hs List.not_mem_nil,
    .cons (fun s hs => ?_) hts, hlast⟩
  · rw [List.flatten_cons, List.nil_append, List.append_assoc, List.append_assoc]
  · exact (List.mem_append.mp hs).elim (hnow s) (hnow' s)

theorem clearing_failuresOf (w : Worker) (kind : Kind) (e : ClusterError) :
    Clearing kind ((w.failuresOf (.clearFinalizers kind) e).map TeardownFailure.step) := by
  intro s hs
  obtain ⟨f, hf, rfl⟩ := List.mem_map.mp hs
  rw [eq_of_mem_failuresOf hf]

theorem Ahead.clear {kind : Kind} {r : Resource} {rs : List Resource} {ts : List Target}
    (hw : Ahead w kind (r :: rs) ts) (plan : Plan) (k : κ) :
    ∃ w', ((work w).turn plan k).rest = some (work w') ∧ Ahead w' kind rs ts ∧
      Clearing kind (((work w).turn plan k).failures.map TeardownFailure.step) := by
  have he : w.errands = .clear kind r :: (rs.map (.clear kind) ++ (ts.map .fetch ++ [.delete])) :=
    hw.errands
  rw [turn_clear he]
  refine ⟨_, rfl, ⟨congrArg List.tail he, hw.alive⟩, ?_⟩
  cases (Cluster.updateResource kind r k).answer with
  | ok r => exact fun s hs => absurd hs List.not_mem_nil
  | error e => exact clearing_failuresOf (.start w.space []) kind e

theorem Ahead.fetch {kind : Kind} {t : Target} {ts : List Target} (hw : Ahead w kind [] (t :: ts))
    (plan : Plan) (k : κ) :
    ∃ w' rs, ((work w).turn plan k).rest = some (work w') ∧ Ahead w' t.kind rs ts ∧
      Clearing t.kind (((work w).turn plan k).failures.map TeardownFailure.step) := by
  have he : w.errands = .fetch t :: (ts.map .fetch ++ [.delete]) := hw.errands
  have htail : w.errands.tail = ts.map .fetch ++ [.delete] := congrArg List.tail he
  rw [turn_fetch he]
  cases (w.fetchFrom t k).answer with
  | ok rs =>
      refine ⟨_, (rs.filter fun r => !r.finalizers.isEmpty).map Resource.cleared, rfl,
        ⟨?_, hw.alive⟩, fun s hs => absurd hs List.not_mem_nil⟩
      show Worker.clearing t.kind rs ++ w.errands.tail = _
      rw [htail, Worker.clearing, List.map_map]
      rfl
  | error e => exact ⟨_, [], rfl, ⟨htail, hw.alive⟩, clearing_failuresOf (.start w.space []) t.kind e⟩

theorem Ahead.delete {kind : Kind} (hw : Ahead w kind [] []) (plan : Plan) (k : κ) :
    ∃ w', ((work w).turn plan k).rest = some (work w') ∧ w'.isOver ∧
      LastStep ((((work w).turn plan k).failures ++ epitaph w').map TeardownFailure.step) := by
  have he : w.errands = [.delete] := hw.errands
  have hover : w.errands.tail.isEmpty := by rw [he, List.tail_cons, List.isEmpty_nil]
  have hwell : epitaph { w with errands := w.errands.tail } = [] := epitaph_eq_nil hw.alive
  rw [turn_delete he]
  cases (Cluster.deleteSpace w.space k).answer with
  | done =>
      refine ⟨_, rfl, hover, ?_⟩
      show LastStep (([] ++ epitaph { w with errands := w.errands.tail }).map _)
      rw [hwell]
      exact .well
  | fatal => exact ⟨_, rfl, rfl, .death⟩
  | failed e =>
      refine ⟨_, rfl, hover, ?_⟩
      show LastStep ((_ ++ epitaph { w with errands := w.errands.tail }).map _)
      rw [hwell, List.append_nil]
      cases e with
      | missing what => exact .well
      | api reason => exact .deletion

theorem alone_work_failsInOrder {kind : Kind} {rs : List Resource} {ts : List Target}
    (hw : Ahead w kind rs ts) (h : Alone plan (some (work w)) k fs k') :
    FailsInOrder kind rs ts (fs.map TeardownFailure.step) := by
  generalize hc : some (work w) = c at h
  induction h generalizing w kind rs ts with
  | done => cases hc
  | @turn c k k' fs h ih =>
      cases hc
      cases rs with
      | cons r rs =>
          obtain ⟨w', hrest, hw', hnow⟩ := hw.clear plan k
          rw [List.map_append]
          exact (ih hw' hrest.symm).clear hnow
      | nil =>
          cases ts with
          | cons t ts =>
              obtain ⟨w', rs, hrest, hw', hnow⟩ := hw.fetch plan k
              rw [List.map_append]
              exact (ih hw' hrest.symm).fetch hnow
          | nil =>
              obtain ⟨w', hrest, hover, hlast⟩ := hw.delete plan k
              rw [hrest] at h
              rw [(alone_of_isOver hover h).1]
              exact ⟨[], [], _, rfl, fun _ => rfl, fun s hs => absurd hs List.not_mem_nil, .nil, hlast⟩

theorem ahead_start (space : String) (kind : Kind) (ts : List Target) :
    Ahead (.start space ts) kind [] ts := ⟨rfl, rfl⟩

/-- What fails of a namespace fails in the order of its steps. -/
theorem Alone.inStepOrder {failed : Nat} (h : Alone plan (some (look space failed)) k fs k') :
    InStepOrder (plan.targetsOf space) (fs.map TeardownFailure.step) := by
  generalize hc : some (look space failed) = c at h
  induction h generalizing failed with
  | done => cases hc
  | @turn c k k' fs h ih =>
      cases hc
      by_cases hfree : Teardown.isFree (Cluster.listPods space k).answer
      · rw [turn_of_isFree hfree] at h ⊢
        obtain ⟨now, cleared, last, hfs, hnil, _, hts, hlast⟩ :=
          alone_work_failsInOrder (ahead_start space default _) h
        rw [hnil rfl] at hfs
        rw [List.nil_append, hfs]
        exact .work cleared last hts hlast
      · by_cases hlt : failed + 1 < plan.policy.attempts
        · rw [turn_of_lt_attempts hfree hlt] at ih ⊢
          exact ih rfl
        · rw [turn_of_not_lt_attempts hfree hlt] at h ⊢
          cases h
          cases (Cluster.listPods space k).answer with
          | ok pods => exact .quiet
          | error e => exact .precheck

end Chore

end Decommission
