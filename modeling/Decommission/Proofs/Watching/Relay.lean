import Decommission.Cluster.Watched
import Decommission.Proofs.Deletion.Conduct
import Decommission.Proofs.Teardown.Accounting
import Decommission.Proofs.Teardown.Alone
import Decommission.Proofs.Watching.Retelling

/-!
# Deletions on clusters that answer alike

One cluster may be a picture of another: it answers every call as the other does, and is a
picture of it afterwards (`Relays`).  Deletions of namespaces need to be answered alike only
for names of a certain kind.

Then a deletion on the one cluster does what it does on the other, as long as it is only to
tear down namespaces with such names (`Deletion.retells`).  The property is carried from a
call to an errand, from there to a worker, to the teardown, and to the deletion.
-/

namespace Decommission

variable {κ κ' : Type} {f : κ → κ'} {ok : String → Prop}

/-! ## Calls -/

/-- Two replies say the same, and the one cluster afterwards is a picture of the other. -/
structure Reply.Relayed {α : Type} (f : κ → κ') (r : Reply κ α) (r' : Reply κ' α) : Prop where
  answer : r'.answer = r.answer
  cluster : r'.cluster = f r.cluster
  notes : unwatchedIn (r.notes.map .note) = unwatchedIn (r'.notes.map .note)

theorem Reply.Relayed.trans {α κ'' : Type} {g : κ' → κ''} {r : Reply κ α} {r' : Reply κ' α}
    {r'' : Reply κ'' α} (h : r.Relayed f r') (h' : r'.Relayed g r'') : r.Relayed (g ∘ f) r'' where
  answer := h'.answer.trans h.answer
  cluster := h'.cluster.trans (congrArg g h.cluster)
  notes := h.notes.trans h'.notes

/-- The pictures of clusters answer as the clusters do, except that they may treat the
deletion of some namespaces in another way. -/
structure Relays [Cluster κ] [Cluster κ'] (f : κ → κ') (ok : String → Prop) : Prop where
  listPods : ∀ space k, (Cluster.listPods space k).Relayed f (Cluster.listPods space (f k))
  deleteSpace : ∀ space k, ok space →
    (Cluster.deleteSpace space k).Relayed f (Cluster.deleteSpace space (f k))
  listResources : ∀ kind space k,
    (Cluster.listResources kind space k).Relayed f (Cluster.listResources kind space (f k))
  getResource : ∀ kind space name k,
    (Cluster.getResource kind space name k).Relayed f (Cluster.getResource kind space name (f k))
  updateResource : ∀ kind r k,
    (Cluster.updateResource kind r k).Relayed f (Cluster.updateResource kind r (f k))

theorem Relays.id [Cluster κ] : Relays (id : κ → κ) fun _ => True where
  listPods _ _ := ⟨rfl, rfl, rfl⟩
  deleteSpace _ _ _ := ⟨rfl, rfl, rfl⟩
  listResources _ _ _ := ⟨rfl, rfl, rfl⟩
  getResource _ _ _ _ := ⟨rfl, rfl, rfl⟩
  updateResource _ _ _ := ⟨rfl, rfl, rfl⟩

/-- A picture of a picture is one, as far as both are. -/
theorem Relays.trans [Cluster κ] [Cluster κ'] {κ'' : Type} [Cluster κ''] {g : κ' → κ''}
    {ok' : String → Prop} (h : Relays f ok) (h' : Relays g ok') (hok : ∀ s, ok' s → ok s) :
    Relays (g ∘ f) ok' where
  listPods space k := (h.listPods space k).trans (h'.listPods space (f k))
  deleteSpace space k hspace :=
    (h.deleteSpace space k (hok space hspace)).trans (h'.deleteSpace space (f k) hspace)
  listResources kind space k :=
    (h.listResources kind space k).trans (h'.listResources kind space (f k))
  getResource kind space name k :=
    (h.getResource kind space name k).trans (h'.getResource kind space name (f k))
  updateResource kind r k := (h.updateResource kind r k).trans (h'.updateResource kind r (f k))

theorem Reply.Relayed.callEvents {α : Type} {r : Reply κ α} {r' : Reply κ' α} (h : r.Relayed f r')
    (c : Call) : unwatchedIn (Worker.callEvents c r) = unwatchedIn (Worker.callEvents c r') := by
  rw [Worker.callEvents, Worker.callEvents, unwatchedIn_cons, unwatchedIn_cons _ (r'.notes.map _),
    h.notes]

/-- Whatever happens after a call, it happens after both. -/
theorem Reply.Relayed.callEvents_append {α : Type} {r : Reply κ α} {r' : Reply κ' α}
    (h : r.Relayed f r') (c : Call) (es : List Event) :
    unwatchedIn (Worker.callEvents c r ++ es) = unwatchedIn (Worker.callEvents c r' ++ es) := by
  rw [unwatchedIn_append, h.callEvents, ← unwatchedIn_append]

/-! ## Workers -/

/-- What came of two workers is the same, and the one cluster is a picture of the other. -/
structure WorkerTurn.Relayed (f : κ → κ') (t : WorkerTurn κ) (t' : WorkerTurn κ') : Prop where
  worker : t'.worker = t.worker
  cluster : t'.cluster = f t.cluster
  events : unwatchedIn t.events = unwatchedIn t'.events
  failures : t'.failures = t.failures

namespace Worker

theorem space_of_step? [Cluster κ] {w : Worker} {k : κ} {t : WorkerTurn κ}
    (h : w.step? k = some t) : t.worker.space = w.space := by
  obtain ⟨_, _, d, _, _, hdid⟩ := step?_spec h
  rw [hdid.worker, Chore.space_after]

theorem space_run [Cluster κ] (w : Worker) (k : κ) : (w.run k).worker.space = w.space := by
  induction w, k using Worker.run.induct with
  | case1 w k hstep => rw [run_of_step?_eq_none hstep]
  | case2 w k turn hstep ih =>
      rw [run_of_step?_eq_some hstep]
      exact ih.trans (space_of_step? hstep)

variable [Cluster κ] [Cluster κ'] {w : Worker} {rest : List Errand}

theorem relayed_fetchFrom (h : Relays f ok) (w : Worker) (t : Target) (k : κ) :
    (w.fetchFrom t k).Relayed f (w.fetchFrom t (f k)) := by
  rw [fetchFrom, fetchFrom]
  cases t.name with
  | some name =>
      obtain ⟨hanswer, hcluster, hnotes⟩ := h.getResource t.kind (t.spaceIn w.space) name k
      exact ⟨congrArg (Except.map fun x => [x]) hanswer, hcluster, hnotes⟩
  | none => exact h.listResources t.kind (t.spaceIn w.space) k

theorem relayed_doFetch (h : Relays f ok) (w : Worker) (t : Target) (rest : List Errand) (k : κ) :
    (w.doFetch t rest k).Relayed f (w.doFetch t rest (f k)) := by
  have hr := relayed_fetchFrom h w t k
  rw [doFetch, doFetch]
  dsimp only
  rw [hr.answer]
  cases (w.fetchFrom t k).answer with
  | ok rs => exact ⟨rfl, hr.cluster, hr.callEvents _, rfl⟩
  | error e => exact ⟨rfl, hr.cluster, hr.callEvents_append _ _, rfl⟩

theorem relayed_doClear (h : Relays f ok) (w : Worker) (kind : Kind) (x : Resource)
    (rest : List Errand) (k : κ) : (w.doClear kind x rest k).Relayed f (w.doClear kind x rest (f k)) := by
  have hr := h.updateResource kind x k
  rw [doClear, doClear]
  dsimp only
  rw [hr.answer]
  cases (Cluster.updateResource kind x k).answer with
  | ok _ => exact ⟨rfl, hr.cluster, hr.callEvents_append _ _, rfl⟩
  | error e => exact ⟨rfl, hr.cluster, hr.callEvents_append _ _, rfl⟩

theorem relayed_doDelete (h : Relays f ok) (hw : ok w.space) (rest : List Errand) (k : κ) :
    (w.doDelete rest k).Relayed f (w.doDelete rest (f k)) := by
  have hr := h.deleteSpace w.space k hw
  rw [doDelete, doDelete]
  dsimp only
  rw [hr.answer]
  cases (Cluster.deleteSpace w.space k).answer with
  | done => exact ⟨rfl, hr.cluster, hr.callEvents_append _ _, rfl⟩
  | failed e =>
      cases e with
      | missing what => exact ⟨rfl, hr.cluster, hr.callEvents_append _ _, rfl⟩
      | api reason => exact ⟨rfl, hr.cluster, hr.callEvents_append _ _, rfl⟩
  | fatal => exact ⟨rfl, hr.cluster, hr.callEvents _, rfl⟩

/-- A worker does the same errand. -/
theorem relayed_step? (h : Relays f ok) (hw : ok w.space) (k : κ) :
    Option.Rel (WorkerTurn.Relayed f) (w.step? k) (w.step? (f k)) := by
  rw [step?, step?]
  split
  · exact .none
  · exact .some (relayed_doFetch h w _ _ k)
  · exact .some (relayed_doClear h w _ _ _ k)
  · exact .some (relayed_doDelete h hw _ k)

/-- A worker does all its errands in the same way. -/
theorem relayed_run (h : Relays f ok) (w : Worker) (k : κ) (hw : ok w.space) :
    (w.run k).Relayed f (w.run (f k)) := by
  induction w, k using Worker.run.induct with
  | case1 w k hstep =>
      have hrel := relayed_step? h hw k
      rw [hstep] at hrel
      cases hstep' : w.step? (f k) with
      | some turn => rw [hstep'] at hrel; cases hrel
      | none =>
          rw [run_of_step?_eq_none hstep, run_of_step?_eq_none hstep']
          exact ⟨rfl, rfl, rfl, rfl⟩
  | case2 w k turn hstep ih =>
      have hrel := relayed_step? h hw k
      rw [hstep] at hrel
      cases hstep' : w.step? (f k) with
      | none => rw [hstep'] at hrel; cases hrel
      | some turn' =>
          rw [hstep'] at hrel
          obtain ⟨hworker, hcluster, hevents, hfailures⟩ := Option.rel_some_some.mp hrel
          have hrest := ih ((space_of_step? hstep).symm ▸ hw)
          rw [run_of_step?_eq_some hstep, run_of_step?_eq_some hstep', hworker, hcluster]
          refine ⟨hrest.worker, hrest.cluster, ?_, ?_⟩
          · simp only [unwatchedIn_append, hevents, hrest.events]
          · simp only [hfailures, hrest.failures]

end Worker

/-! ## Teardowns -/

namespace Teardown

/-- The same teardown on another cluster. -/
def onCluster (f : κ → κ') (t : Teardown κ) : Teardown κ' where
  policy := t.policy
  systemSpace := t.systemSpace
  targets := t.targets
  spaces := t.spaces
  stage := t.stage
  workers := t.workers
  failures := t.failures
  cluster := f t.cluster

/-- The namespaces that the coordinator has yet to look at. -/
def Stage.left : Stage → List String
  | .checking _ rest => rest
  | .pausing _ _ rest => rest
  | _ => []

/-- Only namespaces with certain names are left to the coordinator and to the workers. -/
structure Lists (ok : String → Prop) (t : Teardown κ) : Prop where
  left : ∀ space ∈ t.stage.left, ok space
  workers : ∀ w ∈ t.workers, ok w.space

variable {t t' : Teardown κ} {now : Nat} {es : List Event}

theorem Lists.of_stage (h : t.Lists ok) {stage : Stage} (hs : stage.left ⊆ t.stage.left)
    (fs : List TeardownFailure) (k : κ) :
    Lists ok { t with stage, failures := fs, cluster := k } :=
  ⟨fun space hm => h.left space (hs hm), h.workers⟩

variable [Cluster κ]

/-- No step of the coordinator adds a namespace. -/
theorem Lists.step? (h : t.Lists ok) (hs : t.step? now = some (es, t')) : t'.Lists ok := by
  have hleft : ∀ {failed space rest}, t.stage = .checking failed (space :: rest) →
      ok space ∧ rest ⊆ t.stage.left := by
    intro failed space rest hst
    have hmem : t.stage.left = space :: rest := by rw [hst]; rfl
    exact ⟨h.left space (hmem ▸ List.mem_cons_self ..), hmem ▸ List.subset_cons_self ..⟩
  cases step?_cases hs with
  | drained | joined | buried => exact h.of_stage (List.nil_subset _) _ _
  | concluded next =>
      rw [conclude_eq]
      exact h.of_stage (List.nil_subset _) _ _
  | skipped failed space rest pods notes hst =>
      refine h.of_stage ?_ _ _
      exact (hleft hst).2
  | unreachable failed space rest e hst =>
      refine h.of_stage ?_ _ _
      exact (hleft hst).2
  | paused failed due space rest notes hst =>
      refine h.of_stage ?_ _ _
      rw [hst]
      exact List.Subset.refl _
  | resumed due failed rest hst =>
      refine h.of_stage ?_ _ _
      rw [hst]
      exact List.Subset.refl _
  | handed failed space rest hst =>
      refine ⟨fun s hm => h.left s ((hleft hst).2 hm), fun w hw => ?_⟩
      rcases List.mem_append.mp hw with hw | hw
      · exact h.workers w hw
      · rw [List.mem_singleton.mp hw]
        exact (hleft hst).1

theorem Lists.workerStep? (h : t.Lists ok) {i : Nat} (hs : t.workerStep? i = some (es, t')) :
    t'.Lists ok := by
  obtain ⟨w, turn, hw, hstep, _, rfl⟩ := workerStep?_eq_some_iff.mp hs
  refine ⟨h.left, fun v hv => ?_⟩
  rcases List.mem_or_eq_of_mem_set hv with hv | rfl
  · exact h.workers v hv
  · rw [Worker.space_of_step? hstep]
    exact h.workers w (List.mem_of_getElem? hw)

theorem ok_of_mem_runAll {ws : List Worker} (h : ∀ w ∈ ws, ok w.space) (k : κ) :
    ∀ w ∈ (runAll k ws).workers, ok w.space := by
  induction ws generalizing k with
  | nil => exact fun _ hw => nomatch hw
  | cons w ws ih =>
      intro v hv
      rcases List.mem_cons.mp hv with rfl | hv
      · rw [Worker.space_run]
        exact h w (List.mem_cons_self ..)
      · exact ih (fun u hu => h u (List.mem_cons_of_mem _ hu)) _ v hv

theorem Lists.assist? (h : t.Lists ok) (hs : t.assist? = some (es, t')) : t'.Lists ok := by
  rw [Teardown.assist?] at hs
  split at hs
  · cases hs
  · cases hs
    exact ⟨h.left, ok_of_mem_runAll h.workers t.cluster⟩

variable [Cluster κ']

/-! ### The coordinator -/

omit [Cluster κ] [Cluster κ'] in
theorem told_retryOr (t : Teardown κ) (now failed : Nat) (space : String) (rest : List String)
    (giveUp : Teardown κ → List Event × Teardown κ) (giveUp' : Teardown κ' → List Event × Teardown κ')
    (hg : ∀ t : Teardown κ, Told (onCluster f) (giveUp t) (giveUp' (t.onCluster f))) :
    Told (onCluster f) (t.retryOr now failed space rest giveUp)
      ((t.onCluster f).retryOr now failed space rest giveUp') := by
  have hpolicy : (t.onCluster f).policy.next? failed = t.policy.next? failed := rfl
  rw [retryOr, retryOr, hpolicy]
  cases t.policy.next? failed with
  | some wait => exact ⟨rfl, rfl⟩
  | none => exact hg { t with stage := .checking 0 rest }

/-- A look at a namespace does the same. -/
theorem told_check (h : Relays f ok) (t : Teardown κ) (failed : Nat) (space : String)
    (rest : List String) :
    Told (onCluster f) (t.check now failed space rest)
      ((t.onCluster f).check now failed space rest) := by
  have hr := h.listPods space t.cluster
  have hcluster : ({ t.onCluster f with
      cluster := (Cluster.listPods space (t.onCluster f).cluster).cluster } : Teardown κ') =
      onCluster f { t with cluster := (Cluster.listPods space t.cluster).cluster } :=
    congrArg (fun k => { t.onCluster f with cluster := k }) hr.cluster
  have hanswer : (Cluster.listPods space (t.onCluster f).cluster).answer =
      (Cluster.listPods space t.cluster).answer := hr.answer
  rw [check, check]
  dsimp only
  rw [hcluster, hanswer]
  generalize ({ t with cluster := (Cluster.listPods space t.cluster).cluster } : Teardown κ) = t₁
  cases (Cluster.listPods space t.cluster).answer with
  | ok pods =>
      dsimp only
      split
      · exact ⟨hr.callEvents _, rfl⟩
      · have hretry := told_retryOr (f := f) t₁ now (failed + 1) space rest
          (fun t => ([.note (.spaceSkipped space (countRunning pods))], t))
          (fun t => ([.note (.spaceSkipped space (countRunning pods))], t)) fun _ => ⟨rfl, rfl⟩
        refine ⟨?_, hretry.director⟩
        dsimp only
        rw [unwatchedIn_append, hr.callEvents, unwatchedIn_cons, hretry.events, ← unwatchedIn_cons,
          ← unwatchedIn_append]
        rfl
  | error e =>
      have hretry := told_retryOr (f := f) t₁ now (failed + 1) space rest
        (fun t => t.fail [⟨space, .precheck, e.message⟩])
        (fun t => t.fail [⟨space, .precheck, e.message⟩]) fun _ => ⟨rfl, rfl⟩
      refine ⟨?_, hretry.director⟩
      dsimp only
      rw [unwatchedIn_append, hr.callEvents, hretry.events, ← unwatchedIn_append]
      rfl

/-- The coordinator takes the same step. -/
theorem told_step? (h : Relays f ok) (t : Teardown κ) :
    Option.Rel (Told (onCluster f)) (t.step? now) ((t.onCluster f).step? now) := by
  have hstage : (t.onCluster f).stage = t.stage := rfl
  have hworkers : (t.onCluster f).workers = t.workers := rfl
  rw [step?, step?, hstage]
  cases t.stage with
  | checking failed rest =>
      cases rest with
      | nil => exact .some ⟨rfl, rfl⟩
      | cons space rest => exact .some (told_check h t failed space rest)
  | pausing due failed rest =>
      dsimp only
      split
      · exact .some ⟨rfl, rfl⟩
      · exact .none
  | joining next =>
      dsimp only
      rw [hworkers]
      cases t.workers[next]? with
      | none =>
          refine .some ?_
          rw [conclude, conclude]
          show Told _ (if t.failures.isEmpty then _ else _) (if t.failures.isEmpty then _ else _)
          split
          · exact ⟨rfl, rfl⟩
          · exact ⟨rfl, rfl⟩
      | some w =>
          dsimp only
          rw [join, join]
          split
          · split
            · exact .some ⟨rfl, rfl⟩
            · exact .some ⟨rfl, rfl⟩
          · exact .none
  | ended r => exact .none

/-! ### The workers -/

omit [Cluster κ] [Cluster κ'] in
/-- What came of a worker changes both teardowns in the same way. -/
theorem told_worked (t : Teardown κ) (i : Nat) {x : WorkerTurn κ} {y : WorkerTurn κ'}
    (h : x.Relayed f y) :
    Told (onCluster f)
      (x.events, t.worked (t.workers.set i x.worker) x.cluster x.failures)
      (y.events, (t.onCluster f).worked (t.workers.set i y.worker) y.cluster y.failures) := by
  refine ⟨h.events, ?_⟩
  rw [h.worker, h.cluster, h.failures]
  rfl

theorem told_workerStep? (h : Relays f ok) (ht : t.Lists ok) (i : Nat) :
    Option.Rel (Told (onCluster f)) (t.workerStep? i) ((t.onCluster f).workerStep? i) := by
  have hworkers : (t.onCluster f).workers = t.workers := rfl
  rw [Teardown.workerStep?, Teardown.workerStep?, hworkers]
  cases hw : t.workers[i]? with
  | none => exact .none
  | some w =>
      have hok := ht.workers w (List.mem_of_getElem? hw)
      simp only [Option.bind_eq_bind, Option.bind_some]
      exact rel_bind (Worker.relayed_step? h hok t.cluster) fun x y _ hxy =>
        .some (told_worked t i hxy)

theorem relayed_runAll (h : Relays f ok) {ws : List Worker} (hws : ∀ w ∈ ws, ok w.space) (k : κ) :
    (runAll (f k) ws).workers = (runAll k ws).workers ∧
      (runAll (f k) ws).cluster = f (runAll k ws).cluster ∧
      unwatchedIn (runAll k ws).events = unwatchedIn (runAll (f k) ws).events ∧
      (runAll (f k) ws).failures = (runAll k ws).failures := by
  induction ws generalizing k with
  | nil => exact ⟨rfl, rfl, rfl, rfl⟩
  | cons w ws ih =>
      obtain ⟨hworker, hcluster, hevents, hfailures⟩ :=
        Worker.relayed_run h w k (hws w (List.mem_cons_self ..))
      obtain ⟨hworkers, hcluster', hevents', hfailures'⟩ :=
        ih (fun v hv => hws v (List.mem_cons_of_mem _ hv)) (w.run k).cluster
      simp only [runAll, hworker, hcluster, hfailures, hworkers, hcluster', hfailures',
        unwatchedIn_append, hevents, hevents', and_self]

theorem told_assist? (h : Relays f ok) (ht : t.Lists ok) :
    Option.Rel (Told (onCluster f)) t.assist? (t.onCluster f).assist? := by
  obtain ⟨hworkers, hcluster, hevents, hfailures⟩ := relayed_runAll h ht.workers t.cluster
  rw [Teardown.assist?, Teardown.assist?]
  show Option.Rel _ (if t.workers.all Worker.isOver then _ else _)
    (if t.workers.all Worker.isOver then _ else _)
  split
  · exact .none
  · refine .some ⟨hevents, ?_⟩
    show ({ t.onCluster f with
      workers := (runAll (f t.cluster) t.workers).workers
      cluster := (runAll (f t.cluster) t.workers).cluster
      failures := t.failures ++ (runAll (f t.cluster) t.workers).failures } : Teardown κ') = _
    rw [hworkers, hcluster, hfailures]
    rfl

end Teardown

/-! ## Deletions -/

namespace Deletion

/-- The same stage of a deletion on another cluster. -/
def Stage.onCluster (f : κ → κ') : Stage κ → Stage κ'
  | .looking => .looking
  | .components spaces since s => .components spaces since s
  | .prerequisites spaces s => .prerequisites spaces s
  | .tearing t => .tearing (t.onCluster f)
  | .ended result => .ended result

/-- The same deletion on another cluster. -/
def onCluster (f : κ → κ') (d : Deletion κ) : Deletion κ' where
  config := d.config
  metadata := d.metadata
  cluster := f d.cluster
  stage := d.stage.onCluster f

/-- Only namespaces with certain names are left to be torn down. -/
def Lists (ok : String → Prop) (d : Deletion κ) : Prop :=
  match d.stage with
  | .looking =>
    ∀ recorded, d.metadata.answer = .ok recorded → ∀ space ∈ d.spacesWith recorded, ok space
  | .components spaces _ _ => ∀ space ∈ spaces, ok space
  | .prerequisites spaces _ => ∀ space ∈ spaces, ok space
  | .tearing t => t.Lists ok
  | .ended _ => True

variable {d : Deletion κ} {g : Glance} {s : Supervision} {spaces : List String} {t : Teardown κ}

theorem result?_onCluster (f : κ → κ') (d : Deletion κ) : (d.onCluster f).result? = d.result? := by
  cases d with
  | mk config metadata cluster stage =>
      cases stage with
      | _ => rfl

theorem onCluster_withTeardown (f : κ → κ') (d : Deletion κ) (t : Teardown κ) :
    (d.withTeardown t).onCluster f = (d.onCluster f).withTeardown (t.onCluster f) := by
  have hresult : (t.onCluster f).result? = t.result? := rfl
  rw [withTeardown, withTeardown, hresult]
  cases t.result? with
  | none => rfl
  | some r => cases r with
    | error e => rfl
    | ok _ => rfl

theorem lists_withTeardown (d : Deletion κ) (h : t.Lists ok) : (d.withTeardown t).Lists ok := by
  rw [withTeardown]
  cases t.result? with
  | none => exact h
  | some r => cases r with
    | error e => trivial
    | ok _ => trivial

/-- What happens in the teardown happens in the deletion. -/
theorem told_withTeardown (d : Deletion κ) {x : Option (List Event × Teardown κ)}
    {y : Option (List Event × Teardown κ')} (h : Option.Rel (Told (Teardown.onCluster f)) x y) :
    Option.Rel (Told (onCluster f)) (x.map fun (es, t) => (es, d.withTeardown t))
      (y.map fun (es, t) => (es, (d.onCluster f).withTeardown t)) := by
  refine rel_map h fun x y _ hxy => ⟨hxy.events, ?_⟩
  show (d.onCluster f).withTeardown y.2 = (d.withTeardown x.2).onCluster f
  rw [hxy.director, onCluster_withTeardown]

/-! ### Steps -/

theorem told_lookUp (g : Glance) (d : Deletion κ) :
    Told (onCluster f) (d.lookUp g) ((d.onCluster f).lookUp g) := by
  have hmetadata : (d.onCluster f).metadata = d.metadata := rfl
  rw [lookUp, lookUp, hmetadata]
  cases d.metadata.answer with
  | error reason => exact ⟨rfl, rfl⟩
  | ok recorded => exact ⟨rfl, rfl⟩

theorem told_afterPhase (d : Deletion κ) (es : List Event) (result : Except PhaseError Unit)
    {next : List Event × Deletion κ} {next' : List Event × Deletion κ'}
    (h : Told (onCluster f) next next') :
    Told (onCluster f) (d.afterPhase es result next) ((d.onCluster f).afterPhase es result next') := by
  cases result with
  | error e => exact ⟨rfl, rfl⟩
  | ok _ =>
      refine ⟨?_, h.director⟩
      show unwatchedIn (es ++ next.1) = unwatchedIn (es ++ next'.1)
      rw [unwatchedIn_append, unwatchedIn_append, h.events]

/-- A look at a phase. -/
theorem told_phase (d : Deletion κ) (g : Glance) (s : Supervision)
    {stay : Supervision → Stage κ} {stay' : Supervision → Stage κ'}
    (hstay : ∀ s, stay' s = (stay s).onCluster f)
    {next : List Event × Deletion κ} {next' : List Event × Deletion κ'}
    (h : Told (onCluster f) next next') :
    Option.Rel (Told (onCluster f))
      (match s.look g with
        | none => none
        | some (events, s) =>
            match s.result? with
            | some result => some (d.afterPhase events result next)
            | none => some (events, { d with stage := stay s }))
      (match s.look g with
        | none => none
        | some (events, s) =>
            match s.result? with
            | some result => some ((d.onCluster f).afterPhase events result next')
            | none => some (events, { d.onCluster f with stage := stay' s })) := by
  cases s.look g with
  | none => exact .none
  | some l =>
      dsimp only
      cases l.2.result? with
      | some result => exact .some (told_afterPhase d l.1 result h)
      | none => exact .some ⟨rfl, congrArg (fun stage => { d.onCluster f with stage }) (hstay l.2)⟩

variable [Cluster κ] [Cluster κ']

theorem told_step? (h : Relays f ok) (g : Glance) (d : Deletion κ) :
    Option.Rel (Told (onCluster f)) (d.step? g) ((d.onCluster f).step? g) := by
  have hstage : (d.onCluster f).stage = d.stage.onCluster f := rfl
  rw [step?, step?, hstage]
  cases d.stage with
  | looking => exact .some (told_lookUp g d)
  | components spaces since s =>
      exact told_phase d g s (fun _ => rfl) ⟨rfl, rfl⟩
  | prerequisites spaces s =>
      refine told_phase d g s (fun _ => rfl) ⟨rfl, ?_⟩
      exact (onCluster_withTeardown f d (.start d.config.retry d.config.systemNamespace
        stuckTargets spaces d.cluster)).symm
  | tearing t => exact told_withTeardown d (Teardown.told_step? h t)
  | ended result => exact .none

theorem told_assist? (h : Relays f ok) (hd : d.Lists ok) :
    Option.Rel (Told (onCluster f)) d.assist? (d.onCluster f).assist? := by
  have hstage : (d.onCluster f).stage = d.stage.onCluster f := rfl
  rw [assist?, assist?, hstage]
  rw [Lists] at hd
  cases hs : d.stage with
  | tearing t =>
      rw [hs] at hd
      exact told_withTeardown d (Teardown.told_assist? h hd)
  | _ => exact .none

theorem told_errand? (h : Relays f ok) (hd : d.Lists ok) (i : Nat) :
    Option.Rel (Told (onCluster f)) (d.errand? i) ((d.onCluster f).errand? i) := by
  have hstage : (d.onCluster f).stage = d.stage.onCluster f := rfl
  rw [errand?, errand?, hstage]
  rw [Lists] at hd
  cases hs : d.stage with
  | tearing t =>
      rw [hs] at hd
      exact told_withTeardown d (Teardown.told_workerStep? h hd i)
  | _ => exact .none

/-! ### The names are kept -/

omit [Cluster κ'] in
theorem lists_step? (hd : d.Lists ok) {x : List Event × Deletion κ} (hs : d.step? g = some x) :
    x.2.Lists ok := by
  obtain ⟨es, d'⟩ := x
  rw [Lists] at hd
  cases hst : d.stage with
  | looking =>
      rw [step?, hst] at hs
      rw [hst] at hd
      rw [← congrArg Prod.snd (Option.some.inj hs), lookUp]
      dsimp only
      cases ha : d.metadata.answer with
      | error reason => trivial
      | ok recorded => exact hd recorded ha
  | components spaces since s =>
      rw [hst] at hd
      cases phased_components hst hs with
      | onward => exact hd
      | failed => trivial
      | completed => exact hd
  | prerequisites spaces s =>
      rw [hst] at hd
      cases phased_prerequisites hst hs with
      | onward => exact hd
      | failed => trivial
      | completed =>
          have hfresh : (Teardown.start d.config.retry d.config.systemNamespace stuckTargets spaces
            d.cluster).Lists ok := ⟨hd, fun _ hw => absurd hw List.not_mem_nil⟩
          exact lists_withTeardown d hfresh
  | tearing t =>
      rw [step?, hst] at hs
      rw [hst] at hd
      obtain ⟨⟨es', t'⟩, ht, heq⟩ := Option.map_eq_some_iff.mp hs
      cases heq
      exact lists_withTeardown d (Teardown.Lists.step? hd ht)
  | ended result =>
      rw [step?, hst] at hs
      cases hs

omit [Cluster κ'] in
theorem lists_assist? (hd : d.Lists ok) {x : List Event × Deletion κ} (hs : d.assist? = some x) :
    x.2.Lists ok := by
  rw [assist?] at hs
  rw [Lists] at hd
  cases hst : d.stage with
  | tearing t =>
      rw [hst] at hs hd
      obtain ⟨⟨es, t'⟩, ht, heq⟩ := Option.map_eq_some_iff.mp hs
      cases heq
      exact lists_withTeardown d (Teardown.Lists.assist? hd ht)
  | _ =>
      rw [hst] at hs
      cases hs

omit [Cluster κ'] in
theorem lists_errand? (hd : d.Lists ok) {i : Nat} {x : List Event × Deletion κ}
    (hs : d.errand? i = some x) : x.2.Lists ok := by
  rw [errand?] at hs
  rw [Lists] at hd
  cases hst : d.stage with
  | tearing t =>
      rw [hst] at hs hd
      obtain ⟨⟨es, t'⟩, ht, heq⟩ := Option.map_eq_some_iff.mp hs
      cases heq
      exact lists_withTeardown d (Teardown.Lists.workerStep? hd ht)
  | _ =>
      rw [hst] at hs
      cases hs

/-- The picture of a deletion does what the deletion does. -/
theorem retells (h : Relays f ok) :
    Retells (onCluster f : Deletion κ → Deletion κ') (Lists ok) where
  step g d _ := told_step? h g d
  assist d hd := told_assist? h hd
  step_kept g d x hd hs := lists_step? hd hs
  assist_kept d x hd hs := lists_assist? hd hs
  alarm d := by
    cases d with
    | mk config metadata cluster stage => cases stage with
      | _ => rfl
  isOver d := congrArg Option.isSome (result?_onCluster f d)
  steps d := rfl

end Deletion

end Decommission
