import Decommission.Proofs.Deletion.StageOrder
import Decommission.Proofs.Watching.Relay

/-!
# Namespaces without a name

A watched cluster refuses to delete a namespace without a name.  All other calls it passes
on.  So it is a picture of the cluster inside as far as names are not empty
(`Watched.relays_named`), and in any case of a cluster that is not watched and refuses such
deletions (`Watched.relays_guarded`).

`Recorded κ` is a cluster that keeps the calls it gets.  Watched, it gets the calls that a
deletion makes, but for deletions without a name (`Deletion.logs_play`).  Each of those is a
failure of the teardown instead (`Ledger.refused_play`).
-/

namespace Decommission

variable {κ κ' α : Type}

/-! ## Clusters -/

/-- A cluster that keeps the calls it gets. -/
structure Recorded (κ : Type) where
  inner : κ
  calls : List Call := []

/-- The reply of the cluster inside, the call being kept. -/
def Recorded.keep (k : Recorded κ) (c : Call) (r : Reply κ α) : Reply (Recorded κ) α :=
  ⟨r.answer, ⟨r.cluster, k.calls ++ [c]⟩, r.notes⟩

instance [Cluster κ] : Cluster (Recorded κ) where
  listPods space k := k.keep (.listPods space) (Cluster.listPods space k.inner)
  deleteSpace space k := k.keep (.deleteSpace space) (Cluster.deleteSpace space k.inner)
  listResources kind space k :=
    k.keep (.listResources kind space) (Cluster.listResources kind space k.inner)
  getResource kind space name k :=
    k.keep (.getResource kind space name) (Cluster.getResource kind space name k.inner)
  updateResource kind r k :=
    k.keep (.updateResource kind r) (Cluster.updateResource kind r k.inner)

/-- Keeping the calls changes nothing else. -/
theorem Recorded.relays_inner [Cluster κ] :
    Relays (Recorded.inner : Recorded κ → κ) fun _ => True where
  listPods _ _ := ⟨rfl, rfl, rfl⟩
  deleteSpace _ _ _ := ⟨rfl, rfl, rfl⟩
  listResources _ _ _ := ⟨rfl, rfl, rfl⟩
  getResource _ _ _ _ := ⟨rfl, rfl, rfl⟩
  updateResource _ _ _ := ⟨rfl, rfl, rfl⟩

/-- Why a namespace without a name is not deleted. -/
def namelessError : ClusterError := .api "namespace name is empty"

/-- What fails of a namespace without a name. -/
def namelessFailure : TeardownFailure := ⟨"", .deleteSpace, namelessError.message⟩

/-- A cluster that refuses to delete a namespace without a name, and is as it was then. -/
structure Guarded (κ : Type) where
  inner : κ

/-- The reply of the cluster inside. -/
def Guarded.through (r : Reply κ α) : Reply (Guarded κ) α := ⟨r.answer, ⟨r.cluster⟩, r.notes⟩

instance [Cluster κ] : Cluster (Guarded κ) where
  listPods space k := Guarded.through (Cluster.listPods space k.inner)
  deleteSpace space k :=
    if space = "" then ⟨.failed namelessError, k, []⟩
    else Guarded.through (Cluster.deleteSpace space k.inner)
  listResources kind space k := Guarded.through (Cluster.listResources kind space k.inner)
  getResource kind space name k := Guarded.through (Cluster.getResource kind space name k.inner)
  updateResource kind r k := Guarded.through (Cluster.updateResource kind r k.inner)

theorem Guarded.deleteSpace_of_ne [Cluster κ] {space : String} (h : space ≠ "") (k : Guarded κ) :
    Cluster.deleteSpace space k = Guarded.through (Cluster.deleteSpace space k.inner) :=
  if_neg h

/-- Other names set nothing apart. -/
theorem Guarded.relays_inner [Cluster κ] : Relays (Guarded.inner : Guarded κ → κ) (· ≠ "") where
  listPods _ _ := ⟨rfl, rfl, rfl⟩
  deleteSpace space k h := by
    rw [deleteSpace_of_ne h]
    exact ⟨rfl, rfl, rfl⟩
  listResources _ _ _ := ⟨rfl, rfl, rfl⟩
  getResource _ _ _ _ := ⟨rfl, rfl, rfl⟩
  updateResource _ _ _ := ⟨rfl, rfl, rfl⟩

namespace Watched

/-- What is noted before and after a call is noted by a watcher. -/
theorem relayed_around {f : Watched κ → κ'} {before after : List Note} {r : Reply κ α}
    {r' : Reply κ' α} (hbefore : ∀ n ∈ before, n.isOfWatcher) (hafter : ∀ n ∈ after, n.isOfWatcher)
    (hanswer : r'.answer = r.answer) (hcluster : r'.cluster = f ⟨r.cluster⟩)
    (hnotes : r'.notes = r.notes) : (around before r after).Relayed f r' := by
  have hnone : ∀ {ns : List Note}, (∀ n ∈ ns, n.isOfWatcher) → unwatchedIn (ns.map .note) = [] := by
    intro ns hns
    refine unwatchedIn_eq_nil fun e he => ?_
    obtain ⟨n, hn, rfl⟩ := List.mem_map.mp he
    exact hns n hn
  refine ⟨hanswer, hcluster, ?_⟩
  rw [around, List.map_append, List.map_append, unwatchedIn_append, unwatchedIn_append,
    hnone hbefore, hnone hafter, List.nil_append, List.append_nil, hnotes]

theorem isOfWatcher_deletionNotes (space : String) (answer : Deleted) :
    ∀ n ∈ deletionNotes space answer, n.isOfWatcher := by
  cases answer with
  | done => exact fun n hn => List.mem_singleton.mp hn ▸ rfl
  | failed e =>
      cases e with
      | missing what => exact fun n hn => List.mem_singleton.mp hn ▸ rfl
      | api reason => exact fun n hn => List.mem_singleton.mp hn ▸ rfl
  | fatal => exact fun n hn => nomatch hn

theorem isOfWatcher_updateNotes (kind : Kind) (r : Resource) (answer : Except ClusterError Resource) :
    ∀ n ∈ updateNotes kind r answer, n.isOfWatcher := by
  cases answer with
  | ok _ => exact fun n hn => List.mem_singleton.mp hn ▸ rfl
  | error e => exact fun n hn => List.mem_singleton.mp hn ▸ rfl

theorem isOfWatcher_singleton {n : Note} (h : n.isOfWatcher) : ∀ m ∈ [n], m.isOfWatcher :=
  fun _ hm => List.mem_singleton.mp hm ▸ h

variable [Cluster κ]

theorem deleteSpace_of_ne {space : String} (h : space ≠ "") (k : Watched κ) :
    Cluster.deleteSpace space k = around [.deleting space] (Cluster.deleteSpace space k.inner)
      (deletionNotes space (Cluster.deleteSpace space k.inner).answer) :=
  if_neg fun he => h (String.isEmpty_iff.mp he)

/-- The cluster inside, not watched but guarded. -/
def guarded (k : Watched κ) : Guarded κ := ⟨k.inner⟩

/-- The refusal is all that a watched cluster adds. -/
theorem relays_guarded : Relays (guarded : Watched κ → Guarded κ) fun _ => True where
  listPods space k :=
    relayed_around (fun _ hn => nomatch hn) (isOfWatcher_singleton rfl) rfl rfl rfl
  deleteSpace space k _ := by
    by_cases h : space = ""
    · subst h
      exact ⟨rfl, rfl, rfl⟩
    · rw [deleteSpace_of_ne h, Guarded.deleteSpace_of_ne h]
      exact relayed_around (isOfWatcher_singleton rfl) (isOfWatcher_deletionNotes _ _) rfl rfl rfl
  listResources kind space k :=
    relayed_around (fun _ hn => nomatch hn) (isOfWatcher_singleton rfl) rfl rfl rfl
  getResource kind space name k :=
    relayed_around (fun _ hn => nomatch hn) (isOfWatcher_singleton rfl) rfl rfl rfl
  updateResource kind r k :=
    relayed_around (isOfWatcher_singleton rfl) (isOfWatcher_updateNotes _ _ _) rfl rfl rfl

/-- As long as names are not empty, nothing is added to the cluster inside. -/
theorem relays_named : Relays (Watched.inner : Watched κ → κ) (· ≠ "") :=
  relays_guarded.trans Guarded.relays_inner fun _ _ => trivial

end Watched

/-! ## Calls that reach the cluster inside -/

/-- The calls but for deletions of a namespace without a name. -/
def named (cs : List Call) : List Call := cs.filter fun c => c ≠ .deleteSpace ""

theorem named_append (cs ds : List Call) : named (cs ++ ds) = named cs ++ named ds :=
  List.filter_append ..

/-- Of certain calls to a watched cluster, all that have a name have reached the cluster
inside, and nothing else has. -/
def Logs (k k' : Watched (Recorded κ)) (cs : List Call) : Prop :=
  k'.inner.calls = k.inner.calls ++ named cs

theorem Logs.refl (k : Watched (Recorded κ)) : Logs k k [] := (List.append_nil _).symm

theorem Logs.trans {k₁ k₂ k₃ : Watched (Recorded κ)} {cs ds : List Call} (h : Logs k₁ k₂ cs)
    (h' : Logs k₂ k₃ ds) : Logs k₁ k₃ (cs ++ ds) := by
  rw [Logs, named_append, ← List.append_assoc, ← h]
  exact h'

variable [Cluster κ] {w : Worker} {k : Watched (Recorded κ)}
  {turn : WorkerTurn (Watched (Recorded κ))}

theorem logs_deleteSpace (space : String) (k : Watched (Recorded κ)) :
    Logs k (Cluster.deleteSpace space k).cluster [.deleteSpace space] := by
  by_cases h : space = ""
  · subst h
    exact Logs.refl k
  · rw [Watched.deleteSpace_of_ne h, Logs, named, List.filter_cons_of_pos (by simpa using h)]
    rfl

namespace Worker

theorem logs_fetchFrom (w : Worker) (t : Target) (k : Watched (Recorded κ)) :
    Logs k (w.fetchFrom t k).cluster [w.fetchCall t] := by
  rw [fetchFrom, fetchCall]
  cases t.name with
  | some name => rfl
  | none => rfl

theorem cluster_doFetch (w : Worker) (t : Target) (rest : List Errand) (k : κ) :
    (w.doFetch t rest k).cluster = (w.fetchFrom t k).cluster := by
  rw [doFetch]
  dsimp only
  split <;> rfl

theorem cluster_doClear (w : Worker) (kind : Kind) (x : Resource) (rest : List Errand) (k : κ) :
    (w.doClear kind x rest k).cluster = (Cluster.updateResource kind x k).cluster := by
  rw [doClear]
  dsimp only
  split <;> rfl

theorem cluster_doDelete (w : Worker) (rest : List Errand) (k : κ) :
    (w.doDelete rest k).cluster = (Cluster.deleteSpace w.space k).cluster := by
  rw [doDelete]
  dsimp only
  split <;> rfl

/-- An errand logs its calls. -/
theorem logs_step? (h : w.step? k = some turn) : Logs k turn.cluster (callsIn turn.events) := by
  rcases step?_cases h with ⟨t, rest, he, rfl⟩ | ⟨kind, x, rest, he, rfl⟩ | ⟨rest, he, rfl⟩
  · rw [(did_doFetch he).calls, cluster_doFetch]
    exact logs_fetchFrom w t k
  · rw [(did_doClear he).calls, cluster_doClear]
    rfl
  · rw [(did_doDelete he).calls, cluster_doDelete]
    exact logs_deleteSpace w.space k

end Worker

namespace Teardown

variable {t t' : Teardown (Watched (Recorded κ))} {es : List Event} {m : Move}

theorem logs_move? (h : t.move? m = some (es, t')) : Logs t.cluster t'.cluster (callsIn es) := by
  have hlisted : ∀ space, Logs t.cluster (t.listed space).cluster
      (callsIn (t.listedEvents space)) := by
    intro space
    rw [callsIn_listedEvents]
    rfl
  cases m with
  | coordinate now =>
      cases step?_cases h with
      | drained | resumed | joined => exact Logs.refl _
      | handed failed space rest => exact hlisted space
      | paused failed due space rest notes =>
          rw [callsIn_append, callsIn_notes, List.append_nil]
          exact hlisted space
      | skipped failed space rest pods notes =>
          rw [callsIn_append, callsIn_notes, List.append_nil]
          exact hlisted space
      | unreachable failed space rest e =>
          rw [callsIn_append, Worker.callsIn_failureEvents, List.append_nil]
          exact hlisted space
      | buried =>
          rw [Worker.callsIn_failureEvents]
          exact Logs.refl _
      | concluded =>
          rw [callsIn_conclude, conclude_eq]
          exact Logs.refl _
  | errand i =>
      obtain ⟨w, turn, _, hstep, rfl, rfl⟩ := workerStep?_eq_some_iff.mp h
      exact Worker.logs_step? hstep

theorem logs_play (t : Teardown (Watched (Recorded κ))) (ms : List Move) :
    Logs t.cluster (play (recorded move?) ([], t) ms).2.cluster
      (callsIn (play (recorded move?) ([], t) ms).1) := by
  refine play_induction (P := fun j : List Event × Teardown (Watched (Recorded κ)) =>
    Logs t.cluster j.2.cluster (callsIn j.1)) ?_ (Logs.refl _) ms
  intro m j j' hj hm
  obtain ⟨es, hm, hes⟩ := recorded_eq_some_iff.mp hm
  rw [hes, callsIn_append]
  exact hj.trans (logs_move? hm)

end Teardown

/-! ## Refusals -/

namespace Ledger

variable {spaces : List String} {l l' : Ledger (Watched κ)} {m : Teardown.Move}
  {k joined : Nat}

/-- Whoever was to delete a namespace without a name was refused. -/
def Refuses (spaces : List String) (l : Ledger (Watched κ)) : Prop :=
  ∀ p ∈ l.postings, ∀ answer, spaces[p.place]? = some "" → p.deed = .deleted answer →
    answer = .failed namelessError

/-- A deletion is an errand of the worker of its place. -/
theorem Kept.answer_of_matter? (h : Kept spaces k joined l) {i : Nat} {answer : Deleted}
    {space : String} (hm : l.matter? m = some (i, .deleted answer)) (hs : spaces[i]? = some space) :
    answer = (Cluster.deleteSpace space l.teardown.cluster).answer := by
  cases m with
  | coordinate now =>
      rw [matter?] at hm
      split at hm
      · cases hm
      · obtain ⟨_, _, hm⟩ := Option.bind_eq_some_iff.mp hm
        obtain ⟨_, _, hm⟩ := Option.bind_eq_some_iff.mp hm
        cases hm
      · cases hm
  | errand j =>
      obtain ⟨i', hi, hm⟩ := Option.bind_eq_some_iff.mp hm
      obtain ⟨w, hw, hm⟩ := Option.bind_eq_some_iff.mp hm
      obtain ⟨d, hd, hm⟩ := Option.bind_eq_some_iff.mp hm
      cases hm
      have ha := h.manned.employed j i w space hi hw hs
      rw [Standing.of] at ha
      split at ha
      · have hover := ha.isOver_of_dismissed
        rw [Worker.isOver, List.isEmpty_iff] at hover
        rw [Worker.deed?, hover] at hd
        cases hd
      · rw [← ha.space_employed]
        rw [Worker.deed?] at hd
        split at hd
        · cases hd
        · cases hd
        · cases hd
        · cases hd
          rfl

theorem Kept.refuses (h : Kept spaces k joined l) (hr : l.Refuses spaces) (hm : l.move? m = some l') :
    l'.Refuses spaces := by
  obtain ⟨es, t, _, rfl⟩ := move?_eq_some_iff.mp hm
  cases hmatter : l.matter? m with
  | none =>
      have hpost : (l.enter m es t).postings = l.postings := by rw [enter, hmatter]
      rw [Refuses, hpost]
      exact hr
  | some x =>
      obtain ⟨i, d⟩ := x
      rw [Refuses, enter, hmatter]
      intro p hp answer hs hd
      rcases List.mem_append.mp hp with hp | hp
      · exact hr p hp answer hs hd
      · rw [List.mem_singleton.mp hp] at hs hd
        subst hd
        rw [h.answer_of_matter? hmatter hs]
        rfl

/-- The account of a place whose namespace has no name, after its worker was to delete it. -/
def RefusedAt (l : Ledger (Watched κ)) (i : Nat) : Prop :=
  ∃ looks clearing deletion joining,
    accountOf l.postings i = looks ++ clearing ++ [deletion, joining] ∧
      deletionsIn (looks ++ clearing) = [] ∧ callsIn deletion.events = [.deleteSpace ""] ∧
      callsIn joining.events = [] ∧
      (∀ f ∈ failuresIn (looks ++ clearing), ∃ kind, f.step = .clearFinalizers kind) ∧
      failuresIn [deletion, joining] = [namelessFailure]

/-- When a teardown returns, every place that holds no name and in which no pods were running
at last has one deletion, which was refused. -/
theorem refused_play (policy : RetryPolicy) (systemSpace : String) (targets : List Target)
    (spaces : List String) (cluster : Watched κ) (ms : List Teardown.Move)
    {r : Except TeardownError Unit} {l : Ledger (Watched κ)}
    (hl : l = play Ledger.move? { teardown := .start policy systemSpace targets spaces cluster } ms)
    (hr : l.teardown.result? = some r) :
    l.Settled spaces r ∧ ∀ i pods, spaces[i]? = some "" →
      lastListing? (accountOf l.postings i) = some (.ok pods) → Teardown.countRunning pods = 0 →
      l.RefusedAt i := by
  have hkept : (∃ k joined, Kept spaces k joined l) ∧ l.Refuses spaces := by
    rw [hl]
    refine play_induction (P := fun l => (∃ k joined, Kept spaces k joined l) ∧ l.Refuses spaces)
      ?_ ⟨⟨0, 0, kept_start ..⟩, fun _ hp => nomatch hp⟩ ms
    rintro m l l' ⟨⟨k, joined, h⟩, hrefuses⟩ hm
    exact ⟨h.move? hm, h.refuses hrefuses hm⟩
  obtain ⟨⟨k, joined, h⟩, hrefuses⟩ := hkept
  have hsettled := h.settled hr
  refine ⟨hsettled, fun i pods hs hlast hfree => ?_⟩
  obtain ⟨looks, clearing, deletion, joining, answer, hsplit, _, hnone, hdeed, hcalls, _, hquiet,
    hclear, hfailures⟩ := (hsettled.accounted i "" hs).deleted pods hlast hfree
  have hmem : deletion ∈ accountOf l.postings i := by
    rw [hsplit]
    exact List.mem_append_right _ (List.mem_cons_self ..)
  obtain ⟨hposted, hplace⟩ := List.mem_filter.mp hmem
  have hanswer : answer = .failed namelessError :=
    hrefuses deletion hposted answer (beq_iff_eq.mp hplace ▸ hs) hdeed
  subst hanswer
  exact ⟨looks, clearing, deletion, joining, hsplit, hnone, hcalls, hquiet, hclear, hfailures⟩

end Ledger

namespace Deletion

omit [Cluster κ] in
theorem cluster_withTeardown (d : Deletion κ) (t : Teardown κ) :
    (d.withTeardown t).cluster = t.cluster := by
  rw [withTeardown]
  cases t.result? with
  | none => rfl
  | some r => cases r with
    | error e => rfl
    | ok _ => rfl

variable {d d' : Deletion κ} {es : List Event}

/-- The teardown of a deletion has not begun, or it is under way or over. -/
theorem Chronicle.early_or_torn (h : Chronicle d es d') (hfresh : d.stage = .looking) :
    (callsIn es = [] ∧ d'.cluster = d.cluster ∧
        ∀ r : Except TeardownError Unit,
          d'.result? ≠ some (r.mapError DeletionError.teardown)) ∨
      ∃ found before run t, d.metadata.answer = .ok found ∧ es = before ++ run ∧
        callsIn before = [] ∧
        Teardown.Conducted d.config.retry d.config.systemNamespace stuckTargets
          (d.spacesWith found) d.cluster run t ∧
        d' = d.withTeardown t := by
  have hphase : ∀ (e : PhaseError) (r : Except TeardownError Unit),
      some (Except.error (.phase e)) ≠ some (r.mapError DeletionError.teardown) := by
    rintro e (_ | _) h <;> cases h
  cases h with
  | looking =>
      refine .inl ⟨rfl, rfl, fun r hr => ?_⟩
      rw [result?, hfresh] at hr
      cases hr
  | unknown reason ha =>
      refine .inl ⟨callsIn_of_not_reachesOut fun _ he => (lookedUp_quiet d he).2, rfl, ?_⟩
      rintro (_ | _) h <;> cases h
  | components found since run s ha hc hr =>
      refine .inl ⟨?_, rfl, fun r h => by cases h⟩
      rw [callsIn_append, callsIn_preamble]
      exact hc.callsIn
  | componentsFailed found run s e ha hc hr =>
      refine .inl ⟨?_, rfl, hphase e⟩
      rw [callsIn_append, callsIn_preamble]
      exact hc.callsIn
  | prerequisites found es s hp hr => exact .inl ⟨hp.callsIn, rfl, fun r h => by cases h⟩
  | prerequisitesFailed found es s e hp hr => exact .inl ⟨hp.callsIn, rfl, hphase e⟩
  | tearing found es t ht =>
      obtain ⟨before, run, ⟨s, hp, hr⟩, hc, rfl⟩ := ht
      have hfound : d.metadata.answer = .ok found := by
        obtain ⟨_, _, _, hcomponents, _⟩ := hp
        exact hcomponents.1
      refine .inr ⟨found, before ++ [.note (.tearingDown (d.spacesWith found).length)], run, t, hfound,
        ?_, ?_, hc, rfl⟩
      · rw [List.append_assoc]
        rfl
      · rw [callsIn_append, hp.callsIn]
        rfl

/-- A deletion logs its calls, whatever there is to be seen and in whatever order the workers
of its teardown do their errands. -/
theorem logs_play {d : Deletion (Watched (Recorded κ))} (hfresh : d.stage = .looking)
    (ms : List Move) :
    Logs d.cluster (play (recorded move?) ([], d) ms).2.cluster
      (callsIn (play (recorded move?) ([], d) ms).1) := by
  rcases (chronicle_play d hfresh ms).early_or_torn hfresh with
    ⟨hcalls, hcluster, _⟩ | ⟨found, before, run, t, _, hes, hcalls, ⟨tms, ht⟩, hd⟩
  · rw [hcalls, hcluster]
    exact Logs.refl _
  · have hlogs := Teardown.logs_play (.start d.config.retry d.config.systemNamespace stuckTargets
      (d.spacesWith found) d.cluster) tms
    rw [ht] at hlogs
    rw [hes, callsIn_append, hcalls, hd, cluster_withTeardown]
    exact hlogs

/-- The teardown with which a deletion ended had an account in which the deletion of every
namespace without a name was refused. -/
structure Refused (d : Deletion (Watched κ)) (es : List Event) (r : Except TeardownError Unit)
    (found : List String) (l : Ledger (Watched κ)) : Prop where
  recorded : d.metadata.answer = .ok found
  /-- The calls of the deletion are those of the teardown. -/
  calls : callsIn es = callsIn l.events
  settled : l.Settled (d.spacesWith found) r
  refused : ∀ i pods, (d.spacesWith found)[i]? = some "" →
    lastListing? (accountOf l.postings i) = some (.ok pods) → Teardown.countRunning pods = 0 →
    l.RefusedAt i

theorem exists_refused {d : Deletion (Watched κ)} (hfresh : d.stage = .looking) (ms : List Move)
    {r : Except TeardownError Unit}
    (hr : (play (recorded move?) ([], d) ms).2.result? =
      some (r.mapError DeletionError.teardown)) :
    ∃ found l, Refused d (play (recorded move?) ([], d) ms).1 r found l := by
  rcases (chronicle_play d hfresh ms).early_or_torn hfresh with
    ⟨_, _, hnone⟩ | ⟨found, before, run, t, hfound, hes, hcalls, ⟨tms, ht⟩, hd⟩
  · exact absurd hr (hnone r)
  · let begun : Ledger (Watched κ) :=
      { teardown := .start d.config.retry d.config.systemNamespace stuckTargets
          (d.spacesWith found) d.cluster }
    have hledger := Ledger.play_eq begun tms
    rw [ht] at hledger
    obtain ⟨hevents, hteardown⟩ := Prod.mk.inj hledger
    have hresult : t.result? = some r := by
      rw [hd, result?_withTeardown] at hr
      obtain ⟨r', ht', heq⟩ := Option.map_eq_some_iff.mp hr
      rw [ht']
      cases r' with
      | error e =>
          cases r with
          | error e' => cases heq; rfl
          | ok _ => cases heq
      | ok _ =>
          cases r with
          | error e' => cases heq
          | ok _ => rfl
    obtain ⟨hsettled, hrefused⟩ := Ledger.refused_play d.config.retry d.config.systemNamespace
      stuckTargets (d.spacesWith found) d.cluster tms rfl (hteardown ▸ hresult)
    refine ⟨found, play Ledger.move? begun tms, hfound, ?_, hsettled, hrefused⟩
    rw [hes, callsIn_append, hcalls, hevents, List.nil_append]

end Deletion

end Decommission
