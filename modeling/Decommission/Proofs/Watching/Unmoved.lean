import Decommission.Proofs.Deletion.Removal
import Decommission.Proofs.Watching.Nameless

/-!
# Watching changes nothing but the log

A deletion at a site, and the same deletion with some of the engines, of the uninstallers and
maybe the cluster watched: they stay together in the usual course, and in every free course,
in which workers, engines and uninstallers may take any time and any turn
(`Deletion.unmoved`).  Only names that are empty make a difference to a watched cluster, and
only the one that a cluster makes that refuses to delete such namespaces.
-/

namespace Decommission

namespace Deletion

variable {κ κ' : Type} {f : κ → κ'} {ok : String → Prop}

/-- Two courses are the same but for watchers, the clusters inside being so too. -/
structure Unmoved (f : κ → κ') (c : Course (Deletion κ)) (c' : Course (Deletion κ')) : Prop where
  result? : c.director.result? = c'.director.result?
  updates : c.site.history.updates = c'.site.history.updates
  now : c.site.now = c'.site.now
  calls : c.site.history.calls = c'.site.history.calls
  cluster : f c.director.cluster = c'.director.cluster
  /-- So is everything else that has happened, and what is going on. -/
  site : c.site.unwatched = c'.site.unwatched

theorem unmoved_of_inStep {P : Deletion κ → Prop} {c : Course (Deletion κ)}
    {c' : Course (Deletion κ')} (h : InStep (onCluster f) P c c') : Unmoved f c c' where
  result? := by rw [h.director, result?_onCluster]
  updates := by
    rw [← c.site.history.updates_unwatched, h.history, c'.site.history.updates_unwatched]
  now := h.now
  calls := by rw [← c.site.history.calls_unwatched, h.history, c'.site.history.calls_unwatched]
  cluster := congrArg Deletion.cluster h.director.symm
  site := h.site

variable [Cluster κ] [Cluster κ']

/-- Two deletions at two sites are the same but for watchers, from the beginning to the end. -/
structure Follows (f : κ → κ') (d : Deletion κ) (site : Site) (d' : Deletion κ') (site' : Site) :
    Prop where
  usual : Unmoved f (d.conduct site) (d'.conduct site')
  free : ∀ ms, Unmoved f (play (Course.move? errand?) ⟨d, site⟩ ms)
    (play (Course.move? errand?) ⟨d', site'⟩ ms)

theorem follows (h : Relays f ok) {d : Deletion κ} {d' : Deletion κ'} {site site' : Site}
    (hd : d.Lists ok) (hd' : d' = d.onCluster f) (hs : site.unwatched = site'.unwatched) :
    Follows f d site d' site' := by
  have hstep : InStep (onCluster f) (Lists ok) ⟨d, site⟩ ⟨d', site'⟩ := ⟨hd', hd, hs⟩
  refine ⟨unmoved_of_inStep (hstep.run (retells h)), fun ms => ?_⟩
  have hplay := hstep.play (retells h) (fun i d hd => told_errand? h hd i)
    (fun i d y hd hy => lists_errand? hd hy) ms
  exact unmoved_of_inStep hplay

omit [Cluster κ] [Cluster κ'] in
theorem onCluster_onCluster {κ'' : Type} (g : κ' → κ'') (d : Deletion κ) :
    (d.onCluster f).onCluster g = d.onCluster fun k => g (f k) := by
  cases d with
  | mk config metadata cluster stage => cases stage with
    | _ => rfl

omit [Cluster κ] in
theorem onCluster_id (d : Deletion κ) : d.onCluster (fun k => k) = d := by
  cases d with
  | mk config metadata cluster stage => cases stage with
    | _ => rfl

/-- The deletion with its cluster watched. -/
def watched (d : Deletion κ) : Deletion (Watched κ) := d.onCluster Watched.mk

/-- The deletion with its cluster guarded. -/
def guarded (d : Deletion κ) : Deletion (Guarded κ) := d.onCluster Guarded.mk

omit [Cluster κ] in
theorem lists_of_looking {d : Deletion κ} (hfresh : d.stage = .looking)
    (h : ∀ recorded, d.metadata.answer = .ok recorded → ∀ space ∈ d.spacesWith recorded, ok space) :
    d.Lists ok := by
  rw [Lists, hfresh]
  exact h

/-- A course of a deletion on a watched cluster, with regard to namespaces without a name. -/
structure Nameless (d : Deletion (Watched (Recorded κ))) (site : Site)
    (c : Course (Deletion (Watched (Recorded κ)))) : Prop where
  /-- All other calls, in their order, have reached the cluster inside, and if the deletion
  has ended with the teardown, all deletions of namespaces without a name were refused. -/
  told : ∃ es, c.site.history.directed = site.history.directed ++ es ∧
    Logs d.cluster c.director.cluster (callsIn es) ∧
    ∀ r : Except TeardownError Unit,
      c.director.result? = some (r.mapError DeletionError.teardown) →
      ∃ found l, Refused d es r found l

theorem nameless_play {d : Deletion (Watched (Recorded κ))} (hfresh : d.stage = .looking)
    (site : Site) (ms : List (Course.Move Nat)) :
    Nameless d site (play (Course.move? errand?) ⟨d, site⟩ ms) := by
  have hlook : ∀ g (d : Deletion (Watched (Recorded κ))), ∃ m, d.move? m = Director.step? g d :=
    fun g _ => ⟨.look g, rfl⟩
  have herrand : ∀ i (d : Deletion (Watched (Recorded κ))), ∃ m, d.move? m = errand? i d :=
    fun i _ => ⟨.errand i, rfl⟩
  obtain ⟨ns, hdirector, hdirected⟩ := Course.directed_play (c := ⟨d, site⟩) hlook herrand ms
  refine ⟨_, hdirected, hdirector ▸ logs_play hfresh ns, fun r hr => ?_⟩
  exact exists_refused hfresh ns (hdirector ▸ hr)

/-- Watching engines, uninstallers and the cluster changes nothing but the log, as long as no
namespace is to be torn down whose name is empty.  A watched cluster refuses to delete such a
namespace, and that is all it does.  The cluster inside may be any, since keeping its calls
changes nothing. -/
theorem unmoved (d : Deletion (Recorded κ)) (hfresh : d.stage = .looking) (site : Site)
    (w : Watching) :
    Follows Recorded.inner d site (d.onCluster Recorded.inner) site ∧
      Follows (fun k => k) d (site.watchedBy w) d site ∧
      ((∀ recorded, d.metadata.answer = .ok recorded → "" ∉ d.spacesWith recorded) →
        Follows Watched.inner d.watched (site.watchedBy w) d site) ∧
      Follows Watched.guarded d.watched (site.watchedBy w) d.guarded site ∧
      Nameless d.watched (site.watchedBy w) (d.watched.conduct (site.watchedBy w)) ∧
      ∀ ms, Nameless d.watched (site.watchedBy w)
        (play (Course.move? errand?) ⟨d.watched, site.watchedBy w⟩ ms) := by
  have hsite := site.unwatched_watchedBy w
  have hwatched : d.watched.stage = .looking := congrArg (Stage.onCluster Watched.mk) hfresh
  have hany : d.Lists fun _ => True := lists_of_looking hfresh fun _ _ _ _ => trivial
  refine ⟨follows Recorded.relays_inner hany rfl rfl,
    follows Relays.id hany (onCluster_id d).symm hsite, fun hnames => ?_, ?_, ?_,
    nameless_play hwatched _⟩
  · refine follows Watched.relays_named (lists_of_looking hwatched ?_) ?_ hsite
    · intro recorded hrecorded space hmem hempty
      exact hnames recorded hrecorded (hempty ▸ hmem)
    · exact ((onCluster_onCluster _ d).trans (onCluster_id d)).symm
  · exact follows Watched.relays_guarded (lists_of_looking hwatched fun _ _ _ _ => trivial)
      (onCluster_onCluster (f := Watched.mk) Watched.guarded d).symm hsite
  · obtain ⟨ms, _, hms⟩ := reaches_conduct hwatched (site.watchedBy w)
    rw [← hms]
    exact nameless_play hwatched _ ms

/-- Everything is watched. -/
def everything : Watching := ⟨fun _ => true, fun _ => true⟩

/-- A site where two components and a prerequisite are removed by pools. -/
def poolSite : Site := .withPools 2 ⟨[⟨"c", "y"⟩], [⟨"a", "x"⟩, ⟨"b", "x"⟩]⟩ (.nothing false)

/-- A deletion that knows of no namespace but the one that is torn down in any case. -/
def idle : Deletion (Recorded EmptyCluster) := ⟨.standard, .nothing, ⟨⟨⟩, []⟩, .looking⟩

/-- The same with a namespace on record that has no name. -/
def idleNameless : Deletion (Recorded EmptyCluster) := { idle with metadata := ⟨.ok [""], true⟩ }

/-- Moves of two workers, of both pools and of the teardown. -/
def twoSpaces : List (Course.Move Nat) :=
  twoWorkers ++ [.look, .look, .help 0, .help 1, .look, .look, .look]

set_option maxRecDepth 8000 in
/-- All goes well, and there are notes of watchers.  If there is a namespace without a name, it
is refused. -/
theorem unmoved_twoWorkers :
    let site := poolSite.watchedBy everything
    let c := play (Course.move? errand?) ⟨idle.watched, site⟩ twoSpaces
    let c' := play (Course.move? errand?) ⟨idle, poolSite⟩ twoSpaces
    let c'' := play (Course.move? errand?) ⟨idleNameless.watched, site⟩ twoSpaces
    (∀ recorded, idle.metadata.answer = .ok recorded → "" ∉ idle.spacesWith recorded) ∧
      Follows Watched.inner idle.watched site idle poolSite ∧ Unmoved Watched.inner c c' ∧
      c.director.result? = some (.ok ()) ∧ c'.site.history.length < c.site.history.length ∧
      c''.director.result? = some (.error (.teardown (.ofFailures [namelessFailure]))) ∧
      c''.director.cluster.inner.calls =
        [.listPods "", .listPods "kyma-installer", .deleteSpace "kyma-installer"] ∧
      Nameless idleNameless.watched site c'' := by
  intro site c c' c''
  have hnames : ∀ recorded, idle.metadata.answer = .ok recorded →
      "" ∉ idle.spacesWith recorded := by
    intro recorded h
    cases h
    decide
  have hfollows := (unmoved idle rfl poolSite everything).2.2.1 hnames
  have hnameless := (unmoved idleNameless rfl poolSite everything).2.2.2.2.2 twoSpaces
  have hresult : c.director.result? = some (.ok ()) := by
    unfold c site
    rfl
  have hresult' :
      c''.director.result? = some (.error (.teardown (.ofFailures [namelessFailure]))) := by
    unfold c'' site
    rfl
  exact ⟨hnames, hfollows, hfollows.free twoSpaces, hresult, by decide +kernel, hresult',
    by decide +kernel, hnameless⟩

end Deletion

end Decommission
