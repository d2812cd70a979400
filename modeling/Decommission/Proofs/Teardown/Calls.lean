import Decommission.Proofs.Teardown.Absence
import Decommission.Proofs.Teardown.Alone

/-!
# Which calls a worker makes

The calls of a worker are a tour: each target is fetched in turn, each fetched resource that
has finalizers is updated, and then the namespace is deleted.  An answer decides which
updates follow the fetch that it is the answer to, and nothing else (`Toured`).

`Worker.Follows` is a worker under any answers whatever.  It is on its way (`Touring`) until
it has nothing left to do.  In a teardown the workers are of that kind (`Ledger.Staffed`), so
all of them make their tours, whatever the cluster answers to anybody.
-/

namespace Decommission

/-! ## Tours -/

namespace Target

/-- The call that fetches the resources of a target: in the namespace, unless they live in
none, and by the name, if there is one. -/
def fetch (t : Target) (space : String) : Call :=
  match t.scope, t.name with
  | .cluster, some name => .getResource t.kind none name
  | .cluster, none => .listResources t.kind none
  | .namespaced, some name => .getResource t.kind (some space) name
  | .namespaced, none => .listResources t.kind (some space)

/-- The updates that follow the answer to a fetch: one for each resource with finalizers, to
the same resource without. -/
def updates (t : Target) : Except ClusterError (List Resource) → List Call
  | .ok rs => (rs.filter fun r => r.finalizers ≠ []).map fun r =>
      .updateResource t.kind ⟨r.name, r.space, []⟩
  | .error _ => []

/-- The calls for a target. -/
def calls (t : Target) (space : String) (answer : Except ClusterError (List Resource)) :
    List Call :=
  t.fetch space :: t.updates answer

theorem fetchCall_eq (t : Target) (w : Worker) : w.fetchCall t = t.fetch w.space := by
  rw [Worker.fetchCall, fetch, spaceIn]
  cases t.scope with
  | cluster => cases t.name <;> rfl
  | namespaced => cases t.name <;> rfl

/-- The updates are what is put in front of the other errands. -/
theorem updates_ok (t : Target) (rs : List Resource) :
    t.updates (.ok rs) = ((rs.filter fun r => !r.finalizers.isEmpty).map Resource.cleared).map
      (.updateResource t.kind) := by
  have hfilter : (rs.filter fun r => r.finalizers ≠ []) =
      rs.filter fun r => !r.finalizers.isEmpty := by
    refine List.filter_congr fun r _ => ?_
    cases r.finalizers with
    | nil => rfl
    | cons f fs => rfl
  rw [updates, hfilter, List.map_map]
  rfl

end Target

/-- The calls for targets, each with the answer to its fetch. -/
def tour (space : String) (fetches : List (Target × Except ClusterError (List Resource))) :
    List Call :=
  fetches.flatMap fun x => x.1.calls space x.2

theorem tour_concat (space : String)
    (fetches : List (Target × Except ClusterError (List Resource))) (t : Target)
    (answer : Except ClusterError (List Resource)) :
    tour space (fetches ++ [(t, answer)]) = tour space fetches ++ t.calls space answer := by
  rw [tour, List.flatMap_append, List.flatMap_singleton]
  rfl

/-! ## Deeds of a worker -/

namespace Deed

/-- The errand that is done, if the deed is one of a worker. -/
def errand? : Deed → Option Errand
  | fetched t _ => some (.fetch t)
  | cleared kind r _ => some (.clear kind r)
  | deleted _ => some .delete
  | listed _ | joined _ => none

/-- Whether the deed is one of a worker. -/
def isErrand (d : Deed) : Bool := d.errand?.isSome

/-- What was fetched, with the answer. -/
def fetched? : Deed → Option (Target × Except ClusterError (List Resource))
  | fetched t answer => some (t, answer)
  | _ => none

end Deed

/-- What was fetched in turn. -/
def fetchesIn (ds : List Deed) : List (Target × Except ClusterError (List Resource)) :=
  ds.filterMap Deed.fetched?

theorem fetchesIn_concat (ds : List Deed) (d : Deed) :
    fetchesIn (ds ++ [d]) = fetchesIn ds ++ d.fetched?.toList := by
  rw [fetchesIn, List.filterMap_append]
  cases h : d.fetched? with
  | none => rw [List.filterMap_cons_none h]; rfl
  | some x => rw [List.filterMap_cons_some h]; rfl

namespace Worker

/-- A worker does its errands in turn and gets any answers. -/
inductive Follows (w₀ : Worker) : List Deed → Worker → Prop
  | start : Follows w₀ [] w₀
  | errand {ds : List Deed} {w : Worker} {d : Deed} {e : Errand} {rest : List Errand} :
      Follows w₀ ds w → w.errands = e :: rest → d.errand? = some e →
      Follows w₀ (ds ++ [d]) (w.after d)

/-- A worker that has targets left to fetch or updates left to make. -/
structure Touring (space : String) (targets : List Target) (ds : List Deed) (w : Worker)
    (kind : Kind) (rs : List Resource) (ts : List Target) : Prop where
  ahead : Chore.Ahead w kind rs ts
  fetched : (fetchesIn ds).map Prod.fst ++ ts = targets
  /-- What has been called and the updates left are the tour so far. -/
  calls : ds.flatMap (Deed.calls space) ++ rs.map (.updateResource kind) =
    tour space (fetchesIn ds)

/-- A worker that has made its tour. -/
structure Home (space : String) (targets : List Target) (ds : List Deed) (w : Worker) : Prop where
  ended : w.errands = []
  fetched : (fetchesIn ds).map Prod.fst = targets
  calls : ds.flatMap (Deed.calls space) = tour space (fetchesIn ds) ++ [.deleteSpace space]

variable {space : String} {targets : List Target} {ds : List Deed} {w : Worker} {kind : Kind}
  {rs : List Resource} {ts : List Target} {d : Deed} {e : Errand} {rest : List Errand}

theorem Touring.clear {r : Resource} (h : Touring space targets ds w kind (r :: rs) ts)
    (answer : Except ClusterError Resource) :
    Touring space targets (ds ++ [.cleared kind r answer]) (w.after (.cleared kind r answer))
      kind rs ts := by
  have hfetches : fetchesIn (ds ++ [.cleared kind r answer]) = fetchesIn ds :=
    (fetchesIn_concat ds _).trans (List.append_nil _)
  refine ⟨⟨congrArg List.tail h.ahead.errands, h.ahead.alive⟩, ?_, ?_⟩
  · rw [hfetches, h.fetched]
  · rw [hfetches, ← h.calls, List.flatMap_append, List.append_assoc]
    rfl

theorem Touring.fetch {t : Target} (h : Touring space targets ds w kind [] (t :: ts))
    (answer : Except ClusterError (List Resource)) :
    ∃ rs', Touring space targets (ds ++ [.fetched t answer]) (w.after (.fetched t answer))
      t.kind rs' ts := by
  have hfetches : fetchesIn (ds ++ [.fetched t answer]) = fetchesIn ds ++ [(t, answer)] :=
    fetchesIn_concat ds _
  have hfetched : (fetchesIn (ds ++ [Deed.fetched t answer])).map Prod.fst ++ ts = targets := by
    rw [hfetches, List.map_append, List.append_assoc]
    exact h.fetched
  have htail : w.errands.tail = ts.map .fetch ++ [.delete] :=
    congrArg List.tail h.ahead.errands
  have hcalls : (ds ++ [Deed.fetched t answer]).flatMap (Deed.calls space) ++ t.updates answer =
      tour space (fetchesIn (ds ++ [.fetched t answer])) := by
    have hbefore : ds.flatMap (Deed.calls space) = tour space (fetchesIn ds) :=
      (List.append_nil _).symm.trans h.calls
    rw [hfetches, tour_concat, ← hbefore, List.flatMap_append, List.flatMap_singleton,
      List.append_assoc]
    show _ ++ ([(Worker.start space []).fetchCall t] ++ t.updates answer) = _
    rw [t.fetchCall_eq]
    rfl
  cases answer with
  | error e => exact ⟨[], ⟨htail, h.ahead.alive⟩, hfetched, hcalls⟩
  | ok rs =>
      refine ⟨_, ⟨?_, h.ahead.alive⟩, hfetched, t.updates_ok rs ▸ hcalls⟩
      show clearing t.kind rs ++ w.errands.tail = _
      rw [htail, clearing, List.map_map]
      rfl

theorem Touring.delete (h : Touring space targets ds w kind [] []) (answer : Deleted) :
    Home space targets (ds ++ [.deleted answer]) (w.after (.deleted answer)) := by
  have hfetches : fetchesIn (ds ++ [.deleted answer]) = fetchesIn ds :=
    (fetchesIn_concat ds _).trans (List.append_nil _)
  have htail : w.errands.tail = [] := congrArg List.tail h.ahead.errands
  refine ⟨?_, ?_, ?_⟩
  · cases answer with
    | fatal => rfl
    | done => exact htail
    | failed e => exact htail
  · rw [hfetches, ← h.fetched, List.append_nil]
  · rw [hfetches, ← h.calls, List.flatMap_append, List.map_nil, List.append_nil]
    rfl

/-- Under any answers, a worker is on its tour or has made it. -/
theorem Follows.touring (h : Follows (.start space targets) ds w) :
    (∃ kind rs ts, Touring space targets ds w kind rs ts) ∨ Home space targets ds w := by
  induction h with
  | start =>
      exact Or.inl ⟨default, [], targets, Chore.ahead_start space default targets, rfl, rfl⟩
  | @errand ds w d e rest _ he hd ih =>
      rcases ih with ⟨kind, rs, ts, h⟩ | h
      · have hnext := h.ahead.errands.symm.trans he
        cases rs with
        | cons r rs =>
            cases hnext
            cases d with
            | cleared kind' r' answer =>
                cases hd
                exact Or.inl ⟨_, _, _, h.clear answer⟩
            | _ => cases hd
        | nil =>
            cases ts with
            | cons t ts =>
                cases hnext
                cases d with
                | fetched t' answer =>
                    cases hd
                    obtain ⟨rs, h⟩ := h.fetch answer
                    exact Or.inl ⟨_, rs, _, h⟩
                | _ => cases hd
            | nil =>
                cases hnext
                cases d with
                | deleted answer => exact Or.inr (h.delete answer)
                | _ => cases hd
      · rw [h.ended] at he
        cases he

/-- A worker with nothing left to do has made its tour. -/
theorem Follows.home (h : Follows (.start space targets) ds w) (hover : w.isOver) :
    Home space targets ds w := by
  have hnil : w.errands = [] := List.isEmpty_iff.mp hover
  rcases h.touring with ⟨kind, rs, ts, ht⟩ | hh
  · have herr := ht.ahead.errands.symm.trans hnil
    simp at herr
  · exact hh

end Worker

/-! ## Calls in an account -/

/-- Whether the call lists pods. -/
def Call.isListing : Call → Bool
  | listPods _ => true
  | _ => false

/-- The calls that are no listings of pods. -/
def workCalls (ps : List Posting) : List Call :=
  (callsIn (ps.flatMap Posting.events)).filter fun c => !c.isListing

/-- What the worker of a place has done. -/
def deedsOf (ps : List Posting) (i : Nat) : List Deed :=
  ((accountOf ps i).map Posting.deed).filter Deed.isErrand

section Postings

variable {space : String} {ps : List Posting} {p : Posting} {i : Nat} {d : Deed}

theorem deedsOf_concat_of_errand?_eq_none (h : p.deed.errand? = none) :
    deedsOf (ps ++ [p]) i = deedsOf ps i := by
  by_cases hi : p.place = i
  · subst hi
    rw [deedsOf, accountOf_concat, List.map_append, List.filter_append]
    simp [deedsOf, Deed.isErrand, h]
  · rw [deedsOf, accountOf_concat_of_ne hi, deedsOf]

theorem deedsOf_concat_of_errand? {e : Errand} (h : p.deed.errand? = some e) :
    deedsOf (ps ++ [p]) p.place = deedsOf ps p.place ++ [p.deed] := by
  rw [deedsOf, accountOf_concat, List.map_append, List.filter_append]
  simp [deedsOf, Deed.isErrand, h]

theorem Posting.IsLook.errand?_eq_none (h : p.IsLook space) : p.deed.errand? = none := by
  obtain ⟨⟨answer, hd, _⟩, _⟩ := h
  rw [hd, Deed.errand?]

theorem filter_isListing_calls (space : String) (d : Deed) :
    (d.calls space).filter (fun c => !c.isListing) =
      if d.isErrand then d.calls space else [] := by
  cases d with
  | fetched t answer =>
      rw [Deed.calls, t.fetchCall_eq, Target.fetch]
      split <;> rfl
  | _ => rfl

/-- The calls of an account that are no listings are those of its worker. -/
theorem workCalls_eq (h : ∀ p ∈ ps, callsIn p.events = p.deed.calls space) :
    workCalls ps =
      ((ps.map Posting.deed).filter Deed.isErrand).flatMap (Deed.calls space) := by
  induction ps with
  | nil => rfl
  | cons p ps ih =>
      have hrest := ih fun q hq => h q (List.mem_cons_of_mem _ hq)
      rw [workCalls] at hrest ⊢
      rw [List.flatMap_cons, callsIn_append, List.filter_append, hrest,
        h p (List.mem_cons_self ..), filter_isListing_calls, List.map_cons]
      by_cases hd : p.deed.isErrand
      · rw [if_pos hd, List.filter_cons_of_pos hd, List.flatMap_cons]
      · rw [if_neg hd, List.filter_cons_of_neg hd, List.nil_append]

/-- In an account the deeds decide the calls. -/
theorem Account.callsIn_eq {st : Standing} (h : Account space ps st) :
    ∀ p ∈ ps, callsIn p.events = p.deed.calls space := by
  cases h with
  | pending _ hl => exact fun p hp => (hl p hp).2.calls
  | running looks last pods hl _ _ hb =>
      rw [List.forall_mem_append, List.forall_mem_singleton]
      exact ⟨fun p hp => (hl p hp).2.calls, hb.calls⟩
  | unreachable looks last e hl hd hc _ =>
      rw [List.forall_mem_append, List.forall_mem_singleton]
      refine ⟨fun p hp => (hl p hp).2.calls, ?_⟩
      rw [hc, hd]
      rfl
  | busy looks clearing last _ _ hl hf hc =>
      rw [List.forall_mem_append, List.forall_mem_cons]
      exact ⟨fun p hp => (hl p hp).2.calls, hf.2.calls, fun p hp => (hc p hp).2.calls⟩
  | ended looks clearing last deletion _ _ hl hf hc hdel =>
      rw [List.forall_mem_append, List.forall_mem_cons, List.forall_mem_append,
        List.forall_mem_singleton]
      exact ⟨fun p hp => (hl p hp).2.calls, hf.2.calls, fun p hp => (hc p hp).2.calls,
        hdel.2.calls⟩
  | dismissed looks clearing last deletion joining _ _ hl hf hc hdel _ hj =>
      rw [List.forall_mem_append, List.forall_mem_cons, List.forall_mem_append,
        List.forall_mem_cons, List.forall_mem_singleton]
      exact ⟨fun p hp => (hl p hp).2.calls, hf.2.calls, fun p hp => (hc p hp).2.calls,
        hdel.2.calls, hj.calls⟩

/-- Nothing but listings is done for a namespace that is left alone. -/
theorem Account.errand?_of_left (h : Account space ps .left) :
    ∀ p ∈ ps, p.deed.errand? = none := by
  cases h with
  | running looks last _ hl hd | unreachable looks last _ hl hd =>
      rw [List.forall_mem_append, List.forall_mem_singleton]
      refine ⟨fun p hp => (hl p hp).errand?_eq_none, ?_⟩
      rw [hd, Deed.errand?]

theorem workCalls_eq_nil (hc : ∀ p ∈ ps, callsIn p.events = p.deed.calls space)
    (h : ∀ p ∈ ps, p.deed.errand? = none) : workCalls ps = [] := by
  have hnone : (ps.map Posting.deed).filter Deed.isErrand = [] := by
    refine List.filter_eq_nil_iff.mpr fun d hd => ?_
    obtain ⟨p, hp, rfl⟩ := List.mem_map.mp hd
    rw [Deed.isErrand, h p hp]
    exact Bool.false_ne_true
  rw [workCalls_eq hc, hnone, List.flatMap_nil]

end Postings

/-! ## The workers of a teardown -/

namespace Ledger

variable {κ : Type} {spaces : List String} {k joined : Nat} {l l' : Ledger κ}
  {m : Teardown.Move} {es : List Event} {t : Teardown κ}

/-- Every worker follows the targets of the namespace that was handed over to it. -/
structure Staffed (systemSpace : String) (targets : List Target) (spaces : List String)
    (l : Ledger κ) : Prop where
  system : l.teardown.systemSpace = systemSpace
  selected : l.teardown.targets = targets
  follows : ∀ (j i : Nat) (w : Worker) (space : String), (handedOf l.postings)[j]? = some i →
    l.teardown.workers[j]? = some w → spaces[i]? = some space →
    (Worker.start space (if space = systemSpace then targets else [])).Follows
      (deedsOf l.postings i) w

variable {systemSpace : String} {targets : List Target} [Cluster κ]

theorem errand?_of_deed? {w : Worker} {c : κ} {e : Errand} {rest : List Errand} {d : Deed}
    (he : w.errands = e :: rest) (hd : w.deed? c = some d) : d.errand? = some e := by
  rw [Worker.deed?, he] at hd
  cases e with
  | fetch t => cases hd; rfl
  | clear kind r => cases hd; rfl
  | delete => cases hd; rfl

/-- Where the coordinator waits for workers, it only sees them end. -/
theorem eq_joined_of_matter? {next i now : Nat} {d : Deed}
    (hs : l.teardown.stage = .joining next) (h : l.matter? (.coordinate now) = some (i, d)) :
    ∃ died, d = .joined died := by
  rw [matter?, hs] at h
  obtain ⟨i', _, h⟩ := Option.bind_eq_some_iff.mp h
  obtain ⟨w, _, h⟩ := Option.bind_eq_some_iff.mp h
  cases h
  exact ⟨w.died, rfl⟩

theorem postings_enter {i : Nat} {d : Deed} (h : l.matter? m = some (i, d)) :
    (l.enter m es t).postings =
      l.postings ++ [⟨i, d, es, t.failures.drop l.teardown.failures.length⟩] := by
  rw [enter, h]

/-- A move that neither hands a namespace over nor is an errand. -/
theorem Staffed.pass (h : Staffed systemSpace targets spaces l)
    (hm : ∀ i d, l.matter? m = some (i, d) →
      d.errand? = none ∧ ∀ answer, d = .listed answer → ¬ Teardown.isFree answer)
    (hs : t.systemSpace = l.teardown.systemSpace) (ht : t.targets = l.teardown.targets)
    (hw : t.workers = l.teardown.workers) :
    Staffed systemSpace targets spaces (l.enter m es t) := by
  refine ⟨hs.trans h.system, ht.trans h.selected, ?_⟩
  cases hmatter : l.matter? m with
  | none =>
      have hpost : (l.enter m es t).postings = l.postings := by rw [enter, hmatter]
      intro j i w space hj hwj hspace
      rw [hpost] at hj ⊢
      exact h.follows j i w space hj (hw ▸ hwj) hspace
  | some x =>
      obtain ⟨i₀, d⟩ := x
      obtain ⟨hd, hfree⟩ := hm i₀ d hmatter
      intro j i w space hj hwj hspace
      rw [postings_enter hmatter] at hj ⊢
      rw [handedOf_concat] at hj
      · rw [deedsOf_concat_of_errand?_eq_none hd]
        exact h.follows j i w space hj (hw ▸ hwj) hspace
      · rw [Posting.isHandOver]
        split
        · exact hfree _ ‹_›
        · exact Bool.false_ne_true

/-- A namespace is handed over to a worker that has done nothing yet. -/
theorem Staffed.handOver (h : Staffed systemSpace targets spaces l)
    (hk : Kept spaces k joined l) {now failed : Nat} {space : String} {rest : List String}
    (hs : l.teardown.stage = .checking failed (space :: rest))
    (hfree : Teardown.isFree (l.teardown.listing space).answer)
    (hsys : t.systemSpace = l.teardown.systemSpace) (ht : t.targets = l.teardown.targets)
    (hws : t.workers = l.teardown.workers ++ [.start space (l.teardown.targetsOf space)]) :
    Staffed systemSpace targets spaces (l.enter (.coordinate now) es t) := by
  obtain ⟨hmatter, hspace, _⟩ := hk.matter?_of_checking now hs
  have hover : Posting.isHandOver ⟨k, .listed (l.teardown.listing space).answer, es,
      t.failures.drop l.teardown.failures.length⟩ := hfree
  refine ⟨hsys.trans h.system, ht.trans h.selected, ?_⟩
  intro j i w space' hj hw hspace'
  have hw : t.workers[j]? = some w := hw
  rw [hws] at hw
  rw [postings_enter hmatter] at hj ⊢
  rw [handedOf_concat_of_handOver l.postings hover] at hj
  rw [deedsOf_concat_of_errand?_eq_none rfl]
  by_cases hlt : j < l.teardown.workers.length
  · rw [List.getElem?_append_left (hk.manned.length_handed ▸ hlt)] at hj
    rw [List.getElem?_append_left hlt] at hw
    exact h.follows j i w space' hj hw hspace'
  · have hlen : j = l.teardown.workers.length := by
      have hlt' := (List.getElem?_eq_some_iff.mp hw).1
      rw [List.length_append, List.length_singleton] at hlt'
      omega
    rw [hlen, ← hk.manned.length_handed, List.getElem?_concat_length] at hj
    rw [hlen, List.getElem?_concat_length] at hw
    cases hj
    cases hw
    cases hspace.symm.trans hspace'
    -- Nothing but looks has been posted for this place so far.
    have hnone : deedsOf l.postings k = [] := by
      refine List.filter_eq_nil_iff.mpr fun d hd => ?_
      obtain ⟨p, hp, rfl⟩ := List.mem_map.mp hd
      have hlooks := (hk.manned.pending k space (Nat.le_refl k) hspace).looks p hp
      rw [Deed.isErrand, hlooks.errand?_eq_none]
      exact Bool.false_ne_true
    rw [hnone, Teardown.targetsOf, h.system, h.selected]
    exact .start

theorem Staffed.coordinate (h : Staffed systemSpace targets spaces l)
    (hk : Kept spaces k joined l) {now : Nat} (hm : l.teardown.step? now = some (es, t)) :
    Staffed systemSpace targets spaces (l.enter (.coordinate now) es t) := by
  -- A look that hands nothing over.
  have hlook : ∀ {failed space rest}, l.teardown.stage = .checking failed (space :: rest) →
      ¬ Teardown.isFree (l.teardown.listing space).answer →
      ∀ i d, l.matter? (.coordinate now) = some (i, d) →
        d.errand? = none ∧ ∀ answer, d = .listed answer → ¬ Teardown.isFree answer := by
    intro failed space rest hs hfree i d hmatter
    rw [(hk.matter?_of_checking now hs).1] at hmatter
    cases hmatter
    exact ⟨rfl, fun answer ha => Deed.listed.inj ha ▸ hfree⟩
  have hjoin : ∀ {next}, l.teardown.stage = .joining next →
      ∀ i d, l.matter? (.coordinate now) = some (i, d) →
        d.errand? = none ∧ ∀ answer, d = .listed answer → ¬ Teardown.isFree answer := by
    intro next hs i d hmatter
    obtain ⟨died, rfl⟩ := eq_joined_of_matter? hs hmatter
    exact ⟨rfl, fun answer ha => nomatch ha⟩
  cases Teardown.step?_cases hm with
  | drained failed hs =>
      refine h.pass (fun i d hmatter => ?_) rfl rfl rfl
      rw [matter?, hs] at hmatter
      cases hmatter
  | handed failed space rest hs hfree => exact h.handOver hk hs hfree rfl rfl rfl
  | paused failed due space rest notes hs hfree => exact h.pass (hlook hs hfree) rfl rfl rfl
  | skipped failed space rest pods notes hs ha hr =>
      have hfree : ¬ Teardown.isFree (l.teardown.listing space).answer := by
        rw [ha]
        exact fun hf => hr (beq_iff_eq.mp hf)
      exact h.pass (hlook hs hfree) rfl rfl rfl
  | unreachable failed space rest e hs ha =>
      have hfree : ¬ Teardown.isFree (l.teardown.listing space).answer := by
        rw [ha]
        exact Bool.false_ne_true
      exact h.pass (hlook hs hfree) rfl rfl rfl
  | resumed due failed rest hs =>
      refine h.pass (fun i d hmatter => ?_) rfl rfl rfl
      rw [matter?, hs] at hmatter
      cases hmatter
  | joined next w hs => exact h.pass (hjoin hs) rfl rfl rfl
  | buried next w hs => exact h.pass (hjoin hs) rfl rfl rfl
  | concluded next hs =>
      rw [Teardown.conclude_eq]
      exact h.pass (hjoin hs) rfl rfl rfl

theorem Staffed.errand (h : Staffed systemSpace targets spaces l) (hk : Kept spaces k joined l)
    {j : Nat} (hm : l.teardown.workerStep? j = some (es, t)) :
    Staffed systemSpace targets spaces (l.enter (.errand j) es t) := by
  obtain ⟨w, turn, hw, hstep, rfl, rfl⟩ := Teardown.workerStep?_eq_some_iff.mp hm
  obtain ⟨e, rest, d, herr, hd, hdid⟩ := Worker.step?_spec hstep
  obtain ⟨i, hi⟩ := hk.manned.exists_handed hw
  have hmatter : l.matter? (.errand j) = some (i, d) := by
    rw [matter?, hi, hw]
    show (do let d ← w.deed? l.teardown.cluster; some (i, d)) = _
    rw [hd]
    rfl
  have he := errand?_of_deed? herr hd
  refine ⟨h.system, h.selected, ?_⟩
  intro j' i' w' space hj' hw' hspace
  have hw' : (l.teardown.workers.set j turn.worker)[j']? = some w' := hw'
  rw [postings_enter hmatter] at hj' ⊢
  rw [handedOf_concat] at hj'
  · by_cases hjj : j' = j
    · subst hjj
      rw [List.getElem?_set_self (List.getElem?_eq_some_iff.mp hw).1] at hw'
      cases hw'
      cases hi.symm.trans hj'
      rw [deedsOf_concat_of_errand? he, hdid.worker]
      exact (h.follows j' i w space hi hw hspace).errand herr he
    · rw [List.getElem?_set_ne (Ne.symm hjj)] at hw'
      have hne : i ≠ i' := by
        rintro rfl
        refine hjj ((List.getElem?_inj ?_ hk.manned.nodup_handed).mp (hj'.trans hi.symm))
        exact (List.getElem?_eq_some_iff.mp hj').1
      rw [deedsOf, accountOf_concat_of_ne hne]
      exact h.follows j' i' w' space hj' hw' hspace
  · exact Posting.not_isHandOver_of_deed? hd

theorem Staffed.move? (h : Staffed systemSpace targets spaces l) (hk : Kept spaces k joined l)
    (hm : l.move? m = some l') : Staffed systemSpace targets spaces l' := by
  obtain ⟨es, t, hstep, rfl⟩ := move?_eq_some_iff.mp hm
  cases m with
  | coordinate now => exact h.coordinate hk hstep
  | errand j => exact h.errand hk hstep

/-! ## Tours in a teardown -/

/-- The calls for a namespace that is handed over.  Only for the system namespace there are
targets. -/
structure Toured (systemSpace : String) (targets : List Target) (space : String)
    (ps : List Posting) : Prop where
  /-- In the system namespace every target is fetched once, in order, and every call for it
  follows its fetch.  At last the namespace is deleted. -/
  system : space = systemSpace →
    (fetchesIn (ps.map Posting.deed)).map Prod.fst = targets ∧
      workCalls ps = tour space (fetchesIn (ps.map Posting.deed)) ++ [.deleteSpace space]
  /-- Any other namespace is deleted. -/
  other : space ≠ systemSpace → workCalls ps = [.deleteSpace space]

theorem fetchesIn_filter (ds : List Deed) :
    fetchesIn (ds.filter Deed.isErrand) = fetchesIn ds := by
  induction ds with
  | nil => rfl
  | cons d ds ih =>
      rw [fetchesIn] at ih ⊢
      cases d with
      | fetched t answer => exact congrArg ((t, answer) :: ·) ih
      | _ => exact ih

omit [Cluster κ] in
theorem Staffed.toured (h : Staffed systemSpace targets spaces l) (hk : Kept spaces k joined l)
    {r : Except TeardownError Unit} (hr : l.teardown.result? = some r) {i : Nat} {space : String}
    (hspace : spaces[i]? = some space) (hi : i ∈ handedOf l.postings) :
    Toured systemSpace targets space (accountOf l.postings i) := by
  obtain ⟨_, hj, _⟩ := hk.reached.of_result? hr
  obtain ⟨j, hji⟩ := List.mem_iff_getElem?.mp hi
  have hlt : j < l.teardown.workers.length :=
    hk.manned.length_handed ▸ (List.getElem?_eq_some_iff.mp hji).1
  have hw := List.getElem?_eq_getElem hlt
  have hcalls := workCalls_eq (hk.manned.employed j i _ space hji hw hspace).callsIn_eq
  have hover := hk.manned.isOver_of_joined hj (List.mem_of_getElem? hw)
  have hhome := (h.follows j i _ space hji hw hspace).home hover
  have hfetches : fetchesIn (deedsOf l.postings i) =
      fetchesIn ((accountOf l.postings i).map Posting.deed) := fetchesIn_filter _
  refine ⟨fun hs => ?_, fun hs => ?_⟩
  · rw [if_pos hs] at hhome
    exact ⟨hfetches ▸ hhome.fetched, hcalls.trans (hfetches ▸ hhome.calls)⟩
  · rw [if_neg hs] at hhome
    have hnone : fetchesIn (deedsOf l.postings i) = [] := List.map_eq_nil_iff.mp hhome.fetched
    refine hcalls.trans (hhome.calls.trans ?_)
    rw [hnone]
    rfl

/-- A teardown comes to a result, and by then every worker has made its tour, whatever the
cluster answers to anybody and in whatever order the coordinator and the workers move.  What
was not handed over was only looked at. -/
theorem toured_inevitable (policy : RetryPolicy) (systemSpace : String) (targets : List Target)
    (spaces : List String) (cluster : κ) :
    Inevitable Ledger.move? (fun l => ∃ r, l.teardown.result? = some r ∧ l.Settled spaces r ∧
      ∀ i space, spaces[i]? = some space →
        (i ∈ handedOf l.postings → Toured systemSpace targets space (accountOf l.postings i)) ∧
          (i ∉ handedOf l.postings → workCalls (accountOf l.postings i) = []))
      { teardown := .start policy systemSpace targets spaces cluster } := by
  have hstart : Staffed systemSpace targets spaces
      ({ teardown := .start policy systemSpace targets spaces cluster } : Ledger κ) :=
    ⟨rfl, rfl, fun _ _ _ _ hj => nomatch hj⟩
  have hend := Teardown.inevitable_result (f := Ledger.teardown (κ := κ)) map_teardown_move?
    (Q := fun l => ∃ k joined, Kept spaces k joined l ∧ Staffed systemSpace targets spaces l)
    (fun m l l' ⟨k, joined, hk, h⟩ hm => by
      obtain ⟨k', joined', hk'⟩ := hk.move? hm
      exact ⟨k', joined', hk', h.move? hk hm⟩)
    ⟨0, 0, kept_start policy systemSpace targets spaces cluster, hstart⟩
  refine hend.mono ?_
  rintro l ⟨⟨r, hr⟩, k, joined, hk, h⟩
  refine ⟨r, hr, hk.settled hr, fun i space hspace => ⟨h.toured hk hr hspace, fun hi => ?_⟩⟩
  obtain ⟨hlast, _, _⟩ := hk.reached.of_result? hr
  rw [hk.listed] at hlast
  have hlt : i < k := hlast ▸ (List.getElem?_eq_some_iff.mp hspace).1
  have hleft := hk.manned.left i space hlt hi hspace
  exact workCalls_eq_nil hleft.callsIn_eq hleft.errand?_of_left

end Ledger

end Decommission
