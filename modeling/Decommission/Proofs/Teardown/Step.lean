import Decommission.Proofs.Events
import Decommission.Proofs.Play
import Decommission.Teardown.Basic

/-!
# What one move of a teardown can do

The coordinator and the workers of a teardown move in any order: a move of a
worker is one errand, so one call of the cluster.  `Teardown.step?_cases` lists
what a move of the coordinator can do.  `Teardown.Conducted` says that a teardown
has come from its beginning by moves of both.

A teardown only calls the cluster and takes notes (`isOfTeardown_of_move?`).
-/

namespace Decommission

/-- Whether the event is a call of the cluster or a note. -/
def Event.isOfTeardown : Event → Bool
  | .called _ | .note _ => true
  | _ => false

theorem Event.isSilent_of_isOfTeardown {e : Event} (h : e.isOfTeardown) : e.isSilent := by
  cases e with
  | called c => rfl
  | note n => rfl
  | _ => cases h

/-! ## Events -/

namespace Worker

variable {e : Event}

theorem isOfTeardown_failureEvents {fs : List TeardownFailure} (h : e ∈ failureEvents fs) :
    e.isOfTeardown := by
  obtain ⟨f, _, rfl⟩ := List.mem_map.mp h
  rfl

theorem isOfTeardown_callEvents {κ α : Type} {c : Call} {r : Reply κ α}
    (h : e ∈ callEvents c r) : e.isOfTeardown := by
  rcases List.mem_cons.mp h with rfl | hm
  · rfl
  · obtain ⟨n, _, rfl⟩ := List.mem_map.mp hm
    rfl

/-- A call is one call, whatever is noted of it. -/
theorem callsIn_callEvents {κ α : Type} (c : Call) (r : Reply κ α) :
    callsIn (callEvents c r) = [c] :=
  congrArg (c :: ·) (callsIn_notes r.notes)

theorem callsIn_failureEvents (fs : List TeardownFailure) : callsIn (failureEvents fs) = [] := by
  induction fs with
  | nil => rfl
  | cons f fs ih => exact ih

variable {κ : Type} [Cluster κ] {w : Worker} {k : κ} {turn : WorkerTurn κ}

/-- What an errand can be. -/
theorem step?_cases (h : w.step? k = some turn) :
    (∃ target rest, w.errands = .fetch target :: rest ∧ turn = w.doFetch target rest k) ∨
      (∃ kind x rest, w.errands = .clear kind x :: rest ∧ turn = w.doClear kind x rest k) ∨
        ∃ rest, w.errands = .delete :: rest ∧ turn = w.doDelete rest k := by
  rw [step?] at h
  split at h
  · cases h
  · rename_i target rest he
    exact Or.inl ⟨target, rest, he, (Option.some.inj h).symm⟩
  · rename_i kind x rest he
    exact Or.inr (Or.inl ⟨kind, x, rest, he, (Option.some.inj h).symm⟩)
  · rename_i rest he
    exact Or.inr (Or.inr ⟨rest, he, (Option.some.inj h).symm⟩)

theorem isOfTeardown_of_step? (h : w.step? k = some turn) (he : e ∈ turn.events) :
    e.isOfTeardown := by
  rcases step?_cases h with ⟨target, rest, _, rfl⟩ | ⟨kind, x, rest, _, rfl⟩ | ⟨rest, _, rfl⟩
  · rw [doFetch] at he
    dsimp only at he
    split at he
    · exact isOfTeardown_callEvents he
    · exact (List.mem_append.mp he).elim isOfTeardown_callEvents isOfTeardown_failureEvents
  · rw [doClear] at he
    dsimp only at he
    split at he
    · refine (List.mem_append.mp he).elim isOfTeardown_callEvents fun hm => ?_
      rw [List.mem_singleton.mp hm]
      rfl
    · exact (List.mem_append.mp he).elim isOfTeardown_callEvents isOfTeardown_failureEvents
  · rw [doDelete] at he
    dsimp only at he
    split at he
    · refine (List.mem_append.mp he).elim isOfTeardown_callEvents fun hm => ?_
      rw [List.mem_singleton.mp hm]
      rfl
    · refine (List.mem_append.mp he).elim isOfTeardown_callEvents fun hm => ?_
      rw [List.mem_singleton.mp hm]
      rfl
    · exact (List.mem_append.mp he).elim isOfTeardown_callEvents isOfTeardown_failureEvents
    · exact isOfTeardown_callEvents he

end Worker

/-! ## The coordinator -/

namespace Teardown

variable {κ : Type} [Cluster κ] {now : Nat} {t t' : Teardown κ} {es : List Event}

/-- The answer to a listing of the pods of a namespace, and what it leaves. -/
def listing (t : Teardown κ) (space : String) : Reply κ (Except ClusterError (List Pod)) :=
  Cluster.listPods space t.cluster

/-- The teardown after a listing of the pods of a namespace. -/
def listed (t : Teardown κ) (space : String) : Teardown κ :=
  { t with cluster := (t.listing space).cluster }

/-- What happens in a listing. -/
def listedEvents (t : Teardown κ) (space : String) : List Event :=
  Worker.callEvents (.listPods space) (t.listing space)

/-- Whether a listing shows that a namespace can be handed over. -/
def isFree : Except ClusterError (List Pod) → Bool
  | .ok pods => countRunning pods == 0
  | .error _ => false

/-- What a move of the coordinator can do: the events, and the teardown
afterwards. -/
inductive Stepped (now : Nat) (t : Teardown κ) : List Event → Teardown κ → Prop
  | drained (failed : Nat) : t.stage = .checking failed [] →
      Stepped now t [] { t with stage := .joining 0 }
  | handed (failed : Nat) (space : String) (rest : List String) :
      t.stage = .checking failed (space :: rest) → isFree (t.listing space).answer →
      Stepped now t (t.listedEvents space)
        { (t.listed space).handOver space with stage := .checking 0 rest }
  | paused (failed due : Nat) (space : String) (rest : List String) (notes : List Note) :
      t.stage = .checking failed (space :: rest) → ¬ isFree (t.listing space).answer →
      Stepped now t (t.listedEvents space ++ notes.map .note)
        { t.listed space with stage := .pausing due (failed + 1) (space :: rest) }
  | skipped (failed : Nat) (space : String) (rest : List String) (pods : List Pod)
      (notes : List Note) :
      t.stage = .checking failed (space :: rest) → (t.listing space).answer = .ok pods →
      countRunning pods ≠ 0 →
      Stepped now t (t.listedEvents space ++ notes.map .note)
        { t.listed space with stage := .checking 0 rest }
  | unreachable (failed : Nat) (space : String) (rest : List String) (e : ClusterError) :
      t.stage = .checking failed (space :: rest) → (t.listing space).answer = .error e →
      Stepped now t
        (t.listedEvents space ++ Worker.failureEvents [⟨space, .precheck, e.message⟩])
        { t.listed space with
          stage := .checking 0 rest
          failures := t.failures ++ [⟨space, .precheck, e.message⟩] }
  | resumed (due failed : Nat) (rest : List String) : t.stage = .pausing due failed rest →
      Stepped now t [] { t with stage := .checking failed rest }
  | joined (next : Nat) (w : Worker) : t.stage = .joining next → t.workers[next]? = some w →
      w.isOver → w.died = false →
      Stepped now t [] { t with stage := .joining (next + 1) }
  | buried (next : Nat) (w : Worker) : t.stage = .joining next → t.workers[next]? = some w →
      w.isOver → w.died = true →
      Stepped now t (Worker.failureEvents [⟨w.space, .worker, deathReason⟩])
        { t with
          stage := .joining (next + 1)
          failures := t.failures ++ [⟨w.space, .worker, deathReason⟩] }
  | concluded (next : Nat) : t.stage = .joining next → t.workers[next]? = none →
      Stepped now t t.conclude.1 t.conclude.2

/-- A look at a namespace does one of the things listed. -/
theorem stepped_check (now : Nat) {failed : Nat} {space : String} {rest : List String}
    (hs : t.stage = .checking failed (space :: rest)) :
    Stepped now t (t.check now failed space rest).1 (t.check now failed space rest).2 := by
  rw [check]
  dsimp only
  cases ha : (Cluster.listPods space t.cluster).answer with
  | ok pods =>
      dsimp only
      by_cases hr : countRunning pods = 0
      · rw [if_pos hr]
        refine .handed failed space rest hs ?_
        show isFree (Cluster.listPods space t.cluster).answer
        rw [ha]
        exact beq_iff_eq.mpr hr
      · rw [if_neg hr, retryOr]
        dsimp only
        cases t.policy.next? (failed + 1) with
        | some wait =>
            refine .paused failed _ space rest [.podsRunning space (failed + 1) _] hs ?_
            show ¬ isFree (Cluster.listPods space t.cluster).answer
            rw [ha]
            exact fun hf => hr (beq_iff_eq.mp hf)
        | none =>
            exact .skipped failed space rest pods
              [.podsRunning space (failed + 1) _, .spaceSkipped space _] hs ha hr
  | error e =>
      dsimp only
      rw [retryOr]
      dsimp only
      cases t.policy.next? (failed + 1) with
      | some wait =>
          refine .paused failed _ space rest [] hs ?_
          show ¬ isFree (Cluster.listPods space t.cluster).answer
          rw [ha]
          exact Bool.false_ne_true
      | none => exact .unreachable failed space rest e hs ha

/-- What is told of a namespace that is given up after a listing. -/
def givenUp (space : String) : Except ClusterError (List Pod) → List TeardownFailure
  | .ok _ => []
  | .error e => [⟨space, .precheck, e.message⟩]

/-- What a look at a namespace leaves, in one line for each way it can go. -/
theorem check_snd (now failed : Nat) (space : String) (rest : List String) :
    (t.check now failed space rest).2 =
      if isFree (t.listing space).answer then
        { (t.listed space).handOver space with stage := .checking 0 rest }
      else match t.policy.next? (failed + 1) with
        | some wait =>
            { t.listed space with
              stage := .pausing (tickAfter now wait) (failed + 1) (space :: rest) }
        | none =>
            { t.listed space with
              stage := .checking 0 rest
              failures := t.failures ++ givenUp space (t.listing space).answer } := by
  rw [check]
  dsimp only
  cases ha : (Cluster.listPods space t.cluster).answer with
  | ok pods =>
      have hfree : isFree (t.listing space).answer = (countRunning pods == 0) :=
        congrArg isFree ha
      have hnone : givenUp space (t.listing space).answer = [] := congrArg (givenUp space) ha
      dsimp only
      rw [hfree, hnone]
      by_cases hr : countRunning pods = 0
      · rw [if_pos hr, if_pos (beq_iff_eq.mpr hr)]
        rfl
      · rw [if_neg hr, if_neg (fun h => hr (beq_iff_eq.mp h)), retryOr]
        dsimp only
        cases t.policy.next? (failed + 1) with
        | some wait => rfl
        | none =>
            dsimp only
            rw [List.append_nil]
            rfl
  | error e =>
      have hfree : isFree (t.listing space).answer = false := congrArg isFree ha
      have htold : givenUp space (t.listing space).answer = [⟨space, .precheck, e.message⟩] :=
        congrArg (givenUp space) ha
      dsimp only
      rw [hfree, htold, if_neg Bool.false_ne_true, retryOr]
      dsimp only
      cases t.policy.next? (failed + 1) with
      | some wait => rfl
      | none => rfl

/-- A move of the coordinator does one of the things listed. -/
theorem step?_cases (h : t.step? now = some (es, t')) : Stepped now t es t' := by
  rw [step?] at h
  split at h
  · rename_i failed hs
    cases h
    exact .drained failed hs
  · rename_i failed space rest hs
    have hc := stepped_check now hs
    rw [Option.some.inj h] at hc
    exact hc
  · rename_i due failed rest hs
    split at h
    · cases h
      exact .resumed due failed rest hs
    · cases h
  · rename_i next hs
    split at h
    · rename_i w hw
      rw [join] at h
      split at h
      · rename_i hover
        cases hd : w.died with
        | true =>
            rw [hd] at h
            cases h
            exact .buried next w hs hw hover hd
        | false =>
            rw [hd] at h
            cases h
            exact .joined next w hs hw hover hd
      · cases h
    · rename_i hw
      have hc : Stepped now t _ _ := .concluded next hs hw
      rw [Option.some.inj h] at hc
      exact hc
  · cases h

/-! ## Moves in any order -/

/-- A move of a teardown. -/
inductive Move
  | coordinate (now : Nat)
  | errand (i : Nat)

/-- A move, if it is possible: what happens, and the teardown afterwards. -/
def move? : Move → Teardown κ → Option (List Event × Teardown κ)
  | .coordinate now, t => t.step? now
  | .errand i, t => t.workerStep? i

/-- What an errand of a worker changes. -/
theorem workerStep?_eq_some_iff {i : Nat} :
    t.workerStep? i = some (es, t') ↔
      ∃ w turn, t.workers[i]? = some w ∧ w.step? t.cluster = some turn ∧ es = turn.events ∧
        t' = { t with
          workers := t.workers.set i turn.worker
          cluster := turn.cluster
          failures := t.failures ++ turn.failures } := by
  rw [workerStep?]
  constructor
  · intro h
    obtain ⟨w, hw, h⟩ := Option.bind_eq_some_iff.mp h
    obtain ⟨turn, ht, h⟩ := Option.bind_eq_some_iff.mp h
    cases h
    exact ⟨w, turn, hw, ht, rfl, rfl⟩
  · rintro ⟨w, turn, hw, ht, rfl, rfl⟩
    rw [hw]
    show (do let turn ← w.step? t.cluster; _) = _
    rw [ht]
    rfl

/-- As long as there is no result, somebody can move, if only when a pause is
over. -/
theorem exists_move? (h : t.result? = none) : ∃ m es t', t.move? m = some (es, t') := by
  cases hs : t.stage with
  | checking failed rest =>
      refine ⟨.coordinate 0, ?_⟩
      rw [move?, step?, hs]
      cases rest with
      | nil => exact ⟨_, _, rfl⟩
      | cons space rest => exact ⟨_, _, rfl⟩
  | pausing due failed rest =>
      refine ⟨.coordinate due, ?_⟩
      rw [move?, step?, hs]
      dsimp only
      rw [if_pos (Nat.le_refl due)]
      exact ⟨_, _, rfl⟩
  | joining next =>
      cases hw : t.workers[next]? with
      | none =>
          refine ⟨.coordinate 0, ?_⟩
          rw [move?, step?, hs]
          dsimp only
          rw [hw]
          exact ⟨_, _, rfl⟩
      | some w =>
          cases hover : w.isOver with
          | true =>
              refine ⟨.coordinate 0, ?_⟩
              rw [move?, step?, hs]
              dsimp only
              rw [hw]
              dsimp only
              rw [join, if_pos hover]
              exact ⟨_, _, rfl⟩
          | false =>
              obtain ⟨turn, ht⟩ : ∃ turn, w.step? t.cluster = some turn := by
                rw [Worker.step?]
                split
                · rename_i he
                  rw [Worker.isOver, he] at hover
                  cases hover
                · exact ⟨_, rfl⟩
                · exact ⟨_, rfl⟩
                · exact ⟨_, rfl⟩
              exact ⟨.errand next, _, _, workerStep?_eq_some_iff.mpr ⟨w, turn, hw, ht, rfl, rfl⟩⟩
  | ended r =>
      rw [result?, hs] at h
      cases h

/-- A teardown only calls the cluster and takes notes. -/
theorem isOfTeardown_of_move? {m : Move} (h : t.move? m = some (es, t')) {e : Event}
    (he : e ∈ es) : e.isOfTeardown := by
  cases m with
  | coordinate now =>
      cases step?_cases h with
      | handed => exact Worker.isOfTeardown_callEvents he
      | paused | skipped =>
          refine (List.mem_append.mp he).elim Worker.isOfTeardown_callEvents fun hm => ?_
          obtain ⟨n, _, rfl⟩ := List.mem_map.mp hm
          rfl
      | unreachable =>
          exact (List.mem_append.mp he).elim Worker.isOfTeardown_callEvents
            Worker.isOfTeardown_failureEvents
      | buried => exact Worker.isOfTeardown_failureEvents he
      | concluded =>
          rw [conclude] at he
          split at he
          · rw [List.mem_singleton.mp he]
            rfl
          · cases he
      | _ => cases he
  | errand i =>
      obtain ⟨w, turn, _, ht, rfl, _⟩ := workerStep?_eq_some_iff.mp h
      exact Worker.isOfTeardown_of_step? ht he

/-- What has happened in a teardown that has come from its beginning by moves in
some order. -/
def Conducted (policy : RetryPolicy) (systemSpace : String) (targets : List Target)
    (spaces : List String) (cluster : κ) (es : List Event) (t : Teardown κ) : Prop :=
  ∃ ms, play (recorded move?) ([], start policy systemSpace targets spaces cluster) ms = (es, t)

variable {policy : RetryPolicy} {systemSpace : String} {targets : List Target}
  {spaces : List String} {cluster : κ}

theorem Conducted.move (h : Conducted policy systemSpace targets spaces cluster es t) {m : Move}
    {es' : List Event} (hm : t.move? m = some (es', t')) :
    Conducted policy systemSpace targets spaces cluster (es ++ es') t' := by
  obtain ⟨ms, hms⟩ := h
  refine ⟨ms ++ [m], play_concat ?_⟩
  rw [hms]
  exact recorded_eq_some_iff.mpr ⟨es', hm, rfl⟩

theorem Conducted.isOfTeardown (h : Conducted policy systemSpace targets spaces cluster es t)
    {e : Event} (he : e ∈ es) : e.isOfTeardown := by
  obtain ⟨ms, hms⟩ := h
  have hall : ∀ e ∈ (play (recorded move?)
      ([], start policy systemSpace targets spaces cluster) ms).1, e.isOfTeardown := by
    refine play_induction (P := fun j : List Event × Teardown κ => ∀ e ∈ j.1, e.isOfTeardown)
      ?_ (fun _ he => absurd he List.not_mem_nil) ms
    intro m j k hj hm e he
    obtain ⟨es, hm, hes⟩ := recorded_eq_some_iff.mp hm
    rw [hes] at he
    exact (List.mem_append.mp he).elim (hj e) (isOfTeardown_of_move? hm)
  rw [hms] at hall
  exact hall e he

end Teardown

end Decommission
