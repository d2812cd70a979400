import Decommission.Cluster.Empty
import Decommission.Proofs.Teardown.ClosedAccount
import Decommission.Proofs.Teardown.Crew

/-!
# A complete account of a teardown

When a teardown returns, every worker has ended, every place in the list of
namespaces has a closed account, and the result lists exactly what failed
(`Ledger.Settled`).  This holds for every cluster and for every order in which
the coordinator and the workers make their moves.

`Ledger.Kept` is what a move preserves, whoever makes it.
-/

namespace Decommission

namespace Teardown

variable {κ : Type} {t : Teardown κ} {k joined failed : Nat} {space : String}
  {rest : List String}

/-- The result that follows from what failed. -/
def resultOf (fs : List TeardownFailure) : Except TeardownError Unit :=
  if fs.isEmpty then .ok () else .error (.ofFailures fs)

/-- The coordinator has come to the place `k` and has seen `joined` workers end. -/
def Reached (t : Teardown κ) (k joined : Nat) : Prop :=
  match t.stage with
  | .checking _ rest => t.spaces.drop k = rest ∧ joined = 0
  | .pausing _ _ rest => t.spaces.drop k = rest ∧ joined = 0
  | .joining next => k = t.spaces.length ∧ joined = next
  | .ended r => k = t.spaces.length ∧ t.workers.length ≤ joined ∧ r = resultOf t.failures

theorem Reached.of_checking (h : t.Reached k joined) (hs : t.stage = .checking failed rest) :
    t.spaces.drop k = rest ∧ joined = 0 := by
  rw [Reached, hs] at h
  exact h

theorem Reached.of_pausing {due : Nat} (h : t.Reached k joined)
    (hs : t.stage = .pausing due failed rest) : t.spaces.drop k = rest ∧ joined = 0 := by
  rw [Reached, hs] at h
  exact h

theorem Reached.of_joining {next : Nat} (h : t.Reached k joined)
    (hs : t.stage = .joining next) : k = t.spaces.length ∧ joined = next := by
  rw [Reached, hs] at h
  exact h

/-- The namespace in front is the one at the place the coordinator has come to. -/
theorem front_of_drop {spaces : List String} (h : spaces.drop k = space :: rest) :
    spaces[k]? = some space ∧ spaces.drop (k + 1) = rest ∧
      spaces.length - (rest.length + 1) = k := by
  refine ⟨?_, ?_, ?_⟩
  · rw [← List.head?_drop, h, List.head?_cons]
  · rw [← List.tail_drop, h, List.tail_cons]
  · have hlen := congrArg List.length h
    rw [List.length_drop, List.length_cons] at hlen
    omega

theorem exists_of_isFree {answer : Except ClusterError (List Pod)} (h : isFree answer) :
    ∃ pods, answer = .ok pods ∧ countRunning pods = 0 := by
  cases answer with
  | ok pods => exact ⟨pods, rfl, beq_iff_eq.mp h⟩
  | error e => cases h

theorem callsIn_conclude (t : Teardown κ) : callsIn t.conclude.1 = [] := by
  rw [conclude]
  split
  · rfl
  · rfl

theorem conclude_eq (t : Teardown κ) :
    t.conclude.2 = { t with stage := .ended (resultOf t.failures) } := by
  rw [conclude, resultOf]
  split
  · rfl
  · rfl

/-- Errands leave the coordinator where it is, unless it has come to its end. -/
theorem Reached.of_frame {t' : Teardown κ} (h : t.Reached k joined) (hst : t'.stage = t.stage)
    (hs : t'.spaces = t.spaces) (hr : t.result? = none) : t'.Reached k joined := by
  rw [Reached] at h ⊢
  rw [hst, hs]
  cases he : t.stage with
  | ended r => rw [result?, he] at hr; cases hr
  | _ =>
      rw [he] at h
      exact h

theorem Reached.of_result? {r : Except TeardownError Unit} (h : t.Reached k joined)
    (hr : t.result? = some r) :
    k = t.spaces.length ∧ t.workers.length ≤ joined ∧ r = resultOf t.failures := by
  rw [Reached] at h
  rw [result?] at hr
  cases he : t.stage with
  | ended r' =>
      rw [he] at h hr
      cases hr
      exact h
  | _ =>
      rw [he] at hr
      cases hr

variable [Cluster κ]

theorem callsIn_listedEvents (t : Teardown κ) (space : String) :
    callsIn (t.listedEvents space) = [.listPods space] := Worker.callsIn_callEvents ..

end Teardown

namespace Ledger

variable {κ : Type}

/-! ## What every move preserves -/

/-- The ledger is kept, the coordinator having come to the place `k` and having
seen `joined` workers end. -/
structure Kept (spaces : List String) (k joined : Nat) (l : Ledger κ) : Prop where
  listed : l.teardown.spaces = spaces
  reached : l.teardown.Reached k joined
  manned : Manned spaces k joined l.teardown.workers l.postings
  calls : callsIn l.events = callsIn (l.postings.flatMap Posting.events)
  failures : l.teardown.failures = failuresIn l.postings

variable [Cluster κ] {spaces : List String} {k joined : Nat} {l l' : Ledger κ}
  {m : Teardown.Move} {es : List Event} {t : Teardown κ}

/-- A posting. -/
theorem Kept.post (h : Kept spaces k joined l) {i k' joined' : Nat} {d : Deed}
    {fs : List TeardownFailure} (hm : l.matter? m = some (i, d))
    (hs : t.spaces = l.teardown.spaces) (hf : t.failures = l.teardown.failures ++ fs)
    (hr : t.Reached k' joined')
    (hman : Manned spaces k' joined' t.workers (l.postings ++ [⟨i, d, es, fs⟩])) :
    Kept spaces k' joined' (l.enter m es t) := by
  have hpost : (l.enter m es t).postings = l.postings ++ [⟨i, d, es, fs⟩] := by
    rw [enter, hm, hf, List.drop_left]
  refine ⟨hs.trans h.listed, hr, hpost ▸ hman, ?_, ?_⟩
  · rw [hpost, List.flatMap_append, List.flatMap_singleton, callsIn_append, ← h.calls]
    exact callsIn_append ..
  · rw [hpost, failuresIn_append, ← h.failures]
    refine hf.trans (congrArg _ ?_)
    exact (List.append_nil fs).symm

/-- A move that is for no place. -/
theorem Kept.pass (h : Kept spaces k joined l) {joined' : Nat} (hm : l.matter? m = none)
    (hs : t.spaces = l.teardown.spaces) (hw : t.workers = l.teardown.workers)
    (hf : t.failures = l.teardown.failures) (hc : callsIn es = [])
    (hr : t.Reached k joined') (hj : joined' = joined) :
    Kept spaces k joined' (l.enter m es t) := by
  have hpost : (l.enter m es t).postings = l.postings := by rw [enter, hm]
  subst hj
  refine ⟨hs.trans h.listed, hr, ?_, ?_, ?_⟩
  · rw [hpost]
    exact hw ▸ h.manned
  · rw [hpost, ← h.calls]
    exact (callsIn_append ..).trans (hc ▸ List.append_nil _)
  · rw [hpost, ← h.failures]
    exact hf

/-- A listing is for the place the coordinator has come to. -/
theorem Kept.matter?_of_checking (h : Kept spaces k joined l) (now : Nat) {failed : Nat}
    {space : String} {rest : List String} (hs : l.teardown.stage = .checking failed (space :: rest)) :
    l.matter? (.coordinate now) = some (k, .listed (l.teardown.listing space).answer) ∧
      spaces[k]? = some space ∧ l.teardown.spaces.drop (k + 1) = rest := by
  obtain ⟨hdrop, _⟩ := h.reached.of_checking hs
  obtain ⟨hfront, hrest, hk⟩ := Teardown.front_of_drop hdrop
  rw [matter?, hs]
  dsimp only
  rw [hk]
  exact ⟨rfl, h.listed ▸ hfront, hrest⟩

/-- The coordinator waits for the worker of a place. -/
theorem Kept.matter?_of_joining (h : Kept spaces k joined l) (now : Nat) {w : Worker}
    (hs : l.teardown.stage = .joining joined) (hw : l.teardown.workers[joined]? = some w) :
    ∃ i, (handedOf l.postings)[joined]? = some i ∧
      l.matter? (.coordinate now) = some (i, .joined w.died) := by
  obtain ⟨i, hi⟩ := h.manned.exists_handed hw
  refine ⟨i, hi, ?_⟩
  rw [matter?, hs]
  dsimp only
  rw [hi, hw]
  rfl

theorem Kept.coordinate (h : Kept spaces k joined l) {now : Nat}
    (hm : l.teardown.step? now = some (es, t)) :
    ∃ k' joined', Kept spaces k' joined' (l.enter (.coordinate now) es t) := by
  cases Teardown.step?_cases hm with
  | drained failed hs =>
      obtain ⟨hdrop, hj⟩ := h.reached.of_checking hs
      have hk : k = l.teardown.spaces.length := by
        have hle := List.drop_eq_nil_iff.mp hdrop
        have hwithin := h.manned.within
        rw [← h.listed] at hwithin
        exact Nat.le_antisymm hwithin hle
      have hnone : l.matter? (.coordinate now) = none := by rw [matter?, hs]
      exact ⟨k, 0, h.pass hnone rfl rfl rfl rfl ⟨hk, rfl⟩ hj.symm⟩
  | handed failed space rest hs hfree =>
      obtain ⟨hmatter, hspace, hrest⟩ := h.matter?_of_checking now hs
      obtain ⟨_, hj⟩ := h.reached.of_checking hs
      obtain ⟨pods, ha, hr⟩ := Teardown.exists_of_isFree hfree
      refine ⟨k + 1, joined, h.post hmatter rfl (List.append_nil _).symm ⟨hrest, hj⟩ ?_⟩
      refine h.manned.handOver rfl hspace ⟨⟨pods, congrArg Deed.listed ha, hr⟩, ?_, rfl⟩ ?_ _
      · exact Teardown.callsIn_listedEvents ..
      · rw [hj]
        exact Nat.zero_le _
  | paused failed due space rest notes hs hfree =>
      obtain ⟨hmatter, hspace, _⟩ := h.matter?_of_checking now hs
      obtain ⟨hdrop, hj⟩ := h.reached.of_checking hs
      refine ⟨k, joined, h.post hmatter rfl (List.append_nil _).symm ⟨hdrop, hj⟩ ?_⟩
      refine h.manned.look rfl hspace ⟨⟨_, rfl, hfree⟩, ?_, rfl⟩
      show callsIn (_ ++ _) = _
      rw [callsIn_append, Teardown.callsIn_listedEvents, callsIn_notes]
      rfl
  | skipped failed space rest pods notes hs ha hr =>
      obtain ⟨hmatter, hspace, hrest⟩ := h.matter?_of_checking now hs
      obtain ⟨_, hj⟩ := h.reached.of_checking hs
      have hfree : ¬ Teardown.isFree (l.teardown.listing space).answer := by
        rw [ha]
        exact fun hf => hr (beq_iff_eq.mp hf)
      refine ⟨k + 1, joined, h.post hmatter rfl (List.append_nil _).symm ⟨hrest, hj⟩ ?_⟩
      refine h.manned.leave rfl hspace hfree ?_
      have hlooks := (h.manned.pending k space (Nat.le_refl k) hspace).looks
      refine .running _ _ pods hlooks (congrArg Deed.listed ha) hr ⟨?_, rfl⟩
      show callsIn (_ ++ _) = _
      rw [callsIn_append, Teardown.callsIn_listedEvents, callsIn_notes]
      rfl
  | unreachable failed space rest e hs ha =>
      obtain ⟨hmatter, hspace, hrest⟩ := h.matter?_of_checking now hs
      obtain ⟨_, hj⟩ := h.reached.of_checking hs
      have hfree : ¬ Teardown.isFree (l.teardown.listing space).answer := by
        rw [ha]
        exact Bool.false_ne_true
      refine ⟨k + 1, joined, h.post hmatter rfl rfl ⟨hrest, hj⟩ ?_⟩
      refine h.manned.leave rfl hspace hfree ?_
      have hlooks := (h.manned.pending k space (Nat.le_refl k) hspace).looks
      refine .unreachable _ _ e hlooks (congrArg Deed.listed ha) ?_ rfl
      show callsIn (_ ++ _) = _
      rw [callsIn_append, Teardown.callsIn_listedEvents, Worker.callsIn_failureEvents]
      rfl
  | resumed due failed rest hs =>
      have hnone : l.matter? (.coordinate now) = none := by rw [matter?, hs]
      exact ⟨k, joined, h.pass hnone rfl rfl rfl rfl (h.reached.of_pausing hs) rfl⟩
  | joined next w hs hw hover hdied =>
      obtain ⟨hk, rfl⟩ := h.reached.of_joining hs
      obtain ⟨i, hi, hmatter⟩ := h.matter?_of_joining now hs hw
      refine ⟨k, joined + 1, h.post hmatter rfl (List.append_nil _).symm ⟨hk, rfl⟩ ?_⟩
      refine h.manned.join hi hw hover rfl ⟨rfl, ?_⟩
      rw [hdied]
      rfl
  | buried next w hs hw hover hdied =>
      obtain ⟨hk, rfl⟩ := h.reached.of_joining hs
      obtain ⟨i, hi, hmatter⟩ := h.matter?_of_joining now hs hw
      refine ⟨k, joined + 1, h.post hmatter rfl rfl ⟨hk, rfl⟩ ?_⟩
      refine h.manned.join hi hw hover rfl ⟨Worker.callsIn_failureEvents _, ?_⟩
      rw [hdied]
      rfl
  | concluded next hs hw =>
      obtain ⟨hk, rfl⟩ := h.reached.of_joining hs
      have hnone : l.matter? (.coordinate now) = none := by
        rw [matter?, hs]
        dsimp only
        rw [hw]
        cases (handedOf l.postings)[joined]? with
        | none => rfl
        | some i => rfl
      rw [Teardown.conclude_eq]
      refine ⟨k, joined, h.pass hnone rfl rfl rfl (Teardown.callsIn_conclude _) ?_ rfl⟩
      exact ⟨hk, List.getElem?_eq_none_iff.mp hw, rfl⟩

/-- An errand leaves the coordinator where it is. -/
theorem Kept.errand (h : Kept spaces k joined l) {j : Nat}
    (hm : l.teardown.workerStep? j = some (es, t)) :
    Kept spaces k joined (l.enter (.errand j) es t) := by
  obtain ⟨w, turn, hw, hstep, rfl, rfl⟩ := Teardown.workerStep?_eq_some_iff.mp hm
  obtain ⟨e, rest, d, herr, hd, hdid⟩ := Worker.step?_spec hstep
  obtain ⟨i, hi⟩ := h.manned.exists_handed hw
  have hmatter : l.matter? (.errand j) = some (i, d) := by
    rw [matter?, hi, hw]
    show (do let d ← w.deed? l.teardown.cluster; some (i, d)) = _
    rw [hd]
    rfl
  refine h.post hmatter rfl rfl ?_ ?_
  · refine h.reached.of_frame rfl rfl ?_
    cases hr : l.teardown.result? with
    | none => rfl
    | some r =>
        obtain ⟨_, hj, _⟩ := h.reached.of_result? hr
        have hover := h.manned.isOver_of_joined hj (List.mem_of_getElem? hw)
        rw [Worker.isOver, herr] at hover
        cases hover
  · show Manned _ _ _ (l.teardown.workers.set j turn.worker) _
    rw [hdid.worker]
    have hbooked : Posting.Booked w.space ⟨i, d, turn.events, turn.failures⟩ :=
      ⟨hdid.calls, hdid.failures⟩
    refine h.manned.errand hi hw ?_ hd hbooked
    rw [herr]
    exact List.cons_ne_nil e rest

theorem Kept.move? (h : Kept spaces k joined l) (hm : l.move? m = some l') :
    ∃ k' joined', Kept spaces k' joined' l' := by
  obtain ⟨es, t, hstep, rfl⟩ := move?_eq_some_iff.mp hm
  cases m with
  | coordinate now => exact h.coordinate hstep
  | errand j => exact ⟨k, joined, h.errand hstep⟩

omit [Cluster κ] in
/-- The ledger of a teardown that has not begun. -/
theorem kept_start (policy : RetryPolicy) (systemSpace : String) (targets : List Target)
    (spaces : List String) (cluster : κ) :
    Kept spaces 0 0 { teardown := .start policy systemSpace targets spaces cluster } :=
  ⟨rfl, ⟨List.drop_zero, rfl⟩, Manned.start spaces, rfl, rfl⟩

theorem kept_play (policy : RetryPolicy) (systemSpace : String) (targets : List Target)
    (spaces : List String) (cluster : κ) (ms : List Teardown.Move) :
    ∃ k joined, Kept spaces k joined
      (play Ledger.move? { teardown := .start policy systemSpace targets spaces cluster } ms) := by
  refine play_induction (P := fun l => ∃ k joined, Kept spaces k joined l) ?_ ?_ ms
  · rintro m l l' ⟨k, joined, h⟩ hm
    exact h.move? hm
  · exact ⟨0, 0, kept_start ..⟩

/-! ## What is left in the end -/

/-- The ledger of a teardown that has returned `r`. -/
structure Settled (spaces : List String) (l : Ledger κ) (r : Except TeardownError Unit) :
    Prop where
  /-- Every worker is over. -/
  ended : ∀ w ∈ l.teardown.workers, w.isOver
  /-- Every call was made for a place in the list. -/
  calls : callsIn l.events = callsIn (l.postings.flatMap Posting.events)
  /-- There are no postings for anything else. -/
  placed : ∀ p ∈ l.postings, p.place < spaces.length
  /-- The account of every place is closed. -/
  accounted : ∀ i space, spaces[i]? = some space → Accounted space (accountOf l.postings i)
  /-- All went well if nothing failed. -/
  ok : r = .ok () ↔ failuresIn l.postings = []
  /-- Otherwise the result holds everything that failed, in the order of the
  namespaces. -/
  error : ∀ e, r = .error e → e.failures.Perm (failuresIn l.postings) ∧
    e.failures.Pairwise fun a b => a.space ≤ b.space

theorem pairwise_ofFailures (fs : List TeardownFailure) :
    (TeardownError.ofFailures fs).failures.Pairwise fun a b => a.space ≤ b.space := by
  refine (List.pairwise_mergeSort ?_ ?_ fs).imp of_decide_eq_true
  · intro a b c hab hbc
    exact decide_eq_true (String.le_trans (of_decide_eq_true hab) (of_decide_eq_true hbc))
  · intro a b
    rw [Bool.or_eq_true, decide_eq_true_iff, decide_eq_true_iff]
    exact String.le_total a.space b.space

omit [Cluster κ] in
theorem Kept.settled (h : Kept spaces k joined l) {r : Except TeardownError Unit}
    (hr : l.teardown.result? = some r) : l.Settled spaces r := by
  obtain ⟨hk, hj, rfl⟩ := h.reached.of_result? hr
  rw [h.listed] at hk
  subst hk
  refine ⟨fun w => h.manned.isOver_of_joined hj, h.calls, h.manned.placed, ?_, ?_, ?_⟩
  · intro i space hs
    rcases h.manned.standing_of_joined hj hs with ha | ⟨w, ha⟩
    · exact ha.accounted_of_left
    · exact ha.accounted_of_dismissed
  · rw [h.failures, Teardown.resultOf]
    split
    · exact iff_of_true rfl (List.isEmpty_iff.mp ‹_›)
    · refine iff_of_false (fun hr => nomatch hr) fun hn => ?_
      exact absurd (List.isEmpty_iff.mpr hn) ‹_›
  · intro e he
    rw [h.failures, Teardown.resultOf] at he
    split at he
    · cases he
    · cases he
      exact ⟨List.mergeSort_perm _ _, pairwise_ofFailures _⟩

/-- When a teardown returns, whatever the cluster answered and in whatever order
the coordinator and the workers moved, every worker has ended, and every place in
the list of namespaces is accounted for. -/
theorem settled_play (policy : RetryPolicy) (systemSpace : String) (targets : List Target)
    (spaces : List String) (cluster : κ) (ms : List Teardown.Move)
    {r : Except TeardownError Unit}
    (hr : (play (recorded Teardown.move?)
      ([], .start policy systemSpace targets spaces cluster) ms).2.result? = some r) :
    ∃ l : Ledger κ,
      l = play Ledger.move? { teardown := .start policy systemSpace targets spaces cluster } ms ∧
      (l.events, l.teardown) = play (recorded Teardown.move?)
        ([], .start policy systemSpace targets spaces cluster) ms ∧
      l.Settled spaces r := by
  refine ⟨_, rfl, play_eq _ ms, ?_⟩
  obtain ⟨k, joined, h⟩ := kept_play policy systemSpace targets spaces cluster ms
  refine h.settled ?_
  rw [← hr, ← play_eq ⟨.start policy systemSpace targets spaces cluster, [], []⟩ ms]

/-- Two namespaces that do not exist, the worker of the first being slow. -/
theorem settled_slowWorker :
    (play (recorded Teardown.move?)
      ([], .start .standard "system" [] ["a", "b"] (⟨⟩ : EmptyCluster))
      [.coordinate 0, .coordinate 0, .errand 1, .errand 0, .coordinate 0, .coordinate 0,
        .coordinate 0, .coordinate 0]).2.result? = some (.ok ()) ∧
    ∃ l : Ledger EmptyCluster, failuresIn l.postings = [] ∧ l.Settled ["a", "b"] (.ok ()) := by
  refine ⟨rfl, ?_⟩
  obtain ⟨l, _, _, hl⟩ := settled_play .standard "system" [] ["a", "b"] (⟨⟩ : EmptyCluster)
    [.coordinate 0, .coordinate 0, .errand 1, .errand 0, .coordinate 0, .coordinate 0,
      .coordinate 0, .coordinate 0] rfl
  exact ⟨l, hl.ok.mp rfl, hl⟩

end Ledger

end Decommission
