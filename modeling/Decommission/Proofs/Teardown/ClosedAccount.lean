import Decommission.Proofs.Teardown.Account

/-!
# Closed accounts

What the account of a namespace says once the teardown is done with it
(`Accounted`), in terms of calls, failures and the last listing.  The namespace
was left alone with pods running in it, or given up because it could not be
looked at, or deleted once, after a listing without running pods.
-/

namespace Decommission

/-- Whether the call deletes a namespace. -/
def Call.isDeletion : Call → Bool
  | deleteSpace _ => true
  | _ => false

/-- What fails because of the answer to the deletion of a namespace. -/
def Deleted.failures (space : String) : Deleted → List TeardownFailure
  | done => []
  | failed (.missing _) => []
  | failed e => [⟨space, .deleteSpace, e.message⟩]
  | fatal => [⟨space, .worker, Teardown.deathReason⟩]

/-- The deletions among the calls. -/
def deletionsIn (ps : List Posting) : List Call :=
  (callsIn (ps.flatMap Posting.events)).filter Call.isDeletion

/-- The answer to the last listing. -/
def lastListing? (ps : List Posting) : Option (Except ClusterError (List Pod)) :=
  (ps.filterMap Posting.listing?).getLast?

/-! ## Closed accounts -/

/-- The account of a namespace with which the teardown is done. -/
structure Accounted (space : String) (ps : List Posting) : Prop where
  /-- The namespace was looked at. -/
  listed : (lastListing? ps).isSome
  /-- Once a listing shows no running pods, it is the last one. -/
  settled : ∀ p ∈ ps, p.isHandOver → p.listing? = lastListing? ps
  /-- If pods were running at last, it was not deleted, and nothing failed. -/
  running : ∀ pods, lastListing? ps = some (.ok pods) → Teardown.countRunning pods ≠ 0 →
    deletionsIn ps = [] ∧ failuresIn ps = []
  /-- If it could not be looked at at last, it was not deleted, and that is all that
  failed. -/
  unreachable : ∀ e, lastListing? ps = some (.error e) →
    deletionsIn ps = [] ∧ failuresIn ps = [⟨space, .precheck, e.message⟩]
  /-- If no pods were running at last, it was deleted once, after that listing, and
  the answer decides what failed of it. -/
  deleted : ∀ pods, lastListing? ps = some (.ok pods) → Teardown.countRunning pods = 0 →
    ∃ looks clearing deletion joining answer, ps = looks ++ clearing ++ [deletion, joining] ∧
      lastListing? looks = some (.ok pods) ∧ deletionsIn (looks ++ clearing) = [] ∧
      deletion.deed = .deleted answer ∧ callsIn deletion.events = [.deleteSpace space] ∧
      joining.deed = .joined (answer == .fatal) ∧ callsIn joining.events = [] ∧
      (∀ f ∈ failuresIn (looks ++ clearing), ∃ kind, f.step = .clearFinalizers kind) ∧
      failuresIn [deletion, joining] = answer.failures space

section Postings

variable {space : String} {ps qs : List Posting} {p : Posting}

theorem failuresIn_append (ps qs : List Posting) :
    failuresIn (ps ++ qs) = failuresIn ps ++ failuresIn qs := List.flatMap_append

theorem deletionsIn_append (ps qs : List Posting) :
    deletionsIn (ps ++ qs) = deletionsIn ps ++ deletionsIn qs := by
  rw [deletionsIn, List.flatMap_append, callsIn_append, List.filter_append]
  rfl

theorem deletionsIn_singleton (p : Posting) :
    deletionsIn [p] = (callsIn p.events).filter Call.isDeletion := by
  rw [deletionsIn, List.flatMap_singleton]

theorem deletionsIn_eq_nil (h : ∀ p ∈ ps, deletionsIn [p] = []) : deletionsIn ps = [] := by
  induction ps with
  | nil => rfl
  | cons p ps ih =>
      rw [← List.singleton_append, deletionsIn_append, h p (List.mem_cons_self ..), List.nil_append]
      exact ih fun q hq => h q (List.mem_cons_of_mem _ hq)

theorem failuresIn_eq_nil (h : ∀ p ∈ ps, p.failures = []) : failuresIn ps = [] :=
  List.flatMap_eq_nil_iff.mpr h

theorem lastListing?_concat (ps : List Posting) {answer : Except ClusterError (List Pod)}
    (h : p.deed = .listed answer) : lastListing? (ps ++ [p]) = some answer := by
  have hp : p.listing? = some answer := by rw [Posting.listing?, h]
  rw [lastListing?, List.filterMap_append, List.filterMap_cons, hp]
  exact List.getLast?_concat

/-- What is no listing does not matter for the last one. -/
theorem lastListing?_append (h : ∀ p ∈ qs, p.listing? = none) :
    lastListing? (ps ++ qs) = lastListing? ps := by
  rw [lastListing?, List.filterMap_append, List.filterMap_eq_nil_iff.mpr h, List.append_nil]
  rfl

theorem Posting.IsLook.quiet (h : p.IsLook space) : deletionsIn [p] = [] ∧ p.failures = [] := by
  obtain ⟨⟨answer, hd, _⟩, hb⟩ := h
  refine ⟨?_, ?_⟩
  · rw [deletionsIn_singleton, hb.calls, hd]
    rfl
  · rw [hb.failures, hd]
    rfl

theorem Posting.IsFree.quiet (h : p.IsFree space) : deletionsIn [p] = [] ∧ p.failures = [] := by
  obtain ⟨⟨pods, hd, _⟩, hb⟩ := h
  refine ⟨?_, ?_⟩
  · rw [deletionsIn_singleton, hb.calls, hd]
    rfl
  · rw [hb.failures, hd]
    rfl

theorem Posting.IsClearing.quiet (h : p.IsClearing space) :
    deletionsIn [p] = [] ∧ p.listing? = none ∧ ¬ p.isHandOver ∧
      ∀ f ∈ p.failures, ∃ kind, f.step = .clearFinalizers kind := by
  obtain ⟨hc, hb⟩ := h
  have hfailed : ∀ kind e, ∀ f ∈ (Worker.start space []).failuresOf (.clearFinalizers kind) e,
      ∃ kind, f.step = .clearFinalizers kind := by
    intro kind e f hf
    rw [Worker.failuresOf] at hf
    split at hf
    · cases hf
    · rw [List.mem_singleton.mp hf]
      exact ⟨kind, rfl⟩
  rw [deletionsIn_singleton, hb.calls, hb.failures, Posting.listing?, Posting.isHandOver]
  cases hd : p.deed with
  | fetched target answer =>
      refine ⟨?_, rfl, Bool.false_ne_true, ?_⟩
      · rw [Deed.calls, Worker.fetchCall]
        split
        · rfl
        · rfl
      · cases answer with
        | error e => exact hfailed target.kind e
        | ok _ => exact fun f hf => absurd hf List.not_mem_nil
  | cleared kind x answer =>
      refine ⟨rfl, rfl, Bool.false_ne_true, ?_⟩
      cases answer with
      | error e => exact hfailed kind e
      | ok _ => exact fun f hf => absurd hf List.not_mem_nil
  | _ =>
      rw [hd] at hc
      cases hc

theorem deletionsIn_looks (h : ∀ p ∈ ps, p.IsLook space) : deletionsIn ps = [] :=
  deletionsIn_eq_nil fun p hp => (h p hp).quiet.1

theorem failuresIn_looks (h : ∀ p ∈ ps, p.IsLook space) : failuresIn ps = [] :=
  failuresIn_eq_nil fun p hp => (h p hp).quiet.2

/-- The deletion and the end of the worker fail as the answer says. -/
theorem failures_of_deletion {deletion joining : Posting} {answer : Deleted}
    (hdel : deletion.IsDeletion space answer) (hd : joining.deed = .joined (answer == .fatal))
    (hj : joining.Booked space) :
    failuresIn [deletion, joining] = answer.failures space := by
  show deletion.failures ++ (joining.failures ++ []) = _
  rw [hdel.2.failures, hdel.1, hj.failures, hd, List.append_nil]
  cases answer with
  | done => rfl
  | failed e => cases e with
    | missing what => rfl
    | api reason => rfl
  | fatal => rfl

end Postings

namespace Account

variable {space : String} {ps : List Posting} {w : Worker}

theorem accounted_of_left (h : Account space ps .left) : Accounted space ps := by
  have hnone : ∀ {looks : List Posting} {last : Posting} {answer},
      (∀ p ∈ looks, p.IsLook space) → last.deed = .listed answer → ¬ Teardown.isFree answer →
      ∀ p ∈ looks ++ [last], ¬ p.isHandOver := by
    intro looks last answer hl hd hf p hp
    rcases List.mem_append.mp hp with hm | hm
    · exact (hl p hm).not_isHandOver
    · rw [List.mem_singleton.mp hm, Posting.isHandOver, hd]
      exact hf
  cases h with
  | running looks last pods hl hd hr hb =>
      have hlast := lastListing?_concat looks hd
      have hfree : ¬ Teardown.isFree (.ok pods) := fun hf => hr (beq_iff_eq.mp hf)
      refine ⟨by rw [hlast]; rfl, fun p hp hh => absurd hh (hnone hl hd hfree p hp), ?_, ?_, ?_⟩
      · intro _ _ _
        rw [deletionsIn_append, failuresIn_append, deletionsIn_looks hl, failuresIn_looks hl]
        exact Posting.IsLook.quiet ⟨⟨.ok pods, hd, hfree⟩, hb⟩ |>.imp id fun h =>
          failuresIn_eq_nil fun p hp => List.mem_singleton.mp hp ▸ h
      · intro e he
        rw [hlast] at he
        cases he
      · intro pods' hp' hr'
        rw [hlast] at hp'
        cases hp'
        exact absurd hr' hr
  | unreachable looks last e hl hd hc hf =>
      have hlast := lastListing?_concat looks hd
      refine ⟨by rw [hlast]; rfl,
        fun p hp hh => absurd hh (hnone hl hd Bool.false_ne_true p hp), ?_, ?_, ?_⟩
      · intro pods hp
        rw [hlast] at hp
        cases hp
      · intro e' he'
        rw [hlast] at he'
        cases he'
        rw [deletionsIn_append, failuresIn_append, deletionsIn_looks hl, failuresIn_looks hl,
          deletionsIn_singleton, hc]
        refine ⟨rfl, ?_⟩
        rw [failuresIn, List.flatMap_singleton, hf]
        rfl
      · intro pods hp
        rw [hlast] at hp
        cases hp

theorem accounted_of_dismissed (h : Account space ps (.dismissed w)) : Accounted space ps := by
  cases h with
  | dismissed looks clearing last deletion joining answer _ hl hf hc hdel hd hb herr =>
      obtain ⟨⟨pods, hlisted, hr⟩, _⟩ := id hf
      have hrest : ∀ p ∈ clearing ++ [deletion, joining],
          p.listing? = none ∧ ¬ p.isHandOver := by
        intro p hp
        simp only [List.mem_append, List.mem_cons, List.not_mem_nil, or_false] at hp
        rcases hp with hm | rfl | rfl
        · exact ⟨(hc p hm).quiet.2.1, (hc p hm).quiet.2.2.1⟩
        · rw [Posting.listing?, Posting.isHandOver, hdel.1]
          exact ⟨rfl, Bool.false_ne_true⟩
        · rw [Posting.listing?, Posting.isHandOver, hd]
          exact ⟨rfl, Bool.false_ne_true⟩
      have hsplit : looks ++ last :: (clearing ++ [deletion, joining]) =
          looks ++ [last] ++ (clearing ++ [deletion, joining]) := by simp
      have hlast : lastListing? (looks ++ last :: (clearing ++ [deletion, joining])) =
          some (.ok pods) := by
        rw [hsplit, lastListing?_append fun p hp => (hrest p hp).1]
        exact lastListing?_concat looks hlisted
      refine ⟨by rw [hlast]; rfl, ?_, ?_, ?_, ?_⟩
      · intro p hp hh
        rw [hlast]
        rcases List.mem_append.mp hp with hm | hm
        · exact absurd hh (hl p hm).not_isHandOver
        · rcases List.mem_cons.mp hm with rfl | hm
          · rw [Posting.listing?, hlisted]
          · exact absurd hh (hrest p hm).2
      · intro pods' hp' hr'
        rw [hlast] at hp'
        cases hp'
        exact absurd hr hr'
      · intro e he
        rw [hlast] at he
        cases he
      · intro pods' hp' _
        rw [hlast] at hp'
        cases hp'
        refine ⟨looks ++ [last], clearing, deletion, joining, answer, ?_,
          lastListing?_concat looks hlisted, ?_, hdel.1, ?_, hd, ?_, ?_,
          failures_of_deletion hdel hd hb⟩
        · exact hsplit.trans (List.append_assoc ..).symm
        · rw [deletionsIn_append, deletionsIn_append, deletionsIn_looks hl, hf.quiet.1,
            deletionsIn_eq_nil fun p hp => (hc p hp).quiet.1]
          rfl
        · rw [hdel.2.calls, hdel.1]
          rfl
        · rw [hb.calls, hd]
          rfl
        · intro f hm
          rw [failuresIn_append, failuresIn_append, failuresIn_looks hl, List.nil_append,
            failuresIn, List.flatMap_singleton, hf.quiet.2, List.nil_append] at hm
          obtain ⟨p, hp, hfp⟩ := List.mem_flatMap.mp hm
          exact (hc p hp).quiet.2.2.2 f hfp

end Account

end Decommission
