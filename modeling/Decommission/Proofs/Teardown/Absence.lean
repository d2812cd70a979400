import Mathlib.Data.List.Basic
import Decommission.Cluster.Faulty
import Decommission.Cluster.Store
import Decommission.Proofs.Teardown.Accounting
import Decommission.Proofs.Teardown.Ending

/-!
# What does not exist

While finalizers are cleared and when the namespace is deleted, what does not exist
counts as done.  A namespace whose pods cannot be listed counts as one that could not
be looked at, also if the reason is that it does not exist.

Say that calls fail only for want of what they are about, and that no worker dies.
Then a teardown comes to a result, whatever the order of moves, and has failed just
for those namespaces whose last listing failed (`Ledger.missed_inevitable`).  One
namespace that does not exist is enough (`Ledger.missing_reported`).
-/

namespace Decommission

namespace Deed

/-- The error with which a call was answered, if it was. -/
def error? : Deed → Option ClusterError
  | listed (.error e) | fetched _ (.error e) | cleared _ _ (.error e) | deleted (.failed e) =>
      some e
  | _ => none

/-- If the call failed, that was for want of what it is about, and nobody died of it. -/
structure IsHarmless (d : Deed) : Prop where
  missing : ∀ e, d.error? = some e → e.isMissing
  survived : d ≠ .deleted .fatal

theorem failuresOf_of_isMissing {w : Worker} {step : TeardownStep} {e : ClusterError}
    (h : e.isMissing) : w.failuresOf step e = [] := by rw [Worker.failuresOf, if_pos h]

/-- What does not exist is no failure. -/
theorem IsHarmless.failures_eq_nil {d : Deed} (h : d.IsHarmless) (hdied : d ≠ .joined true)
    (space : String) : d.failures space = [] := by
  cases d with
  | listed answer => rfl
  | fetched target answer =>
      cases answer with
      | ok rs => rfl
      | error e => exact failuresOf_of_isMissing (h.missing e rfl)
  | cleared kind r answer =>
      cases answer with
      | ok r => rfl
      | error e => exact failuresOf_of_isMissing (h.missing e rfl)
  | deleted answer =>
      cases answer with
      | failed e => exact failuresOf_of_isMissing (h.missing e rfl)
      | done | fatal => rfl
  | joined died =>
      cases died with
      | true => exact absurd rfl hdied
      | false => rfl

end Deed

/-- What is told of a namespace that could not be looked at in the end. -/
def unreached (space : String) (ps : List Posting) : List TeardownFailure :=
  match lastListing? ps with
  | some (.error e) => [⟨space, .precheck, e.message⟩]
  | _ => []

namespace Account

variable {space : String} {ps : List Posting} {w : Worker}

theorem failuresIn_of_left (h : Account space ps .left) :
    failuresIn ps = unreached space ps := by
  have hacc := h.accounted_of_left
  rw [unreached]
  cases h with
  | running looks last pods hl hd hr hb =>
      have hlast := lastListing?_concat looks hd
      rw [hlast]
      exact (hacc.running pods hlast hr).2
  | unreachable looks last e hl hd hc hf =>
      have hlast := lastListing?_concat looks hd
      rw [hlast]
      exact (hacc.unreachable e hlast).2

/-- Nothing fails of a namespace that is handed over, unless a call fails for another
reason than that something is missing. -/
theorem failuresIn_of_dismissed (h : Account space ps (.dismissed w))
    (hm : ∀ p ∈ ps, p.deed.IsHarmless) : failuresIn ps = unreached space ps := by
  cases h with
  | dismissed looks clearing last deletion joining answer _ hl hf hc hdel hd hb _ =>
      have hlast : lastListing? (looks ++ last :: (clearing ++ [deletion, joining])) =
          lastListing? (looks ++ [last]) := by
        rw [List.append_cons]
        refine lastListing?_append fun p hp => ?_
        simp only [List.mem_append, List.mem_cons, List.not_mem_nil, or_false] at hp
        rcases hp with hm | rfl | rfl
        · exact (hc p hm).quiet.2.1
        · rw [Posting.listing?, hdel.1]
        · rw [Posting.listing?, hd]
      obtain ⟨⟨pods, hpods, _⟩, hfree⟩ := hf
      rw [unreached, hlast, lastListing?_concat looks hpods]
      have hsurvived : answer ≠ .fatal := by
        intro hfatal
        have hharm := (hm deletion (by simp)).survived
        rw [hdel.1, hfatal] at hharm
        exact hharm rfl
      have hquiet : ∀ p : Posting, p.Booked space → p.deed.IsHarmless → p.deed ≠ .joined true →
          p.failures = [] := fun p hp hharm hdied =>
        hp.failures.trans (hharm.failures_eq_nil hdied space)
      refine failuresIn_eq_nil fun p hp => ?_
      have hharm := hm p hp
      simp only [List.mem_append, List.mem_cons, List.not_mem_nil, or_false] at hp
      rcases hp with hm | rfl | hm | rfl | rfl
      · exact (hl p hm).quiet.2
      · exact hquiet _ hfree hharm (by rw [hpods]; exact Deed.noConfusion)
      · refine hquiet _ (hc p hm).2 hharm fun hdied => ?_
        have hclear := (hc p hm).1
        rw [hdied] at hclear
        cases hclear
      · exact hquiet _ hdel.2 hharm (by rw [hdel.1]; exact Deed.noConfusion)
      · refine hquiet _ hb hharm ?_
        rw [hd, beq_eq_false_iff_ne.mpr hsurvived]
        simp

end Account

/-- Postings go to their places. -/
theorem perm_flatMap_accountOf {ps : List Posting} {n : Nat} (h : ∀ p ∈ ps, p.place < n) :
    ps.Perm ((List.range n).flatMap (accountOf ps)) := by
  have hall : ∀ n, (ps.filter fun p => p.place < n).Perm
      ((List.range n).flatMap (accountOf ps)) := by
    intro n
    induction n with
    | zero => simp
    | succ n ih =>
        rw [List.range_succ, List.flatMap_append, List.flatMap_singleton]
        refine .trans ?_ (ih.append_right _)
        refine (List.filter_append_perm (fun p => decide (p.place < n)) _).symm.trans (.of_eq ?_)
        rw [List.filter_filter, List.filter_filter, accountOf]
        congr 1
        · refine List.filter_congr fun p _ => ?_
          simp only [Bool.and_eq_left_iff_imp, decide_eq_true_eq]
          omega
        · refine List.filter_congr fun p _ => ?_
          rw [Bool.eq_iff_iff]
          simp only [Bool.and_eq_true, Bool.not_eq_true', decide_eq_true_eq,
            decide_eq_false_iff_not, beq_iff_eq]
          omega
  have hfilter := List.filter_eq_self.mpr fun p hp => decide_eq_true (h p hp)
  rw [← hfilter]
  simpa only [hfilter] using hall n

namespace Ledger

variable {κ : Type}

/-- Calls failed only for want of what they are about, and no worker died. -/
def OnlyMissed (l : Ledger κ) : Prop := ∀ p ∈ l.postings, p.deed.IsHarmless

/-- What has come of a teardown in which calls failed only for want of what they are
about. -/
structure Missed (spaces : List String) (l : Ledger κ) (r : Except TeardownError Unit) :
    Prop where
  /-- All went well just if every namespace could be looked at in the end. -/
  ok : r = .ok () ↔ ∀ i space, spaces[i]? = some space →
    ∃ pods, lastListing? (accountOf l.postings i) = some (.ok pods)
  /-- Otherwise the looks at the others are all that failed, each of them once. -/
  error : ∀ e, r = .error e → e.failures.Perm
    (spaces.zipIdx.flatMap fun x => unreached x.1 (accountOf l.postings x.2))

variable {spaces : List String} {k joined : Nat} {l : Ledger κ} {r : Except TeardownError Unit}

theorem Kept.failuresIn_accountOf (h : Kept spaces k joined l) (hr : l.teardown.result? = some r)
    (hm : l.OnlyMissed) {i : Nat} {space : String} (hs : spaces[i]? = some space) :
    failuresIn (accountOf l.postings i) = unreached space (accountOf l.postings i) ∧
      (lastListing? (accountOf l.postings i)).isSome := by
  obtain ⟨hk, hj, _⟩ := h.reached.of_result? hr
  rw [h.listed] at hk
  subst hk
  rcases h.manned.standing_of_joined hj hs with ha | ⟨w, ha⟩
  · exact ⟨ha.failuresIn_of_left, ha.accounted_of_left.listed⟩
  · refine ⟨ha.failuresIn_of_dismissed fun p hp => hm p ((List.mem_filter.mp hp).1), ?_⟩
    exact ha.accounted_of_dismissed.listed

/-- The failures are those of the places. -/
theorem Kept.perm_unreached (h : Kept spaces k joined l) (hr : l.teardown.result? = some r)
    (hm : l.OnlyMissed) : (failuresIn l.postings).Perm
      (spaces.zipIdx.flatMap fun x => unreached x.1 (accountOf l.postings x.2)) := by
  refine ((perm_flatMap_accountOf h.manned.placed).flatMap_right _).trans (.of_eq ?_)
  rw [List.flatMap_assoc, List.range_eq_range', ← List.zipIdx_map_snd, List.flatMap_map]
  refine List.flatMap_congr fun x hx => ?_
  exact (h.failuresIn_accountOf hr hm (List.mem_zipIdx_iff_getElem?.mp hx)).1

theorem Kept.missed (h : Kept spaces k joined l) (hr : l.teardown.result? = some r)
    (hm : l.OnlyMissed) : l.Missed spaces r := by
  have hset := h.settled hr
  have hperm := h.perm_unreached hr hm
  refine ⟨?_, fun e he => (hset.error e he).1.trans hperm⟩
  rw [hset.ok]
  constructor
  · intro hnil i space hs
    obtain ⟨hacc, hsome⟩ := h.failuresIn_accountOf hr hm hs
    have hnone : failuresIn (accountOf l.postings i) = [] := by
      rw [failuresIn, List.flatMap_eq_nil_iff] at hnil ⊢
      exact fun p hp => hnil p ((List.mem_filter.mp hp).1)
    obtain ⟨answer, ha⟩ := Option.isSome_iff_exists.mp hsome
    cases answer with
    | ok pods => exact ⟨pods, ha⟩
    | error e =>
        rw [hnone, unreached, ha] at hacc
        cases hacc
  · intro hok
    refine List.eq_nil_of_length_eq_zero (hperm.length_eq.trans (List.length_eq_zero_iff.mpr ?_))
    refine List.flatMap_eq_nil_iff.mpr fun x hx => ?_
    obtain ⟨pods, hp⟩ := hok x.2 x.1 (List.mem_zipIdx_iff_getElem?.mp hx)
    rw [unreached, hp]

variable [Cluster κ]

theorem map_teardown_move? (m : Teardown.Move) (l : Ledger κ) :
    (l.move? m).map teardown = (l.teardown.move? m).map Prod.snd := by
  rw [move?, Option.map_map]
  rfl

/-- Whatever the cluster answers, and in whatever order the coordinator and the workers
move, a teardown comes to a result.  If calls failed only for want of what they are
about and no worker died, nothing has failed but the last looks at namespaces that could
not be looked at. -/
theorem missed_inevitable (policy : RetryPolicy) (systemSpace : String) (targets : List Target)
    (spaces : List String) (cluster : κ) :
    Inevitable Ledger.move? (fun l => ∃ r, l.teardown.result? = some r ∧
      (l.OnlyMissed → l.Missed spaces r))
      { teardown := .start policy systemSpace targets spaces cluster } := by
  have hkept := kept_play policy systemSpace targets spaces cluster []
  have hend := Teardown.inevitable_result (f := Ledger.teardown (κ := κ)) map_teardown_move?
    (Q := fun l => ∃ k joined, Kept spaces k joined l)
    (fun m l l' ⟨k, joined, h⟩ hm => h.move? hm) hkept
  refine hend.mono ?_
  rintro l ⟨⟨r, hr⟩, k, joined, h⟩
  exact ⟨r, hr, h.missed hr⟩

/-- One attempt, and no more. -/
def once : RetryPolicy := { RetryPolicy.standard with attempts := 1, attempts_lt := by decide }

/-- A cluster in which nothing exists, and which says so of the pods of one namespace. -/
def deserted : Faulty Store where
  inner := {}
  listings := .ofList [("a", [some (.missing "namespace a")])]

/-- A namespace that does not exist is reported as a failure, when that shows in the
listing of its pods. -/
theorem missing_reported :
    let l := play Ledger.move? { teardown := .start once "system" [] ["a"] deserted }
      [.coordinate 0, .coordinate 0, .coordinate 0]
    l.OnlyMissed ∧ l.postings.map Posting.deed = [.listed (.error (.missing "namespace a"))] ∧
      l.teardown.result? =
        some (.error ⟨[⟨"a", .precheck, "not found: namespace a"⟩]⟩) := by
  intro l
  have hdeeds : l.postings.map Posting.deed = [.listed (.error (.missing "namespace a"))] := rfl
  have hresult : l.teardown.result? = some (.error (TeardownError.ofFailures
      [⟨"a", .precheck, "not found: namespace a"⟩])) := rfl
  rw [TeardownError.ofFailures, List.mergeSort_singleton] at hresult
  refine ⟨fun p hp => ?_, hdeeds, hresult⟩
  have hd : p.deed = .listed (.error (.missing "namespace a")) :=
    List.mem_singleton.mp (hdeeds ▸ List.mem_map_of_mem hp)
  rw [hd]
  refine ⟨fun e he => ?_, Deed.noConfusion⟩
  cases he
  rfl

end Ledger

end Decommission
