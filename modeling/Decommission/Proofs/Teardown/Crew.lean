import Decommission.Proofs.Teardown.Account

/-!
# The accounts of all namespaces

`Manned` says how the accounts of all places stand when the coordinator has come
to a certain place and has seen a certain number of workers end.  Places before
it are left alone or handed over, the others are pending.  The places of the
workers are all different, so a posting for one of them leaves the others as
they are.

A posting for the place the coordinator has come to, an errand, and the end of a
worker each keep it (`Manned.look`, `Manned.leave`, `Manned.handOver`,
`Manned.errand`, `Manned.join`).
-/

namespace Decommission

section Postings

variable {ps : List Posting} {p : Posting} {i : Nat}

theorem accountOf_concat (ps : List Posting) (p : Posting) :
    accountOf (ps ++ [p]) p.place = accountOf ps p.place ++ [p] := by
  rw [accountOf, List.filter_append]
  simp [accountOf]

theorem accountOf_concat_of_ne (h : p.place ≠ i) :
    accountOf (ps ++ [p]) i = accountOf ps i := by
  rw [accountOf, List.filter_append]
  simp [accountOf, h]

theorem handedOf_concat_of_handOver (ps : List Posting) (h : p.isHandOver) :
    handedOf (ps ++ [p]) = handedOf ps ++ [p.place] := by
  rw [handedOf, List.filter_append]
  simp [handedOf, h]

theorem handedOf_concat (ps : List Posting) (h : ¬ p.isHandOver) :
    handedOf (ps ++ [p]) = handedOf ps := by
  rw [handedOf, List.filter_append]
  simp [handedOf, h]

end Postings

/-- How the place of a worker stands, so many workers having been seen to end. -/
def Standing.of (joined j : Nat) (w : Worker) : Standing :=
  if j < joined then .dismissed w else .employed w

/-- How the accounts stand when the coordinator has come to the place `k` and has
seen the first `joined` workers end. -/
structure Manned (spaces : List String) (k joined : Nat) (workers : List Worker)
    (ps : List Posting) : Prop where
  within : k ≤ spaces.length
  placed : ∀ p ∈ ps, p.place < spaces.length
  length_handed : (handedOf ps).length = workers.length
  nodup_handed : (handedOf ps).Nodup
  handed_lt : ∀ i ∈ handedOf ps, i < k
  /-- From there on, places are pending. -/
  pending : ∀ i space, k ≤ i → spaces[i]? = some space →
    Account space (accountOf ps i) .pending
  /-- What was not handed over is left alone. -/
  left : ∀ i space, i < k → i ∉ handedOf ps → spaces[i]? = some space →
    Account space (accountOf ps i) .left
  /-- What was handed over stands as its worker does. -/
  employed : ∀ j i w space, (handedOf ps)[j]? = some i → workers[j]? = some w →
    spaces[i]? = some space → Account space (accountOf ps i) (.of joined j w)

namespace Manned

variable {spaces : List String} {k joined : Nat} {workers : List Worker} {ps : List Posting}
  {p : Posting} {space : String}

theorem start (spaces : List String) : Manned spaces 0 0 [] [] where
  within := Nat.zero_le _
  placed _ hp := nomatch hp
  length_handed := rfl
  nodup_handed := List.nodup_nil
  handed_lt _ hi := nomatch hi
  pending _ _ _ _ := .pending [] fun _ hp => nomatch hp
  left _ _ hi := nomatch hi
  employed _ _ _ _ hj := nomatch hj

/-- Every place of a worker holds a namespace. -/
theorem space_of_handed (h : Manned spaces k joined workers ps) {i : Nat}
    (hi : i ∈ handedOf ps) : ∃ space, spaces[i]? = some space :=
  ⟨_, List.getElem?_eq_getElem (Nat.lt_of_lt_of_le (h.handed_lt i hi) h.within)⟩

theorem placed_concat (h : Manned spaces k joined workers ps)
    (hs : spaces[p.place]? = some space) : ∀ q ∈ ps ++ [p], q.place < spaces.length := by
  intro q hq
  rcases List.mem_append.mp hq with hm | hm
  · exact h.placed q hm
  · rw [List.mem_singleton.mp hm]
    exact (List.getElem?_eq_some_iff.mp hs).1

/-! ## Postings for the place the coordinator has come to -/

theorem look (h : Manned spaces k joined workers ps) (hk : p.place = k)
    (hs : spaces[k]? = some space) (hp : p.IsLook space) :
    Manned spaces k joined workers (ps ++ [p]) := by
  have hhanded := handedOf_concat ps hp.not_isHandOver
  refine ⟨h.within, h.placed_concat (hk ▸ hs), hhanded ▸ h.length_handed,
    hhanded ▸ h.nodup_handed, hhanded ▸ h.handed_lt, ?_, ?_, ?_⟩
  · intro i space' hi hs'
    by_cases hik : p.place = i
    · subst hik
      rw [accountOf_concat]
      have heq : space = space' := Option.some.inj (hs.symm.trans (hk ▸ hs'))
      exact (h.pending _ _ hi hs').look (heq ▸ hp)
    · rw [accountOf_concat_of_ne hik]
      exact h.pending i space' hi hs'
  · intro i space' hi hnot hs'
    rw [accountOf_concat_of_ne (by omega)]
    exact h.left i space' hi (hhanded ▸ hnot) hs'
  · intro j i w space' hj hw hs'
    rw [hhanded] at hj
    have hlt := h.handed_lt i (List.mem_of_getElem? hj)
    rw [accountOf_concat_of_ne (by omega)]
    exact h.employed j i w space' hj hw hs'

theorem leave (h : Manned spaces k joined workers ps) (hk : p.place = k)
    (hs : spaces[k]? = some space) (hp : ¬ p.isHandOver)
    (ha : Account space (accountOf ps k ++ [p]) .left) :
    Manned spaces (k + 1) joined workers (ps ++ [p]) := by
  have hhanded := handedOf_concat ps hp
  refine ⟨(List.getElem?_eq_some_iff.mp hs).1, h.placed_concat (hk ▸ hs),
    hhanded ▸ h.length_handed, hhanded ▸ h.nodup_handed, ?_, ?_, ?_, ?_⟩
  · intro i hi
    rw [hhanded] at hi
    exact Nat.lt_succ_of_lt (h.handed_lt i hi)
  · intro i space' hi hs'
    rw [accountOf_concat_of_ne (by omega)]
    exact h.pending i space' (by omega) hs'
  · intro i space' hi hnot hs'
    by_cases hik : p.place = i
    · subst hik
      rw [accountOf_concat, hk]
      have heq : space = space' := Option.some.inj (hs.symm.trans (hk ▸ hs'))
      exact heq ▸ ha
    · rw [accountOf_concat_of_ne hik]
      exact h.left i space' (by omega) (hhanded ▸ hnot) hs'
  · intro j i w space' hj hw hs'
    rw [hhanded] at hj
    have hlt := h.handed_lt i (List.mem_of_getElem? hj)
    rw [accountOf_concat_of_ne (by omega)]
    exact h.employed j i w space' hj hw hs'

theorem handOver (h : Manned spaces k joined workers ps) (hk : p.place = k)
    (hs : spaces[k]? = some space) (hp : p.IsFree space) (hj : joined ≤ workers.length)
    (targets : List Target) :
    Manned spaces (k + 1) joined (workers ++ [.start space targets]) (ps ++ [p]) := by
  have hhanded := handedOf_concat_of_handOver ps hp.isHandOver
  have hnew : ∀ i ∈ handedOf ps, p.place ≠ i := by
    intro i hi
    have := h.handed_lt i hi
    omega
  refine ⟨(List.getElem?_eq_some_iff.mp hs).1, h.placed_concat (hk ▸ hs), ?_, ?_, ?_, ?_, ?_, ?_⟩
  · rw [hhanded, List.length_append, List.length_append, h.length_handed]
    rfl
  · rw [hhanded, List.nodup_append]
    refine ⟨h.nodup_handed, List.nodup_cons.mpr ⟨List.not_mem_nil, List.nodup_nil⟩, ?_⟩
    intro i hi i' hi' heq
    rw [List.mem_singleton.mp hi'] at heq
    exact hnew i hi heq.symm
  · intro i hi
    rw [hhanded] at hi
    rcases List.mem_append.mp hi with hm | hm
    · exact Nat.lt_succ_of_lt (h.handed_lt i hm)
    · rw [List.mem_singleton.mp hm, hk]
      exact Nat.lt_succ_self k
  · intro i space' hi hs'
    rw [accountOf_concat_of_ne (by omega)]
    exact h.pending i space' (by omega) hs'
  · intro i space' hi hnot hs'
    rw [hhanded, List.mem_append, not_or, List.mem_singleton] at hnot
    rw [accountOf_concat_of_ne (Ne.symm hnot.2)]
    exact h.left i space' (by omega) hnot.1 hs'
  · intro j i w space' hji hw hs'
    rw [hhanded] at hji
    by_cases hlt : j < workers.length
    · rw [List.getElem?_append_left (h.length_handed ▸ hlt)] at hji
      rw [List.getElem?_append_left hlt] at hw
      rw [accountOf_concat_of_ne (hnew i (List.mem_of_getElem? hji))]
      exact h.employed j i w space' hji hw hs'
    · have hlen : j = workers.length := by
        have hlt' := (List.getElem?_eq_some_iff.mp hw).1
        rw [List.length_append, List.length_singleton] at hlt'
        omega
      rw [hlen, ← h.length_handed, List.getElem?_concat_length] at hji
      rw [hlen, List.getElem?_concat_length] at hw
      cases hji
      cases hw
      have heq : space = space' := Option.some.inj (hs.symm.trans (hk ▸ hs'))
      rw [accountOf_concat, Standing.of, if_neg (by omega)]
      exact heq ▸ (h.pending _ _ (Nat.le_of_eq hk.symm) (hk ▸ hs)).handOver hp targets

/-! ## Postings for the place of a worker -/

/-- A posting for the place of a worker concerns no other place. -/
theorem posted (h : Manned spaces k joined workers ps) {joined' : Nat} {workers' : List Worker}
    {j : Nat} (hj : (handedOf ps)[j]? = some p.place) (hp : ¬ p.isHandOver)
    (hlen : workers'.length = workers.length)
    (hother : ∀ j' w, j' ≠ j → workers'[j']? = some w →
      workers[j']? = some w ∧ Standing.of joined' j' w = .of joined j' w)
    (hown : ∀ w space, workers'[j]? = some w → spaces[p.place]? = some space →
      Account space (accountOf ps p.place ++ [p]) (.of joined' j w)) :
    Manned spaces k joined' workers' (ps ++ [p]) := by
  have hhanded := handedOf_concat ps hp
  have hmem := List.mem_of_getElem? hj
  obtain ⟨space, hs⟩ := h.space_of_handed hmem
  have hlt := h.handed_lt _ hmem
  refine ⟨h.within, h.placed_concat hs, ?_, hhanded ▸ h.nodup_handed,
    hhanded ▸ h.handed_lt, ?_, ?_, ?_⟩
  · rw [hhanded, hlen, h.length_handed]
  · intro i space' hi hs'
    rw [accountOf_concat_of_ne (by omega)]
    exact h.pending i space' hi hs'
  · intro i space' hi hnot hs'
    rw [hhanded] at hnot
    have hne : p.place ≠ i := by
      intro heq
      rw [← heq] at hnot
      exact hnot hmem
    rw [accountOf_concat_of_ne hne]
    exact h.left i space' hi hnot hs'
  · intro j' i w space' hj' hw hs'
    rw [hhanded] at hj'
    by_cases hjj : j' = j
    · subst hjj
      rw [hj', Option.some.injEq] at hj
      subst hj
      rw [accountOf_concat]
      exact hown w space' hw hs'
    · obtain ⟨hw', hst⟩ := hother j' w hjj hw
      rw [accountOf_concat_of_ne, hst]
      · exact h.employed j' i w space' hj' hw' hs'
      · intro heq
        refine hjj ((List.getElem?_inj ?_ h.nodup_handed).mp (hj'.trans (heq ▸ hj.symm)))
        exact (List.getElem?_eq_some_iff.mp hj').1

theorem errand {κ : Type} [Cluster κ] {c : κ} (h : Manned spaces k joined workers ps) {j : Nat}
    {w : Worker} (hj : (handedOf ps)[j]? = some p.place) (hw : workers[j]? = some w)
    (hne : w.errands ≠ []) (hd : w.deed? c = some p.deed) (hp : p.Booked w.space) :
    Manned spaces k joined (workers.set j (w.after p.deed)) (ps ++ [p]) := by
  refine h.posted hj (Posting.not_isHandOver_of_deed? hd) List.length_set ?_ ?_
  · intro j' w' hjj hw'
    rw [List.getElem?_set_ne (Ne.symm hjj)] at hw'
    exact ⟨hw', rfl⟩
  · intro w' space hw' hs
    rw [List.getElem?_set_self (List.getElem?_eq_some_iff.mp hw).1] at hw'
    cases hw'
    have ha := h.employed j p.place w space hj hw hs
    rw [Standing.of] at ha ⊢
    split at ha
    · have hover := ha.isOver_of_dismissed
      exact absurd (List.isEmpty_iff.mp hover) hne
    · rw [if_neg ‹_›]
      rw [ha.space_employed] at hp
      exact ha.errand hne hd hp

theorem join (h : Manned spaces k joined workers ps) {w : Worker}
    (hj : (handedOf ps)[joined]? = some p.place) (hw : workers[joined]? = some w)
    (hover : w.isOver) (hd : p.deed = .joined w.died) (hp : p.Booked w.space) :
    Manned spaces k (joined + 1) workers (ps ++ [p]) := by
  refine h.posted hj (Posting.not_isHandOver_of_joined hd) rfl ?_ ?_
  · intro j' w' hjj hw'
    refine ⟨hw', ?_⟩
    rw [Standing.of, Standing.of]
    by_cases hlt : j' < joined
    · rw [if_pos hlt, if_pos (Nat.lt_succ_of_lt hlt)]
    · rw [if_neg hlt, if_neg (by omega)]
  · intro w' space hw' hs
    rw [hw] at hw'
    cases hw'
    have ha := h.employed joined p.place w space hj hw hs
    rw [Standing.of, if_neg (Nat.lt_irrefl joined)] at ha
    rw [Standing.of, if_pos (Nat.lt_succ_self joined)]
    rw [ha.space_employed] at hp
    exact ha.join hover hd hp

/-- Every worker has a place. -/
theorem exists_handed (h : Manned spaces k joined workers ps) {j : Nat} {w : Worker}
    (hw : workers[j]? = some w) : ∃ i, (handedOf ps)[j]? = some i := by
  have hlt := (List.getElem?_eq_some_iff.mp hw).1
  exact ⟨_, List.getElem?_eq_getElem (h.length_handed ▸ hlt)⟩

/-- In the end, every place is left alone or its worker was seen to end. -/
theorem standing_of_joined (h : Manned spaces spaces.length joined workers ps)
    (hj : workers.length ≤ joined) {i : Nat} (hs : spaces[i]? = some space) :
    Account space (accountOf ps i) .left ∨
      ∃ w, Account space (accountOf ps i) (.dismissed w) := by
  by_cases hi : i ∈ handedOf ps
  · obtain ⟨j, hji⟩ := List.mem_iff_getElem?.mp hi
    have hlt : j < workers.length := h.length_handed ▸ (List.getElem?_eq_some_iff.mp hji).1
    have ha := h.employed j i _ space hji (List.getElem?_eq_getElem hlt) hs
    rw [Standing.of, if_pos (Nat.lt_of_lt_of_le hlt hj)] at ha
    exact Or.inr ⟨_, ha⟩
  · exact Or.inl (h.left i space (List.getElem?_eq_some_iff.mp hs).1 hi hs)

/-- In the end, every worker is over. -/
theorem isOver_of_joined (h : Manned spaces k joined workers ps) (hj : workers.length ≤ joined)
    {w : Worker} (hw : w ∈ workers) : w.isOver := by
  obtain ⟨j, hwj⟩ := List.mem_iff_getElem?.mp hw
  obtain ⟨i, hji⟩ := h.exists_handed hwj
  obtain ⟨space, hs⟩ := h.space_of_handed (List.mem_of_getElem? hji)
  have ha := h.employed j i w space hji hwj hs
  have hlt := (List.getElem?_eq_some_iff.mp hwj).1
  rw [Standing.of, if_pos (Nat.lt_of_lt_of_le hlt hj)] at ha
  exact ha.isOver_of_dismissed

end Manned

end Decommission
