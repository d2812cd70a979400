import Decommission.Proofs.Teardown.Alone

/-!
# What can be foreseen of a teardown

Say that the chores of different namespaces do not meet: each reads and changes a part
of the cluster of its own (`Separates`).  Then what comes of a namespace is what comes of
its chore when it is left alone.  That can be told beforehand, and no turn of any chore
changes it (`Foreseen.turn`).

So neither the order of the moves nor the order of the namespaces matters for what is left
of the cluster and for what fails of each namespace (`Teardown.inevitable_foreseen`).  The
failures are sorted by namespace and stay in their order within each, which makes the
result the same too (`Teardown.verdict_congr`).
-/

namespace Decommission

/-- The failures of a namespace, in the order in which they occurred. -/
def told (space : String) (fs : List TeardownFailure) : List TeardownFailure :=
  fs.filter fun f => f.space = space

theorem told_append (space : String) (fs gs : List TeardownFailure) :
    told space (fs ++ gs) = told space fs ++ told space gs := List.filter_append ..

theorem told_eq_self {space : String} {fs : List TeardownFailure}
    (h : ∀ f ∈ fs, f.space = space) : told space fs = fs :=
  List.filter_eq_self.mpr fun f hf => decide_eq_true (h f hf)

theorem told_eq_nil {space other : String} {fs : List TeardownFailure}
    (h : ∀ f ∈ fs, f.space = other) (hne : other ≠ space) : told space fs = [] :=
  List.filter_eq_nil_iff.mpr fun f hf hs => hne ((h f hf).symm.trans (of_decide_eq_true hs))

theorem told_cons_self {space : String} {f : TeardownFailure} (h : f.space = space)
    (fs : List TeardownFailure) : told space (f :: fs) = f :: told space fs :=
  List.filter_cons_of_pos (decide_eq_true h)

theorem told_cons_ne {space : String} {f : TeardownFailure} (h : f.space ≠ space)
    (fs : List TeardownFailure) : told space (f :: fs) = told space fs :=
  List.filter_cons_of_neg fun hd => h (of_decide_eq_true hd)

theorem mem_of_told_eq {f : TeardownFailure} {fs gs : List TeardownFailure}
    (h : told f.space (f :: fs) = told f.space gs) : f ∈ gs := by
  have hm : f ∈ told f.space gs := by
    rw [← h, told_cons_self rfl]
    exact List.mem_cons_self ..
  exact (List.mem_filter.mp hm).1

/-! ## The order of failures -/

namespace TeardownError

theorem space_le_trans (a b c : TeardownFailure) (hab : decide (a.space ≤ b.space))
    (hbc : decide (b.space ≤ c.space)) : decide (a.space ≤ c.space) :=
  decide_eq_true (String.le_trans (of_decide_eq_true hab) (of_decide_eq_true hbc))

theorem space_le_total (a b : TeardownFailure) :
    decide (a.space ≤ b.space) || decide (b.space ≤ a.space) := by
  simpa using String.le_total a.space b.space

/-- Failures are reported in ascending order of their namespaces. -/
theorem ascending_ofFailures (fs : List TeardownFailure) :
    (ofFailures fs).failures.Pairwise fun a b => a.space ≤ b.space :=
  (List.pairwise_mergeSort space_le_trans space_le_total fs).imp of_decide_eq_true

/-- The failures of a namespace are reported in the order in which they occurred. -/
theorem told_ofFailures (space : String) (fs : List TeardownFailure) :
    told space (ofFailures fs).failures = told space fs := by
  have hpair : (told space fs).Pairwise fun a b => decide (a.space ≤ b.space) := by
    refine List.pairwise_of_forall_mem_list fun a ha b hb => decide_eq_true ?_
    have ha' : a.space = space := of_decide_eq_true (List.mem_filter.mp ha).2
    have hb' : b.space = space := of_decide_eq_true (List.mem_filter.mp hb).2
    exact (ha'.trans hb'.symm) ▸ String.le_refl a.space
  have hsub := List.sublist_mergeSort space_le_trans space_le_total hpair List.filter_sublist
  have hfilter := hsub.filter fun f => decide (f.space = space)
  rw [told, List.filter_filter] at hfilter
  simp only [Bool.and_self] at hfilter
  refine (hfilter.eq_of_length ?_).symm
  exact ((List.mergeSort_perm fs _).filter _).length_eq.symm

end TeardownError

/-- Failures in ascending order of their namespaces are known by those of each of them. -/
theorem eq_of_told {fs gs : List TeardownFailure} (hf : fs.Pairwise fun a b => a.space ≤ b.space)
    (hg : gs.Pairwise fun a b => a.space ≤ b.space) (h : ∀ x, told x fs = told x gs) :
    fs = gs := by
  induction fs generalizing gs with
  | nil =>
      cases gs with
      | nil => rfl
      | cons g gs => exact absurd (mem_of_told_eq (h g.space).symm) List.not_mem_nil
  | cons f fs ih =>
      cases gs with
      | nil => exact absurd (mem_of_told_eq (h f.space)) List.not_mem_nil
      | cons g gs =>
          obtain ⟨hff, hfs⟩ := List.pairwise_cons.mp hf
          obtain ⟨hgg, hgs⟩ := List.pairwise_cons.mp hg
          have hspace : f.space = g.space := by
            refine String.le_antisymm ?_ ?_
            · rcases List.mem_cons.mp (mem_of_told_eq (h g.space).symm) with heq | hm
              · exact heq ▸ String.le_refl _
              · exact hff g hm
            · rcases List.mem_cons.mp (mem_of_told_eq (h f.space)) with heq | hm
              · exact heq ▸ String.le_refl _
              · exact hgg f hm
          have hhead := h f.space
          rw [told_cons_self rfl, told_cons_self hspace.symm] at hhead
          obtain ⟨rfl, hself⟩ := List.cons.inj hhead
          rw [ih hfs hgs fun x => ?_]
          by_cases hx : f.space = x
          · exact hx ▸ hself
          · have hrest := h x
            rwa [told_cons_ne hx, told_cons_ne hx] at hrest

/-- The result depends on the failures of each namespace only. -/
theorem Teardown.verdict_congr {fs gs : List TeardownFailure} (h : ∀ x, told x fs = told x gs) :
    verdict fs = verdict gs := by
  have hsorted : TeardownError.ofFailures fs = .ofFailures gs := by
    refine congrArg TeardownError.mk (eq_of_told (TeardownError.ascending_ofFailures fs)
      (TeardownError.ascending_ofFailures gs) fun x => ?_)
    exact (TeardownError.told_ofFailures x fs).trans
      ((h x).trans (TeardownError.told_ofFailures x gs).symm)
  have hempty : ∀ {fs gs : List TeardownFailure}, (∀ x, told x fs = told x gs) → fs.isEmpty →
      gs.isEmpty := by
    intro fs gs h hfs
    rw [List.isEmpty_iff.mp hfs] at h
    cases gs with
    | nil => rfl
    | cons g gs => exact absurd (mem_of_told_eq (h g.space).symm) List.not_mem_nil
  rw [verdict, verdict, hsorted, Bool.eq_iff_iff.mpr ⟨hempty h, hempty fun x => (h x).symm⟩]

/-! ## Chores that do not meet -/

variable {κ ν : Type} [Cluster κ] {plan : Plan} {view : String → κ → ν} {Sound : κ → Prop}
  {Within : Chore → Prop}

/-- The chores of different namespaces do not meet.  Each namespace has its view of the
cluster.  A chore reads and changes what is in the view of its namespace, and nothing that
is in the view of another. -/
structure Separates (plan : Plan) (view : String → κ → ν) (Sound : κ → Prop)
    (Within : Chore → Prop) : Prop where
  own : ∀ {c : Chore} {k k' : κ}, Sound k → Sound k' → Within c →
    view c.space k = view c.space k' →
    (c.turn plan k).rest = (c.turn plan k').rest ∧
      (c.turn plan k).failures = (c.turn plan k').failures ∧
        view c.space (c.turn plan k).cluster = view c.space (c.turn plan k').cluster
  other : ∀ {c : Chore} {k : κ} {x : String}, Sound k → Within c → c.space ≠ x →
    view x (c.turn plan k).cluster = view x k
  sound : ∀ {c : Chore} {k : κ}, Sound k → Within c → Sound (c.turn plan k).cluster
  within : ∀ {c c' : Chore} {k : κ}, Sound k → Within c → c' ∈ (c.turn plan k).rest → Within c'

/-- What comes of a chore depends on the view of its namespace only. -/
theorem Separates.alone_congr (hs : Separates plan view Sound Within) {c : Option Chore}
    {k k' l : κ} {fs : List TeardownFailure} {x : String} (h : Chore.Alone plan c k fs k')
    (hk : Sound k) (hl : Sound l) (hc : ∀ d ∈ c, Within d ∧ d.space = x)
    (hview : view x k = view x l) :
    ∃ l', Chore.Alone plan c l fs l' ∧ view x l' = view x k' := by
  induction h generalizing l with
  | done => exact ⟨l, .done, hview.symm⟩
  | @turn c k k' fs h ih =>
      obtain ⟨hw, rfl⟩ := hc c rfl
      obtain ⟨hrest, hfailures, hcluster⟩ := hs.own hk hl hw hview
      obtain ⟨l', hl', hview'⟩ := ih (hs.sound hk hw) (hs.sound hl hw)
        (fun d hd => ⟨hs.within hk hw hd, (Chore.space_turn plan c k).1 d hd⟩) hcluster
      refine ⟨l', ?_, hview'⟩
      rw [hfailures]
      exact .turn (hrest ▸ hl')

/-- The failures of each namespace and its view in the end, as they can be foreseen from
what has happened and what is left to do. -/
structure Foreseen (plan : Plan) (view : String → κ → ν) (Sound : κ → Prop)
    (Within : Chore → Prop) (failures : String → List TeardownFailure) (left : String → ν)
    (cs : List Chore) (fs : List TeardownFailure) (k : κ) : Prop where
  sound : Sound k
  within : ∀ c ∈ cs, Within c
  apart : (cs.map Chore.space).Nodup
  due : ∀ c ∈ cs, ∃ gs k', Chore.Alone plan (some c) k gs k' ∧
    told c.space fs ++ gs = failures c.space ∧ view c.space k' = left c.space
  settled : ∀ x, x ∉ cs.map Chore.space → told x fs = failures x ∧ view x k = left x

namespace Foreseen

variable {failures : String → List TeardownFailure} {left : String → ν} {c : Chore}
  {cs cs' : List Chore} {fs : List TeardownFailure} {k : κ}

theorem perm (h : Foreseen plan view Sound Within failures left cs fs k) (hp : cs.Perm cs') :
    Foreseen plan view Sound Within failures left cs' fs k where
  sound := h.sound
  within c hc := h.within c (hp.mem_iff.mpr hc)
  apart := (hp.map _).nodup_iff.mp h.apart
  due c hc := h.due c (hp.mem_iff.mpr hc)
  settled x hx := h.settled x fun hm => hx ((hp.map _).mem_iff.mp hm)

/-- A turn of a chore changes nothing of what can be foreseen. -/
theorem turn (hs : Separates plan view Sound Within)
    (h : Foreseen plan view Sound Within failures left (c :: cs) fs k) :
    Foreseen plan view Sound Within failures left ((c.turn plan k).rest.toList ++ cs)
      (fs ++ (c.turn plan k).failures) (c.turn plan k).cluster := by
  have hw := h.within c (List.mem_cons_self ..)
  obtain ⟨hfresh, hnodup⟩ := List.nodup_cons.mp h.apart
  obtain ⟨hspace, hfailures⟩ := Chore.space_turn plan c k
  obtain ⟨gs, k', halone, hgs, hleft⟩ := h.due c (List.mem_cons_self ..)
  have hown : told c.space (fs ++ (c.turn plan k).failures) =
      told c.space fs ++ (c.turn plan k).failures := by
    rw [told_append, told_eq_self hfailures]
  have hother : ∀ x, c.space ≠ x → told x (fs ++ (c.turn plan k).failures) = told x fs := by
    intro x hx
    rw [told_append, told_eq_nil hfailures hx, List.append_nil]
  refine ⟨hs.sound h.sound hw, fun d hd => ?_, ?_, fun d hd => ?_, fun x hx => ?_⟩
  · rcases List.mem_append.mp hd with hm | hm
    · exact hs.within h.sound hw (Option.mem_toList.mp hm)
    · exact h.within d (List.mem_cons_of_mem _ hm)
  · cases hr : (c.turn plan k).rest with
    | none => exact hnodup
    | some d =>
        refine List.nodup_cons.mpr ⟨?_, hnodup⟩
        rw [hspace d hr]
        exact hfresh
  · rcases List.mem_append.mp hd with hm | hm
    · have hr := Option.mem_toList.mp hm
      rw [hspace d hr, hown]
      cases halone with
      | turn halone =>
          rw [hr] at halone
          exact ⟨_, k', halone, by rw [List.append_assoc, hgs], hleft⟩
    · have hne : c.space ≠ d.space := fun heq => hfresh (heq ▸ List.mem_map_of_mem hm)
      obtain ⟨gs, k', halone, hgs, hleft⟩ := h.due d (List.mem_cons_of_mem _ hm)
      obtain ⟨l', hl', hview⟩ := hs.alone_congr halone h.sound (hs.sound h.sound hw)
        (fun e he => by
          cases he
          exact ⟨h.within d (List.mem_cons_of_mem _ hm), rfl⟩)
        (hs.other h.sound hw hne).symm
      exact ⟨gs, l', hl', by rw [hother _ hne, hgs], hview.trans hleft⟩
  · rw [List.map_append, List.mem_append, not_or] at hx
    by_cases hxc : c.space = x
    · subst hxc
      cases halone with
      | turn halone =>
          cases hr : (c.turn plan k).rest with
          | none =>
              rw [hr] at halone
              cases halone
              rw [hown, ← hgs, List.append_nil]
              exact ⟨rfl, hleft⟩
          | some d =>
              refine absurd ?_ hx.1
              rw [hr, ← hspace d hr]
              exact List.mem_singleton.mpr rfl
    · rw [hother x hxc, hs.other h.sound hw hxc]
      refine h.settled x fun hm => ?_
      rcases List.mem_cons.mp hm with rfl | hm
      · exact hxc rfl
      · exact hx.2 hm

end Foreseen

/-- Everything can be foreseen, and it does not depend on the order of the namespaces. -/
theorem exists_foreseen (plan : Plan) (view : String → κ → ν) (Sound : κ → Prop)
    (Within : Chore → Prop) {k : κ} (hk : Sound k)
    {spaces : List String} (hspaces : spaces.Nodup)
    (hwithin : ∀ x ∈ spaces, Within (.look x 0)) :
    ∃ failures left, (∀ x ∉ spaces, failures x = []) ∧
      (∀ x ∈ spaces, ∃ k', Chore.Alone plan (some (.look x 0)) k (failures x) k') ∧
        ∀ spaces' : List String, spaces'.Perm spaces →
          Foreseen plan view Sound Within failures left (spaces'.map (.look · 0)) [] k := by
  have hfate : ∀ x, ∃ gs v, (x ∈ spaces → ∃ k', Chore.Alone plan (some (.look x 0)) k gs k' ∧
      view x k' = v) ∧ (x ∉ spaces → gs = [] ∧ view x k = v) := by
    intro x
    by_cases hx : x ∈ spaces
    · obtain ⟨gs, k', h⟩ := Chore.exists_alone plan (some (.look x 0)) k
      exact ⟨gs, view x k', fun _ => ⟨k', h, rfl⟩, fun hn => absurd hx hn⟩
    · exact ⟨[], view x k, fun hn => absurd hn hx, fun _ => ⟨rfl, rfl⟩⟩
  choose failures left hfate using hfate
  refine ⟨failures, left, fun x hx => ((hfate x).2 hx).1, fun x hx => ?_, fun spaces' hp => ?_⟩
  · obtain ⟨k', h, _⟩ := (hfate x).1 hx
    exact ⟨k', h⟩
  have hmap : (spaces'.map (Chore.look · 0)).map Chore.space = spaces' := by
    rw [List.map_map]
    exact List.map_id _
  refine ⟨hk, fun c hc => ?_, ?_, fun c hc => ?_, fun x hx => ?_⟩
  · obtain ⟨x, hx, rfl⟩ := List.mem_map.mp hc
    exact hwithin x (hp.mem_iff.mp hx)
  · rw [hmap]
    exact hp.nodup_iff.mpr hspaces
  · obtain ⟨x, hx, rfl⟩ := List.mem_map.mp hc
    obtain ⟨k', h, hv⟩ := (hfate x).1 (hp.mem_iff.mp hx)
    exact ⟨failures x, k', h, rfl, hv⟩
  · rw [hmap, hp.mem_iff] at hx
    obtain ⟨hf, hv⟩ := (hfate x).2 hx
    exact ⟨hf.symm, hv⟩

namespace Teardown

variable {failures : String → List TeardownFailure} {left : String → ν}

/-- Whatever the order of moves and the order of the namespaces, a teardown of chores that
do not meet comes to its end, and what has failed and what is left then is always the same
for each namespace. -/
theorem inevitable_foreseen {policy : RetryPolicy} {systemSpace : String} {targets : List Target}
    (hs : Separates ⟨policy, systemSpace, targets⟩ view Sound Within) {k : κ} {spaces : List String}
    (hf : Foreseen ⟨policy, systemSpace, targets⟩ view Sound Within failures left
      (spaces.map (.look · 0)) [] k) :
    Inevitable (recorded move?) (fun j => j.2.result? = some (verdict j.2.failures) ∧
      ∀ x, told x j.2.failures = failures x ∧ view x j.2.cluster = left x)
      (([] : List Event), start policy systemSpace targets spaces k) := by
  refine (inevitable_of_turns (fun h hp => h.perm hp) (fun h => h.turn hs) hf).mono ?_
  rintro j ⟨hr, h⟩
  exact ⟨hr, fun x => h.settled x List.not_mem_nil⟩

end Teardown

end Decommission
