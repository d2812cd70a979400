import Decommission.Proofs.Teardown.Effect

/-!
# Pods that stop

The pods of a namespace are set to stop after a number of listings.  `Store.Shows` says how
the namespace stands once it has been listed a number of times: its pods run as before, or
they have stopped.  The listing that stops them still shows them running, and at least one
listing does.

What is done for other namespaces does not matter here (`Store.Beside`).  Where nothing is
made to fail, a worker keeps to its namespace, nothing fails of it, and it lists no pods
(`Chore.wellDone_turn`).
-/

namespace Decommission

namespace Store

variable {s s' s₀ : Store} {x y : String} {n k : Nat}

/-! ## A listing -/

/-- A listing counts down, and leaves namespaces and calls as they are. -/
theorem frame_countDown (s : Store) (x : String) : (s.countDown x).spaces = s.spaces ∧
    (s.countDown x).faults = s.faults ∧ (s.countDown x).calls = s.calls := by
  rw [countDown]
  split
  · exact ⟨rfl, rfl, rfl⟩
  · split
    · exact ⟨rfl, rfl, rfl⟩
    · exact ⟨rfl, rfl, rfl⟩

theorem countdowns_countDown (s : Store) (x y : String) : (s.countDown x).countdowns.get? y =
    if x = y then (s.countdowns.get? x).bind fun n => if n ≤ 1 then none else some (n - 1)
    else s.countdowns.get? y := by
  rw [countDown]
  cases hx : s.countdowns.get? x with
  | none =>
      by_cases hxy : x = y
      · rw [if_pos hxy]
        exact hxy ▸ hx
      · rw [if_neg hxy]
  | some n =>
      rw [Option.bind_some]
      dsimp only
      by_cases hn : n ≤ 1
      · rw [if_pos hn, if_pos hn]
        exact NameMap.get?_erase ..
      · rw [if_neg hn, if_neg hn]
        exact NameMap.get?_insert ..

/-- The listing that brings the counter to zero stops the pods. -/
theorem pods_countDown (s : Store) (x y : String) : (s.countDown x).pods.get? y =
    if x = y ∧ (s.countdowns.get? x).any (· ≤ 1) then (s.pods.get? y).map (List.map stopped)
    else s.pods.get? y := by
  rw [countDown]
  cases hx : s.countdowns.get? x with
  | none => exact (if_neg fun h => Bool.false_ne_true h.2).symm
  | some n =>
      rw [Option.any_some]
      dsimp only
      by_cases hn : n ≤ 1
      · rw [if_pos hn]
        dsimp only
        by_cases hxy : x = y
        · rw [if_pos ⟨hxy, decide_eq_true hn⟩, ← hxy]
          cases hp : s.pods.get? x with
          | none => exact hp
          | some ps => exact (NameMap.get?_insert ..).trans (if_pos rfl)
        · rw [if_neg fun h => hxy h.1]
          cases s.pods.get? x with
          | none => rfl
          | some ps => exact (NameMap.get?_insert ..).trans (if_neg hxy)
      · rw [if_neg hn, if_neg fun h => hn (of_decide_eq_true h.2)]

theorem countRunning_map_stopped (ps : List Pod) :
    Teardown.countRunning (ps.map stopped) = 0 := by
  rw [Teardown.countRunning, List.countP_eq_zero]
  intro p hp
  obtain ⟨q, _, rfl⟩ := List.mem_map.mp hp
  rw [stopped]
  split
  · exact Bool.false_ne_true
  · assumption

/-! ## What happens beside -/

/-- What happens for a namespace leaves the others as they are. -/
structure Beside (x : String) (s s' : Store) : Prop where
  faults : s'.faults = s.faults
  spaces : ∀ y, x ≠ y → s'.hasSpace y = s.hasSpace y
  pods : ∀ y, x ≠ y → s'.pods.get? y = s.pods.get? y
  countdowns : ∀ y, x ≠ y → s'.countdowns.get? y = s.countdowns.get? y
  listings : ∀ y, x ≠ y → s'.calls.count (.listPods y) = s.calls.count (.listPods y)

theorem count_record (s : Store) (c c' : Call) :
    (s.record c).calls.count c' = s.calls.count c' + if c = c' then 1 else 0 := by
  rw [record, List.count_append, List.count_singleton]
  simp only [beq_iff_eq]

theorem count_record_of_ne {c c' : Call} (h : c ≠ c') :
    (s.record c).calls.count c' = s.calls.count c' := by
  rw [count_record, if_neg h, Nat.add_zero]

theorem beside_record (s : Store) (x : String) {c : Call} (h : ∀ y, x ≠ y → c ≠ .listPods y) :
    Beside x s (s.record c) :=
  ⟨rfl, fun _ _ => rfl, fun _ _ => rfl, fun _ _ => rfl, fun y hy => count_record_of_ne (h y hy)⟩

theorem beside_listPods (hf : s.faults = []) (x : String) :
    Beside x s (s.listPods x).cluster := by
  obtain ⟨hspaces, hfaults, hcalls⟩ := frame_countDown (s.record (.listPods x)) x
  rw [listPods_eq hf]
  refine ⟨hfaults, fun y hy => ?_, fun y hy => ?_, fun y hy => ?_, fun y hy => ?_⟩
  · exact congrArg (fun m => NameMap.contains m y) hspaces
  · exact (pods_countDown ..).trans (if_neg fun h => hy h.1)
  · exact (countdowns_countDown ..).trans (if_neg hy)
  · refine (congrArg (List.count _) hcalls).trans (count_record_of_ne fun h => hy ?_)
    exact Call.listPods.inj h

/-! ## After so many listings -/

/-- A namespace with pods that stop after `n` listings, once it has been listed `k` times. -/
structure Shows (s₀ : Store) (x : String) (n k : Nat) (s : Store) : Prop where
  present : s.hasSpace x
  pods : s.pods.get? x =
    if k < max n 1 then s₀.pods.get? x else (s₀.pods.get? x).map (List.map stopped)
  countdown : s.countdowns.get? x = if k < max n 1 then some (n - k) else none
  listings : s.calls.count (.listPods x) = s₀.calls.count (.listPods x) + k

theorem Shows.start (hspace : s.hasSpace x) (hn : s.countdowns.get? x = some n) :
    Shows s x n 0 s := by
  have hpos : 0 < max n 1 := by omega
  exact ⟨hspace, (if_pos hpos).symm, hn.trans (if_pos hpos).symm, rfl⟩

theorem Shows.beside (h : Shows s₀ y n k s) (hb : Beside x s s') (hne : x ≠ y) :
    Shows s₀ y n k s' where
  present := (hb.spaces y hne).trans h.present
  pods := (hb.pods y hne).trans h.pods
  countdown := (hb.countdowns y hne).trans h.countdown
  listings := (hb.listings y hne).trans h.listings

/-- The namespace is listed once more. -/
theorem Shows.list (h : Shows s₀ x n k s) (hf : s.faults = []) :
    Shows s₀ x n (k + 1) (s.listPods x).cluster := by
  obtain ⟨hspaces, _, hcalls⟩ := frame_countDown (s.record (.listPods x)) x
  have hlast : (s.countdowns.get? x).any (· ≤ 1) = decide (k < max n 1 ∧ n - k ≤ 1) := by
    rw [h.countdown]
    split
    · rename_i hlt
      rw [Option.any_some, decide_eq_decide]
      exact (and_iff_right hlt).symm
    · rename_i hge
      exact (decide_eq_false fun hlt => hge hlt.1).symm
  rw [listPods_eq hf]
  refine ⟨?_, ?_, ?_, ?_⟩
  · exact (congrArg (fun m => NameMap.contains m x) hspaces).trans h.present
  · refine (pods_countDown ..).trans ?_
    show (if x = x ∧ (s.countdowns.get? x).any (· ≤ 1) then (s.pods.get? x).map (List.map stopped)
      else s.pods.get? x) = _
    rw [hlast, h.pods]
    by_cases hlt : k < max n 1
    · by_cases hn : n - k ≤ 1
      · rw [if_pos ⟨rfl, decide_eq_true ⟨hlt, hn⟩⟩, if_pos hlt, if_neg (by omega)]
      · rw [if_neg fun hc => hn (of_decide_eq_true hc.2).2, if_pos hlt, if_pos (by omega)]
    · rw [if_neg fun hc => hlt (of_decide_eq_true hc.2).1, if_neg hlt, if_neg (by omega)]
  · refine (countdowns_countDown ..).trans ((if_pos rfl).trans ?_)
    show (s.countdowns.get? x).bind _ = _
    rw [h.countdown]
    by_cases hlt : k < max n 1
    · rw [if_pos hlt, Option.bind_some]
      by_cases hn : n - k ≤ 1
      · rw [if_pos hn, if_neg (by omega)]
      · rw [if_neg hn, if_pos (by omega)]
        rfl
    · rw [if_neg hlt, if_neg (by omega)]
      rfl
  · refine (congrArg (List.count _) hcalls).trans ?_
    rw [count_record, if_pos rfl, h.listings, Nat.add_assoc]

/-- Pods are shown running just as long as the listings before have not stopped them. -/
theorem Shows.isFree_iff (h : Shows s₀ x n k s) (hf : s.faults = []) (hbusy : ¬ s₀.IsIdle x) :
    Teardown.isFree (s.listPods x).answer ↔ max n 1 ≤ k := by
  have hfree : Teardown.isFree (s.listPods x).answer ↔ s.IsIdle x := by
    rw [listPods_eq hf]
    exact beq_iff_eq
  rw [hfree, IsIdle, h.pods]
  by_cases hlt : k < max n 1
  · rw [if_pos hlt]
    exact iff_of_false hbusy (Nat.not_le_of_lt hlt)
  · rw [if_neg hlt]
    refine iff_of_true ?_ (Nat.le_of_not_lt hlt)
    cases s₀.pods.get? x with
    | none => rfl
    | some ps => exact countRunning_map_stopped ps

/-- A listing is answered. -/
theorem exists_pods_of_listPods (hf : s.faults = []) (x : String) :
    ∃ pods, (s.listPods x).answer = .ok pods := by
  rw [listPods_eq hf]
  exact ⟨_, rfl⟩

/-! ## Namespaces with pods -/

/-- Namespaces with pods exist. -/
def Housed (s : Store) : Prop := ∀ x ps, s.pods.get? x = some ps → s.hasSpace x

theorem hasSpace_addSpace (s : Store) (x y : String) :
    (s.addSpace x).hasSpace y = if x = y then true else s.hasSpace y := by
  rw [hasSpace, NameMap.contains, addSpace, NameMap.get?_insert]
  split
  · rfl
  · rfl

theorem Housed.addPod (h : s.Housed) (x : String) (p : Pod) : (s.addPod x p).Housed := by
  intro y ps hp
  have hp : (s.pods.insert x ((s.pods.get? x).getD [] ++ [p])).get? y = some ps := hp
  show (s.addSpace x).hasSpace y
  rw [NameMap.get?_insert] at hp
  rw [hasSpace_addSpace]
  by_cases hxy : x = y
  · exact if_pos hxy
  · rw [if_neg hxy] at hp ⊢
    exact h y ps hp

theorem Housed.listPods (h : s.Housed) (x : String) : (s.listPods x).cluster.Housed := by
  rw [Store.listPods]
  split
  · exact h
  · intro y ps hp
    have hspaces := (frame_countDown (s.record (.listPods x)) x).1
    refine (congrArg (fun m => NameMap.contains m y) hspaces).trans ?_
    have hp := (pods_countDown (s.record (.listPods x)) x y).symm.trans hp
    split at hp
    · obtain ⟨qs, hq, _⟩ := Option.map_eq_some_iff.mp hp
      exact h y qs hq
    · exact h y ps hp

theorem Housed.eraseSpace (h : s.Housed) (x : String) : (s.eraseSpace x).Housed := by
  intro y ps hp
  rw [pods_eraseSpace] at hp
  rw [hasSpace_eraseSpace]
  split at hp
  · cases hp
  · rw [if_neg ‹_›]
    exact h y ps hp

theorem Built.housed (h : s.Built) : s.Housed := by
  induction h with
  | empty => exact fun x ps hp => nomatch hp
  | @addSpace s x _ ih =>
      intro y ps hp
      rw [hasSpace_addSpace]
      split
      · rfl
      · exact ih y ps hp
  | addPod x p _ ih => exact ih.addPod x p
  | stopPodsAfter | addResource | removeKind | fail => exact fun y ps hp => ‹Housed _› y ps hp
  | listPods x _ ih => exact ih.listPods x
  | deleteSpace x _ ih =>
      rw [Store.deleteSpace]
      split
      · exact ih
      · split
        · exact (show Housed (record _ (.deleteSpace x)) from ih).eraseSpace x
        · exact ih
  | listResources kind place _ ih =>
      rw [cluster_listResources]
      exact ih
  | getResource kind place name _ ih =>
      rw [cluster_getResource]
      exact ih
  | updateResource kind r _ ih =>
      rw [Store.updateResource]
      split
      · exact ih
      · split
        · exact ih
        · exact ih

/-- A namespace exists in which a pod is running. -/
theorem Built.hasSpace_of_not_isIdle (h : s.Built) (hx : ¬ s.IsIdle x) : s.hasSpace x := by
  cases hp : s.pods.get? x with
  | some ps => exact h.housed x ps hp
  | none =>
      refine absurd ?_ hx
      rw [IsIdle, hp]
      rfl

end Store

/-! ## Errands -/

namespace Chore

variable {plan : Plan} {w : Worker} {s s' : Store} {e : Errand} {rest : List Errand} {d : Deed}

/-- What a worker does where nothing is made to fail: it keeps to its namespace, and the
deletion stays ahead of it until the namespace is gone. -/
structure WellDone (w : Worker) (s : Store) (turn : Turn Store) : Prop where
  failures : turn.failures = []
  beside : s.Beside w.space turn.cluster
  listings : turn.cluster.calls.count (.listPods w.space) = s.calls.count (.listPods w.space)
  gone : s.hasSpace w.space = false → turn.cluster.hasSpace w.space = false
  rest : ∀ c ∈ turn.rest, ∃ w', c = work w' ∧ w'.space = w.space ∧ w'.died = false
  owed : .delete ∈ w.errands → turn.cluster.hasSpace w.space = false ∨
    ∃ w', turn.rest = some (work w') ∧ .delete ∈ w'.errands

/-- An errand that is no deletion puts other errands in front. -/
theorem wellDone_ahead (new : List Errand) (hw : w.died = false) (he : w.errands = e :: rest)
    (hne : e ≠ .delete) (hafter : w.after d = { w with errands := new ++ w.errands.tail })
    (hfailures : d.failures w.space = []) (hb : s.Beside w.space s')
    (hlistings : s'.calls.count (.listPods w.space) = s.calls.count (.listPods w.space))
    (hspace : s'.hasSpace w.space = s.hasSpace w.space) : WellDone w s (workTurn w d s') := by
  rw [workTurn, hafter, he, List.tail_cons]
  refine ⟨hfailures, hb, hlistings, hspace.trans, fun c hc => ?_, fun hdel => Or.inr ⟨_, rfl, ?_⟩⟩
  · cases hc
    exact ⟨_, rfl, rfl, hw⟩
  · rw [he] at hdel
    rcases List.mem_cons.mp hdel with heq | hm
    · exact absurd heq.symm hne
    · exact List.mem_append_right _ hm

/-- A fetch takes a note, and fails only for want of what is fetched. -/
theorem fetchFrom_cases (hf : s.faults = []) (w : Worker) (t : Target) :
    (∃ what, w.fetchFrom t s = ⟨.error (.missing what), s.record (w.fetchCall t), []⟩) ∨
      ∃ rs, w.fetchFrom t s = ⟨.ok rs, s.record (w.fetchCall t), []⟩ := by
  rw [Worker.fetchFrom, Worker.fetchCall]
  cases t.name with
  | none =>
      rcases Store.listResources_cases hf t.kind (t.spaceIn w.space) with ⟨what, _, hr⟩ | ⟨_, hr⟩
      · exact Or.inl ⟨what, hr⟩
      · exact Or.inr ⟨_, hr⟩
  | some name =>
      have hget : Cluster.getResource t.kind (t.spaceIn w.space) name s =
          s.getResource t.kind (t.spaceIn w.space) name := rfl
      dsimp only
      rw [hget]
      rcases Store.getResource_cases hf t.kind (t.spaceIn w.space) name with
        ⟨what, _, hr⟩ | ⟨r, _, _, hr⟩
      · exact Or.inl ⟨what, by rw [hr]; rfl⟩
      · exact Or.inr ⟨[r], by rw [hr]; rfl⟩

theorem wellDone_fetch {t : Target} (hf : s.faults = []) (hw : w.died = false)
    (he : w.errands = .fetch t :: rest) : WellDone w s ((work w).turn plan s) := by
  have hcall : ∀ y, w.fetchCall t ≠ .listPods y := by
    intro y
    rw [Worker.fetchCall]
    split
    · exact nofun
    · exact nofun
  have hb : s.Beside w.space (s.record (w.fetchCall t)) :=
    Store.beside_record s w.space fun y _ => hcall y
  have hlistings := Store.count_record_of_ne (s := s) (hcall w.space)
  rw [turn_fetch he]
  rcases fetchFrom_cases hf w t with ⟨what, hr⟩ | ⟨rs, hr⟩
  · rw [hr]
    exact wellDone_ahead [] hw he nofun rfl rfl hb hlistings rfl
  · rw [hr]
    exact wellDone_ahead (Worker.clearing t.kind rs) hw he nofun rfl rfl hb hlistings rfl

theorem wellDone_clear {kind : Kind} {r : Resource} (hf : s.faults = []) (hw : w.died = false)
    (he : w.errands = .clear kind r :: rest) : WellDone w s ((work w).turn plan s) := by
  have hcall : ∀ y, Call.updateResource kind r ≠ .listPods y := nofun
  have hb : s.Beside w.space (s.record (.updateResource kind r)) :=
    Store.beside_record s w.space fun y _ => hcall y
  have hlistings := Store.count_record_of_ne (s := s) (hcall w.space)
  have hupdate : Cluster.updateResource kind r s = s.updateResource kind r := rfl
  rw [turn_clear he, hupdate]
  rcases Store.updateResource_cases hf kind r with ⟨what, _, hr⟩ | ⟨stored, _, hanswer, hcluster⟩
  · rw [hr]
    exact wellDone_ahead [] hw he nofun rfl rfl hb hlistings rfl
  · rw [hanswer, hcluster]
    exact wellDone_ahead [] hw he nofun rfl rfl
      ⟨hb.faults, hb.spaces, hb.pods, hb.countdowns, hb.listings⟩ hlistings rfl

theorem wellDone_delete (hf : s.faults = []) (hw : w.died = false)
    (he : w.errands = .delete :: rest) : WellDone w s ((work w).turn plan s) := by
  have hcall : ∀ y, Call.deleteSpace w.space ≠ .listPods y := nofun
  have hb : s.Beside w.space (s.record (.deleteSpace w.space)) :=
    Store.beside_record s w.space fun y _ => hcall y
  have hlistings := Store.count_record_of_ne (s := s) (hcall w.space)
  have hdelete : Cluster.deleteSpace w.space s = s.deleteSpace w.space := rfl
  rw [turn_delete he, hdelete, Store.deleteSpace_eq hf]
  by_cases hpresent : s.hasSpace w.space
  · rw [if_pos hpresent]
    have hgone : ((s.record (.deleteSpace w.space)).eraseSpace w.space).hasSpace w.space = false :=
      (Store.hasSpace_eraseSpace ..).trans (if_pos rfl)
    refine ⟨rfl, ⟨hb.faults, fun y hy => ?_, fun y hy => ?_, hb.countdowns, hb.listings⟩,
      hlistings, fun _ => hgone, fun c hc => ?_, fun _ => Or.inl hgone⟩
    · exact (Store.hasSpace_eraseSpace ..).trans (if_neg hy)
    · exact (Store.pods_eraseSpace ..).trans (if_neg hy)
    · cases hc
      exact ⟨_, rfl, rfl, hw⟩
  · rw [if_neg hpresent]
    have hgone : s.hasSpace w.space = false := Bool.eq_false_iff.mpr hpresent
    refine ⟨rfl, hb, hlistings, fun _ => hgone, fun c hc => ?_, fun _ => Or.inl hgone⟩
    cases hc
    exact ⟨_, rfl, rfl, hw⟩

/-- All that a worker does is well done. -/
theorem wellDone_turn (plan : Plan) (hf : s.faults = []) (hw : w.died = false) :
    WellDone w s ((work w).turn plan s) := by
  cases he : w.errands with
  | nil =>
      rw [turn_of_isOver (List.isEmpty_iff.mpr he)]
      refine ⟨epitaph_eq_nil hw, ⟨rfl, fun _ _ => rfl, fun _ _ => rfl, fun _ _ => rfl,
        fun _ _ => rfl⟩, rfl, id, fun c hc => (by cases hc), fun hdel => ?_⟩
      rw [he] at hdel
      cases hdel
  | cons e rest =>
      cases e with
      | fetch t => exact wellDone_fetch hf hw he
      | clear kind r => exact wellDone_clear hf hw he
      | delete => exact wellDone_delete hf hw he

end Chore

end Decommission
