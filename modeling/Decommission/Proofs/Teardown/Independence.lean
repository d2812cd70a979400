import Decommission.Proofs.Cluster.Parts
import Decommission.Proofs.Teardown.Foreseen

/-!
# The order does not matter

In a store the chores of different namespaces do not meet (`Chore.separates`): every
call is for a namespace and stays within its part, and what has no namespace is touched
only while the system namespace is torn down.

So a teardown of different namespaces comes to the same result and leaves the same content,
whatever the order of the moves and of the namespaces, and whatever has been scripted to
fail (`Teardown.independent`).
-/

namespace Decommission

/-- Whether an errand stays within the part of its namespace. -/
def Errand.IsWithin (systemSpace space : String) : Errand → Prop
  | fetch _ => space = systemSpace
  | clear kind r => (r.key kind).isOf systemSpace space
  | delete => True

/-- Whether a chore stays within the part of its namespace. -/
def Chore.IsWithin (systemSpace : String) : Chore → Prop
  | look .. => True
  | work w => ∀ e ∈ w.errands, e.IsWithin systemSpace w.space

/-- Where a target is looked for belongs to the system namespace. -/
theorem Target.isOf_spaceIn {sys : String} {t : Target} {key : ResourceKey}
    (h : key.space = t.spaceIn sys) : key.isOf sys sys := by
  rw [ResourceKey.isOf_iff, h, spaceIn]
  split
  · exact Or.inr ⟨rfl, rfl⟩
  · exact Or.inl rfl

namespace Chore

variable {plan : Plan} {w : Worker} {sys : String} {t : Target} {k k' : Faulty Store}

theorem alike_fetchFrom (h : k.part w.space w.space = k'.part w.space w.space) (t : Target) :
    Alike (Faulty.part w.space w.space) (w.fetchFrom t k) (w.fetchFrom t k') := by
  rw [Worker.fetchFrom, Worker.fetchFrom]
  split
  · rename_i name _
    have hget := Faulty.alike_getResource h (fun _ hkey => Target.isOf_spaceIn (t := t) hkey) t.kind name
    exact ⟨congrArg (Except.map fun x => [x]) hget.answer, hget.left⟩
  · exact Faulty.alike_listResources h (fun _ hkey => Target.isOf_spaceIn (t := t) hkey) t.kind

theorem part_fetchFrom (w : Worker) (t : Target) (k : Faulty Store) (sys other : String) :
    (w.fetchFrom t k).cluster.part sys other = k.part sys other := by
  rw [Worker.fetchFrom]
  split
  · exact Faulty.part_through k (Store.part_getResource ..)
  · exact Faulty.part_through k (Store.part_listResources ..)

theorem built_fetchFrom (h : k.inner.Built) (w : Worker) (t : Target) :
    (w.fetchFrom t k).cluster.inner.Built := by
  rw [Worker.fetchFrom]
  split
  · exact h.getResource _ _ _
  · exact h.listResources _ _

/-- What is fetched is from where the target is looked for. -/
theorem space_of_fetchFrom (h : k.inner.Tidy) {rs : List Resource}
    (hrs : (w.fetchFrom t k).answer = .ok rs) {r : Resource} (hr : r ∈ rs) :
    r.space = t.spaceIn w.space := by
  rw [Worker.fetchFrom] at hrs
  split at hrs
  · rename_i name _
    change Except.map _ (k.inner.getResource t.kind (t.spaceIn w.space) name).answer = _ at hrs
    cases ha : (k.inner.getResource t.kind (t.spaceIn w.space) name).answer with
    | error e =>
        rw [ha] at hrs
        cases hrs
    | ok x =>
        rw [ha] at hrs
        cases hrs
        rw [List.mem_singleton.mp hr]
        exact (h.of_getResource ha).1
  · exact (h.mem_of_listResources hrs hr).1

/-! ## Chores of different namespaces do not meet -/

section Turns

variable {κ ν : Type} [Cluster κ] {part : κ → ν} {l l' : κ} {space : String} {failed : Nat}

/-- Two turns come to the same, as far as the part is concerned. -/
structure AlikeTurns (part : κ → ν) (x y : Turn κ) : Prop where
  rest : x.rest = y.rest
  failures : x.failures = y.failures
  left : part x.cluster = part y.cluster

theorem alike_look (h : Alike part (Cluster.listPods space l) (Cluster.listPods space l')) :
    AlikeTurns part ((look space failed).turn plan l) ((look space failed).turn plan l') := by
  rw [Chore.turn, Chore.turn, h.answer]
  split
  · exact ⟨rfl, rfl, h.left⟩
  · split
    · exact ⟨rfl, rfl, h.left⟩
    · exact ⟨rfl, rfl, h.left⟩

omit [Cluster κ] in
theorem alike_workTurn {d d' : Deed} (hd : d = d') (h : part l = part l') :
    AlikeTurns part (workTurn w d l) (workTurn w d' l') := by
  subst hd
  exact ⟨rfl, rfl, h⟩

end Turns

theorem own_turn {c : Chore} (hk : k.inner.Tidy) (hc : c.IsWithin plan.systemSpace)
    (h : k.part plan.systemSpace c.space = k'.part plan.systemSpace c.space) :
    AlikeTurns (Faulty.part plan.systemSpace c.space) (c.turn plan k) (c.turn plan k') := by
  cases c with
  | look space failed => exact alike_look (Faulty.alike_listPods h)
  | work w =>
      cases he : w.errands with
      | nil =>
          have hover : w.isOver := List.isEmpty_iff.mpr he
          rw [turn_of_isOver hover, turn_of_isOver hover]
          exact ⟨rfl, rfl, h⟩
      | cons e rest =>
          have hwithin := hc e (he ▸ List.mem_cons_self ..)
          cases e with
          | fetch t =>
              have hsys : w.space = plan.systemSpace := hwithin
              have halike := alike_fetchFrom (hsys ▸ h : k.part w.space w.space = _) t
              rw [turn_fetch he, turn_fetch he]
              exact alike_workTurn (congrArg (Deed.fetched t) halike.answer) (hsys ▸ halike.left)
          | clear kind r =>
              have halike := Faulty.alike_updateResource hk h hwithin
              rw [turn_clear he, turn_clear he]
              exact alike_workTurn (congrArg (Deed.cleared kind r) halike.answer) halike.left
          | delete =>
              have halike := Faulty.alike_deleteSpace h
              rw [turn_delete he, turn_delete he]
              exact alike_workTurn (congrArg Deed.deleted halike.answer) halike.left

/-- What belongs to one namespace does not belong to another. -/
theorem not_isOf_of_ne {key : ResourceKey} {space other : String} (h : key.isOf sys space)
    (hne : space ≠ other) : ¬ key.isOf sys other := by
  rw [ResourceKey.isOf_iff] at h ⊢
  rintro (ho | ⟨ho, rfl⟩)
  · rcases h with hs | ⟨hs, _⟩
    · exact hne (Option.some.inj (hs.symm.trans ho))
    · rw [hs] at ho
      cases ho
  · rcases h with hs | ⟨_, rfl⟩
    · rw [hs] at ho
      cases ho
    · exact hne rfl

theorem part_turn_of_ne {c : Chore} {other : String} (hk : k.inner.Tidy)
    (hc : c.IsWithin plan.systemSpace) (hne : c.space ≠ other) :
    (c.turn plan k).cluster.part plan.systemSpace other = k.part plan.systemSpace other := by
  cases c with
  | look space failed =>
      rw [cluster_turn_look]
      exact Faulty.part_listPods_of_ne k hne
  | work w =>
      cases he : w.errands with
      | nil => rw [turn_of_isOver (List.isEmpty_iff.mpr he)]
      | cons e rest =>
          have hwithin := hc e (he ▸ List.mem_cons_self ..)
          cases e with
          | fetch t =>
              rw [turn_fetch he]
              exact part_fetchFrom ..
          | clear kind r =>
              rw [turn_clear he]
              exact Faulty.part_updateResource_of_not k hk (not_isOf_of_ne hwithin hne)
          | delete =>
              rw [turn_delete he]
              exact Faulty.part_deleteSpace_of_ne k hne

theorem built_turn {c : Chore} (hk : k.inner.Built) :
    (c.turn plan k).cluster.inner.Built := by
  cases c with
  | look space failed =>
      rw [cluster_turn_look]
      exact Faulty.built_listPods hk space
  | work w =>
      cases he : w.errands with
      | nil =>
          rw [turn_of_isOver (List.isEmpty_iff.mpr he)]
          exact hk
      | cons e rest =>
          cases e with
          | fetch t =>
              rw [turn_fetch he]
              exact built_fetchFrom hk w t
          | clear kind r =>
              rw [turn_clear he]
              exact Faulty.built_updateResource hk kind r
          | delete =>
              rw [turn_delete he]
              exact Faulty.built_deleteSpace hk w.space

theorem isWithin_start (plan : Plan) (space : String) :
    (work (.start space (plan.targetsOf space))).IsWithin plan.systemSpace := by
  intro e he
  rcases List.mem_append.mp he with hm | hm
  · obtain ⟨t, ht, rfl⟩ := List.mem_map.mp hm
    rw [Plan.targetsOf] at ht
    split at ht
    · rename_i hs
      exact hs
    · cases ht
  · rw [List.mem_singleton.mp hm]
    trivial

/-- A worker only goes on with errands it had, or with resources it has fetched. -/
theorem isWithin_after {d : Deed} (hw : (work w).IsWithin sys)
    (hd : ∀ t rs, d = .fetched t (.ok rs) → ∀ r ∈ rs, (r.cleared.key t.kind).isOf sys w.space) :
    (work (w.after d)).IsWithin sys := by
  have htail : ∀ e ∈ w.errands.tail, e.IsWithin sys w.space := fun e he =>
    hw e (List.mem_of_mem_tail he)
  intro e he
  rw [space_after]
  unfold Worker.after at he
  split at he
  · rename_i t rs
    rcases List.mem_append.mp he with hm | hm
    · obtain ⟨r, hr, rfl⟩ := List.mem_map.mp hm
      exact hd t rs rfl r (List.mem_filter.mp hr).1
    · exact htail e hm
  · cases he
  · exact htail e he

theorem isWithin_turn {c c' : Chore} (hk : k.inner.Tidy) (hc : c.IsWithin plan.systemSpace)
    (h : c' ∈ (c.turn plan k).rest) : c'.IsWithin plan.systemSpace := by
  cases c with
  | look space failed =>
      rw [Chore.turn] at h
      split at h
      · cases h
        exact isWithin_start plan space
      · split at h
        · cases h
          trivial
        · cases h
  | work w =>
      cases he : w.errands with
      | nil =>
          rw [turn_of_isOver (List.isEmpty_iff.mpr he)] at h
          cases h
      | cons e rest =>
          have hwithin := hc e (he ▸ List.mem_cons_self ..)
          cases e with
          | fetch t =>
              rw [turn_fetch he] at h
              cases h
              refine isWithin_after hc fun t' rs hd r hr => ?_
              obtain ⟨rfl, hrs⟩ := Deed.fetched.inj hd
              have hsys : w.space = plan.systemSpace := hwithin
              rw [hsys]
              refine Target.isOf_spaceIn (t := t) ?_
              rw [← hsys]
              exact (space_of_fetchFrom hk hrs hr : r.space = _)
          | clear kind r =>
              rw [turn_clear he] at h
              cases h
              exact isWithin_after hc fun t' rs hd => by cases hd
          | delete =>
              rw [turn_delete he] at h
              cases h
              exact isWithin_after hc fun t' rs hd => by cases hd

/-- In a store behind scripted faults the chores of different namespaces do not meet. -/
theorem separates (plan : Plan) : Separates plan (Faulty.part plan.systemSpace)
    (fun k => k.inner.Built) (IsWithin plan.systemSpace) where
  own hk _ hc h := ⟨(own_turn hk.tidy hc h).rest, (own_turn hk.tidy hc h).failures,
    (own_turn hk.tidy hc h).left⟩
  other hk hc hne := part_turn_of_ne hk.tidy hc hne
  sound hk _ := built_turn hk
  within hk hc h := isWithin_turn hk.tidy hc h

end Chore

/-! ## The outcome -/

theorem Store.SameContent.of_parts (sys : String) {s s' : Store}
    (h : ∀ x, s.part sys x = s'.part sys x) : s.SameContent s' where
  spaces x := congrArg Part.present (h x)
  pods x := congrArg Part.pods (h x)
  resources key := by
    cases hs : key.space with
    | none => exact find?_congr (h sys) (ResourceKey.isOf_iff.mpr (Or.inr ⟨hs, rfl⟩))
    | some x => exact find?_congr (h x) (ResourceKey.isOf_iff.mpr (Or.inl hs))

namespace Teardown

/-- Failures in the order in which a teardown reports them: ascending by namespace, and for
each of its namespaces in the order of the steps. -/
structure Reported (plan : Plan) (spaces : List String) (fs : List TeardownFailure) : Prop where
  ascending : fs.Pairwise fun a b => a.space ≤ b.space
  listed : ∀ f ∈ fs, f.space ∈ spaces
  steps : ∀ x ∈ spaces, Chore.InStepOrder (plan.targetsOf x)
    ((told x fs).map TeardownFailure.step)

/-- Whatever is scripted to fail, and in whatever order the coordinator and the workers move
and the namespaces are listed, a teardown of different namespaces comes to the same result
and leaves the same content. -/
theorem independent (policy : RetryPolicy) (systemSpace : String) (targets : List Target)
    {spaces : List String} (hspaces : spaces.Nodup) {k : Faulty Store} (hk : k.inner.Built) :
    ∃ r left,
      (∀ spaces', spaces'.Perm spaces → Inevitable (recorded move?)
        (fun j => j.2.result? = some r ∧ j.2.cluster.inner.SameContent left)
        (([] : List Event), start policy systemSpace targets spaces' k)) ∧
      ∀ e, r = .error e → Reported ⟨policy, systemSpace, targets⟩ spaces e.failures := by
  have hs := Chore.separates ⟨policy, systemSpace, targets⟩
  obtain ⟨failures, left, hnone, halone, hforeseen⟩ := exists_foreseen
    ⟨policy, systemSpace, targets⟩ (Faulty.part systemSpace) (fun k => k.inner.Built)
    (Chore.IsWithin systemSpace) hk hspaces fun _ _ => trivial
  -- Any one play tells the outcome of all.
  obtain ⟨ms, _, hends⟩ := (inevitable_foreseen hs (hforeseen spaces (.refl _))).exists_play
  generalize (play (recorded move?) (([] : List Event),
    start policy systemSpace targets spaces k) ms).2 = t at hends
  refine ⟨verdict t.failures, t.cluster.inner, fun spaces' hp => ?_, fun e he => ?_⟩
  · refine (inevitable_foreseen hs (hforeseen spaces' hp)).mono ?_
    rintro j ⟨hr, hends'⟩
    have hsame : verdict j.2.failures = verdict t.failures :=
      verdict_congr fun x => (hends' x).1.trans (hends x).1.symm
    refine ⟨hsame ▸ hr, .of_parts systemSpace fun x => ?_⟩
    exact congrArg FaultyPart.inner ((hends' x).2.trans (hends x).2.symm)
  · obtain rfl : e = .ofFailures t.failures := by
      rw [verdict] at he
      split at he
      · cases he
      · exact (Except.error.inj he).symm
    have hfailures : ∀ x, told x (TeardownError.ofFailures t.failures).failures = failures x :=
      fun x => (TeardownError.told_ofFailures x _).trans (hends x).1
    refine ⟨TeardownError.ascending_ofFailures _, fun f hf => ?_, fun x hx => ?_⟩
    · by_contra hx
      have hmem : f ∈ told f.space (TeardownError.ofFailures t.failures).failures :=
        List.mem_filter.mpr ⟨hf, decide_eq_true rfl⟩
      rw [hfailures, hnone f.space hx] at hmem
      cases hmem
    · obtain ⟨k', h⟩ := halone x hx
      rw [hfailures x]
      exact h.inStepOrder

/-- A kind of resources that live in no namespace. -/
def brokers : Target := ⟨⟨"servicecatalog.k8s.io", "v1beta1", "clusterservicebrokers"⟩, .cluster, none⟩

/-- A store with three namespaces, one of which runs a pod for a while, and a resource with
a finalizer. -/
def inUse : Store :=
  ({} : Store).addSpace "a"
    |>.addSpace "system"
    |>.addPod "b" ⟨"p", .running⟩
    |>.stopPodsAfter "b" 2
    |>.addResource brokers.kind ⟨"broker", none, ["f"]⟩

theorem built_inUse : inUse.Built :=
  .addResource _ _ (.stopPodsAfter _ _ (.addPod _ _ (.addSpace _ (.addSpace _ .empty))))

/-- The store behind faults: a listing fails once, a change fails, and a deletion is fatal. -/
def troubled : Faulty Store where
  inner := inUse
  listings := .ofList [("b", [some (.api "busy")])]
  updates := [("broker", .api "refused")]
  fatal := ["a"]

/-- Three namespaces in trouble, in any order. -/
theorem independent_troubled :
    ["system", "b", "a"].Nodup ∧ troubled.inner.Built ∧ ∃ r left,
      (∀ spaces', spaces'.Perm ["system", "b", "a"] → Inevitable (recorded move?)
        (fun j => j.2.result? = some r ∧ j.2.cluster.inner.SameContent left)
        (([] : List Event), start .standard "system" [brokers] spaces' troubled)) ∧
      ∀ e, r = .error e →
        Reported ⟨.standard, "system", [brokers]⟩ ["system", "b", "a"] e.failures :=
  have hspaces : ["system", "b", "a"].Nodup := by decide
  ⟨hspaces, built_inUse, independent .standard "system" [brokers] hspaces built_inUse⟩

end Teardown

end Decommission
