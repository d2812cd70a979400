import Decommission.Proofs.Cluster.Quiet
import Decommission.Proofs.Teardown.Chores

/-!
# What a teardown does to a store

Say that nothing is made to fail and no pods are about to stop.  Then a teardown succeeds.
It removes the namespaces on its list in which no pod is running, and, if the system
namespace is one of them, clears the finalizers that its targets mean.  Everything else
stays as it is (`Effect`).  Namespaces may be listed several times; their workers then share
the work.  Done again, the teardown changes nothing (`Teardown.repeatable`).

What has to be done in the end is a duty.  Each duty is done, or some chore still owes it
(`OnWay`), and what is done stays done.
-/

namespace Decommission

/-- Whether a target means the resource with the key, while a namespace is torn down. -/
structure Target.Means (t : Target) (space : String) (key : ResourceKey) : Prop where
  kind : key.kind = t.kind
  place : key.space = t.spaceIn space
  name : ∀ name, t.name = some name → key.name = name

/-- Whether no pod is running in a namespace. -/
def Store.IsIdle (s : Store) (space : String) : Prop :=
  Teardown.countRunning ((s.pods.get? space).getD []) = 0

/-- A namespace that is removed: it is listed, it exists and no pod is running in it. -/
structure Removes (spaces : List String) (s : Store) (space : String) : Prop where
  listed : space ∈ spaces
  idle : s.IsIdle space
  present : s.hasSpace space

/-- A resource whose finalizers are cleared: a target of a known kind means it, and the
system namespace is listed and no pod is running in it. -/
structure Clears (plan : Plan) (spaces : List String) (s : Store) (key : ResourceKey) : Prop where
  listed : plan.systemSpace ∈ spaces
  idle : s.IsIdle plan.systemSpace
  meant : ∃ t ∈ plan.targets, t.Means plan.systemSpace key
  known : key.kind ∉ s.unknownKinds

/-- What a teardown makes of a store. -/
structure Effect (plan : Plan) (spaces : List String) (s s' : Store) : Prop where
  /-- A listed namespace with a running pod is left alone, with its pods and resources. -/
  busy : ∀ x ∈ spaces, ¬ s.IsIdle x → s'.hasSpace x = s.hasSpace x ∧
    s'.pods.get? x = s.pods.get? x ∧ ∀ key, key.space = some x → s'.find? key = s.find? key
  /-- Every other listed namespace is gone, with its pods and resources. -/
  removed : ∀ x, Removes spaces s x → s'.hasSpace x = false ∧ s'.pods.get? x = none ∧
    ∀ key, key.space = some x → s'.find? key = none
  /-- The finalizers of what the targets mean are cleared, unless it is gone. -/
  cleared : ∀ key, Clears plan spaces s key → (∀ x, key.space = some x → ¬ Removes spaces s x) →
    s'.find? key = (s.find? key).map Resource.cleared
  /-- Other namespaces and their pods stay as they are. -/
  kept : ∀ x, ¬ Removes spaces s x → s'.hasSpace x = s.hasSpace x ∧
    s'.pods.get? x = s.pods.get? x
  /-- Other resources stay as they are. -/
  untouched : ∀ key, ¬ Clears plan spaces s key →
    (∀ x, key.space = some x → ¬ Removes spaces s x) → s'.find? key = s.find? key

/-! ## Half way -/

section HalfWay

variable {plan : Plan} {spaces : List String} {s₀ s : Store} {x : String} {key : ResourceKey}
  {kind : Kind} {r stored : Resource}

/-- A namespace that has been removed. -/
def IsGone (spaces : List String) (s₀ s : Store) (x : String) : Prop :=
  Removes spaces s₀ x ∧ s.hasSpace x = false

/-- A store on its way from what it was at the beginning.  Some namespaces are gone, and some
resources are cleared. -/
structure Partly (plan : Plan) (spaces : List String) (s₀ s : Store) : Prop where
  quiet : s.Quiet
  kinds : s.unknownKinds = s₀.unknownKinds
  gone : ∀ x, IsGone spaces s₀ s x → s.pods.get? x = none ∧
    ∀ key, key.space = some x → s.find? key = none
  kept : ∀ x, ¬ IsGone spaces s₀ s x → s.hasSpace x = s₀.hasSpace x ∧
    s.pods.get? x = s₀.pods.get? x
  resources : ∀ key, (∀ x, key.space = some x → ¬ IsGone spaces s₀ s x) →
    s.find? key = s₀.find? key ∨
      Clears plan spaces s₀ key ∧ s.find? key = (s₀.find? key).map Resource.cleared

namespace Partly

theorem start (h : s.Quiet) : Partly plan spaces s s where
  quiet := h
  kinds := rfl
  gone x hx := by
    have hpresent := hx.1.present
    rw [hx.2] at hpresent
    cases hpresent
  kept _ _ := ⟨rfl, rfl⟩
  resources _ _ := Or.inl rfl

theorem record (h : Partly plan spaces s₀ s) (c : Call) : Partly plan spaces s₀ (s.record c) :=
  ⟨h.quiet.record c, h.kinds, h.gone, h.kept, h.resources⟩

/-- Pods never start running, nor do they stop. -/
theorem idle_iff (h : Partly plan spaces s₀ s) (x : String) : s.IsIdle x ↔ s₀.IsIdle x := by
  by_cases hx : IsGone spaces s₀ s x
  · refine iff_of_true ?_ hx.1.idle
    rw [Store.IsIdle, (h.gone x hx).1]
    rfl
  · rw [Store.IsIdle, Store.IsIdle, (h.kept x hx).2]

theorem isGone_eraseSpace (h : Partly plan spaces s₀ s) (hlisted : x ∈ spaces)
    (hidle : s₀.IsIdle x) (hpresent : s.hasSpace x) (y : String) :
    IsGone spaces s₀ (s.eraseSpace x) y ↔ x = y ∨ IsGone spaces s₀ s y := by
  rw [IsGone, Store.hasSpace_eraseSpace]
  by_cases hxy : x = y
  · subst hxy
    rw [if_pos rfl]
    have hkept : ¬ IsGone spaces s₀ s x := fun hg => by
      rw [hg.2] at hpresent
      cases hpresent
    refine iff_of_true ⟨⟨hlisted, hidle, ?_⟩, rfl⟩ (Or.inl rfl)
    rw [← (h.kept x hkept).1]
    exact hpresent
  · rw [if_neg hxy, or_iff_right hxy, IsGone]

/-- A namespace is removed. -/
theorem eraseSpace (h : Partly plan spaces s₀ s) (hlisted : x ∈ spaces) (hidle : s₀.IsIdle x)
    (hpresent : s.hasSpace x) : Partly plan spaces s₀ (s.eraseSpace x) where
  quiet := h.quiet.eraseSpace x
  kinds := h.kinds
  gone y hy := by
    rw [Store.pods_eraseSpace]
    rcases (h.isGone_eraseSpace hlisted hidle hpresent y).mp hy with rfl | hy
    · refine ⟨if_pos rfl, fun key hkey => ?_⟩
      rw [Store.find?_eraseSpace, if_pos hkey]
    · obtain ⟨hpods, hkeys⟩ := h.gone y hy
      refine ⟨by rw [hpods, ite_self], fun key hkey => ?_⟩
      rw [Store.find?_eraseSpace, hkeys key hkey, ite_self]
  kept y hy := by
    obtain ⟨hxy, hy⟩ := not_or.mp (mt (h.isGone_eraseSpace hlisted hidle hpresent y).mpr hy)
    rw [Store.hasSpace_eraseSpace, Store.pods_eraseSpace, if_neg hxy, if_neg hxy]
    exact h.kept y hy
  resources key hkey := by
    have hout : ∀ y, key.space = some y → x ≠ y ∧ ¬ IsGone spaces s₀ s y := fun y hy =>
      not_or.mp (mt (h.isGone_eraseSpace hlisted hidle hpresent y).mpr (hkey y hy))
    rw [Store.find?_eraseSpace, if_neg fun hx => (hout x hx).1 rfl]
    exact h.resources key fun y hy => (hout y hy).2

/-- The finalizers of a resource are cleared. -/
theorem clear (h : Partly plan spaces s₀ s) (hc : Clears plan spaces s₀ (stored.key kind))
    (hs : s.find? (stored.key kind) = some stored) : Partly plan spaces s₀
      { s with resources := Store.putResource kind stored.cleared s.resources } := by
  have hfind : ∀ key, Store.find?
      { s with resources := Store.putResource kind stored.cleared s.resources } key =
        if stored.key kind = key then some stored.cleared else s.find? key := fun key =>
    Store.lookup_putResource key s.resources
  refine ⟨h.quiet.put kind stored.cleared, h.kinds, fun x hx => ?_, h.kept, fun key hkey => ?_⟩
  · obtain ⟨hpods, hkeys⟩ := h.gone x hx
    refine ⟨hpods, fun key hkey => ?_⟩
    rw [hfind, if_neg fun heq => ?_]
    · exact hkeys key hkey
    · rw [heq, hkeys key hkey] at hs
      cases hs
  · rw [hfind]
    split
    · rename_i heq
      subst heq
      refine Or.inr ⟨hc, ?_⟩
      rcases h.resources _ hkey with hsame | ⟨_, hcleared⟩
      · rw [← hsame, hs]
        rfl
      · rw [hs] at hcleared
        obtain ⟨r, hr, hstored⟩ := Option.map_eq_some_iff.mp hcleared.symm
        rw [hr, ← hstored]
        rfl
    · exact h.resources key hkey

end Partly

/-! ## Duties -/

/-- What a teardown has to do. -/
inductive Duty
  | remove (space : String)
  | clear (key : ResourceKey)

namespace Duty

def IsDue (plan : Plan) (spaces : List String) (s : Store) : Duty → Prop
  | remove space => Removes spaces s space
  | clear key => Clears plan spaces s key

def IsDone (s : Store) : Duty → Prop
  | remove space => s.hasSpace space = false
  | clear key => ∀ r, s.find? key = some r → r.finalizers = []

variable {d : Duty}

theorem IsDone.record (h : d.IsDone s) (c : Call) : d.IsDone (s.record c) := by
  cases d with
  | remove space => exact h
  | clear key => exact h

theorem IsDone.eraseSpace (h : d.IsDone s) (x : String) : d.IsDone (s.eraseSpace x) := by
  cases d with
  | remove space =>
      show (s.eraseSpace x).hasSpace space = false
      rw [Store.hasSpace_eraseSpace, show s.hasSpace space = false from h, ite_self]
  | clear key =>
      intro r hr
      rw [Store.find?_eraseSpace] at hr
      split at hr
      · cases hr
      · exact h r hr

theorem IsDone.put (h : d.IsDone s) (kind : Kind) (r : Resource) :
    d.IsDone { s with resources := Store.putResource kind r.cleared s.resources } := by
  cases d with
  | remove space => exact h
  | clear key =>
      intro x hx
      have hx' := (Store.lookup_putResource key s.resources).symm.trans hx
      split at hx'
      · cases hx'
        rfl
      · exact h x hx'

end Duty

/-- Whether an errand for a namespace does a duty. -/
def Errand.Does (space : String) : Errand → Duty → Prop
  | delete, .remove x => x = space
  | fetch t, .clear key => t.Means space key
  | clear kind r, .clear key => r.key kind = key
  | _, _ => False

/-- Whether a chore is going to do a duty. -/
def Chore.Owes (plan : Plan) : Chore → Duty → Prop
  | look space _, .remove x => x = space
  | look space _, .clear _ => space = plan.systemSpace
  | work w, d => ∃ e ∈ w.errands, e.Does w.space d

/-- Whether an errand does nothing but what is due. -/
def Errand.OnCourse (plan : Plan) (spaces : List String) (s : Store) (space : String) :
    Errand → Prop
  | fetch t => space = plan.systemSpace ∧ t ∈ plan.targets
  | clear kind r => r.finalizers = [] ∧ Clears plan spaces s (r.key kind)
  | delete => True

/-- Whether a worker does nothing but what is due. -/
structure Worker.OnCourse (plan : Plan) (spaces : List String) (s : Store) (w : Worker) :
    Prop where
  listed : w.space ∈ spaces
  idle : s.IsIdle w.space
  alive : w.died = false
  errands : ∀ e ∈ w.errands, e.OnCourse plan spaces s w.space

/-- Whether a chore does nothing but what is due. -/
def Chore.OnCourse (plan : Plan) (spaces : List String) (s : Store) : Chore → Prop
  | look space _ => space ∈ spaces
  | work w => w.OnCourse plan spaces s

/-- What a turn of a chore comes to: nothing fails, what is done stays done, and what the chore
owed is done, or what is left of the chore owes it. -/
structure GoesOn (plan : Plan) (spaces : List String) (s₀ s : Store) (c : Chore)
    (turn : Chore.Turn Store) : Prop where
  failures : turn.failures = []
  partly : Partly plan spaces s₀ turn.cluster
  onCourse : ∀ c' ∈ turn.rest, c'.OnCourse plan spaces s₀
  done : ∀ d : Duty, d.IsDone s → d.IsDone turn.cluster
  owed : ∀ d : Duty, d.IsDue plan spaces s₀ → c.Owes plan d →
    d.IsDone turn.cluster ∨ ∃ c' ∈ turn.rest, c'.Owes plan d

variable {w : Worker} {failed : Nat}

theorem goesOn_look (h : Partly plan spaces s₀ s) (hx : x ∈ spaces) :
    GoesOn plan spaces s₀ s (.look x failed) ((Chore.look x failed).turn plan s) := by
  have hlist := h.quiet.listPods x
  have hfree : Teardown.isFree (Cluster.listPods x s).answer = true ↔ s₀.IsIdle x := by
    rw [← h.idle_iff x, show Cluster.listPods x s = _ from hlist, Store.IsIdle]
    exact beq_iff_eq
  have hcluster : (Cluster.listPods x s).cluster = s.record (.listPods x) :=
    congrArg Reply.cluster hlist
  have hdone : ∀ d : Duty, d.IsDone s → d.IsDone (s.record (.listPods x)) := fun d hd =>
    hd.record _
  by_cases hidle : s₀.IsIdle x
  · rw [Chore.turn_of_isFree (hfree.mpr hidle), hcluster]
    refine ⟨rfl, h.record _, ?_, hdone, fun d hdue ho => Or.inr ⟨_, rfl, ?_⟩⟩
    · rintro c' hc'
      cases hc'
      refine ⟨hx, hidle, rfl, fun e he => ?_⟩
      rcases List.mem_append.mp he with hm | hm
      · obtain ⟨t, ht, rfl⟩ := List.mem_map.mp hm
        rw [Plan.targetsOf] at ht
        split at ht
        · rename_i hs
          exact ⟨hs, ht⟩
        · cases ht
      · rw [List.mem_singleton.mp hm]
        trivial
    · cases d with
      | remove y => exact ⟨.delete, List.mem_append_right _ (List.mem_singleton.mpr rfl), ho⟩
      | clear key =>
          obtain ⟨t, ht, hmeans⟩ := hdue.meant
          have hsys : x = plan.systemSpace := ho
          refine ⟨.fetch t, List.mem_append_left _ (List.mem_map_of_mem ?_), ?_⟩
          · rw [Plan.targetsOf, if_pos hsys]
            exact ht
          · exact (hsys ▸ hmeans : t.Means x key)
  · by_cases hlt : failed + 1 < plan.policy.attempts
    · rw [Chore.turn_of_lt_attempts (mt hfree.mp hidle) hlt, hcluster]
      refine ⟨rfl, h.record _, ?_, hdone, fun d _ ho => Or.inr ⟨_, rfl, ?_⟩⟩
      · rintro c' hc'
        cases hc'
        exact hx
      · cases d with
        | remove y => exact ho
        | clear key => exact ho
    · rw [Chore.turn_of_not_lt_attempts (mt hfree.mp hidle) hlt, hcluster]
      refine ⟨?_, h.record _, fun c' hc' => (by cases hc'), hdone, fun d hdue ho => ?_⟩
      · rw [show Cluster.listPods x s = _ from hlist]
        rfl
      · cases d with
        | remove y =>
            have hy : y = x := ho
            exact absurd (hy ▸ hdue.idle) hidle
        | clear key =>
            have hsys : x = plan.systemSpace := ho
            exact absurd (hsys ▸ hdue.idle) hidle

theorem goesOn_over (h : Partly plan spaces s₀ s) (hw : w.OnCourse plan spaces s₀)
    (hover : w.isOver) : GoesOn plan spaces s₀ s (.work w) ((Chore.work w).turn plan s) := by
  rw [Chore.turn_of_isOver hover]
  refine ⟨Chore.epitaph_eq_nil hw.alive, h, fun c' hc' => (by cases hc'), fun d hd => hd,
    fun d _ ho => ?_⟩
  obtain ⟨e, he, _⟩ := ho
  rw [List.isEmpty_iff.mp hover] at he
  cases he

/-- An errand goes well when it does what it is for, or puts other errands in front that will. -/
theorem goesOn_errand (new : List Errand) {e : Errand} {rest : List Errand} {deed : Deed}
    {s' : Store} (hw : w.OnCourse plan spaces s₀) (he : w.errands = e :: rest)
    (hafter : w.after deed = { w with errands := new ++ w.errands.tail })
    (hfailures : deed.failures w.space = []) (hpartly : Partly plan spaces s₀ s')
    (hnew : ∀ e ∈ new, e.OnCourse plan spaces s₀ w.space)
    (hdone : ∀ d : Duty, d.IsDone s → d.IsDone s')
    (howed : ∀ d : Duty, d.IsDue plan spaces s₀ → e.Does w.space d →
      d.IsDone s' ∨ ∃ e' ∈ new, e'.Does w.space d) :
    GoesOn plan spaces s₀ s (.work w) (Chore.workTurn w deed s') := by
  rw [Chore.workTurn, hafter, he, List.tail_cons]
  refine ⟨hfailures, hpartly, fun c' hc' => ?_, hdone, fun d hdue ho => ?_⟩
  · cases hc'
    refine ⟨hw.listed, hw.idle, hw.alive, fun e' he' => ?_⟩
    rcases List.mem_append.mp he' with hm | hm
    · exact hnew e' hm
    · exact hw.errands e' (he ▸ List.mem_cons_of_mem _ hm)
  · obtain ⟨e', he', hdoes⟩ := ho
    rw [he] at he'
    rcases List.mem_cons.mp he' with rfl | hm
    · rcases howed d hdue hdoes with hd | ⟨e', hm, hdoes⟩
      · exact Or.inl hd
      · exact Or.inr ⟨_, rfl, e', List.mem_append_left _ hm, hdoes⟩
    · exact Or.inr ⟨_, rfl, e', List.mem_append_right _ hm, hdoes⟩

theorem goesOn_delete {rest : List Errand} (h : Partly plan spaces s₀ s)
    (hw : w.OnCourse plan spaces s₀) (he : w.errands = .delete :: rest) :
    GoesOn plan spaces s₀ s (.work w) ((Chore.work w).turn plan s) := by
  have hdelete : Cluster.deleteSpace w.space s = s.deleteSpace w.space := rfl
  rw [Chore.turn_delete he, hdelete, Store.deleteSpace_eq h.quiet.faults]
  split
  · rename_i hpresent
    refine goesOn_errand [] hw he rfl rfl
      ((h.record _).eraseSpace hw.listed hw.idle hpresent) (fun e he => by cases he)
      (fun d hd => (hd.record _).eraseSpace _) fun d _ hd => Or.inl ?_
    cases d with
    | remove x =>
        have hx : x = w.space := hd
        show Store.hasSpace _ x = false
        rw [Store.hasSpace_eraseSpace, if_pos hx.symm]
    | clear key => cases hd
  · rename_i habsent
    refine goesOn_errand [] hw he rfl rfl (h.record _)
      (fun e he => by cases he) (fun d hd => hd.record _) fun d _ hd => Or.inl ?_
    cases d with
    | remove x =>
        have hx : x = w.space := hd
        show s.hasSpace x = false
        rw [hx]
        exact Bool.eq_false_iff.mpr habsent
    | clear key => cases hd

theorem goesOn_clear {rest : List Errand} (h : Partly plan spaces s₀ s)
    (hw : w.OnCourse plan spaces s₀) (he : w.errands = .clear kind r :: rest) :
    GoesOn plan spaces s₀ s (.work w) ((Chore.work w).turn plan s) := by
  have hupdate : Cluster.updateResource kind r s = s.updateResource kind r := rfl
  obtain ⟨hempty, hclears⟩ : r.finalizers = [] ∧ Clears plan spaces s₀ (r.key kind) :=
    hw.errands (.clear kind r) (he ▸ List.mem_cons_self ..)
  rw [Chore.turn_clear he, hupdate]
  rcases Store.updateResource_cases h.quiet.faults kind r with
    ⟨what, hnone, hr⟩ | ⟨stored, hsome, hanswer, hcluster⟩
  · rw [hr]
    refine goesOn_errand [] hw he rfl rfl (h.record _)
      (fun e he => by cases he) (fun d hd => hd.record _) fun d _ hd => Or.inl ?_
    cases d with
    | remove x => cases hd
    | clear key =>
        have hkey : r.key kind = key := hd
        intro x hx
        rw [← hkey] at hx
        cases hnone.symm.trans hx
  · have hkey : stored.key kind = r.key kind := h.quiet.tidy.key_of_find? hsome
    have hcleared : { stored with finalizers := r.finalizers } = stored.cleared := by
      rw [hempty]
      rfl
    rw [hanswer, hcluster, hcleared]
    refine goesOn_errand [] hw he rfl rfl
      ((h.record _).clear (hkey ▸ hclears) (hkey ▸ hsome)) (fun e he => by cases he)
      (fun d hd => (hd.record _).put kind stored) fun d _ hd => Or.inl ?_
    cases d with
    | remove x => cases hd
    | clear key =>
        have hput : r.key kind = key := hd
        intro x hx
        have hx' := (Store.lookup_putResource key s.resources).symm.trans hx
        rw [if_pos (show stored.cleared.key kind = key from hkey.trans hput)] at hx'
        cases hx'
        rfl

/-- What a fetch sees of a quiet store: all that the target means, unless its kind is unknown. -/
theorem fetchFrom_of_quiet (h : s.Quiet) (w : Worker) (t : Target) :
    (∃ what c, w.fetchFrom t s = ⟨.error (.missing what), s.record c, []⟩ ∧
      ∀ key, t.Means w.space key → key.kind ∉ s.unknownKinds → s.find? key = none) ∨
    ∃ rs c, w.fetchFrom t s = ⟨.ok rs, s.record c, []⟩ ∧ t.kind ∉ s.unknownKinds ∧
      (∀ r ∈ rs, t.Means w.space (r.key t.kind)) ∧
        ∀ key r, t.Means w.space key → s.find? key = some r → r ∈ rs := by
  cases hname : t.name with
  | none =>
      have hfetch : w.fetchFrom t s = s.listResources t.kind (t.spaceIn w.space) := by
        rw [Worker.fetchFrom, hname]
        rfl
      rcases Store.listResources_cases h.faults t.kind (t.spaceIn w.space) with
        ⟨what, hk, hr⟩ | ⟨hk, hr⟩
      · refine Or.inl ⟨what, _, hfetch.trans hr, fun key hkey hknown => ?_⟩
        exact absurd (hkey.kind ▸ hk) hknown
      · refine Or.inr ⟨_, _, hfetch.trans hr, hk, fun r hr => ?_, fun key r hkey hr => ?_⟩
        · refine ⟨rfl, (h.tidy.mem_select.mp hr).1, fun name hn => ?_⟩
          cases hname.symm.trans hn
        · have hrkey := h.tidy.key_of_find? hr
          rw [hkey.kind] at hrkey
          refine h.tidy.mem_select.mpr ⟨?_, hrkey ▸ hr⟩
          exact (congrArg ResourceKey.space hrkey).trans hkey.place
  | some name =>
      have hkeyed : ∀ key, t.Means w.space key → key = ⟨t.kind, t.spaceIn w.space, name⟩ := by
        rintro ⟨kind, place, n⟩ ⟨hk, hp, hn⟩
        have hn' : n = name := hn name hname
        rw [hn', show place = t.spaceIn w.space from hp, show kind = t.kind from hk]
      have hfetch : w.fetchFrom t s =
          let x := s.getResource t.kind (t.spaceIn w.space) name
          ⟨x.answer.map fun r => [r], x.cluster, x.notes⟩ := by
        rw [Worker.fetchFrom, hname]
        rfl
      rcases Store.getResource_cases h.faults t.kind (t.spaceIn w.space) name with
        ⟨what, hk, hr⟩ | ⟨r, hk, hfind, hr⟩
      · refine Or.inl ⟨what, .getResource t.kind (t.spaceIn w.space) name, ?_,
          fun key hkey hknown => ?_⟩
        · rw [hfetch, hr]
          rfl
        · rcases hk with hk | hnone
          · exact absurd (hkey.kind ▸ hk) hknown
          · rw [hkeyed key hkey]
            exact hnone
      · refine Or.inr ⟨[r], .getResource t.kind (t.spaceIn w.space) name, ?_, hk, fun x hx => ?_,
          fun key x hkey hx => ?_⟩
        · rw [hfetch, hr]
          rfl
        · have hrkey : r.key t.kind = ⟨t.kind, t.spaceIn w.space, name⟩ :=
            h.tidy.key_of_find? hfind
          rw [List.mem_singleton.mp hx, hrkey]
          refine ⟨rfl, rfl, fun n hn => ?_⟩
          exact Option.some.inj (hname.symm.trans hn)
        · rw [hkeyed key hkey, hfind] at hx
          rw [← Option.some.inj hx]
          exact List.mem_singleton.mpr rfl

theorem goesOn_fetch {t : Target} {rest : List Errand} (h : Partly plan spaces s₀ s)
    (hw : w.OnCourse plan spaces s₀) (he : w.errands = .fetch t :: rest) :
    GoesOn plan spaces s₀ s (.work w) ((Chore.work w).turn plan s) := by
  obtain ⟨hsys, ht⟩ : w.space = plan.systemSpace ∧ t ∈ plan.targets :=
    hw.errands (.fetch t) (he ▸ List.mem_cons_self ..)
  rw [Chore.turn_fetch he]
  rcases fetchFrom_of_quiet h.quiet w t with ⟨what, c, hr, hnone⟩ | ⟨rs, c, hr, hknown, hmeans, hall⟩
  · rw [hr]
    refine goesOn_errand [] hw he rfl rfl (h.record _)
      (fun e he => by cases he) (fun d hd => hd.record _) fun d hdue hd => Or.inl ?_
    cases d with
    | remove x => cases hd
    | clear key =>
        intro x hx
        cases (hnone key hd (h.kinds ▸ hdue.known)).symm.trans hx
  · rw [hr]
    refine goesOn_errand (Worker.clearing t.kind rs) hw he rfl rfl
      (h.record _) (fun e he => ?_) (fun d hd => hd.record _) fun d hdue hd => ?_
    · obtain ⟨r, hr, rfl⟩ := List.mem_map.mp he
      refine ⟨rfl, hsys ▸ hw.listed, hsys ▸ hw.idle, ⟨t, ht, ?_⟩, h.kinds ▸ hknown⟩
      exact hsys ▸ hmeans r (List.mem_filter.mp hr).1
    · cases d with
      | remove x => cases hd
      | clear key =>
          cases hx : s.find? key with
          | none =>
              refine Or.inl fun x hx' => ?_
              cases hx.symm.trans hx'
          | some r =>
              by_cases hempty : r.finalizers = []
              · refine Or.inl fun x hx' => ?_
                cases hx.symm.trans hx'
                exact hempty
              · refine Or.inr ⟨.clear t.kind r.cleared, List.mem_map.mpr ⟨r, ?_, rfl⟩, ?_⟩
                · refine List.mem_filter.mpr ⟨hall key r hd hx, ?_⟩
                  simpa using hempty
                · have hkey := h.quiet.tidy.key_of_find? hx
                  rw [(show t.Means w.space key from hd).kind] at hkey
                  exact hkey

theorem goesOn_turn {c : Chore} (h : Partly plan spaces s₀ s) (hc : c.OnCourse plan spaces s₀) :
    GoesOn plan spaces s₀ s c (c.turn plan s) := by
  cases c with
  | look x failed => exact goesOn_look h hc
  | work w =>
      cases he : w.errands with
      | nil => exact goesOn_over h hc (List.isEmpty_iff.mpr he)
      | cons e rest =>
          cases e with
          | fetch t => exact goesOn_fetch h hc he
          | clear kind r => exact goesOn_clear h hc he
          | delete => exact goesOn_delete h hc he

/-! ## The whole teardown -/

/-- A teardown on its way: its chores do nothing but what is due, and what is due is done or
some chore owes it. -/
structure OnWay (plan : Plan) (spaces : List String) (s₀ : Store) (cs : List Chore) (s : Store) :
    Prop where
  partly : Partly plan spaces s₀ s
  onCourse : ∀ c ∈ cs, c.OnCourse plan spaces s₀
  duties : ∀ d : Duty, d.IsDue plan spaces s₀ → d.IsDone s ∨ ∃ c ∈ cs, c.Owes plan d

namespace OnWay

variable {c : Chore} {cs cs' : List Chore}

theorem start (h : s.Quiet) : OnWay plan spaces s (spaces.map (.look · 0)) s where
  partly := .start h
  onCourse c hc := by
    obtain ⟨x, hx, rfl⟩ := List.mem_map.mp hc
    exact hx
  duties d hd := by
    cases d with
    | remove x => exact Or.inr ⟨_, List.mem_map_of_mem hd.listed, rfl⟩
    | clear key => exact Or.inr ⟨_, List.mem_map_of_mem hd.listed, rfl⟩

theorem perm (h : OnWay plan spaces s₀ cs s) (hp : cs.Perm cs') : OnWay plan spaces s₀ cs' s where
  partly := h.partly
  onCourse c hc := h.onCourse c (hp.mem_iff.mpr hc)
  duties d hd := (h.duties d hd).imp id fun ⟨c, hc, ho⟩ => ⟨c, hp.mem_iff.mp hc, ho⟩

theorem turn (h : OnWay plan spaces s₀ (c :: cs) s) : (c.turn plan s).failures = [] ∧
    OnWay plan spaces s₀ ((c.turn plan s).rest.toList ++ cs) (c.turn plan s).cluster := by
  have hgo := goesOn_turn h.partly (h.onCourse c (List.mem_cons_self ..))
  refine ⟨hgo.failures, hgo.partly, fun d hd => ?_, fun d hd => ?_⟩
  · rcases List.mem_append.mp hd with hm | hm
    · exact hgo.onCourse d (Option.mem_toList.mp hm)
    · exact h.onCourse d (List.mem_cons_of_mem _ hm)
  · rcases h.duties d hd with hdone | ⟨c', hc', ho⟩
    · exact Or.inl (hgo.done d hdone)
    · rcases List.mem_cons.mp hc' with rfl | hm
      · refine (hgo.owed d hd ho).imp id fun ⟨c', hc', ho⟩ => ?_
        exact ⟨c', List.mem_append_left _ (Option.mem_toList.mpr hc'), ho⟩
      · exact Or.inr ⟨c', List.mem_append_right _ hm, ho⟩

/-- When no chore is left, everything that is due is done. -/
theorem effect (h : OnWay plan spaces s₀ [] s) : Effect plan spaces s₀ s := by
  have hdone : ∀ d : Duty, d.IsDue plan spaces s₀ → d.IsDone s := fun d hd =>
    (h.duties d hd).elim id fun ⟨c, hc, _⟩ => by cases hc
  have hgone : ∀ x, IsGone spaces s₀ s x ↔ Removes spaces s₀ x := fun x =>
    ⟨fun hx => hx.1, fun hx => ⟨hx, hdone (.remove x) hx⟩⟩
  have huntouched : ∀ key, ¬ Clears plan spaces s₀ key →
      (∀ x, key.space = some x → ¬ Removes spaces s₀ x) → s.find? key = s₀.find? key := by
    intro key hkey hout
    rcases h.partly.resources key fun x hx => mt (hgone x).mp (hout x hx) with hs | ⟨hc, _⟩
    · exact hs
    · exact absurd hc hkey
  have hkept : ∀ x, ¬ Removes spaces s₀ x → s.hasSpace x = s₀.hasSpace x ∧
      s.pods.get? x = s₀.pods.get? x := fun x hx => h.partly.kept x (mt (hgone x).mp hx)
  refine ⟨fun x _ hbusy => ?_, fun x hx => ?_, fun key hkey hout => ?_, hkept, huntouched⟩
  · have hremoves : ¬ Removes spaces s₀ x := fun hr => hbusy hr.idle
    refine ⟨(hkept x hremoves).1, (hkept x hremoves).2, fun key hkey => ?_⟩
    refine huntouched key (fun hc => ?_) fun y hy => ?_
    · -- What a target means lives in the system namespace or nowhere, and here is neither.
      obtain ⟨t, _, hmeans⟩ := hc.meant
      have hplace := hmeans.place.symm.trans hkey
      rw [Target.spaceIn] at hplace
      split at hplace
      · cases hplace
      · exact hbusy (Option.some.inj hplace ▸ hc.idle)
    · rw [Option.some.inj (hy.symm.trans hkey)]
      exact hremoves
  · obtain ⟨hpods, hkeys⟩ := h.partly.gone x ((hgone x).mpr hx)
    exact ⟨hdone (.remove x) hx, hpods, hkeys⟩
  · rcases h.partly.resources key fun x hx => mt (hgone x).mp (hout x hx) with hs | ⟨_, hc⟩
    · rw [← hs]
      cases hr : s.find? key with
      | none => rfl
      | some r =>
          have hempty := hdone (.clear key) hkey r hr
          rw [Option.map_some, Resource.cleared, ← hempty]
    · exact hc

end OnWay

theorem Effect.sameContent_again {s₁ s₂ : Store} (hkinds : s₁.unknownKinds = s₀.unknownKinds)
    (h : Effect plan spaces s₀ s₁) (h' : Effect plan spaces s₁ s₂) : s₂.SameContent s₁ := by
  -- What was to be removed is gone, so it is not removed again.
  have hnone : ∀ x, ¬ Removes spaces s₁ x := by
    intro x hx
    by_cases hr : Removes spaces s₀ x
    · have hpresent := hx.present
      rw [(h.removed x hr).1] at hpresent
      cases hpresent
    · obtain ⟨hspace, hpods⟩ := h.kept x hr
      refine hr ⟨hx.listed, ?_, hspace ▸ hx.present⟩
      have hidle := hx.idle
      rwa [Store.IsIdle, hpods] at hidle
  -- What is to be cleared was so before, and has been.
  have hclears : ∀ key, Clears plan spaces s₁ key → Clears plan spaces s₀ key := by
    intro key hc
    refine ⟨hc.listed, ?_, hc.meant, hkinds ▸ hc.known⟩
    by_cases hr : Removes spaces s₀ plan.systemSpace
    · exact hr.idle
    · have hidle := hc.idle
      rwa [Store.IsIdle, (h.kept _ hr).2] at hidle
  refine ⟨fun x => (h'.kept x (hnone x)).1, fun x => (h'.kept x (hnone x)).2, fun key => ?_⟩
  by_cases hc : Clears plan spaces s₁ key
  · rw [h'.cleared key hc fun x _ => hnone x]
    by_cases hin : ∃ x, key.space = some x ∧ Removes spaces s₀ x
    · obtain ⟨x, hx, hr⟩ := hin
      rw [(h.removed x hr).2.2 key hx]
      rfl
    · rw [h.cleared key (hclears key hc) fun x hx hr => hin ⟨x, hx, hr⟩]
      cases s₀.find? key with
      | none => rfl
      | some r => rfl
  · exact h'.untouched key hc fun x _ => hnone x

end HalfWay

namespace Teardown

variable {s : Store}

/-- In a quiet store a teardown succeeds, and has its effect. -/
theorem inevitable_effect (policy : RetryPolicy) (systemSpace : String) (targets : List Target)
    (spaces : List String) (hs : s.Quiet) :
    Inevitable (recorded move?) (fun j => j.2.result? = some (.ok ()) ∧
      Partly ⟨policy, systemSpace, targets⟩ spaces s j.2.cluster ∧
        Effect ⟨policy, systemSpace, targets⟩ spaces s j.2.cluster)
      (([] : List Event), start policy systemSpace targets spaces s) := by
  refine (inevitable_of_turns (F := fun cs fs k =>
    fs = [] ∧ OnWay ⟨policy, systemSpace, targets⟩ spaces s cs k) ?_ ?_ ⟨rfl, .start hs⟩).mono ?_
  · rintro cs cs' fs k ⟨hfs, h⟩ hp
    exact ⟨hfs, h.perm hp⟩
  · rintro c cs fs k ⟨rfl, h⟩
    exact h.turn
  · rintro j ⟨hr, hfailures, h⟩
    rw [hfailures] at hr
    exact ⟨hr, h.partly, h.effect⟩

/-- In a store in which nothing is made to fail and no pods are about to stop, a teardown
succeeds and does what it is for and nothing else, whatever the order of moves.  Done again it
succeeds and changes nothing. -/
theorem repeatable (policy : RetryPolicy) (systemSpace : String) (targets : List Target)
    (spaces : List String) (hs : s.Built) (hfaults : s.faults = [])
    (hcountdowns : s.countdowns = .empty) :
    Inevitable (recorded move?) (fun j => j.2.result? = some (.ok ()) ∧
      Effect ⟨policy, systemSpace, targets⟩ spaces s j.2.cluster ∧
        Inevitable (recorded move?) (fun i => i.2.result? = some (.ok ()) ∧
          i.2.cluster.SameContent j.2.cluster)
          (([] : List Event), start policy systemSpace targets spaces j.2.cluster))
      (([] : List Event), start policy systemSpace targets spaces s) := by
  refine (inevitable_effect policy systemSpace targets spaces ⟨hs.tidy, hfaults, hcountdowns⟩).mono
    ?_
  rintro j ⟨hr, hpartly, heffect⟩
  refine ⟨hr, heffect, (inevitable_effect policy systemSpace targets spaces hpartly.quiet).mono ?_⟩
  rintro i ⟨hr', _, heffect'⟩
  exact ⟨hr', heffect.sameContent_again hpartly.kinds heffect'⟩

/-- Resources with a finalizer that keep the system namespace from going away. -/
def stuckBrokers : List Target :=
  [⟨⟨"servicecatalog.k8s.io", "v1beta1", "clusterservicebrokers"⟩, .cluster, none⟩,
   ⟨⟨"", "v1", "secrets"⟩, .namespaced, some "token"⟩]

/-- A store with a busy namespace and a free one, and the system namespace with resources of
two kinds, one of which is unknown. -/
def calm : Store :=
  ({} : Store).addPod "busy" ⟨"p", .running⟩
    |>.addPod "free" ⟨"q", .succeeded⟩
    |>.addSpace "system"
    |>.addResource ⟨"servicecatalog.k8s.io", "v1beta1", "clusterservicebrokers"⟩
      ⟨"broker", none, ["f"]⟩
    |>.addResource ⟨"", "v1", "secrets"⟩ ⟨"token", some "system", ["f"]⟩
    |>.removeKind ⟨"", "v1", "secrets"⟩

theorem built_calm : calm.Built :=
  .removeKind _ (.addResource _ _ (.addResource _ _ (.addSpace _ (.addPod _ _ (.addPod _ _ .empty)))))

/-- Two workers for the system namespace, a busy namespace, and one that does not exist. -/
theorem repeatable_calm : calm.Built ∧ calm.faults = [] ∧ calm.countdowns = .empty ∧
    Inevitable (recorded move?) (fun j => j.2.result? = some (.ok ()) ∧
      Effect ⟨.standard, "system", stuckBrokers⟩ ["system", "busy", "free", "system", "none"]
        calm j.2.cluster ∧
        Inevitable (recorded move?) (fun i => i.2.result? = some (.ok ()) ∧
          i.2.cluster.SameContent j.2.cluster)
          (([] : List Event), start .standard "system" stuckBrokers
            ["system", "busy", "free", "system", "none"] j.2.cluster))
      (([] : List Event), start .standard "system" stuckBrokers
        ["system", "busy", "free", "system", "none"] calm) :=
  ⟨built_calm, rfl, rfl, repeatable .standard "system" stuckBrokers
    ["system", "busy", "free", "system", "none"] built_calm rfl rfl⟩

end Teardown

end Decommission
