import Decommission.Proofs.Cluster.Quiet

/-!
# Stores that agree with themselves

A store is read in two ways, by listing the resources of a kind in a place and by looking one
of them up by its name.  In a tidy store both see the same.  Listing sorts the stored entries
by name, and no name comes twice, so the name of a resource picks one of the listing
(`Store.IsListing`).

Calls change what they are for and nothing else.  A change of a resource sets the finalizers of
the one entry (`Store.Updated`), and a deletion takes away one namespace with all that is in it
(`Store.Emptied`).  A call that fails is noted, and that is all.

`Store.consistent_of_built` puts this together for all stores that can be built.
-/

namespace Decommission

namespace Store

variable {s : Store} {kind : Kind} {place : Option String} {name space : String}
  {r stored : Resource} {rs : List Resource}

/-! ## Selecting is sorting -/

/-- Selecting resources sorts the entries of the kind in the place by name. -/
theorem Tidy.select_eq_mergeSort (h : s.Tidy) (kind : Kind) (place : Option String) :
    s.select kind place =
      ((s.entriesIn kind place).map Prod.snd).mergeSort fun a b => a.name ≤ b.name := by
  have hsort := congrArg (List.map Prod.snd) (NameMap.mergeSort_ofList (h.nodup_names kind place))
  rw [List.map_mergeSort (s := fun a b => a.name ≤ b.name), List.map_map] at hsort
  · exact hsort.symm
  · -- Each resource stands at its name.
    intro a ha b hb
    obtain ⟨d, _, rfl⟩ := List.mem_map.mp ha
    obtain ⟨e, _, rfl⟩ := List.mem_map.mp hb
    rfl

theorem Tidy.ascending_select (h : s.Tidy) (kind : Kind) (place : Option String) :
    (s.select kind place).Pairwise fun a b => a.name < b.name := by
  have hname : ∀ p ∈ (NameMap.ofList ((s.entriesIn kind place).map fun e =>
      (e.2.name, e.2))).toList, p.1 = p.2.name := by
    intro p hp
    have hp := (NameMap.perm_ofList (h.nodup_names kind place)).mem_iff.mpr hp
    obtain ⟨e, _, rfl⟩ := List.mem_map.mp hp
    rfl
  refine List.pairwise_map.mpr ((NameMap.ofList _).ascending.imp_of_mem ?_)
  intro a b ha hb hlt
  exact hname a ha ▸ hname b hb ▸ hlt

/-! ## Two ways of reading -/

/-- A listing of the resources of a kind in a place: the stored ones sorted by name, strictly
ascending.  Unless looking up resources of the kind is made to fail, it finds what the listing
shows under the name, and says that it is missing if there is nothing. -/
structure IsListing (s : Store) (kind : Kind) (place : Option String) (rs : List Resource) :
    Prop where
  sorted : rs = ((s.entriesIn kind place).map Prod.snd).mergeSort fun a b => a.name ≤ b.name
  ascending : rs.Pairwise fun a b => a.name < b.name
  found : s.fault? (.getResource kind) = none → ∀ name r,
    (s.getResource kind place name).answer = .ok r ↔ r ∈ rs ∧ r.name = name
  missed : s.fault? (.getResource kind) = none → ∀ name e,
    (s.getResource kind place name).answer = .error e ↔
      e = missingResource kind name ∧ ∀ r ∈ rs, r.name ≠ name

theorem Tidy.isListing (h : s.Tidy) (hrs : (s.listResources kind place).answer = .ok rs) :
    s.IsListing kind place rs := by
  obtain ⟨hkind, rfl⟩ := of_listResources hrs
  refine ⟨h.select_eq_mergeSort kind place, h.ascending_select kind place, ?_, ?_⟩
  · intro hfault name r
    rw [answer_getResource hfault hkind, ← h.find?_eq_some_iff]
    cases s.find? ⟨kind, place, name⟩ with
    | none => simp
    | some _ => simp
  · intro hfault name e
    rw [answer_getResource hfault hkind, ← h.find?_eq_none_iff]
    cases s.find? ⟨kind, place, name⟩ with
    | none => simp [eq_comm]
    | some _ => simp

/-! ## What calls change -/

/-- The finalizers of one resource are set, and nothing else has changed. -/
structure Updated (s : Store) (kind : Kind) (r stored : Resource) (s' : Store) : Prop where
  answered : ∃ old, s.find? (r.key kind) = some old ∧
    stored = { old with finalizers := r.finalizers }
  resources : ∀ key, s'.find? key = if key = r.key kind then some stored else s.find? key
  frame : s' = { s.record (.updateResource kind r) with resources := s'.resources }

/-- A namespace is gone with its pods and its resources, and nothing else has changed. -/
structure Emptied (s : Store) (space : String) (s' : Store) : Prop where
  present : s.hasSpace space
  spaces : ∀ x, s'.hasSpace x = if space = x then false else s.hasSpace x
  pods : ∀ x, s'.pods.get? x = if space = x then none else s.pods.get? x
  resources : ∀ key, s'.find? key = if key.space = some space then none else s.find? key
  frame : s' = { s.record (.deleteSpace space) with
    spaces := s'.spaces, pods := s'.pods, resources := s'.resources }

theorem Tidy.updated (h : s.Tidy) (hr : (s.updateResource kind r).answer = .ok stored) :
    s.Updated kind r stored (s.updateResource kind r).cluster := by
  rcases s.updateResource_outcome kind r with
    ⟨e, _, heq⟩ | ⟨_, _, heq⟩ | ⟨old, _, hfind, heq⟩
  · rw [heq] at hr
    cases hr
  · rw [heq] at hr
    cases hr
  · rw [heq] at hr ⊢
    obtain rfl : { old with finalizers := r.finalizers } = stored := Except.ok.inj hr
    have hkey : Resource.key { old with finalizers := r.finalizers } kind = r.key kind :=
      h.key_of_find? hfind
    refine ⟨⟨old, hfind, rfl⟩, fun key => (lookup_putResource key s.resources).trans ?_, rfl⟩
    rw [hkey]
    exact if_congr eq_comm rfl rfl

theorem emptied_of_done (h : (s.deleteSpace space).answer = .done) :
    s.Emptied space (s.deleteSpace space).cluster := by
  rcases s.deleteSpace_outcome space with ⟨e, _, heq⟩ | ⟨_, _, heq⟩ | ⟨_, hspace, heq⟩
  · rw [heq] at h
    cases h
  · rw [heq] at h
    cases h
  · rw [heq]
    exact ⟨hspace, hasSpace_eraseSpace _ space, pods_eraseSpace _ space, find?_eraseSpace _ space,
      rfl⟩

/-! ## Any store -/

/-- The store agrees with itself, and calls keep to what they are for. -/
structure Consistent (s : Store) : Prop where
  /-- Each resource is kept under its key, and no key is kept twice. -/
  tidy : s.Tidy
  listed : ∀ kind place rs, (s.listResources kind place).answer = .ok rs → s.IsListing kind place rs
  updated : ∀ kind r stored, (s.updateResource kind r).answer = .ok stored →
    s.Updated kind r stored (s.updateResource kind r).cluster
  deleted : ∀ space, (s.deleteSpace space).answer = .done →
    s.Emptied space (s.deleteSpace space).cluster
  refused : ∀ c e, s.refusal? c = some e → s.after c = s.record c
  /-- In particular, a listing that fails is not counted. -/
  uncounted : ∀ space e, (s.listPods space).answer = .error e →
    (s.listPods space).cluster.countdowns = s.countdowns

/-- Every store that can be built by setting it up and by calls is consistent. -/
theorem consistent_of_built (h : s.Built) : s.Consistent where
  tidy := h.tidy
  listed _ _ _ hrs := h.tidy.isListing hrs
  updated _ _ _ hr := h.tidy.updated hr
  deleted _ hd := emptied_of_done hd
  refused _ _ he := after_of_refusal? he
  uncounted space e he := by
    have hrefused : s.refusal? (.listPods space) = some e := by rw [refusal?, he, errorIn]
    have hafter : (s.listPods space).cluster = s.record (.listPods space) :=
      after_of_refusal? hrefused
    rw [hafter]
    rfl

/-- Rules that the gateway keeps. -/
def gatewayRules : Kind := ⟨"oathkeeper.ory.sh", "v1alpha1", "rules"⟩

/-- A store with rules of one name in a namespace and in none, of which one has been cleared.
Listing the pods has failed since. -/
def worn : Store :=
  ({} : Store).addPod "a" ⟨"p", .running⟩
    |>.stopPodsAfter "a" 2
    |>.addResource gatewayRules ⟨"y", some "a", ["f"]⟩
    |>.addResource gatewayRules ⟨"x", some "a", ["f", "g"]⟩
    |>.addResource gatewayRules ⟨"x", none, ["f"]⟩
    |>.updateResource gatewayRules ⟨"x", some "a", []⟩ |>.cluster
    |>.fail (.listPods "a") "busy"
    |>.listPods "a" |>.cluster

theorem built_worn : worn.Built :=
  .listPods _ (.fail _ _ (.updateResource _ _ (.addResource _ _ (.addResource _ _ (.addResource _ _
    (.stopPodsAfter _ _ (.addPod _ _ .empty)))))))

/-- In this store a listing shows two rules, a change and a deletion go through, and another
listing of the pods fails. -/
theorem consistent_worn : worn.Built ∧ worn.Consistent ∧
    (worn.listResources gatewayRules (some "a")).answer =
      .ok [⟨"x", some "a", []⟩, ⟨"y", some "a", ["f"]⟩] ∧
    (worn.updateResource gatewayRules ⟨"x", none, []⟩).answer = .ok ⟨"x", none, []⟩ ∧
    (worn.deleteSpace "a").answer = .done ∧
    worn.refusal? (.listPods "a") = some (.api "busy") ∧ worn.countdowns.get? "a" = some 2 :=
  ⟨built_worn, consistent_of_built built_worn, by decide, by decide, by decide, by decide,
    by decide⟩

end Store

end Decommission
