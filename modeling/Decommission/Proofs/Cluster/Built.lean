import Mathlib.Data.List.Basic
import Decommission.Proofs.Cluster.Outcomes
import Decommission.Proofs.NameMap

/-!
# Stores that can be built

A store comes from the empty one by setting it up and by calls (`Store.Built`).  In such
a store each resource is kept under its key, and no key is kept twice (`Store.Built.tidy`).
Hence finding by key and selecting by kind and namespace see the same resources
(`Store.Tidy.mem_select`).
-/

namespace Decommission

namespace Store

variable {s : Store} {kind : Kind} {r : Resource} {key : ResourceKey}
  {es : List (ResourceKey × Resource)}

/-! ## Entries -/

theorem mem_putResource {e : ResourceKey × Resource} (h : e ∈ putResource kind r es) :
    e = (r.key kind, r) ∨ e ∈ es := by
  induction es with
  | nil => exact Or.inl (List.mem_singleton.mp h)
  | cons d es ih =>
      rw [putResource] at h
      split at h
      · exact (List.mem_cons.mp h).imp id (List.mem_cons_of_mem _)
      · rcases List.mem_cons.mp h with rfl | hm
        · exact Or.inr (List.mem_cons_self ..)
        · exact (ih hm).imp id (List.mem_cons_of_mem _)

theorem nodup_putResource (h : (es.map Prod.fst).Nodup) :
    ((putResource kind r es).map Prod.fst).Nodup := by
  induction es with
  | nil => exact List.pairwise_singleton ..
  | cons d es ih =>
      obtain ⟨hd, hes⟩ := List.nodup_cons.mp h
      rw [putResource]
      split
      · rename_i heq
        exact List.nodup_cons.mpr ⟨heq ▸ hd, hes⟩
      · rename_i hne
        refine List.nodup_cons.mpr ⟨fun hm => ?_, ih hes⟩
        obtain ⟨e, he, hkey⟩ := List.mem_map.mp hm
        rcases mem_putResource he with rfl | he
        · exact hne hkey.symm
        · exact hd (hkey ▸ List.mem_map_of_mem he)

theorem lookup_cons_self {e : ResourceKey × Resource} (h : e.1 = key)
    (es : List (ResourceKey × Resource)) : (e :: es).lookup key = some e.2 := by
  obtain ⟨k, r⟩ := e
  cases h
  exact List.lookup_cons_self

theorem lookup_cons_ne {e : ResourceKey × Resource} (h : e.1 ≠ key)
    (es : List (ResourceKey × Resource)) : (e :: es).lookup key = es.lookup key := by
  rw [List.lookup_cons, beq_false_of_ne h.symm]

/-- A resource that is put is found under its key, and nothing else changes. -/
theorem lookup_putResource (key : ResourceKey) (es : List (ResourceKey × Resource)) :
    (putResource kind r es).lookup key = if r.key kind = key then some r else es.lookup key := by
  induction es with
  | nil =>
      rw [putResource]
      split
      · rename_i h
        exact lookup_cons_self h []
      · rename_i h
        exact lookup_cons_ne h []
  | cons e es ih =>
      by_cases hkey : r.key kind = key
      · rw [if_pos hkey] at ih ⊢
        rw [putResource]
        split
        · exact lookup_cons_self hkey es
        · rename_i hne
          exact (lookup_cons_ne (hkey ▸ hne) _).trans ih
      · rw [if_neg hkey] at ih ⊢
        rw [putResource]
        split
        · rename_i heq
          have he : e.1 ≠ key := heq ▸ hkey
          exact (lookup_cons_ne hkey es).trans (lookup_cons_ne he es).symm
        · by_cases he : e.1 = key
          · rw [lookup_cons_self he, lookup_cons_self he]
          · rw [lookup_cons_ne he, lookup_cons_ne he, ih]

/-- The entries with certain keys. -/
def keep (p : ResourceKey → Bool) (es : List (ResourceKey × Resource)) :
    List (ResourceKey × Resource) := es.filter fun e => p e.1

variable {p : ResourceKey → Bool}

theorem keep_cons_of_pos {e : ResourceKey × Resource} (h : p e.1) :
    keep p (e :: es) = e :: keep p es := List.filter_cons_of_pos h

theorem keep_cons_of_neg {e : ResourceKey × Resource} (h : ¬ p e.1) :
    keep p (e :: es) = keep p es := List.filter_cons_of_neg h

theorem lookup_keep (p : ResourceKey → Bool) (key : ResourceKey)
    (es : List (ResourceKey × Resource)) :
    (keep p es).lookup key = if p key then es.lookup key else none := by
  induction es with
  | nil => exact (ite_self _).symm
  | cons e es ih =>
      by_cases hp : p e.1
      · rw [keep_cons_of_pos hp]
        by_cases he : e.1 = key
        · rw [lookup_cons_self he, lookup_cons_self he, if_pos (he ▸ hp)]
        · rw [lookup_cons_ne he, lookup_cons_ne he, ih]
      · rw [keep_cons_of_neg hp, ih]
        by_cases he : e.1 = key
        · rw [if_neg (he ▸ hp), if_neg (he ▸ hp)]
        · rw [lookup_cons_ne he]

theorem keep_putResource (h : p (r.key kind)) :
    keep p (putResource kind r es) = putResource kind r (keep p es) := by
  induction es with
  | nil => exact keep_cons_of_pos h
  | cons e es ih =>
      rw [putResource]
      split
      · rename_i heq
        rw [keep_cons_of_pos h, keep_cons_of_pos (heq ▸ h), putResource, if_pos heq]
      · rename_i hne
        by_cases he : p e.1
        · rw [keep_cons_of_pos he, keep_cons_of_pos he, putResource, if_neg hne, ih]
        · rw [keep_cons_of_neg he, keep_cons_of_neg he, ih]

/-- Changes of entries that are not kept are not seen. -/
theorem keep_putResource_of_not (h : ¬ p (r.key kind)) :
    keep p (putResource kind r es) = keep p es := by
  induction es with
  | nil => exact keep_cons_of_neg h
  | cons e es ih =>
      rw [putResource]
      split
      · rename_i heq
        rw [keep_cons_of_neg h, keep_cons_of_neg (heq ▸ h)]
      · by_cases he : p e.1
        · rw [keep_cons_of_pos he, keep_cons_of_pos he, ih]
        · rw [keep_cons_of_neg he, keep_cons_of_neg he, ih]

theorem keep_keep (p q : ResourceKey → Bool) (es : List (ResourceKey × Resource)) :
    keep p (keep q es) = keep (fun key => p key && q key) es := List.filter_filter ..

/-- Two stores hold the same namespaces, pods and resources. -/
structure SameContent (s s' : Store) : Prop where
  spaces : ∀ x, s.hasSpace x = s'.hasSpace x
  pods : ∀ x, s.pods.get? x = s'.pods.get? x
  resources : ∀ key, s.find? key = s'.find? key

/-! ## Tidy stores -/

/-- Each resource is kept under its key, and no key is kept twice. -/
structure Tidy (s : Store) : Prop where
  keyed : ∀ e ∈ s.resources, e.1 = e.2.key e.1.kind
  distinct : (s.resources.map Prod.fst).Nodup

theorem mem_of_lookup (h : es.lookup key = some r) : (key, r) ∈ es := by
  obtain ⟨before, after, rfl, _⟩ := List.lookup_eq_some_iff.mp h
  exact List.mem_append_right _ (List.mem_cons_self ..)

theorem lookup_of_mem (hes : (es.map Prod.fst).Nodup) (h : (key, r) ∈ es) :
    es.lookup key = some r := by
  induction es with
  | nil => cases h
  | cons e es ih =>
      obtain ⟨he, hes⟩ := List.nodup_cons.mp hes
      rcases List.mem_cons.mp h with rfl | hm
      · exact lookup_cons_self (e := (key, r)) rfl es
      · have hne : e.1 ≠ key := fun heq => he (heq ▸ List.mem_map_of_mem hm)
        rw [lookup_cons_ne hne, ih hes hm]

theorem Tidy.key_of_find? (h : s.Tidy) (hr : s.find? key = some r) : r.key key.kind = key :=
  (h.keyed _ (mem_of_lookup hr)).symm

/-- The entries of a kind in a place. -/
def entriesIn (s : Store) (kind : Kind) (place : Option String) : List (ResourceKey × Resource) :=
  s.resources.filter fun e => e.1.kind = kind ∧ e.1.space = place

theorem mem_entriesIn {place : Option String} {e : ResourceKey × Resource} :
    e ∈ s.entriesIn kind place ↔ e ∈ s.resources ∧ e.1.kind = kind ∧ e.1.space = place := by
  rw [entriesIn, List.mem_filter, decide_eq_true_iff]

/-- In a kind and a place a name makes a key. -/
theorem Tidy.key_of_mem_entriesIn (h : s.Tidy) {place : Option String}
    {e : ResourceKey × Resource} (he : e ∈ s.entriesIn kind place) :
    e.1 = ⟨kind, place, e.2.name⟩ := by
  obtain ⟨hm, hkind, hplace⟩ := mem_entriesIn.mp he
  have hkey := h.keyed e hm
  have hspace : e.1.space = e.2.space := congrArg ResourceKey.space hkey
  rw [hkey, Resource.key, hkind, ← hspace, hplace]

/-- Hence no name comes twice there. -/
theorem Tidy.nodup_names (h : s.Tidy) (kind : Kind) (place : Option String) :
    (((s.entriesIn kind place).map fun e => (e.2.name, e.2)).map (·.1)).Nodup := by
  have hkeys : ((s.entriesIn kind place).map Prod.fst).Nodup :=
    h.distinct.sublist (List.filter_sublist.map Prod.fst)
  rw [List.map_map]
  refine List.pairwise_map.mpr ((List.pairwise_map.mp hkeys).imp_of_mem ?_)
  intro d e hd he hne hname
  have hname : d.2.name = e.2.name := hname
  exact hne (by rw [h.key_of_mem_entriesIn hd, h.key_of_mem_entriesIn he, hname])

/-- Selecting resources puts the entries of a kind in a place in order. -/
theorem Tidy.perm_select (h : s.Tidy) (kind : Kind) (place : Option String) :
    ((s.entriesIn kind place).map Prod.snd).Perm (s.select kind place) := by
  have hperm := (NameMap.perm_ofList (h.nodup_names kind place)).map Prod.snd
  rwa [List.map_map] at hperm

/-- Selecting resources shows those that are found in the place. -/
theorem Tidy.mem_select (h : s.Tidy) {space : Option String} :
    r ∈ s.select kind space ↔ r.space = space ∧ s.find? (r.key kind) = some r := by
  rw [← (h.perm_select kind space).mem_iff, List.mem_map]
  constructor
  · rintro ⟨⟨key, r⟩, he, rfl⟩
    obtain rfl : key = ⟨kind, space, r.name⟩ := h.key_of_mem_entriesIn he
    have hkey := h.keyed _ (mem_entriesIn.mp he).1
    refine ⟨(congrArg ResourceKey.space hkey).symm, lookup_of_mem h.distinct ?_⟩
    exact hkey ▸ (mem_entriesIn.mp he).1
  · rintro ⟨rfl, hr⟩
    exact ⟨(r.key kind, r), mem_entriesIn.mpr ⟨mem_of_lookup hr, rfl, rfl⟩, rfl⟩

/-- What is found under a key is the resource of that name in the selection. -/
theorem Tidy.find?_eq_some_iff (h : s.Tidy) {place : Option String} {name : String} :
    s.find? ⟨kind, place, name⟩ = some r ↔ r ∈ s.select kind place ∧ r.name = name := by
  rw [h.mem_select]
  constructor
  · intro hr
    have hkey : r.key kind = ⟨kind, place, name⟩ := h.key_of_find? hr
    exact ⟨⟨congrArg ResourceKey.space hkey, hkey ▸ hr⟩, congrArg ResourceKey.name hkey⟩
  · rintro ⟨⟨rfl, hr⟩, rfl⟩
    exact hr

theorem Tidy.find?_eq_none_iff (h : s.Tidy) {place : Option String} {name : String} :
    s.find? ⟨kind, place, name⟩ = none ↔ ∀ r ∈ s.select kind place, r.name ≠ name := by
  rw [Option.eq_none_iff_forall_ne_some]
  exact forall_congr' fun r => (not_congr h.find?_eq_some_iff).trans not_and

theorem Tidy.mem_of_listResources (h : s.Tidy) {space : Option String} {rs : List Resource}
    (hrs : (s.listResources kind space).answer = .ok rs) (hr : r ∈ rs) :
    r.space = space ∧ s.find? (r.key kind) = some r := by
  obtain ⟨_, rfl⟩ := of_listResources hrs
  exact h.mem_select.mp hr

theorem Tidy.of_getResource (h : s.Tidy) {space : Option String} {name : String}
    (hr : (s.getResource kind space name).answer = .ok r) :
    r.space = space ∧ s.find? (r.key kind) = some r := by
  rcases s.getResource_outcome kind space name with
    ⟨_, _, heq⟩ | ⟨_, _, heq⟩ | ⟨found, _, hfound, heq⟩
  · rw [heq] at hr
    cases hr
  · rw [heq] at hr
    cases hr
  · rw [heq] at hr
    obtain rfl : found = r := Except.ok.inj hr
    exact h.mem_select.mp (h.find?_eq_some_iff.mp hfound).1

theorem Tidy.put (h : s.Tidy) (kind : Kind) (r : Resource) :
    Tidy { s with resources := putResource kind r s.resources } where
  keyed e he := by
    rcases mem_putResource he with rfl | hm
    · rfl
    · exact h.keyed e hm
  distinct := nodup_putResource h.distinct

theorem Tidy.eraseSpace (h : s.Tidy) (space : String) : (s.eraseSpace space).Tidy where
  keyed e he := h.keyed e (List.mem_filter.mp he).1
  distinct := h.distinct.sublist (List.filter_sublist.map _)

/-- A tidy store stays tidy as long as its resources stay. -/
theorem Tidy.of_resources {s' : Store} (h : s.Tidy) (heq : s'.resources = s.resources) :
    s'.Tidy where
  keyed := heq ▸ h.keyed
  distinct := heq ▸ h.distinct

theorem resources_countDown (s : Store) (space : String) :
    (s.countDown space).resources = s.resources := by
  rw [countDown]
  split
  · rfl
  · split
    · rfl
    · rfl

/-! ## Stores that can be built -/

/-- The store can be built: from the empty one by setting it up, and by calls. -/
inductive Built : Store → Prop
  | empty : Built {}
  | addSpace {s : Store} (space : String) : Built s → Built (s.addSpace space)
  | addPod {s : Store} (space : String) (p : Pod) : Built s → Built (s.addPod space p)
  | stopPodsAfter {s : Store} (space : String) (n : Nat) : Built s → Built (s.stopPodsAfter space n)
  | addResource {s : Store} (kind : Kind) (r : Resource) : Built s → Built (s.addResource kind r)
  | removeKind {s : Store} (kind : Kind) : Built s → Built (s.removeKind kind)
  | fail {s : Store} (point : FaultPoint) (reason : String) : Built s → Built (s.fail point reason)
  | listPods {s : Store} (space : String) : Built s → Built (s.listPods space).cluster
  | deleteSpace {s : Store} (space : String) : Built s → Built (s.deleteSpace space).cluster
  | listResources {s : Store} (kind : Kind) (space : Option String) :
      Built s → Built (s.listResources kind space).cluster
  | getResource {s : Store} (kind : Kind) (space : Option String) (name : String) :
      Built s → Built (s.getResource kind space name).cluster
  | updateResource {s : Store} (kind : Kind) (r : Resource) :
      Built s → Built (s.updateResource kind r).cluster

theorem tidy_listPods (h : s.Tidy) (space : String) : (s.listPods space).cluster.Tidy := by
  rcases s.listPods_outcome space with ⟨_, _, heq⟩ | ⟨_, heq⟩
  · rw [heq]
    exact h.of_resources rfl
  · rw [heq]
    exact h.of_resources (resources_countDown _ _)

theorem tidy_deleteSpace (h : s.Tidy) (space : String) : (s.deleteSpace space).cluster.Tidy := by
  rcases s.deleteSpace_outcome space with ⟨_, _, heq⟩ | ⟨_, _, heq⟩ | ⟨_, _, heq⟩
  · rw [heq]
    exact h.of_resources rfl
  · rw [heq]
    exact h.of_resources rfl
  · rw [heq]
    exact (h.of_resources rfl : (s.record (.deleteSpace space)).Tidy).eraseSpace space

/-- Listing resources only takes a note. -/
theorem cluster_listResources (s : Store) (kind : Kind) (space : Option String) :
    (s.listResources kind space).cluster = s.record (.listResources kind space) := by
  rcases s.listResources_outcome kind space with ⟨_, _, heq⟩ | ⟨_, heq⟩
  · rw [heq]
  · rw [heq]

theorem cluster_getResource (s : Store) (kind : Kind) (space : Option String) (name : String) :
    (s.getResource kind space name).cluster = s.record (.getResource kind space name) := by
  rcases s.getResource_outcome kind space name with ⟨_, _, heq⟩ | ⟨_, _, heq⟩ | ⟨_, _, _, heq⟩
  · rw [heq]
  · rw [heq]
  · rw [heq]

theorem tidy_updateResource (h : s.Tidy) (kind : Kind) (r : Resource) :
    (s.updateResource kind r).cluster.Tidy := by
  rcases s.updateResource_outcome kind r with ⟨_, _, heq⟩ | ⟨_, _, heq⟩ | ⟨_, _, _, heq⟩
  · rw [heq]
    exact h.of_resources rfl
  · rw [heq]
    exact h.of_resources rfl
  · rw [heq]
    exact (h.of_resources rfl : (s.record (.updateResource kind r)).Tidy).put kind _

/-- A store that can be built is tidy. -/
theorem Built.tidy (h : s.Built) : s.Tidy := by
  induction h with
  | empty => exact ⟨fun e he => absurd he List.not_mem_nil, List.nodup_nil⟩
  | addSpace space _ ih => exact ih.of_resources rfl
  | addPod space p _ ih => exact ih.of_resources rfl
  | stopPodsAfter space n _ ih => exact ih.of_resources rfl
  | addResource kind r _ ih => exact ih.put kind r
  | removeKind kind _ ih => exact ih.of_resources rfl
  | fail point reason _ ih => exact ih.of_resources rfl
  | listPods space _ ih => exact tidy_listPods ih space
  | deleteSpace space _ ih => exact tidy_deleteSpace ih space
  | listResources kind space _ ih =>
      rw [cluster_listResources]
      exact ih.of_resources rfl
  | getResource kind space name _ ih =>
      rw [cluster_getResource]
      exact ih.of_resources rfl
  | updateResource kind r _ ih => exact tidy_updateResource ih kind r

end Store

end Decommission
