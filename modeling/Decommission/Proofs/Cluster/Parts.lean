import Decommission.Cluster.Faulty
import Decommission.Proofs.Cluster.Built

/-!
# The parts of a cluster

Each namespace has its part of a store: whether it exists, its pods and the countdown to
their end, its resources, and what is the same for all.  The resources without a namespace
belong to the part of the system namespace.

A call for a namespace reads its part only, and leaves the parts of the others as they are.
So two stores with the same part give the same answer, and have the same part afterwards.
The same holds behind scripted faults.
-/

namespace Decommission

/-- Whether a resource with the key belongs to the part of a namespace. -/
def ResourceKey.isOf (systemSpace space : String) (key : ResourceKey) : Bool :=
  key.space = some space ∨ key.space = none ∧ space = systemSpace

theorem ResourceKey.isOf_iff {sys space : String} {key : ResourceKey} :
    key.isOf sys space ↔ key.space = some space ∨ key.space = none ∧ space = sys :=
  decide_eq_true_iff

/-- What a store holds for a namespace. -/
structure Part where
  present : Bool
  pods : Option (List Pod)
  countdown : Option Nat
  resources : List (ResourceKey × Resource)
  unknownKinds : List Kind
  faults : List (FaultPoint × String)

/-- Count a listing of the pods. -/
def Part.countDown (p : Part) : Part :=
  match p.countdown with
  | none => p
  | some n =>
      if n ≤ 1 then { p with countdown := none, pods := p.pods.map (·.map Store.stopped) }
      else { p with countdown := some (n - 1) }

/-- Remove the namespace of the part. -/
def Part.eraseSpace (space : String) (p : Part) : Part :=
  { p with
    present := false
    pods := none
    resources := Store.keep (fun key => key.space ≠ some space) p.resources }

/-- Two replies give the same answer and leave the same of what is looked at. -/
structure Alike {κ ν α : Type} (look : κ → ν) (x y : Reply κ α) : Prop where
  answer : x.answer = y.answer
  left : look x.cluster = look y.cluster

namespace Store

/-- The part of a namespace. -/
def part (systemSpace space : String) (s : Store) : Part where
  present := s.hasSpace space
  pods := s.pods.get? space
  countdown := s.countdowns.get? space
  resources := keep (ResourceKey.isOf systemSpace space) s.resources
  unknownKinds := s.unknownKinds
  faults := s.faults

variable {sys space other : String} {s s' : Store} {kind : Kind} {r : Resource}

/-! ## What changes do to the parts -/

theorem part_countDown (s : Store) :
    (s.countDown space).part sys space = (s.part sys space).countDown := by
  rw [countDown, Part.countDown, show (s.part sys space).countdown = s.countdowns.get? space from rfl]
  cases s.countdowns.get? space with
  | none => rfl
  | some n =>
      dsimp only
      split
      · simp only [part, NameMap.get?_erase, if_pos, hasSpace]
        congr 1
        cases hp : s.pods.get? space with
        | none => exact hp
        | some ps => exact (NameMap.get?_insert ..).trans (if_pos rfl)
      · simp only [part, NameMap.get?_insert, if_pos, hasSpace]

theorem part_countDown_of_ne (s : Store) (h : space ≠ other) :
    (s.countDown space).part sys other = s.part sys other := by
  rw [countDown]
  cases s.countdowns.get? space with
  | none => rfl
  | some n =>
      dsimp only
      split
      · simp only [part, NameMap.get?_erase, if_neg h, hasSpace]
        congr 1
        cases s.pods.get? space with
        | none => rfl
        | some ps => exact (NameMap.get?_insert ..).trans (if_neg h)
      · simp only [part, NameMap.get?_insert, if_neg h, hasSpace]

theorem resources_eraseSpace (s : Store) : (s.eraseSpace space).resources =
    keep (fun key => key.space ≠ some space) s.resources := rfl

theorem part_eraseSpace (s : Store) :
    (s.eraseSpace space).part sys space = (s.part sys space).eraseSpace space := by
  have hkeep : keep (ResourceKey.isOf sys space) (s.eraseSpace space).resources =
      keep (fun key => key.space ≠ some space) (keep (ResourceKey.isOf sys space) s.resources) := by
    rw [resources_eraseSpace, keep_keep, keep_keep]
    congr 1
    exact funext fun key => Bool.and_comm ..
  rw [part, hkeep, Part.eraseSpace]
  simp only [part, eraseSpace, hasSpace, NameMap.contains, NameMap.get?_erase, if_pos,
    Option.isSome_none]

theorem part_eraseSpace_of_ne (s : Store) (h : space ≠ other) :
    (s.eraseSpace space).part sys other = s.part sys other := by
  have hkeep : keep (ResourceKey.isOf sys other) (s.eraseSpace space).resources =
      keep (ResourceKey.isOf sys other) s.resources := by
    rw [resources_eraseSpace, keep_keep]
    congr 1
    funext key
    rw [Bool.and_eq_left_iff_imp, ResourceKey.isOf_iff, decide_eq_true_iff]
    rintro (hs | ⟨hs, _⟩)
    · rw [hs]
      exact fun heq => h (Option.some.inj heq).symm
    · rw [hs]
      exact fun heq => by cases heq
  rw [part, hkeep]
  simp only [part, eraseSpace, hasSpace, NameMap.contains, NameMap.get?_erase, if_neg h]

/-! ## What calls do to the parts -/

theorem fault?_congr (h : s.part sys space = s'.part sys space) (point : FaultPoint) :
    s.fault? point = s'.fault? point := by
  rw [fault?, fault?, show s.faults = s'.faults from congrArg Part.faults h]

theorem unknown?_congr (h : s.part sys space = s'.part sys space) (kind : Kind) :
    s.unknown? kind = s'.unknown? kind := by
  rw [unknown?, unknown?, show s.unknownKinds = s'.unknownKinds from congrArg Part.unknownKinds h]

theorem find?_congr (h : s.part sys space = s'.part sys space) {key : ResourceKey}
    (hkey : key.isOf sys space) : s.find? key = s'.find? key := by
  have hkept := congrArg (·.lookup key) (congrArg Part.resources h)
  simp only [part, lookup_keep, if_pos hkey] at hkept
  exact hkept

/-- The resources of a place in the part are seen in the part. -/
theorem select_congr (h : s.part sys space = s'.part sys space) {place : Option String}
    (hplace : ∀ key : ResourceKey, key.space = place → key.isOf sys space) (kind : Kind) :
    s.select kind place = s'.select kind place := by
  have hchosen : ∀ s : Store, s.resources.filter (fun e => e.1.kind = kind ∧ e.1.space = place) =
      keep (fun key => key.kind = kind ∧ key.space = place) (s.part sys space).resources := by
    intro s
    rw [part, keep_keep]
    congr 1
    funext e
    rw [eq_comm, Bool.and_eq_left_iff_imp, decide_eq_true_iff]
    exact fun he => hplace e.1 he.2
  rw [select, select, hchosen, hchosen, h]

theorem part_record (h : s.part sys space = s'.part sys space) (c : Call) :
    (s.record c).part sys space = (s'.record c).part sys space := h

theorem alike_listPods (h : s.part sys space = s'.part sys space) :
    Alike (part sys space) (s.listPods space) (s'.listPods space) := by
  rw [listPods, listPods, fault?_congr (part_record h _)]
  split
  · exact ⟨rfl, h⟩
  · refine ⟨?_, ?_⟩
    · exact congrArg (fun p : Part => Except.ok (p.pods.getD [])) h
    · rw [part_countDown, part_countDown]
      exact congrArg Part.countDown h

theorem alike_deleteSpace (h : s.part sys space = s'.part sys space) :
    Alike (part sys space) (s.deleteSpace space) (s'.deleteSpace space) := by
  have hpresent : (s.record (.deleteSpace space)).hasSpace space =
      (s'.record (.deleteSpace space)).hasSpace space := congrArg Part.present h
  rw [deleteSpace, deleteSpace, fault?_congr (part_record h _), hpresent]
  split
  · exact ⟨rfl, h⟩
  · split
    · refine ⟨rfl, ?_⟩
      rw [part_eraseSpace, part_eraseSpace]
      exact congrArg (Part.eraseSpace space) h
    · exact ⟨rfl, h⟩

theorem alike_listResources (h : s.part sys space = s'.part sys space) {place : Option String}
    (hplace : ∀ key : ResourceKey, key.space = place → key.isOf sys space) (kind : Kind) :
    Alike (part sys space) (s.listResources kind place) (s'.listResources kind place) := by
  rw [listResources, listResources, fault?_congr (part_record h _),
    unknown?_congr (part_record h _), select_congr (part_record h _) hplace]
  split
  · exact ⟨rfl, h⟩
  · exact ⟨rfl, h⟩

theorem alike_getResource (h : s.part sys space = s'.part sys space) {place : Option String}
    (hplace : ∀ key : ResourceKey, key.space = place → key.isOf sys space) (kind : Kind)
    (name : String) :
    Alike (part sys space) (s.getResource kind place name) (s'.getResource kind place name) := by
  rw [getResource, getResource, fault?_congr (part_record h _), unknown?_congr (part_record h _),
    find?_congr (part_record h _) (hplace _ rfl)]
  split
  · exact ⟨rfl, h⟩
  · split
    · exact ⟨rfl, h⟩
    · exact ⟨rfl, h⟩

/-- The entries of a part are seen in the part, also after one of them is changed. -/
theorem part_put (h : s.part sys space = s'.part sys space) (hr : (r.key kind).isOf sys space) :
    part sys space { s with resources := putResource kind r s.resources } =
      part sys space { s' with resources := putResource kind r s'.resources } := by
  have hkept : keep (ResourceKey.isOf sys space) s.resources =
      keep (ResourceKey.isOf sys space) s'.resources := congrArg Part.resources h
  have hput : ∀ s : Store, part sys space { s with resources := putResource kind r s.resources } =
      { s.part sys space with resources := putResource kind r (s.part sys space).resources } := by
    intro s
    rw [part, keep_putResource hr]
    rfl
  rw [hput, hput, h]

theorem part_put_of_not (hr : ¬ (r.key kind).isOf sys space) :
    part sys space { s with resources := putResource kind r s.resources } = s.part sys space := by
  rw [part, keep_putResource_of_not hr]
  rfl

theorem alike_updateResource (ht : s.Tidy) (h : s.part sys space = s'.part sys space)
    (hr : (r.key kind).isOf sys space) :
    Alike (part sys space) (s.updateResource kind r) (s'.updateResource kind r) := by
  rw [updateResource, updateResource, fault?_congr (part_record h _),
    ← find?_congr (part_record h _) hr]
  split
  · exact ⟨rfl, h⟩
  · split
    · rename_i stored hstored
      have hkey : stored.key kind = r.key kind := ht.key_of_find? hstored
      exact ⟨rfl, part_put h (hkey ▸ hr : (stored.key kind).isOf sys space)⟩
    · exact ⟨rfl, h⟩

/-! ## What calls do to the parts of others -/

theorem part_listPods_of_ne (s : Store) (h : space ≠ other) :
    (s.listPods space).cluster.part sys other = s.part sys other := by
  rw [listPods]
  split
  · rfl
  · exact part_countDown_of_ne _ h

theorem part_deleteSpace_of_ne (s : Store) (h : space ≠ other) :
    (s.deleteSpace space).cluster.part sys other = s.part sys other := by
  rw [deleteSpace]
  split
  · rfl
  · split
    · exact part_eraseSpace_of_ne _ h
    · rfl

theorem part_listResources (s : Store) (kind : Kind) (place : Option String) :
    (s.listResources kind place).cluster.part sys space = s.part sys space := by
  rw [cluster_listResources]
  rfl

theorem part_getResource (s : Store) (kind : Kind) (place : Option String) (name : String) :
    (s.getResource kind place name).cluster.part sys space = s.part sys space := by
  rw [cluster_getResource]
  rfl

theorem part_updateResource_of_not (ht : s.Tidy) (hr : ¬ (r.key kind).isOf sys other) :
    (s.updateResource kind r).cluster.part sys other = s.part sys other := by
  rw [updateResource]
  split
  · rfl
  · split
    · rename_i stored hstored
      have hkey : stored.key kind = r.key kind := ht.key_of_find? hstored
      have hout : ¬ (stored.key kind).isOf sys other := hkey ▸ hr
      exact part_put_of_not (s := s.record _) hout
    · rfl

end Store

/-! ## Behind faults -/

/-- What a store behind scripted faults holds for a namespace. -/
structure FaultyPart where
  script : Option (List (Option ClusterError))
  updates : List (String × ClusterError)
  fatal : List String
  inner : Part

namespace Faulty

/-- The part of a namespace. -/
def part (systemSpace space : String) (k : Faulty Store) : FaultyPart where
  script := k.listings.get? space
  updates := k.updates
  fatal := k.fatal
  inner := k.inner.part systemSpace space

variable {sys space other : String} {k k' : Faulty Store} {kind : Kind} {r : Resource}

theorem listPods_eq (space : String) (k : Faulty Store) : Cluster.listPods space k =
    match (k.nextListing space).1 with
    | some e => ⟨.error e, (k.nextListing space).2, []⟩
    | none => (k.nextListing space).2.through
        (Store.listPods space (k.nextListing space).2.inner) := rfl

theorem deleteSpace_eq (space : String) (k : Faulty Store) : Cluster.deleteSpace space k =
    if k.fatal.contains space then ⟨.fatal, k, []⟩
    else k.through (Store.deleteSpace space k.inner) := rfl

theorem updateResource_eq (kind : Kind) (r : Resource) (k : Faulty Store) :
    Cluster.updateResource kind r k =
      match k.updates.lookup r.name with
      | some e => ⟨.error e, k, []⟩
      | none => k.through (Store.updateResource kind r k.inner) := rfl

theorem inner_congr (h : k.part sys space = k'.part sys space) :
    k.inner.part sys space = k'.inner.part sys space := congrArg FaultyPart.inner h

/-- What the store behind the faults answers alike is answered alike. -/
theorem alike_through {α : Type} (h : k.part sys space = k'.part sys space) {x y : Reply Store α}
    (hxy : Alike (Store.part sys space) x y) :
    Alike (part sys space) (k.through x) (k'.through y) where
  answer := hxy.answer
  left := by
    have hleft : ∀ (k : Faulty Store) (z : Reply Store α), (k.through z).cluster.part sys space =
        { k.part sys space with inner := z.cluster.part sys space } := fun _ _ => rfl
    rw [hleft, hleft, h, hxy.left]

theorem nextListing_congr (h : k.part sys space = k'.part sys space) :
    (k.nextListing space).1 = (k'.nextListing space).1 ∧
      (k.nextListing space).2.part sys space = (k'.nextListing space).2.part sys space := by
  have hscript : k.listings.get? space = k'.listings.get? space := congrArg FaultyPart.script h
  rw [nextListing, nextListing, hscript]
  split
  · rename_i entry rest _
    refine ⟨rfl, ?_⟩
    have hleft : ∀ k : Faulty Store,
        part sys space { k with listings := k.listings.insert space rest } =
          { k.part sys space with script := some rest } := by
      intro k
      rw [part, NameMap.get?_insert, if_pos rfl]
      rfl
    rw [hleft, hleft, h]
  · exact ⟨rfl, h⟩

theorem inner_nextListing (k : Faulty Store) (space : String) :
    (k.nextListing space).2.inner = k.inner := by
  rw [nextListing]
  split
  · rfl
  · rfl

theorem alike_listPods (h : k.part sys space = k'.part sys space) :
    Alike (part sys space) (Cluster.listPods space k) (Cluster.listPods space k') := by
  obtain ⟨hentry, hpart⟩ := nextListing_congr h
  rw [listPods_eq, listPods_eq, hentry]
  split
  · exact ⟨rfl, hpart⟩
  · exact alike_through hpart (Store.alike_listPods (inner_congr hpart))

theorem alike_deleteSpace (h : k.part sys space = k'.part sys space) :
    Alike (part sys space) (Cluster.deleteSpace space k) (Cluster.deleteSpace space k') := by
  have hfatal : k.fatal = k'.fatal := congrArg FaultyPart.fatal h
  rw [deleteSpace_eq, deleteSpace_eq, hfatal]
  split
  · exact ⟨rfl, h⟩
  · exact alike_through h (Store.alike_deleteSpace (inner_congr h))

theorem alike_listResources (h : k.part sys space = k'.part sys space) {place : Option String}
    (hplace : ∀ key : ResourceKey, key.space = place → key.isOf sys space) (kind : Kind) :
    Alike (part sys space) (Cluster.listResources kind place k)
      (Cluster.listResources kind place k') :=
  alike_through h (Store.alike_listResources (inner_congr h) hplace kind)

theorem alike_getResource (h : k.part sys space = k'.part sys space) {place : Option String}
    (hplace : ∀ key : ResourceKey, key.space = place → key.isOf sys space) (kind : Kind)
    (name : String) : Alike (part sys space) (Cluster.getResource kind place name k)
      (Cluster.getResource kind place name k') :=
  alike_through h (Store.alike_getResource (inner_congr h) hplace kind name)

theorem alike_updateResource (ht : k.inner.Tidy) (h : k.part sys space = k'.part sys space)
    (hr : (r.key kind).isOf sys space) : Alike (part sys space) (Cluster.updateResource kind r k)
      (Cluster.updateResource kind r k') := by
  have hupdates : k.updates = k'.updates := congrArg FaultyPart.updates h
  rw [updateResource_eq, updateResource_eq, hupdates]
  split
  · exact ⟨rfl, h⟩
  · exact alike_through h (Store.alike_updateResource ht (inner_congr h) hr)

/-- A call that leaves the part of a namespace alone does so behind the faults too. -/
theorem part_through {α : Type} (k : Faulty Store) {x : Reply Store α}
    (h : x.cluster.part sys other = k.inner.part sys other) :
    (k.through x).cluster.part sys other = k.part sys other := by
  show { k.part sys other with inner := x.cluster.part sys other } = _
  rw [h]
  rfl

theorem part_listPods_of_ne (k : Faulty Store) (h : space ≠ other) :
    (Cluster.listPods space k).cluster.part sys other = k.part sys other := by
  have hnext : (k.nextListing space).2.part sys other = k.part sys other := by
    rw [nextListing]
    split
    · rw [part, NameMap.get?_insert, if_neg h]
      rfl
    · rfl
  rw [listPods_eq]
  split
  · exact hnext
  · exact (part_through _ (Store.part_listPods_of_ne _ h)).trans hnext

theorem part_deleteSpace_of_ne (k : Faulty Store) (h : space ≠ other) :
    (Cluster.deleteSpace space k).cluster.part sys other = k.part sys other := by
  rw [deleteSpace_eq]
  split
  · rfl
  · exact part_through k (Store.part_deleteSpace_of_ne _ h)

theorem part_updateResource_of_not (k : Faulty Store) (ht : k.inner.Tidy)
    (hr : ¬ (r.key kind).isOf sys other) :
    (Cluster.updateResource kind r k).cluster.part sys other = k.part sys other := by
  rw [updateResource_eq]
  split
  · rfl
  · exact part_through k (Store.part_updateResource_of_not ht hr)

/-! ## What stays built -/

theorem built_listPods (h : k.inner.Built) (space : String) :
    (Cluster.listPods space k).cluster.inner.Built := by
  have hnext : (k.nextListing space).2.inner.Built := inner_nextListing k space ▸ h
  rw [listPods_eq]
  split
  · exact hnext
  · exact hnext.listPods space

theorem built_deleteSpace (h : k.inner.Built) (space : String) :
    (Cluster.deleteSpace space k).cluster.inner.Built := by
  rw [deleteSpace_eq]
  split
  · exact h
  · exact h.deleteSpace space

theorem built_updateResource (h : k.inner.Built) (kind : Kind) (r : Resource) :
    (Cluster.updateResource kind r k).cluster.inner.Built := by
  rw [updateResource_eq]
  split
  · exact h
  · exact h.updateResource kind r

end Faulty

end Decommission
