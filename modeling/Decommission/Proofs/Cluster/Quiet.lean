import Decommission.Proofs.Cluster.Built
import Decommission.Proofs.Cluster.Outcomes

/-!
# Quiet stores

In a quiet store nothing is made to fail and no pods are about to stop.  A quiet store stays
quiet.

Where nothing is made to fail, calls take a note, and a deletion or a change of a resource
does what it says.  A call fails only for want of what it is about.
-/

namespace Decommission

namespace Store

/-- A tidy store in which nothing is made to fail and no pods are about to stop. -/
structure Quiet (s : Store) : Prop where
  tidy : s.Tidy
  faults : s.faults = []
  countdowns : s.countdowns = .empty

variable {s : Store} {space : String} {place : Option String} {kind : Kind} {r : Resource}
  {name : String}

theorem Quiet.record (h : s.Quiet) (c : Call) : (s.record c).Quiet :=
  ⟨h.tidy.of_resources rfl, h.faults, h.countdowns⟩

theorem Quiet.eraseSpace (h : s.Quiet) (space : String) : (s.eraseSpace space).Quiet :=
  ⟨h.tidy.eraseSpace space, h.faults, h.countdowns⟩

theorem Quiet.put (h : s.Quiet) (kind : Kind) (r : Resource) :
    Quiet { s with resources := putResource kind r s.resources } :=
  ⟨h.tidy.put kind r, h.faults, h.countdowns⟩

/-! ## Calls that are not made to fail -/

theorem not_fault? (h : s.faults = []) {point : FaultPoint} {e : ClusterError} :
    s.fault? point ≠ some e := by
  rw [Store.fault?, h]
  exact (Option.some_ne_none e).symm

theorem listPods_eq (h : s.faults = []) (space : String) : s.listPods space =
    ⟨.ok ((s.pods.get? space).getD []), (s.record (.listPods space)).countDown space, []⟩ := by
  rcases s.listPods_outcome space with ⟨e, he, _⟩ | ⟨_, heq⟩
  · exact absurd he (not_fault? h)
  · exact heq

theorem deleteSpace_eq (h : s.faults = []) (space : String) : s.deleteSpace space =
    if s.hasSpace space then ⟨.done, (s.record (.deleteSpace space)).eraseSpace space, []⟩
    else ⟨.failed (.missing ("namespace " ++ space)), s.record (.deleteSpace space), []⟩ := by
  rcases s.deleteSpace_outcome space with ⟨e, he, _⟩ | ⟨_, hspace, heq⟩ | ⟨_, hspace, heq⟩
  · exact absurd he (not_fault? h)
  · rw [heq, hspace, if_neg Bool.false_ne_true]
  · rw [heq, hspace, if_pos rfl]

theorem unknown?_eq (s : Store) (kind : Kind) : s.unknown? kind =
    if kind ∈ s.unknownKinds then some (.missing ("resource type " ++ kind.text)) else none :=
  if_congr List.contains_iff_mem rfl rfl

/-- Where nothing is made to fail, a kind is refused for being unknown only. -/
theorem fault?_orElse_unknown? (h : s.faults = []) (point : FaultPoint) (kind : Kind) :
    (s.fault? point <|> s.unknown? kind) =
      if kind ∈ s.unknownKinds then some (.missing ("resource type " ++ kind.text)) else none := by
  rw [Store.fault?, h, ← unknown?_eq]
  rfl

/-- A kind that is unknown is missing, and nothing else fails. -/
theorem listResources_cases (h : s.faults = []) (kind : Kind) (place : Option String) :
    (∃ what, kind ∈ s.unknownKinds ∧ s.listResources kind place =
      ⟨.error (.missing what), s.record (.listResources kind place), []⟩) ∨
    kind ∉ s.unknownKinds ∧ s.listResources kind place =
      ⟨.ok (s.select kind place), s.record (.listResources kind place), []⟩ := by
  rcases s.listResources_outcome kind place with ⟨e, he, heq⟩ | ⟨hnone, heq⟩
  · rw [fault?_orElse_unknown? h, Option.ite_none_right_eq_some] at he
    obtain ⟨hk, rfl⟩ := he.imp id Option.some.inj
    exact Or.inl ⟨_, hk, heq⟩
  · rw [fault?_orElse_unknown? h, ite_eq_right_iff] at hnone
    exact Or.inr ⟨fun hk => Option.some_ne_none _ (hnone hk), heq⟩

theorem getResource_cases (h : s.faults = []) (kind : Kind) (place : Option String)
    (name : String) :
    (∃ what, (kind ∈ s.unknownKinds ∨ s.find? ⟨kind, place, name⟩ = none) ∧
      s.getResource kind place name =
        ⟨.error (.missing what), s.record (.getResource kind place name), []⟩) ∨
    ∃ r, kind ∉ s.unknownKinds ∧ s.find? ⟨kind, place, name⟩ = some r ∧
      s.getResource kind place name = ⟨.ok r, s.record (.getResource kind place name), []⟩ := by
  rcases s.getResource_outcome kind place name with
    ⟨e, he, heq⟩ | ⟨_, hfind, heq⟩ | ⟨r, hnone, hfind, heq⟩
  · rw [fault?_orElse_unknown? h, Option.ite_none_right_eq_some] at he
    obtain ⟨hk, rfl⟩ := he.imp id Option.some.inj
    exact Or.inl ⟨_, Or.inl hk, heq⟩
  · exact Or.inl ⟨_, Or.inr hfind, heq⟩
  · rw [fault?_orElse_unknown? h, ite_eq_right_iff] at hnone
    exact Or.inr ⟨r, fun hk => Option.some_ne_none _ (hnone hk), hfind, heq⟩

theorem updateResource_cases (h : s.faults = []) (kind : Kind) (r : Resource) :
    (∃ what, s.find? (r.key kind) = none ∧ s.updateResource kind r =
      ⟨.error (.missing what), s.record (.updateResource kind r), []⟩) ∨
    ∃ stored, s.find? (r.key kind) = some stored ∧
      (s.updateResource kind r).answer = .ok { stored with finalizers := r.finalizers } ∧
      (s.updateResource kind r).cluster = { s.record (.updateResource kind r) with
        resources := putResource kind { stored with finalizers := r.finalizers } s.resources } := by
  rcases s.updateResource_outcome kind r with ⟨e, he, _⟩ | ⟨_, hfind, heq⟩ | ⟨old, _, hfind, heq⟩
  · exact absurd he (not_fault? h)
  · exact Or.inl ⟨_, hfind, heq⟩
  · exact Or.inr ⟨old, hfind, by rw [heq], by rw [heq]⟩

theorem Quiet.listPods (h : s.Quiet) (space : String) : s.listPods space =
    ⟨.ok ((s.pods.get? space).getD []), s.record (.listPods space), []⟩ := by
  have hcount : (s.record (.listPods space)).countDown space = s.record (.listPods space) := by
    rw [countDown, show (s.record (.listPods space)).countdowns = .empty from h.countdowns]
    rfl
  rw [listPods_eq h.faults, hcount]

/-! ## What is left in a store -/

theorem hasSpace_eraseSpace (s : Store) (space other : String) :
    (s.eraseSpace space).hasSpace other = if space = other then false else s.hasSpace other := by
  rw [hasSpace, NameMap.contains, eraseSpace, NameMap.get?_erase]
  split
  · rfl
  · rfl

theorem pods_eraseSpace (s : Store) (space other : String) :
    (s.eraseSpace space).pods.get? other = if space = other then none else s.pods.get? other :=
  NameMap.get?_erase ..

theorem find?_eraseSpace (s : Store) (space : String) (key : ResourceKey) :
    (s.eraseSpace space).find? key = if key.space = some space then none else s.find? key := by
  have hkeep := lookup_keep (fun key => key.space ≠ some space) key s.resources
  rw [find?]
  refine hkeep.trans ?_
  by_cases hs : key.space = some space
  · simp [hs]
  · simp [hs, find?]

end Store

end Decommission
