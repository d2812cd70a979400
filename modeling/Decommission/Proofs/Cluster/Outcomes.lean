import Mathlib.Data.Option.Basic
import Decommission.Cluster.Store

/-!
# What calls to a store come to

A call to a store is noted, and then it fails or goes through.  There is one lemma for each
call, which says when it does which, what is answered, and what the store is afterwards.

`Store.after` and `Store.refusal?` speak of all calls at once.  A call that fails leaves
nothing behind but the note of it (`Store.after_of_refusal?`).
-/

namespace Decommission

namespace Store

variable {s : Store} {kind : Kind} {place : Option String} {rs : List Resource}

/-- Listing pods fails if it is made to.  Otherwise the pods are shown as they are before the
listing is counted. -/
theorem listPods_outcome (s : Store) (space : String) :
    (∃ e, s.fault? (.listPods space) = some e ∧
      s.listPods space = ⟨.error e, s.record (.listPods space), []⟩) ∨
    s.fault? (.listPods space) = none ∧ s.listPods space =
      ⟨.ok ((s.pods.get? space).getD []), (s.record (.listPods space)).countDown space, []⟩ := by
  have hfault : (s.record (.listPods space)).fault? (.listPods space) =
      s.fault? (.listPods space) := rfl
  rw [Store.listPods, hfault]
  cases s.fault? (.listPods space) with
  | some e => exact Or.inl ⟨e, rfl, rfl⟩
  | none => exact Or.inr ⟨rfl, rfl⟩

/-- Deleting a namespace fails if it is made to, or if there is none. -/
theorem deleteSpace_outcome (s : Store) (space : String) :
    (∃ e, s.fault? (.deleteSpace space) = some e ∧
      s.deleteSpace space = ⟨.failed e, s.record (.deleteSpace space), []⟩) ∨
    (s.fault? (.deleteSpace space) = none ∧ s.hasSpace space = false ∧ s.deleteSpace space =
      ⟨.failed (.missing ("namespace " ++ space)), s.record (.deleteSpace space), []⟩) ∨
    s.fault? (.deleteSpace space) = none ∧ s.hasSpace space = true ∧ s.deleteSpace space =
      ⟨.done, (s.record (.deleteSpace space)).eraseSpace space, []⟩ := by
  have hfault : (s.record (.deleteSpace space)).fault? (.deleteSpace space) =
      s.fault? (.deleteSpace space) := rfl
  have hspace : (s.record (.deleteSpace space)).hasSpace space = s.hasSpace space := rfl
  rw [Store.deleteSpace, hfault, hspace]
  cases s.fault? (.deleteSpace space) with
  | some e => exact Or.inl ⟨e, rfl, rfl⟩
  | none =>
      cases s.hasSpace space with
      | false => exact Or.inr (Or.inl ⟨rfl, rfl, rfl⟩)
      | true => exact Or.inr (Or.inr ⟨rfl, rfl, rfl⟩)

/-- Listing resources fails if it is made to, or if the kind is unknown. -/
theorem listResources_outcome (s : Store) (kind : Kind) (place : Option String) :
    (∃ e, (s.fault? (.listResources kind) <|> s.unknown? kind) = some e ∧
      s.listResources kind place = ⟨.error e, s.record (.listResources kind place), []⟩) ∨
    (s.fault? (.listResources kind) <|> s.unknown? kind) = none ∧ s.listResources kind place =
      ⟨.ok (s.select kind place), s.record (.listResources kind place), []⟩ := by
  have hfault : ((s.record (.listResources kind place)).fault? (.listResources kind) <|>
      (s.record (.listResources kind place)).unknown? kind) =
      (s.fault? (.listResources kind) <|> s.unknown? kind) := rfl
  rw [Store.listResources, hfault]
  cases (s.fault? (.listResources kind) <|> s.unknown? kind) with
  | some e => exact Or.inl ⟨e, rfl, rfl⟩
  | none => exact Or.inr ⟨rfl, rfl⟩

/-- A listing that succeeds is the selection, and the kind is known. -/
theorem of_listResources (h : (s.listResources kind place).answer = .ok rs) :
    s.unknown? kind = none ∧ s.select kind place = rs := by
  rcases s.listResources_outcome kind place with ⟨e, _, heq⟩ | ⟨hnone, heq⟩
  · rw [heq] at h
    cases h
  · rw [heq] at h
    exact ⟨((Option.orElse_eq_none _ _).mp hnone).2, Except.ok.inj h⟩

/-- Looking up a resource fails in the same cases, and if there is none under the key. -/
theorem getResource_outcome (s : Store) (kind : Kind) (place : Option String) (name : String) :
    (∃ e, (s.fault? (.getResource kind) <|> s.unknown? kind) = some e ∧
      s.getResource kind place name = ⟨.error e, s.record (.getResource kind place name), []⟩) ∨
    ((s.fault? (.getResource kind) <|> s.unknown? kind) = none ∧
      s.find? ⟨kind, place, name⟩ = none ∧ s.getResource kind place name =
        ⟨.error (missingResource kind name), s.record (.getResource kind place name), []⟩) ∨
    ∃ r, (s.fault? (.getResource kind) <|> s.unknown? kind) = none ∧
      s.find? ⟨kind, place, name⟩ = some r ∧
      s.getResource kind place name = ⟨.ok r, s.record (.getResource kind place name), []⟩ := by
  have hfault : ((s.record (.getResource kind place name)).fault? (.getResource kind) <|>
      (s.record (.getResource kind place name)).unknown? kind) =
      (s.fault? (.getResource kind) <|> s.unknown? kind) := rfl
  have hfind : (s.record (.getResource kind place name)).find? ⟨kind, place, name⟩ =
      s.find? ⟨kind, place, name⟩ := rfl
  rw [Store.getResource, hfault, hfind]
  cases (s.fault? (.getResource kind) <|> s.unknown? kind) with
  | some e => exact Or.inl ⟨e, rfl, rfl⟩
  | none =>
      cases s.find? ⟨kind, place, name⟩ with
      | none => exact Or.inr (Or.inl ⟨rfl, rfl, rfl⟩)
      | some r => exact Or.inr (Or.inr ⟨r, rfl, rfl, rfl⟩)

/-- Where it is not made to fail, looking up a resource of a known kind gives what is under the
key. -/
theorem answer_getResource (hfault : s.fault? (.getResource kind) = none)
    (hkind : s.unknown? kind = none) (place : Option String) (name : String) :
    (s.getResource kind place name).answer =
      (s.find? ⟨kind, place, name⟩).elim (.error (missingResource kind name)) .ok := by
  rcases s.getResource_outcome kind place name with
    ⟨e, he, _⟩ | ⟨_, hfind, heq⟩ | ⟨r, _, hfind, heq⟩
  · simp [hfault, hkind] at he
  · rw [heq, hfind, Option.elim_none]
  · rw [heq, hfind, Option.elim_some]

/-- Setting the finalizers of a resource fails if it is made to, or if there is no resource
under the key.  Of the resource given, only the finalizers are taken over. -/
theorem updateResource_outcome (s : Store) (kind : Kind) (r : Resource) :
    (∃ e, s.fault? (.updateResource kind) = some e ∧
      s.updateResource kind r = ⟨.error e, s.record (.updateResource kind r), []⟩) ∨
    (s.fault? (.updateResource kind) = none ∧ s.find? (r.key kind) = none ∧
      s.updateResource kind r =
        ⟨.error (missingResource kind r.name), s.record (.updateResource kind r), []⟩) ∨
    ∃ old, s.fault? (.updateResource kind) = none ∧ s.find? (r.key kind) = some old ∧
      s.updateResource kind r = ⟨.ok { old with finalizers := r.finalizers },
        { s.record (.updateResource kind r) with
          resources := putResource kind { old with finalizers := r.finalizers } s.resources },
        []⟩ := by
  have hfault : (s.record (.updateResource kind r)).fault? (.updateResource kind) =
      s.fault? (.updateResource kind) := rfl
  have hfind : (s.record (.updateResource kind r)).find? (r.key kind) = s.find? (r.key kind) := rfl
  rw [Store.updateResource, hfault, hfind]
  cases s.fault? (.updateResource kind) with
  | some e => exact Or.inl ⟨e, rfl, rfl⟩
  | none =>
      cases s.find? (r.key kind) with
      | none => exact Or.inr (Or.inl ⟨rfl, rfl, rfl⟩)
      | some old => exact Or.inr (Or.inr ⟨old, rfl, rfl, rfl⟩)

/-! ## Any call -/

/-- The error in an answer, if it is one. -/
def errorIn {α : Type} : Except ClusterError α → Option ClusterError
  | .error e => some e
  | .ok _ => none

/-- Why a call fails, if it does. -/
def refusal? (s : Store) : Call → Option ClusterError
  | .listPods space => errorIn (s.listPods space).answer
  | .deleteSpace space =>
      match (s.deleteSpace space).answer with
      | .failed e => some e
      | .done => none
      | .fatal => none
  | .listResources kind place => errorIn (s.listResources kind place).answer
  | .getResource kind place name => errorIn (s.getResource kind place name).answer
  | .updateResource kind r => errorIn (s.updateResource kind r).answer

/-- The store after a call. -/
def after (s : Store) : Call → Store
  | .listPods space => (s.listPods space).cluster
  | .deleteSpace space => (s.deleteSpace space).cluster
  | .listResources kind place => (s.listResources kind place).cluster
  | .getResource kind place name => (s.getResource kind place name).cluster
  | .updateResource kind r => (s.updateResource kind r).cluster

/-- A call that fails is noted, and that is all. -/
theorem after_of_refusal? {c : Call} {e : ClusterError} (h : s.refusal? c = some e) :
    s.after c = s.record c := by
  cases c with
  | listPods space =>
      rcases s.listPods_outcome space with ⟨_, _, heq⟩ | ⟨_, heq⟩
      · rw [after, heq]
      · rw [refusal?, heq] at h
        cases h
  | deleteSpace space =>
      rcases s.deleteSpace_outcome space with ⟨_, _, heq⟩ | ⟨_, _, heq⟩ | ⟨_, _, heq⟩
      · rw [after, heq]
      · rw [after, heq]
      · rw [refusal?, heq] at h
        cases h
  | listResources kind place =>
      rcases s.listResources_outcome kind place with ⟨_, _, heq⟩ | ⟨_, heq⟩
      · rw [after, heq]
      · rw [after, heq]
  | getResource kind place name =>
      rcases s.getResource_outcome kind place name with
        ⟨_, _, heq⟩ | ⟨_, _, heq⟩ | ⟨_, _, _, heq⟩
      · rw [after, heq]
      · rw [after, heq]
      · rw [after, heq]
  | updateResource kind r =>
      rcases s.updateResource_outcome kind r with ⟨_, _, heq⟩ | ⟨_, _, heq⟩ | ⟨_, _, _, heq⟩
      · rw [after, heq]
      · rw [after, heq]
      · rw [refusal?, heq] at h
        cases h

end Store

end Decommission
