import Decommission.Cluster.Basic
import Decommission.NameMap

/-!
# A cluster in memory

A store holds namespaces, their pods, and resources by kind, namespace and name.
It keeps a list of the calls it was given.  Calls can be made to fail, and kinds
can be made unknown.

Pods can be set to stop.  A counter of a namespace goes down with every listing
of its pods.  When it reaches zero, the running pods have succeeded.  The
listing that brings it there still shows them running.  A failed listing leaves
the counter alone.
-/

namespace Decommission

/-- The key of a resource. -/
structure ResourceKey where
  kind : Kind
  /-- Its namespace, if it lives in one. -/
  space : Option String
  name : String
deriving DecidableEq, Repr

/-- The key under which a resource of a kind is kept. -/
def Resource.key (r : Resource) (kind : Kind) : ResourceKey := ⟨kind, r.space, r.name⟩

/-- A call that can be made to fail. -/
inductive FaultPoint
  | listPods (space : String)
  | deleteSpace (space : String)
  | listResources (kind : Kind)
  | getResource (kind : Kind)
  | updateResource (kind : Kind)
deriving DecidableEq, Repr

/-- A cluster in memory. -/
structure Store where
  spaces : NameMap Unit := .empty
  pods : NameMap (List Pod) := .empty
  /-- Listings to come before the running pods of a namespace have succeeded. -/
  countdowns : NameMap Nat := .empty
  resources : List (ResourceKey × Resource) := []
  unknownKinds : List Kind := []
  faults : List (FaultPoint × String) := []
  /-- The calls given so far, oldest first. -/
  calls : List Call := []
deriving DecidableEq, Inhabited

namespace Store

/-! ## Setting a store up -/

/-- Add a namespace. -/
def addSpace (s : Store) (space : String) : Store := { s with spaces := s.spaces.insert space () }

/-- Add a pod, and its namespace. -/
def addPod (s : Store) (space : String) (p : Pod) : Store :=
  { s.addSpace space with
    pods := s.pods.insert space ((s.pods.get? space).getD [] ++ [p]) }

/-- Let the running pods of a namespace stop after a number of listings. -/
def stopPodsAfter (s : Store) (space : String) (listings : Nat) : Store :=
  { s with countdowns := s.countdowns.insert space listings }

/-- Put a resource under its key. -/
def putResource (kind : Kind) (r : Resource) :
    List (ResourceKey × Resource) → List (ResourceKey × Resource)
  | [] => [(r.key kind, r)]
  | e :: es => if e.1 = r.key kind then (r.key kind, r) :: es else e :: putResource kind r es

/-- Add a resource. -/
def addResource (s : Store) (kind : Kind) (r : Resource) : Store :=
  { s with resources := putResource kind r s.resources }

/-- Make a kind unknown. -/
def removeKind (s : Store) (kind : Kind) : Store :=
  { s with unknownKinds := kind :: s.unknownKinds }

/-- Make a call fail.  The last reason given for a call counts. -/
def fail (s : Store) (point : FaultPoint) (reason : String) : Store :=
  { s with faults := (point, reason) :: s.faults }

/-! ## Looking into a store -/

/-- The names of the namespaces, ascending. -/
def spaceNames (s : Store) : List String := s.spaces.names

/-- Whether a namespace exists. -/
def hasSpace (s : Store) (space : String) : Bool := s.spaces.contains space

/-- The resource under a key. -/
def find? (s : Store) (key : ResourceKey) : Option Resource := s.resources.lookup key

/-- Why a call is to fail, if it is. -/
def fault? (s : Store) (point : FaultPoint) : Option ClusterError :=
  (s.faults.lookup point).map .api

/-- Why a kind cannot be used, if it cannot. -/
def unknown? (s : Store) (kind : Kind) : Option ClusterError :=
  if s.unknownKinds.contains kind then some (.missing ("resource type " ++ kind.text)) else none

/-- The resources of a kind in a namespace, ascending by name. -/
def select (s : Store) (kind : Kind) (space : Option String) : List Resource :=
  let chosen := s.resources.filter fun e => e.1.kind = kind ∧ e.1.space = space
  (NameMap.ofList (chosen.map fun e => (e.2.name, e.2))).values

/-! ## Calls -/

/-- Take note of a call. -/
def record (s : Store) (c : Call) : Store := { s with calls := s.calls ++ [c] }

/-- A running pod has succeeded. -/
def stopped (p : Pod) : Pod := if p.isRunning then { p with phase := .succeeded } else p

/-- Count a listing of the pods of a namespace. -/
def countDown (s : Store) (space : String) : Store :=
  match s.countdowns.get? space with
  | none => s
  | some n =>
      if n ≤ 1 then
        { s with
          countdowns := s.countdowns.erase space
          pods := match s.pods.get? space with
            | none => s.pods
            | some ps => s.pods.insert space (ps.map stopped) }
      else { s with countdowns := s.countdowns.insert space (n - 1) }

/-- Remove a namespace with its pods and its resources. -/
def eraseSpace (s : Store) (space : String) : Store :=
  { s with
    spaces := s.spaces.erase space
    pods := s.pods.erase space
    resources := s.resources.filter fun e => e.1.space ≠ some space }

/-- List the pods of a namespace. -/
def listPods (space : String) (s : Store) : Reply Store (Except ClusterError (List Pod)) :=
  let s := s.record (.listPods space)
  match s.fault? (.listPods space) with
  | some e => ⟨.error e, s, []⟩
  | none => ⟨.ok ((s.pods.get? space).getD []), s.countDown space, []⟩

/-- Delete a namespace. -/
def deleteSpace (space : String) (s : Store) : Reply Store Deleted :=
  let s := s.record (.deleteSpace space)
  match s.fault? (.deleteSpace space) with
  | some e => ⟨.failed e, s, []⟩
  | none =>
      if s.hasSpace space then ⟨.done, s.eraseSpace space, []⟩
      else ⟨.failed (.missing ("namespace " ++ space)), s, []⟩

/-- List resources. -/
def listResources (kind : Kind) (space : Option String) (s : Store) :
    Reply Store (Except ClusterError (List Resource)) :=
  let s := s.record (.listResources kind space)
  match s.fault? (.listResources kind) <|> s.unknown? kind with
  | some e => ⟨.error e, s, []⟩
  | none => ⟨.ok (s.select kind space), s, []⟩

/-- What is said of a resource that does not exist. -/
def missingResource (kind : Kind) (name : String) : ClusterError :=
  .missing (kind.text ++ " " ++ name)

/-- Look up a resource. -/
def getResource (kind : Kind) (space : Option String) (name : String) (s : Store) :
    Reply Store (Except ClusterError Resource) :=
  let s := s.record (.getResource kind space name)
  match s.fault? (.getResource kind) <|> s.unknown? kind with
  | some e => ⟨.error e, s, []⟩
  | none =>
      match s.find? ⟨kind, space, name⟩ with
      | some r => ⟨.ok r, s, []⟩
      | none => ⟨.error (missingResource kind name), s, []⟩

/-- Set the finalizers of a resource. -/
def updateResource (kind : Kind) (r : Resource) (s : Store) :
    Reply Store (Except ClusterError Resource) :=
  let s := s.record (.updateResource kind r)
  match s.fault? (.updateResource kind) with
  | some e => ⟨.error e, s, []⟩
  | none =>
      match s.find? (r.key kind) with
      | some stored =>
          let stored := { stored with finalizers := r.finalizers }
          ⟨.ok stored, { s with resources := putResource kind stored s.resources }, []⟩
      | none => ⟨.error (missingResource kind r.name), s, []⟩

end Store

instance : Cluster Store where
  listPods := Store.listPods
  deleteSpace := Store.deleteSpace
  listResources := Store.listResources
  getResource := Store.getResource
  updateResource := Store.updateResource

end Decommission
