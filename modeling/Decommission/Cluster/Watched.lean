import Decommission.Cluster.Basic

/-!
# Watched clusters

A watched cluster takes notes of every call and its answer.  It passes all calls
on, with one exception.  A deletion without a name is refused, since it would
address all namespaces at once.
-/

namespace Decommission

/-- A cluster whose calls are noted. -/
structure Watched (κ : Type) where
  inner : κ

namespace Watched

variable {κ α : Type}

/-- The reply of the cluster inside, with notes before and after its own. -/
def around (before : List Note) (r : Reply κ α) (after : List Note) : Reply (Watched κ) α :=
  ⟨r.answer, ⟨r.cluster⟩, before ++ r.notes ++ after⟩

/-- The number of things in an answer, if it is not an error. -/
def count? (answer : Except ClusterError (List α)) : Option Nat := answer.toOption.map List.length

/-- What is noted of the answer to a deletion.  Nothing is, if the caller did not
survive. -/
def deletionNotes (space : String) : Deleted → List Note
  | .done => [.deleted space]
  | .failed (.missing what) => [.deleteMissed space (ClusterError.missing what).message]
  | .failed e => [.deleteFailed space e.message]
  | .fatal => []

/-- What is noted of the answer to a change. -/
def updateNotes (kind : Kind) (r : Resource) : Except ClusterError Resource → List Note
  | .ok _ => [.updated kind r]
  | .error e => [.updateFailed kind r e.message]

end Watched

instance {κ : Type} [Cluster κ] : Cluster (Watched κ) where
  listPods space k :=
    let r := Cluster.listPods space k.inner
    Watched.around [] r [.podsListed space (Watched.count? r.answer)]
  deleteSpace space k :=
    if space.isEmpty then ⟨.failed (.api "namespace name is empty"), k, [.deleteNameless]⟩
    else
      let r := Cluster.deleteSpace space k.inner
      Watched.around [.deleting space] r (Watched.deletionNotes space r.answer)
  listResources kind space k :=
    let r := Cluster.listResources kind space k.inner
    Watched.around [] r [.resourcesListed kind space (Watched.count? r.answer)]
  getResource kind space name k :=
    let r := Cluster.getResource kind space name k.inner
    Watched.around [] r [.resourceFetched kind space name r.answer.toOption.isSome]
  updateResource kind r k :=
    let reply := Cluster.updateResource kind r k.inner
    Watched.around [.updating kind r] reply (Watched.updateNotes kind r reply.answer)

end Decommission
