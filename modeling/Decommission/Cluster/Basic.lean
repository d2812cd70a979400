import Decommission.Note

/-!
# Clusters

A cluster answers five calls.  Its state is a value, so a call gives back the
cluster as it is afterwards.  A cluster that is watched takes notes, which come
with the answer.

`Cluster κ` says that values of type `κ` can be called as clusters.  Nothing is
assumed of the answers: they may differ from call to call, and a call that
deletes a namespace may never come back to its caller.
-/

namespace Decommission

/-- Why a call failed. -/
inductive ClusterError
  /-- What the call is about does not exist. -/
  | missing (what : String)
  | api (reason : String)
deriving DecidableEq, Repr

namespace ClusterError

/-- The error in words. -/
def message : ClusterError → String
  | missing what => "not found: " ++ what
  | api reason => "api error: " ++ reason

/-- Whether something does not exist. -/
def isMissing : ClusterError → Bool
  | missing _ => true
  | api _ => false

end ClusterError

/-- A call to a cluster. -/
inductive Call
  | listPods (space : String)
  | deleteSpace (space : String)
  /-- List the resources of a kind in a namespace, or in none. -/
  | listResources (kind : Kind) (space : Option String)
  | getResource (kind : Kind) (space : Option String) (name : String)
  | updateResource (kind : Kind) (r : Resource)
deriving DecidableEq, Repr

/-- The answer to a deletion. -/
inductive Deleted
  | done
  | failed (e : ClusterError)
  /-- The caller did not survive the call. -/
  | fatal
deriving DecidableEq, Repr

/-- What a call gives: an answer, the cluster afterwards, and the notes taken. -/
structure Reply (κ α : Type) where
  answer : α
  cluster : κ
  notes : List Note := []

/-- Values that can be called as clusters. -/
class Cluster (κ : Type) where
  listPods : String → κ → Reply κ (Except ClusterError (List Pod))
  deleteSpace : String → κ → Reply κ Deleted
  /-- List the resources of a kind in a namespace, or in none. -/
  listResources : Kind → Option String → κ → Reply κ (Except ClusterError (List Resource))
  getResource : Kind → Option String → String → κ → Reply κ (Except ClusterError Resource)
  updateResource : Kind → Resource → κ → Reply κ (Except ClusterError Resource)

end Decommission
