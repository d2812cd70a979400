import Decommission.Cluster.Basic
import Decommission.NameMap

/-!
# Clusters with scripted faults

A cluster can be put behind scripted faults.  The listings of the pods of a
namespace follow a script: each entry stands for one listing and is either an
error or nothing, and once the script is used up, listings go through.  Changes
of resources with certain names fail.  Deletions of certain namespaces kill
their caller.  A call that a fault answers does not reach the cluster.
-/

namespace Decommission

/-- A cluster behind scripted faults. -/
structure Faulty (κ : Type) where
  inner : κ
  /-- The errors of the listings to come, by namespace. -/
  listings : NameMap (List (Option ClusterError)) := .empty
  /-- The errors of changes, by the name of the resource. -/
  updates : List (String × ClusterError) := []
  /-- The namespaces whose deletion is fatal. -/
  fatal : List String := []

namespace Faulty

variable {κ : Type}

/-- Let the cluster behind the faults answer. -/
def through {α : Type} (k : Faulty κ) (r : Reply κ α) : Reply (Faulty κ) α :=
  ⟨r.answer, { k with inner := r.cluster }, r.notes⟩

/-- The next entry of the script of a namespace, and the faults without it. -/
def nextListing (k : Faulty κ) (space : String) : Option ClusterError × Faulty κ :=
  match k.listings.get? space with
  | some (entry :: rest) => (entry, { k with listings := k.listings.insert space rest })
  | _ => (none, k)

end Faulty

instance {κ : Type} [Cluster κ] : Cluster (Faulty κ) where
  listPods space k :=
    let (entry, k) := k.nextListing space
    match entry with
    | some e => ⟨.error e, k, []⟩
    | none => k.through (Cluster.listPods space k.inner)
  deleteSpace space k :=
    if k.fatal.contains space then ⟨.fatal, k, []⟩
    else k.through (Cluster.deleteSpace space k.inner)
  listResources kind space k := k.through (Cluster.listResources kind space k.inner)
  getResource kind space name k := k.through (Cluster.getResource kind space name k.inner)
  updateResource kind r k :=
    match k.updates.lookup r.name with
    | some e => ⟨.error e, k, []⟩
    | none => k.through (Cluster.updateResource kind r k.inner)

end Decommission
