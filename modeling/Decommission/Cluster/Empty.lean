import Decommission.Cluster.Basic

/-!
# The empty cluster

A cluster in which nothing runs and nothing exists.
-/

namespace Decommission

/-- A cluster without anything in it. -/
structure EmptyCluster where
deriving DecidableEq, Inhabited

instance : Cluster EmptyCluster where
  listPods _ k := ⟨.ok [], k, []⟩
  deleteSpace space k := ⟨.failed (.missing ("namespace " ++ space)), k, []⟩
  listResources _ _ k := ⟨.ok [], k, []⟩
  getResource kind _ name k := ⟨.error (.missing (kind.text ++ " " ++ name)), k, []⟩
  updateResource kind r k := ⟨.error (.missing (kind.text ++ " " ++ r.name)), k, []⟩

end Decommission
