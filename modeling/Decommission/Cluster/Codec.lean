import Decommission.Cluster.Basic
import Decommission.Codec

/-!
# Clusters as data

Pods, resources, the targets that select resources, and calls.  They are written
and read like the other records: enumerated values go by their names, and fields
that no record of the type knows are ignored.
-/

namespace Decommission

/-! ## Pods, resources and targets -/

/-- The written names of the phases of a pod. -/
def PodPhase.choices : List (String × PodPhase) :=
  [("pending", .pending), ("running", .running), ("succeeded", .succeeded), ("failed", .failed),
   ("unknown", .unknown)]

/-- A phase of a pod by its name. -/
def PodPhase.toDatum : PodPhase → Datum := Datum.ofChoice PodPhase.choices

/-- Read a phase of a pod by its name. -/
def PodPhase.ofDatum? (l : Dialect) : Datum → Option PodPhase := Datum.choice? l PodPhase.choices

/-- Read a kind. -/
def Kind.ofDatum? (l : Dialect) (d : Datum) : Option Kind := do
  let es ← d.entries? l ["group", "version", "plural"]
  let group ← es.require "group" Datum.text?
  let version ← es.require "version" Datum.text?
  let plural ← es.require "plural" Datum.text?
  some ⟨group, version, plural⟩

/-- A resource as a record. -/
def Resource.toDatum (r : Resource) : Datum :=
  .table [("name", .text r.name), ("namespace", Datum.ofOption .text r.space),
    ("finalizers", .array (r.finalizers.map .text))]

/-- Read a resource.  The namespace may be missing, and so may the finalizers. -/
def Resource.ofDatum? (l : Dialect) (d : Datum) : Option Resource := do
  let es ← d.entries? l ["name", "namespace", "finalizers"]
  let name ← es.require "name" Datum.text?
  let space ← es.optional "namespace" Datum.text?
  let finalizers ← es.default "finalizers" (Datum.list? Datum.text?) []
  some ⟨name, space, finalizers⟩

/-- The written names of the scopes. -/
def Scope.choices : List (String × Scope) := [("cluster", .cluster), ("namespace", .namespaced)]

/-- Read a target.  The name may be missing. -/
def Target.ofDatum? (l : Dialect) (d : Datum) : Option Target := do
  let es ← d.entries? l ["kind", "scope", "name"]
  let kind ← es.require "kind" (Kind.ofDatum? l)
  let scope ← es.require "scope" (Datum.choice? l Scope.choices)
  let name ← es.optional "name" Datum.text?
  some ⟨kind, scope, name⟩

/-! ## Calls -/

/-- A call as a record. -/
def Call.toDatum : Call → Datum
  | .listPods space => .table [("call", .text "list_pods"), ("namespace", .text space)]
  | .deleteSpace space => .table [("call", .text "delete_namespace"), ("namespace", .text space)]
  | .listResources kind space =>
      .table [("call", .text "list_resources"), ("kind", .text kind.text),
        ("namespace", Datum.ofOption .text space)]
  | .getResource kind space name =>
      .table [("call", .text "get_resource"), ("kind", .text kind.text),
        ("namespace", Datum.ofOption .text space), ("name", .text name)]
  | .updateResource kind r =>
      .table [("call", .text "update_resource"), ("kind", .text kind.text),
        ("namespace", Datum.ofOption .text r.space), ("name", .text r.name),
        ("finalizers", .array (r.finalizers.map .text))]

end Decommission
