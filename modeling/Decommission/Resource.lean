/-!
# Pods and resources

The parts of a cluster that the teardown of a namespace looks at.  Pods show
whether a namespace is still in use.  Resources with finalizers keep a
namespace from going away.  A target says which resources have their finalizers
cleared before the system namespace is deleted.
-/

namespace Decommission

/-- Where a pod is in its life. -/
inductive PodPhase
  | pending | running | succeeded | failed | unknown
deriving DecidableEq, Repr, Inhabited

/-- A pod. -/
structure Pod where
  name : String
  phase : PodPhase
deriving DecidableEq, Repr, Inhabited

/-- Whether the pod is running. -/
def Pod.isRunning (p : Pod) : Bool := p.phase == .running

/-- A type of resource. -/
structure Kind where
  /-- The group of the type, empty for the core group. -/
  group : String
  version : String
  plural : String
deriving DecidableEq, Repr, Inhabited

/-- The type as text, without the group if that is the core group. -/
def Kind.text (k : Kind) : String :=
  if k.group.isEmpty then k.version ++ "/" ++ k.plural
  else k.group ++ "/" ++ k.version ++ "/" ++ k.plural

/-- A resource, as far as its finalizers are concerned. -/
structure Resource where
  name : String
  /-- Its namespace, if it lives in one. -/
  space : Option String
  /-- What has to be done before it may go. -/
  finalizers : List String
deriving DecidableEq, Repr, Inhabited

/-- The resource with nothing left to be done before it may go. -/
def Resource.cleared (r : Resource) : Resource := { r with finalizers := [] }

/-- Where resources of a kind live. -/
inductive Scope
  | cluster
  | namespaced
deriving DecidableEq, Repr, Inhabited

/-- Resources to be cleared. -/
structure Target where
  kind : Kind
  scope : Scope
  /-- The name of the only one that is meant, or nothing for all of them. -/
  name : Option String := none
deriving DecidableEq, Repr, Inhabited

/-- Where to look for the target while a namespace is torn down. -/
def Target.spaceIn (t : Target) (space : String) : Option String :=
  match t.scope with
  | .cluster => none
  | .namespaced => some space

/-- The resources that are known to keep the system namespace from going away, in
the order in which they are cleared. -/
def stuckTargets : List Target :=
  [⟨⟨"servicecatalog.k8s.io", "v1beta1", "clusterservicebrokers"⟩, .cluster, none⟩,
   ⟨⟨"servicecatalog.k8s.io", "v1beta1", "servicebrokers"⟩, .namespaced, none⟩,
   ⟨⟨"", "v1", "secrets"⟩, .namespaced, some "serverless-registry-config-default"⟩,
   ⟨⟨"oathkeeper.ory.sh", "v1alpha1", "rules"⟩, .namespaced, none⟩]

end Decommission
