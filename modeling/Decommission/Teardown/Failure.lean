import Decommission.Resource

/-!
# Failures of a teardown

What can go wrong while namespaces are torn down.  A failure names the namespace
and the step.  A teardown collects all its failures and reports them together.
-/

namespace Decommission

/-- A step of the teardown of a namespace. -/
inductive TeardownStep
  | precheck
  /-- Clearing the finalizers of the resources of a kind. -/
  | clearFinalizers (kind : Kind)
  | deleteSpace
  /-- All that is left to the worker of the namespace, which died. -/
  | worker
  | collect
deriving DecidableEq, Repr

/-- The step in words. -/
def TeardownStep.text : TeardownStep → String
  | precheck => "pre-check"
  | clearFinalizers kind => "clear finalizers of " ++ kind.text
  | deleteSpace => "delete namespace"
  | worker => "worker"
  | collect => "collect failures"

/-- A step that failed. -/
structure TeardownFailure where
  space : String
  step : TeardownStep
  reason : String
deriving DecidableEq, Repr

/-- The failure in words. -/
def TeardownFailure.text (f : TeardownFailure) : String :=
  "namespace " ++ f.space ++ ": " ++ f.step.text ++ ": " ++ f.reason

/-- All that failed during a teardown. -/
structure TeardownError where
  failures : List TeardownFailure
deriving DecidableEq, Repr

/-- The error in words. -/
def TeardownError.message (e : TeardownError) : String :=
  "namespace teardown failed: " ++ "; ".intercalate (e.failures.map TeardownFailure.text)

/-- The failures in the order of their namespaces.  Failures of the same namespace
stay in the order in which they occurred. -/
def TeardownError.ofFailures (failures : List TeardownFailure) : TeardownError :=
  ⟨failures.mergeSort fun a b => a.space ≤ b.space⟩

end Decommission
