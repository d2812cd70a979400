/-!
# Phases

A platform is decommissioned in two phases.  Components go first, then the
prerequisites they depend on.
-/

namespace Decommission

/-- One of the two phases. -/
inductive Phase
  | prerequisites
  | components
deriving DecidableEq, Repr, Inhabited

/-- The name of a phase in messages. -/
def Phase.text : Phase → String
  | .prerequisites => "uninstall-prerequisites"
  | .components => "uninstall-components"

end Decommission
