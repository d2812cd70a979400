/-!
# Components and their status

A component is a deployed unit, known by its name and the namespace it lives
in.  An engine that removes components reports on each of them.  A report
carries a status, and the reason when that status is an error.
-/

namespace Decommission

/-- A unit to be removed. -/
structure Component where
  name : String
  space : String
deriving DecidableEq, Repr, Inhabited

/-- A component with both a name and a namespace. -/
def Component.isComplete (c : Component) : Bool := !c.name.isEmpty && !c.space.isEmpty

/-- How far the removal of a component has come. -/
inductive Status
  | pending | inProgress | success | error
deriving DecidableEq, Repr, Inhabited

/-- The status in messages. -/
def Status.text : Status → String
  | pending => "pending"
  | inProgress => "in-progress"
  | success => "success"
  | error => "error"

/-- What an engine says about one component. -/
structure Report where
  name : String
  space : String
  status : Status
  /-- Why it failed, if it did. -/
  error : Option String := none
deriving DecidableEq, Repr, Inhabited

namespace Report

/-- A report on a component without a reason. -/
def ofComponent (c : Component) (status : Status) : Report := ⟨c.name, c.space, status, none⟩

/-- The report of a removal that went well. -/
def removed (name space : String) : Report := ⟨name, space, .success, none⟩

/-- The report of a removal that failed. -/
def failed (name space reason : String) : Report := ⟨name, space, .error, some reason⟩

/-- Whether the report is of a failure. -/
def isError (r : Report) : Bool := r.status == .error

end Report

end Decommission
