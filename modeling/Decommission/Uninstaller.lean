import Decommission.Note

/-!
# Removing one component

An uninstaller removes one component at a time.  Each removal takes a while and
either goes well or fails.  Both may differ from removal to removal, so they are
functions of the component and of its position among those to be removed.

A removal is noted if the uninstaller is watched, and counted unless it is idle.
-/

namespace Decommission

/-- Why a component was not removed. -/
inductive RemovalError
  /-- The command that removes components could not be run. -/
  | command (reason : String)
  | failed (component reason : String)
deriving DecidableEq, Repr

/-- The error in words. -/
def RemovalError.message : RemovalError → String
  | command reason => "command failed: " ++ reason
  | failed component reason => "uninstall of " ++ component ++ " failed: " ++ reason

/-- How a removal ends: with an error, or well. -/
abbrev Verdict := Option RemovalError

/-- The report of a removal that ended. -/
def Verdict.report (c : Component) : Verdict → Report
  | none => .removed c.name c.space
  | some e => .failed c.name c.space e.message

/-- An uninstaller. -/
structure Uninstaller where
  /-- Whether removals are noted. -/
  watched : Bool := false
  /-- Whether removals are not counted. -/
  idle : Bool := false
  /-- Milliseconds the removal of the component at a position takes. -/
  delay : (position : Nat) → Component → Nat
  /-- How the removal of the component at a position ends. -/
  verdict : (position : Nat) → Component → Verdict

namespace Uninstaller

/-- The uninstaller that has nothing to do. -/
def nothing (watched : Bool) : Uninstaller where
  watched
  idle := true
  delay _ _ := 0
  verdict _ _ := none

/-- The uninstaller whose removals depend on the name of the component.  Certain
components take a time of their own, and certain components fail. -/
def byName (watched : Bool) (defaultDelay : Nat) (delays : List (String × Nat))
    (failures : List (String × String)) : Uninstaller where
  watched
  delay _ c := (delays.lookup c.name).getD defaultDelay
  verdict _ c := (failures.lookup c.name).map (.failed c.name)

/-- What is noted when a removal begins. -/
def startNotes (u : Uninstaller) (c : Component) : List Note :=
  if u.watched then [.uninstalling c] else []

/-- What is noted when a removal ends. -/
def endNotes (u : Uninstaller) (c : Component) (v : Verdict) : List Note :=
  if u.watched then
    match v with
    | none => [.uninstalled c]
    | some e => [.notUninstalled c e.message]
  else []

end Uninstaller

end Decommission
