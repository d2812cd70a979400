import Decommission.Budget
import Decommission.Component
import Decommission.Number.Width
import Decommission.Retry
import Decommission.Text.Quoted
import Decommission.Time.Decimal

/-!
# Settings and inventories

`Config` holds the settings of a decommissioning.  `Inventory` lists what is to
be removed in each phase.  Both come from files and are checked before use.

A check stops at the first defect it finds.  Timeouts are looked at first, then
the number of workers, the number of attempts, and the names of the namespaces.
An inventory is searched from its first prerequisite to its last component.
-/

namespace Decommission

/-- The settings of a decommissioning. -/
structure Config where
  /-- When a running engine is asked to wind down. -/
  cancelTimeout : Duration := .ofSecs 1200
  quitTimeout : Duration := .ofSecs 1500
  /-- How many components of a phase are removed at the same time. -/
  workers : Nat := 4
  /-- Workers are counted in 64 bits. -/
  workers_lt : workers < range64 := by decide
  /-- The namespace whose resources have their finalizers cleared. -/
  systemNamespace : String := "kyma-system"
  /-- A namespace that is always torn down. -/
  legacyNamespace : String := "kyma-installer"
  /-- How often to look whether a namespace is still in use. -/
  retry : RetryPolicy := .standard
deriving DecidableEq

/-- The settings that hold where none are given. -/
def Config.standard : Config := {}

instance : Inhabited Config := ⟨.standard⟩

/-- What is to be removed. -/
structure Inventory where
  /-- The components of the second phase. -/
  prerequisites : List Component := []
  /-- The components of the first phase. -/
  components : List Component := []
deriving DecidableEq, Inhabited

/-- What is wrong with settings or with an inventory. -/
inductive Defect
  /-- The soft timeout is not shorter than the hard one. -/
  | timeouts (cancel quit : Duration)
  | noWorkers
  | noAttempts
  | namelessSpace
  /-- A component lacks its name or its namespace. -/
  | incomplete (c : Component)
  | stated (text : String)
deriving DecidableEq

/-- A component as messages show it. -/
def Component.shown (c : Component) : String :=
  "ComponentSpec \x7b name: " ++ quoted c.name ++ ", namespace: " ++ quoted c.space ++ " \x7d"

/-- The defect in words. -/
def Defect.text : Defect → String
  | timeouts cancel quit =>
      "cancel_timeout (" ++ cancel.decimal ++ ") must be shorter than quit_timeout ("
        ++ quit.decimal ++ ")"
  | noWorkers => "workers must be at least 1"
  | noAttempts => "retry.attempts must be at least 1"
  | namelessSpace => "namespace names must not be empty"
  | incomplete c => "component entries need a name and a namespace: " ++ c.shown
  | stated text => text

/-- Why there are no settings, or no inventory. -/
inductive ConfigError
  | read (path reason : String)
  /-- The text is not of the right form. -/
  | parse
  | invalid (defect : Defect)
deriving DecidableEq

/-- The error in words. -/
def ConfigError.message : ConfigError → String
  | read path reason => "failed to read " ++ path ++ ": " ++ reason
  | parse => "failed to parse config"
  | invalid defect => "invalid config: " ++ defect.text

namespace Config

/-- The first defect of settings. -/
def defect? (c : Config) : Option Defect :=
  if c.quitTimeout ≤ c.cancelTimeout then some (.timeouts c.cancelTimeout c.quitTimeout)
  else if c.workers = 0 then some .noWorkers
  else if c.retry.attempts = 0 then some .noAttempts
  else if c.systemNamespace.isEmpty || c.legacyNamespace.isEmpty then some .namelessSpace
  else none

/-- The settings, if there is nothing wrong with them. -/
def validate (c : Config) : Except ConfigError Unit :=
  match c.defect? with
  | some d => .error (.invalid d)
  | none => .ok ()

theorem defect?_eq_none_iff {c : Config} :
    c.defect? = none ↔ c.cancelTimeout < c.quitTimeout ∧ 0 < c.workers ∧
      0 < c.retry.attempts ∧ ¬ c.systemNamespace.isEmpty ∧ ¬ c.legacyNamespace.isEmpty := by
  rw [defect?, Duration.lt_iff, ← Nat.not_le, Nat.pos_iff_ne_zero, Nat.pos_iff_ne_zero]
  split
  · rename_i hle
    exact iff_of_false (fun h => nomatch h) fun h => h.1 hle
  · split
    · exact iff_of_false (fun h => nomatch h) fun h => h.2.1 ‹_›
    · split
      · exact iff_of_false (fun h => nomatch h) fun h => h.2.2.1 ‹_›
      · split
        · rename_i hname
          refine iff_of_false (fun h => nomatch h) fun h => ?_
          rcases Bool.or_eq_true_iff.mp hname with hn | hn
          · exact h.2.2.2.1 hn
          · exact h.2.2.2.2 hn
        · rename_i hle hworkers hattempts hname
          rw [Bool.or_eq_true, not_or] at hname
          exact iff_of_true rfl ⟨hle, hworkers, hattempts, hname⟩

/-- What the check asks for. -/
theorem validate_eq_ok_iff {c : Config} :
    c.validate = .ok () ↔ c.cancelTimeout < c.quitTimeout ∧ 0 < c.workers ∧
      0 < c.retry.attempts ∧ ¬ c.systemNamespace.isEmpty ∧ ¬ c.legacyNamespace.isEmpty := by
  rw [← defect?_eq_none_iff, validate]
  cases c.defect? with
  | none => exact iff_of_true rfl rfl
  | some d => exact iff_of_false (fun h => nomatch h) (fun h => nomatch h)

/-- The time that the first phase may take. -/
def budget (c : Config) : Budget := ⟨c.cancelTimeout, c.quitTimeout⟩

end Config

namespace Inventory

/-- The first defect of an inventory. -/
def defect? (i : Inventory) : Option Defect :=
  ((i.prerequisites ++ i.components).find? fun c => !c.isComplete).map .incomplete

/-- The inventory is usable if there is nothing wrong with it. -/
def validate (i : Inventory) : Except ConfigError Unit :=
  match i.defect? with
  | some d => .error (.invalid d)
  | none => .ok ()

end Inventory

end Decommission
