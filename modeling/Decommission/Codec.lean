import Decommission.Config
import Decommission.Datum
import Decommission.Progress
import Decommission.Time.Span.Reader

/-!
# Domain values as data

For each type that is written down, `toDatum` gives its data and `ofDatum?` reads
it back.  Enumerated values go by their names, durations by their span text, and
records by the names of their fields.  Fields that no record of the type knows
are ignored.  In settings, policies and inventories a missing field takes its
default.  Elsewhere a field may be missing only where its reader says so.
-/

namespace Decommission

/-- The data of a value or of nothing. -/
def Datum.ofOption {α : Type} (f : α → Datum) : Option α → Datum
  | none => .null
  | some a => f a

/-- The name of a value among named choices, as data. -/
def Datum.ofChoice {α : Type} [DecidableEq α] (choices : List (String × α)) (a : α) : Datum :=
  match choices.find? fun c => c.2 = a with
  | some c => .text c.1
  | none => .null

/-! ## Enumerated values -/

/-- The written names of the phases. -/
def Phase.choices : List (String × Phase) :=
  [("prerequisites", .prerequisites), ("components", .components)]

/-- The written names of the statuses. -/
def Status.choices : List (String × Status) :=
  [("pending", .pending), ("in-progress", .inProgress), ("success", .success), ("error", .error)]

/-- The written names of the milestones. -/
def Milestone.choices : List (String × Milestone) :=
  [("start", .start), ("running", .running), ("finished", .finished),
   ("component-failure", .componentFailure), ("timeout-failure", .timeoutFailure),
   ("force-quit-failure", .forceQuitFailure)]

/-- The written names of the kinds of backoff. -/
def Backoff.choices : List (String × Backoff) :=
  [("fixed", .fixed), ("exponential", .exponential)]

/-- A phase by its name. -/
def Phase.toDatum : Phase → Datum := Datum.ofChoice Phase.choices

/-- Read a phase by its name. -/
def Phase.ofDatum? (l : Dialect) : Datum → Option Phase := Datum.choice? l Phase.choices

/-- A status by its name. -/
def Status.toDatum : Status → Datum := Datum.ofChoice Status.choices

/-- Read a status by its name. -/
def Status.ofDatum? (l : Dialect) : Datum → Option Status := Datum.choice? l Status.choices

/-- A milestone by its name. -/
def Milestone.toDatum : Milestone → Datum := Datum.ofChoice Milestone.choices

/-- Read a milestone by its name. -/
def Milestone.ofDatum? (l : Dialect) : Datum → Option Milestone :=
  Datum.choice? l Milestone.choices

/-- A kind of backoff by its name. -/
def Backoff.toDatum : Backoff → Datum := Datum.ofChoice Backoff.choices

/-- Read a kind of backoff by its name. -/
def Backoff.ofDatum? (l : Dialect) : Datum → Option Backoff := Datum.choice? l Backoff.choices

/-! ## Durations -/

/-- A duration as its span text. -/
def Duration.toDatum (d : Duration) : Datum := .text d.span

/-- Read a duration from a span text. -/
def Duration.ofDatum? (d : Datum) : Option Duration := d.text?.bind Duration.ofSpan?

/-! ## Components, reports and updates -/

/-- A component as a record. -/
def Component.toDatum (c : Component) : Datum :=
  .table [("name", .text c.name), ("namespace", .text c.space)]

/-- Read a component. -/
def Component.ofDatum? (l : Dialect) (d : Datum) : Option Component := do
  let es ← d.entries? l ["name", "namespace"]
  let name ← es.require "name" Datum.text?
  let space ← es.require "namespace" Datum.text?
  some ⟨name, space⟩

/-- A report as a record. -/
def Report.toDatum (r : Report) : Datum :=
  .table [("name", .text r.name), ("namespace", .text r.space), ("status", r.status.toDatum),
    ("error", Datum.ofOption .text r.error)]

/-- Read a report.  The reason may be missing. -/
def Report.ofDatum? (l : Dialect) (d : Datum) : Option Report := do
  let es ← d.entries? l ["name", "namespace", "status", "error"]
  let name ← es.require "name" Datum.text?
  let space ← es.require "namespace" Datum.text?
  let status ← es.require "status" (Status.ofDatum? l)
  let error ← es.optional "error" Datum.text?
  some ⟨name, space, status, error⟩

/-- An update as a record. -/
def Update.toDatum (u : Update) : Datum :=
  .table [("event", u.milestone.toDatum), ("phase", u.phase.toDatum),
    ("component", Datum.ofOption Report.toDatum u.report),
    ("error", Datum.ofOption .text u.error)]

/-- Read an update.  The report and the reason may be missing. -/
def Update.ofDatum? (l : Dialect) (d : Datum) : Option Update := do
  let es ← d.entries? l ["event", "phase", "component", "error"]
  let milestone ← es.require "event" (Milestone.ofDatum? l)
  let phase ← es.require "phase" (Phase.ofDatum? l)
  let report ← es.optional "component" (Report.ofDatum? l)
  let error ← es.optional "error" Datum.text?
  some ⟨milestone, phase, report, error⟩

/-! ## Policies, settings and inventories -/

/-- The fields of a policy. -/
def RetryPolicy.fields : List String := ["attempts", "delay", "backoff", "max_delay"]

/-- A policy as a record. -/
def RetryPolicy.toDatum (p : RetryPolicy) : Datum :=
  .table [("attempts", .whole p.attempts), ("delay", p.delay.toDatum),
    ("backoff", p.backoff.toDatum), ("max_delay", Datum.ofOption Duration.toDatum p.maxDelay)]

/-- Read a policy.  Missing fields take their defaults. -/
def RetryPolicy.ofDatum? (l : Dialect) (d : Datum) : Option RetryPolicy := do
  let es ← d.entries? l RetryPolicy.fields
  let given := RetryPolicy.standard
  let attempts ← es.default "attempts" (Datum.below? range32) ⟨given.attempts, given.attempts_lt⟩
  let delay ← es.default "delay" Duration.ofDatum? given.delay
  let backoff ← es.default "backoff" (Backoff.ofDatum? l) given.backoff
  let maxDelay ← es.default "max_delay" (Datum.nullable? Duration.ofDatum?) given.maxDelay
  some ⟨attempts.1, attempts.2, delay, backoff, maxDelay⟩

/-- The fields of settings. -/
def Config.fields : List String :=
  ["cancel_timeout", "quit_timeout", "workers", "system_namespace", "legacy_namespace", "retry"]

/-- Settings as a record. -/
def Config.toDatum (c : Config) : Datum :=
  .table [("cancel_timeout", c.cancelTimeout.toDatum), ("quit_timeout", c.quitTimeout.toDatum),
    ("workers", .whole c.workers), ("system_namespace", .text c.systemNamespace),
    ("legacy_namespace", .text c.legacyNamespace), ("retry", c.retry.toDatum)]

/-- Read settings.  Missing fields take their defaults. -/
def Config.ofDatum? (l : Dialect) (d : Datum) : Option Config := do
  let es ← d.entries? l Config.fields
  let given := Config.standard
  let cancelTimeout ← es.default "cancel_timeout" Duration.ofDatum? given.cancelTimeout
  let quitTimeout ← es.default "quit_timeout" Duration.ofDatum? given.quitTimeout
  let workers ← es.default "workers" (Datum.below? range64) ⟨given.workers, given.workers_lt⟩
  let systemNamespace ← es.default "system_namespace" Datum.text? given.systemNamespace
  let legacyNamespace ← es.default "legacy_namespace" Datum.text? given.legacyNamespace
  let retry ← es.default "retry" (RetryPolicy.ofDatum? l) given.retry
  some ⟨cancelTimeout, quitTimeout, workers.1, workers.2, systemNamespace, legacyNamespace, retry⟩

/-- An inventory as a record. -/
def Inventory.toDatum (i : Inventory) : Datum :=
  .table [("prerequisites", .array (i.prerequisites.map Component.toDatum)),
    ("components", .array (i.components.map Component.toDatum))]

/-- Read an inventory.  A list that is missing is empty. -/
def Inventory.ofDatum? (l : Dialect) (d : Datum) : Option Inventory := do
  let es ← d.entries? l ["prerequisites", "components"]
  let prerequisites ← es.default "prerequisites" (Datum.list? (Component.ofDatum? l)) []
  let components ← es.default "components" (Datum.list? (Component.ofDatum? l)) []
  some ⟨prerequisites, components⟩

end Decommission
