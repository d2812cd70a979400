import Decommission.Config
import Decommission.Supervision
import Decommission.Teardown.Basic

/-!
# Decommissioning a platform

A deletion first looks up the namespaces of the installation.  Then it removes
the components under supervision, then the prerequisites with the time that is
left, and at last it tears the namespaces down.  The legacy namespace is torn
down in any case, after the others.

The first stage that fails ends the deletion, and its error is the result.
-/

namespace Decommission

/-- Why a deletion failed. -/
inductive DeletionError
  | config (e : ConfigError)
  | metadata (reason : String)
  | phase (e : PhaseError)
  | teardown (e : TeardownError)
deriving DecidableEq

/-- The error in words. -/
def DeletionError.message : DeletionError → String
  | config e => e.message
  | metadata reason => "metadata lookup failed: " ++ reason
  | phase e => e.message
  | teardown e => e.message

/-- What an installation has recorded of its namespaces. -/
structure Metadata where
  /-- The namespaces, or why they cannot be looked up. -/
  answer : Except String (List String)
  /-- Whether looking them up is an event. -/
  counted : Bool := true

/-- An installation that has recorded nothing. -/
def Metadata.nothing : Metadata := ⟨.ok [], false⟩

/-- How far a deletion has come. -/
inductive Deletion.Stage (κ : Type)
  | looking
  /-- Removing the components, since the measuring clock showed a certain
  instant. -/
  | components (spaces : List String) (since : Nat) (s : Supervision)
  | prerequisites (spaces : List String) (s : Supervision)
  | tearing (t : Teardown κ)
  | ended (result : Except DeletionError Unit)

/-- The decommissioning of one platform. -/
structure Deletion (κ : Type) where
  config : Config
  metadata : Metadata
  cluster : κ
  stage : Deletion.Stage κ := .looking

namespace Deletion

variable {κ : Type}

/-- A deletion with usable settings, before it has done anything. -/
def new? (config : Config) (metadata : Metadata) (cluster : κ) :
    Except DeletionError (Deletion κ) :=
  match config.validate with
  | .ok _ => .ok { config, metadata, cluster }
  | .error e => .error (.config e)

/-- The deletion once more, with the cluster as it is now. -/
def again (d : Deletion κ) : Deletion κ := { d with stage := .looking }

/-- The engine that removes the components. -/
def componentsEngine : Nat := 0

/-- The engine that removes the prerequisites. -/
def prerequisitesEngine : Nat := 1

/-- The namespaces to be torn down. -/
def spacesWith (d : Deletion κ) (recorded : List String) : List String :=
  recorded ++ [d.config.legacyNamespace]

/-- The result, once there is one. -/
def result? (d : Deletion κ) : Option (Except DeletionError Unit) :=
  match d.stage with
  | .ended result => some result
  | _ => none

/-- End the deletion. -/
def finish (d : Deletion κ) (result : Except DeletionError Unit) : Deletion κ :=
  { d with stage := .ended result }

/-- Look the namespaces up, and begin to remove the components. -/
def lookUp (g : Glance) (d : Deletion κ) : List Event × Deletion κ :=
  let looked := if d.metadata.counted then [.lookedUp] else []
  match d.metadata.answer with
  | .error reason => (looked, d.finish (.error (.metadata reason)))
  | .ok recorded =>
      let spaces := d.spacesWith recorded
      let s := Supervision.start .components componentsEngine d.config.budget g.now
      (looked ++ [.note (.spacesFound spaces), .signalMade] ++ s.opening,
        { d with stage := .components spaces g.reading s })

/-- The time that is left, and the time that has gone by, since the measuring clock
showed an instant. -/
def rebalance (g : Glance) (d : Deletion κ) (since : Nat) : Duration × Budget :=
  let elapsed := Duration.ofNanos (g.reading - since)
  (elapsed, d.config.budget.remaining elapsed)

/-- Go on once a phase run is over: with `next` if it went well, and not at all
otherwise. -/
def afterPhase (d : Deletion κ) (events : List Event) (result : Except PhaseError Unit)
    (next : List Event × Deletion κ) : List Event × Deletion κ :=
  match result with
  | .ok _ => (events ++ next.1, next.2)
  | .error e => (events, d.finish (.error (.phase e)))

/-- Begin to remove the prerequisites in the time that is left. -/
def beginPrerequisites (g : Glance) (d : Deletion κ) (spaces : List String) (since : Nat) :
    List Event × Deletion κ :=
  let (elapsed, left) := d.rebalance g since
  let s := Supervision.start .prerequisites prerequisitesEngine left g.now
  (.note (.rebalanced elapsed left) :: s.opening, { d with stage := .prerequisites spaces s })

variable [Cluster κ]

/-- Go on with a teardown. -/
def withTeardown (d : Deletion κ) (t : Teardown κ) : Deletion κ :=
  match t.result? with
  | some (.ok _) => { d with cluster := t.cluster, stage := .ended (.ok ()) }
  | some (.error e) => { d with cluster := t.cluster, stage := .ended (.error (.teardown e)) }
  | none => { d with cluster := t.cluster, stage := .tearing t }

/-- Begin to tear the namespaces down. -/
def beginTeardown (d : Deletion κ) (spaces : List String) : List Event × Deletion κ :=
  ([.note (.tearingDown spaces.length)],
    d.withTeardown
      (.start d.config.retry d.config.systemNamespace stuckTargets spaces d.cluster))

/-- The next step at a glance, unless there is nothing to do but wait. -/
def step? (g : Glance) (d : Deletion κ) : Option (List Event × Deletion κ) :=
  match d.stage with
  | .looking => some (d.lookUp g)
  | .components spaces since s =>
      match s.look g with
      | none => none
      | some (events, s) =>
          match s.result? with
          | some result => some (d.afterPhase events result (d.beginPrerequisites g spaces since))
          | none => some (events, { d with stage := .components spaces since s })
  | .prerequisites spaces s =>
      match s.look g with
      | none => none
      | some (events, s) =>
          match s.result? with
          | some result => some (d.afterPhase events result (d.beginTeardown spaces))
          | none => some (events, { d with stage := .prerequisites spaces s })
  | .tearing t => (t.step? g.now).map fun (events, t) => (events, d.withTeardown t)
  | .ended _ => none

/-- What the workers of the teardown do meanwhile. -/
def assist? (d : Deletion κ) : Option (List Event × Deletion κ) :=
  match d.stage with
  | .tearing t => t.assist?.map fun (events, t) => (events, d.withTeardown t)
  | _ => none

/-- When the deletion has to be looked at again. -/
def alarm? (d : Deletion κ) : Option Nat :=
  match d.stage with
  | .components _ _ s => s.alarm?
  | .prerequisites _ s => s.alarm?
  | .tearing t => t.alarm?
  | _ => none

/-- The number of namespaces to be torn down. -/
def spaceCount (d : Deletion κ) : Nat :=
  match d.metadata.answer with
  | .ok recorded => recorded.length + 1
  | .error _ => 0

instance : Director (Deletion κ) where
  step? := step?
  assist? := assist?
  alarm? := alarm?
  isOver d := d.result?.isSome
  steps d := d.spaceCount * (2 * d.config.retry.attempts + 4) + 16

/-- Decommission the platform at a site. -/
def conduct (d : Deletion κ) (site : Site) : Course (Deletion κ) := Course.run ⟨d, site⟩

end Deletion

end Decommission
