import Decommission.Budget
import Decommission.Component
import Decommission.Number.Width
import Decommission.Phase
import Decommission.Resource
import Decommission.Text.Quoted

/-!
# Notes

A decommissioning keeps a log.  A note is one entry of it, with the facts it
states.  `Note.line` lays a note out: a level, maybe the span of work it belongs
to, a message, and named facts.  `Line.text` is the line of the log.

Notes of the teardown are kept apart from the others, since its tasks take notes
in no fixed order.
-/

namespace Decommission

/-- How much a line matters. -/
inductive Level
  | trace | debug | info | warn | error
deriving DecidableEq, Repr

/-- The level as it is written. -/
def Level.text : Level → String
  | trace => "TRACE"
  | debug => "DEBUG"
  | info => "INFO"
  | warn => "WARN"
  | error => "ERROR"

/-- A named fact. -/
abbrev Fact := String × String

/-- A span of work, with the facts that hold throughout. -/
structure Span where
  name : String
  facts : List Fact

/-- A line of the log. -/
structure Line where
  level : Level
  span : Option Span := none
  message : String
  facts : List Fact := []

/-- Facts, separated by blanks. -/
def factsText (fs : List Fact) : String := " ".intercalate (fs.map fun f => f.1 ++ "=" ++ f.2)

/-- The span in front of a message. -/
def Span.text (s : Span) : String := s.name ++ "\x7b" ++ factsText s.facts ++ "\x7d: "

/-- The line as it is written. -/
def Line.text (l : Line) : String :=
  let span := (l.span.map Span.text).getD ""
  let facts := if l.facts.isEmpty then "" else " " ++ factsText l.facts
  l.level.text ++ " " ++ span ++ l.message ++ facts

/-- What a note states. -/
inductive Note
  | phaseStarted (phase : Phase) (budget : Budget)
  /-- The engine of a phase did not start. -/
  | engineRefused (phase : Phase) (error : String)
  | reported (phase : Phase) (name : String) (status : Status)
  /-- The engine of a phase was asked to wind down. -/
  | cancelling (phase : Phase)
  /-- Nobody waits for the engine of a phase any longer. -/
  | abandoned (phase : Phase)
  | phaseFinished (phase : Phase) (elapsed : Nat)
  | phaseFailed (phase : Phase) (elapsed : Nat) (error : String)
  /-- What was last heard of a component of a phase that failed. -/
  | lastStatus (phase : Phase) (name : String) (status : Status)
  /-- A pool stopped handing out components and waits for those under way. -/
  | draining (inFlight : Nat)
  /-- The namespaces to be torn down are known. -/
  | spacesFound (spaces : List String)
  /-- The first phase is done with, and so much time is left for the second. -/
  | rebalanced (elapsed : Duration) (left : Budget)
  | tearingDown (count : Nat)
  /-- Pods are running in a namespace that is to be torn down. -/
  | podsRunning (space : String) (attempt running : Nat)
  /-- A namespace is left alone because pods are running in it. -/
  | spaceSkipped (space : String) (running : Nat)
  | finalizersCleared (kind : Kind) (name : String)
  | spaceDeleted (space : String)
  | spaceGone (space : String)
  /-- A step of the teardown of a namespace failed. -/
  | stepFailed (space step error : String)
  | teardownFinished (count : Nat)
  | engineStarting (cancelled : Bool)
  | engineStarted
  | engineNotStarted (error : String)
  | uninstalling (c : Component)
  | uninstalled (c : Component)
  | notUninstalled (c : Component) (error : String)
  /-- A watched cluster listed the pods of a namespace. -/
  | podsListed (space : String) (count : Option Nat)
  /-- A watched cluster was asked to delete a namespace without a name. -/
  | deleteNameless
  /-- A watched cluster is about to delete a namespace. -/
  | deleting (space : String)
  | deleted (space : String)
  /-- A watched cluster does not know a namespace. -/
  | deleteMissed (space error : String)
  /-- A watched cluster did not delete a namespace. -/
  | deleteFailed (space error : String)
  | resourcesListed (kind : Kind) (space : Option String) (count : Option Nat)
  | resourceFetched (kind : Kind) (space : Option String) (name : String) (found : Bool)
  /-- A watched cluster is about to change a resource. -/
  | updating (kind : Kind) (r : Resource)
  | updated (kind : Kind) (r : Resource)
  /-- A watched cluster did not change a resource. -/
  | updateFailed (kind : Kind) (r : Resource) (error : String)
deriving DecidableEq

namespace Note

/-- A fact that is left out where there is nothing to state. -/
def maybe (name : String) : Option String → List Fact
  | none => []
  | some text => [(name, text)]

/-- Whole milliseconds as 64 bits show them. -/
def millisText (d : Duration) : String := toString (d.millis % range64)

/-- The span of a deletion. -/
def deleteSpan (space : String) : Span := ⟨"cluster.delete_namespace", [("namespace", space)]⟩

/-- The span of a change. -/
def updateSpan (kind : Kind) (r : Resource) : Span :=
  ⟨"cluster.update_resource", [("kind", kind.text), ("name", r.name)] ++ maybe "namespace" r.space⟩

/-- The span of a removal. -/
def removalSpan (c : Component) : Span :=
  ⟨"component.uninstall", [("component", c.name), ("namespace", c.space)]⟩

/-- The span of a start. -/
def engineSpan : Span := ⟨"engine.uninstall", [("engine", "traced")]⟩

/-- A note as a line. -/
def line : Note → Line
  | phaseStarted phase budget =>
      ⟨.info, none, "phase started",
        [("phase", phase.text), ("cancel_ms", millisText budget.cancel),
          ("quit_ms", millisText budget.quit)]⟩
  | engineRefused phase error =>
      ⟨.error, none, "phase engine failed to start", [("phase", phase.text), ("error", error)]⟩
  | reported phase name status =>
      ⟨.debug, none, "component status",
        [("phase", phase.text), ("component", name), ("status", status.text)]⟩
  | cancelling phase =>
      ⟨.warn, none, "timeout reached, cancelling phase engine", [("phase", phase.text)]⟩
  | abandoned phase =>
      ⟨.warn, none, "stopped waiting for phase engine, it may still be running",
        [("phase", phase.text)]⟩
  | phaseFinished phase elapsed =>
      ⟨.info, none, "phase finished", [("phase", phase.text), ("elapsed_ms", toString elapsed)]⟩
  | phaseFailed phase elapsed error =>
      ⟨.error, none, "phase failed",
        [("phase", phase.text), ("elapsed_ms", toString elapsed), ("error", error)]⟩
  | lastStatus phase name status =>
      ⟨.info, none, "last component status",
        [("phase", phase.text), ("component", name), ("status", status.text)]⟩
  | draining inFlight =>
      ⟨.info, none, "cancelled, waiting for running uninstalls",
        [("in_flight", toString inFlight)]⟩
  | spacesFound spaces =>
      ⟨.debug, none, "namespaces to tear down", [("namespaces", quotedList spaces)]⟩
  | rebalanced elapsed left =>
      ⟨.info, none, "components removed, rebalanced budget for prerequisites",
        [("elapsed_ms", millisText elapsed), ("cancel_ms", millisText left.cancel),
          ("quit_ms", millisText left.quit)]⟩
  | tearingDown count => ⟨.info, none, "tearing down namespaces", [("count", toString count)]⟩
  | podsRunning space attempt running =>
      ⟨.debug, none, "waiting for pods to stop",
        [("namespace", space), ("attempt", toString attempt), ("running", toString running)]⟩
  | spaceSkipped space running =>
      ⟨.info, none, "pods still running, skipping namespace",
        [("namespace", space), ("running", toString running)]⟩
  | finalizersCleared kind name =>
      ⟨.info, none, "finalizers cleared", [("kind", kind.text), ("name", name)]⟩
  | spaceDeleted space => ⟨.info, none, "namespace deleted", [("namespace", space)]⟩
  | spaceGone space => ⟨.info, none, "namespace already gone", [("namespace", space)]⟩
  | stepFailed space step error =>
      ⟨.warn, none, "namespace teardown step failed",
        [("namespace", space), ("step", step), ("error", error)]⟩
  | teardownFinished count =>
      ⟨.info, none, "namespace teardown finished", [("count", toString count)]⟩
  | engineStarting cancelled =>
      ⟨.info, some engineSpan, "starting", [("cancelled", toString cancelled)]⟩
  | engineStarted => ⟨.info, some engineSpan, "engine started", []⟩
  | engineNotStarted error =>
      ⟨.error, some engineSpan, "engine start failed", [("error", error)]⟩
  | uninstalling c => ⟨.info, some (removalSpan c), "uninstalling", []⟩
  | uninstalled c => ⟨.info, some (removalSpan c), "component removed", []⟩
  | notUninstalled c error =>
      ⟨.error, some (removalSpan c), "uninstall failed", [("error", error)]⟩
  | podsListed space count =>
      ⟨.trace, none, "listed pods",
        [("namespace", space)] ++ maybe "count" (count.map toString)⟩
  | deleteNameless => ⟨.error, some (deleteSpan ""), "namespace name is empty", []⟩
  | deleting space => ⟨.info, some (deleteSpan space), "deleting namespace", []⟩
  | deleted space => ⟨.info, some (deleteSpan space), "namespace deleted", []⟩
  | deleteMissed space error =>
      ⟨.info, some (deleteSpan space), "namespace not found", [("error", error)]⟩
  | deleteFailed space error =>
      ⟨.error, some (deleteSpan space), "delete failed", [("error", error)]⟩
  | resourcesListed kind space count =>
      ⟨.debug, none, "listed resources",
        [("kind", kind.text)] ++ maybe "namespace" space ++ maybe "count" (count.map toString)⟩
  | resourceFetched kind space name found =>
      ⟨.trace, none, "fetched resource",
        [("kind", kind.text)] ++ maybe "namespace" space ++
          [("name", name), ("found", toString found)]⟩
  | updating kind r =>
      ⟨.debug, some (updateSpan kind r), "updating",
        [("finalizers", toString r.finalizers.length)]⟩
  | updated kind r => ⟨.info, some (updateSpan kind r), "resource updated", []⟩
  | updateFailed kind r error =>
      ⟨.warn, some (updateSpan kind r), "update failed", [("error", error)]⟩

/-- Whether a note is taken by a watched cluster. -/
def isOfCluster : Note → Bool
  | podsListed .. | deleteNameless | deleting .. | deleted .. | deleteMissed .. | deleteFailed ..
  | resourcesListed .. | resourceFetched .. | updating .. | updated .. | updateFailed .. => true
  | _ => false

/-- Whether a note is taken by the teardown, or by the cluster it works on. -/
def isOfTeardown : Note → Bool
  | podsRunning .. | spaceSkipped .. | finalizersCleared .. | spaceDeleted .. | spaceGone ..
  | stepFailed .. | teardownFinished .. => true
  | n => n.isOfCluster

/-- The log line of a note. -/
def text (n : Note) : String := n.line.text

end Note

end Decommission
