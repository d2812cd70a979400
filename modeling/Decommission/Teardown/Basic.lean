import Decommission.Course
import Decommission.Retry
import Decommission.Teardown.Worker

/-!
# Teardown of several namespaces

A teardown takes its namespaces in order and looks whether pods are running in
them, as often as its policy says.  A namespace in which pods keep running is
left alone.  A namespace that cannot be looked at is a failure.  Every other one
is handed to a worker of its own, which works on while the next namespace is
looked at.

At the end the teardown waits for all its workers.  It has failed if anything
has.  Only in the system namespace are finalizers cleared.

`Teardown.step?` is the step of the coordinator, `Teardown.assist?` is what the
workers do meanwhile.
-/

namespace Decommission

/-- How far the coordinator of a teardown has come. -/
inductive Teardown.Stage
  /-- About to look at the first of the namespaces left, which could not be handed
  over a number of times. -/
  | checking (failed : Nat) (rest : List String)
  /-- Waiting before it looks at that namespace again. -/
  | pausing (due failed : Nat) (rest : List String)
  /-- Waiting for the workers, from a certain one on. -/
  | joining (next : Nat)
  | ended (result : Except TeardownError Unit)

/-- A teardown and the cluster it works on. -/
structure Teardown (κ : Type) where
  /-- How often to look whether pods are running. -/
  policy : RetryPolicy
  systemSpace : String
  targets : List Target
  spaces : List String
  stage : Teardown.Stage
  /-- The workers, in the order in which they were started. -/
  workers : List Worker := []
  /-- What has failed so far, in the order in which it failed. -/
  failures : List TeardownFailure := []
  cluster : κ

namespace Teardown

variable {κ : Type} [Cluster κ]

/-- A teardown at its beginning. -/
def start (policy : RetryPolicy) (systemSpace : String) (targets : List Target)
    (spaces : List String) (cluster : κ) : Teardown κ where
  policy
  systemSpace
  targets
  spaces
  stage := .checking 0 spaces
  cluster

/-! ## The coordinator -/

/-- Why a dead worker has failed. -/
def deathReason : String := "the worker died"

/-- Add failures, and let them be noted. -/
def fail (t : Teardown κ) (fs : List TeardownFailure) : List Event × Teardown κ :=
  (Worker.failureEvents fs, { t with failures := t.failures ++ fs })

/-- The targets of a namespace. -/
def targetsOf (t : Teardown κ) (space : String) : List Target :=
  if space = t.systemSpace then t.targets else []

/-- Hand a namespace over to a worker. -/
def handOver (t : Teardown κ) (space : String) : Teardown κ :=
  { t with workers := t.workers ++ [.start space (t.targetsOf space)] }

/-- The number of running pods. -/
def countRunning (pods : List Pod) : Nat := pods.countP Pod.isRunning

/-- Where the coordinator goes on after it failed to hand a namespace over: it
waits, or gives the namespace up. -/
def retryOr (t : Teardown κ) (now failed : Nat) (space : String) (rest : List String)
    (giveUp : Teardown κ → List Event × Teardown κ) : List Event × Teardown κ :=
  match t.policy.next? failed with
  | some wait => ([], { t with stage := .pausing (tickAfter now wait) failed (space :: rest) })
  | none => giveUp { t with stage := .checking 0 rest }

/-- Look whether pods are running in a namespace, which could not be handed over
`failed` times before. -/
def check (t : Teardown κ) (now failed : Nat) (space : String) (rest : List String) :
    List Event × Teardown κ :=
  let r := Cluster.listPods space t.cluster
  let called := Worker.callEvents (.listPods space) r
  let t := { t with cluster := r.cluster }
  match r.answer with
  | .ok pods =>
      let running := countRunning pods
      if running = 0 then (called, { t.handOver space with stage := .checking 0 rest })
      else
        let noted := .note (.podsRunning space (failed + 1) running)
        let (events, t) := t.retryOr now (failed + 1) space rest fun t =>
          ([.note (.spaceSkipped space running)], t)
        (called ++ noted :: events, t)
  | .error e =>
      let (events, t) := t.retryOr now (failed + 1) space rest fun t =>
        t.fail [⟨space, .precheck, e.message⟩]
      (called ++ events, t)

/-- The result once all workers are over. -/
def conclude (t : Teardown κ) : List Event × Teardown κ :=
  if t.failures.isEmpty then
    ([.note (.teardownFinished t.spaces.length)], { t with stage := .ended (.ok ()) })
  else ([], { t with stage := .ended (.error (.ofFailures t.failures)) })

/-- Wait for a worker. -/
def join (t : Teardown κ) (next : Nat) (w : Worker) : Option (List Event × Teardown κ) :=
  if w.isOver then
    let t := { t with stage := .joining (next + 1) }
    some (if w.died then t.fail [⟨w.space, .worker, deathReason⟩] else ([], t))
  else none

/-- The next step of the coordinator at the millisecond `now`, unless it has to
wait. -/
def step? (now : Nat) (t : Teardown κ) : Option (List Event × Teardown κ) :=
  match t.stage with
  | .checking _ [] => some ([], { t with stage := .joining 0 })
  | .checking failed (space :: rest) => some (t.check now failed space rest)
  | .pausing due failed rest =>
      if due ≤ now then some ([], { t with stage := .checking failed rest }) else none
  | .joining next =>
      match t.workers[next]? with
      | some w => t.join next w
      | none => some t.conclude
  | .ended _ => none

/-- The result, once there is one. -/
def result? (t : Teardown κ) : Option (Except TeardownError Unit) :=
  match t.stage with
  | .ended result => some result
  | _ => none

/-- When the coordinator has to be looked at again. -/
def alarm? (t : Teardown κ) : Option Nat :=
  match t.stage with
  | .pausing due _ _ => some due
  | _ => none

/-! ## The workers -/

/-- What came of the work of several workers. -/
structure CrewTurn (κ : Type) where
  workers : List Worker
  cluster : κ
  events : List Event
  failures : List TeardownFailure

/-- Workers do all their errands, one worker after the other. -/
def runAll (k : κ) : List Worker → CrewTurn κ
  | [] => ⟨[], k, [], []⟩
  | w :: ws =>
      let first := w.run k
      let others := runAll first.cluster ws
      ⟨first.worker :: others.workers, others.cluster, first.events ++ others.events,
        first.failures ++ others.failures⟩

/-- The workers do all that is left for them, if there is anything. -/
def assist? (t : Teardown κ) : Option (List Event × Teardown κ) :=
  if t.workers.all Worker.isOver then none
  else
    let crew := runAll t.cluster t.workers
    some (crew.events,
      { t with
        workers := crew.workers
        cluster := crew.cluster
        failures := t.failures ++ crew.failures })

/-- The worker at a position does its next errand. -/
def workerStep? (t : Teardown κ) (i : Nat) : Option (List Event × Teardown κ) := do
  let w ← t.workers[i]?
  let turn ← w.step? t.cluster
  some (turn.events,
    { t with
      workers := t.workers.set i turn.worker
      cluster := turn.cluster
      failures := t.failures ++ turn.failures })

instance : Director (Teardown κ) where
  step? g := step? g.now
  assist? := assist?
  alarm? := alarm?
  isOver t := t.result?.isSome
  steps t := t.spaces.length * (2 * t.policy.attempts + 4) + 4

/-- Tear namespaces down to the end. -/
def conduct (t : Teardown κ) (site : Site) : Course (Teardown κ) := Course.run ⟨t, site⟩

end Teardown

end Decommission
