import Decommission.Event
import Decommission.Teardown.Failure

/-!
# Teardown of one namespace

A worker tears one namespace down.  It clears the finalizers of the resources
that its targets select, and then deletes the namespace.  Its errands say what
is left to do.  Fetching the resources of a target puts one errand in front for
each of them that has finalizers.

What does not exist counts as done.  Any other error is a failure, which leaves
the other errands as they are.  Only a deletion can kill the worker.

`Worker.step?` does one errand, which is one call to the cluster.  `Worker.run`
does all of them.  Fetches grow fewer and put no fetches in front, so it ends.
-/

namespace Decommission

/-- What a worker has to do. -/
inductive Errand
  | fetch (t : Target)
  | clear (kind : Kind) (r : Resource)
  | delete
deriving DecidableEq

/-- Whether the errand is a fetch. -/
def Errand.isFetch : Errand → Bool
  | fetch _ => true
  | _ => false

/-- What tears a namespace down. -/
structure Worker where
  space : String
  errands : List Errand
  /-- Whether it died. -/
  died : Bool := false
deriving DecidableEq

/-- What came of the work of a worker. -/
structure WorkerTurn (κ : Type) where
  worker : Worker
  cluster : κ
  events : List Event := []
  failures : List TeardownFailure := []

namespace Worker

variable {κ : Type} [Cluster κ]

/-- A worker that has done nothing yet. -/
def start (space : String) (targets : List Target) : Worker :=
  ⟨space, targets.map .fetch ++ [.delete], false⟩

/-- Whether nothing more comes of the worker. -/
def isOver (w : Worker) : Bool := w.errands.isEmpty

/-- The number of fetches left. -/
def fetches (w : Worker) : Nat := w.errands.countP Errand.isFetch

/-- What a failure lets happen. -/
def failureEvents (fs : List TeardownFailure) : List Event :=
  fs.map fun f => .note (.stepFailed f.space f.step.text f.reason)

/-- The failure that an error makes of a step.  What does not exist is no
failure. -/
def failuresOf (w : Worker) (step : TeardownStep) (e : ClusterError) : List TeardownFailure :=
  if e.isMissing then [] else [⟨w.space, step, e.message⟩]

/-- The call that fetches the resources of a target. -/
def fetchCall (w : Worker) (t : Target) : Call :=
  match t.name with
  | some name => .getResource t.kind (t.spaceIn w.space) name
  | none => .listResources t.kind (t.spaceIn w.space)

/-- Fetch the resources of a target. -/
def fetchFrom (w : Worker) (t : Target) (k : κ) : Reply κ (Except ClusterError (List Resource)) :=
  match t.name with
  | some name =>
      let r := Cluster.getResource t.kind (t.spaceIn w.space) name k
      ⟨r.answer.map fun x => [x], r.cluster, r.notes⟩
  | none => Cluster.listResources t.kind (t.spaceIn w.space) k

/-- The errands that follow from fetched resources. -/
def clearing (kind : Kind) (rs : List Resource) : List Errand :=
  (rs.filter fun r => !r.finalizers.isEmpty).map fun r => .clear kind r.cleared

/-- What happens in a call, the notes of the cluster included. -/
def callEvents {α : Type} (call : Call) (r : Reply κ α) : List Event :=
  .called call :: r.notes.map .note

/-- Fetch the resources of a target, with `rest` left to do afterwards. -/
def doFetch (w : Worker) (t : Target) (rest : List Errand) (k : κ) : WorkerTurn κ :=
  let r := w.fetchFrom t k
  let events := callEvents (w.fetchCall t) r
  match r.answer with
  | .ok rs => ⟨{ w with errands := clearing t.kind rs ++ rest }, r.cluster, events, []⟩
  | .error e =>
      let failures := w.failuresOf (.clearFinalizers t.kind) e
      ⟨{ w with errands := rest }, r.cluster, events ++ failureEvents failures, failures⟩

/-- Clear the finalizers of a resource, with `rest` left to do afterwards. -/
def doClear (w : Worker) (kind : Kind) (x : Resource) (rest : List Errand) (k : κ) :
    WorkerTurn κ :=
  let r := Cluster.updateResource kind x k
  let events := callEvents (.updateResource kind x) r
  match r.answer with
  | .ok _ =>
      ⟨{ w with errands := rest }, r.cluster,
        events ++ [.note (.finalizersCleared kind x.name)], []⟩
  | .error e =>
      let failures := w.failuresOf (.clearFinalizers kind) e
      ⟨{ w with errands := rest }, r.cluster, events ++ failureEvents failures, failures⟩

/-- Delete the namespace, with `rest` left to do afterwards. -/
def doDelete (w : Worker) (rest : List Errand) (k : κ) : WorkerTurn κ :=
  let r := Cluster.deleteSpace w.space k
  let events := callEvents (.deleteSpace w.space) r
  let w := { w with errands := rest }
  match r.answer with
  | .done => ⟨w, r.cluster, events ++ [.note (.spaceDeleted w.space)], []⟩
  | .failed (.missing _) => ⟨w, r.cluster, events ++ [.note (.spaceGone w.space)], []⟩
  | .failed e =>
      let failures := w.failuresOf .deleteSpace e
      ⟨w, r.cluster, events ++ failureEvents failures, failures⟩
  | .fatal => ⟨{ w with errands := [], died := true }, r.cluster, events, []⟩

/-- Do the next errand, if there is one. -/
def step? (w : Worker) (k : κ) : Option (WorkerTurn κ) :=
  match w.errands with
  | [] => none
  | .fetch t :: rest => some (w.doFetch t rest k)
  | .clear kind x :: rest => some (w.doClear kind x rest k)
  | .delete :: rest => some (w.doDelete rest k)

theorem countP_isFetch_clearing (kind : Kind) (rs : List Resource) :
    (clearing kind rs).countP Errand.isFetch = 0 := by
  simp [clearing, List.countP_eq_zero, Errand.isFetch]

/-- An errand leaves fewer fetches, or as many fetches and fewer errands. -/
theorem step?_decreases {w : Worker} {k : κ} {t : WorkerTurn κ} (h : w.step? k = some t) :
    t.worker.fetches < w.fetches ∨
      t.worker.fetches = w.fetches ∧ t.worker.errands.length < w.errands.length := by
  unfold step? at h
  split at h
  · cases h
  · rename_i target rest he
    cases h
    refine Or.inl ?_
    unfold doFetch fetches
    dsimp only
    split <;> simp [he, countP_isFetch_clearing, List.countP_cons, Errand.isFetch]
  · rename_i kind x rest he
    cases h
    refine Or.inr ?_
    unfold doClear fetches
    dsimp only
    split <;> simp [he, Errand.isFetch]
  · rename_i rest he
    cases h
    unfold doDelete fetches
    dsimp only
    split
    · exact Or.inr (by simp [he, Errand.isFetch])
    · exact Or.inr (by simp [he, Errand.isFetch])
    · exact Or.inr (by simp [he, Errand.isFetch])
    · rw [he, List.countP_cons, List.countP_nil, List.length_nil, List.length_cons]
      simp only [Errand.isFetch]
      omega

/-- Do all errands. -/
def run (w : Worker) (k : κ) : WorkerTurn κ :=
  match _h : w.step? k with
  | none => ⟨w, k, [], []⟩
  | some t =>
      let rest := t.worker.run t.cluster
      { rest with events := t.events ++ rest.events, failures := t.failures ++ rest.failures }
termination_by (w.fetches, w.errands.length)
decreasing_by
  cases step?_decreases _h with
  | inl hlt => exact Prod.Lex.left _ _ hlt
  | inr heq => exact heq.1 ▸ Prod.Lex.right _ heq.2

end Worker

end Decommission
