import Decommission.Proofs.Teardown.Step

/-!
# The ledger of a teardown

Beside a teardown a ledger is kept.  A posting says for which place in the list
of namespaces a move was made, what was done and what the answer was, and adds
the events and the failures.  Places are counted, so two places with the same
namespace have postings of their own.

The ledger only watches: a ledger that is kept goes through the moves of its
teardown (`Ledger.play_eq`).  What is done decides which calls are made, what
fails and how the worker goes on (`Worker.step?_spec`).
-/

namespace Decommission

/-- What is done for a namespace in one move, with the answer of the cluster. -/
inductive Deed
  | listed (answer : Except ClusterError (List Pod))
  | fetched (target : Target) (answer : Except ClusterError (List Resource))
  | cleared (kind : Kind) (r : Resource) (answer : Except ClusterError Resource)
  | deleted (answer : Deleted)
  /-- Its worker is over, and died or did not. -/
  | joined (died : Bool)

namespace Deed

/-- The calls of the cluster. -/
def calls (space : String) : Deed → List Call
  | listed _ => [.listPods space]
  | fetched target _ => [(Worker.start space []).fetchCall target]
  | cleared kind r _ => [.updateResource kind r]
  | deleted _ => [.deleteSpace space]
  | joined _ => []

/-- What fails, unless the namespace is given up. -/
def failures (space : String) : Deed → List TeardownFailure
  | fetched target (.error e) => (Worker.start space []).failuresOf (.clearFinalizers target.kind) e
  | cleared kind _ (.error e) => (Worker.start space []).failuresOf (.clearFinalizers kind) e
  | deleted (.failed e) => (Worker.start space []).failuresOf .deleteSpace e
  | joined true => [⟨space, .worker, Teardown.deathReason⟩]
  | _ => []

/-- Whether finalizers are dealt with. -/
def isClearing : Deed → Bool
  | fetched .. | cleared .. => true
  | _ => false

end Deed

/-! ## Workers -/

namespace Worker

variable {κ : Type} [Cluster κ] {w : Worker} {k : κ} {turn : WorkerTurn κ}

/-- What the next errand is, with the answer to it. -/
def deed? (w : Worker) (k : κ) : Option Deed :=
  match w.errands with
  | [] => none
  | .fetch target :: _ => some (.fetched target (w.fetchFrom target k).answer)
  | .clear kind x :: _ => some (.cleared kind x (Cluster.updateResource kind x k).answer)
  | .delete :: _ => some (.deleted (Cluster.deleteSpace w.space k).answer)

/-- The worker after an errand. -/
def after (w : Worker) : Deed → Worker
  | .fetched target (.ok rs) =>
      { w with errands := clearing target.kind rs ++ w.errands.tail }
  | .deleted .fatal => { w with errands := [], died := true }
  | _ => { w with errands := w.errands.tail }

/-- What is done in an errand decides what comes of it. -/
structure Did (w : Worker) (d : Deed) (turn : WorkerTurn κ) : Prop where
  calls : callsIn turn.events = d.calls w.space
  failures : turn.failures = d.failures w.space
  worker : turn.worker = w.after d

theorem did_doFetch {target : Target} {rest : List Errand}
    (he : w.errands = .fetch target :: rest) :
    w.Did (.fetched target (w.fetchFrom target k).answer) (w.doFetch target rest k) := by
  rw [doFetch]
  dsimp only
  cases ha : (w.fetchFrom target k).answer with
  | ok rs =>
      refine ⟨callsIn_callEvents _ _, rfl, ?_⟩
      rw [after, he]
      rfl
  | error e =>
      refine ⟨?_, rfl, ?_⟩
      · rw [callsIn_append, callsIn_callEvents, callsIn_failureEvents]
        rfl
      · rw [after, he]
        · rfl
        · simp
        · simp

theorem did_doClear {kind : Kind} {x : Resource} {rest : List Errand}
    (he : w.errands = .clear kind x :: rest) :
    w.Did (.cleared kind x (Cluster.updateResource kind x k).answer)
      (w.doClear kind x rest k) := by
  have hafter : ∀ answer, { w with errands := rest } = w.after (.cleared kind x answer) := by
    intro answer
    show _ = { w with errands := w.errands.tail }
    rw [he]
    rfl
  rw [doClear]
  dsimp only
  cases ha : (Cluster.updateResource kind x k).answer with
  | ok _ =>
      refine ⟨?_, rfl, hafter _⟩
      rw [callsIn_append, callsIn_callEvents]
      rfl
  | error e =>
      refine ⟨?_, rfl, hafter _⟩
      rw [callsIn_append, callsIn_callEvents, callsIn_failureEvents]
      rfl

theorem did_doDelete {rest : List Errand} (he : w.errands = .delete :: rest) :
    w.Did (.deleted (Cluster.deleteSpace w.space k).answer) (w.doDelete rest k) := by
  have htail : w.errands.tail = rest := by rw [he, List.tail_cons]
  rw [doDelete]
  dsimp only
  cases ha : (Cluster.deleteSpace w.space k).answer with
  | done =>
      refine ⟨?_, rfl, ?_⟩
      · rw [callsIn_append, callsIn_callEvents]
        rfl
      · rw [← htail]
        rfl
  | failed e =>
      cases e with
      | missing what =>
          refine ⟨?_, rfl, ?_⟩
          · rw [callsIn_append, callsIn_callEvents]
            rfl
          · rw [← htail]
            rfl
      | api reason =>
          refine ⟨?_, rfl, ?_⟩
          · dsimp only
            rw [callsIn_append, callsIn_callEvents, callsIn_failureEvents]
            rfl
          · rw [← htail]
            rfl
  | fatal => exact ⟨callsIn_callEvents _ _, rfl, rfl⟩

/-- An errand is one deed, and the deed decides what comes of it. -/
theorem step?_spec (h : w.step? k = some turn) :
    ∃ e rest d, w.errands = e :: rest ∧ w.deed? k = some d ∧ w.Did d turn := by
  rcases step?_cases h with ⟨target, rest, he, rfl⟩ | ⟨kind, x, rest, he, rfl⟩ | ⟨rest, he, rfl⟩
  · exact ⟨_, rest, _, he, by rw [deed?, he], did_doFetch he⟩
  · exact ⟨_, rest, _, he, by rw [deed?, he], did_doClear he⟩
  · exact ⟨_, rest, _, he, by rw [deed?, he], did_doDelete he⟩

end Worker

/-! ## Postings -/

/-- What a move of a teardown was made for, and what came of it. -/
structure Posting where
  place : Nat
  deed : Deed
  events : List Event
  failures : List TeardownFailure

namespace Posting

/-- Whether the namespace was handed over. -/
def isHandOver (p : Posting) : Bool :=
  match p.deed with
  | .listed answer => Teardown.isFree answer
  | _ => false

/-- The answer to a listing, if the posting is of one. -/
def listing? (p : Posting) : Option (Except ClusterError (List Pod)) :=
  match p.deed with
  | .listed answer => some answer
  | _ => none

end Posting

/-- The postings of a place. -/
def accountOf (ps : List Posting) (i : Nat) : List Posting := ps.filter fun p => p.place == i

/-- The places that were handed over, in the order of their workers. -/
def handedOf (ps : List Posting) : List Nat := (ps.filter Posting.isHandOver).map Posting.place

/-- Everything that failed, in the order in which it failed. -/
def failuresIn (ps : List Posting) : List TeardownFailure := ps.flatMap Posting.failures

/-! ## Keeping a ledger -/

/-- A teardown, and what has been written down of it. -/
structure Ledger (κ : Type) where
  teardown : Teardown κ
  events : List Event := []
  postings : List Posting := []

namespace Ledger

variable {κ : Type} [Cluster κ]

/-- The place for which a move is made, and what is done for it. -/
def matter? (l : Ledger κ) : Teardown.Move → Option (Nat × Deed)
  | .coordinate _ =>
      match l.teardown.stage with
      | .checking _ (space :: rest) =>
          some (l.teardown.spaces.length - (rest.length + 1),
            .listed (l.teardown.listing space).answer)
      | .joining next => do
          let i ← (handedOf l.postings)[next]?
          let w ← l.teardown.workers[next]?
          some (i, .joined w.died)
      | _ => none
  | .errand j => do
      let i ← (handedOf l.postings)[j]?
      let w ← l.teardown.workers[j]?
      let d ← w.deed? l.teardown.cluster
      some (i, d)

/-- Write a move down. -/
def enter (l : Ledger κ) (m : Teardown.Move) (es : List Event) (t : Teardown κ) : Ledger κ where
  teardown := t
  events := l.events ++ es
  postings :=
    match l.matter? m with
    | some (i, d) =>
        l.postings ++ [⟨i, d, es, t.failures.drop l.teardown.failures.length⟩]
    | none => l.postings

/-- A move of the teardown, if it is possible, is written down. -/
def move? (m : Teardown.Move) (l : Ledger κ) : Option (Ledger κ) :=
  (l.teardown.move? m).map fun (es, t) => l.enter m es t

variable {l l' : Ledger κ} {m : Teardown.Move}

theorem move?_eq_some_iff :
    l.move? m = some l' ↔ ∃ es t, l.teardown.move? m = some (es, t) ∧ l' = l.enter m es t := by
  rw [move?]
  constructor
  · intro h
    obtain ⟨⟨es, t⟩, hm, rfl⟩ := Option.map_eq_some_iff.mp h
    exact ⟨es, t, hm, rfl⟩
  · rintro ⟨es, t, hm, rfl⟩
    rw [hm]
    rfl

/-- A kept ledger goes through the moves of its teardown. -/
theorem play_eq (l : Ledger κ) (ms : List Teardown.Move) :
    ((play move? l ms).events, (play move? l ms).teardown) =
      play (recorded Teardown.move?) (l.events, l.teardown) ms := by
  refine play_map (f := fun l : Ledger κ => (l.events, l.teardown)) ?_ l ms
  intro m l
  rw [move?, recorded, Option.map_map]
  rfl

end Ledger

end Decommission
