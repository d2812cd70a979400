import Decommission.Deletion
import Decommission.Proofs.Supervision.Conducted
import Decommission.Proofs.Teardown.Step

/-!
# The chronicle of a deletion

A deletion is one stage after the other: the lookup, the supervision of the
components, the supervision of the prerequisites, the teardown.  `Chronicle` says
which stages have been gone through and what happened in each of them, and
`Deletion.chronicle_move?` that every move continues it.

A move is a look at the site, whatever there is to be seen, or an errand of a
worker of the teardown.  So the chronicle covers every behaviour of the engines
and of the clock, and every order in which the workers get to do their errands.
-/

namespace Decommission

namespace Deletion

variable {κ : Type}

/-! ## The teardown as a stage -/

/-- A teardown that has not ended is what the deletion is doing. -/
theorem withTeardown_of_result?_eq_none {d : Deletion κ} {t : Teardown κ}
    (h : t.result? = none) :
    d.withTeardown t = { d with cluster := t.cluster, stage := .tearing t } := by
  rw [withTeardown, h]

/-- A deletion whose teardown has ended is over. -/
theorem result?_withTeardown (d : Deletion κ) (t : Teardown κ) :
    (d.withTeardown t).result? =
      t.result?.map fun r => r.mapError DeletionError.teardown := by
  rw [withTeardown]
  cases t.result? with
  | none => rfl
  | some r => cases r with
    | error e => rfl
    | ok _ => rfl

/-- Only the teardown as it is now matters. -/
theorem withTeardown_withTeardown (d : Deletion κ) (t t' : Teardown κ) :
    (d.withTeardown t).withTeardown t' = d.withTeardown t' := by
  rw [withTeardown, withTeardown, withTeardown]
  cases t.result? with
  | none => rfl
  | some r => cases r with
    | error e => rfl
    | ok _ => rfl

/-! ## Looks during a phase -/

/-- A look of a deletion at a phase: the phase goes on, or it has failed, or it is over
and `next` happens too. -/
inductive Phased (d : Deletion κ) (g : Glance) (s : Supervision) (stay : Supervision → Stage κ)
    (next : List Event × Deletion κ) : List Event → Deletion κ → Prop
  | onward (es : List Event) (s' : Supervision) : s.look g = some (es, s') →
      s'.result? = none → Phased d g s stay next es { d with stage := stay s' }
  | failed (es : List Event) (s' : Supervision) (e : PhaseError) : s.look g = some (es, s') →
      s'.result? = some (.error e) → Phased d g s stay next es (d.finish (.error (.phase e)))
  | completed (es : List Event) (s' : Supervision) : s.look g = some (es, s') →
      s'.result? = some (.ok ()) → Phased d g s stay next (es ++ next.1) next.2

variable {d d' : Deletion κ} {g : Glance} {es : List Event} {spaces : List String}
  {s : Supervision}

theorem phased_of_eq_some {stay : Supervision → Stage κ} {next : List Event × Deletion κ}
    (h : (match s.look g with
      | none => none
      | some (events, s) =>
          match s.result? with
          | some result => some (d.afterPhase events result next)
          | none => some (events, { d with stage := stay s })) = some (es, d')) :
    Phased d g s stay next es d' := by
  cases hl : s.look g with
  | none => rw [hl] at h; cases h
  | some l =>
      rw [hl] at h
      dsimp only at h
      cases hr : l.2.result? with
      | none => rw [hr] at h; cases h; exact .onward _ _ hl hr
      | some r =>
          rw [hr] at h
          rcases r with e | _
          · cases h; exact .failed _ _ e hl hr
          · cases h; exact .completed _ _ hl hr

variable [Cluster κ]

theorem phased_components {since : Nat} (hs : d.stage = .components spaces since s)
    (hm : d.step? g = some (es, d')) :
    Phased d g s (.components spaces since) (d.beginPrerequisites g spaces since) es d' := by
  rw [step?, hs] at hm
  exact phased_of_eq_some hm

theorem phased_prerequisites (hs : d.stage = .prerequisites spaces s)
    (hm : d.step? g = some (es, d')) :
    Phased d g s (.prerequisites spaces) (d.beginTeardown spaces) es d' := by
  rw [step?, hs] at hm
  exact phased_of_eq_some hm

/-! ## Moves -/

/-- A move of a deletion. -/
inductive Move
  | look (g : Glance)
  | errand (i : Nat)

/-- An errand of a worker of the teardown. -/
def errand? (i : Nat) (d : Deletion κ) : Option (List Event × Deletion κ) :=
  match d.stage with
  | .tearing t => (t.workerStep? i).map fun (es, t) => (es, d.withTeardown t)
  | _ => none

/-- A move, if it is possible: what happens, and the deletion afterwards. -/
def move? : Move → Deletion κ → Option (List Event × Deletion κ)
  | .look g, d => d.step? g
  | .errand i, d => d.errand? i

/-! ## Stages -/

/-- What happens when the namespaces are looked up. -/
def lookedUp (d : Deletion κ) : List Event := if d.metadata.counted then [.lookedUp] else []

/-- What happens before the components are removed. -/
def preamble (d : Deletion κ) (found : List String) : List Event :=
  d.lookedUp ++ [.note (.spacesFound (d.spacesWith found)), .signalMade]

/-- The namespaces were looked up, and then the components were removed without
failure. -/
def ComponentsRemoved (d : Deletion κ) (found : List String) (es : List Event) : Prop :=
  d.metadata.answer = .ok found ∧ ∃ run s,
    Supervision.Conducted .components componentsEngine d.config.budget run s ∧
      s.result? = some (.ok ()) ∧ es = d.preamble found ++ run

/-- What happens when the supervision of the prerequisites has come to a certain
point, after the components were removed without failure. -/
def PrerequisitesUnder (d : Deletion κ) (found : List String) (es : List Event)
    (s : Supervision) : Prop :=
  ∃ before elapsed run, d.ComponentsRemoved found before ∧
    Supervision.Conducted .prerequisites prerequisitesEngine
      (d.config.budget.remaining elapsed) run s ∧
    es = before ++ .note (.rebalanced elapsed (d.config.budget.remaining elapsed)) :: run

/-- The components were removed without failure, and then the prerequisites. -/
def AllRemoved (d : Deletion κ) (found : List String) (es : List Event) : Prop :=
  ∃ s, d.PrerequisitesUnder found es s ∧ s.result? = some (.ok ())

/-- The teardown of the namespaces that were looked up, and of the one that is torn
down in any case, after everything was removed. -/
def TeardownUnder (d : Deletion κ) (found : List String) (es : List Event)
    (t : Teardown κ) : Prop :=
  ∃ before run, d.AllRemoved found before ∧
    Teardown.Conducted d.config.retry d.config.systemNamespace stuckTargets
      (d.spacesWith found) d.cluster run t ∧
    es = before ++ .note (.tearingDown (d.spacesWith found).length) :: run

/-- What has happened in a deletion, and how far it has come. -/
inductive Chronicle (d : Deletion κ) : List Event → Deletion κ → Prop
  | looking : Chronicle d [] d
  | unknown (reason : String) : d.metadata.answer = .error reason →
      Chronicle d d.lookedUp (d.finish (.error (.metadata reason)))
  | components (found : List String) (since : Nat) (run : List Event) (s : Supervision) :
      d.metadata.answer = .ok found →
      Supervision.Conducted .components componentsEngine d.config.budget run s →
      s.result? = none →
      Chronicle d (d.preamble found ++ run)
        { d with stage := .components (d.spacesWith found) since s }
  | componentsFailed (found : List String) (run : List Event) (s : Supervision)
      (e : PhaseError) : d.metadata.answer = .ok found →
      Supervision.Conducted .components componentsEngine d.config.budget run s →
      s.result? = some (.error e) →
      Chronicle d (d.preamble found ++ run) (d.finish (.error (.phase e)))
  | prerequisites (found : List String) (es : List Event) (s : Supervision) :
      d.PrerequisitesUnder found es s → s.result? = none →
      Chronicle d es { d with stage := .prerequisites (d.spacesWith found) s }
  | prerequisitesFailed (found : List String) (es : List Event) (s : Supervision)
      (e : PhaseError) : d.PrerequisitesUnder found es s → s.result? = some (.error e) →
      Chronicle d es (d.finish (.error (.phase e)))
  | tearing (found : List String) (es : List Event) (t : Teardown κ) :
      d.TeardownUnder found es t → Chronicle d es (d.withTeardown t)

/-! ## Every move continues the chronicle -/

variable {es' : List Event} {found : List String}

theorem TeardownUnder.move {t t' : Teardown κ} {m : Teardown.Move}
    (h : d.TeardownUnder found es t) (hm : t.move? m = some (es', t')) :
    d.TeardownUnder found (es ++ es') t' := by
  obtain ⟨before, run, hall, hc, rfl⟩ := h
  exact ⟨before, run ++ es', hall, hc.move hm, List.append_assoc ..⟩

omit [Cluster κ] in
theorem PrerequisitesUnder.look {s s' : Supervision} (h : d.PrerequisitesUnder found es s)
    (hl : s.look g = some (es', s')) : d.PrerequisitesUnder found (es ++ es') s' := by
  obtain ⟨before, elapsed, run, hcomp, hc, rfl⟩ := h
  exact ⟨before, elapsed, run ++ es', hcomp, hc.look hl, List.append_assoc ..⟩

theorem chronicle_lookUp (g : Glance) :
    Chronicle d (d.lookUp g).1 (d.lookUp g).2 := by
  rw [lookUp]
  dsimp only
  cases ha : d.metadata.answer with
  | error reason => exact .unknown reason ha
  | ok found =>
      exact .components found g.reading _ _ ha
        (Supervision.conducted_start .components componentsEngine d.config.budget g.now) rfl

/-- The supervision of the prerequisites begins. -/
theorem chronicle_beginPrerequisites {since : Nat} {stage : Stage κ}
    (h : d.ComponentsRemoved found es) :
    Chronicle d
      (es ++ (beginPrerequisites g { d with stage } (d.spacesWith found) since).1)
      (beginPrerequisites g { d with stage } (d.spacesWith found) since).2 := by
  rw [beginPrerequisites, rebalance]
  refine .prerequisites found _ _ ⟨es, _, _, h, ?_, rfl⟩ rfl
  exact Supervision.conducted_start .prerequisites prerequisitesEngine _ g.now

/-- The teardown begins. -/
theorem chronicle_beginTeardown {stage : Stage κ} (h : d.AllRemoved found es) :
    Chronicle d (es ++ (beginTeardown { d with stage } (d.spacesWith found)).1)
      (beginTeardown { d with stage } (d.spacesWith found)).2 := by
  exact .tearing found _ _ ⟨es, [], h, ⟨[], rfl⟩, rfl⟩

/-- A look while the components are being removed. -/
theorem chronicle_lookAtComponents {since : Nat} {run : List Event} {s : Supervision}
    (ha : d.metadata.answer = .ok found)
    (hc : Supervision.Conducted .components componentsEngine d.config.budget run s)
    (hm : step? g { d with stage := .components (d.spacesWith found) since s } =
      some (es', d')) :
    Chronicle d (d.preamble found ++ run ++ es') d' := by
  cases phased_components rfl hm with
  | onward es s' hl hr =>
      rw [List.append_assoc]
      exact .components found since _ s' ha (hc.look hl) hr
  | failed es s' e hl hr =>
      rw [List.append_assoc]
      exact .componentsFailed found _ s' e ha (hc.look hl) hr
  | completed es s' hl hr =>
      rw [← List.append_assoc, List.append_assoc (d.preamble found)]
      exact chronicle_beginPrerequisites ⟨ha, _, s', hc.look hl, hr, rfl⟩

/-- A look while the prerequisites are being removed. -/
theorem chronicle_lookAtPrerequisites {s : Supervision}
    (hp : d.PrerequisitesUnder found es s)
    (hm : step? g { d with stage := .prerequisites (d.spacesWith found) s } =
      some (es', d')) : Chronicle d (es ++ es') d' := by
  cases phased_prerequisites rfl hm with
  | onward more s' hl hr => exact .prerequisites found _ s' (hp.look hl) hr
  | failed more s' e hl hr => exact .prerequisitesFailed found _ s' e (hp.look hl) hr
  | completed more s' hl hr =>
      rw [← List.append_assoc]
      exact chronicle_beginTeardown ⟨s', hp.look hl, hr⟩

/-- A deletion that is over does not move. -/
theorem move?_of_result? {r : Except DeletionError Unit} (h : d.result? = some r) (m : Move) :
    d.move? m = none := by
  have hs : d.stage = .ended r := by
    rw [result?] at h
    split at h
    · cases h
      assumption
    · cases h
  cases m with
  | look g => rw [move?, step?, hs]
  | errand i => rw [move?, errand?, hs]

/-- During the teardown, the moves of the deletion are those of the teardown. -/
theorem move?_of_tearing {t : Teardown κ} {m : Move} (h : d.stage = .tearing t)
    (hm : d.move? m = some (es', d')) :
    ∃ m' t', t.move? m' = some (es', t') ∧ d' = d.withTeardown t' := by
  cases m with
  | look g =>
      rw [move?, step?, h] at hm
      obtain ⟨⟨es, t'⟩, ht, heq⟩ := Option.map_eq_some_iff.mp hm
      cases heq
      exact ⟨.coordinate g.now, t', ht, rfl⟩
  | errand i =>
      rw [move?, errand?, h] at hm
      obtain ⟨⟨es, t'⟩, ht, heq⟩ := Option.map_eq_some_iff.mp hm
      cases heq
      exact ⟨.errand i, t', ht, rfl⟩

/-- A move continues the chronicle. -/
theorem chronicle_move? {d₀ : Deletion κ} {m : Move} (hfresh : d₀.stage = .looking)
    (h : Chronicle d₀ es d) (hm : d.move? m = some (es', d')) :
    Chronicle d₀ (es ++ es') d' := by
  cases h with
  | looking =>
      cases m with
      | look g =>
          rw [move?, step?, hfresh, Option.some.injEq] at hm
          have hc := chronicle_lookUp (d := d) g
          rw [hm] at hc
          exact hc
      | errand i =>
          rw [move?, errand?, hfresh] at hm
          cases hm
  | unknown reason => rw [move?_of_result? rfl] at hm; cases hm
  | components found since run s ha hc hr =>
      cases m with
      | look g => exact chronicle_lookAtComponents ha hc hm
      | errand i => cases hm
  | componentsFailed => rw [move?_of_result? rfl] at hm; cases hm
  | prerequisites found es s hp hr =>
      cases m with
      | look g => exact chronicle_lookAtPrerequisites hp hm
      | errand i => cases hm
  | prerequisitesFailed => rw [move?_of_result? rfl] at hm; cases hm
  | tearing found es t ht =>
      cases hr : t.result? with
      | some r =>
          have hover := result?_withTeardown d₀ t
          rw [hr] at hover
          rw [move?_of_result? hover] at hm
          cases hm
      | none =>
          have hstage : (d₀.withTeardown t).stage = .tearing t := by
            rw [withTeardown_of_result?_eq_none hr]
          obtain ⟨m', t', hm', rfl⟩ := move?_of_tearing hstage hm
          rw [withTeardown_withTeardown]
          exact .tearing found _ t' (ht.move hm')

/-- Whatever is to be seen and in whatever order the workers do their errands, the
chronicle of a deletion is kept from its beginning. -/
theorem chronicle_play (d₀ : Deletion κ) (hfresh : d₀.stage = .looking) (ms : List Move) :
    Chronicle d₀ (play (recorded move?) ([], d₀) ms).1 (play (recorded move?) ([], d₀) ms).2 := by
  refine play_induction (P := fun j : List Event × Deletion κ => Chronicle d₀ j.1 j.2) ?_
    .looking ms
  intro m j k hj hm
  obtain ⟨es, hm, hes⟩ := recorded_eq_some_iff.mp hm
  rw [hes]
  exact chronicle_move? hfresh hj hm

end Deletion

end Decommission
