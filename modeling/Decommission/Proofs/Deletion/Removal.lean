import Decommission.Cluster.Empty
import Decommission.Config
import Decommission.Proofs.Deletion.Conduct
import Decommission.Proofs.Supervision.Removal

/-!
# What a deletion removes

A deletion in a free course, at a site whose first two engines remove what is on an
inventory with pools of workers.  `Removal` says for each stage what has been removed
and how the site stands, and `Removal.move` that every move but the death of a task
preserves it.

The history of a deletion that succeeds falls into three parts
(`removed_of_succeeded`): the components are removed, then the prerequisites, and
then only the cluster is called.
-/

namespace Decommission

namespace Event

variable {e : Event}

theorem inert_of_isOfTeardown (h : e.isOfTeardown) :
    e.movesRuns = false ∧ e.isAnswer = false := by
  cases e with
  | called c => exact ⟨rfl, rfl⟩
  | note n => exact ⟨rfl, rfl⟩
  | _ => cases h

end Event

/-- Nothing has happened at the site yet, and its engines remove what is on the
inventory with pools of workers. -/
structure Site.IsReady (s : Site) (inv : Inventory) : Prop where
  components : s.HasPool Deletion.componentsEngine inv.components
  prerequisites : s.HasPool Deletion.prerequisitesEngine inv.prerequisites
  runs : s.runs = []
  reading : s.reading = none
  history : s.history = []

theorem Site.HasPool.of_engines {s s' : Site} {engine : Nat} {cs : List Component}
    (h : s.HasPool engine cs) (he : s'.engines = s.engines) : s'.HasPool engine cs := by
  rw [Site.HasPool, he]
  exact h

/-- A site where pools of one uninstaller remove what is on an inventory. -/
def Site.withPools (workers : Nat) (inv : Inventory) (u : Uninstaller) : Site where
  engines := [{ job := .pool workers inv.components u },
    { job := .pool workers inv.prerequisites u }]

theorem Site.isReady_withPools {workers : Nat} (h : workers ≠ 0) (hw : workers ≤ slotLimit)
    (inv : Inventory) (u : Uninstaller) : (withPools workers inv u).IsReady inv where
  components := ⟨_, workers, u, rfl, rfl, h, hw⟩
  prerequisites := ⟨_, workers, u, rfl, rfl, h, hw⟩
  runs := rfl
  reading := rfl
  history := rfl

namespace Deletion

/-- Everything was removed, and after that only the cluster was called. -/
def Cleared (inv : Inventory) (h : History) : Prop :=
  ∃ h₁ h₂ h₃, h = h₁ ++ h₂ ++ h₃ ∧ Removed .components componentsEngine inv.components h₁ ∧
    Removed .prerequisites prerequisitesEngine inv.prerequisites h₂ ∧
    ∀ e ∈ History.events h₃, e.isOfTeardown

/-- What has been removed at a stage, and how the site stands. -/
inductive Removal {κ : Type} (inv : Inventory) : Stage κ → Site → Prop
  | looking {site : Site} : site.runs = [] → site.reading = none → site.history = [] →
      Removal inv .looking site
  | components {site : Site} {spaces : List String} {since : Nat} {s : Supervision}
      {taken : List Report} :
      Removing .components componentsEngine inv.components [] s taken site site.history →
      Removal inv (.components spaces since s) site
  | prerequisites {site : Site} {spaces : List String} {s : Supervision} {taken : List Report}
      {idle : List Run} {h₁ h₂ : History} : site.history = h₁ ++ h₂ →
      Removed .components componentsEngine inv.components h₁ →
      Removing .prerequisites prerequisitesEngine inv.prerequisites idle s taken site h₂ →
      Removal inv (.prerequisites spaces s) site
  | tearing {site : Site} {t : Teardown κ} : (∀ r ∈ site.runs, r.IsClosed) →
      Cleared inv site.history → Removal inv (.tearing t) site
  | succeeded {site : Site} : (∀ r ∈ site.runs, r.IsClosed) → Cleared inv site.history →
      Removal inv (.ended (.ok ())) site
  | failed {site : Site} (e : DeletionError) : Removal inv (.ended (.error e)) site

namespace Removal

variable {κ : Type} {inv : Inventory} {d d' : Deletion κ} {site site' : Site}
  {es es' : List Event} {stage : Stage κ}

/-! ## Moves of the runs and of time -/

/-- Only the pool of the phase that is under way moves. -/
theorem act (hR : Removal inv stage site) {i : Nat} {a : Work.Action}
    (ha : site.act? i a = some site') (hdeath : ¬ a.isDeath) : Removal inv stage site' := by
  obtain ⟨r, _, _, hr, _, _⟩ := Site.act?_eq_some_iff.mp ha
  have hopen : ¬ r.IsClosed := Site.not_isClosed_of_act? hr ha
  have hm : r ∈ site.runs := List.mem_of_getElem? hr
  cases hR with
  | looking hruns =>
      rw [hruns] at hm
      cases hm
  | components hrem =>
      obtain ⟨k, hrem', hk⟩ := hrem.act ha hdeath
      rw [← hk] at hrem'
      exact .components hrem'
  | prerequisites hh hrem₁ hrem =>
      obtain ⟨k, hrem', hk⟩ := hrem.act ha hdeath
      refine .prerequisites ?_ hrem₁ hrem'
      rw [hk, hh, List.append_assoc]
  | tearing hclosed => exact absurd (hclosed r hm) hopen
  | succeeded hclosed => exact absurd (hclosed r hm) hopen
  | failed e => exact .failed e

theorem pass (hR : Removal inv stage site) (ms : Nat) :
    Removal inv stage { site with now := site.now + ms } := by
  cases hR with
  | looking hruns hreading hhist => exact .looking hruns hreading hhist
  | components hrem => exact .components (hrem.of_site rfl rfl rfl)
  | prerequisites hh hrem₁ hrem => exact .prerequisites hh hrem₁ (hrem.of_site rfl rfl rfl)
  | tearing hclosed hcl => exact .tearing hclosed hcl
  | succeeded hclosed hcl => exact .succeeded hclosed hcl
  | failed e => exact .failed e

/-! ## Looks -/

theorem quiet_preamble (d : Deletion κ) (found : List String) {e : Event}
    (h : e ∈ d.preamble found) :
    e.movesRuns = false ∧ e.isAnswer = false ∧ e.isSilent ∧ e.isRemoval = false ∧
      e.reachesOut = false := by
  rw [preamble, lookedUp] at h
  rcases List.mem_append.mp h with hm | hm
  · split at hm
    · rw [List.mem_singleton.mp hm]
      exact ⟨rfl, rfl, rfl, rfl, rfl⟩
    · cases hm
  · rcases List.mem_cons.mp hm with rfl | hm
    · exact ⟨rfl, rfl, rfl, rfl, rfl⟩
    · rw [List.mem_singleton.mp hm]
      exact ⟨rfl, rfl, rfl, rfl, rfl⟩

/-- The signal made by the preamble has not been fired. -/
theorem signals_preamble (d : Deletion κ) (found : List String) (site : Site) :
    0 < (site.performAll (d.preamble found)).signals.next ∧
      (site.performAll (d.preamble found)).isFired = false := by
  rw [preamble, Site.performAll_append]
  exact Site.isFired_of_add (s := site.performAll d.lookedUp) rfl

theorem isAnswer_opening (s : Supervision) {e : Event} (h : e ∈ s.opening) :
    e.isAnswer = false := by
  simp only [Supervision.opening, List.mem_cons, List.not_mem_nil, or_false] at h
  rcases h with rfl | rfl | rfl
  · rfl
  · rfl
  · rfl

/-- The supervision of the components begins. -/
theorem lookUp (hruns : site.runs = []) (hreading : site.reading = none)
    (hhist : site.history = []) :
    Removal inv (d.lookUp site.glance).2.stage (site.performAll (d.lookUp site.glance).1) := by
  rw [Deletion.lookUp]
  dsimp only
  cases d.metadata.answer with
  | error reason => exact .failed _
  | ok found =>
      have hquiet := fun e he => quiet_preamble d found (e := e) he
      obtain ⟨hnext, hfired⟩ := signals_preamble d found site
      obtain ⟨hruns', hreading'⟩ := Site.runs_performAll (s := site) fun e he => (hquiet e he).1
      have hstart := Removing.start .components componentsEngine inv.components
        d.config.budget site.now (site.performAll (d.preamble found))
        (fun e he => (hquiet e he).2.2)
        (by rw [hruns', hruns]; exact fun _ hm => absurd hm List.not_mem_nil)
        (hreading'.trans hreading) hnext hfired
      have hall : ∀ e ∈ d.preamble found ++ (Supervision.start .components componentsEngine
          d.config.budget site.now).opening, e.isAnswer = false := by
        intro e he
        rcases List.mem_append.mp he with hm | hm
        · exact (hquiet e hm).2.1
        · exact isAnswer_opening _ hm
      have hhist' := Site.history_performAll (s := site) hall
      rw [hhist, List.nil_append] at hhist'
      rw [hruns', hruns, ← Site.performAll_append, ← hhist'] at hstart
      exact .components hstart

/-- The components were removed, and the supervision of the prerequisites begins. -/
theorem beginPrerequisites {spaces : List String} {since : Nat}
    (hrem : Removed .components componentsEngine inv.components site'.history)
    (hclosed : ∀ r ∈ site'.runs, r.IsClosed) (hreading : site'.reading = none)
    (hnext : 0 < site'.signals.next) (hfired : site'.isFired = false)
    (hnow : site'.now = site.now) :
    Removal inv (d.beginPrerequisites site.glance spaces since).2.stage
      (site'.performAll (d.beginPrerequisites site.glance spaces since).1) := by
  rw [Deletion.beginPrerequisites]
  generalize d.rebalance site.glance since = left
  obtain ⟨elapsed, left⟩ := left
  have hquiet : ∀ e ∈ [Event.note (.rebalanced elapsed left)],
      e.isSilent ∧ e.isRemoval = false ∧ e.reachesOut = false := by
    intro e he
    rw [List.mem_singleton.mp he]
    exact ⟨rfl, rfl, rfl⟩
  have hstart := Removing.start .prerequisites prerequisitesEngine inv.prerequisites left
    site.now (site'.perform (.note (.rebalanced elapsed left))) hquiet hclosed hreading hnext
    hfired
  refine .prerequisites ?_ hrem hstart
  rw [← hnow]
  refine Site.history_performAll ?_
  intro e he
  rcases List.mem_cons.mp he with rfl | hm
  · rfl
  · exact isAnswer_opening _ hm

/-- Only the cluster is called from now on. -/
theorem teardown (hclosed : ∀ r ∈ site.runs, r.IsClosed) (hcl : Cleared inv site.history)
    (he : ∀ e ∈ es, e.isOfTeardown) (t : Teardown κ) :
    Removal inv (d.withTeardown t).stage (site.performAll es) := by
  have hclosed' : ∀ r ∈ (site.performAll es).runs, r.IsClosed := by
    rw [(Site.runs_performAll fun e hm => (Event.inert_of_isOfTeardown (he e hm)).1).1]
    exact hclosed
  have hcl' : Cleared inv (site.performAll es).history := by
    obtain ⟨h₁, h₂, h₃, hh, hrem₁, hrem₂, hafter⟩ := hcl
    rw [Site.history_performAll fun e hm => (Event.inert_of_isOfTeardown (he e hm)).2, hh]
    refine ⟨h₁, h₂, h₃ ++ _, List.append_assoc .., hrem₁, hrem₂, ?_⟩
    rw [events_append, events_entries]
    intro e hm
    rcases List.mem_append.mp hm with hm | hm
    · exact hafter e hm
    · exact he e hm
  rw [withTeardown]
  cases t.result? with
  | none => exact .tearing hclosed' hcl'
  | some r =>
      cases r with
      | error e => exact .failed _
      | ok _ => exact .succeeded hclosed' hcl'

variable [Cluster κ]

theorem lookAtComponents {spaces : List String} {since : Nat} {s : Supervision}
    {taken : List Report} (hs : d.stage = .components spaces since s)
    (hpool : site.HasPool componentsEngine inv.components)
    (hR : Removing .components componentsEngine inv.components [] s taken site site.history)
    (hm : d.step? site.glance = some (es, d')) : Removal inv d'.stage (site.performAll es) := by
  cases phased_components hs hm with
  | onward _ s' hl hr =>
      obtain ⟨taken', k, hR', hk⟩ := hR.look hpool hl hr
      rw [← hk] at hR'
      exact .components hR'
  | failed => exact .failed _
  | completed more s' hl hr =>
      obtain ⟨r, hclosed, hrem, hruns, hreading, hsignals, hfired, hhist⟩ := hR.finish hl hr
      rw [← hhist] at hrem
      rw [Site.performAll_append]
      refine beginPrerequisites hrem ?_ hreading ?_ ?_ (Site.ground_performAll ..).2
      · rw [hruns]
        intro x hx
        exact List.mem_singleton.mp hx ▸ hclosed
      · rw [hsignals]
        exact hR.signalled
      · rw [(Site.isFired_of_signals hsignals).2, hfired]

theorem lookAtPrerequisites {spaces : List String} {s : Supervision} {taken : List Report}
    {idle : List Run} {h₁ h₂ : History} (hs : d.stage = .prerequisites spaces s)
    (hpool : site.HasPool prerequisitesEngine inv.prerequisites)
    (hh : site.history = h₁ ++ h₂)
    (hrem₁ : Removed .components componentsEngine inv.components h₁)
    (hR : Removing .prerequisites prerequisitesEngine inv.prerequisites idle s taken site h₂)
    (hm : d.step? site.glance = some (es, d')) : Removal inv d'.stage (site.performAll es) := by
  cases phased_prerequisites hs hm with
  | onward _ s' hl hr =>
      obtain ⟨taken', k, hR', hk⟩ := hR.look hpool hl hr
      refine .prerequisites ?_ hrem₁ hR'
      rw [hk, hh, List.append_assoc]
  | failed => exact .failed _
  | completed more s' hl hr =>
      obtain ⟨r, hclosed, hrem₂, hruns, _, _, _, hhist⟩ := hR.finish hl hr
      have hcl : Cleared inv (site.performAll more).history := by
        refine ⟨h₁, _, [], ?_, hrem₁, hrem₂, fun _ hm => absurd hm List.not_mem_nil⟩
        rw [hhist, hh, List.append_assoc, List.append_nil]
      rw [Site.performAll_append]
      refine teardown ?_ hcl (fun e he => List.mem_singleton.mp he ▸ rfl) _
      rw [hruns]
      intro x hx
      rcases List.mem_append.mp hx with hx | hx
      · exact hR.closed x hx
      · exact List.mem_singleton.mp hx ▸ hclosed

/-! ## Every move -/

theorem look (hR : Removal inv d.stage site)
    (hcomponents : site.HasPool componentsEngine inv.components)
    (hprerequisites : site.HasPool prerequisitesEngine inv.prerequisites)
    (hm : d.step? site.glance = some (es, d')) : Removal inv d'.stage (site.performAll es) := by
  generalize hs : d.stage = stage at hR
  cases hR with
  | looking hruns hreading hhist =>
      have hlook : Removal inv (d.lookUp site.glance).2.stage _ := lookUp hruns hreading hhist
      rw [step?, hs, Option.some.injEq] at hm
      rw [hm] at hlook
      exact hlook
  | components hrem => exact lookAtComponents hs hcomponents hrem hm
  | prerequisites hh hrem₁ hrem => exact lookAtPrerequisites hs hprerequisites hh hrem₁ hrem hm
  | tearing hclosed hcl =>
      obtain ⟨m, t, ht, rfl⟩ := move?_of_tearing (m := .look site.glance) hs hm
      exact teardown hclosed hcl (fun e he => Teardown.isOfTeardown_of_move? ht he) t
  | succeeded => rw [step?, hs] at hm; cases hm
  | failed => rw [step?, hs] at hm; cases hm

theorem errand (hR : Removal inv d.stage site) {i : Nat} (hm : d.errand? i = some (es, d')) :
    Removal inv d'.stage (site.performAll es) := by
  generalize hs : d.stage = stage at hR
  cases hR with
  | tearing hclosed hcl =>
      obtain ⟨m, t, ht, rfl⟩ := move?_of_tearing (m := .errand i) hs hm
      exact teardown hclosed hcl (fun e he => Teardown.isOfTeardown_of_move? ht he) t
  | _ => rw [errand?, hs] at hm; cases hm

/-- Every move but the death of a task preserves the invariant, and no move changes the
engines. -/
theorem move {c c' : Course (Deletion κ)} {m : Course.Move Nat}
    (hR : Removal inv c.director.stage c.site)
    (hcomponents : c.site.HasPool componentsEngine inv.components)
    (hprerequisites : c.site.HasPool prerequisitesEngine inv.prerequisites)
    (hdeath : ¬ m.isDeath) (hm : Course.move? errand? m c = some c') :
    Removal inv c'.director.stage c'.site ∧ c'.site.engines = c.site.engines := by
  cases m with
  | look =>
      obtain ⟨es, d, hd, rfl⟩ := Course.direct?_eq_some_iff.mp hm
      exact ⟨hR.look hcomponents hprerequisites hd, (Site.ground_performAll ..).1⟩
  | help i =>
      obtain ⟨⟨es, d⟩, hd, rfl⟩ := Option.map_eq_some_iff.mp hm
      exact ⟨hR.errand hd, (Site.ground_performAll ..).1⟩
  | work i a =>
      obtain ⟨site, ha, rfl⟩ := Option.map_eq_some_iff.mp hm
      refine ⟨hR.act ha hdeath, ?_⟩
      obtain ⟨_, _, _, _, _, rfl⟩ := Site.act?_eq_some_iff.mp ha
      rfl
  | pass ms =>
      cases hm
      exact ⟨hR.pass ms, rfl⟩

/-- What has been removed at any time of a free course in which nobody dies. -/
theorem of_reaches (hfresh : d.stage = .looking) (hsite : site.IsReady inv)
    {c : Course (Deletion κ)} (hc : Course.Reaches errand? ⟨d, site⟩ c) :
    Removal inv c.director.stage c.site := by
  obtain ⟨ms, hms, rfl⟩ := hc
  refine (play_induction_mem (P := fun c : Course (Deletion κ) =>
    Removal inv c.director.stage c.site ∧ c.site.engines = site.engines) ?_ ?_).1
  · rintro m hm c c' ⟨hR, hengines⟩ hmove
    obtain ⟨hR', hengines'⟩ := hR.move (hsite.components.of_engines hengines)
      (hsite.prerequisites.of_engines hengines) (hms m hm) hmove
    exact ⟨hR', hengines'.trans hengines⟩
  · rw [hfresh]
    exact ⟨.looking hsite.runs hsite.reading hsite.history, rfl⟩

end Removal

variable {κ : Type} [Cluster κ] {inv : Inventory} {d : Deletion κ} {site : Site}

/-- Whatever moves the runs and the workers take, in whatever order, a deletion that
succeeds has removed every component of the inventory once and without failure,
first the components, then the prerequisites, and has told of each removal once.
Only afterwards was the cluster called. -/
theorem removed_of_succeeded (hfresh : d.stage = .looking) (hsite : site.IsReady inv)
    {c : Course (Deletion κ)} (hc : Course.Reaches errand? ⟨d, site⟩ c)
    (hr : c.director.result? = some (.ok ())) :
    ∃ h₁ h₂ h₃, c.site.history = h₁ ++ h₂ ++ h₃ ∧
      Removed .components componentsEngine inv.components h₁ ∧
      Removed .prerequisites prerequisitesEngine inv.prerequisites h₂ ∧
      ∀ e ∈ History.events h₃, e.isOfTeardown := by
  have hR := Removal.of_reaches hfresh hsite hc
  generalize hs : c.director.stage = stage at hR
  rw [result?, hs] at hr
  cases hR with
  | succeeded _ hcl => exact hcl
  | failed e => cases hr
  | _ => cases hr

/-- Two workers remove two components, the second one first, and then a prerequisite. -/
def twoWorkers : List (Course.Move Nat) :=
  [.look, .look, .work 0 (.pool .dispatch), .work 0 (.pool .dispatch),
    .work 0 (.pool (.call 0 7)), .work 0 (.pool (.call 1 0)), .work 0 (.pool (.conclude 1 none)),
    .work 0 (.pool (.report 1)), .look, .work 0 (.pool .exhaust), .pass 7,
    .work 0 (.pool (.conclude 0 none)), .work 0 (.pool (.report 0)), .look,
    .work 0 (.pool .close), .look,
    .look, .work 1 (.pool .dispatch), .work 1 (.pool (.call 0 7)), .work 1 (.pool .exhaust),
    .work 1 (.pool (.conclude 0 none)), .work 1 (.pool (.report 0)), .look,
    .work 1 (.pool .close), .look,
    .look, .help 0, .help 0, .help 0, .help 0, .help 0, .look, .look, .look]

set_option maxRecDepth 4000 in
theorem removed_twoWorkers :
    let inv : Inventory := ⟨[⟨"c", "y"⟩], [⟨"a", "x"⟩, ⟨"b", "x"⟩]⟩
    let d : Deletion EmptyCluster := ⟨.standard, .nothing, ⟨⟩, .looking⟩
    let c := play (Course.move? errand?) ⟨d, .withPools 2 inv (.nothing false)⟩ twoWorkers
    c.director.result? = some (.ok ()) ∧ ∃ h₁ h₂ h₃, c.site.history = h₁ ++ h₂ ++ h₃ ∧
      Removed .components componentsEngine inv.components h₁ ∧
      Removed .prerequisites prerequisitesEngine inv.prerequisites h₂ ∧
      ∀ e ∈ History.events h₃, e.isOfTeardown := by
  intro inv d c
  have hsite : (Site.withPools 2 inv (.nothing false)).IsReady inv :=
    Site.isReady_withPools (by decide) (by decide) inv _
  have hr : c.director.result? = some (.ok ()) := by
    unfold c d inv
    rfl
  exact ⟨hr, removed_of_succeeded rfl hsite ⟨twoWorkers, by decide, rfl⟩ hr⟩

end Deletion

end Decommission
