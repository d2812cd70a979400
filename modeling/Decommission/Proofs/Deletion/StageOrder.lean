import Decommission.Proofs.Deletion.Chronicle

/-!
# Stages in order

`Deletion.Disciplined` says what everybody outside can rely on while a deletion
runs: which engine is started when, when the cluster is called, what the updates
look like, and whose error is returned.  `Deletion.disciplined_play` derives it
from the chronicle, for every behaviour of the collaborators.
-/

namespace Decommission

namespace Update

/-- A phase has started and not ended. -/
def Open (phase : Phase) (us : List Update) : Prop :=
  .starting phase ∈ us ∧
    ∀ u ∈ us, u.phase = phase → u.milestone = .start ∨ u.milestone = .running

theorem not_open_of_phase {phase other : Phase} {us : List Update}
    (h : ∀ u ∈ us, u.phase = other) (hne : other ≠ phase) : ¬ Open phase us :=
  fun ho => hne (h _ ho.1).symm

theorem not_open_of_ending_mem {phase : Phase} {us : List Update}
    {r : Except PhaseError Unit} (h : .ending phase r ∈ us) : ¬ Open phase us :=
  fun ho => (ho.2 _ h rfl).elim (milestoneOf_ne r).1 (milestoneOf_ne r).2

/-- No two phases are open at the same time if one begins after the other has
ended. -/
theorem not_both_open {us rest : List Update} {taken : List Report}
    {r : Except PhaseError Unit} (hus : us <+: complete .components taken r ++ rest) :
    ¬ (Open .components us ∧ Open .prerequisites us) := by
  rintro ⟨hc, hp⟩
  rcases List.prefix_or_prefix_of_prefix hus (List.prefix_append _ rest) with hpre | hpre
  · exact not_open_of_phase (fun u hu => phase_of_mem_complete (hpre.subset hu))
      (by decide) hp
  · exact not_open_of_ending_mem
      (hpre.subset (List.mem_append_right _ (List.mem_singleton_self _))) hc

end Update

namespace Deletion

variable {κ : Type}

/-! ## What happens in each stage -/

variable {d : Deletion κ} {found : List String} {es : List Event}

theorem lookedUp_quiet (d : Deletion κ) {e : Event} (h : e ∈ d.lookedUp) :
    e.isSilent ∧ e.reachesOut = false := by
  rw [lookedUp] at h
  split at h
  · rw [List.mem_singleton.mp h]
    exact ⟨rfl, rfl⟩
  · cases h

theorem preamble_quiet {e : Event} (h : e ∈ d.preamble found) :
    e.isSilent ∧ e.reachesOut = false := by
  rcases List.mem_append.mp h with hm | hm
  · exact lookedUp_quiet d hm
  · simp only [List.mem_cons, List.not_mem_nil, or_false] at hm
    rcases hm with rfl | rfl
    · exact ⟨rfl, rfl⟩
    · exact ⟨rfl, rfl⟩

theorem updatesIn_preamble (d : Deletion κ) (found : List String) :
    updatesIn (d.preamble found) = [] :=
  updatesIn_of_silent fun _ he => (preamble_quiet he).1

theorem callsIn_preamble (d : Deletion κ) (found : List String) :
    callsIn (d.preamble found) = [] :=
  callsIn_of_not_reachesOut fun _ he => (preamble_quiet he).2

/-- Once the components were removed without failure, their whole run was
announced, the signal was not fired, and nobody but their engine was reached. -/
theorem ComponentsRemoved.quiet (h : d.ComponentsRemoved found es) :
    (∃ taken, updatesIn es = Update.complete .components taken (.ok ())) ∧
      .signalFired ∉ es ∧ callsIn es = [] ∧ .launched prerequisitesEngine ∉ es := by
  obtain ⟨_, run, s, hc, hr, rfl⟩ := h
  obtain ⟨taken, hlife⟩ := hc.lifecycle hr
  refine ⟨⟨taken, ?_⟩, ?_, ?_, ?_⟩
  · rw [updatesIn_append, updatesIn_preamble]
    exact hlife.updates
  · rw [List.mem_append]
    rintro (hm | hm)
    · cases (preamble_quiet hm).1
    · exact (hlife.calm rfl).1 hm
  · rw [callsIn_append, callsIn_preamble]
    exact hc.callsIn
  · rw [List.mem_append]
    rintro (hm | hm)
    · cases (preamble_quiet hm).2
    · exact absurd (hc.launched hm) (by decide)

theorem PrerequisitesUnder.callsIn {s : Supervision} (h : d.PrerequisitesUnder found es s) :
    callsIn es = [] := by
  obtain ⟨before, elapsed, run, hb, hc, rfl⟩ := h
  rw [callsIn_append, hb.quiet.2.2.1]
  exact hc.callsIn

/-- While the prerequisites are being removed, the run of the components is
followed by what their run has announced. -/
theorem PrerequisitesUnder.updates {s : Supervision} (h : d.PrerequisitesUnder found es s) :
    ∃ taken rest, updatesIn es = Update.complete .components taken (.ok ()) ++ rest ∧
      (s.result? = none → ∃ taken', rest = Update.begun .prerequisites taken') ∧
      ∀ r, s.result? = some r → ∃ taken', rest = Update.complete .prerequisites taken' r := by
  obtain ⟨before, elapsed, run, hb, hc, rfl⟩ := h
  obtain ⟨taken, hupdates⟩ := hb.quiet.1
  refine ⟨taken, updatesIn run, ?_, ?_, ?_⟩
  · rw [updatesIn_append, hupdates]
    rfl
  · intro hr
    obtain ⟨hphase, taken', hu⟩ := hc.underway hr
    exact ⟨taken', hphase ▸ hu.updates⟩
  · intro r hr
    obtain ⟨taken', hlife⟩ := hc.lifecycle hr
    exact ⟨taken', hlife.updates⟩

/-- The engine of the prerequisites is started once, right after the components
were removed without failure. -/
theorem PrerequisitesUnder.launched {s : Supervision} (h : d.PrerequisitesUnder found es s) :
    ∃ before elapsed after, d.ComponentsRemoved found before ∧
      es = before ++ .note (.rebalanced elapsed (d.config.budget.remaining elapsed)) ::
        .update (.starting .prerequisites) ::
        .note (.phaseStarted .prerequisites (d.config.budget.remaining elapsed)) ::
        .launched prerequisitesEngine :: after ∧
      .launched prerequisitesEngine ∉ after := by
  obtain ⟨before, elapsed, run, hb, hc, rfl⟩ := h
  obtain ⟨after, rfl, hquiet⟩ := hc.reachesOut
  exact ⟨before, elapsed, after, hb, rfl, fun hm => nomatch hquiet _ hm⟩

variable [Cluster κ] {d' : Deletion κ}

/-- The events of a deletion that has not come to the prerequisites, or what a
teardown adds to the events of their supervision. -/
theorem Chronicle.early_or_late (h : Chronicle d es d') :
    (.launched prerequisitesEngine ∉ es ∧ callsIn es = [] ∧
        ∀ u ∈ updatesIn es, u.phase = .components) ∨
      ∃ found before s after, es = before ++ after ∧ d.PrerequisitesUnder found before s ∧
        (∀ e ∈ after, e.isOfTeardown) ∧ (after = [] ∨ s.result? = some (.ok ())) := by
  have hcomponents : ∀ {found run s}, Supervision.Conducted .components componentsEngine
      d.config.budget run s → .launched prerequisitesEngine ∉ d.preamble found ++ run ∧
        callsIn (d.preamble found ++ run) = [] := by
    intro found run s hc
    constructor
    · rw [List.mem_append]
      rintro (hm | hm)
      · cases (preamble_quiet hm).2
      · exact absurd (hc.launched hm) (by decide)
    · rw [callsIn_append, callsIn_preamble]
      exact hc.callsIn
  cases h with
  | looking => exact Or.inl ⟨by simp, rfl, by simp⟩
  | unknown reason ha =>
      refine Or.inl ⟨(fun hm => nomatch (lookedUp_quiet d hm).2), ?_, ?_⟩
      · exact callsIn_of_not_reachesOut fun _ he => (lookedUp_quiet d he).2
      · rw [updatesIn_of_silent fun _ he => (lookedUp_quiet d he).1]
        simp
  | components found since run s ha hc hr =>
      refine Or.inl ⟨(hcomponents hc).1, (hcomponents hc).2, ?_⟩
      obtain ⟨hphase, taken, hu⟩ := hc.underway hr
      rw [updatesIn_append, updatesIn_preamble, List.nil_append, hu.updates, hphase]
      exact fun u hm => Update.phase_of_mem_begun hm
  | componentsFailed found run s e ha hc hr =>
      refine Or.inl ⟨(hcomponents hc).1, (hcomponents hc).2, ?_⟩
      obtain ⟨taken, hlife⟩ := hc.lifecycle hr
      rw [updatesIn_append, updatesIn_preamble, List.nil_append, hlife.updates]
      exact fun u hm => Update.phase_of_mem_complete hm
  | prerequisites found es s hp hr =>
      exact Or.inr ⟨found, es, s, [], (List.append_nil es).symm, hp, by simp, Or.inl rfl⟩
  | prerequisitesFailed found es s e hp hr =>
      exact Or.inr ⟨found, es, s, [], (List.append_nil es).symm, hp, by simp, Or.inl rfl⟩
  | tearing found es t ht =>
      obtain ⟨before, run, ⟨s, hp, hr⟩, hc, rfl⟩ := ht
      refine Or.inr ⟨found, before, s, _, rfl, hp, ?_, Or.inr hr⟩
      intro e he
      rcases List.mem_cons.mp he with rfl | hm
      · rfl
      · exact hc.isOfTeardown hm

/-! ## What can be relied on -/

/-- The result of a deletion is the error of the first stage that failed, and no
stage failed if there is no error. -/
inductive Concluded (d : Deletion κ) (es : List Event) : Except DeletionError Unit → Prop
  | lookup (reason : String) : d.metadata.answer = .error reason → es = d.lookedUp →
      Concluded d es (.error (.metadata reason))
  | components (found : List String) (run : List Event) (s : Supervision) (e : PhaseError) :
      d.metadata.answer = .ok found → es = d.preamble found ++ run →
      Supervision.Conducted .components componentsEngine d.config.budget run s →
      s.result? = some (.error e) → Concluded d es (.error (.phase e))
  | prerequisites (found : List String) (s : Supervision) (e : PhaseError) :
      d.PrerequisitesUnder found es s → s.result? = some (.error e) →
      Concluded d es (.error (.phase e))
  | teardown (found : List String) (t : Teardown κ) (e : TeardownError) :
      d.TeardownUnder found es t → t.result? = some (.error e) →
      Concluded d es (.error (.teardown e))
  | success (found : List String) (t : Teardown κ) :
      d.TeardownUnder found es t → t.result? = some (.ok ()) → Concluded d es (.ok ())

/-- What can be relied on in a deletion that has come to `d'` from its beginning
`d`, certain events having happened. -/
structure Disciplined (d : Deletion κ) (es : List Event) (d' : Deletion κ) : Prop where
  /-- If the namespaces cannot be looked up, there are no updates, no engine is
  started and the cluster is not called. -/
  untouched : ∀ reason, d.metadata.answer = .error reason →
    updatesIn es = [] ∧ ∀ e ∈ es, e.reachesOut = false
  /-- The engine of the prerequisites is started at most once, and only after the
  components were removed without failure, while the signal has not been fired. -/
  launched : .launched prerequisitesEngine ∈ es →
    ∃ found before quiet after, es = before ++ quiet ++ .launched prerequisitesEngine :: after ∧
      d.ComponentsRemoved found before ∧ .signalFired ∉ before ++ quiet ∧
      .launched prerequisitesEngine ∉ before ++ quiet ++ after
  /-- The cluster is called only after everything was removed without failure. -/
  called : ∀ c, .called c ∈ es →
    ∃ found before after, es = before ++ after ∧ d.AllRemoved found before ∧
      callsIn before = []
  /-- No two phases are under way at the same time. -/
  alternating : ∀ us, us <+: updatesIn es →
    ¬ (Update.Open .components us ∧ Update.Open .prerequisites us)
  /-- In the end, there are no updates, or those of one complete run of the
  components, or those of such a run that went well and of one of the
  prerequisites. -/
  updates : d'.result?.isSome → updatesIn es = [] ∨
    (∃ taken r, updatesIn es = Update.complete .components taken r) ∨
    ∃ taken taken' r, updatesIn es =
      Update.complete .components taken (.ok ()) ++ Update.complete .prerequisites taken' r
  /-- The result is that of the first stage that failed. -/
  concluded : ∀ r, d'.result? = some r → d.Concluded es r
  /-- What is torn down are the namespaces that were looked up, in order, and then
  the one that is torn down in any case, even if it is among them. -/
  torn : ∀ t, d'.stage = .tearing t → ∃ found, d.metadata.answer = .ok found ∧
    d.TeardownUnder found es t ∧ d.spacesWith found = found ++ [d.config.legacyNamespace]

theorem Chronicle.untouched (h : Chronicle d es d') {reason : String}
    (ha : d.metadata.answer = .error reason) :
    updatesIn es = [] ∧ ∀ e ∈ es, e.reachesOut = false := by
  have habsurd : ∀ {found before}, ¬ d.ComponentsRemoved found before := by
    rintro found before ⟨hok, _⟩
    rw [hok] at ha
    cases ha
  cases h with
  | looking => exact ⟨rfl, by simp⟩
  | unknown =>
      exact ⟨updatesIn_of_silent fun _ he => (lookedUp_quiet d he).1,
        fun _ he => (lookedUp_quiet d he).2⟩
  | components found since run s hok => rw [hok] at ha; cases ha
  | componentsFailed found run s e hok => rw [hok] at ha; cases ha
  | prerequisites found es s hp =>
      obtain ⟨_, _, _, hb, _⟩ := hp
      exact absurd hb habsurd
  | prerequisitesFailed found es s e hp =>
      obtain ⟨_, _, _, hb, _⟩ := hp
      exact absurd hb habsurd
  | tearing found es t ht =>
      obtain ⟨_, _, ⟨_, ⟨_, _, _, hb, _⟩, _⟩, _⟩ := ht
      exact absurd hb habsurd

theorem Chronicle.launched (h : Chronicle d es d') (hl : .launched prerequisitesEngine ∈ es) :
    ∃ found before quiet after, es = before ++ quiet ++ .launched prerequisitesEngine :: after ∧
      d.ComponentsRemoved found before ∧ .signalFired ∉ before ++ quiet ∧
      .launched prerequisitesEngine ∉ before ++ quiet ++ after := by
  rcases h.early_or_late with ⟨hnot, _⟩ | ⟨found, es', s, more, rfl, hp, hmore, _⟩
  · exact absurd hl hnot
  · obtain ⟨before, elapsed, after, hb, rfl, hafter⟩ := hp.launched
    refine ⟨found, before, [.note (.rebalanced elapsed (d.config.budget.remaining elapsed)),
      .update (.starting .prerequisites),
      .note (.phaseStarted .prerequisites (d.config.budget.remaining elapsed))],
      after ++ more, ?_, hb, ?_, ?_⟩
    · simp
    · rw [List.mem_append]
      rintro (hm | hm)
      · exact hb.quiet.2.1 hm
      · simp at hm
    · rw [List.mem_append, List.mem_append, List.mem_append]
      rintro ((hm | hm) | (hm | hm))
      · exact hb.quiet.2.2.2 hm
      · simp at hm
      · exact hafter hm
      · cases hmore _ hm

theorem Chronicle.called (h : Chronicle d es d') {c : Call} (hc : .called c ∈ es) :
    ∃ found before after, es = before ++ after ∧ d.AllRemoved found before ∧
      callsIn before = [] := by
  rcases h.early_or_late with ⟨_, hnone, _⟩ | ⟨found, before, s, after, rfl, hp, _, hr⟩
  · rw [← mem_callsIn, hnone] at hc
    cases hc
  · rcases hr with rfl | hr
    · rw [List.append_nil, ← mem_callsIn, hp.callsIn] at hc
      cases hc
    · exact ⟨found, before, after, rfl, ⟨s, hp, hr⟩, hp.callsIn⟩

theorem Chronicle.alternating (h : Chronicle d es d') {us : List Update}
    (hus : us <+: updatesIn es) :
    ¬ (Update.Open .components us ∧ Update.Open .prerequisites us) := by
  rcases h.early_or_late with ⟨_, _, hphase⟩ | ⟨found, before, s, after, rfl, hp, hafter, _⟩
  · rintro ⟨_, ho⟩
    exact Update.not_open_of_phase (fun u hu => hphase u (hus.subset hu)) (by decide) ho
  · obtain ⟨taken, rest, hupdates, _⟩ := hp.updates
    rw [updatesIn_append, hupdates,
      updatesIn_of_silent fun e he => Event.isSilent_of_isOfTeardown (hafter e he),
      List.append_nil] at hus
    exact Update.not_both_open hus

theorem TeardownUnder.updates {t : Teardown κ} (h : d.TeardownUnder found es t) :
    ∃ taken taken', updatesIn es =
      Update.complete .components taken (.ok ()) ++
        Update.complete .prerequisites taken' (.ok ()) := by
  obtain ⟨before, run, ⟨s, hp, hr⟩, hc, rfl⟩ := h
  obtain ⟨taken, rest, hupdates, _, hended⟩ := hp.updates
  obtain ⟨taken', rfl⟩ := hended _ hr
  refine ⟨taken, taken', ?_⟩
  rw [updatesIn_append, hupdates, updatesIn_of_silent, List.append_nil]
  intro e he
  rcases List.mem_cons.mp he with rfl | hm
  · rfl
  · exact Event.isSilent_of_isOfTeardown (hc.isOfTeardown hm)

theorem Chronicle.concluded (hfresh : d.stage = .looking) (h : Chronicle d es d')
    {r : Except DeletionError Unit} (hr : d'.result? = some r) : d.Concluded es r := by
  cases h with
  | looking => rw [result?, hfresh] at hr; cases hr
  | unknown reason ha => cases hr; exact .lookup reason ha rfl
  | components => cases hr
  | componentsFailed found run s e ha hc hs =>
      cases hr
      exact .components found run s e ha rfl hc hs
  | prerequisites => cases hr
  | prerequisitesFailed found es s e hp hs => cases hr; exact .prerequisites found s e hp hs
  | tearing found es t ht =>
      rw [result?_withTeardown] at hr
      obtain ⟨r', ht', rfl⟩ := Option.map_eq_some_iff.mp hr
      cases r' with
      | error e => exact .teardown found t e ht ht'
      | ok _ => exact .success found t ht ht'

theorem Concluded.updates {r : Except DeletionError Unit} (h : d.Concluded es r) :
    updatesIn es = [] ∨ (∃ taken r, updatesIn es = Update.complete .components taken r) ∨
      ∃ taken taken' r, updatesIn es =
        Update.complete .components taken (.ok ()) ++
          Update.complete .prerequisites taken' r := by
  cases h with
  | lookup reason ha he =>
      rw [he]
      exact Or.inl (updatesIn_of_silent fun _ he => (lookedUp_quiet d he).1)
  | components found run s e ha he hc hs =>
      obtain ⟨taken, hlife⟩ := hc.lifecycle hs
      refine Or.inr (Or.inl ⟨taken, .error e, ?_⟩)
      rw [he, updatesIn_append, updatesIn_preamble]
      exact hlife.updates
  | prerequisites found s e hp hs =>
      obtain ⟨taken, rest, hupdates, _, hended⟩ := hp.updates
      obtain ⟨taken', rfl⟩ := hended _ hs
      exact Or.inr (Or.inr ⟨taken, taken', _, hupdates⟩)
  | teardown found t e ht _ =>
      obtain ⟨taken, taken', hupdates⟩ := ht.updates
      exact Or.inr (Or.inr ⟨taken, taken', _, hupdates⟩)
  | success found t ht _ =>
      obtain ⟨taken, taken', hupdates⟩ := ht.updates
      exact Or.inr (Or.inr ⟨taken, taken', _, hupdates⟩)

/-- A deletion whose teardown is under way has torn nothing else down. -/
theorem Chronicle.torn (hfresh : d.stage = .looking) (h : Chronicle d es d') {t : Teardown κ}
    (ht : d'.stage = .tearing t) :
    ∃ found, d.metadata.answer = .ok found ∧ d.TeardownUnder found es t ∧
      d.spacesWith found = found ++ [d.config.legacyNamespace] := by
  cases h with
  | looking => rw [hfresh] at ht; cases ht
  | tearing found es t' hu =>
      rw [withTeardown] at ht
      split at ht
      · cases ht
      · cases ht
      · injection ht with ht
        subst ht
        obtain ⟨_, _, ⟨_, ⟨_, _, _, ⟨ha, _⟩, _⟩, _⟩, _⟩ := id hu
        exact ⟨found, ha, hu, rfl⟩
  | _ => cases ht

/-- Whatever the metadata, the engines and the cluster do, and in whatever order
the workers of the teardown do their errands, a deletion keeps to its stages and
stops at the first that fails. -/
theorem disciplined_play (config : Config) (metadata : Metadata) (cluster : κ)
    (ms : List Move) :
    Disciplined { config, metadata, cluster }
      (play (recorded move?) ([], { config, metadata, cluster }) ms).1
      (play (recorded move?) ([], { config, metadata, cluster }) ms).2 := by
  have h := chronicle_play { config, metadata, cluster } rfl ms
  refine ⟨fun _ => h.untouched, h.launched, fun _ => h.called, fun _ => h.alternating, ?_,
    fun _ => h.concluded rfl, fun _ => h.torn rfl⟩
  intro hr
  obtain ⟨r, hr⟩ := Option.isSome_iff_exists.mp hr
  exact (h.concluded rfl hr).updates

end Deletion

end Decommission
