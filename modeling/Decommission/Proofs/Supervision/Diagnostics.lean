import Decommission.Proofs.NameMap
import Decommission.Proofs.Supervision.Conducted
import Decommission.Proofs.Supervision.Meaning
import Mathlib.Data.List.Dedup
import Mathlib.Data.List.Induction
import Mathlib.Data.List.Perm.Subperm

/-!
# What a phase run remembers and lists

A phase run counts failures and keeps the last status of each name, two things apart.
`PhaseRun.Remembers` says how both follow from the reports passed on.  A name may come up
again with another status, so the count can exceed the number of names that failed last,
but it never falls behind it.  That is why no name is left as failed when a run ends well.

The entries are listed in one order only: however they come out of an unordered map,
sorting them by name gives the same list.

`Supervision.Reviewed` carries this over to supervisions.  One that ends in a failure lists
the entries it has kept, and no other lists any.
-/

namespace Decommission

/-! ## The last status of each name -/

/-- The numbers of the characters of a text. -/
def codePoints (s : String) : List Nat := s.toList.map Char.toNat

theorem codePoints_lt {a b : String} (h : a < b) : codePoints a < codePoints b :=
  List.map_lt (fun _ _ hlt => Char.lt_def.mp hlt) (String.lt_iff.mp h)

/-- The status of the last report of a name. -/
def lastStatus? (rs : List Report) (name : String) : Option Status :=
  ((rs.filter fun r => r.name = name).getLast?).map Report.status

namespace StatusMap

/-- What is known after several reports. -/
def ofReports (rs : List Report) : StatusMap := rs.foldl record .empty

theorem ofReports_concat (rs : List Report) (r : Report) :
    ofReports (rs ++ [r]) = (ofReports rs).record r := List.foldl_append

theorem get?_ofReports (rs : List Report) (name : String) :
    NameMap.get? (ofReports rs) name = lastStatus? rs name := by
  induction rs using List.reverseRecOn with
  | nil => rfl
  | append_singleton rs r ih =>
      rw [ofReports_concat, get?_record, lastStatus?, List.filter_append, List.getLast?_append]
      by_cases h : r.name = name
      · have hlast : [r].filter (fun r => decide (r.name = name)) = [r] :=
          List.filter_eq_self.mpr fun _ hr => List.mem_singleton.mp hr ▸ decide_eq_true h
        rw [if_pos h, hlast]
        rfl
      · have hother : [r].filter (fun r => decide (r.name = name)) = [] :=
          List.filter_eq_nil_iff.mpr fun _ hr =>
            List.mem_singleton.mp hr ▸ fun hname => h (of_decide_eq_true hname)
        rw [if_neg h, hother, ih]
        rfl

theorem exists_report_of_lastStatus? {rs : List Report} {name : String} {v : Status}
    (h : lastStatus? rs name = some v) : ∃ r ∈ rs, r.name = name ∧ r.status = v := by
  obtain ⟨r, hr, rfl⟩ := Option.map_eq_some_iff.mp h
  obtain ⟨hmem, hname⟩ := List.mem_filter.mp (List.mem_of_getLast? hr)
  exact ⟨r, hmem, of_decide_eq_true hname, rfl⟩

theorem mem_names_ofReports {rs : List Report} {name : String} :
    name ∈ NameMap.names (ofReports rs) ↔ name ∈ rs.map Report.name := by
  rw [NameMap.mem_names_iff, List.mem_map]
  constructor
  · rintro ⟨v, hv⟩
    obtain ⟨r, hr, hname, _⟩ := exists_report_of_lastStatus? (get?_ofReports rs name ▸ hv)
    exact ⟨r, hr, hname⟩
  · rintro ⟨r, hr, hname⟩
    have hmem : r ∈ rs.filter fun r => r.name = name :=
      List.mem_filter.mpr ⟨hr, decide_eq_true hname⟩
    obtain ⟨last, hlast⟩ := Option.isSome_iff_exists.mp
      (List.getLast?_isSome.mpr (List.ne_nil_of_mem hmem))
    refine ⟨last.status, ?_⟩
    rw [get?_ofReports, lastStatus?, hlast]
    rfl

/-- Each name that came up is listed once. -/
theorem names_ofReports_perm (rs : List Report) :
    (NameMap.names (ofReports rs)).Perm (rs.map Report.name).dedup :=
  (List.perm_ext_iff_of_nodup (NameMap.nodup_names _) (List.nodup_dedup _)).mpr fun _ =>
    mem_names_ofReports.trans List.mem_dedup.symm

/-- The names whose last status is a certain one. -/
def namesWith (m : StatusMap) (v : Status) : List String :=
  (m.toList.filter fun e => e.2 = v).map (·.1)

theorem mem_namesWith_iff {m : StatusMap} {v : Status} {name : String} :
    name ∈ m.namesWith v ↔ NameMap.get? m name = some v := by
  rw [namesWith, List.mem_map]
  constructor
  · rintro ⟨⟨name', w⟩, he, rfl⟩
    obtain ⟨hmem, hw⟩ := List.mem_filter.mp he
    obtain rfl : w = v := of_decide_eq_true hw
    exact NameMap.mem_toList_iff.mp hmem
  · intro h
    exact ⟨(name, v), List.mem_filter.mpr ⟨NameMap.mem_toList_iff.mpr h, decide_eq_true rfl⟩, rfl⟩

/-- Every name whose last report is of a failure has been counted. -/
theorem length_namesWith_error_le (rs : List Report) :
    ((ofReports rs).namesWith .error).length ≤ rs.countP (·.status == .error) := by
  have hnodup : ((ofReports rs).namesWith .error).Nodup :=
    (NameMap.nodup_names (ofReports rs)).sublist (List.filter_sublist.map _)
  have hsub : (ofReports rs).namesWith .error ⊆ (rs.filter (·.status == .error)).map Report.name := by
    intro name hname
    rw [mem_namesWith_iff, get?_ofReports] at hname
    obtain ⟨r, hr, rfl, hstatus⟩ := exists_report_of_lastStatus? hname
    exact List.mem_map_of_mem (List.mem_filter.mpr ⟨hr, beq_iff_eq.mpr hstatus⟩)
  have hle := (hnodup.subperm hsub).length_le
  rwa [List.length_map, ← List.countP_eq_length_filter] at hle

end StatusMap

/-! ## Phase runs -/

/-- The reports that are passed on. -/
def forwarded (es : List RunEffect) : List Report :=
  es.filterMap fun e =>
    match e with
    | .forward r => some r
    | _ => none

theorem forwarded_append (es fs : List RunEffect) :
    forwarded (es ++ fs) = forwarded es ++ forwarded fs := List.filterMap_append

namespace PhaseRun

/-- What a phase run remembers of the reports that it has passed on. -/
structure Remembers (r : PhaseRun) (passed : List Report) : Prop where
  /-- Of each name it keeps the last status. -/
  last : ∀ name, NameMap.get? r.statuses name = lastStatus? passed name
  size : r.statuses.size = (passed.map Report.name).dedup.length
  /-- Each name is listed once, in ascending order of the characters. -/
  names : (NameMap.names r.statuses).Perm (passed.map Report.name).dedup
  ascending : r.statuses.toList.Pairwise fun a b => codePoints a.1 < codePoints b.1
  /-- In whatever order the entries are at hand, sorting them by name gives the same list. -/
  sorted : ∀ es : List (String × Status), es.Perm r.statuses.toList →
    es.mergeSort (fun a b => decide (a.1 ≤ b.1)) = r.statuses.toList
  failed : r.failed = passed.countP (·.status == .error)
  /-- The failures that were counted are at least the names that failed last. -/
  errors : (r.statuses.namesWith .error).length ≤ r.failed
  /-- If the run has ended well, no name failed last. -/
  clean : r.outcome? = some .finished → ∀ name, NameMap.get? r.statuses name ≠ some .error

/-- A phase run has noted the reports that it has passed on, and has not ended well with a
failure among them. -/
structure Noted (r : PhaseRun) (passed : List Report) : Prop where
  statuses : r.statuses = .ofReports passed
  failed : r.failed = passed.countP (·.status == .error)
  clean : r.outcome? = some .finished → r.failed = 0

variable {r : PhaseRun} {passed : List Report}

theorem noted_start (phase : Phase) : Noted { phase } [] :=
  ⟨rfl, rfl, fun h => nomatch h⟩

theorem Noted.noting (h : r.Noted passed) (hlive : r.outcome? = none) (c : Report) :
    (r.noting c).Noted (passed ++ [c]) where
  statuses := by
    show r.statuses.record c = _
    rw [h.statuses, StatusMap.ofReports_concat]
  failed := by rw [noting_failed, h.failed, List.countP_append]
  clean hdone := nomatch hlive.symm.trans hdone

/-- Another state is all the same, unless it is a good end. -/
theorem Noted.into (h : r.Noted passed) {state : RunState}
    (hclean : state = .ended .finished → r.failed = 0) :
    Noted { r with state } passed := by
  refine ⟨h.statuses, h.failed, fun hdone => hclean ?_⟩
  rw [outcome?] at hdone
  split at hdone
  · rename_i o hs
    rw [← Option.some.inj hdone]
    exact hs
  · cases hdone

theorem failed_of_closingOutcome (h : r.closingOutcome = .finished) : r.failed = 0 := by
  rw [closingOutcome] at h
  split at h
  · cases h
  · exact Nat.eq_zero_of_not_pos ‹_›

theorem Noted.complete (h : r.Noted passed) {o : Outcome} (ho : o = .finished → r.failed = 0) :
    (r.complete o).1.Noted passed := h.into fun hs => ho (RunState.ended.inj hs)

/-- One input. -/
theorem Noted.handle (h : r.Noted passed) (i : RunInput) :
    (r.handle i).1.Noted (passed ++ forwarded (r.handle i).2) := by
  cases hlive : r.outcome? with
  | some o =>
      have hover : r.isOver := by
        rw [isOver, hlive]
        rfl
      rw [handle_of_isOver hover]
      rwa [show forwarded [] = [] from rfl, List.append_nil]
  | none =>
      cases i with
      | report c =>
          rw [handle_report hlive]
          exact h.noting hlive c
      | closed =>
          rw [handle_closed hlive]
          rw [show forwarded (r.complete r.closingOutcome).2 = [] from rfl, List.append_nil]
          exact h.complete failed_of_closingOutcome
      | cancelTimeout =>
          rcases state_of_outcome?_eq_none hlive with hs | hs
          · rw [handle_cancelTimeout hs, show forwarded [.cancel] = [] from rfl, List.append_nil]
            exact h.into fun hs => by cases hs
          · rw [handle_cancelTimeout_again hs, show forwarded [] = [] from rfl, List.append_nil]
            exact h
      | quitTimeout =>
          have hnone : forwarded ((if r.state = .running then [.cancel] else []) ++
              [.complete .forceQuitFailure]) = [] := by
            split
            · rfl
            · rfl
          rw [handle_quitTimeout hlive]
          dsimp only
          rw [hnone, List.append_nil]
          exact h.into fun hs => by cases hs

theorem Noted.handleAll (h : r.Noted passed) (is : List RunInput) :
    (r.handleAll is).1.Noted (passed ++ forwarded (r.handleAll is).2) := by
  induction is generalizing r passed with
  | nil => rwa [show forwarded (r.handleAll []).2 = [] from rfl, List.append_nil]
  | cons i is ih =>
      have hall := ih (h.handle i)
      rwa [List.append_assoc, ← forwarded_append] at hall

/-- What a run has noted says all that it remembers. -/
theorem Noted.remembers (h : r.Noted passed) : r.Remembers passed := by
  have hlast : ∀ name, NameMap.get? r.statuses name = lastStatus? passed name := by
    intro name
    rw [h.statuses, StatusMap.get?_ofReports]
  have hnames : (NameMap.names r.statuses).Perm (passed.map Report.name).dedup := by
    rw [h.statuses]
    exact StatusMap.names_ofReports_perm passed
  have herrors : (r.statuses.namesWith .error).length ≤ r.failed := by
    rw [h.statuses, h.failed]
    exact StatusMap.length_namesWith_error_le passed
  refine ⟨hlast, ?_, hnames, r.statuses.ascending.imp codePoints_lt,
    fun es hes => NameMap.mergeSort_eq hes, h.failed, herrors, fun hdone name hname => ?_⟩
  · rw [← hnames.length_eq, NameMap.names, List.length_map]
    rfl
  · have hmem := StatusMap.mem_namesWith_iff.mpr hname
    have hpos := List.length_pos_of_mem hmem
    have hzero := h.clean hdone
    omega

end PhaseRun

/-! ## Supervisions -/

/-- The note, if it lists the last status of a component. -/
def Event.listing? : Event → Option Note
  | note (.lastStatus phase name status) => some (.lastStatus phase name status)
  | _ => none

/-- The notes among events that list the last status of a component. -/
def listings (es : List Event) : List Note := es.filterMap Event.listing?

/-- The reports that are passed on to the outside. -/
def passedOn (es : List Event) : List Report := (updatesIn es).filterMap Update.report

theorem listings_append (es fs : List Event) :
    listings (es ++ fs) = listings es ++ listings fs := List.filterMap_append

theorem passedOn_append (es fs : List Event) :
    passedOn (es ++ fs) = passedOn es ++ passedOn fs := by
  rw [passedOn, updatesIn_append, List.filterMap_append]
  rfl

namespace Supervision

/-- What a supervision has to list, being where it is. -/
def owed (s : Supervision) : List Note :=
  match s.result? with
  | some (.error (.engine ..)) => []
  | some (.error _) =>
      s.run.statuses.toList.map fun (name, status) => .lastStatus s.phase name status
  | _ => []

variable {phase : Phase} {g : Glance} {s s' : Supervision} {es es' : List Event}

theorem owed_of_result? (h : s.result? = none) : s.owed = [] := by
  rw [owed, h]

/-- The end of a phase run lists what has to be listed, and passes nothing on. -/
theorem listings_closing (s : Supervision) (now : Nat) (o : Outcome) :
    listings ((s.endedWith o).closing now o) = (s.endedWith o).owed ∧
      passedOn ((s.endedWith o).closing now o) = [] := by
  constructor
  · have hentries : ∀ entries : List (String × Status),
        listings ((entries.map fun (name, status) => Note.lastStatus s.phase name status).map
            .note) = entries.map fun (name, status) => .lastStatus s.phase name status := by
      intro entries
      rw [listings, List.map_map, List.filterMap_map]
      exact congrFun (List.filterMap_eq_map (f := fun e => Note.lastStatus s.phase e.1 e.2)) entries
    rw [closing, listings_append]
    cases o with
    | finished => rfl
    | componentFailure n => exact (List.append_nil _).trans (hentries _)
    | timeoutFailure => exact (List.append_nil _).trans (hentries _)
    | forceQuitFailure => exact (List.append_nil _).trans (hentries _)
  · rw [passedOn, updatesIn_closing]
    rfl

/-- What has come of the diagnostics of a supervision at any point. -/
structure Diary (phase : Phase) (es : List Event) (s : Supervision) : Prop where
  phase : s.phase = phase
  noted : s.run.Noted (passedOn es)
  live : s.result? = none → s.run.outcome? = none
  listings : listings es = s.owed

theorem diary_start (phase : Phase) (engine : Nat) (budget : Budget) (now : Nat) :
    Diary phase (start phase engine budget now).opening (start phase engine budget now) where
  phase := rfl
  noted := PhaseRun.noted_start phase
  live _ := rfl
  listings := rfl

/-- What passes nothing on and lists nothing leaves a supervision that goes on. -/
theorem Diary.goesOn (h : Diary phase es s) (hr : s.result? = none) (hphase : s'.phase = s.phase)
    (hrun : s'.run.Noted (passedOn es)) (hr' : s'.result? = none)
    (hlive : s'.run.outcome? = none) (hpassed : passedOn es' = [])
    (hlisted : Decommission.listings es' = []) : Diary phase (es ++ es') s' where
  phase := hphase.trans h.phase
  noted := by rwa [passedOn_append, hpassed, List.append_nil]
  live _ := hlive
  listings := by
    rw [listings_append, hlisted, h.listings, owed_of_result? hr, owed_of_result? hr']
    rfl

/-- The end lists what has been kept. -/
theorem Diary.close (h : Diary phase es s) (hr : s.result? = none) (before : List Event) (now : Nat)
    {o : Outcome} (hclean : o = .finished → s.run.failed = 0) (hpassed : passedOn before = [])
    (hlisted : Decommission.listings before = []) :
    Diary phase (es ++ (before ++ (s.endedWith o).closing now o)) (s.endedWith o) where
  phase := h.phase
  noted := by
    rw [passedOn_append, passedOn_append, hpassed, (listings_closing s now o).2, List.append_nil,
      List.append_nil]
    exact h.noted.into fun hs => hclean (RunState.ended.inj hs)
  live hnone := nomatch hnone
  listings := by
    rw [listings_append, listings_append, hlisted, (listings_closing s now o).1, h.listings,
      owed_of_result? hr]
    rfl

theorem lateCancel_quiet (s : Supervision) :
    passedOn s.lateCancel = [] ∧ listings s.lateCancel = [] := by
  rw [lateCancel]
  split
  · exact ⟨rfl, rfl⟩
  · exact ⟨rfl, rfl⟩

/-- One look. -/
theorem Diary.look (h : Diary phase es s) (hl : s.look g = some (es', s')) :
    Diary phase (es ++ es') s' := by
  have hr := result?_of_look hl
  have hlive := h.live hr
  cases look_cases hl with
  | answered hs ha => exact h.goesOn hr rfl h.noted rfl hlive rfl rfl
  | refused e hs ha =>
      refine ⟨h.phase, ?_, fun hnone => (by cases hnone), ?_⟩
      · rw [passedOn_append, show passedOn (s.refuse e).1 = [] from rfl, List.append_nil]
        exact h.noted
      · rw [listings_append, h.listings, owed_of_result? hr]
        rfl
  | reported r hs hh =>
      have hon : Supervision.result? { s with run := s.run.noting r } = none := by
        rw [result?, hs]
      rw [apply_report hlive]
      refine ⟨h.phase, ?_, fun _ => hlive, ?_⟩
      · rw [passedOn_append]
        exact h.noted.noting hlive r
      · rw [listings_append, h.listings, owed_of_result? hr, owed_of_result? hon]
        rfl
  | closed hs hh =>
      rw [apply_closed hlive]
      exact h.close hr [] g.now PhaseRun.failed_of_closingOutcome rfl rfl
  | quit hi hq =>
      rw [apply_quitTimeout hlive]
      obtain ⟨hpassed, hlisted⟩ := s.lateCancel_quiet
      exact h.close hr s.lateCancel g.now (fun ho => by cases ho) hpassed hlisted
  | cancel hi hq hrun hc =>
      rw [apply_cancelTimeout hrun]
      exact h.goesOn hr rfl (h.noted.into fun hs => by cases hs) hr rfl rfl rfl

/-- What has come of the diagnostics of a supervision that has let certain events happen. -/
structure Reviewed (phase : Phase) (es : List Event) (s : Supervision) : Prop where
  /-- The run remembers what has been passed on. -/
  remembers : s.run.Remembers (passedOn es)
  /-- A supervision that ends in a failure of its run lists what it remembers, entry by
  entry. -/
  listed : ∀ e, s.result? = some (.error e) → (∀ p x, e ≠ .engine p x) →
    listings es = s.run.statuses.toList.map fun (name, status) => .lastStatus phase name status
  /-- Nothing is listed before the end, after a good one, and if the engine did not start. -/
  unlisted : s.result? = none ∨ s.result? = some (.ok ()) ∨
    (∃ p x, s.result? = some (.error (.engine p x))) → listings es = []

theorem Diary.reviewed (h : Diary phase es s) : s.Reviewed phase es where
  remembers := h.noted.remembers
  listed e he hne := by
    rw [h.listings, owed, he, h.phase]
    cases e with
    | engine p x => exact absurd rfl (hne p x)
    | _ => rfl
  unlisted hr := by
    rw [h.listings, owed]
    rcases hr with hr | hr | ⟨p, x, hr⟩
    · rw [hr]
    · rw [hr]
    · rw [hr]

/-- Whatever inputs a phase run takes, it remembers the last status of each name and the
number of failures.  Whatever a supervision gets to see, its run does, and it lists what the
run remembers if that run fails, and only then. -/
theorem reviewed_play (phase : Phase) (is : List RunInput) (engine : Nat) (budget : Budget)
    (now : Nat) (gs : List Glance) :
    (PhaseRun.handleAll { phase } is).1.Remembers
        (forwarded (PhaseRun.handleAll { phase } is).2) ∧
      Reviewed phase
        (play (recorded Supervision.look)
          ((start phase engine budget now).opening, start phase engine budget now) gs).1
        (play (recorded Supervision.look)
          ((start phase engine budget now).opening, start phase engine budget now) gs).2 := by
  refine ⟨((PhaseRun.noted_start phase).handleAll is).remembers, Diary.reviewed ?_⟩
  have hc : Conducted phase engine budget _ _ := ⟨now, gs, rfl⟩
  exact hc.induction (P := Diary phase) (diary_start phase engine budget)
    fun g es s es' s' h hl => h.look hl

/-- A name that failed first and was removed in the end is listed as removed.  The run still
counts a failure. -/
example :
    let r := PhaseRun.handleAll { phase := .components }
      [.report (.failed "dex" "kyma" "stuck"), .report (.removed "ory" "kyma"),
        .report (.removed "dex" "kyma"), .closed]
    r.1.statuses.toList = [("dex", .success), ("ory", .success)] ∧
      r.1.outcome? = some (.componentFailure 1) := by
  decide +kernel

end Supervision

end Decommission
