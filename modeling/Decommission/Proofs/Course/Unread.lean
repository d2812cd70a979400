import Decommission.Proofs.Course.Attending
import Decommission.Proofs.Pool.Schedule

/-!
# Pools that nobody reads

A run goes on when its reader has left.  A closed one does nothing any more.  One
whose signal has been fired ends the calls under way, sends their reports to nobody,
and hands out nothing (`Site.Stopped`).
-/

namespace Decommission

namespace Pool

variable {fired : Bool} {p p' : Pool} {a : Action}

/-- The components that were handed out. -/
def handedOut (p : Pool) : List Component := p.tasks.map Task.component

/-- The number of components that were handed out and whose removal has not ended. -/
def unfinished (p : Pool) : Nat := (p.tasks.filter Task.holdsSlot).length

/-- Nothing is handed out once the signal has been fired. -/
theorem stopped_step (hs : p.step true a = some p') :
    p'.handedOut = p.handedOut ∧ p'.unfinished ≤ p.unfinished := by
  cases step_cases hs with
  | dispatch c rest hd hw hfired => cases hfired
  | call before after c due ht =>
      exact ⟨by simp [handedOut, ht], slots_replace ht fun _ => rfl⟩
  | conclude before after c due v ht => exact ⟨by simp [handedOut, ht], slots_replace ht nofun⟩
  | report before after c v ht => exact ⟨by simp [handedOut, ht], slots_replace ht nofun⟩
  | die before after t ht hslot =>
      exact ⟨by simp [handedOut, ht], slots_replace ht fun _ => hslot⟩
  | collapse | heed | exhaust | close => exact ⟨rfl, Nat.le_refl _⟩

theorem unfinished_of_isClosed (h : p.isClosed) : p.unfinished = 0 := by
  rw [isClosed, Bool.and_eq_true, allOver, List.all_eq_true] at h
  rw [unfinished, List.length_eq_zero_iff, List.filter_eq_nil_iff]
  intro t ht hslot
  have hover := h.2 t ht
  obtain ⟨c, stage⟩ := t
  cases stage with
  | ready | calling => cases hover
  | _ => cases hslot

end Pool

/-- The pool of the run, if it has one. -/
def Run.pool? (r : Run) : Option Pool :=
  match r.work with
  | .pool _ p => some p
  | _ => none

theorem Run.pool?_of_work {r : Run} {u : Uninstaller} {p : Pool} (h : r.work = .pool u p) :
    r.pool? = some p := by
  rw [pool?, h]

namespace Site

variable {s s' : Site}

/-- The pools of the runs. -/
def pools (s : Site) : List Pool := s.runs.filterMap Run.pool?

/-- The components that the pools have handed out. -/
def handedOut (s : Site) : List Component := s.pools.flatMap Pool.handedOut

/-- The number of components that were handed out and whose removal has not ended. -/
def unfinished (s : Site) : Nat := total Pool.unfinished s.pools

/-- The number of calls of uninstallers under way. -/
def inProgress (s : Site) : Nat := total Pool.inProgress s.pools

theorem pools_eq {before after : List Run} {r : Run} {u : Uninstaller} {p : Pool}
    (hruns : s.runs = before ++ r :: after) (hwork : r.work = .pool u p) :
    s.pools = before.filterMap Run.pool? ++ p :: after.filterMap Run.pool? := by
  rw [pools, hruns, List.filterMap_append, List.filterMap_cons_some (Run.pool?_of_work hwork)]

/-! ## Closed runs -/

theorem total_unfinished_of_isClosed {rs : List Run} (h : ∀ r ∈ rs, r.IsClosed) :
    total Pool.unfinished (rs.filterMap Run.pool?) = 0 := by
  induction rs with
  | nil => rfl
  | cons r rs ih =>
      obtain ⟨u, p, hwork, hc⟩ := h r (List.mem_cons_self ..)
      rw [List.filterMap_cons_some (Run.pool?_of_work hwork), total, Pool.unfinished_of_isClosed hc,
        ih fun r hr => h r (List.mem_cons_of_mem _ hr)]

theorem inProgress_le (s : Site) : s.inProgress ≤ s.unfinished := by
  rw [inProgress, unfinished]
  induction s.pools with
  | nil => exact Nat.le_refl _
  | cons p ps ih => exact Nat.add_le_add (Pool.Shift.inProgress_le p) ih

/-- Where all runs are closed no call is under way. -/
theorem inProgress_of_isClosed (h : ∀ r ∈ s.runs, r.IsClosed) : s.inProgress = 0 :=
  Nat.le_zero.mp (Nat.le_trans s.inProgress_le (Nat.le_of_eq (total_unfinished_of_isClosed h)))

/-- Closed runs do nothing. -/
theorem act?_of_isClosed (h : ∀ r ∈ s.runs, r.IsClosed) (i : Nat) (a : Work.Action) :
    s.act? i a = none := by
  cases ha : s.act? i a with
  | none => rfl
  | some s' =>
      obtain ⟨r, _, _, hr, _, _⟩ := act?_eq_some_iff.mp ha
      exact absurd (h r (List.mem_of_getElem? hr)) (not_isClosed_of_act? hr ha)

/-! ## Runs that hand nothing out -/

/-- Every run is closed, or its signal has been fired. -/
def Stopped (s : Site) : Prop :=
  ∀ r ∈ s.runs, r.IsClosed ∨ ∃ u p, r.work = .pool u p ∧ s.signals.isFired r.signal

/-- Runs that have stopped stay so, and hand nothing out. -/
theorem Stopped.act (h : s.Stopped) {i : Nat} {a : Work.Action} (ha : s.act? i a = some s') :
    s'.Stopped ∧ s'.signals = s.signals ∧ s'.handedOut = s.handedOut ∧
      s'.unfinished ≤ s.unfinished := by
  obtain ⟨r, events, w, hr, hw, rfl⟩ := act?_eq_some_iff.mp ha
  rcases h r (List.mem_of_getElem? hr) with hc | ⟨u, p, hwork, hfired⟩
  · exact absurd hc (not_isClosed_of_act? hr ha)
  · rw [hwork, hfired] at hw
    cases a with
    | play x => cases hw
    | pool x =>
        obtain ⟨p', hp, heq⟩ := Option.map_eq_some_iff.mp hw
        cases heq
        obtain ⟨hout, hless⟩ := Pool.stopped_step hp
        obtain ⟨hi, hget⟩ := List.getElem?_eq_some_iff.mp hr
        have hruns : s.runs = s.runs.take i ++ r :: s.runs.drop (i + 1) := by
          rw [← hget, List.getElem_cons_drop, List.take_append_drop]
        have hset : s.runs.set i ⟨r.engine, r.signal, .pool u p'⟩ =
            s.runs.take i ++ ⟨r.engine, r.signal, .pool u p'⟩ :: s.runs.drop (i + 1) := by
          rw [List.set_eq_take_append_cons_drop, if_pos hi]
        refine ⟨?_, rfl, ?_, ?_⟩
        · intro r' hr'
          rcases List.mem_or_eq_of_mem_set hr' with hm | rfl
          · exact h r' hm
          · exact .inr ⟨u, p', rfl, hfired⟩
        · rw [handedOut, handedOut, pools_eq hset rfl, pools_eq hruns hwork]
          simp only [List.flatMap_append, List.flatMap_cons, hout]
        · rw [unfinished, unfinished, pools_eq hset rfl, pools_eq hruns hwork]
          simp only [total_append, total]
          omega

/-- The signal in use has been fired and nothing is handed out any more, while no more
components than a bound says are unfinished. -/
structure Halted (s : Site) (bound : Nat) : Prop where
  fired : s.isFired
  stopped : s.Stopped
  unfinished : s.unfinished ≤ bound

variable {bound : Nat}

theorem Halted.of_site (h : s.Halted bound) (hruns : s'.runs = s.runs)
    (hsignals : s'.signals = s.signals) : s'.Halted bound := by
  refine ⟨(isFired_of_signals hsignals).2 ▸ h.fired, ?_, ?_⟩
  · rw [Stopped, hruns, hsignals]
    exact h.stopped
  · rw [Site.unfinished, pools, hruns]
    exact h.unfinished

theorem Halted.act (h : s.Halted bound) {i : Nat} {a : Work.Action} (ha : s.act? i a = some s') :
    s'.Halted bound ∧ s'.handedOut = s.handedOut := by
  obtain ⟨hstopped, hsignals, hout, hless⟩ := h.stopped.act ha
  exact ⟨⟨(isFired_of_signals hsignals).2 ▸ h.fired, hstopped, Nat.le_trans hless h.unfinished⟩,
    hout⟩

theorem onReading_of_unread (h : s.reading = none) (f : Work → Work) : s.onReading f = s := by
  rw [onReading, h]

/-- A reader leaves although there was nothing to read. -/
theorem halted_of_unread (hfired : s.isFired) (hclosed : ∀ r ∈ s.runs, r.IsClosed)
    (hunread : s.reading = none) (bound : Nat) : (s.perform .released).Halted bound := by
  have hsame : s.Halted bound :=
    ⟨hfired, fun r hr => .inl (hclosed r hr),
      Nat.le_trans (Nat.le_of_eq (total_unfinished_of_isClosed hclosed)) (Nat.zero_le _)⟩
  refine hsame.of_site ?_ ?_
  · have hrec : (s.record none [.released]).reading = none := hunread
    rw [perform, carryOut, release, onReading_of_unread hrec]
    rfl
  · exact signals_perform rfl

/-- A reader leaves a pool whose signal has been fired. -/
theorem Attends.halted {engine : Nat} {idle : List Run} {u : Uninstaller} {p : Pool}
    (h : s.Attends engine idle u p) (hfired : s.isFired) (hidle : ∀ r ∈ idle, r.IsClosed)
    (hp : p.unfinished ≤ bound) : (s.perform .released).Halted bound := by
  obtain ⟨hruns, _, hsignals⟩ := h.left
  refine ⟨(isFired_of_signals hsignals).2 ▸ hfired, ?_, ?_⟩
  · intro r hr
    rw [hruns] at hr
    rcases List.mem_append.mp hr with hm | hm
    · exact .inl (hidle r hm)
    · rw [List.mem_singleton.mp hm, hsignals]
      exact .inr ⟨u, _, rfl, hfired⟩
  · rw [Site.unfinished, pools_eq hruns rfl, total_append, total_unfinished_of_isClosed hidle,
      Nat.zero_add]
    exact hp

end Site

end Decommission
