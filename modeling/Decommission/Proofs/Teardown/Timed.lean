import Decommission.Proofs.Course.Turns
import Decommission.Proofs.Teardown.Chores
import Decommission.Proofs.Teardown.Errands

/-!
# Teardowns in time

A teardown on the clock that drives its pauses.  The coordinator and the workers move in
any order and take no time.  Time passes only while the coordinator pauses, and then until
the pause is over.

A teardown at a site where nothing else goes on takes such a course, and it comes to a result
(`Teardown.Timed.exists_play_conduct`).  No cluster can keep it from that: the coordinator has
so many moves left (`movesLeft`), and before each of them the workers go on once and time
passes once.
-/

namespace Decommission

/-! ## Sites where nothing goes on by itself -/

/-- A site without runs, at which no engine is asked to start. -/
structure Site.Still (s : Site) : Prop where
  runs : s.runs = []
  launch : s.launch = none

namespace Site.Still

variable {s : Site} {es : List Event}

theorem performAll (h : s.Still) (hes : ∀ e ∈ es, e.isOfTeardown) :
    (s.performAll es).Still ∧ (s.performAll es).now = s.now := by
  refine ⟨?_, (Site.ground_performAll s es).2⟩
  refine Site.performAll_induction h fun t e he ht => ?_
  cases e with
  | called c => exact ⟨ht.runs, ht.launch⟩
  | note n => exact ⟨ht.runs, ht.launch⟩
  | _ => cases hes _ he

theorem work?_eq_none (h : s.Still) : s.work? = none := by
  rw [Site.work?, h.runs]
  rfl

theorem alarm?_eq_none (h : s.Still) : s.alarm? = none := by
  rw [Site.alarm?, h.runs, h.launch]
  rfl

end Site.Still

/-! ## Work that is done -/

namespace Worker

variable {κ : Type} [Cluster κ]

theorem isOver_of_step?_eq_none {w : Worker} {k : κ} (h : w.step? k = none) : w.isOver := by
  rw [step?] at h
  split at h
  · rw [isOver, ‹w.errands = []›]
    rfl
  · cases h
  · cases h
  · cases h

theorem isOver_run (w : Worker) (k : κ) : (w.run k).worker.isOver := by
  induction w, k using Worker.run.induct with
  | case1 w k hstep =>
      rw [run_of_step?_eq_none hstep]
      exact isOver_of_step?_eq_none hstep
  | case2 w k turn hstep ih =>
      rw [run_of_step?_eq_some hstep]
      exact ih

end Worker

namespace Teardown

variable {κ : Type}

/-- So many moves of the coordinator are left for namespaces, the first of which could not be
handed over a number of times. -/
def looksLeft (attempts failed : Nat) : List String → Nat
  | [] => 0
  | _ :: rest => rest.length * (2 * attempts + 2) + 2 * (attempts - failed) + 2

/-- So many moves are left to the coordinator at most. -/
def movesLeft (t : Teardown κ) : Nat :=
  match t.stage with
  | .checking failed rest => looksLeft t.policy.attempts failed rest + t.workers.length + 2
  | .pausing _ failed rest => looksLeft t.policy.attempts failed rest + t.workers.length + 3
  | .joining next => t.workers.length - next + 1
  | .ended _ => 0

theorem looksLeft_zero_le (attempts : Nat) (rest : List String) :
    looksLeft attempts 0 rest ≤ rest.length * (2 * attempts + 2) := by
  cases rest with
  | nil => exact Nat.zero_le _
  | cons x rest =>
      rw [looksLeft, List.length_cons, Nat.succ_mul rest.length]
      omega

/-- Leaving a namespace behind pays for handing it over. -/
theorem looksLeft_lt (attempts failed : Nat) (x : String) (rest : List String) :
    looksLeft attempts 0 rest + 1 < looksLeft attempts failed (x :: rest) := by
  have hle := looksLeft_zero_le attempts rest
  rw [looksLeft]
  omega

theorem movesLeft_start (policy : RetryPolicy) (systemSpace : String) (targets : List Target)
    (spaces : List String) (k : κ) : (start policy systemSpace targets spaces k).movesLeft ≤
      spaces.length * (2 * policy.attempts + 2) + 2 :=
  Nat.add_le_add_right (looksLeft_zero_le ..) 2

variable [Cluster κ] {t t' : Teardown κ} {now : Nat} {es : List Event}

theorem movesLeft_step? (h : t.step? now = some (es, t')) : t'.movesLeft < t.movesLeft := by
  cases step?_cases h with
  | drained failed hs =>
      simp only [movesLeft, hs]
      omega
  | handed failed space rest hs =>
      have hlt := looksLeft_lt t.policy.attempts failed space rest
      simp only [movesLeft, hs, handOver, listed, List.length_append, List.length_singleton]
      omega
  | paused failed due space rest notes hs =>
      rw [step?, hs] at h
      have hlt : failed + 1 < t.policy.attempts :=
        lt_attempts_of_check (congrArg (fun x => x.2.stage) (Option.some.inj h))
      simp only [movesLeft, hs, listed, looksLeft]
      omega
  | skipped failed space rest | unreachable failed space rest =>
      have hlt := looksLeft_lt t.policy.attempts failed space rest
      simp only [movesLeft, ‹t.stage = _›, listed]
      omega
  | resumed due failed rest hs =>
      simp only [movesLeft, hs]
      omega
  | joined next w hs hw | buried next w hs hw =>
      have hlt := (List.getElem?_eq_some_iff.mp hw).1
      simp only [movesLeft, hs]
      omega
  | concluded next hs =>
      rw [conclude_snd]
      simp only [movesLeft, hs]
      omega

/-! ## The workers -/

theorem runAll_workers (ws : List Worker) (k : κ) :
    (runAll k ws).workers.length = ws.length ∧ (runAll k ws).workers.all Worker.isOver := by
  induction ws generalizing k with
  | nil => exact ⟨rfl, rfl⟩
  | cons w ws ih =>
      obtain ⟨hlength, hover⟩ := ih (w.run k).cluster
      refine ⟨congrArg (· + 1) hlength, ?_⟩
      rw [runAll, List.all_cons, Worker.isOver_run w k]
      exact hover

/-- What the workers do leaves the coordinator where it is, and then they are over. -/
theorem frame_assist? (h : t.assist? = some (es, t')) : t.workers.all Worker.isOver = false ∧
    t'.workers.all Worker.isOver ∧ t'.workers.length = t.workers.length ∧
    t'.stage = t.stage ∧ t'.policy = t.policy := by
  rw [assist?] at h
  split at h
  · cases h
  · rename_i hbusy
    cases h
    obtain ⟨hlength, hover⟩ := runAll_workers t.workers t.cluster
    exact ⟨Bool.eq_false_iff.mpr hbusy, hover, hlength, rfl, rfl⟩

/-- The workers only call the cluster and take notes. -/
theorem isOfTeardown_of_assist? (h : t.assist? = some (es, t')) : ∀ e ∈ es, e.isOfTeardown := by
  obtain ⟨xs, hxs⟩ := exists_play_assist? h
  have hall : ∀ e ∈ (play (recorded errand?) ([], t) xs).1, e.isOfTeardown := by
    refine play_induction (P := fun j : List Event × Teardown κ => ∀ e ∈ j.1, e.isOfTeardown)
      ?_ (fun _ he => absurd he List.not_mem_nil) xs
    intro i j k hj hm e he
    obtain ⟨es, hm, hes⟩ := recorded_eq_some_iff.mp hm
    rw [hes] at he
    exact (List.mem_append.mp he).elim (hj e) (isOfTeardown_of_move? (m := .errand i) hm)
  rw [hxs] at hall
  exact hall

/-! ## The clock -/

/-- A teardown at a certain millisecond. -/
structure Timed (κ : Type) where
  teardown : Teardown κ
  now : Nat

namespace Timed

inductive Move
  | coordinate
  | errand (i : Nat)
  /-- The pause of the coordinator passes. -/
  | wait

/-- A move, if it is possible. -/
def move? : Move → Timed κ → Option (Timed κ)
  | .coordinate, t => (t.teardown.step? t.now).map fun (_, u) => ⟨u, t.now⟩
  | .errand i, t => (t.teardown.workerStep? i).map fun (_, u) => ⟨u, t.now⟩
  | .wait, t => do
      let due ← t.teardown.alarm?
      if t.now < due then some ⟨t.teardown, due⟩ else none

/-- The teardown of a course, at the time of its site. -/
def of (c : Course (Teardown κ)) : Timed κ := ⟨c.director, c.site.now⟩

/-! ## The usual course -/

variable {c c' : Course (Teardown κ)}

theorem turn?_of_still (h : c.site.Still) (hr : c.director.result? = none) :
    c.turn? = c.direct?.or (c.assist?.or c.elapse?) := by
  have hover : Director.isOver c.director = false := congrArg Option.isSome hr
  rw [Course.turn?, hover, Course.workOff?, h.work?_eq_none]
  cases c.direct? with
  | some c' => rfl
  | none =>
      cases c.assist? with
      | some c' => rfl
      | none => rfl

/-- A turn is a move of the coordinator, all that is left to the workers, or a pause. -/
inductive Turned (c c' : Course (Teardown κ)) : Prop
  | directed (es : List Event) : c.director.step? c.site.now = some (es, c'.director) →
      c'.site = c.site.performAll es → Turned c c'
  | assisted (es : List Event) : c.director.assist? = some (es, c'.director) →
      c'.site = c.site.performAll es → Turned c c'
  | elapsed (due : Nat) : c.director.alarm? = some due → c.site.now < due →
      c' = ⟨c.director, { c.site with now := due }⟩ → Turned c c'

/-- The pause of the coordinator is all that time is waited for. -/
theorem alarm?_of_still (h : c.site.Still) : c.alarm? = c.director.alarm? := by
  rw [Course.alarm?, h.alarm?_eq_none]
  cases hd : Director.alarm? c.director with
  | none => exact hd.symm
  | some due => exact hd.symm

theorem turned_of_turn? (h : c.site.Still) (hr : c.director.result? = none)
    (ht : c.turn? = some c') : Turned c c' := by
  rw [turn?_of_still h hr] at ht
  rcases Option.or_eq_some_iff.mp ht with hd | ⟨_, ht⟩
  · obtain ⟨es, d, hs, rfl⟩ := Course.direct?_eq_some_iff.mp hd
    exact .directed es hs rfl
  · rcases Option.or_eq_some_iff.mp ht with ha | ⟨_, he⟩
    · obtain ⟨es, d, hs, rfl⟩ := Course.assist?_eq_some_iff.mp ha
      exact .assisted es hs rfl
    · obtain ⟨due, halarm, hlt, rfl⟩ := Course.elapse?_eq_some_iff.mp he
      exact .elapsed due (alarm?_of_still h ▸ halarm) hlt rfl

/-- The coordinator can move at any time, unless it pauses. -/
theorem lt_alarm_of_step?_eq_none {t u : Teardown κ} {now now' : Nat} {es : List Event}
    (h : t.step? now' = some (es, u)) (hn : t.step? now = none) :
    ∃ due, t.alarm? = some due ∧ now < due := by
  rw [step?] at h hn
  cases hs : t.stage with
  | checking failed rest =>
      rw [hs] at hn
      cases rest <;> cases hn
  | pausing due failed rest =>
      rw [hs] at hn
      refine ⟨due, by rw [alarm?, hs], Nat.lt_of_not_le fun hle => ?_⟩
      cases (if_pos hle).symm.trans hn
  | joining next =>
      rw [hs] at h hn
      cases h.symm.trans hn
  | ended r =>
      rw [hs] at h
      cases h

/-- As long as there is no result, somebody moves or time passes. -/
theorem isSome_turn? (h : c.site.Still) (hr : c.director.result? = none) : c.turn?.isSome := by
  rw [turn?_of_still h hr, Option.isSome_or, Option.isSome_or, Bool.or_eq_true, Bool.or_eq_true]
  obtain ⟨m, es, u, hm⟩ := exists_move? hr
  cases m with
  | errand i =>
      obtain ⟨w, turn, hw, hstep, _, _⟩ := workerStep?_eq_some_iff.mp hm
      have hbusy : ¬ c.director.workers.all Worker.isOver := fun hall => by
        have hover := List.all_eq_true.mp hall w (List.mem_of_getElem? hw)
        rw [Worker.step?, List.isEmpty_iff.mp hover] at hstep
        cases hstep
      have hassist : (Director.assist? c.director).isSome :=
        congrArg Option.isSome (if_neg hbusy : c.director.assist? = _)
      obtain ⟨⟨es, d⟩, hs⟩ := Option.isSome_iff_exists.mp hassist
      exact Or.inr (Or.inl (congrArg Option.isSome
        (Course.assist?_eq_some_iff.mpr ⟨es, d, hs, rfl⟩)))
  | coordinate now =>
      cases hs : c.director.step? c.site.now with
      | some x => exact Or.inl (congrArg Option.isSome
          (Course.direct?_eq_some_iff.mpr ⟨x.1, x.2, hs, rfl⟩))
      | none =>
          obtain ⟨due, halarm, hlt⟩ := lt_alarm_of_step?_eq_none hm hs
          exact Or.inr (Or.inr (congrArg Option.isSome
            (Course.elapse?_eq_some_iff.mpr ⟨due, (alarm?_of_still h).trans halarm, hlt, rfl⟩)))

/-- The moves of a turn. -/
theorem exists_play_turn (h : Turned c c') :
    ∃ ms, play move? (of c) ms = ⟨c'.director, c'.site.now⟩ := by
  cases h with
  | directed es hs hsite =>
      have hm : move? .coordinate (of c) = some ⟨c'.director, c.site.now⟩ := by
        show (c.director.step? c.site.now).map _ = _
        rw [hs]
        rfl
      refine ⟨[.coordinate], ?_⟩
      rw [play_cons_of_eq_some hm, play_nil, hsite, (Site.ground_performAll c.site es).2]
  | assisted es hs hsite =>
      obtain ⟨xs, hxs⟩ := exists_play_assist? hs
      have hone : ∀ i (j : List Event × Teardown κ),
          (recorded errand? i j).map (fun j => (⟨j.2, c.site.now⟩ : Timed κ)) =
            move? (.errand i) ⟨j.2, c.site.now⟩ := by
        intro i j
        rw [recorded, Option.map_map]
        rfl
      have hplay := play_map hone ([], c.director) xs
      rw [hxs] at hplay
      refine ⟨xs.map .errand, ?_⟩
      rw [play, List.foldl_map, hsite, (Site.ground_performAll c.site es).2]
      exact hplay.symm
  | elapsed due halarm hlt hc =>
      have hm : move? .wait (of c) = some ⟨c.director, due⟩ := by
        show (do let due ← c.director.alarm?; if c.site.now < due then _ else _) = _
        rw [halarm]
        exact if_pos hlt
      refine ⟨[.wait], ?_⟩
      rw [play_cons_of_eq_some hm, play_nil, hc]

theorem Turned.still (ht : Turned c c') (h : c.site.Still) : c'.site.Still := by
  cases ht with
  | directed es hs hsite =>
      rw [hsite]
      exact (h.performAll fun e he => isOfTeardown_of_move? (m := .coordinate c.site.now) hs he).1
  | assisted es hs hsite =>
      rw [hsite]
      exact (h.performAll (isOfTeardown_of_assist? hs)).1
  | elapsed due halarm hlt hc =>
      rw [hc]
      exact ⟨h.runs, h.launch⟩

/-! ## It comes to a result -/

/-- Whether a pause has to pass. -/
def isWaiting (t : Timed κ) : Bool := t.teardown.alarm?.any (t.now < ·)

/-- So many turns are left at most.  Before a move of the coordinator, the workers may go on
once and a pause may pass. -/
def turnsLeft (t : Timed κ) : Nat :=
  3 * t.teardown.movesLeft + (!t.teardown.workers.all Worker.isOver).toNat + t.isWaiting.toNat

theorem Turned.turnsLeft_lt (ht : Turned c c') : turnsLeft (of c') < turnsLeft (of c) := by
  cases ht with
  | directed es hs hsite =>
      have hlt : (of c').teardown.movesLeft < (of c).teardown.movesLeft := movesLeft_step? hs
      have hbusy := Bool.toNat_le (!(of c').teardown.workers.all Worker.isOver)
      have hwait := Bool.toNat_le (of c').isWaiting
      rw [turnsLeft, turnsLeft]
      omega
  | assisted es hs hsite =>
      obtain ⟨hbusy, hover, hlength, hstage, hpolicy⟩ := frame_assist? hs
      have hmoves : (of c').teardown.movesLeft = (of c).teardown.movesLeft := by
        show c'.director.movesLeft = c.director.movesLeft
        simp only [movesLeft, hstage, hpolicy, hlength]
      have hwait : (of c').isWaiting = (of c).isWaiting := by
        have hnow : c'.site.now = c.site.now := hsite ▸ (Site.ground_performAll c.site es).2
        show c'.director.alarm?.any (c'.site.now < ·) = c.director.alarm?.any (c.site.now < ·)
        rw [hnow, alarm?, alarm?, hstage]
      rw [turnsLeft, turnsLeft, hmoves, hwait]
      show 3 * _ + (!c'.director.workers.all Worker.isOver).toNat + _ <
        3 * _ + (!c.director.workers.all Worker.isOver).toNat + _
      rw [hbusy, hover, Bool.not_true, Bool.not_false, Bool.toNat_false, Bool.toNat_true]
      omega
  | elapsed due halarm hlt hc =>
      have hbefore : (of c).isWaiting = true := by
        show c.director.alarm?.any (c.site.now < ·) = true
        rw [halarm]
        exact decide_eq_true hlt
      have hafter : (of c').isWaiting = false := by
        rw [hc]
        show c.director.alarm?.any (due < ·) = false
        rw [halarm]
        exact decide_eq_false (Nat.lt_irrefl due)
      rw [turnsLeft, turnsLeft, hbefore, hafter, hc]
      exact Nat.lt_succ_self _

/-- A teardown at a site where nothing else goes on comes to a result, and it takes one of the
courses in time. -/
theorem exists_play_conduct (policy : RetryPolicy) (systemSpace : String) (targets : List Target)
    (spaces : List String) (k : κ) {site : Site} (h : site.Still) :
    ∃ ms, play move? ⟨start policy systemSpace targets spaces k, site.now⟩ ms =
        of ((start policy systemSpace targets spaces k).conduct site) ∧
      ((start policy systemSpace targets spaces k).conduct site).director.result?.isSome := by
  let t := start policy systemSpace targets spaces k
  have hstep : ∀ c c' : Course (Teardown κ),
      (c.site.Still ∧ ∃ ms, play move? ⟨t, site.now⟩ ms = of c) → c.turn? = some c' →
        (c'.site.Still ∧ ∃ ms, play move? ⟨t, site.now⟩ ms = of c') ∧
          turnsLeft (of c') < turnsLeft (of c) := by
    rintro c c' ⟨hstill, ms, hms⟩ ht
    have hr : c.director.result? = none := by
      cases hr : c.director.result? with
      | none => rfl
      | some r =>
          have hover : Director.isOver c.director := congrArg Option.isSome hr
          rw [Course.turn?, if_pos hover] at ht
          cases ht
    have hturned := turned_of_turn? hstill hr ht
    obtain ⟨ns, hns⟩ := exists_play_turn hturned
    exact ⟨⟨hturned.still hstill, ms ++ ns, by rw [play_append, hms, hns]; rfl⟩,
      hturned.turnsLeft_lt⟩
  have hbound : turnsLeft (of ⟨t, site⟩) ≤ Course.bound ⟨t, site⟩ := by
    have hmoves : t.movesLeft ≤ spaces.length * (2 * policy.attempts + 2) + 2 :=
      movesLeft_start ..
    have hmore : spaces.length * (2 * policy.attempts + 2) ≤
        spaces.length * (2 * policy.attempts + 4) := Nat.mul_le_mul_left _ (by omega)
    have hsteps : Director.steps t = spaces.length * (2 * policy.attempts + 4) + 4 := rfl
    have hwait := Bool.toNat_le (of ⟨t, site⟩).isWaiting
    have hbusy := Bool.toNat_le (!(of ⟨t, site⟩).teardown.workers.all Worker.isOver)
    rw [Course.bound, turnsLeft]
    show 3 * t.movesLeft + _ + _ ≤ 4 * (site.effort + Director.steps t) + 16
    rw [hsteps]
    omega
  obtain ⟨⟨hstill, hms⟩, hend⟩ := Course.run_of_descent (c := ⟨t, site⟩)
    (μ := fun c => turnsLeft (of c)) hstep ⟨h, [], rfl⟩ hbound
  obtain ⟨ms, hms⟩ := hms
  refine ⟨ms, hms, ?_⟩
  cases hr : (t.conduct site).director.result? with
  | some r => rfl
  | none =>
      have hturn := isSome_turn? hstill hr
      rw [hend] at hturn
      cases hturn

end Timed

end Teardown

end Decommission
