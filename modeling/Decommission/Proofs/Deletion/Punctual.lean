import Decommission.Cluster.Empty
import Decommission.Proofs.Deletion.Deadlines
import Decommission.Proofs.Rounds

/-!
# Punctual deletions

A deletion whose settings fit the clock keeps to its deadlines, whatever its engines
show (`Timed.Punctual`), and leaves both phases behind (`Timed.punctual_play`).

For the latter somebody has to let the deletion look and time pass.  In a round the
engines show something, the deletion looks, and some time passes.  `Timed.effort` bounds
the rounds to come in which the deletion takes no report.
-/

namespace Decommission

namespace Deletion

variable {κ : Type}

namespace Timed

/-- A bound on the looks to come until both phases are left behind, other than to take a
report, and the milliseconds to come. -/
def effort (t : Timed κ) : Nat :=
  match t.deletion.stage with
  | .looking => t.deletion.config.quitTimeout.millis + 7
  | .components _ _ s => s.toGo t.now + 4
  | .prerequisites _ s => s.toGo t.now + 1
  | .tearing _ => 0
  | .ended _ => 0

/-- The engines show something, the deletion looks, and some time passes. -/
structure Round where
  answer : Option (Except EngineError Unit)
  head : Head
  patience : Nat

def Round.moves (r : Round) : List Move :=
  [.shown r.answer r.head, .look, .wait (r.patience + 1)]

variable {config : Config} {start cancel quit now : Nat} {h k : History} {t : Timed κ}
  {s s' : Supervision} {es : List Event} {d : Deletion κ}

theorem isPast_iff_effort : t.deletion.isPast ↔ t.effort = 0 := by
  obtain ⟨⟨config, metadata, cluster, stage⟩, now, answer, head⟩ := t
  cases stage with
  | tearing | ended => exact iff_of_true rfl rfl
  | _ => exact iff_of_false Bool.false_ne_true (Nat.succ_ne_zero _)

theorem isPast_withTeardown (d : Deletion κ) (tear : Teardown κ) :
    (d.withTeardown tear).isPast := by
  rw [withTeardown]
  split
  · rfl
  · rfl
  · rfl

theorem effort_looking (hf : t.deletion.config.budget.Fits start cancel quit)
    (hs : t.deletion.stage = .looking) : t.effort = quit + 7 := by
  have hquit : t.deletion.config.quitTimeout.nanos = quit * nanosPerMilli := hf.quit_eq
  rw [effort, hs]
  show t.deletion.config.quitTimeout.millis + 7 = quit + 7
  rw [Duration.millis, hquit, Nat.mul_div_cancel _ (by decide)]

/-- Once the first phase has begun, no more is to come than its budget allows. -/
theorem effort_lookUp (hf : t.deletion.config.budget.Fits t.now cancel quit)
    (hl : t.deletion.lookUp t.glance = (es, d)) :
    effort { t with deletion := d } ≤ quit + 6 := by
  have htime := Supervision.inTime_start hf (Budget.continues_start hf.nanos_lt t.now)
    (Nat.le_add_right ..) .components componentsEngine
  have hgo := Supervision.toGo_start htime
  rw [Deletion.lookUp] at hl
  cases ha : t.deletion.metadata.answer with
  | error reason =>
      rw [ha] at hl
      cases hl
      exact Nat.zero_le _
  | ok found =>
      rw [ha] at hl
      cases hl
      simp only [effort, glance, hgo]
      omega

/-- A deletion that does nothing in a phase has its supervision do nothing. -/
theorem look_of_phase {g : Glance} {stay : Supervision → Stage κ}
    {next : List Event × Deletion κ}
    (h : (match s.look g with
      | none => none
      | some (events, s) =>
          match s.result? with
          | some result => some (d.afterPhase events result next)
          | none => some (events, { d with stage := stay s })) = none) : s.look g = none := by
  cases hl : s.look g with
  | none => rfl
  | some l =>
      rw [hl] at h
      dsimp only at h
      split at h
      · cases h
      · cases h

variable [Cluster κ]

/-- A look takes a report, or brings the end of the phases nearer. -/
theorem Kept.effort_look (hf : config.budget.Fits start cancel quit)
    (hk : Kept config start cancel quit h t) (hm : t.deletion.step? t.glance = some (es, d)) :
    effort { t with deletion := d } ≤ t.effort ∧
      (.received ∉ es → effort { t with deletion := d } ≤ t.effort - 1) := by
  have hpast : d.isPast → effort { t with deletion := d } ≤ t.effort ∧
      (.received ∉ es → effort { t with deletion := d } ≤ t.effort - 1) := by
    intro hd
    have hzero : effort { t with deletion := d } = 0 := isPast_iff_effort.mp hd
    rw [hzero]
    exact ⟨Nat.zero_le _, fun _ => Nat.zero_le _⟩
  obtain ⟨⟨config', metadata, cluster, stage⟩, now, answer, head⟩ := t
  obtain rfl := hk.settings
  cases hk.standing with
  | looking hnow =>
      obtain rfl := hnow
      rw [step?, Option.some.injEq] at hm
      have hle := effort_lookUp hf hm
      rw [effort_looking (t := ⟨_, now, answer, head⟩) hf rfl]
      exact ⟨Nat.le_trans hle (Nat.le_succ _), fun _ => hle⟩
  | components spaces s hstart hbudget hs =>
      cases phased_components rfl hm with
      | onward es s' hl hr =>
          obtain ⟨hle, hlt⟩ := Supervision.toGo_look hs hl hr
          exact ⟨Nat.add_le_add_right hle _, fun hn => Nat.le_sub_one_of_lt
            (Nat.add_lt_add_right (hlt hn) _)⟩
      | failed es s' e hl hr => exact hpast rfl
      | completed es s' hl hr =>
          -- The second phase has two steps before it again, and the same hard timer.
          have hgo := Supervision.toGo_start (inTime_begin hf hk.start_le (hs.le_of_ok hl hr)
            .prerequisites prerequisitesEngine)
          have hleft : start + quit - now ≤ s.toGo now := by
            rw [Supervision.toGo, hs.quitTick]
            exact Nat.le_add_right ..
          simp only [effort, beginPrerequisites, rebalance, glance, hgo]
          exact ⟨by omega, fun _ => by omega⟩
  | prerequisites spaces s elapsed hmem hcont hs =>
      cases phased_prerequisites rfl hm with
      | onward es s' hl hr =>
          obtain ⟨hle, hlt⟩ := Supervision.toGo_look hs hl hr
          exact ⟨Nat.add_le_add_right hle _, fun hn => Nat.le_sub_one_of_lt
            (Nat.add_lt_add_right (hlt hn) _)⟩
      | failed es s' e hl hr => exact hpast rfl
      | completed es s' hl hr =>
          refine hpast ?_
          exact isPast_withTeardown _
            (.start config'.retry config'.systemNamespace stuckTargets spaces cluster)
  | tearing tear =>
      obtain ⟨⟨es, tear'⟩, _, heq⟩ := Option.map_eq_some_iff.mp hm
      cases heq
      exact hpast (isPast_withTeardown _ tear')
  | ended r => cases hm

/-- If there is nothing to do but wait, a wait brings the end of the phases nearer. -/
theorem Kept.effort_wait (hk : Kept config start cancel quit h t)
    (hidle : t.deletion.step? t.glance = none) (ms : Nat) :
    effort { t with now := t.waitEnd (ms + 1) } ≤ t.effort - 1 := by
  obtain ⟨⟨config', metadata, cluster, stage⟩, now, answer, head⟩ := t
  cases hk.standing with
  | looking => cases hidle
  | components spaces s hstart hbudget hs =>
      have hlt := Supervision.toGo_wait hs (look_of_phase hidle) ms hs.alarm?_eq
      simp only [effort, waitEnd, Deletion.alarm?, hs.alarm?_eq]
      exact Nat.le_sub_one_of_lt (Nat.add_lt_add_right hlt _)
  | prerequisites spaces s elapsed hmem hcont hs =>
      have hlt := Supervision.toGo_wait hs (look_of_phase hidle) ms hs.alarm?_eq
      simp only [effort, waitEnd, Deletion.alarm?, hs.alarm?_eq]
      exact Nat.le_sub_one_of_lt (Nat.add_lt_add_right hlt _)
  | tearing | ended => exact Nat.le_refl 0

/-! ## Rounds -/

/-- A wait does no harm, and if there is nothing else to do it brings the end of the
phases nearer. -/
theorem Kept.play_wait (hk : Kept config start cancel quit h t) (ms : Nat) :
    ∃ t', play (recorded Timed.move?) (h, t) [.wait (ms + 1)] = (h, t') ∧
      Kept config start cancel quit h t' ∧ t'.effort ≤ t.effort ∧
      (t.deletion.step? t.glance = none → t'.effort ≤ t.effort - 1) := by
  cases hs : t.deletion.step? t.glance with
  | none =>
      have hwait : recorded Timed.move? (.wait (ms + 1)) (h, t) =
          some (h ++ [], { t with now := t.waitEnd (ms + 1) }) := by
        rw [recorded, Timed.move?, hs]
        rfl
      have hless := hk.effort_wait hs ms
      refine ⟨{ t with now := t.waitEnd (ms + 1) }, ?_, hk.wait hs _,
        Nat.le_trans hless (Nat.sub_le ..), fun _ => hless⟩
      rw [play_cons_of_eq_some hwait, List.append_nil, play_nil]
  | some l =>
      have hwait : recorded Timed.move? (.wait (ms + 1)) (h, t) = none := by
        rw [recorded, Timed.move?, hs]
        rfl
      refine ⟨t, ?_, hk, Nat.le_refl _, fun hnone => absurd hnone (Option.some_ne_none l)⟩
      rw [play_cons_of_eq_none hwait, play_nil]

/-- A round in which no report is taken brings the end of the phases nearer. -/
theorem Kept.play_round (hf : config.budget.Fits start cancel quit)
    (hk : Kept config start cancel quit h t) (r : Round) :
    ∃ k t', play (recorded Timed.move?) (h, t) r.moves = (h ++ k, t') ∧
      Kept config start cancel quit (h ++ k) t' ∧ t'.effort ≤ t.effort ∧
      (k.receipts = 0 → t'.effort ≤ t.effort - 1) := by
  obtain ⟨d, now, answer, head⟩ := t
  have hshown : recorded Timed.move? (.shown r.answer r.head) (h, ⟨d, now, answer, head⟩) =
      some (h ++ [], ⟨d, now, r.answer, r.head⟩) := rfl
  have hk₁ : Kept config start cancel quit h ⟨d, now, r.answer, r.head⟩ :=
    ⟨hk.settings, hk.start_le, hk.timely, hk.standing⟩
  have heffort : effort ⟨d, now, answer, head⟩ = effort ⟨d, now, r.answer, r.head⟩ := rfl
  rw [Round.moves, play_cons_of_eq_some hshown, List.append_nil, heffort]
  cases hs : d.step? (glance ⟨d, now, r.answer, r.head⟩) with
  | none =>
      have hlook : recorded Timed.move? .look (h, ⟨d, now, r.answer, r.head⟩) = none := by
        rw [recorded, Timed.move?, hs]
        rfl
      obtain ⟨t', hplay, hk', hle, hlt⟩ := hk₁.play_wait r.patience
      rw [play_cons_of_eq_none hlook, hplay]
      exact ⟨[], t', by rw [List.append_nil], by rwa [List.append_nil], hle, fun _ => hlt hs⟩
  | some l =>
      obtain ⟨es, d'⟩ := l
      have hlook : recorded Timed.move? .look (h, ⟨d, now, r.answer, r.head⟩) =
          some (h ++ es.map (⟨now, none, ·⟩), ⟨d', now, r.answer, r.head⟩) := by
        rw [recorded, Timed.move?, hs]
        rfl
      obtain ⟨hle, hlt⟩ := hk₁.effort_look hf hs
      obtain ⟨t', hplay, hk', hle', _⟩ := (hk₁.look hf hs).play_wait r.patience
      rw [play_cons_of_eq_some hlook, hplay]
      exact ⟨_, t', rfl, hk', Nat.le_trans hle' hle, fun hnone =>
        Nat.le_trans hle' (hlt (History.received_notMem hnone))⟩

theorem Kept.play_rounds (hf : config.budget.Fits start cancel quit)
    (hk : Kept config start cancel quit h t) (rs : List Round) :
    ∃ k t', play (recorded Timed.move?) (h, t) (rs.flatMap Round.moves) = (h ++ k, t') ∧
      t'.effort ≤ t.effort - (rs.length - k.receipts) := by
  obtain ⟨k, t', hplay, _, hle⟩ := Decommission.play_rounds
    (fun r _ h t (hk : Kept config start cancel quit h t) => hk.play_round hf r) hk
  exact ⟨k, t', hplay, hle⟩

/-! ## The theorem -/

/-- For settings that pass their check, whose timeouts are whole milliseconds within the
range of the clock: whatever the engines show, the deletion keeps to the two deadlines
that its settings give from the start, and it leaves both phases behind after a bounded
number of rounds in which it takes no report. -/
theorem punctual_play (config : Config) (hconfig : config.validate = .ok ())
    (hcancel : config.cancelTimeout.nanos = cancel * nanosPerMilli)
    (hquit : config.quitTimeout.nanos = quit * nanosPerMilli)
    (hclock : start * nanosPerMilli + config.quitTimeout.nanos < clockRange)
    (metadata : Metadata) (cluster : κ) :
    (∀ ms, Punctual config start (after { config, metadata, cluster } start ms).1
      (after { config, metadata, cluster } start ms).2) ∧
    ∀ rs : List Round,
      quit + 7 + (after { config, metadata, cluster } start (rs.flatMap Round.moves)).1.receipts
          ≤ rs.length →
        (after { config, metadata, cluster } start (rs.flatMap Round.moves)).2.deletion.isPast := by
  have hlt : config.cancelTimeout.nanos < config.quitTimeout.nanos :=
    (Config.validate_eq_ok_iff.mp hconfig).1
  have hf : config.budget.Fits start cancel quit := by
    refine ⟨hcancel, hquit, ?_, hclock⟩
    rw [hcancel, hquit] at hlt
    exact Nat.lt_of_mul_lt_mul_right hlt
  refine ⟨fun ms => (kept_after hf metadata cluster ms).punctual hf, fun rs hrs => ?_⟩
  obtain ⟨k, t, hplay, hle⟩ := Kept.play_rounds hf (kept_after hf metadata cluster []) rs
  have hafter : after { config, metadata, cluster } start (rs.flatMap Round.moves) = (k, t) :=
    hplay
  rw [effort_looking (t := (after { config, metadata, cluster } start []).2) hf rfl] at hle
  rw [hafter] at hrs ⊢
  refine isPast_iff_effort.mpr (Nat.le_zero.mp (Nat.le_trans hle ?_))
  have hrs : quit + 7 + k.receipts ≤ rs.length := hrs
  omega

/-- Settings with a soft timeout of two milliseconds and a hard one of five. -/
def brisk : Config :=
  { Config.standard with cancelTimeout := .ofMillis 2, quitTimeout := .ofMillis 5 }

/-- The engine of the first phase starts, reports once, and is done just at the soft
deadline.  The engine of the second phase never starts. -/
def stalling : List Round :=
  [⟨none, .nothing, 0⟩, ⟨some (.ok ()), .nothing, 0⟩, ⟨none, .report (.removed "a" "x"), 0⟩,
    ⟨none, .closed, 0⟩] ++ List.replicate 9 ⟨none, .nothing, 0⟩

/-- How things stand after these rounds. -/
def stalled : History × Timed EmptyCluster :=
  after ⟨brisk, .nothing, ⟨⟩, .looking⟩ 5 (stalling.flatMap Round.moves)

theorem punctual_stalled :
    (⟨7, none, .note (.rebalanced (.ofMillis 2) ⟨.zero, .ofMillis 3⟩)⟩ ∈ stalled.1 ∧
      ⟨10, none, .note (.abandoned .prerequisites)⟩ ∈ stalled.1) ∧
    Punctual brisk 5 stalled.1 stalled.2 ∧ stalled.2.deletion.isPast := by
  have hconfig : brisk.validate = .ok () := Config.validate_eq_ok_iff.mpr (by decide +kernel)
  have hcancel : brisk.cancelTimeout.nanos = 2 * nanosPerMilli := by decide +kernel
  have hquit : brisk.quitTimeout.nanos = 5 * nanosPerMilli := by decide +kernel
  have hclock : 5 * nanosPerMilli + brisk.quitTimeout.nanos < clockRange := by decide +kernel
  obtain ⟨hpunctual, hpast⟩ := punctual_play brisk hconfig hcancel hquit hclock .nothing
    (⟨⟩ : EmptyCluster)
  have hrounds : 5 + 7 + stalled.1.receipts ≤ stalling.length := by decide +kernel
  have hboth : ⟨7, none, .note (.rebalanced (.ofMillis 2) ⟨.zero, .ofMillis 3⟩)⟩ ∈ stalled.1 ∧
      ⟨10, none, .note (.abandoned .prerequisites)⟩ ∈ stalled.1 := by decide +kernel
  rw [stalled] at hrounds hboth ⊢
  exact ⟨hboth, hpunctual _, hpast stalling hrounds⟩

end Timed

end Deletion

end Decommission
